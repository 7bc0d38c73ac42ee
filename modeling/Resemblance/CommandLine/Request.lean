import Resemblance.CommandLine.Parameter
import Resemblance.Decimal.Reading
import Resemblance.Report.Format

/-!
# What a command line asks for

Arguments are read from left to right, and the first that decides the outcome
ends the reading: a mistake, or a demand for the help text or the version.
-/

namespace Resemblance.CommandLine

/-- A comparison of files, with what overrides the settings. -/
structure Request where
  files : List String := []
  threshold : Option Float := none
  format : Option ReportFormat := none
  output : Option String := none
  noStatistics : Bool := false
  parallel : Bool := false
  /-- The path of a file with settings. -/
  settings : Option String := none
  logLevel : Option String := none

inductive Command where
  | compare (request : Request)
  | help (detailed : Bool)
  | version
  /-- The arguments make no sense. -/
  | misuse

/-- What one argument is by itself. -/
inductive Argument where
  /-- Everything after it is a file. -/
  | endOfParameters
  | parameter (p : Parameter) (long : Bool) (value : Option String)
  | unknown
  | plain (text : String)

namespace Argument

/-- The value behind an equals sign. -/
def attached? : List Char → Option String
  | '=' :: value => some (String.ofList value)
  | _ => none

/-- A letter that stands for a value has the rest of the argument for it, with
or without an equals sign; one without a value is complete at once. -/
def ofLetter (letter : Char) (rest : List Char) : Argument :=
  match Parameter.ofLetter? letter with
  | none => unknown
  | some p =>
    if p.takesValue ∧ rest ≠ [] then
      parameter p false (some ((attached? rest).getD (String.ofList rest)))
    else parameter p false none

def ofLongName (t : List Char) : Argument :=
  match Parameter.ofName? (String.ofList (t.takeWhile (· != '='))) with
  | none => unknown
  | some p =>
    let value := attached? (t.dropWhile (· != '='))
    if value.isSome ∧ !p.takesValue then unknown else parameter p true value

/-- A dash alone is plain. -/
def ofString (s : String) : Argument :=
  match s.toList with
  | ['-', '-'] => endOfParameters
  | '-' :: '-' :: t => ofLongName t
  | '-' :: letter :: rest => ofLetter letter rest
  | _ => plain s

end Argument

namespace Request

/-- A file has a name. -/
def addFile? (r : Request) (path : String) : Option Request :=
  if path.isEmpty then none else some { r with files := r.files ++ [path] }

/-- Gives a parameter its value, which has to be readable and the first for
it. -/
def setValue? (r : Request) (p : Parameter) (value : String) : Option Request :=
  match p with
  | .threshold =>
    if r.threshold.isSome then none
    else (Decimal.read? value).map fun x => { r with threshold := some x }
  | .format =>
    if r.format.isSome then none
    else (ReportFormat.parse value).toOption.map fun f =>
      { r with format := some f }
  | .output =>
    if r.output.isSome then none else some { r with output := some value }
  | .settings =>
    if r.settings.isSome ∨ value.isEmpty then none
    else some { r with settings := some value }
  | .logLevel =>
    if r.logLevel.isSome then none else some { r with logLevel := some value }
  | _ => none

/-- Turns a switch on, which can be done once. -/
def turnOn? (r : Request) : Parameter → Option Request
  | .noStatistics =>
    if r.noStatistics then none else some { r with noStatistics := true }
  | .parallel => if r.parallel then none else some { r with parallel := true }
  | _ => none

end Request

namespace Command

/-- Reads the arguments that are left. -/
def readFrom (r : Request) : List String → Command
  | [] => compare r
  | a :: rest =>
    match Argument.ofString a with
    | .endOfParameters =>
      match rest.foldlM Request.addFile? r with
      | some r => compare r
      | none => misuse
    | .unknown => misuse
    | .plain path =>
      match r.addFile? path with
      | some r => readFrom r rest
      | none => misuse
    | .parameter .help long _ => help long
    | .parameter .version _ _ => version
    | .parameter p _ (some value) =>
      match r.setValue? p value with
      | some r => readFrom r rest
      | none => misuse
    | .parameter p _ none =>
      if p.takesValue then
        match rest with
        | [] => misuse
        | next :: rest =>
          match Argument.ofString next with
          | .plain value =>
            match r.setValue? p value with
            | some r => readFrom r rest
            | none => misuse
          | _ => misuse
      else
        match r.turnOn? p with
        | some r => readFrom r rest
        | none => misuse

def ofArguments (arguments : List String) : Command := readFrom {} arguments

end Command

end Resemblance.CommandLine
