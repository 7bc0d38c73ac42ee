import Resemblance.CommandLine.Help
import Resemblance.CommandLine.Run
import Std.Time.DateTime.Timestamp

/-!
# The program

The paths that a request names are looked up once and make the disk that the
plan of the run is drawn up from.  Only the report is written.
-/

namespace Resemblance.Program

open CommandLine

/-- What a failed access says of the disk, if a disk can say it. -/
def diskError? : IO.Error → Option DiskError
  | .noFileOrDirectory .. => some .notFound
  | .inappropriateType _ _ "is a directory" => some .isADirectory
  | .inappropriateType _ _ "not a directory" => some .notADirectory
  | .invalidArgument _ _ "name too long" => some .nameTooLong
  | _ => none

/-- The locations on the way along a path, the last one first. -/
def waypoints (home : Location) (path : String) : List Location :=
  let t := path.toList
  (Text.splitAt '/' t).foldl
    (fun stops part =>
      let here := stops.headD []
      let next :=
        if !Path.isStep part then here
        else if part = ['.', '.'] then here.dropLast
        else here ++ [String.ofList part]
      next :: stops)
    [if t.head? = some '/' then [] else home]

/-- Puts what a path leads to on the disk, with the directories on the way. -/
def observe (d : Disk) (path : String) : IO Disk := do
  let entry? ←
    try
      let content ← IO.FS.readBinFile path
      pure (some (DiskEntry.file content))
    catch e =>
      pure (if diskError? e = some .isADirectory then some .directory else none)
  match entry?, waypoints d.home path with
  | some entry, target :: passed =>
    return (passed.foldl (fun d l => d.put l .directory) d).put target entry
  | _, _ => return d

def observeAll (r : Request) : IO Disk := do
  let home := (Path.steps (toString (← IO.currentDir))).map String.ofList
  (r.files ++ r.settings.toList).foldlM observe (Disk.empty home)

/-- Whether the log is to tell of files that were left out. -/
def tellsOfExclusions (r : Request) : Bool :=
  let level := Text.asciiLowered (r.logLevel.getD "warn")
  level ≠ "off" ∧ level ≠ "error"

def writeReport (p : Plan) : IO UInt32 := do
  let seconds := (← Std.Time.Timestamp.now).toSecondsSinceUnixEpoch.val
  try
    IO.FS.writeFile p.reportPath (p.report (.ofSeconds seconds))
    IO.print p.confirmation
    return 0
  catch e =>
    IO.eprint <| match diskError? e with
      | some error => (p.writingFailed error).line
      | none => s!"error: {e}\n"
    return 1

def compare (r : Request) : IO UInt32 := do
  match r.plan (← observeAll r) with
  | .error failure =>
    IO.eprint failure.line
    return 1
  | .ok plan =>
    if tellsOfExclusions r then
      for excluded in plan.analysis.excluded do
        IO.eprintln ("left out: " ++ excluded.reason)
    IO.print plan.shown
    if plan.writesReport then writeReport plan else return 0

def runCommand : Command → IO UInt32
  | .help detailed => do
    IO.print (helpText detailed)
    return 0
  | .version => do
    IO.print versionText
    return 0
  | .misuse => do
    IO.eprint ("error: invalid arguments\n\n" ++ usage ++
      "\n\nFor more information, try '--help'.\n")
    return 2
  | .compare r => compare r

end Resemblance.Program

def main (arguments : List String) : IO UInt32 :=
  Resemblance.Program.runCommand (.ofArguments arguments)
