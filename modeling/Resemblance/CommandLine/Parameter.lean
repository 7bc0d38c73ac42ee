/-!
# Parameters of the command line

Every parameter has a long name and some have a letter.  Those that stand for a
value name it; the others are switches.
-/

namespace Resemblance.CommandLine

inductive Parameter where
  | threshold
  | format
  | output
  | noStatistics
  | parallel
  | settings
  | logLevel
  | help
  | version
  deriving DecidableEq, Repr

namespace Parameter

def all : List Parameter :=
  [threshold, format, output, noStatistics, parallel, settings, logLevel, help,
    version]

def name : Parameter → String
  | threshold => "threshold"
  | format => "format"
  | output => "output"
  | noStatistics => "no-stats"
  | parallel => "parallel"
  | settings => "config"
  | logLevel => "log-level"
  | help => "help"
  | version => "version"

def letter? : Parameter → Option Char
  | threshold => some 't'
  | format => some 'f'
  | output => some 'o'
  | help => some 'h'
  | version => some 'V'
  | _ => none

def valueName? : Parameter → Option String
  | threshold => some "THRESHOLD"
  | format => some "FORMAT"
  | output => some "OUTPUT"
  | settings => some "CONFIG"
  | logLevel => some "LOG_LEVEL"
  | _ => none

def takesValue (p : Parameter) : Bool := p.valueName?.isSome

def ofName? (name : String) : Option Parameter := all.find? (·.name == name)

def ofLetter? (letter : Char) : Option Parameter :=
  all.find? (·.letter? == some letter)

theorem mem_all (p : Parameter) : p ∈ all := by cases p <;> decide

theorem ofName?_name (p : Parameter) : ofName? p.name = some p := by
  cases p <;> decide

end Parameter

end Resemblance.CommandLine
