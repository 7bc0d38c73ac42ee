import Resemblance.Text.Split

/-!
# Disks

A disk maps locations to files and directories.  A location is the list of
names that leads to it from the root, and a path is walked from the root or
from the working directory one part at a time.
-/

namespace Resemblance

inductive DiskError where
  | notFound
  | notADirectory
  | isADirectory
  | nameTooLong
  | nulInName
  | notText
  deriving DecidableEq, Repr

def DiskError.message : DiskError → String
  | notFound => "No such file or directory (os error 2)"
  | notADirectory => "Not a directory (os error 20)"
  | isADirectory => "Is a directory (os error 21)"
  | nameTooLong => "File name too long (os error 36)"
  | nulInName => "file name contained an unexpected NUL byte"
  | notText => "stream did not contain valid UTF-8"

abbrev Location := List String

inductive DiskEntry where
  | file (content : ByteArray)
  | directory

structure Disk where
  entries : List (Location × DiskEntry)
  /-- The working directory. -/
  home : Location

namespace Disk

/-- The working directory and all directories above it exist on every disk. -/
def find? (d : Disk) (l : Location) : Option DiskEntry :=
  if l.isPrefixOf d.home then some .directory else d.entries.lookup l

/-- Goes one part further, which only a directory allows. -/
def step
    (d : Disk) (here : Location) (part : String) : Except DiskError Location :=
  match d.find? here with
  | none => .error .notFound
  | some (.file _) => .error .notADirectory
  | some .directory =>
    if part = "" ∨ part = "." then .ok here
    else if part = ".." then .ok here.dropLast
    else if 255 < part.utf8ByteSize then .error .nameTooLong
    else .ok (here ++ [part])

/-- Where a path leads; the last name on it need not exist. -/
def locate (d : Disk) (path : String) : Except DiskError Location :=
  let t := path.toList
  if t.isEmpty then .error .notFound
  else if t.contains '\x00' then .error .nulInName
  else if 4096 ≤ path.utf8ByteSize then .error .nameTooLong
  else
    ((Text.splitAt '/' t).map String.ofList).foldlM d.step
      (if t.head? = some '/' then [] else d.home)

def look (d : Disk) (path : String) : Except DiskError DiskEntry := do
  match d.find? (← d.locate path) with
  | some entry => .ok entry
  | none => .error .notFound

def readText (d : Disk) (path : String) : Except DiskError String := do
  match ← d.look path with
  | .directory => .error .isADirectory
  | .file content =>
    match String.fromUTF8? content with
    | some text => .ok text
    | none => .error .notText

def put (d : Disk) (l : Location) (entry : DiskEntry) : Disk :=
  { d with entries := (l, entry) :: d.entries.filter (·.1 != l) }

/-- Writes a file whose directory exists, over what the file held before. -/
def writeText (d : Disk) (path text : String) : Except DiskError Disk := do
  let l ← d.locate path
  match d.find? l with
  | some .directory => .error .isADirectory
  | _ => .ok (d.put l (.file text.toUTF8))

def empty (home : Location) : Disk := ⟨[], home⟩

/-- Puts an entry at a location and directories above it where nothing is
yet. -/
def place (d : Disk) (l : Location) (entry : DiskEntry) : Disk :=
  let parents := (List.range l.length).map l.take
  (parents.foldl
    (fun d p => if (d.find? p).isSome then d else d.put p .directory)
    d).put l entry

end Disk

end Resemblance
