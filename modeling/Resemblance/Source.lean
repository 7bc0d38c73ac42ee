import Resemblance.Disk
import Resemblance.Language

/-!
# Source files

A path takes part in a comparison when it names a regular file with an
accepted extension that holds text, and the text is more than blanks.
-/

namespace Resemblance

structure Source where
  /-- The path as it was given, or any other name. -/
  id : String
  language : Language
  text : String
  deriving DecidableEq

namespace Source

/-- Some extensions are accepted although their language is unknown. -/
def acceptedExtensions : List String :=
  ["py", "js", "java", "cpp", "c", "cs", "php", "rb", "go"]

inductive Refusal where
  | notFound
  | notAFile
  | unsupportedExtension
  | blank
  | unreadable (error : DiskError)
  deriving DecidableEq

def Refusal.message (path : String) : Refusal → String
  | .notFound => s!"file not found: {path}"
  | .notAFile => s!"not a regular file: {path}"
  | .unsupportedExtension => s!"unsupported extension: {path}"
  | .blank => s!"file is empty: {path}"
  | .unreadable e => s!"failed to read {path}: {e.message}"

def hasAcceptedExtension (path : String) : Bool :=
  (Path.extension? path).any fun e =>
    acceptedExtensions.contains (Text.asciiLowered e)

/-- A path that cannot be looked up counts as one that does not exist. -/
def load (d : Disk) (path : String) : Except Refusal Source :=
  match d.look path with
  | .error _ => .error .notFound
  | .ok .directory => .error .notAFile
  | .ok (.file _) =>
    if !hasAcceptedExtension path then .error .unsupportedExtension
    else match d.readText path with
      | .error e => .error (.unreadable e)
      | .ok text =>
        if Text.isBlankString text then .error .blank
        else .ok ⟨path, .ofPath path, text⟩

theorem load_eq_ok_iff
    {d : Disk} {path : String} {source : Source} :
    load d path = .ok source ↔
      hasAcceptedExtension path = true ∧ ∃ content text,
        d.look path = .ok (.file content) ∧ d.readText path = .ok text ∧
          Text.isBlankString text = false ∧
            source = ⟨path, .ofPath path, text⟩ := by
  unfold load
  constructor
  · intro hload
    split at hload
    next => contradiction
    next => contradiction
    next content hlook =>
      split at hload
      next => contradiction
      next haccepted =>
        split at hload
        next => contradiction
        next text hread =>
          split at hload
          next => contradiction
          next hblank =>
            exact ⟨by simpa using haccepted, content, text, hlook, hread,
              Bool.eq_false_iff.2 hblank, (Except.ok.inj hload).symm⟩
  · rintro ⟨haccepted, content, text, hlook, hread, hblank, rfl⟩
    simp [hlook, haccepted, hread, hblank]

end Source

end Resemblance
