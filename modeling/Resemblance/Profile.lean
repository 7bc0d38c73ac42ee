import Resemblance.Comment
import Resemblance.KeywordSet
import Resemblance.Language

/-!
# Language profiles
-/

namespace Resemblance

/-- What a tokenizer knows about one language. -/
structure Profile where
  comments : CommentStyle
  keywords : KeywordSet
  deriving DecidableEq

def Language.comments : Language → CommentStyle
  | .python => .hash
  | .javascript | .java | .cpp | .c | .csharp => .cStyle
  | .unknown => .none

def Language.profile (l : Language) : Profile := ⟨l.comments, .general⟩

end Resemblance
