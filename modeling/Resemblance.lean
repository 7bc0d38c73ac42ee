import Resemblance.Main
import Resemblance.Comparison.Session
import Resemblance.Json.Access
import Resemblance.Json.Reader
import Resemblance.Proofs.Text.Match
import Resemblance.Proofs.Text.Insertion
import Resemblance.Proofs.Text.Layout
import Resemblance.Proofs.Tokenizer.Layout
import Resemblance.Proofs.Tokenizer.LineComment
import Resemblance.Proofs.Tokenizer.LiteralContents
import Resemblance.Proofs.Comparison.Naive
import Resemblance.Proofs.Comparison.Reordering
import Resemblance.Proofs.Comparison.Copies
import Resemblance.Proofs.Tokenizer.LetterCase
import Resemblance.Proofs.Tokenizer.Flattening
import Resemblance.Proofs.Tokenizer.Chunks
import Resemblance.Proofs.Analysis.Failures
import Resemblance.Proofs.Comparison.UnitInterval
import Resemblance.Proofs.Comparison.Locality
import Resemblance.Proofs.Comparison.Recorders
import Resemblance.Proofs.Report.Csv
import Resemblance.Proofs.CommandLine.Footprint
import Resemblance.Proofs.Measure.EditScript
import Resemblance.Proofs.Tokenizer.PieceGrammar
import Resemblance.Proofs.Tokenizer.QuotePairs
import Resemblance.Proofs.Tokenizer.BlockComment
import Resemblance.Proofs.Tokenizer.CutLines
import Resemblance.Proofs.Measure.Matches
import Resemblance.Proofs.Measure.Angle
import Resemblance.Proofs.Measure.Tally
import Resemblance.Proofs.Measure.EditRatio
import Resemblance.Proofs.Comparison.Rounding
import Resemblance.Proofs.Double.Summation
import Resemblance.Proofs.Report.Cells
import Resemblance.Proofs.Report.Matrix
import Resemblance.Proofs.Statistics.Mean
import Resemblance.Proofs.Settings.Faults
import Resemblance.Proofs.Tokenizer.ReservedWords
import Resemblance.Proofs.Comparison.PairOrder
import Resemblance.Proofs.Report.Summary
import Resemblance.Proofs.Tokenizer.Junction
import Resemblance.Proofs.Report.ComparisonTable
