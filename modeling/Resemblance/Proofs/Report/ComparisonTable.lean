import Mathlib.Algebra.GroupWithZero.Nat
import Resemblance.Proofs.Text.Lines
import Resemblance.Report.Markdown

/-!
# The table of comparisons

A row of a table is a line of cells with a pipe before, between and behind them.
A pipe behind a backslash is text, and so is a backslash behind another one.
The report writes the names of the files into their cells as they are, so a
table has one row of five cells for each result exactly if no name brings a line
feed or a pipe of its own along.
-/

namespace Resemblance

namespace Report

section Cells

/-- What is read next is escaped if a backslash stands before it that is not
escaped itself. -/
def escapes (escaped : Bool) (c : Char) : Bool := !escaped && c == '\\'

/-- The number of pipes that are not escaped. -/
def pipesFrom (escaped : Bool) : List Char → Nat
  | [] => 0
  | c :: t =>
    if !escaped && c == '|' then pipesFrom false t + 1
    else pipesFrom (escapes escaped c) t

/-- The cells between the pipes that are not escaped, as they are written. -/
def cellsFrom (escaped : Bool) : List Char → List (List Char)
  | [] => [[]]
  | c :: t =>
    if !escaped && c == '|' then [] :: cellsFrom false t
    else (cellsFrom (escapes escaped c) t).modifyHead (c :: ·)

def pipes (t : List Char) : Nat := pipesFrom false t

def cells (t : List Char) : List (List Char) := cellsFrom false t

/-- No backslash is left that would escape what follows. -/
def Closed (u : List Char) : Prop := u.foldl escapes false = false

variable {escaped : Bool} {c d : Char} {t u v : List Char}

theorem flatten_cellsFrom_sublist
    (escaped : Bool)
    (t : List Char) :
    (cellsFrom escaped t).flatten.Sublist t := by
  induction t generalizing escaped with
  | nil => exact List.Sublist.refl []
  | cons c t ih =>
      rw [cellsFrom]
      split
      next => exact (ih false).cons c
      next =>
        have hrest := ih (escapes escaped c)
        cases hcells : cellsFrom (escapes escaped c) t with
        | nil => exact List.nil_sublist _
        | cons cell rest =>
            rw [hcells] at hrest
            exact hrest.cons_cons c

theorem not_mem_of_mem_cells
    {cell : List Char}
    (hcell : cell ∈ cells t)
    (hc : c ∉ t) :
    c ∉ cell :=
  fun h => hc ((flatten_cellsFrom_sublist false t).subset
    (List.mem_flatten.2 ⟨cell, hcell, h⟩))

/-- Only the pending backslash passes from one text to the text behind it. -/
theorem pipesFrom_append
    (escaped : Bool)
    (u t : List Char) :
    pipesFrom escaped (u ++ t) =
      pipesFrom escaped u + pipesFrom (u.foldl escapes escaped) t := by
  induction u generalizing escaped with
  | nil => simp [pipesFrom]
  | cons c u ih =>
      rw [List.cons_append, pipesFrom, pipesFrom, List.foldl_cons, ih, ih]
      split
      next hpipe =>
        have hstate : escapes escaped c = false := by simp_all [escapes]
        rw [hstate]
        omega
      next => rfl

theorem cellsFrom_append
    (hu : pipesFrom escaped u = 0)
    (t : List Char) :
    cellsFrom escaped (u ++ t) =
      (cellsFrom (u.foldl escapes escaped) t).modifyHead (u ++ ·) := by
  induction u generalizing escaped with
  | nil => exact (congrFun List.modifyHead_id (cellsFrom escaped t)).symm
  | cons c u ih =>
      rw [pipesFrom] at hu
      split at hu
      next => contradiction
      next hpipe =>
        rw [List.cons_append, cellsFrom, if_neg hpipe, ih hu,
          List.modifyHead_modifyHead]
        rfl

theorem pipes_pipe_cons (t : List Char) : pipes ('|' :: t) = pipes t + 1 := rfl

theorem cells_pipe_cons (t : List Char) : cells ('|' :: t) = [] :: cells t :=
  rfl

theorem Closed.pipes_append
    (hu : Closed u)
    (t : List Char) :
    pipes (u ++ t) = pipes u + pipes t := by
  rw [pipes, pipesFrom_append, hu]
  rfl

theorem Closed.cells_append_pipe
    (hu : Closed u)
    (hpipes : pipes u = 0)
    (t : List Char) :
    cells (u ++ '|' :: t) = u :: cells t := by
  rw [cells, cellsFrom_append hpipes, hu, ← cells, cells_pipe_cons,
    List.modifyHead_cons, List.append_nil]

theorem pipesFrom_of_not_mem (hpipe : '|' ∉ u) : pipesFrom escaped u = 0 := by
  induction u generalizing escaped with
  | nil => rfl
  | cons c u ih =>
      rw [List.mem_cons, not_or] at hpipe
      have hc : ¬ c = '|' := Ne.symm hpipe.1
      rw [pipesFrom, if_neg (by simp [hc]), ih hpipe.2]

theorem closed_concat (hd : d ≠ '\\') : Closed (u ++ [d]) := by
  simp [Closed, escapes, hd]

/-- Two characters around a text that are neither pipes nor backslashes. -/
theorem pipes_enclosed
    (hc : c ≠ '|')
    (hescape : c ≠ '\\')
    (hd : d ≠ '|') :
    pipes (c :: (v ++ [d])) = pipes v := by
  have hstate : escapes false c = false := by simp [escapes, hescape]
  have hend : '|' ∉ [d] := by simpa using hd.symm
  rw [pipes, pipesFrom, if_neg (by simp [hc]), hstate, pipesFrom_append,
    pipesFrom_of_not_mem hend]
  rfl

end Cells

section Rows

/-- A line of cells, with a pipe before the first one and behind each. -/
def row (us : List (List Char)) : List Char := '|' :: us.flatMap (· ++ ['|'])

variable {us : List (List Char)}

theorem pipes_row (hclosed : ∀ u ∈ us, Closed u) :
    pipes (row us) = us.length + 1 + (us.map pipes).sum := by
  have hcells : pipes (us.flatMap (· ++ ['|'])) =
      us.length + (us.map pipes).sum := by
    induction us with
    | nil => rfl
    | cons u us ih =>
        have hrest := ih fun w hw => hclosed w (List.mem_cons_of_mem u hw)
        rw [List.flatMap_cons, List.append_assoc,
          (hclosed u List.mem_cons_self).pipes_append, List.singleton_append,
          pipes_pipe_cons, hrest, List.length_cons, List.map_cons,
          List.sum_cons]
        omega
  rw [row, pipes_pipe_cons, hcells]
  omega

theorem cells_row
    (hclosed : ∀ u ∈ us, Closed u)
    (hpipes : ∀ u ∈ us, pipes u = 0) :
    cells (row us) = [] :: (us ++ [[]]) := by
  have hcells : cells (us.flatMap (· ++ ['|'])) = us ++ [[]] := by
    induction us with
    | nil => rfl
    | cons u us ih =>
        have hrest := ih (fun w hw => hclosed w (List.mem_cons_of_mem u hw))
          fun w hw => hpipes w (List.mem_cons_of_mem u hw)
        rw [List.flatMap_cons, List.append_assoc, List.singleton_append,
          (hclosed u List.mem_cons_self).cells_append_pipe
            (hpipes u List.mem_cons_self),
          hrest, List.cons_append]
  rw [row, cells_pipe_cons, hcells]

end Rows

section Numbers

open Decimal

theorem mem_pointed
    {units places : Nat} {c : Char}
    (hc : c ∈ pointed units places) :
    c.isDigit = true ∨ c = '.' := by
  have hdigit : ∀ c ∈ (Nat.toDigits 10 units).leftpad (places + 1) '0',
      c.isDigit = true := by
    intro c hc
    rcases List.mem_append.1 hc with hpad | hdigit
    · rw [List.eq_of_mem_replicate hpad]
      rfl
    · exact Nat.isDigit_of_mem_toDigits (by decide) (by decide) hdigit
  rw [pointed] at hc
  split at hc
  · exact .inl (hdigit c hc)
  · rcases List.mem_append.1 hc with hwhole | hrest
    · exact .inl (hdigit c (List.mem_of_mem_take hwhole))
    · rcases List.mem_cons.1 hrest with rfl | hplaces
      · exact .inr rfl
      · exact .inl (hdigit c (List.mem_of_mem_drop hplaces))

theorem mem_signed
    {negative : Bool} {t : List Char} {c : Char}
    (hc : c ∈ signed negative t) :
    c = '-' ∨ c ∈ t := by
  cases negative with
  | false => exact .inr hc
  | true => exact List.mem_cons.1 hc

theorem mem_fixed
    {places : Nat} {x : Float} {c : Char}
    (hc : c ∈ fixed places x) :
    c.isDigit = true ∨ c ∈ ['-', '.', 'N', 'a', 'N', 'i', 'n', 'f'] := by
  have hundefined :
      "NaN".toList.Sublist ['-', '.', 'N', 'a', 'N', 'i', 'n', 'f'] := by decide
  have hinfinite :
      "inf".toList.Sublist ['-', '.', 'N', 'a', 'N', 'i', 'n', 'f'] := by decide
  rw [fixed] at hc
  cases hbinary : Binary.ofFloat x with
  | notANumber =>
      rw [hbinary] at hc
      exact .inr (hundefined.subset hc)
  | infinite negative =>
      rw [hbinary] at hc
      rcases mem_signed hc with rfl | hc
      · exact .inr (by simp)
      · exact .inr (hinfinite.subset hc)
  | finite negative m e =>
      rw [hbinary] at hc
      rcases mem_signed hc with rfl | hc
      · exact .inr (by simp)
      · exact (mem_pointed hc).imp id (by rintro rfl; simp)

theorem not_mem_decimals
    (places : Nat)
    (x : Float)
    {c : Char}
    (hdigit : c.isDigit = false)
    (hc : c ∉ ['-', '.', 'N', 'a', 'N', 'i', 'n', 'f']) :
    c ∉ (decimals places x).toList := by
  rw [decimals, String.toList_ofList]
  intro hmem
  rcases mem_fixed hmem with h | h
  · exact Bool.false_ne_true (hdigit.symm.trans h)
  · exact hc h

end Numbers

section Table

/-- The text of a cell has a space on both sides. -/
def padded (v : String) : List Char := ' ' :: (v.toList ++ [' '])

/-- What the cells of a row show. -/
def shown (c : Comparison) : List String :=
  [code (Path.displayName c.fileA), code (Path.displayName c.fileB),
    decimals 3 c.cosine, decimals 3 c.jaccard, decimals 3 c.levenshtein]

/-- The name ends neither its line nor its cell. -/
def Plain (name : String) : Prop := '\n' ∉ name.toList ∧ pipes name.toList = 0

/-- A line of five cells, the first two with the names of the result. -/
def IsRowOf (c : Comparison) (line : List Char) : Prop :=
  pipes line = 6 ∧ ∃ x y z,
    cells line = [[], padded (code (Path.displayName c.fileA)),
      padded (code (Path.displayName c.fileB)), x, y, z, []]

variable {c : Comparison}

theorem toList_comparisonRow (c : Comparison) :
    (comparisonRow c).toList = row ((shown c).map padded) := by
  have hrow : ∀ first second x y z : String,
      ("| " ++ first ++ " | " ++ second ++ " | " ++ x ++ " | " ++ y ++ " | " ++
        z ++ " |").toList =
        row ([first, second, x, y, z].map padded) := by
    simp [row, padded]
  exact hrow _ _ _ _ _

theorem closed_padded (v : String) : Closed (padded v) :=
  closed_concat (u := ' ' :: v.toList) (by decide)

theorem pipes_padded (v : String) : pipes (padded v) = pipes v.toList :=
  pipes_enclosed (by decide) (by decide) (by decide)

theorem toList_code (name : String) :
    (code name).toList = '`' :: (name.toList ++ ['`']) := by
  simp [code]

theorem pipes_code (name : String) :
    pipes (code name).toList = pipes name.toList := by
  rw [toList_code]
  exact pipes_enclosed (by decide) (by decide) (by decide)

theorem pipes_decimals
    (places : Nat)
    (x : Float) :
    pipes (decimals places x).toList = 0 :=
  pipesFrom_of_not_mem (not_mem_decimals places x (by decide) (by decide))

/-- The pipes that a row has beyond its own are those of the two names. -/
theorem pipes_comparisonRow (c : Comparison) :
    pipes (comparisonRow c).toList =
      6 + pipes (Path.displayName c.fileA).toList +
        pipes (Path.displayName c.fileB).toList := by
  rw [toList_comparisonRow,
    pipes_row (List.forall_mem_map.2 fun v _ => closed_padded v)]
  simp only [shown, List.map_cons, List.map_nil, List.sum_cons, List.sum_nil,
    List.length_cons, List.length_nil, pipes_padded, pipes_code, pipes_decimals]
  omega

theorem cells_comparisonRow
    (hfirst : pipes (Path.displayName c.fileA).toList = 0)
    (hsecond : pipes (Path.displayName c.fileB).toList = 0) :
    cells (comparisonRow c).toList = [] :: ((shown c).map padded ++ [[]]) := by
  have hshown : ∀ v ∈ shown c, pipes (padded v) = 0 := by
    simp [shown, pipes_padded, pipes_code, pipes_decimals, hfirst, hsecond]
  rw [toList_comparisonRow]
  exact cells_row (List.forall_mem_map.2 fun v _ => closed_padded v)
    (List.forall_mem_map.2 hshown)

theorem isRowOf_comparisonRow_iff :
    IsRowOf c (comparisonRow c).toList ↔
      pipes (Path.displayName c.fileA).toList = 0 ∧
        pipes (Path.displayName c.fileB).toList = 0 := by
  constructor
  · rintro ⟨hpipes, -⟩
    rw [pipes_comparisonRow] at hpipes
    omega
  · rintro ⟨hfirst, hsecond⟩
    refine ⟨?_, _, _, _, cells_comparisonRow hfirst hsecond⟩
    rw [pipes_comparisonRow, hfirst, hsecond]

theorem line_not_mem_comparisonRow_iff :
    '\n' ∉ (comparisonRow c).toList ↔
      '\n' ∉ (Path.displayName c.fileA).toList ∧
        '\n' ∉ (Path.displayName c.fileB).toList := by
  have hscore : ∀ x, '\n' ∉ (decimals 3 x).toList := fun x =>
    not_mem_decimals 3 x (by decide) (by decide)
  rw [toList_comparisonRow]
  simp [row, shown, padded, toList_code, hscore]

/-- The lines up to the first empty one. -/
def untilBlank (t : List Char) : List (List Char) :=
  (Text.lines t).takeWhile (!·.isEmpty)

theorem untilBlank_append_cons
    {u : List Char}
    (hfeed : '\n' ∉ u)
    (hne : u ≠ [])
    (t : List Char) :
    untilBlank (u ++ '\n' :: t) = u :: untilBlank t := by
  rw [untilBlank, Text.lines, Text.splitAt_append_cons,
    Text.splitAt_of_not_mem hfeed, List.singleton_append,
    List.takeWhile_cons_of_pos (by simpa using hne)]
  rfl

theorem not_mem_of_mem_untilBlank
    {t line : List Char}
    (hline : line ∈ untilBlank t) :
    '\n' ∉ line :=
  Text.not_mem_of_mem_splitAt ((List.takeWhile_sublist _).subset hline)

/-- The cells of a line show that neither name holds a line feed. -/
theorem IsRowOf.line_not_mem
    {line : List Char}
    (hrow : IsRowOf c line)
    (hline : '\n' ∉ line) :
    '\n' ∉ (comparisonRow c).toList := by
  obtain ⟨-, x, y, z, hcells⟩ := hrow
  have hcell : ∀ name, padded (code name) ∈ cells line →
      '\n' ∉ name.toList := by
    intro name hmem hname
    exact not_mem_of_mem_cells hmem hline (by simp [padded, toList_code, hname])
  rw [line_not_mem_comparisonRow_iff]
  exact ⟨hcell _ (by simp [hcells]), hcell _ (by simp [hcells])⟩

/-- The lines as the report writes them. -/
def written (lines : List String) : List Char :=
  lines.flatMap (·.toList ++ ['\n'])

theorem written_cons_append
    (line : String)
    (lines : List String)
    (t : List Char) :
    written (line :: lines) ++ t =
      line.toList ++ '\n' :: (written lines ++ t) := by
  simp [written]

/-- A line that stops inside a name has no cell that holds the whole name. -/
theorem line_not_mem_of_rows
    {results : List Comparison} {t : List Char}
    (hrows : List.Forall₂ IsRowOf (c :: results) (untilBlank t)) :
    '\n' ∉ (comparisonRow c).toList := by
  cases hlines : untilBlank t with
  | nil => simp [hlines] at hrows
  | cons line lines =>
      have hline : '\n' ∉ line :=
        not_mem_of_mem_untilBlank (hlines ▸ List.mem_cons_self)
      rw [hlines, List.forall₂_cons] at hrows
      exact hrows.1.line_not_mem hline

theorem untilBlank_rows_iff
    (results : List Comparison)
    (after : List Char) :
    List.Forall₂ IsRowOf results
        (untilBlank (written (results.map comparisonRow) ++ '\n' :: after)) ↔
      ∀ c ∈ results, Plain (Path.displayName c.fileA) ∧
        Plain (Path.displayName c.fileB) := by
  induction results with
  | nil =>
      have hblank : untilBlank (written [] ++ '\n' :: after) = [] := rfl
      simp [hblank]
  | cons c results ih =>
      rw [List.map_cons, written_cons_append, List.forall_mem_cons]
      by_cases hfeed : '\n' ∈ (comparisonRow c).toList
      · -- The first line is only a part of the row, and neither side holds.
        refine iff_of_false (fun hrows => line_not_mem_of_rows hrows hfeed) ?_
        rintro ⟨⟨hfirst, hsecond⟩, -⟩
        exact line_not_mem_comparisonRow_iff.2 ⟨hfirst.1, hsecond.1⟩ hfeed
      · have hne : (comparisonRow c).toList ≠ [] := by
          simp [toList_comparisonRow, row]
        obtain ⟨hfirst, hsecond⟩ := line_not_mem_comparisonRow_iff.1 hfeed
        rw [untilBlank_append_cons hfeed hne, List.forall₂_cons,
          isRowOf_comparisonRow_iff, ih]
        simp only [Plain, hfirst, hsecond, not_false_eq_true, true_and]

def tableHead : List String :=
  ["| File A | File B | Cosine | Jaccard | Levenshtein |",
    "|--------|--------|--------|---------|-------------|"]

theorem toList_markdown
    (a : Analysis)
    (moment : Calendar.Moment) :
    (markdown a moment).toList = written (markdownLines a moment) := by
  rw [markdown, String.toList_join, List.flatMap_map, written]
  simp

theorem exists_markdown_around_rows
    (a : Analysis)
    (moment : Calendar.Moment) :
    ∃ before after, (markdown a moment).toList =
      before ++ written tableHead ++
        (written (a.results.map comparisonRow) ++ '\n' :: after) := by
  have hlines : ∃ before after, markdownLines a moment =
      before ++
        (tableHead ++ (a.results.map comparisonRow ++ "" :: after)) := by
    refine
      ⟨heading a moment ++ ifStatistics a summary ++ fileList a ++
          exclusionList a ++ ["## Similarity Results", ""] ++
          matrixSection a ++ ["### Detailed Comparisons", ""],
        ifStatistics a statisticsSection ++ guide ++
          ifStatistics a conclusions ++
          ["---", "*Generated by codesim " ++ version ++ "*"], ?_⟩
    simp only [markdownLines, comparisonTable, tableHead, List.append_assoc,
      List.cons_append, List.nil_append]
  obtain ⟨before, after, hlines⟩ := hlines
  refine ⟨written before, written after, ?_⟩
  rw [toList_markdown, hlines]
  simp [written]

/-- Between the head of the table and the empty line behind it there is one row
for each result, with the two names in the first of five cells, exactly if no
name holds a line feed or an unescaped pipe. -/
theorem table_rows_iff_plain_names
    (a : Analysis)
    (moment : Calendar.Moment) :
    ∃ before below after : List Char,
      (markdown a moment).toList = before ++ written tableHead ++ below ∧
        below = written (a.results.map comparisonRow) ++ '\n' :: after ∧
        (List.Forall₂ IsRowOf a.results (untilBlank below) ↔
          ∀ c ∈ a.results,
            Plain (Path.displayName c.fileA) ∧
              Plain (Path.displayName c.fileB)) := by
  obtain ⟨before, after, hmarkdown⟩ := exists_markdown_around_rows a moment
  exact ⟨before, _, after, hmarkdown, rfl, untilBlank_rows_iff a.results after⟩

/-- Two files, one of them with a pipe in its name. -/
def pipedName : Analysis where
  files :=
    ["a|b.py", "c.py"].map fun id => ⟨id, Path.displayName id, .unknown, 1⟩
  excluded := []
  results := [⟨"a|b.py", "c.py", 0.5, 0.5, 0.5⟩]
  statistics := Statistics.aggregate [⟨"a|b.py", "c.py", 0.5, 0.5, 0.5⟩]

/-- The pipe ends the cell of the first name, and the row of the only result has
six cells. -/
theorem pipe_splits_cell :
    ∃ before below line : List Char,
      (markdown pipedName (.ofSeconds 0)).toList =
          before ++ written tableHead ++ below ∧
        untilBlank below = [line] ∧
        line = "| `a|b.py` | `c.py` | 0.500 | 0.500 | 0.500 |".toList ∧
        pipes line = 7 ∧
        cells line =
          ["", " `a", "b.py` ", " `c.py` ", " 0.500 ", " 0.500 ", " 0.500 ",
            ""].map (·.toList) ∧
        ¬ List.Forall₂ IsRowOf pipedName.results (untilBlank below) := by
  obtain ⟨before, after, hmarkdown⟩ :=
    exists_markdown_around_rows pipedName (.ofSeconds 0)
  have hrow : comparisonRow ⟨"a|b.py", "c.py", 0.5, 0.5, 0.5⟩ =
      "| `a|b.py` | `c.py` | 0.500 | 0.500 | 0.500 |" := by
    decide +kernel
  have hbelow :
      untilBlank
        (written (pipedName.results.map comparisonRow) ++ '\n' :: after) =
      ["| `a|b.py` | `c.py` | 0.500 | 0.500 | 0.500 |".toList] := by
    rw [pipedName, List.map_singleton, hrow, written_cons_append,
      untilBlank_append_cons (by decide) (by decide)]
    rfl
  refine ⟨before, _, _, hmarkdown, hbelow, rfl, by decide, by decide, ?_⟩
  rw [untilBlank_rows_iff]
  intro hplain
  have hpipes := (hplain _ List.mem_cons_self).1.2
  exact absurd hpipes (by decide +kernel)

end Table

end Report

end Resemblance
