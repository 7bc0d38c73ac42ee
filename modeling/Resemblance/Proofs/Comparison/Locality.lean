import Resemblance.Proofs.Comparison.Outcome

/-!
# Some of the files and a higher threshold

Each kept comparison depends on its own two files alone.  Comparing a choice of
the files, in their order and with a threshold that is not lower, therefore
gives the comparisons of all files without those that leave the choice or whose
unrounded scores stay below the new threshold.
-/

namespace Resemblance.Comparison

section Pairs

variable {n : Nat}

/-- The pairs of positions from a list, each with the smaller position first. -/
def pairsIn (positions : List (Fin n)) : List (Fin n × Fin n) :=
  positions.flatMap fun i => (positions.filter (i < ·)).map (i, ·)

theorem pairsIn_map
    {m : Nat} {place : Fin m → Fin n}
    (hplace : StrictMono place)
    (positions : List (Fin m)) :
    pairsIn (positions.map place) =
      (pairsIn positions).map (Prod.map place place) := by
  simp [pairsIn, List.flatMap_map, List.map_flatMap, List.filter_map,
    Function.comp_def, hplace.lt_iff_lt]

theorem pairsIn_filter
    (chosen : Fin n → Bool)
    (positions : List (Fin n)) :
    pairsIn (positions.filter chosen) =
      (pairsIn positions).filter fun pair => chosen pair.1 &&
        chosen pair.2 := by
  -- the outer list shrinks while the inner one has to stay whole
  suffices hrows : ∀ rows : List (Fin n),
      (rows.filter chosen).flatMap
          (fun i => ((positions.filter chosen).filter (i < ·)).map (i, ·)) =
        (rows.flatMap fun i => (positions.filter (i < ·)).map (i, ·)).filter
          fun pair => chosen pair.1 && chosen pair.2 from hrows positions
  intro rows
  induction rows with
  | nil => rfl
  | cons i rows ih =>
      rw [List.flatMap_cons, List.filter_append, ← ih]
      by_cases hi : chosen i
      · simp [hi, List.filter_map, Function.comp_def, Bool.and_comm]
      · simp [hi, List.filter_map, Function.comp_def]

end Pairs

section Choice

variable {files : List TokenizedFile} {chosen : Fin files.length → Bool}

/-- The files at the chosen positions, in their order. -/
def select
    (files : List TokenizedFile) (chosen : Fin files.length → Bool) :
    List TokenizedFile :=
  ((List.finRange files.length).filter chosen).map files.get

/-- Where a chosen file stands among all files. -/
def origin (k : Fin (select files chosen).length) : Fin files.length :=
  ((List.finRange files.length).filter chosen).get (k.cast (List.length_map _))

theorem get_select (k : Fin (select files chosen).length) :
    (select files chosen).get k = files.get (origin k) :=
  List.getElem_map files.get

theorem length_select_le
    (files : List TokenizedFile)
    (chosen : Fin files.length → Bool) :
    (select files chosen).length ≤ files.length := by
  rw [select, List.length_map]
  exact (List.length_filter_le _ _).trans_eq List.length_finRange

theorem map_origin
    (files : List TokenizedFile)
    (chosen : Fin files.length → Bool) :
    (List.finRange (select files chosen).length).map origin =
      (List.finRange files.length).filter chosen := by
  apply List.ext_getElem
  · rw [List.length_map, List.length_finRange, select, List.length_map]
  · intro k hk hk'
    rw [List.getElem_map, List.getElem_finRange]
    rfl

theorem strictMono_origin : StrictMono (@origin files chosen) := by
  have hordered :
      ((List.finRange files.length).filter chosen).Pairwise (· < ·) :=
    (List.pairwise_lt_finRange _).filter _
  intro k l hkl
  exact List.pairwise_iff_getElem.1 hordered _ _ _ _ hkl

end Choice

section Thresholds

variable {s : ComparisonSettings} {files : List TokenizedFile}

theorem retained_eq_pairs
    (hvalid : s.fault? = none)
    (files : List TokenizedFile) :
    retained s files =
      (pairsIn (List.finRange files.length)).filterMap fun pair =>
        entry s.threshold s.precision (files.get pair.1)
          (files.get pair.2) := by
  rw [retained_eq_naive hvalid, naive, pairsIn]
  simp only [List.filterMap_flatMap, List.filterMap_map]
  rfl

theorem located_eq_pairs
    (hvalid : s.fault? = none)
    (files : List TokenizedFile) :
    located s files =
      (pairsIn (List.finRange files.length)).filterMap fun pair =>
        (entry s.threshold s.precision (files.get pair.1)
          (files.get pair.2)).map
          (Located.mk pair.1 pair.2) := by
  rw [located_eq hvalid, pairsIn]
  simp only [List.filterMap_flatMap, List.filterMap_map]
  rfl

theorem retained_select
    (hvalid : s.fault? = none)
    (chosen : Fin files.length → Bool) :
    retained s (select files chosen) =
      ((pairsIn (List.finRange files.length)).filter
        fun pair => chosen pair.1 && chosen pair.2).filterMap fun pair =>
          entry s.threshold s.precision (files.get pair.1)
            (files.get pair.2) := by
  rw [retained_eq_pairs hvalid, ← pairsIn_filter, ← map_origin,
    pairsIn_map strictMono_origin, List.filterMap_map]
  simp only [get_select]
  rfl

/-- The largest score of the files at two positions before any score is
rounded. -/
def rawScore (files : List TokenizedFile) (i j : Fin files.length) : Float :=
  (unrounded (files.get i) (files.get j) (files.get i).frequency
    (files.get j).frequency).maxScore

theorem entry_of_le
    {low high : Float}
    (hlow : low ≤ high)
    (places : Nat)
    (i j : Fin files.length) :
    entry high places (files.get i) (files.get j) =
      if rawScore files i j < high then none
      else entry low places (files.get i) (files.get j) := by
  have hcosine : (direct (files.get i) (files.get j)).cosine.isNaN = false :=
    isNaN_cosine _ _
  have hhigh : high.isNaN = false := ((Score.le_iff low high).1 hlow).2.1
  have hbelow := Score.not_lt_iff (isNaN_maxScore hcosine) hhigh
  rw [rawScore, unrounded_frequency]
  by_cases hraw : (direct (files.get i) (files.get j)).maxScore < high
  · have hmissed :
        ¬ (direct (files.get i) (files.get j)).Reaches high := fun hreaches =>
      hbelow.2 ((le_maxScore_iff hcosine high).2 hreaches) hraw
    rw [if_pos hraw, entry_eq, if_neg hmissed]
  · have hreached := (hbelow.1 hraw)
    have hreaches := (le_maxScore_iff hcosine high).1 hreached
    have hreaches' :=
      (le_maxScore_iff hcosine low).1 (Score.le_trans hlow hreached)
    rw [if_neg hraw, entry_eq, entry_eq, if_pos hreaches, if_pos hreaches']

/-- Raising the threshold and leaving files out only deletes comparisons. -/
theorem retained_select_of_le
    {threshold : Float}
    (hvalid : s.fault? = none)
    (hvalid' : { s with threshold := threshold }.fault? = none)
    (hraised : s.threshold ≤ threshold)
    (chosen : Fin files.length → Bool) :
    retained { s with threshold := threshold } (select files chosen) =
      ((located s files).filter fun c =>
        (chosen c.first && chosen c.second) &&
          !decide (rawScore files c.first c.second < threshold)).map
            (·.comparison) := by
  rw [retained_select hvalid', located_eq_pairs hvalid, List.filterMap_filter,
    List.filter_filterMap, List.map_filterMap]
  congr 1
  funext pair
  rw [entry_of_le hraised]
  cases entry s.threshold s.precision (files.get pair.1) (files.get pair.2) with
  | none => simp
  | some kept =>
      by_cases hraw : rawScore files pair.1 pair.2 < threshold
      · simp [Option.filter_some, hraw]
      · by_cases hchosen : (chosen pair.1 && chosen pair.2) = true
        · simp [Option.filter_some, hraw, hchosen]
        · simp [Option.filter_some, hchosen]

/-- A run on chosen files with a threshold that is not lower deletes the
comparisons whose pair leaves the choice or stays below the threshold.  It
changes no other and keeps their order. -/
theorem compareAll_select
    {threshold : Float}
    (hvalid : s.fault? = none)
    (hvalid' : { s with threshold := threshold }.fault? = none)
    (hraised : s.threshold ≤ threshold)
    (chosen : Fin files.length → Bool)
    (hmany : 2 ≤ (select files chosen).length) :
    ∃ results remaining,
      compareAll s files = .ok results ∧
        compareAll { s with threshold := threshold } (select files chosen) =
          .ok remaining ∧
        results = (located s files).map (·.comparison) ∧
        remaining =
          ((located s files).filter fun c =>
            (chosen c.first && chosen c.second) &&
              !decide (rawScore files c.first c.second < threshold)).map
                (·.comparison) ∧
        remaining.Sublist results := by
  have hfiles : 2 ≤ files.length := hmany.trans (length_select_le files chosen)
  refine ⟨_, _, compareAll_eq_located hfiles hvalid,
    compareAll_eq_ok_iff.2 ⟨hmany, hvalid', rfl⟩, rfl,
    retained_select_of_le hvalid hvalid' hraised chosen, ?_⟩
  rw [retained_select_of_le hvalid hvalid' hraised chosen]
  exact List.filter_sublist.map _

end Thresholds

section Reprints

/-- The first of the namesakes is printed once more behind them. -/
def withReprint : List TokenizedFile := namesakes ++ namesakes.take 1

/-- All files but the second. -/
def allButSecond (k : Fin withReprint.length) : Bool := k.val != 1

/-- Of six pairs only the first file and its reprint are left. -/
theorem compareAll_select_reprint :
    ∃ results remaining,
      compareAll {} withReprint = .ok results ∧
        compareAll { threshold := 0.5 } (select withReprint allButSecond) =
          .ok remaining ∧
        results.length = 6 ∧ remaining.map scores = [(1.0, 1.0, 1.0)] ∧
        remaining.Sublist results := by
  obtain ⟨results, remaining, hall, hchosen, hresults, hremaining, hsublist⟩ :=
    compareAll_select (by decide : ({} : ComparisonSettings).fault? = none)
      (by decide : ({ threshold := 0.5 } : ComparisonSettings).fault? = none)
      (by decide) allButSecond (by decide +kernel)
  refine ⟨results, remaining, hall, hchosen, ?_, ?_, hsublist⟩
  · rw [hresults]
    decide +kernel
  · rw [hremaining]
    decide +kernel

end Reprints

end Resemblance.Comparison
