import Resemblance.Proofs.Comparison.Positions
import Resemblance.Proofs.Measure.Identity

/-!
# Exact copies

Two files with the same tokens score exactly one on every measure.  No valid
threshold lies above one and no valid number of places rounds one away, so the
pair is kept and its stored scores are exactly one.
-/

namespace Resemblance

theorem ComparisonSettings.bounds_of_valid
    {s : ComparisonSettings}
    (hvalid : s.fault? = none) :
    s.threshold ≤ 1.0 ∧ s.precision ≤ 10 := by
  unfold fault? at hvalid
  split_ifs at hvalid with hversion hthreshold hprecision
  rw [Bool.not_eq_true, Bool.not_eq_false', inUnit, Bool.and_eq_true,
    decide_eq_true_eq, decide_eq_true_eq] at hthreshold
  exact ⟨hthreshold.2, Nat.not_lt.1 hprecision⟩

theorem roundTo_one
    {places : Nat}
    (hplaces : places ≤ 10) :
    Decimal.roundTo 1.0 places = 1.0 := by
  interval_cases places <;> decide +kernel

namespace Comparison

/-- A comparison whose three scores are one. -/
def exact (a b : TokenizedFile) : Comparison where
  fileA := a.id
  fileB := b.id
  cosine := 1.0
  jaccard := 1.0
  levenshtein := 1.0

variable {a b : TokenizedFile}

theorem direct_of_tokens_eq
    (htokens : a.tokens = b.tokens)
    (hne : a.tokens ≠ [])
    (hshort : a.tokens.length < 2 ^ 32) :
    direct a b = exact a b := by
  have hterms : b.terms = a.terms := by
    rw [TokenizedFile.terms, TokenizedFile.terms, htokens]
  have hne' : a.terms ≠ [] := by
    simpa [TokenizedFile.terms] using hne
  have hshort' : a.terms.length < 2 ^ 32 := by
    simpa [TokenizedFile.terms] using hshort
  simp only [direct, exact, hterms, ← htokens, cosine_self hne' hshort',
    jaccard_self hne' hshort', editRatio_self]

theorem entry_of_tokens_eq
    {threshold : Float} {places : Nat}
    (hthreshold : threshold ≤ 1.0)
    (hplaces : places ≤ 10)
    (htokens : a.tokens = b.tokens)
    (hne : a.tokens ≠ [])
    (hshort : a.tokens.length < 2 ^ 32) :
    entry threshold places a b = some (exact a b) := by
  have hreaches : (exact a b).Reaches threshold := .inl hthreshold
  have hrounded : (exact a b).rounded places = exact a b := by
    simp only [rounded, exact, roundTo_one hplaces]
  rw [entry_eq, direct_of_tokens_eq htokens hne hshort, if_pos hreaches,
    hrounded]

theorem compareAll_copies
    {s : ComparisonSettings} {files : List TokenizedFile}
    (hvalid : s.fault? = none)
    {i j : Fin files.length}
    (hij : i < j)
    (htokens : files[i].tokens = files[j].tokens)
    (hne : files[i].tokens ≠ [])
    (hshort : files[i].tokens.length < 2 ^ 32) :
    compareAll s files = .ok ((located s files).map (·.comparison)) ∧
      (∀ c, (⟨i, j, c⟩ : Located files.length) ∈ located s files ↔
        c = exact files[i] files[j]) ∧
      ∀ n : Nat, 0 < n → n < 2 ^ 64 →
        Decimal.nearestNat n /
          (Decimal.nearestNat n * Decimal.nearestNat n).sqrt = 1.0 := by
  have hmany : 2 ≤ files.length := by
    have hsecond := j.isLt
    have hfirst := Fin.lt_def.1 hij
    omega
  obtain ⟨hthreshold, hplaces⟩ := ComparisonSettings.bounds_of_valid hvalid
  refine ⟨compareAll_eq_located hmany hvalid, ?_, ?_⟩
  · intro c
    rw [mem_located_iff hvalid,
      entry_of_tokens_eq hthreshold hplaces htokens hne hshort,
      Option.some.injEq]
    exact ⟨fun h => h.2.symm, fun h => ⟨hij, h.symm⟩⟩
  · intro n hpos hsmall
    rw [Double.sqrt_nearestNat_mul_self hpos hsmall,
      Double.nearestNat_div_self hpos hsmall]

section Reprinted

/-- The first file appears again under the same name. -/
def reprinted : List TokenizedFile := namesakes ++ namesakes.take 1

def strict : ComparisonSettings where
  threshold := 1.0
  precision := 10

def original : Fin reprinted.length := ⟨0, by decide⟩

def reprint : Fin reprinted.length := ⟨3, by decide⟩

theorem compareAll_reprinted :
    compareAll strict reprinted =
      .ok ((located strict reprinted).map (·.comparison)) ∧
      (∀ c,
        (⟨original, reprint, c⟩ : Located reprinted.length) ∈
          located strict reprinted ↔
        c = exact reprinted[original] reprinted[reprint]) ∧
      (located strict reprinted).map
        (fun c => (c.first.val, c.second.val, c.comparison.scores)) =
        [(0, 3, 1.0, 1.0, 1.0)] := by
  obtain ⟨hrun, hkept, -⟩ :=
    compareAll_copies (by decide : strict.fault? = none)
      (by decide : original < reprint) (by decide) (by decide) (by decide)
  exact ⟨hrun, hkept, by decide +kernel⟩

end Reprinted

end Comparison

end Resemblance
