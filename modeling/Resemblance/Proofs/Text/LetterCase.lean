import Mathlib
import Resemblance.Proofs.Text.Match
import Resemblance.Text.Strings
import Resemblance.Text.Words

/-!
# Texts that differ in the case of ASCII letters

Two texts have the same letters if they agree character by character once the
letters of ASCII are lowered.  A pattern whose words hold no letter finds its
matches at the same places in both, so a pass takes them to texts with the same
letters again.  Full case mapping does not tell the two apart either.
-/

namespace Resemblance.Text

section Characters

/-- The letters that lowering changes. -/
def capitals : List Char := (List.range' 65 26).map Char.ofNat

theorem mem_capitals_of_isUpper
    {c : Char}
    (hc : c.isUpper = true) :
    c ∈ capitals := by
  simp only [Char.isUpper, UInt32.le_iff_toNat_le, ge_iff_le,
    decide_eq_true_eq] at hc
  have hrange : 65 ≤ c.toNat ∧ c.toNat ≤ 90 := hc
  have hmem : c.toNat ∈ List.range' 65 26 := by
    rw [List.mem_range'_1]
    omega
  exact List.mem_map.2 ⟨c.toNat, hmem, Char.ofNat_toNat c⟩

/-- What holds for the twenty-six capitals holds for every character. -/
theorem apply_toLower
    {α : Type} [DecidableEq α] {f : Char → α}
    (hcapitals : capitals.all (fun c => f c.toLower = f c) = true)
    (c : Char) :
    f c.toLower = f c := by
  by_cases hc : c.isUpper = true
  · have hf := List.all_eq_true.1 hcapitals c (mem_capitals_of_isUpper hc)
    exact of_decide_eq_true hf
  · rw [Char.toLower_eq_of_not_isUpper hc]

theorem apply_toUpper
    {α : Type} {f : Char → α}
    (hblind : ∀ c, f c.toLower = f c)
    (c : Char) :
    f c.toUpper = f c := by
  rw [← hblind c.toUpper, Char.toLower_toUpper_eq_toLower, hblind c]

theorem isBlank_toLower (c : Char) : isBlank c.toLower = isBlank c :=
  apply_toLower (by decide +kernel) c

theorem isCased_toLower (c : Char) : isCased c.toLower = isCased c :=
  apply_toLower (by decide +kernel) c

theorem isCaseIgnorable_toLower (c : Char) :
    isCaseIgnorable c.toLower = isCaseIgnorable c :=
  apply_toLower (by decide +kernel) c

theorem lowerLetter_toLower (c : Char) :
    lowerLetter c.toLower = lowerLetter c :=
  apply_toLower (by decide +kernel) c

theorem upperLetter_toLower (c : Char) :
    upperLetter c.toLower = upperLetter c :=
  apply_toLower (by decide +kernel) c

theorem beq_toLower
    {z : Char}
    (hz : z.isAlpha = false)
    (c : Char) :
    (c.toLower == z) = (c == z) := by
  by_cases hc : c.isUpper = true
  · have hletter : c.isAlpha = true := by simp [Char.isAlpha, hc]
    have hne : c ≠ z := by
      rintro rfl
      rw [hz] at hletter
      contradiction
    have hne' : c.toLower ≠ z := by
      rintro rfl
      rw [Char.isAlpha_toLower_eq_isAlpha, hletter] at hz
      contradiction
    rw [beq_false_of_ne hne, beq_false_of_ne hne']
  · rw [Char.toLower_eq_of_not_isUpper hc]

end Characters

section Texts

/-- The texts agree character by character up to the case of ASCII letters. -/
def SameLetters (t u : List Char) : Prop :=
  List.Forall₂ (fun c d => c.toLower = d.toLower) t u

variable {t u : List Char}

theorem apply_eq_of_toLower_eq
    {α : Type} {f : Char → α} {c d : Char}
    (hblind : ∀ c, f c.toLower = f c)
    (hcd : c.toLower = d.toLower) :
    f c = f d := by
  rw [← hblind c, hcd, hblind d]

theorem beq_eq_of_toLower_eq
    {c d z : Char}
    (hz : z.isAlpha = false)
    (hcd : c.toLower = d.toLower) :
    (c == z) = (d == z) := by
  rw [← beq_toLower hz c, hcd, beq_toLower hz d]

theorem sameLetters_of_map_eq (h : t.map Char.toLower = u.map Char.toLower) :
    SameLetters t u := by
  rw [← List.forall₂_eq_eq_eq, List.forall₂_map_left_iff,
    List.forall₂_map_right_iff] at h
  exact h

theorem SameLetters.refl (t : List Char) : SameLetters t t :=
  List.forall₂_same.2 fun _ _ => rfl

theorem SameLetters.ne_nil (h : SameLetters t u) (hne : t ≠ []) : u ≠ [] := by
  rintro rfl
  cases h
  exact hne rfl

theorem SameLetters.append
    {t' u' : List Char}
    (h : SameLetters t u)
    (h' : SameLetters t' u') :
    SameLetters (t ++ t') (u ++ u') :=
  List.rel_append h h'

theorem SameLetters.drop
    (h : SameLetters t u)
    (n : ℕ) :
    SameLetters (t.drop n) (u.drop n) :=
  List.forall₂_drop n h

theorem SameLetters.take
    (h : SameLetters t u)
    (n : ℕ) :
    SameLetters (t.take n) (u.take n) :=
  List.forall₂_take n h

theorem SameLetters.dropWhile
    {f : Char → Bool}
    (hblind : ∀ c, f c.toLower = f c)
    (h : SameLetters t u) :
    SameLetters (t.dropWhile f) (u.dropWhile f) := by
  induction h with
  | nil => exact List.Forall₂.nil
  | @cons c d t u hcd h ih =>
      rw [List.dropWhile_cons, List.dropWhile_cons,
        apply_eq_of_toLower_eq hblind hcd]
      split
      · exact ih
      · exact List.Forall₂.cons hcd h

theorem SameLetters.length_takeWhile
    {f : Char → Bool}
    (hblind : ∀ c, f c.toLower = f c)
    (h : SameLetters t u) :
    (t.takeWhile f).length = (u.takeWhile f).length := by
  induction h with
  | nil => rfl
  | @cons c d t u hcd h ih =>
      rw [List.takeWhile_cons, List.takeWhile_cons,
        apply_eq_of_toLower_eq hblind hcd]
      split
      · rw [List.length_cons, List.length_cons, ih]
      · rfl

theorem SameLetters.prefix_iff
    {w : List Char}
    (hw : ∀ z ∈ w, z.isAlpha = false)
    (h : SameLetters t u) :
    w <+: t ↔ w <+: u := by
  induction w generalizing t u with
  | nil => simp
  | cons z w ih =>
      cases h with
      | nil => rfl
      | @cons c d t u hcd h =>
          have hz := beq_eq_of_toLower_eq (hw z List.mem_cons_self) hcd
          have hhead : z = c ↔ z = d := by
            rw [eq_comm, ← beq_iff_eq, hz, beq_iff_eq, eq_comm]
          rw [List.cons_prefix_cons, List.cons_prefix_cons, hhead,
            ih (fun y hy => hw y (List.mem_cons_of_mem z hy)) h]

end Texts

section CaseMapping

variable {t u : List Char}

theorem SameLetters.startsCased_eq (h : SameLetters t u) :
    startsCased t = startsCased u := by
  have hhead : ∀ {v w : List Char}, SameLetters v w →
      v.head?.any isCased = w.head?.any isCased := by
    intro v w hvw
    cases hvw with
    | nil => rfl
    | cons hcd _ => exact apply_eq_of_toLower_eq isCased_toLower hcd
  exact hhead (h.dropWhile isCaseIgnorable_toLower)

theorem SameLetters.lowercaseFrom_eq
    {before before' : List Char}
    (hbefore : SameLetters before before')
    (h : SameLetters t u) :
    lowercaseFrom before t = lowercaseFrom before' u := by
  induction h generalizing before before' with
  | nil => rfl
  | @cons c d t u hcd h ih =>
      have hsigma := beq_eq_of_toLower_eq (by decide : 'Σ'.isAlpha = false) hcd
      have hletter := apply_eq_of_toLower_eq lowerLetter_toLower hcd
      rw [lowercaseFrom, lowercaseFrom, ih (List.Forall₂.cons hcd hbefore),
        hsigma, hletter, lowerSigma, lowerSigma, hbefore.startsCased_eq,
        SameLetters.startsCased_eq h]

theorem SameLetters.lowercase_eq (h : SameLetters t u) :
    lowercase t = lowercase u :=
  SameLetters.lowercaseFrom_eq List.Forall₂.nil h

theorem SameLetters.uppercase_eq (h : SameLetters t u) :
    uppercase t = uppercase u := by
  unfold uppercase
  induction h with
  | nil => rfl
  | cons hcd _ ih =>
      rw [List.flatMap_cons, List.flatMap_cons, ih,
        apply_eq_of_toLower_eq upperLetter_toLower hcd]

end CaseMapping

namespace Pattern

section Passes

variable {q : Pattern} {t u : List Char}

/-- The matches of the pattern are as long in another case. -/
def CaseBlind (q : Pattern) : Prop :=
  ∀ ⦃t u⦄, SameLetters t u → q.matchLength t = q.matchLength u

theorem CaseBlind.replace
    (hq : q.CaseBlind)
    (s : List Char)
    (h : SameLetters t u) :
    SameLetters (q.replace s t) (q.replace s u) := by
  induction t using q.walk_induction generalizing u with
  | nil =>
      cases h
      exact List.Forall₂.nil
  | unmatched c t hmatch ih =>
      have hother := hmatch
      rw [hq h] at hother
      cases h with
      | @cons _ d _ u hcd h =>
          rw [replace_cons_of_unmatched s hmatch,
            replace_cons_of_unmatched s hother]
          exact List.Forall₂.cons hcd (ih h)
  | matched t hne hmatch ih =>
      have hother := hmatch
      rw [hq h] at hother
      rw [replace_of_matched s hne hmatch,
        replace_of_matched s (h.ne_nil hne) hother, ← hq h]
      exact (SameLetters.refl s).append (ih (h.drop _))

theorem CaseBlind.findAll
    (hq : q.CaseBlind)
    (h : SameLetters t u) :
    List.Forall₂ SameLetters (q.findAll t) (q.findAll u) := by
  induction t using q.walk_induction generalizing u with
  | nil =>
      cases h
      exact List.Forall₂.nil
  | unmatched c t hmatch ih =>
      have hother := hmatch
      rw [hq h] at hother
      cases h with
      | @cons _ d _ u hcd h =>
          rw [findAll_cons_of_unmatched hmatch,
            findAll_cons_of_unmatched hother]
          exact ih h
  | matched t hne hmatch ih =>
      have hother := hmatch
      rw [hq h] at hother
      rw [findAll_of_matched hne hmatch,
        findAll_of_matched (h.ne_nil hne) hother, ← hq h]
      exact List.Forall₂.cons (h.take _) (ih (h.drop _))

end Passes

section Patterns

theorem caseBlind_run
    {belongs : Char → Bool}
    (hblind : ∀ c, belongs c.toLower = belongs c) :
    (run belongs).CaseBlind :=
  fun _ _ h => h.length_takeWhile hblind

theorem lengthThrough_eq_of_sameLetters
    {k t u : List Char}
    (hk : ∀ z ∈ k, z.isAlpha = false)
    (h : SameLetters t u) :
    lengthThrough k t = lengthThrough k u := by
  induction h with
  | nil => rfl
  | @cons c d t u hcd h ih =>
      have hcloser : k <+: c :: t ↔ k <+: d :: u :=
        SameLetters.prefix_iff hk (List.Forall₂.cons hcd h)
      by_cases hstart : k <+: c :: t
      · rw [lengthThrough_of_closer (List.cons_ne_nil c t) hstart,
          lengthThrough_of_closer (List.cons_ne_nil d u) (hcloser.1 hstart)]
      · rw [lengthThrough_cons_of_no_closer hstart,
          lengthThrough_cons_of_no_closer (mt hcloser.2 hstart), ih]

theorem caseBlind_enclosed
    {o k : List Char}
    (ho : ∀ z ∈ o, z.isAlpha = false)
    (hk : ∀ z ∈ k, z.isAlpha = false) :
    (enclosed o k).CaseBlind := by
  intro t u h
  have hopener := h.prefix_iff ho
  by_cases hstart : o <+: t
  · rw [matchLength_enclosed_of_opener hstart,
      matchLength_enclosed_of_opener (hopener.1 hstart),
      lengthThrough_eq_of_sameLetters hk (h.drop o.length)]
  · rw [matchLength_enclosed_of_no_opener hstart,
      matchLength_enclosed_of_no_opener (mt hopener.2 hstart)]

theorem caseBlind_toLineEnd
    {marker : List Char}
    (hmarker : ∀ z ∈ marker, z.isAlpha = false) :
    (toLineEnd marker).CaseBlind := by
  intro t u h
  have hstarts := h.prefix_iff hmarker
  by_cases hstart : marker <+: t
  · have hline : ∀ c : Char, (c.toLower != '\n') = (c != '\n') := by
      intro c
      rw [bne, bne, beq_toLower (by decide)]
    rw [matchLength_toLineEnd_of_marker hstart,
      matchLength_toLineEnd_of_marker (hstarts.1 hstart),
      h.length_takeWhile hline]
  · rw [matchLength_toLineEnd_of_no_marker hstart,
      matchLength_toLineEnd_of_no_marker (mt hstarts.2 hstart)]

end Patterns

end Pattern

section Words

theorem sameLetters_intercalate
    (s : List Char)
    {ws vs : List (List Char)}
    (h : List.Forall₂ SameLetters ws vs) :
    SameLetters (s.intercalate ws) (s.intercalate vs) := by
  induction h with
  | nil => exact List.Forall₂.nil
  | @cons w v ws vs hwv h ih =>
      cases h with
      | nil =>
          rwa [List.intercalate_singleton, List.intercalate_singleton]
      | cons hnext h =>
          rw [List.intercalate_cons_cons, List.intercalate_cons_cons]
          exact (hwv.append (SameLetters.refl s)).append ih

theorem sameLetters_collapse
    {t u : List Char}
    (h : SameLetters t u) :
    SameLetters (collapse t) (collapse u) := by
  have hsolid : ∀ c : Char, (!isBlank c.toLower) = !isBlank c := by
    intro c
    rw [isBlank_toLower]
  have hwords : List.Forall₂ SameLetters (words t) (words u) :=
    (Pattern.caseBlind_run hsolid).findAll h
  exact sameLetters_intercalate [' '] hwords

end Words

end Resemblance.Text
