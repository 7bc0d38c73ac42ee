import Mathlib.Data.List.InsertIdx
import Mathlib.Order.Basic
import Mathlib.Order.Bounds.Defs
import Resemblance.Proofs.Measure.EditDistance

/-!
# Edit scripts

A script is a list of edits, and each edit inserts, deletes or substitutes one
character at a position of the text that the edits before it have left.  One
edit moves a text by a distance of at most one, so by the triangle inequality no
script is shorter than the distance.  The recursion behind the table spells out
a script that is no longer.
-/

namespace Resemblance

inductive Edit where
  | insertion (position : Nat) (c : Char)
  | deletion (position : Nat)
  | substitution (position : Nat) (c : Char)
  deriving DecidableEq, Repr

namespace Edit

/-- The text after the edit, if its position lies in the text. -/
def after? : Edit → List Char → Option (List Char)
  | insertion i c, t => if i ≤ t.length then some (t.insertIdx i c) else none
  | deletion i, t => if i < t.length then some (t.eraseIdx i) else none
  | substitution i c, t => if i < t.length then some (t.set i c) else none

/-- The text after all edits of a script, in their order. -/
def run? (script : List Edit) (t : List Char) : Option (List Char) :=
  script.foldlM (fun u e => e.after? u) t

section Step

variable (p s : List Char) (c d : Char)

theorem insertIdx_length_append :
    (p ++ s).insertIdx p.length c = p ++ c :: s := by
  induction p with
  | nil => simp
  | cons e p ih => simp [List.insertIdx_succ_cons, ih]

theorem after?_insertion :
    (insertion p.length c).after? (p ++ s) = some (p ++ c :: s) := by
  simp [after?, insertIdx_length_append]

theorem after?_deletion :
    (deletion p.length).after? (p ++ c :: s) = some (p ++ s) := by
  simp [after?, List.eraseIdx_append_of_length_le]

theorem after?_substitution :
    (substitution p.length d).after? (p ++ c :: s) = some (p ++ d :: s) := by
  simp [after?]

/-- The edit stands between `p` and `s`, where a character comes, goes or
changes. -/
inductive Between (p s : List Char) : Edit → List Char → List Char → Prop where
  | insertion (c : Char) :
      Between p s (insertion p.length c) (p ++ s) (p ++ c :: s)
  | deletion (c : Char) : Between p s (deletion p.length) (p ++ c :: s) (p ++ s)
  | substitution (c d : Char) :
      Between p s (substitution p.length d) (p ++ c :: s) (p ++ d :: s)

end Step

theorem exists_append_of_le
    {t : List Char} {i : Nat}
    (hi : i ≤ t.length) :
    ∃ p s, t = p ++ s ∧ p.length = i :=
  ⟨t.take i, t.drop i, (List.take_append_drop i t).symm,
    List.length_take_of_le hi⟩

theorem exists_append_cons_of_lt
    {t : List Char} {i : Nat}
    (hi : i < t.length) :
    ∃ p c s, t = p ++ c :: s ∧ p.length = i := by
  rcases exists_append_of_le (Nat.le_of_lt hi) with ⟨p, x, rfl, hp⟩
  cases x with
  | nil => simp [hp] at hi
  | cons c s => exact ⟨p, c, s, rfl, hp⟩

theorem exists_between_of_after?
    {e : Edit} {t u : List Char}
    (hu : e.after? t = some u) :
    ∃ p s, Between p s e t u := by
  cases e with
  | insertion i c =>
      by_cases hi : i ≤ t.length
      · rcases exists_append_of_le hi with ⟨p, s, rfl, rfl⟩
        rw [after?_insertion, Option.some.injEq] at hu
        exact ⟨p, s, hu ▸ .insertion c⟩
      · simp [after?, hi] at hu
  | deletion i =>
      by_cases hi : i < t.length
      · rcases exists_append_cons_of_lt hi with ⟨p, c, s, rfl, rfl⟩
        rw [after?_deletion, Option.some.injEq] at hu
        exact ⟨p, s, hu ▸ .deletion c⟩
      · simp [after?, hi] at hu
  | substitution i d =>
      by_cases hi : i < t.length
      · rcases exists_append_cons_of_lt hi with ⟨p, c, s, rfl, rfl⟩
        rw [after?_substitution, Option.some.injEq] at hu
        exact ⟨p, s, hu ▸ .substitution c d⟩
      · simp [after?, hi] at hu

/-- What stands behind the text takes no part. -/
theorem after?_append
    {e : Edit} {t u : List Char}
    (hu : e.after? t = some u)
    (w : List Char) :
    e.after? (t ++ w) = some (u ++ w) := by
  rcases exists_between_of_after? hu with ⟨p, s, hbetween⟩
  cases hbetween with
  | insertion c => simpa using after?_insertion p (s ++ w) c
  | deletion c => simpa using after?_deletion p (s ++ w) c
  | substitution c d => simpa using after?_substitution p (s ++ w) c d

section Run

variable {script : List Edit} {t u : List Char}

@[simp] theorem run?_nil (t : List Char) : run? [] t = some t := rfl

@[simp] theorem run?_cons
    (e : Edit)
    (script : List Edit)
    (t : List Char) :
    run? (e :: script) t = (e.after? t).bind fun u => run? script u := rfl

theorem run?_concat
    (hu : run? script t = some u)
    (e : Edit) :
    run? (script ++ [e]) t = e.after? u := by
  induction script generalizing t with
  | nil =>
      rw [run?_nil, Option.some.injEq] at hu
      simp [hu]
  | cons e' script ih =>
      rw [run?_cons, Option.bind_eq_some_iff] at hu
      rcases hu with ⟨v, hv, hrest⟩
      rw [List.cons_append, run?_cons, hv, Option.bind_some, ih hrest]

theorem run?_append
    (hu : run? script t = some u)
    (w : List Char) :
    run? script (t ++ w) = some (u ++ w) := by
  induction script generalizing t with
  | nil => simp_all
  | cons e script ih =>
      rw [run?_cons, Option.bind_eq_some_iff] at hu
      rcases hu with ⟨v, hv, hrest⟩
      rw [run?_cons, after?_append hv, Option.bind_some, ih hrest]

end Run

/-! ## No script is shorter than the distance -/

section LowerBound

theorem editDistance_le_one_of_after?
    {e : Edit} {t u : List Char}
    (hu : e.after? t = some u) :
    editDistance t u ≤ 1 := by
  rcases exists_between_of_after? hu with ⟨p, s, hbetween⟩
  have hframe (x y : List Char) : editDistance (p ++ x ++ s) (p ++ y ++ s) ≤
      max x.length y.length :=
    Nat.le_trans (editDistance_frame_le p s x y) (editDistance_le x y)
  cases hbetween with
  | insertion c => simpa using hframe [] [c]
  | deletion c => simpa using hframe [c] []
  | substitution c d => simpa using hframe [c] [d]

theorem editDistance_le_length
    {script : List Edit} {t u : List Char}
    (hu : run? script t = some u) :
    editDistance t u ≤ script.length := by
  induction script generalizing t with
  | nil =>
      rw [run?_nil, Option.some.injEq] at hu
      simp [(editDistance_eq_zero_iff t u).2 hu]
  | cons e script ih =>
      rw [run?_cons, Option.bind_eq_some_iff] at hu
      rcases hu with ⟨v, hv, hrest⟩
      calc editDistance t u
          ≤ editDistance t v + editDistance v u := editDistance_triangle t v u
        _ ≤ 1 + script.length :=
            Nat.add_le_add (editDistance_le_one_of_after? hv) (ih hrest)
        _ = (e :: script).length := by rw [List.length_cons, Nat.add_comm]

end LowerBound

/-! ## Some script is as short -/

/-- Some script of `n` edits turns `t` into `u`. -/
def Reaches (n : Nat) (t u : List Char) : Prop :=
  ∃ script : List Edit, run? script t = some u ∧ script.length = n

namespace Reaches

variable {n : Nat} {t u v : List Char} {c : Char}

theorem refl (t : List Char) : Reaches 0 t t := ⟨[], rfl, rfl⟩

theorem concat
    {e : Edit}
    (hu : Reaches n t u)
    (hv : e.after? u = some v) :
    Reaches (n + 1) t v := by
  rcases hu with ⟨script, hrun, rfl⟩
  exact ⟨script ++ [e], by rw [run?_concat hrun, hv], by simp⟩

theorem append
    (hu : Reaches n t u)
    (w : List Char) :
    Reaches n (t ++ w) (u ++ w) := by
  rcases hu with ⟨script, hrun, hlength⟩
  exact ⟨script, run?_append hrun w, hlength⟩

theorem insert_last
    (hu : Reaches n t u)
    (d : Char) :
    Reaches (n + 1) t (u ++ [d]) := by
  have hend := after?_insertion u [] d
  rw [List.append_nil] at hend
  exact hu.concat hend

theorem delete_last (hu : Reaches n t (u ++ [c])) : Reaches (n + 1) t u := by
  have hend := after?_deletion u [] c
  rw [List.append_nil] at hend
  exact hu.concat hend

theorem substitute_last
    (hu : Reaches n t (u ++ [c]))
    (d : Char) :
    Reaches (n + 1) t (u ++ [d]) :=
  hu.concat (after?_substitution u [] c d)

end Reaches

section UpperBound

open EditDistance

theorem reaches_of_nil (t : List Char) : Reaches t.length [] t.reverse := by
  induction t with
  | nil => exact Reaches.refl []
  | cons d t ih => simpa using ih.insert_last d

theorem reaches_nil (s : List Char) : Reaches s.length s.reverse [] := by
  induction s with
  | nil => exact Reaches.refl []
  | cons c s ih => simpa using (ih.append [c]).delete_last

theorem reaches_between (s t : List Char) :
    Reaches (between s t) s.reverse t.reverse := by
  induction s, t using between.induct with
  | case1 t => simpa using reaches_of_nil t
  | case2 s => simpa using reaches_nil s
  | case3 c s d t ihBoth ihLeft ihRight =>
      simp only [List.reverse_cons] at ihLeft ihRight ⊢
      have hboth : Reaches (between s t + if c = d then 0 else 1)
          (s.reverse ++ [c]) (t.reverse ++ [d]) := by
        by_cases hcd : c = d
        · simpa [hcd] using ihBoth.append [d]
        · simpa [hcd] using (ihBoth.append [c]).substitute_last d
      have hleft :
          Reaches (between s (d :: t) + 1) (s.reverse ++ [c])
            (t.reverse ++ [d]) :=
        (ihLeft.append [c]).delete_last
      have hright :
          Reaches (between (c :: s) t + 1) (s.reverse ++ [c])
            (t.reverse ++ [d]) :=
        ihRight.insert_last d
      rcases between_cons_cons_cases c d s t with hlast | hlast | hlast
      · rwa [hlast]
      · rwa [hlast]
      · rwa [hlast]

end UpperBound

theorem editDistance_isLeast (a b : List Char) :
    IsLeast
      {n | ∃ script : List Edit, run? script a = some b ∧ script.length = n}
      (editDistance a b) := by
  constructor
  · have hreaches := reaches_between a.reverse b.reverse
    rw [List.reverse_reverse, List.reverse_reverse,
      ← editDistance_eq_between] at hreaches
    exact hreaches
  · rintro n ⟨script, hrun, rfl⟩
    exact editDistance_le_length hrun

example :
    run? [substitution 0 's', substitution 4 'i', insertion 6 'g']
        "kitten".toList =
      some "sitting".toList := by decide

end Edit

end Resemblance
