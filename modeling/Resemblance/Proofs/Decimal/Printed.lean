import Resemblance.Proofs.Decimal.Stored

/-!
# Printed decimals

A finite double is printed with the digits of the whole number of units of the
last place that is nearest to its magnitude, a tie going to the even one.  The
undefined number and the infinities have names.  Every sign is kept, also that
of the negative zero and that of a value which rounds to zero.
-/

namespace Resemblance.Decimal

open Double Float.Model

section Digits

/-- The digits of a number behind as many zeros as its width asks for. -/
def zeroPadded (width n : ℕ) : List Char :=
  (Nat.toDigits 10 n).leftpad width '0'

variable {width places : ℕ}

theorem zeroPadded_one (n : ℕ) : zeroPadded 1 n = Nat.toDigits 10 n := by
  have hsome : 0 < (Nat.toDigits 10 n).length := Nat.length_toDigits_pos
  have hnone : 1 - (Nat.toDigits 10 n).length = 0 := by omega
  rw [zeroPadded, List.leftpad, hnone]
  rfl

theorem zeroPadded_zero (hwidth : 0 < width) :
    zeroPadded width 0 = List.replicate width '0' := by
  obtain ⟨width, rfl⟩ := Nat.exists_eq_add_one.2 hwidth
  exact List.replicate_succ'.symm

theorem zeroPadded_succ
    (hwidth : 0 < width)
    (n : ℕ) :
    zeroPadded (width + 1) n =
      zeroPadded width (n / 10) ++ [Nat.digitChar (n % 10)] := by
  by_cases hn : n < 10
  · rw [Nat.div_eq_of_lt hn, Nat.mod_eq_of_lt hn, zeroPadded_zero hwidth,
      zeroPadded, Nat.toDigits_of_lt_base hn]
    rfl
  · have hdigits : Nat.toDigits 10 n =
        Nat.toDigits 10 (n / 10) ++ [Nat.digitChar (n % 10)] := by
      rw [Nat.toDigits_eq_if (by decide), if_neg hn]
    rw [zeroPadded, zeroPadded, hdigits]
    simp [List.leftpad]

theorem length_zeroPadded
    (hwidth : 0 < width)
    {n : ℕ}
    (hn : n < 10 ^ width) :
    (zeroPadded width n).length = width := by
  induction width, hwidth using Nat.le_induction generalizing n with
  | base =>
      rw [zeroPadded_one, Nat.toDigits_of_lt_base (by omega)]
      rfl
  | succ width hwidth ih =>
      have hrest : n / 10 < 10 ^ width := by
        rw [Nat.div_lt_iff_lt_mul (by decide)]
        rwa [pow_succ] at hn
      rw [zeroPadded_succ hwidth, List.length_append, ih hrest]
      rfl

/-- The last digits are the remainder, and what is before them the quotient. -/
theorem zeroPadded_eq_append
    (hplaces : 0 < places)
    (units : ℕ) :
    zeroPadded (places + 1) units =
      Nat.toDigits 10 (units / 10 ^ places) ++
        zeroPadded places (units % 10 ^ places) := by
  induction places, hplaces using Nat.le_induction generalizing units with
  | base =>
      have hlast : units % 10 < 10 := Nat.mod_lt units (by decide)
      rw [zeroPadded_succ Nat.one_pos, zeroPadded_one, zeroPadded_one, pow_one,
        Nat.toDigits_of_lt_base hlast]
  | succ places hplaces ih =>
      have hquotient : units / 10 / 10 ^ places =
          units / 10 ^ (places + 1) := by
        rw [Nat.div_div_eq_div_mul, pow_succ']
      have hremainder : units % 10 ^ (places + 1) / 10 =
          units / 10 % 10 ^ places := by
        rw [pow_succ', Nat.mod_mul_right_div_self]
      have hlast : units % 10 ^ (places + 1) % 10 = units % 10 :=
        Nat.mod_mod_of_dvd units (dvd_pow_self 10 (Nat.succ_ne_zero places))
      rw [zeroPadded_succ (Nat.succ_pos places), ih, zeroPadded_succ hplaces,
        hquotient, hremainder, hlast, List.append_assoc]

theorem pointed_eq
    (hplaces : 0 < places)
    (units : ℕ) :
    pointed units places =
      Nat.toDigits 10 (units / 10 ^ places) ++
        '.' :: zeroPadded places (units % 10 ^ places) := by
  have hlength : (zeroPadded places (units % 10 ^ places)).length = places :=
    length_zeroPadded hplaces (Nat.mod_lt units (by positivity))
  have hdigits := zeroPadded_eq_append hplaces units
  rw [zeroPadded] at hdigits
  unfold pointed
  simp only [hdigits, hplaces.ne', if_false, List.length_append, hlength,
    Nat.add_sub_cancel, List.take_left, List.drop_left]

end Digits

section Printing

def signText : UnpackedFloat.Sign → List Char
  | .positive => []
  | .negative => ['-']

/-- The text of a double, given by the fields of its bits. -/
inductive Prints (places : ℕ) (x : Float) : List Char → Prop
  | undefined :
      x.toModel.unpack = .notANumber → Prints places x ['N', 'a', 'N']
  | infinite {s : UnpackedFloat.Sign} :
      x.toModel.unpack = .infinity s →
      Prints places x (signText s ++ ['i', 'n', 'f'])
  | zero {s : UnpackedFloat.Sign} :
      x.toModel.unpack = .zero s →
      Prints places x
        (signText s ++ ('0' :: '.' :: List.replicate places '0'))
  | finite {s : UnpackedFloat.Sign} {m : ℕ} {e : ℤ} {hm : 0 < m} {k : ℕ} :
      x.toModel.unpack = .finite s m e hm →
      k = nearestEven (m * 2 ^ e * 10 ^ places) →
      Prints places x
        (signText s ++ (Nat.toDigits 10 (k / 10 ^ places) ++
          '.' :: zeroPadded places (k % 10 ^ places)))

variable {places : ℕ} {x : Float} {t : List Char}

theorem signed_eq
    (s : UnpackedFloat.Sign)
    (t : List Char) :
    signed (s == .negative) t = signText s ++ t := by
  cases s <;> rfl

theorem exists_prints (places : ℕ) (x : Float) : ∃ t, Prints places x t := by
  cases hx : x.toModel.unpack with
  | notANumber => exact ⟨_, .undefined hx⟩
  | infinity s => exact ⟨_, .infinite hx⟩
  | zero s => exact ⟨_, .zero hx⟩
  | finite s m e hm => exact ⟨_, .finite hx rfl⟩

theorem Prints.eq_fixed
    (hplaces : 0 < places)
    (ht : Prints places x t) :
    t = fixed places x := by
  cases ht with
  | undefined hx =>
      rw [fixed, Binary.ofFloat, hx]
      rfl
  | infinite hx =>
      rw [fixed, Binary.ofFloat, hx, ← signed_eq]
      rfl
  | zero hx =>
      have hdigits := pointed_eq hplaces 0
      rw [Nat.zero_div, Nat.zero_mod, zeroPadded_zero hplaces] at hdigits
      rw [fixed, Binary.ofFloat, hx, ← signed_eq, Binary.fixed, unitsOf_zero,
        hdigits]
      rfl
  | finite hx hk =>
      rw [fixed, Binary.ofFloat, hx, hk, ← unitsOf_eq, ← pointed_eq hplaces,
        ← signed_eq]
      rfl

theorem prints_iff (hplaces : 0 < places) :
    Prints places x t ↔ t = fixed places x := by
  constructor
  · exact Prints.eq_fixed hplaces
  · rintro rfl
    obtain ⟨t, ht⟩ := exists_prints places x
    rwa [← ht.eq_fixed hplaces]

end Printing

end Resemblance.Decimal
