import Mathlib.Data.Int.Log
import Mathlib.Data.Rat.Floor
import Mathlib.Tactic.Linarith
import Mathlib.Tactic.NormNum
import Mathlib.Tactic.Positivity

/-!
# Doubles

The rationals extended with the infinities and NaN, and rounding to the nearest double with ties to even.  Twice
the precision of a double has no part in it: a rational is rounded once, to a multiple of the spacing around it.
`magnitude_le` and `le_magnitude` say on which side of a power of two the result is, and from them follows what
overflows.
-/

namespace Reasoning

inductive Extended where
  | nan
  | inf (negative : Bool)
  | fin (q : ℚ)
deriving DecidableEq, Repr

namespace Extended

def IsFinite : Extended → Prop
  | .fin _ => True
  | _ => False

instance (x : Extended) : Decidable x.IsFinite :=
  match x with
  | .fin _ => isTrue trivial
  | .inf _ => isFalse id
  | .nan => isFalse id

/-- The product with a positive number, after rounding. -/
def scale (round : ℚ → Extended) (u : ℚ) : Extended → Extended
  | .fin q => round (q * u)
  | x => x

/-- The integer part; there is none of an infinity or of NaN. -/
def truncate : Extended → Option ℤ
  | .fin q => some (if q < 0 then ⌈q⌉ else ⌊q⌋)
  | _ => none

theorem truncate_isSome_iff (x : Extended) : x.truncate.isSome ↔ x.IsFinite := by
  cases x with
  | nan => exact iff_of_false nofun id
  | inf negative => exact iff_of_false nofun id
  | fin q => exact iff_of_true rfl trivial

/-- The sum with a number, after rounding. -/
def shift (round : ℚ → Extended) (a : ℚ) : Extended → Extended
  | .fin q => round (a + q)
  | x => x

/-- `x < y`; nothing is less than NaN, and NaN is less than nothing. -/
def lt : Extended → Extended → Bool
  | .nan, _ => false
  | _, .nan => false
  | .inf negative, .inf negative' => negative && !negative'
  | .inf negative, .fin _ => negative
  | .fin _, .inf negative => !negative
  | .fin q, .fin q' => decide (q < q')

/-- `x <= y` -/
def le : Extended → Extended → Bool
  | .nan, _ => false
  | _, .nan => false
  | .inf negative, .inf negative' => negative || !negative'
  | .inf negative, .fin _ => negative
  | .fin _, .inf negative => !negative
  | .fin q, .fin q' => decide (q ≤ q')

/-- Without NaN, one comparison is the negation of the other. -/
theorem le_eq_not_lt {x y : Extended} (hx : x ≠ .nan) (hy : y ≠ .nan) : x.le y = !y.lt x := by
  cases x with
  | nan => exact absurd rfl hx
  | inf negative =>
    cases y with
    | nan => exact absurd rfl hy
    | inf negative' => cases negative <;> cases negative' <;> rfl
    | fin q' => cases negative <;> rfl
  | fin q =>
    cases y with
    | nan => exact absurd rfl hy
    | inf negative' => rfl
    | fin q' => rw [le, lt, ← decide_not, decide_eq_decide, not_lt]

theorem scale_eq_nan_iff {round : ℚ → Extended} (hround : ∀ q, round q ≠ .nan) {u : ℚ} {x : Extended} :
    x.scale round u = .nan ↔ x = .nan := by
  cases x with
  | nan => exact Iff.rfl
  | inf negative => exact Iff.rfl
  | fin q => exact iff_of_false (hround _) nofun

theorem shift_ne_nan {round : ℚ → Extended} (hround : ∀ q, round q ≠ .nan) {x : Extended} (a : ℚ)
    (hx : x ≠ .nan) : x.shift round a ≠ .nan := by
  cases x with
  | nan => exact hx
  | inf negative => exact hx
  | fin q => exact hround _

end Extended

/-! ## Rounding to an integer -/

/-- The nearest integer; of two that are as near as each other, the even one. -/
def roundEven (q : ℚ) : ℤ :=
  if q - ⌊q⌋ < 1 / 2 then ⌊q⌋
  else if 1 / 2 < q - ⌊q⌋ then ⌊q⌋ + 1
  else ⌊q⌋ + ⌊q⌋ % 2

theorem floor_le_roundEven (q : ℚ) : ⌊q⌋ ≤ roundEven q := by
  unfold roundEven
  split
  · exact le_refl _
  · split
    · omega
    · omega

theorem le_roundEven {q : ℚ} {n : ℤ} (h : n ≤ q) : n ≤ roundEven q :=
  (Int.le_floor.mpr h).trans (floor_le_roundEven q)

theorem roundEven_le {q : ℚ} {n : ℤ} (h : q < n + 1 / 2) : roundEven q ≤ n := by
  have hfloor := Int.floor_le q
  by_cases hlt : q < n
  · have hbelow : ⌊q⌋ < n := Int.floor_lt.mpr hlt
    unfold roundEven
    split
    · omega
    · split
      · omega
      · omega
  · have heq : ⌊q⌋ = n := by
      rw [Int.floor_eq_iff]
      constructor
      · linarith
      · linarith
    rw [roundEven, heq, if_pos (by linarith)]

theorem le_roundEven_of_even {q : ℚ} {n : ℤ} (heven : n % 2 = 0) (h : n - 1 / 2 ≤ q) : n ≤ roundEven q := by
  by_cases hle : (n : ℚ) ≤ q
  · exact le_roundEven hle
  · have heq : ⌊q⌋ = n - 1 := by
      rw [Int.floor_eq_iff]
      push_cast
      constructor
      · linarith
      · linarith
    have hlow : ¬ q - ((n - 1 : ℤ) : ℚ) < 1 / 2 := by
      push_cast
      linarith
    -- half way between the two, or beyond: the upper one is the even one
    rw [roundEven, heq, if_neg hlow]
    split
    · omega
    · omega

/-! ## Rounding to a double -/

/-- The exponent of the spacing of the doubles around a number. -/
def spacing (a : ℚ) : ℤ :=
  max (Int.log 2 a - 52) (-1074)

/-- The multiple of the spacing that is nearest to a positive number. -/
def magnitude (a : ℚ) : ℚ :=
  roundEven (a / 2 ^ spacing a) * 2 ^ spacing a

def nearest (q : ℚ) : ℚ :=
  if q < 0 then -magnitude |q| else magnitude |q|

/-- The nearest double. -/
def double (q : ℚ) : Extended :=
  if |nearest q| < 2 ^ (1024 : ℤ) then .fin (nearest q) else .inf (decide (q < 0))

theorem double_ne_nan (q : ℚ) : double q ≠ .nan := by
  unfold double
  split
  · nofun
  · nofun

theorem magnitude_nonneg {a : ℚ} (ha : 0 ≤ a) : 0 ≤ magnitude a := by
  have hpos : (0 : ℚ) < 2 ^ spacing a := zpow_pos two_pos _
  have hround : (0 : ℤ) ≤ roundEven (a / 2 ^ spacing a) := by
    apply le_roundEven
    rw [Int.cast_zero]
    exact div_nonneg ha hpos.le
  exact mul_nonneg (by exact_mod_cast hround) hpos.le

theorem abs_nearest (q : ℚ) : |nearest q| = magnitude |q| := by
  have hnonneg := magnitude_nonneg (abs_nonneg q)
  unfold nearest
  split
  · rw [abs_neg, abs_of_nonneg hnonneg]
  · exact abs_of_nonneg hnonneg

section

variable {a : ℚ} {k e : ℤ}

/-- A power of two as so many times a smaller one. -/
theorem zpow_eq_mul (k e : ℤ) : (2 : ℚ) ^ k = 2 ^ (k - e) * 2 ^ e := by
  rw [← zpow_add₀ two_ne_zero, Int.sub_add_cancel]

theorem zpow_eq_intCast (h : e ≤ k) : (2 : ℚ) ^ (k - e) = ((2 ^ (k - e).toNat : ℤ) : ℚ) := by
  rw [Int.cast_pow, Int.cast_ofNat, ← zpow_natCast, Int.toNat_of_nonneg (by omega)]

theorem zpow_sub_one_mul (k : ℤ) : (2 : ℚ) ^ (k - 1) * 2 = 2 ^ k := by
  rw [← zpow_add_one₀ two_ne_zero, Int.sub_add_cancel]

/-- A power of two is so many times the spacing right below it, and half a spacing is a power of two as well. -/
theorem zpow_spacing (k : ℤ) : (2 : ℚ) ^ k = 2 ^ 53 * 2 ^ (k - 53) ∧ (2 : ℚ) ^ (k - 54) * 2 = 2 ^ (k - 53) := by
  constructor
  · rw [zpow_eq_mul k (k - 53), show k - (k - 53) = 53 by omega]
    norm_num
  · rw [show k - 54 = k - 53 - 1 by omega, zpow_sub_one_mul]

/-- What is less than half a spacing below a power of two stays below it. -/
theorem magnitude_le (hk : -1021 ≤ k) (ha : 0 < a) (h : a < 2 ^ k - 2 ^ (k - 54)) :
    magnitude a ≤ 2 ^ k - 2 ^ (k - 53) := by
  have hpos : (0 : ℚ) < 2 ^ spacing a := zpow_pos two_pos _
  have hlog : Int.log 2 a < k := by
    have hlt : a < 2 ^ k := h.trans (sub_lt_self _ (zpow_pos two_pos _))
    exact_mod_cast (Int.lt_zpow_iff_log_lt Nat.one_lt_two ha).mp (by exact_mod_cast hlt)
  have hspacing : spacing a ≤ k - 53 := max_le (by omega) (by omega)
  rcases hspacing.eq_or_lt with heq | hlt
  · -- right below the power, which is 2^53 times the spacing
    obtain ⟨hone, hhalf⟩ := zpow_spacing k
    have hround : roundEven (a / 2 ^ spacing a) ≤ 2 ^ 53 - 1 := by
      apply roundEven_le
      rw [heq, div_lt_iff₀ (zpow_pos two_pos _)]
      push_cast
      linarith
    have hcast : (roundEven (a / 2 ^ spacing a) : ℚ) ≤ 2 ^ 53 - 1 := by exact_mod_cast hround
    have hmul := mul_le_mul_of_nonneg_right hcast hpos.le
    rw [magnitude, hone]
    rw [heq] at hmul ⊢
    linarith
  · -- where the spacing is finer, half of the power has not been reached, and rounding does not go beyond it
    have hsmall : a < 2 ^ (k - 1) := by
      have hlog' : Int.log 2 a < k - 1 := by
        have := le_max_left (Int.log 2 a - 52) (-1074)
        unfold spacing at hlt
        omega
      exact_mod_cast (Int.lt_zpow_iff_log_lt Nat.one_lt_two ha).mpr hlog'
    have hround : roundEven (a / 2 ^ spacing a) ≤ 2 ^ (k - 1 - spacing a).toNat := by
      apply roundEven_le
      rw [← zpow_eq_intCast (by omega), div_lt_iff₀ hpos]
      have hhalf : (0 : ℚ) < 1 / 2 * 2 ^ spacing a := mul_pos one_half_pos hpos
      have hsplit := zpow_eq_mul (k - 1) (spacing a)
      linarith
    have hcast : (roundEven (a / 2 ^ spacing a) : ℚ) ≤ 2 ^ (k - 1 - spacing a) := by
      rw [zpow_eq_intCast (by omega)]
      exact_mod_cast hround
    have hmul := mul_le_mul_of_nonneg_right hcast hpos.le
    rw [← zpow_eq_mul] at hmul
    have hdouble := zpow_sub_one_mul k
    have hspare : (2 : ℚ) ^ (k - 53) ≤ 2 ^ (k - 1) := zpow_le_zpow_right₀ one_le_two (by omega)
    rw [magnitude]
    linarith

/-- What is half a spacing below a power of two reaches it. -/
theorem le_magnitude (hk : -1021 ≤ k) (h : 2 ^ k - 2 ^ (k - 54) ≤ a) : 2 ^ k ≤ magnitude a := by
  have hpos : (0 : ℚ) < 2 ^ spacing a := zpow_pos two_pos _
  have hdouble := zpow_sub_one_mul k
  have hlow : (2 : ℚ) ^ (k - 1) ≤ a := by
    have hspare : (2 : ℚ) ^ (k - 54) ≤ 2 ^ (k - 1) := zpow_le_zpow_right₀ one_le_two (by omega)
    linarith
  have ha : 0 < a := (zpow_pos two_pos _).trans_le hlow
  have hlog : k - 1 ≤ Int.log 2 a :=
    (Int.zpow_le_iff_le_log Nat.one_lt_two ha).mp (by exact_mod_cast hlow)
  have hself : (2 : ℚ) ^ Int.log 2 a ≤ a := by exact_mod_cast Int.zpow_log_le_self Nat.one_lt_two ha
  have hspacing : spacing a = Int.log 2 a - 52 := max_eq_left (by omega)
  rcases hlog.eq_or_lt with heq | hlt
  · -- right below the power: the number is rounded up to it, since 2^53 is even
    have he : spacing a = k - 53 := by omega
    obtain ⟨hone, hhalf⟩ := zpow_spacing k
    have hround : 2 ^ 53 ≤ roundEven (a / 2 ^ spacing a) := by
      apply le_roundEven_of_even (by norm_num)
      rw [he, le_div_iff₀ (zpow_pos two_pos _)]
      push_cast
      linarith
    have hcast : (2 : ℚ) ^ 53 ≤ roundEven (a / 2 ^ spacing a) := by exact_mod_cast hround
    have hmul := mul_le_mul_of_nonneg_right hcast hpos.le
    rw [magnitude, hone]
    rw [he] at hmul ⊢
    linarith
  · -- from the power on: no number is rounded below a power of two beneath it
    have hround : 2 ^ 52 ≤ roundEven (a / 2 ^ spacing a) := by
      apply le_roundEven
      have hsplit : (2 : ℚ) ^ Int.log 2 a = 2 ^ 52 * 2 ^ spacing a := by
        rw [zpow_eq_mul (Int.log 2 a) (spacing a), show Int.log 2 a - spacing a = 52 by omega]
        norm_num
      rw [le_div_iff₀ hpos]
      push_cast
      linarith
    have hcast : (2 : ℚ) ^ 52 ≤ roundEven (a / 2 ^ spacing a) := by exact_mod_cast hround
    have hmul := mul_le_mul_of_nonneg_right hcast hpos.le
    have hstep : (2 : ℚ) ^ k ≤ 2 ^ 52 * 2 ^ spacing a := by
      have hfifty : (2 : ℚ) ^ 52 * 2 ^ spacing a = 2 ^ (52 + spacing a) := by
        rw [zpow_add₀ two_ne_zero]
        norm_num
      rw [hfifty]
      exact zpow_le_zpow_right₀ one_le_two (by omega)
    rw [magnitude]
    linarith

end

theorem magnitude_zero : magnitude 0 = 0 := by
  have hzero : roundEven 0 = 0 := by
    apply le_antisymm
    · exact roundEven_le (by norm_num)
    · exact le_roundEven (by norm_num)
  rw [magnitude, zero_div, hzero, Int.cast_zero, zero_mul]

/-! ## What overflows -/

/-- Half a spacing below the power of two that is too large for a double. -/
def overflow : ℚ :=
  2 ^ (1024 : ℤ) - 2 ^ (970 : ℤ)

section

variable {k : ℤ} {q : ℚ}

theorem abs_nearest_le (hk : -1021 ≤ k) (h : |q| < 2 ^ k - 2 ^ (k - 54)) : |nearest q| ≤ 2 ^ k - 2 ^ (k - 53) := by
  rw [abs_nearest]
  rcases (abs_nonneg q).eq_or_lt with hzero | hpos
  · rw [← hzero, magnitude_zero, sub_nonneg]
    exact zpow_le_zpow_right₀ one_le_two (by omega)
  · exact magnitude_le hk hpos h

/-- Rounding stays below a power of two, unless the number is half a spacing from it or above it. -/
theorem abs_nearest_lt_iff (hk : -1021 ≤ k) : |nearest q| < 2 ^ k ↔ |q| < 2 ^ k - 2 ^ (k - 54) := by
  constructor
  · intro h
    by_contra hge
    rw [abs_nearest] at h
    exact absurd (le_magnitude hk (le_of_not_gt hge)) (not_le.mpr h)
  · intro h
    exact (abs_nearest_le hk h).trans_lt (sub_lt_self _ (zpow_pos two_pos _))

theorem double_isFinite_iff : (double q).IsFinite ↔ |q| < overflow := by
  have hiff : |nearest q| < 2 ^ (1024 : ℤ) ↔ |q| < overflow := abs_nearest_lt_iff (by omega)
  rw [← hiff, double]
  split
  · exact iff_of_true trivial ‹_›
  · exact iff_of_false id ‹_›

theorem double_of_lt (h : |q| < overflow) : double q = .fin (nearest q) :=
  if_pos ((abs_nearest_lt_iff (by omega)).mpr h)

theorem double_of_le (h : overflow ≤ |q|) : double q = .inf (decide (q < 0)) :=
  if_neg fun hlt ↦ absurd ((abs_nearest_lt_iff (by omega)).mp hlt) (not_lt.mpr h)

theorem mul_zpow_lt_overflow_iff (a : ℚ) (k : ℤ) :
    a * 2 ^ k < overflow ↔ a < 2 ^ (1024 - k) - 2 ^ (1024 - k - 54) := by
  have hsplit : overflow = (2 ^ (1024 - k) - 2 ^ (1024 - k - 54)) * 2 ^ k := by
    rw [overflow, sub_mul, ← zpow_eq_mul, ← zpow_add₀ two_ne_zero, show 1024 - k - 54 + k = 970 by omega]
  rw [hsplit, mul_lt_mul_iff_left₀ (zpow_pos two_pos k)]

/-- A power of two makes a number overflow exactly if the product does without the rounding before it. -/
theorem scale_isFinite_iff (hk : 0 ≤ k ∧ k ≤ 2045) :
    ((double q).scale double (2 ^ k)).IsFinite ↔ |q| * 2 ^ k < overflow := by
  have hpos : (0 : ℚ) < 2 ^ k := zpow_pos two_pos k
  by_cases hlt : |q| < overflow
  · have hq : |nearest q| < 2 ^ (1024 - k) ↔ |q| < 2 ^ (1024 - k) - 2 ^ (1024 - k - 54) :=
      abs_nearest_lt_iff (by omega)
    rw [double_of_lt hlt, Extended.scale, double_isFinite_iff, abs_mul, abs_of_pos hpos,
      mul_zpow_lt_overflow_iff, mul_zpow_lt_overflow_iff, ← hq]
    constructor
    · exact fun h ↦ h.trans (sub_lt_self _ (zpow_pos two_pos _))
    · intro h
      have hle : |nearest q| ≤ 2 ^ (1024 - k) - 2 ^ (1024 - k - 53) := abs_nearest_le (by omega) (hq.mp h)
      have hspare : (2 : ℚ) ^ (1024 - k - 54) < 2 ^ (1024 - k - 53) := zpow_lt_zpow_right₀ one_lt_two (by omega)
      linarith
  · -- the number is an infinity already, and stays one
    have hge : overflow ≤ |q| * 2 ^ k := by
      have hone : (1 : ℚ) ≤ 2 ^ k := one_le_zpow₀ one_le_two hk.1
      exact (not_lt.mp hlt).trans (le_mul_of_one_le_right (abs_nonneg q) hone)
    rw [double_of_le (not_lt.mp hlt)]
    exact iff_of_false id (not_lt.mpr hge)

/-- A factor that is no more than 1 does not make a number overflow. -/
theorem scale_isFinite_iff_of_le_one {u : ℚ} (hu : 0 ≤ u) (hone : u ≤ 1) :
    ((double q).scale double u).IsFinite ↔ |q| < overflow := by
  by_cases hlt : |q| < overflow
  · have hle : |nearest q| ≤ 2 ^ (1024 : ℤ) - 2 ^ (1024 - 53 : ℤ) := abs_nearest_le (by omega) hlt
    have hspare : (2 : ℚ) ^ (970 : ℤ) < 2 ^ (1024 - 53 : ℤ) := zpow_lt_zpow_right₀ one_lt_two (by omega)
    have hscaled : |nearest q * u| ≤ |nearest q| := by
      rw [abs_mul, abs_of_nonneg hu]
      exact mul_le_of_le_one_right (abs_nonneg _) hone
    rw [double_of_lt hlt, Extended.scale, double_isFinite_iff]
    refine iff_of_true (hscaled.trans_lt ?_) hlt
    rw [overflow]
    linarith
  · rw [double_of_le (not_lt.mp hlt)]
    exact iff_of_false id hlt

end

end Reasoning
