/- RabbitRender/ReciprocalErrors
   layer: theorem
   source: libpixelflinger/fixed.cpp, include/ggl_fixed.h
   digest: The values whose 4.28 reciprocal has in-range shifts and 13 good bits. -/

import RabbitRender.Reciprocals
import Mathlib.Algebra.Order.Field.Rat

set_option autoImplicit false

namespace RabbitRender.ReciprocalErrors

open Fixed Lib.NewtonSteps Reciprocals

/-- What is missing of 1, in 2.62, from the product of `2 * n` and the seed for it. -/
def seedError (n : Int) : Int := 2 ^ 62 - 2 * n * (0xBA000000 - n)

section Error

variable {n : Nat}

theorem seed_eq (word : n < 2 ^ 31) : seed (2 * n) < 2 ^ 32 ∧
    (2 ^ 62 - (2 * n : Nat) * seed (2 * n) : Int) = seedError n := by
  have value : seed (2 * n) = 0xBA000000 - n := by
    unfold seed
    rw [Nat.shiftRight_eq_div_pow]
    omega
  have cast : ((0xBA000000 - n : Nat) : Int) = 0xBA000000 - n := by omega
  rw [value, cast, seedError]
  exact ⟨by omega, by push_cast; ring⟩

theorem error_le (large : 2 ^ 30 < n) (word : n < 2 ^ 31) {E U : Int} (wide : 2 ^ 33 ≤ U)
    (near : |seedError n| ≤ E) (top : E ≤ 2 ^ 62) (first : E ^ 2 + 2 ^ 94 ≤ 2 ^ 62 * U) :
    (2 ^ 62 : Int) * (2 ^ 62 - (2 * n : Nat) * reciprocal (2 * n)) ≤ U ^ 2 + 2 ^ 94 := by
  obtain ⟨fits, same⟩ := seed_eq word
  rw [← same] at near
  have left := (abs_le.mp near).1
  have small : 2 * n * seed (2 * n) ≤ 2 ^ 63 := by
    zify
    push_cast at left
    linarith
  obtain ⟨-, fits1, above1⟩ := newton_eq (by omega) fits small
  have one := le_newton (by omega) (by omega) fits small near
  have near1 : |(2 ^ 62 - (2 * n : Nat) * newton (2 * n) (seed (2 * n)) : Int)| ≤ U := by
    zify at above1
    rw [abs_le]
    constructor
    · push_cast at above1 ⊢
      linarith
    · linarith
  have small1 : 2 * n * newton (2 * n) (seed (2 * n)) ≤ 2 ^ 63 := by omega
  have two := le_newton (by omega) (by omega) fits1 small1 near1
  unfold reciprocal
  rwa [if_neg (by omega)]

theorem newton_lower {a r : Nat} (normal : 2 ^ 31 ≤ a) (fits : r < 2 ^ 32)
    (small : a * r ≤ 2 ^ 62) :
    ((2 ^ 62 - a * r) ^ 2 - 2 ^ 94 : Int) ≤ 2 ^ 62 * (2 ^ 62 - a * newton a r) := by
  have below := step_lower (S := 2 ^ 30) (W := 2 ^ 32) (a := a) (r := r) (by decide) (by omega)
  rw [(newton_eq normal fits (by omega)).1]
  have product : (a * r : Int) ≤ 2 ^ 62 := by exact_mod_cast small
  push_cast at below
  norm_num at below product ⊢
  linarith

theorem le_error (large : 2 ^ 30 < n) (word : n < 2 ^ 31) {E L : Int} (some : 0 ≤ E)
    (far : E ≤ seedError n) (positive : 0 ≤ L) (first : 2 ^ 62 * L ≤ E ^ 2 - 2 ^ 94) :
    L ^ 2 - 2 ^ 94 ≤ (2 ^ 62 : Int) * (2 ^ 62 - (2 * n : Nat) * reciprocal (2 * n)) := by
  obtain ⟨fits, same⟩ := seed_eq word
  rw [← same] at far
  have small : 2 * n * seed (2 * n) ≤ 2 ^ 62 := by zify; push_cast at far; linarith
  obtain ⟨-, fits1, -⟩ := newton_eq (a := 2 * n) (by omega) fits (by omega)
  have one := newton_lower (by omega) fits small
  have square := pow_le_pow_left₀ some far 2
  have far1 : L ≤ 2 ^ 62 - (2 * n : Nat) * newton (2 * n) (seed (2 * n)) := by linarith
  have small1 : 2 * n * newton (2 * n) (seed (2 * n)) ≤ 2 ^ 62 := by
    zify
    push_cast at far1
    linarith
  have two := newton_lower (by omega) fits1 small1
  have square1 := pow_le_pow_left₀ positive far1 2
  unfold reciprocal
  rw [if_neg (by omega)]
  linarith

theorem seedError_mono {m : Int} (low : 0x5D000000 ≤ m) (le : m ≤ n) :
    seedError m ≤ seedError n := by
  unfold seedError
  nlinarith

theorem abs_seedError_le {m : Int} (low : 2 ^ 30 ≤ n) (le : n ≤ m) (late : 2 ^ 31 - 2 ^ 24 ≤ m) :
    |seedError n| ≤ seedError m := by
  have start : (2 ^ 30 : Int) ≤ n := by exact_mod_cast low
  unfold seedError
  rw [abs_le]
  constructor
  · nlinarith [sq_nonneg ((n : Int) - 0x5D000000)]
  · nlinarith

end Error

/-- The least positive value that gets the reciprocal 8191, the least one that gets 8192 at most,
and so on. -/
def starts : List Nat :=
  [2147448956, 2147187771, 2146926646, 2146665579, 2146404571, 2146143623, 2145882733,
    2145621902, 2145361132, 2145100419, 2144839766, 2144579172, 2144318639, 2144058163,
    2143797745, 2143537389, 2143277090, 2143016851, 2142756672, 2142496550, 2142236489,
    2141976486, 2141716542, 2141456657, 2141196831, 2140937065, 2140677357, 2140417709,
    2140158119, 2139898589, 2139639119, 2139379706, 2139120353, 2138861059, 2138601824,
    2138342648, 2138083531, 2137824474, 2137565474, 2137306533]

def errorAbove (m : Int) : Int := (seedError m ^ 2 + 2 ^ 94) / 2 ^ 62 + 1

def errorBelow (m : Int) : Int := (seedError m ^ 2 - 2 ^ 94) / 2 ^ 62

/-- The reciprocals from `s` on are below `T`, and the others are not: checked near to `s`, and
further away by the error of the iterations. -/
def Threshold (s T : Nat) : Prop :=
  2 ^ 31 - 2 ^ 24 < s - 5 ∧
  (∀ i < 5, T ≤ reciprocal (2 * (s - 1 - i)) ∧ reciprocal (2 * (s + i)) < T) ∧
  (seedError (s - 5 : Nat) ≤ 2 ^ 62 ∧ 2 ^ 33 ≤ errorAbove (s - 5 : Nat) ∧
    errorAbove (s - 5 : Nat) ^ 2 + 2 ^ 94 ≤ 2 ^ 62 * (2 ^ 62 - 2 * (s - 5 : Nat) * T)) ∧
  0 ≤ seedError (s + 5 : Nat) ∧ 0 ≤ errorBelow (s + 5 : Nat) ∧
    2 ^ 62 * (2 ^ 62 - 2 * (s + 5 : Nat) * T) < errorBelow (s + 5 : Nat) ^ 2 - 2 ^ 94

instance (s T : Nat) : Decidable (Threshold s T) :=
  inferInstanceAs (Decidable (_ ∧ (∀ i < 5, _ ∧ _) ∧ (_ ∧ _ ∧ _) ∧ _ ∧ _ ∧ _))

section Products

variable {m n T R E : Int}

theorem le_of_errors (le : n ≤ m) (sign : 0 ≤ T) (positive : 0 < n)
    (error : 2 ^ 62 * (2 ^ 62 - 2 * n * R) ≤ E) (before : E ≤ 2 ^ 62 * (2 ^ 62 - 2 * m * T)) :
    T ≤ R := by
  have product : n * T ≤ m * T := mul_le_mul_of_nonneg_right le sign
  have scaled : 2 * n * T ≤ 2 * n * R := by linarith
  exact le_of_mul_le_mul_left scaled (by omega)

theorem lt_of_errors (le : m ≤ n) (sign : 0 ≤ T) (positive : 0 < n)
    (error : E ≤ 2 ^ 62 * (2 ^ 62 - 2 * n * R)) (after : 2 ^ 62 * (2 ^ 62 - 2 * m * T) < E) :
    R < T := by
  have product : m * T ≤ n * T := mul_le_mul_of_nonneg_right le sign
  have scaled : 2 * n * R < 2 * n * T := by linarith
  exact lt_of_mul_lt_mul_left scaled (by omega)

end Products

theorem first_le (m : Int) : seedError m ^ 2 + 2 ^ 94 ≤ 2 ^ 62 * errorAbove m := by
  unfold errorAbove
  omega

theorem le_first (m : Int) : 2 ^ 62 * errorBelow m ≤ seedError m ^ 2 - 2 ^ 94 := by
  unfold errorBelow
  omega

theorem Threshold.reciprocal_lt_iff {s T n : Nat} (h : Threshold s T) (large : 2 ^ 30 < n)
    (word : n < 2 ^ 31) : reciprocal (2 * n) < T ↔ s ≤ n := by
  obtain ⟨late, around, ⟨top, wide, before⟩, some, positive, after⟩ := h
  rcases Nat.lt_or_ge n s with less | more
  · refine iff_of_false (not_lt.mpr ?_) (not_le.mpr less)
    by_cases near : s - 5 ≤ n
    · have here := (around (s - 1 - n) (by omega)).1
      rwa [show s - 1 - (s - 1 - n) = n by omega] at here
    · have seeds := abs_seedError_le (n := n) (m := (s - 5 : Nat)) (by omega) (by omega) (by omega)
      have error := error_le large word wide seeds top (first_le _)
      rw [Nat.cast_mul, Nat.cast_two] at error
      exact Int.ofNat_le.mp
        (le_of_errors (by omega) (Int.natCast_nonneg T) (by omega) error before)
  · refine iff_of_true ?_ more
    by_cases near : n < s + 5
    · have here := (around (n - s) (by omega)).2
      rwa [show s + (n - s) = n by omega] at here
    · have seeds := seedError_mono (n := n) (m := (s + 5 : Nat)) (by omega) (by omega)
      have error := le_error large word some seeds positive (le_first _)
      rw [Nat.cast_mul, Nat.cast_two] at error
      exact Int.ofNat_lt.mp
        (lt_of_errors (by omega) (Int.natCast_nonneg T) (by omega) error after)

theorem thresholds : ∀ k < 40, ∀ t < 2,
    Threshold (starts.getD k 0 - 4 * t) ((8191 + k) * 2 ^ 17 + 2 ^ 16 + 2 * t) := by
  decide +kernel

/-- The shifts of `gglRecip28` are in the range 0 to 31, and the result differs from `2 ^ 44 / x`
by a relative error below `2 ^ -13`. -/
structure Precise (x : Int) : Prop where
  rounding : 0 ≤ shift x 28 - 1 ∧ shift x 28 - 1 ≤ 31
  last : 0 ≤ shift x 28 ∧ shift x 28 ≤ 31
  near : |(gglRecip28 x : ℚ) - 2 ^ 44 / x| < |2 ^ 44 / (x : ℚ)| / 2 ^ 13

section Precise

variable {x : Int}

theorem near_iff (some : x ≠ 0) :
    |(gglRecip28 x : ℚ) - 2 ^ 44 / x| < |2 ^ 44 / (x : ℚ)| / 2 ^ 13 ↔
      |x * gglRecip28 x - 2 ^ 44| < 2 ^ 31 := by
  have nonzero : (x : ℚ) ≠ 0 := by exact_mod_cast some
  have size : 0 < |(x : ℚ)| := abs_pos.mpr nonzero
  have left : |(x : ℚ)| * |(gglRecip28 x : ℚ) - 2 ^ 44 / x| =
      |(x * gglRecip28 x - 2 ^ 44 : Int)| := by
    rw [← abs_mul, mul_sub, mul_div_cancel₀ _ nonzero]
    norm_cast
  have right : |(x : ℚ)| * (|2 ^ 44 / (x : ℚ)| / 2 ^ 13) = 2 ^ 31 := by
    rw [abs_div, ← mul_div_assoc, mul_div_cancel₀ _ size.ne']
    norm_num
  rw [← mul_lt_mul_iff_of_pos_left size, left, right]
  norm_cast

theorem near_of_below (large : 2 ^ 15 ≤ x.natAbs) (word : x.natAbs < 2 ^ 31)
    (low : 2 ^ 44 - 2 ^ 31 < x * gglRecip28 x) : |x * gglRecip28 x - 2 ^ 44| < 2 ^ 31 := by
  have above := (gglRecip28_near large (by omega)).1
  rw [abs_lt]
  constructor <;> omega

theorem near_of_small (large : 2 ^ 15 ≤ x.natAbs) (small : x.natAbs < 2 ^ 30) :
    |x * gglRecip28 x - 2 ^ 44| < 2 ^ 31 := by
  have below := (gglRecip28_near large (by omega)).2
  exact near_of_below large (by omega) (by omega)

theorem gglClz_high {n : Nat} (large : 2 ^ 30 ≤ n) (word : n < 2 ^ 31) : gglClz n = 1 := by
  have digits : n.log2 = 30 := (Nat.log2_eq_iff (by omega)).mpr ⟨large, word⟩
  unfold gglClz
  rw [if_neg (by omega), digits]

/-- The last value of which the quotient `(2 ^ 44 - 2 ^ 31) / x` is 8231. -/
def safe : Nat := 2137047571

theorem safe_error : seedError safe ≤ 2 ^ 62 ∧ 2 ^ 33 ≤ errorAbove safe ∧
    errorAbove safe ^ 2 + 2 ^ 94 ≤ 2 ^ 62 * (2057 * 2 ^ 37) := by
  decide +kernel

theorem near_of_safe (large : 2 ^ 30 ≤ x.natAbs) (early : x.natAbs ≤ safe) :
    |x * gglRecip28 x - 2 ^ 44| < 2 ^ 31 := by
  have last : safe = 2137047571 := rfl
  have lz := gglClz_high large (by omega)
  have error : 2 ^ 62 ≤ x.natAbs * 2 ^ 1 * reciprocal (x.natAbs * 2 ^ 1) + 2057 * 2 ^ 37 := by
    rw [pow_one, Nat.mul_comm x.natAbs]
    rcases large.eq_or_lt with power | large
    · rw [← power]
      decide
    · obtain ⟨top, wide, before⟩ := safe_error
      have seeds := abs_seedError_le (n := x.natAbs) (m := safe) (by omega) (by omega) (by decide)
      have bound := error_le large (by omega) wide seeds top (first_le _)
      zify
      push_cast at bound
      linarith
  rw [← lz] at error
  have below := (gglRecip28_error (by omega) (by omega) error).2
  exact near_of_below (by omega) (by omega) (by omega)

theorem gglRecip28_high (large : 2 ^ 30 ≤ x.natAbs) (word : x.natAbs < 2 ^ 31) :
    gglRecip28 x = ((if x < 0 then -((reciprocal (2 * x.natAbs) / 2 : Nat) : Int)
      else (reciprocal (2 * x.natAbs) / 2 : Nat)) + 2 ^ 15) / 2 ^ 16 := by
  have lz := gglClz_high large word
  have value := gglRecipQ_eq (x := x) (k := 15) (m := 17) (by omega) (by omega) (by rw [lz]) (by decide)
  change gglRecip28 x = _ at value
  rw [value, signedHalf, lz, pow_one, Nat.mul_comm x.natAbs]

theorem high_le_iff (large : 2 ^ 30 ≤ x.natAbs) (word : x.natAbs < 2 ^ 31) (q : Nat) :
    2 ^ 44 - 2 ^ 31 < x * gglRecip28 x ∧ (2 ^ 44 - 2 ^ 31) / x.natAbs = q ↔
      q * 2 ^ 17 + 2 ^ 16 + 2 * (if x < 0 then 1 else 0) ≤ reciprocal (2 * x.natAbs) ∧
        (2 ^ 44 - 2 ^ 31) / x.natAbs = q := by
  refine and_congr_left fun quotient => ?_
  have size : 0 < x.natAbs := by omega
  have next (m : Int) : 2 ^ 44 - 2 ^ 31 < x.natAbs * m ↔ (q : Int) + 1 ≤ m := by
    have split := Int.ediv_lt_iff_lt_mul (a := 2 ^ 44 - 2 ^ 31) (b := m) (c := x.natAbs)
      (by omega)
    have whole : ((2 ^ 44 - 2 ^ 31 : Nat) : Int) = 2 ^ 44 - 2 ^ 31 := rfl
    rw [Int.mul_comm, ← split, ← whole, ← Int.natCast_ediv, quotient]
    omega
  rw [gglRecip28_high large word]
  generalize reciprocal (2 * x.natAbs) = r
  rcases Int.lt_or_le x 0 with negative | nonnegative
  · have turned : x = -(x.natAbs : Int) := by omega
    rw [if_pos negative, if_pos negative]
    conv_lhs => rw [turned]
    rw [neg_mul_comm, next]
    omega
  · have same : x = (x.natAbs : Int) := by omega
    rw [if_neg (not_lt.mpr nonnegative), if_neg (not_lt.mpr nonnegative)]
    conv_lhs => rw [same]
    rw [next]
    omega

theorem near_iff_start (late : safe < x.natAbs) (word : x.natAbs < 2 ^ 31) :
    |x * gglRecip28 x - 2 ^ 44| < 2 ^ 31 ↔ ∀ k < 40, (2 ^ 44 - 2 ^ 31) / x.natAbs = 8191 + k →
      x.natAbs + (if x < 0 then 4 else 0) < starts.getD k 0 := by
  have last : safe = 2137047571 := rfl
  have below : |x * gglRecip28 x - 2 ^ 44| < 2 ^ 31 ↔ 2 ^ 44 - 2 ^ 31 < x * gglRecip28 x :=
    ⟨fun near => by rw [abs_lt] at near; omega, near_of_below (by omega) word⟩
  have range : 8191 ≤ (2 ^ 44 - 2 ^ 31) / x.natAbs ∧ (2 ^ 44 - 2 ^ 31) / x.natAbs < 8231 :=
    ⟨(Nat.le_div_iff_mul_le (by omega)).mpr (by omega),
      (Nat.div_lt_iff_lt_mul (by omega)).mpr (by omega)⟩
  obtain ⟨k, few, quotient⟩ : ∃ k < 40, (2 ^ 44 - 2 ^ 31) / x.natAbs = 8191 + k :=
    ⟨(2 ^ 44 - 2 ^ 31) / x.natAbs - 8191, by omega, by omega⟩
  have some : 4 < starts.getD k 0 := by
    have first := (thresholds k few 0 (by decide)).1
    omega
  have here := high_le_iff (x := x) (by omega) word (8191 + k)
  rw [and_iff_left quotient, and_iff_left quotient] at here
  rw [below, here]
  have start : reciprocal (2 * x.natAbs) < (8191 + k) * 2 ^ 17 + 2 ^ 16 +
      2 * (if x < 0 then 1 else 0) ↔ starts.getD k 0 ≤ x.natAbs + (if x < 0 then 4 else 0) := by
    split_ifs
    · rw [(thresholds k few 1 (by decide)).reciprocal_lt_iff (by omega) word]
      omega
    · exact (thresholds k few 0 (by decide)).reciprocal_lt_iff (by omega) word
  rw [← not_lt, start, not_le]
  constructor
  · intro less j many same
    rwa [show j = k by omega]
  · intro all
    exact all k few quotient

end Precise

/-- The 32-bit values on which `gglRecip28` has its precision. -/
theorem gglRecip28_precise_iff {x : Int} (word : -2 ^ 31 ≤ x ∧ x < 2 ^ 31) :
    Precise x ↔ 2 ^ 15 ≤ x.natAbs ∧ (x = -2 ^ 31 ∨
      ∀ k < 40, (2 ^ 44 - 2 ^ 31) / x.natAbs = 8191 + k →
        x.natAbs + (if x < 0 then 4 else 0) < starts.getD k 0) := by
  obtain ⟨first, most⟩ := shift28_bounds (x := x) (by omega)
  have last : safe = 2137047571 := rfl
  have shifts : Precise x ↔ 2 ^ 15 ≤ x.natAbs ∧ |x * gglRecip28 x - 2 ^ 44| < 2 ^ 31 := by
    constructor
    · intro precise
      have large : 2 ^ 15 ≤ x.natAbs := first.mp (by have := precise.rounding; omega)
      exact ⟨large, (near_iff (by omega)).mp precise.near⟩
    · intro ⟨large, near⟩
      have positive := first.mpr large
      exact ⟨by omega, by omega, (near_iff (by omega)).mpr near⟩
  rw [shifts]
  refine and_congr_right fun large => ?_
  by_cases lowest : x = -2 ^ 31
  · subst lowest
    exact iff_of_true (by decide) (Or.inl rfl)
  rw [or_iff_right lowest]
  rcases Nat.lt_or_ge safe x.natAbs with late | early
  · exact near_iff_start late (by omega)
  · refine iff_of_true ?_ ?_
    · rcases Nat.lt_or_ge x.natAbs (2 ^ 30) with small | high
      · exact near_of_small large small
      · exact near_of_safe high early
    · intro k few quotient
      have more : 8231 ≤ (2 ^ 44 - 2 ^ 31) / x.natAbs :=
        (Nat.le_div_iff_mul_le (by omega)).mpr (by omega)
      omega

theorem gglRecip28_precise_unit : Precise 0x10000 :=
  (gglRecip28_precise_iff (by decide)).mpr ⟨by decide, Or.inr (by decide)⟩

/-- 0.25 has a reciprocal of 4.0, which 4.28 can hold, and the rounding shift of its last step has
the count -1; the reciprocal of the largest value is wrong by more than `2 ^ -13`. -/
theorem gglRecip28_imprecise : (|2 ^ 44 / (0x4000 : ℚ)| < 2 ^ 31 ∧ ¬ Precise 0x4000) ∧
    |2 ^ 44 / (0x7FFFFFFF : ℚ)| < 2 ^ 31 ∧ ¬ Precise 0x7FFFFFFF := by
  refine ⟨⟨by norm_num [abs_lt], fun precise => ?_⟩, by norm_num [abs_lt], fun precise => ?_⟩
  · exact absurd precise.rounding.1 (by decide)
  · exact absurd ((near_iff (by decide)).mp precise.near) (by decide)

end RabbitRender.ReciprocalErrors
