/- RabbitRender/Setters/Singles
   layer: model
   source: swrender/fp.cpp, swrender/light.cpp
   digest: Arguments in single precision, and what the conversion to fixed point makes of them. -/

import RabbitRender.Lib.Rounding
import RabbitRender.Setters.Calls

set_option autoImplicit false

namespace RabbitRender.Setters.Singles

open Lib.Rounding
open Setters.Calls (Parameter)

def single : Format := ⟨24, -149, by decide⟩

def double : Format := ⟨53, -1074, by decide⟩

/-- A finite `GLfloat`. -/
def Single : Type := { q : ℚ // Representable single q }

def toSingle (q : ℚ) : Single := ⟨roundTo single q, representable_roundTo q⟩

/-- `gglFloatToFixed`. A result that is not a `GGLfixed` is undefined there. -/
def gglFloatToFixed (v : Single) : ℤ := ⌊roundTo single (roundTo single (v.1 * 65536) + 1 / 2)⌋

/-- `GLint(v)`. -/
def toInt (v : Single) : ℤ := if 0 ≤ v.1 then ⌊v.1⌋ else ⌈v.1⌉

/-- `M_PI`. -/
def pi : ℚ := 884279719003555 / 2 ^ 48

def sinef (x : Single) : Single :=
  let r := roundTo single
  let x := r (x.1 * r (roundTo double (1 / (2 * pi))))
  let x := if |x| ≥ 1 / 2 then r (r (x - ⌈r (x + 1 / 2)⌉) + 1) else x
  let y := r (r (r (-16 * x) * |x|) + r (8 * x))
  toSingle (r (r (2215 / 10000) * r (r (y * |y|) - y)) + y)

def cosinef (x : Single) : Single := sinef (toSingle (x.1 + roundTo single (pi / 2)))

/-- The cosine of a fixed-point angle in degrees, as `lightx` stores it. -/
def cutoffCosine (param : ℤ) : ℤ :=
  gglFloatToFixed
    (cosinef (toSingle (roundTo double (roundTo double (pi / (180 * 65536)) * param))))

instance : Parameter Single where
  toFixed := gglFloatToFixed
  toInt := toInt
  ofInt n := toSingle n
  nonPositive v := v.1 ≤ 0
  cosine := cutoffCosine

variable {p : ℤ}

theorem representable_int {v : Single} (same : v.1 = p / 65536) : Representable single p := by
  have scale : (p : ℚ) = v.1 * 2 ^ 16 := by
    rw [same]
    ring
  rw [scale]
  exact v.2.mul_pow 16

theorem roundTo_add_half_of_small (lower : -2 ^ 23 ≤ p) (upper : p < 2 ^ 23) :
    roundTo single (p + 1 / 2) = p + 1 / 2 := by
  apply roundTo_of_representable
  refine ⟨2 * p + 1, -1, ?_, by decide, ?_⟩
  · rw [abs_le]
    change -2 ^ 24 ≤ 2 * p + 1 ∧ 2 * p + 1 ≤ 2 ^ 24
    constructor <;> omega
  · rw [zpow_neg_one]
    push_cast
    ring

theorem roundTo_add_half_of_tie (lower : 2 ^ 23 ≤ |(p : ℚ) + 1 / 2|)
    (upper : |(p : ℚ) + 1 / 2| < 2 ^ 24) :
    roundTo single (p + 1 / 2) = if p % 2 = 0 then p else p + 1 := by
  have bit : exponent single (p + 1 / 2) = 0 :=
    exponent_eq (by decide) (by norm_num [single]; norm_num at lower; exact lower)
      (by norm_num [single]; norm_num at upper; exact upper)
  unfold roundTo
  rw [bit, zpow_zero, div_one, mul_one, roundHalfEven_add_half]

theorem abs_int_ge_of_add_half {n : ℕ} (h : (2 : ℚ) ^ n ≤ |(p : ℚ) + 1 / 2|) :
    (2 : ℚ) ^ n ≤ |(p : ℚ)| := by
  have near : |(p : ℚ) + 1 / 2| < |(p : ℚ)| + 1 := by
    have triangle := abs_add_le (p : ℚ) (1 / 2)
    have half : |(1 / 2 : ℚ)| = 1 / 2 := abs_of_pos (by norm_num)
    linarith
  have integers : (2 : ℤ) ^ n < |p| + 1 := by
    have := lt_of_le_of_lt h near
    exact_mod_cast this
  exact_mod_cast Int.lt_add_one_iff.mp integers

theorem roundTo_add_half_of_large (rep : Representable single p)
    (large : 2 ^ 24 ≤ |(p : ℚ) + 1 / 2|) : roundTo single (p + 1 / 2) = p ∧ p % 2 = 0 := by
  have nonzero : (p : ℚ) + 1 / 2 ≠ 0 := abs_pos.mp (lt_of_lt_of_le (by norm_num) large)
  obtain ⟨k, hk⟩ : ∃ k : ℕ, exponent single (p + 1 / 2) = k + 1 := by
    have log := le_log_of_le_abs (k := 24) nonzero (by exact_mod_cast large)
    refine ⟨(exponent single (p + 1 / 2) - 1).toNat, ?_⟩
    simp only [exponent, single]
    omega
  have lower : (2 : ℚ) ^ (k + 24) ≤ |(p : ℚ) + 1 / 2| := by
    have log := Int.zpow_log_le_self (R := ℚ) Nat.one_lt_two (abs_pos.mpr nonzero)
    refine le_trans ?_ log
    have first : ((k + 24 : ℕ) : ℤ) ≤ Int.log 2 |(p : ℚ) + 1 / 2| := by
      simp only [exponent, single] at hk
      omega
    have mono := zpow_le_zpow_right₀ (one_le_two (α := ℚ)) first
    rw [zpow_natCast] at mono
    exact_mod_cast mono
  have above := abs_int_ge_of_add_half lower
  obtain ⟨m, hm⟩ : ∃ m : ℤ, (p : ℚ) = m * 2 ^ ((k : ℤ) + 1) := by
    obtain ⟨n, hn⟩ := multiple_of_representable rep
    have bit : (k : ℤ) + 1 ≤ exponent single p := by
      have log := le_log_of_le_abs (q := (p : ℚ)) (k := (k + 24 : ℕ))
        (abs_pos.mp (lt_of_lt_of_le (by positivity) above)) (by rw [zpow_natCast]; exact above)
      simp only [exponent, single]
      omega
    obtain ⟨m, hm⟩ := multiple_of_le (m := n) bit
    exact ⟨m, hn.trans hm⟩
  have weight : (2 : ℚ) ≤ 2 ^ ((k : ℤ) + 1) := by
    have mono := zpow_le_zpow_right₀ (one_le_two (α := ℚ)) (show (1 : ℤ) ≤ k + 1 by omega)
    rwa [zpow_one] at mono
  constructor
  · have quotient : roundHalfEven (((p : ℚ) + 1 / 2) / 2 ^ ((k : ℤ) + 1)) = m := by
      have split : ((p : ℚ) + 1 / 2) / 2 ^ ((k : ℤ) + 1) = m + 1 / 2 / 2 ^ ((k : ℤ) + 1) := by
        rw [hm, add_div, mul_div_cancel_right₀ _ (zpow_two_pos _).ne']
      have small : (1 / 2 : ℚ) / 2 ^ ((k : ℤ) + 1) < 1 / 2 := by
        rw [div_lt_iff₀ (zpow_two_pos _)]
        linarith
      have positive : (0 : ℚ) < 1 / 2 / 2 ^ ((k : ℤ) + 1) := div_pos (by norm_num) (zpow_two_pos _)
      apply roundHalfEven_below <;> linarith
    rw [roundTo, hk, quotient]
    exact hm.symm
  · have even : p = m * 2 ^ k * 2 := by
      rw [zpow_add₀ two_ne_zero, zpow_one, zpow_natCast, ← mul_assoc] at hm
      exact_mod_cast hm
    omega

theorem abs_lt_of_odd (rep : Representable single p) (odd : p % 2 ≠ 0) : |p| < 2 ^ 24 := by
  by_contra large
  have outside : 2 ^ 24 ≤ p ∨ p ≤ -2 ^ 24 - 1 := by
    rw [abs_eq_max_neg] at large
    omega
  refine odd (roundTo_add_half_of_large rep ?_).2
  rcases outside with positive | negative
  · have cast : (2 : ℚ) ^ 24 ≤ p := by exact_mod_cast positive
    exact le_trans (by linarith) (le_abs_self _)
  · have cast : (p : ℚ) ≤ -2 ^ 24 - 1 := by exact_mod_cast negative
    exact le_trans (by linarith) (neg_le_abs _)

theorem gglFloatToFixed_eq {v : Single} (same : v.1 = p / 65536) :
    gglFloatToFixed v = if p % 2 ≠ 0 ∧ 2 ^ 23 ≤ |p| then p + 1 else p := by
  have rep := representable_int same
  have scaled : v.1 * 65536 = p := by
    rw [same]
    ring
  unfold gglFloatToFixed
  rw [scaled, roundTo_of_representable rep]
  by_cases small : -2 ^ 23 ≤ p ∧ p < 2 ^ 23
  · rw [roundTo_add_half_of_small small.1 small.2]
    have floor : ⌊(p : ℚ) + 1 / 2⌋ = p := Int.floor_eq_iff.mpr ⟨by linarith, by linarith⟩
    rw [floor]
    split_ifs with tie
    · rw [abs_eq_max_neg] at tie
      omega
    · rfl
  · have outside : 2 ^ 23 ≤ p ∨ p ≤ -2 ^ 23 - 1 := by omega
    by_cases large : (2 : ℚ) ^ 24 ≤ |(p : ℚ) + 1 / 2|
    · obtain ⟨kept, even⟩ := roundTo_add_half_of_large rep large
      rw [kept, Int.floor_intCast, if_neg fun tie => tie.1 even]
    · have lower : (2 : ℚ) ^ 23 ≤ |(p : ℚ) + 1 / 2| := by
        rcases outside with positive | negative
        · have cast : (2 : ℚ) ^ 23 ≤ p := by exact_mod_cast positive
          exact le_trans (by linarith) (le_abs_self _)
        · have cast : (p : ℚ) ≤ -2 ^ 23 - 1 := by exact_mod_cast negative
          exact le_trans (by linarith) (neg_le_abs _)
      have magnitude : 2 ^ 23 ≤ |p| := by
        rw [abs_eq_max_neg]
        omega
      rw [roundTo_add_half_of_tie lower (not_le.mp large)]
      by_cases even : p % 2 = 0
      · rw [if_pos even, if_neg fun tie => tie.1 even, Int.floor_intCast]
      · rw [if_neg even, if_pos ⟨even, magnitude⟩]
        exact_mod_cast Int.floor_intCast (p + 1)

theorem gglFloatToFixed_zero : gglFloatToFixed (toSingle 0) = 0 := by
  have zero : roundTo single 0 = 0 :=
    roundTo_of_representable ⟨0, 0, by decide, by decide, by norm_num⟩
  have value : (toSingle 0).1 = ((0 : ℤ) : ℚ) / 65536 := by
    rw [Int.cast_zero, zero_div]
    exact zero
  rw [gglFloatToFixed_eq value, if_neg (by decide)]

theorem abs_le_roundTo_int (p : ℤ) (nonzero : p ≠ 0) :
    |roundTo single p - p| ≤ |(p : ℚ)| / 2 := by
  have one : (1 : ℚ) ≤ |(p : ℚ)| := by exact_mod_cast Int.one_le_abs nonzero
  refine abs_roundTo_sub_le_half (Int.cast_ne_zero.mpr nonzero) (le_trans ?_ one)
  exact zpow_le_one_of_nonpos₀ one_le_two (by decide)

theorem gglFloatToFixed_toSingle_ne (nonzero : p ≠ 0) : gglFloatToFixed (toSingle p) ≠ p := by
  have first := abs_le.mp (abs_le_roundTo_int p nonzero)
  have scaled : roundTo single ((toSingle p).1 * 65536) = roundTo single p * 65536 := by
    apply roundTo_of_representable
    have rep := (representable_roundTo (f := single) (p : ℚ)).mul_pow 16
    norm_num at rep
    exact rep
  have second (far : 1 ≤ |roundTo single p * 65536 + 1 / 2|) :
      |roundTo single (roundTo single p * 65536 + 1 / 2) - (roundTo single p * 65536 + 1 / 2)| ≤
        |roundTo single p * 65536 + 1 / 2| / 2 := by
    refine abs_roundTo_sub_le_half (abs_pos.mp (lt_of_lt_of_le one_pos far)) (le_trans ?_ far)
    exact zpow_le_one_of_nonpos₀ one_le_two (by decide)
  unfold gglFloatToFixed
  rw [scaled]
  generalize roundTo single (p : ℚ) = r at *
  rcases lt_or_gt_of_ne nonzero with negative | positive
  · have small : (p : ℚ) ≤ -1 := by exact_mod_cast Int.le_sub_one_of_lt negative
    rw [abs_of_nonpos (by linarith)] at first
    have sum : r * 65536 + 1 / 2 ≤ 32768 * p + 1 / 2 := by linarith
    rw [abs_of_nonpos (by linarith)] at second
    have result := abs_le.mp (second (by linarith))
    have floor := Int.floor_le (roundTo single (r * 65536 + 1 / 2))
    intro equal
    rw [equal] at floor
    linarith
  · have large : (1 : ℚ) ≤ p := by exact_mod_cast positive
    rw [abs_of_nonneg (by linarith)] at first
    have sum : 32768 * p + 1 / 2 ≤ r * 65536 + 1 / 2 := by linarith
    rw [abs_of_nonneg (by linarith)] at second
    have result := abs_le.mp (second (by linarith))
    have floor := Int.lt_floor_add_one (roundTo single (r * 65536 + 1 / 2))
    intro equal
    rw [equal] at floor
    linarith

end RabbitRender.Setters.Singles
