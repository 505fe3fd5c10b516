/- RabbitRender/Lib/Rounding
   layer: library
   digest: Binary floating-point numbers as rationals, and rounding to the nearest of them. -/

import Mathlib.Data.Int.Log
import Mathlib.Data.Rat.Floor
import Mathlib.Tactic.FieldSimp
import Mathlib.Tactic.Linarith
import Mathlib.Tactic.Positivity
import Mathlib.Tactic.Ring

set_option autoImplicit false

namespace RabbitRender.Lib.Rounding

def roundHalfEven (x : ℚ) : ℤ :=
  if x - ⌊x⌋ < 1 / 2 ∨ x - ⌊x⌋ = 1 / 2 ∧ ⌊x⌋ % 2 = 0 then ⌊x⌋ else ⌊x⌋ + 1

variable {x : ℚ} {n : ℤ}

theorem roundHalfEven_below (lower : n ≤ x) (upper : x < n + 1 / 2) : roundHalfEven x = n := by
  have floor : ⌊x⌋ = n := Int.floor_eq_iff.mpr ⟨lower, by linarith⟩
  rw [roundHalfEven, floor, if_pos (.inl (by linarith))]

theorem roundHalfEven_intCast (n : ℤ) : roundHalfEven n = n :=
  roundHalfEven_below le_rfl (by linarith)

theorem roundHalfEven_add_half (n : ℤ) :
    roundHalfEven (n + 1 / 2) = if n % 2 = 0 then n else n + 1 := by
  have floor : ⌊(n : ℚ) + 1 / 2⌋ = n := Int.floor_eq_iff.mpr ⟨by linarith, by linarith⟩
  have fraction : (n : ℚ) + 1 / 2 - n = 1 / 2 := by ring
  simp only [roundHalfEven, floor, fraction, lt_irrefl, false_or, true_and]

theorem abs_roundHalfEven_sub_le (x : ℚ) : |roundHalfEven x - x| ≤ 1 / 2 := by
  have lower := Int.floor_le x
  have upper := Int.lt_floor_add_one x
  unfold roundHalfEven
  split_ifs with near
  · have close : x - ⌊x⌋ ≤ 1 / 2 := by
      rcases near with below | ⟨tie, _⟩
      · exact below.le
      · exact tie.le
    rw [abs_le]
    constructor <;> linarith
  · have far : 1 / 2 ≤ x - ⌊x⌋ := not_lt.mp fun below => near (.inl below)
    rw [abs_le]
    push_cast
    constructor <;> linarith

theorem roundHalfEven_le (h : x ≤ n) : roundHalfEven x ≤ n := by
  have close := (abs_le.mp (abs_roundHalfEven_sub_le x)).2
  have bound : (roundHalfEven x : ℚ) < n + 1 := by linarith
  exact Int.lt_add_one_iff.mp (by exact_mod_cast bound)

theorem le_roundHalfEven (h : n ≤ x) : n ≤ roundHalfEven x := by
  have close := (abs_le.mp (abs_roundHalfEven_sub_le x)).1
  have bound : (n : ℚ) < roundHalfEven x + 1 := by linarith
  exact Int.lt_add_one_iff.mp (by exact_mod_cast bound)

/-- The numbers `m * 2 ^ e` with `precision` bits in `m` and `e` at least `least`. There is no
largest number. -/
structure Format where
  precision : ℕ
  least : ℤ
  pos : 0 < precision

def Representable (f : Format) (q : ℚ) : Prop :=
  ∃ m e : ℤ, |m| ≤ 2 ^ f.precision ∧ f.least ≤ e ∧ q = m * 2 ^ e

def exponent (f : Format) (q : ℚ) : ℤ := max (Int.log 2 |q| + 1 - f.precision) f.least

def roundTo (f : Format) (q : ℚ) : ℚ := roundHalfEven (q / 2 ^ exponent f q) * 2 ^ exponent f q

section Format

variable {f : Format}

theorem zpow_two_pos (e : ℤ) : (0 : ℚ) < 2 ^ e := zpow_pos two_pos e

variable {q : ℚ} {k : ℤ}

theorem roundTo_of_multiple {n : ℤ} (h : q = n * 2 ^ exponent f q) : roundTo f q = q := by
  have quotient : q / 2 ^ exponent f q = n := by
    rw [div_eq_iff (zpow_two_pos _).ne']
    exact h
  rw [roundTo, quotient, roundHalfEven_intCast]
  exact h.symm

theorem multiple_of_le {m e : ℤ} (h : k ≤ e) : ∃ n : ℤ, (m * 2 ^ e : ℚ) = n * 2 ^ k := by
  refine ⟨m * 2 ^ (e - k).toNat, ?_⟩
  have split : e = (e - k).toNat + k := by omega
  push_cast
  rw [mul_assoc, ← zpow_natCast, ← zpow_add₀ two_ne_zero, ← split]

theorem log_lt_of_abs_lt (nonzero : q ≠ 0) (h : |q| < 2 ^ k) : Int.log 2 |q| < k :=
  (Int.lt_zpow_iff_log_lt Nat.one_lt_two (abs_pos.mpr nonzero)).mp (by exact_mod_cast h)

theorem le_log_of_le_abs (nonzero : q ≠ 0) (h : 2 ^ k ≤ |q|) : k ≤ Int.log 2 |q| :=
  (Int.zpow_le_iff_le_log Nat.one_lt_two (abs_pos.mpr nonzero)).mp (by exact_mod_cast h)

theorem exponent_eq (least : f.least ≤ k) (lower : 2 ^ (k + f.precision - 1) ≤ |q|)
    (upper : |q| < 2 ^ (k + f.precision)) : exponent f q = k := by
  have nonzero : q ≠ 0 := abs_pos.mp (lt_of_lt_of_le (zpow_two_pos _) lower)
  have above := log_lt_of_abs_lt nonzero upper
  have below := le_log_of_le_abs nonzero lower
  unfold exponent
  omega

theorem exponent_le (least : f.least ≤ k) (nonzero : q ≠ 0) (upper : |q| < 2 ^ (k + f.precision)) :
    exponent f q ≤ k := by
  have above := log_lt_of_abs_lt nonzero upper
  unfold exponent
  omega

theorem least_le_exponent (q : ℚ) : f.least ≤ exponent f q := le_max_right _ _

theorem abs_lt_exponent (q : ℚ) : |q| < 2 ^ (exponent f q + f.precision) := by
  refine lt_of_lt_of_le (Int.lt_zpow_succ_log_self Nat.one_lt_two |q|) ?_
  have bound : Int.log 2 |q| + 1 ≤ exponent f q + f.precision := by
    unfold exponent
    omega
  push_cast
  exact zpow_le_zpow_right₀ one_le_two bound

theorem zpow_exponent_le_abs (nonzero : q ≠ 0) (least : 2 ^ f.least ≤ |q|) :
    2 ^ exponent f q ≤ |q| := by
  have first := Int.zpow_log_le_self (R := ℚ) Nat.one_lt_two (abs_pos.mpr nonzero)
  refine le_trans (zpow_le_zpow_right₀ one_le_two ?_) (by exact_mod_cast first)
  have floor := le_log_of_le_abs nonzero least
  have bits := f.pos
  unfold exponent
  omega

theorem abs_roundTo_sub_le (q : ℚ) : |roundTo f q - q| ≤ 2 ^ exponent f q / 2 := by
  have pos := zpow_two_pos (exponent f q)
  have close := abs_roundHalfEven_sub_le (q / 2 ^ exponent f q)
  have factor : roundTo f q - q =
      (roundHalfEven (q / 2 ^ exponent f q) - q / 2 ^ exponent f q) * 2 ^ exponent f q := by
    rw [roundTo, sub_mul, div_mul_cancel₀ _ pos.ne']
  rw [factor, abs_mul, abs_of_pos pos]
  calc _ ≤ 1 / 2 * 2 ^ exponent f q := mul_le_mul_of_nonneg_right close pos.le
    _ = 2 ^ exponent f q / 2 := by ring

theorem abs_roundTo_sub_le_half (nonzero : q ≠ 0) (least : 2 ^ f.least ≤ |q|) :
    |roundTo f q - q| ≤ |q| / 2 := by
  have bit := zpow_exponent_le_abs nonzero least
  have close := abs_roundTo_sub_le (f := f) q
  linarith

theorem Representable.mul_pow (h : Representable f q) (n : ℕ) : Representable f (q * 2 ^ n) := by
  obtain ⟨m, e, small, least, rfl⟩ := h
  refine ⟨m, e + n, small, by omega, ?_⟩
  rw [zpow_add₀ two_ne_zero, zpow_natCast, mul_assoc]

theorem representable_roundTo (q : ℚ) : Representable f (roundTo f q) := by
  have bound : |q / 2 ^ exponent f q| ≤ 2 ^ f.precision := by
    rw [abs_div, abs_of_pos (zpow_two_pos (exponent f q)), div_le_iff₀ (zpow_two_pos _)]
    have below := (abs_lt_exponent (f := f) q).le
    rwa [add_comm, zpow_add₀ two_ne_zero, zpow_natCast] at below
  refine ⟨roundHalfEven (q / 2 ^ exponent f q), exponent f q, ?_, least_le_exponent q, rfl⟩
  obtain ⟨lower, upper⟩ := abs_le.mp bound
  rw [abs_le]
  constructor
  · exact le_roundHalfEven (by exact_mod_cast lower)
  · exact roundHalfEven_le (by exact_mod_cast upper)

theorem multiple_of_representable (h : Representable f q) : ∃ n : ℤ, q = n * 2 ^ exponent f q := by
  obtain ⟨m, e, small, least, rfl⟩ := h
  by_cases zero : (m * 2 ^ e : ℚ) = 0
  · exact ⟨0, by simp [zero]⟩
  rcases small.lt_or_eq with small | full
  · apply multiple_of_le
    refine exponent_le least zero ?_
    rw [abs_mul, abs_of_pos (zpow_two_pos e), add_comm, zpow_add₀ two_ne_zero, zpow_natCast]
    exact mul_lt_mul_of_pos_right (by exact_mod_cast small) (zpow_two_pos e)
  · -- all bits and one more: the number is a power of two
    have power : |(m * 2 ^ e : ℚ)| = 2 ^ (e + f.precision) := by
      rw [abs_mul, abs_of_pos (zpow_two_pos e), add_comm, zpow_add₀ two_ne_zero, zpow_natCast]
      exact congrArg (· * (2 : ℚ) ^ e) (by exact_mod_cast full)
    have bits := f.pos
    have bit : exponent f (m * 2 ^ e : ℚ) ≤ e + 1 := by
      refine exponent_le (by omega) zero ?_
      rw [power]
      exact zpow_lt_zpow_right₀ one_lt_two (by omega)
    have even : ∃ h : ℤ, m = h * 2 := by
      obtain ⟨n, hn⟩ : ∃ n, f.precision = n + 1 := ⟨f.precision - 1, by omega⟩
      rw [hn, pow_succ] at full
      rcases abs_choice m with positive | negative
      · exact ⟨2 ^ n, by rw [← full, positive]⟩
      · exact ⟨-2 ^ n, by rw [neg_mul, ← full, negative, neg_neg]⟩
    obtain ⟨half, rfl⟩ := even
    obtain ⟨n, hn⟩ := multiple_of_le (m := half) bit
    refine ⟨n, ?_⟩
    rw [← hn, zpow_add₀ two_ne_zero, zpow_one]
    push_cast
    ring

theorem roundTo_of_representable (h : Representable f q) : roundTo f q = q := by
  obtain ⟨n, hn⟩ := multiple_of_representable h
  exact roundTo_of_multiple hn

end Format

end RabbitRender.Lib.Rounding
