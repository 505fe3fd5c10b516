/- RabbitRender/Lighting/RootDigits
   layer: theorem
   source: libpixelflinger/fixed.cpp
   digest: The digits of `gglSqrtx`, and the arguments of which it computes the root. -/

import Mathlib.Algebra.BigOperators.Intervals
import Mathlib.Data.Nat.Sqrt
import Mathlib.Tactic.IntervalCases
import Mathlib.Tactic.Ring
import RabbitRender.Lighting.SpotLights

set_option autoImplicit false

namespace RabbitRender.Lighting.RootDigits

open Fixed
open Lighting.SpotLights (gglSqrtx sqrtBits)

/-- The digits of `s` from digit `n` on. -/
def kept (s n : Nat) : Nat := s / 2 ^ n * 2 ^ n

/-- What digit `n` of a root takes off the argument, rounded down. -/
def trial (s n : Nat) : Nat := (2 * kept s (n + 1) + 2 ^ n) * 2 ^ n / 2 ^ 16

/-- What the digits from `n` on take off. -/
def taken (s n : Nat) : Nat := ∑ i ∈ Finset.Ico n 24, if s.testBit i then trial s i else 0

/-- The digits below 8 take off fractions, which are dropped. Still no zero among them is taken
for a one. -/
def Settled (a : Nat) : Prop :=
  let s := Nat.sqrt (a * 2 ^ 16)
  ∀ n < 8, s.testBit n = false → a < taken s (n + 1) + trial s n

instance : DecidablePred Settled := fun _ => inferInstanceAs (Decidable (∀ n < 8, _ → _))

variable {a s n : Nat}

theorem kept_succ (s n : Nat) :
    kept s n = kept s (n + 1) + if s.testBit n then 2 ^ n else 0 := by
  have halves : s / 2 ^ (n + 1) = s / 2 ^ n / 2 := by rw [pow_succ, Nat.div_div_eq_div_mul]
  have digit := Nat.div_add_mod (s / 2 ^ n) 2
  rw [kept, kept, halves, pow_succ, Nat.testBit_eq_decide_div_mod_eq]
  rcases Nat.mod_two_eq_zero_or_one (s / 2 ^ n) with zero | one
  · rw [zero] at digit
    simp only [zero, zero_ne_one, decide_false, Bool.false_eq_true, if_false]
    calc s / 2 ^ n * 2 ^ n = 2 * (s / 2 ^ n / 2) * 2 ^ n := by rw [← Nat.add_zero (2 * _), digit]
      _ = _ := by ring
  · rw [one] at digit
    simp only [one, decide_true, if_true]
    calc s / 2 ^ n * 2 ^ n = (2 * (s / 2 ^ n / 2) + 1) * 2 ^ n := by rw [digit]
      _ = _ := by ring

theorem lt_kept_add (s n : Nat) : s < kept s n + 2 ^ n := by
  have remainder := Nat.lt_div_mul_add (a := s) (Nat.two_pow_pos n)
  exact remainder

theorem taken_succ (digit : n < 24) :
    taken s n = taken s (n + 1) + if s.testBit n then trial s n else 0 := by
  rw [taken, Finset.sum_eq_sum_Ico_succ_bot digit, Nat.add_comm]
  rfl

theorem trial_exact (high : 8 ≤ n) :
    trial s n * 2 ^ 16 = (2 * kept s (n + 1) + 2 ^ n) * 2 ^ n := by
  obtain ⟨m, rfl⟩ := Nat.exists_eq_add_of_le high
  refine Nat.div_mul_cancel ⟨(2 * (s / 2 ^ (8 + m + 1) * 2) + 1) * 2 ^ m * 2 ^ m, ?_⟩
  rw [kept, pow_succ, pow_add]
  ring

theorem taken_square (digit : n ≤ 24) (small : s < 2 ^ 24) :
    taken s n * 2 ^ 16 ≤ kept s n ^ 2 ∧ (8 ≤ n → taken s n * 2 ^ 16 = kept s n ^ 2) := by
  induction digit using Nat.decreasingInduction with
  | self =>
    have none : kept s 24 = 0 := by rw [kept, Nat.div_eq_of_lt small, Nat.zero_mul]
    have nothing : taken s 24 = 0 := by rw [taken, Finset.Ico_self, Finset.sum_empty]
    rw [none, nothing]
    exact ⟨le_rfl, fun _ => rfl⟩
  | of_succ n below ih =>
    rw [taken_succ below, kept_succ s n]
    split_ifs with one
    · have square : (kept s (n + 1) + 2 ^ n) ^ 2 =
          kept s (n + 1) ^ 2 + (2 * kept s (n + 1) + 2 ^ n) * 2 ^ n := by ring
      rw [square, Nat.add_mul]
      refine ⟨Nat.add_le_add ih.1 (Nat.div_mul_le_self _ _), fun high => ?_⟩
      rw [ih.2 (by omega), trial_exact high]
    · exact ⟨ih.1, fun high => ih.2 (by omega)⟩

theorem sqrtBits_bounds (n : Nat) (a r : Int) : r ≤ sqrtBits n a r ∧ sqrtBits n a r < r + 2 ^ n := by
  induction n generalizing a r with
  | zero => exact ⟨le_rfl, by rw [sqrtBits]; omega⟩
  | succ n ih =>
    have positive : (0 : Int) < 2 ^ n := by positivity
    rw [sqrtBits, pow_succ]
    generalize (if n ≥ 16 then wrap32 ((2 ^ n + 2 * r) * 2 ^ (n - 16))
      else (2 ^ n + 2 * r) >>> (16 - n)) = temp
    have one := ih (a - temp) (r + 2 ^ n)
    have zero := ih a r
    split_ifs <;> omega

theorem trial_eq (digit : n < 24) (small : s < 2 ^ 24) :
    (if n ≥ 16 then wrap32 ((2 ^ n + 2 * kept s (n + 1)) * 2 ^ (n - 16))
      else (2 ^ n + 2 * (kept s (n + 1) : Int)) >>> (16 - n)) = trial s n := by
  split_ifs with high
  · have whole : trial s n = (2 ^ n + 2 * kept s (n + 1)) * 2 ^ (n - 16) := by
      obtain ⟨m, rfl⟩ := Nat.exists_eq_add_of_le high
      rw [trial, Nat.add_sub_cancel_left, pow_add, ← mul_assoc, mul_right_comm,
        Nat.mul_div_cancel _ (by decide), Nat.add_comm]
    have word : trial s n < 2 ^ 31 := by
      rw [whole, kept]
      interval_cases n <;> omega
    rw [whole] at word ⊢
    push_cast
    have low : (0 : Int) ≤ (2 ^ n + 2 * kept s (n + 1)) * 2 ^ (n - 16) := by positivity
    exact wrap32_of_bounds (by omega) (by exact_mod_cast word)
  · have same : trial s n = (2 ^ n + 2 * kept s (n + 1)) / 2 ^ (16 - n) := by
      have power : (2 : Nat) ^ 16 = 2 ^ (16 - n) * 2 ^ n := by
        rw [← pow_add]
        congr 1
        omega
      rw [trial, power, Nat.mul_div_mul_right _ _ (Nat.two_pow_pos n), Nat.add_comm]
    rw [same, Int.shiftRight_eq_div_pow]
    push_cast
    rfl

theorem sqrtBits_succ (digit : n < 24) (small : s < 2 ^ 24) :
    sqrtBits (n + 1) (a - taken s (n + 1)) (kept s (n + 1)) =
      if taken s (n + 1) + trial s n ≤ a then
        sqrtBits n (a - taken s (n + 1) - trial s n) (kept s (n + 1) + 2 ^ n)
      else sqrtBits n (a - taken s (n + 1)) (kept s (n + 1)) := by
  rw [sqrtBits, trial_eq digit small]
  refine if_congr ?_ rfl rfl
  omega

/-- The digits left are those of the root exactly if no zero of them is taken for a one. The
induction is on their number: a one is always found, and after a wrong one the root is passed. -/
theorem sqrtBits_eq_iff (below : s ^ 2 ≤ a * 2 ^ 16) (small : s < 2 ^ 24) (digits : n ≤ 24) :
    sqrtBits n (a - taken s n) (kept s n) = s ↔
      ∀ k < n, s.testBit k = false → a < taken s (k + 1) + trial s k := by
  induction n with
  | zero =>
    have whole : kept s 0 = s := by rw [kept, pow_zero, Nat.div_one, mul_one]
    rw [whole]
    exact iff_of_true rfl fun k negative => absurd negative (Nat.not_lt_zero k)
  | succ n ih =>
    have next := ih (by omega)
    have digit : n < 24 := by omega
    rw [sqrtBits_succ digit small]
    cases bit : s.testBit n with
    | true =>
      have takes : taken s n = taken s (n + 1) + trial s n := by rw [taken_succ digit, if_pos bit]
      have keeps : kept s n = kept s (n + 1) + 2 ^ n := by rw [kept_succ, if_pos bit]
      have fits : taken s n ≤ a := by
        have square := (taken_square (n := n) (by omega) small).1
        have part : kept s n ^ 2 ≤ s ^ 2 := Nat.pow_le_pow_left (Nat.div_mul_le_self _ _) 2
        omega
      have rest : (a : Int) - taken s (n + 1) - trial s n = a - taken s n := by omega
      rw [if_pos (by omega), rest, show (kept s (n + 1) + 2 ^ n : Int) = kept s n by
        rw [keeps]; push_cast; rfl, next]
      refine ⟨fun all k h zero => ?_, fun all k h => all k (by omega)⟩
      rcases Nat.lt_succ_iff_lt_or_eq.mp h with earlier | rfl
      · exact all k earlier zero
      · exact absurd bit (by rw [zero]; decide)
    | false =>
      have takes : taken s n = taken s (n + 1) := by rw [taken_succ digit, bit]; rfl
      have keeps : kept s n = kept s (n + 1) := by rw [kept_succ, bit]; rfl
      have bound := lt_kept_add s n
      split_ifs with wrong
      · refine iff_of_false (fun same => ?_) fun all => ?_
        · have low := (sqrtBits_bounds n (a - taken s (n + 1) - trial s n)
            (kept s (n + 1) + 2 ^ n)).1
          rw [same] at low
          zify at bound
          omega
        · have found := all n (Nat.lt_succ_self n) bit
          omega
      · rw [← takes, ← keeps, next]
        refine ⟨fun all k h zero => ?_, fun all k h => all k (by omega)⟩
        rcases Nat.lt_succ_iff_lt_or_eq.mp h with earlier | rfl
        · exact all k earlier zero
        · omega

theorem settled_high (above : a * 2 ^ 16 < (s + 1) ^ 2) (small : s < 2 ^ 24) (high : 8 ≤ n)
    (digit : n < 24) (zero : s.testBit n = false) : a < taken s (n + 1) + trial s n := by
  have exact := (taken_square (n := n + 1) (by omega) small).2 (by omega)
  have keeps : kept s n = kept s (n + 1) := by rw [kept_succ, zero]; rfl
  have bound := lt_kept_add s n
  rw [keeps] at bound
  have square : (s + 1) ^ 2 ≤ (kept s (n + 1) + 2 ^ n) ^ 2 := Nat.pow_le_pow_left bound 2
  have sum : (taken s (n + 1) + trial s n) * 2 ^ 16 = (kept s (n + 1) + 2 ^ n) ^ 2 := by
    rw [Nat.add_mul, exact, trial_exact high]
    ring
  omega

/-- The code has the root exactly for the arguments that are settled. -/
theorem gglSqrtx_eq_sqrt_iff (word : a < 2 ^ 31) :
    gglSqrtx a = Nat.sqrt (a * 2 ^ 16) ↔ Settled a := by
  have below := Nat.sqrt_le' (a * 2 ^ 16)
  have above := Nat.lt_succ_sqrt' (a * 2 ^ 16)
  have small : Nat.sqrt (a * 2 ^ 16) < 2 ^ 24 := Nat.sqrt_lt'.mpr (by omega)
  unfold Settled
  set s := Nat.sqrt (a * 2 ^ 16)
  have none : kept s 24 = 0 := by rw [kept, Nat.div_eq_of_lt small, Nat.zero_mul]
  have nothing : taken s 24 = 0 := by rw [taken, Finset.Ico_self, Finset.sum_empty]
  have start : gglSqrtx a = sqrtBits 24 (a - taken s 24) (kept s 24) := by
    rw [none, nothing, Int.natCast_zero, Int.sub_zero]
    rfl
  rw [start, sqrtBits_eq_iff below small le_rfl]
  refine ⟨fun all n low => all n (by omega), fun all n digit zero => ?_⟩
  rcases Nat.lt_or_ge n 8 with low | high
  · exact all n low zero
  · exact settled_high above small high digit zero

/-- The root of a number that is settled. -/
theorem gglSqrtx_quarter : gglSqrtx (0x4000 : Nat) = Nat.sqrt (0x4000 * 2 ^ 16) :=
  (gglSqrtx_eq_sqrt_iff (by decide)).mpr (by decide +kernel)

/-- The root of zero is not zero: all of the last eight digits take off nothing. -/
theorem gglSqrtx_zero : gglSqrtx (0 : Nat) = 255 ∧ Nat.sqrt (0 * 2 ^ 16) = 0 := by
  decide +kernel

end RabbitRender.Lighting.RootDigits
