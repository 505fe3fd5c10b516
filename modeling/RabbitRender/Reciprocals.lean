/- RabbitRender/Reciprocals
   layer: proof
   source: libpixelflinger/fixed.cpp
   digest: The error of `gglRecipQNormalized` and of `gglRecip28`. -/

import RabbitRender.Fixed
import RabbitRender.Lib.NewtonSteps
import Mathlib.Algebra.Order.Ring.Abs
import Mathlib.Tactic.NormNum

set_option autoImplicit false

namespace RabbitRender.Reciprocals

open Fixed Lib.NewtonSteps

theorem normalized {n : Nat} (some : n ≠ 0) (word : n < 2 ^ 32) :
    2 ^ 31 ≤ n * 2 ^ gglClz n ∧ n * 2 ^ gglClz n < 2 ^ 32 := by
  have digits : n.log2 < 32 := (Nat.log2_lt some).mpr word
  have low := Nat.log2_self_le some
  have high := Nat.lt_log2_self (n := n)
  have whole (k : Nat) (fits : k ≤ 31) : 2 ^ k * 2 ^ (31 - k) = 2 ^ 31 := by
    rw [← Nat.pow_add]
    congr 1
    omega
  have power := whole n.log2 (by omega)
  unfold gglClz
  rw [if_neg some]
  constructor
  · calc 2 ^ 31 = 2 ^ n.log2 * 2 ^ (31 - n.log2) := power.symm
      _ ≤ n * 2 ^ (31 - n.log2) := Nat.mul_le_mul_right _ low
  · calc n * 2 ^ (31 - n.log2) < 2 ^ (n.log2 + 1) * 2 ^ (31 - n.log2) :=
          Nat.mul_lt_mul_of_pos_right high (Nat.two_pow_pos _)
      _ = 2 * (2 ^ n.log2 * 2 ^ (31 - n.log2)) := by ring
      _ = 2 ^ 32 := by rw [power]; rfl

section Newton

variable {a r : Nat}

theorem newton_eq (normal : 2 ^ 31 ≤ a) (fits : r < 2 ^ 32) (small : a * r ≤ 2 ^ 63) :
    newton a r = step (2 ^ 30) (2 ^ 32) a r ∧ newton a r < 2 ^ 32 ∧
      a * newton a r ≤ 2 ^ 62 + 2 ^ 33 := by
  have above := step_le (S := 2 ^ 30) (W := 2 ^ 32) (a := a) (r := r) (by decide)
  have product : a * step (2 ^ 30) (2 ^ 32) a r ≤ 2 ^ 62 + 2 ^ 33 := by omega
  have word : step (2 ^ 30) (2 ^ 32) a r < 2 ^ 32 := by
    by_contra large
    have long := Nat.mul_le_mul normal (not_lt.mp large)
    omega
  have same : newton a r = step (2 ^ 30) (2 ^ 32) a r := by
    have quotient : a * r / 2 ^ 32 ≤ 2 ^ 31 := by omega
    have difference : (2 ^ 31 + 2 ^ 64 - a * r / 2 ^ 32) % 2 ^ 64 = 2 ^ 31 - a * r / 2 ^ 32 := by
      omega
    have long : (2 ^ 31 - a * r / 2 ^ 32) * r < 2 ^ 64 := by
      have bound := Nat.mul_le_mul (Nat.sub_le (2 ^ 31) (a * r / 2 ^ 32)) fits.le
      omega
    unfold newton
    dsimp only
    rw [Nat.shiftRight_eq_div_pow, Nat.shiftRight_eq_div_pow,
      Nat.mod_eq_of_lt (a := a * r / 2 ^ 32) (by omega), difference, Nat.mod_eq_of_lt long]
    exact Nat.mod_eq_of_lt word
  rw [same]
  exact ⟨rfl, word, product⟩

theorem le_newton (normal : 2 ^ 31 ≤ a) (word : a < 2 ^ 32) (fits : r < 2 ^ 32)
    (small : a * r ≤ 2 ^ 63) {d : Int} (near : |(2 ^ 62 - a * r : Int)| ≤ d) :
    (2 ^ 62 : Int) * (2 ^ 62 - a * newton a r) ≤ d ^ 2 + 2 ^ 94 := by
  have below := le_step (S := 2 ^ 30) (W := 2 ^ 32) (a := a) (r := r) (by decide) (by omega)
  have square := sq_le_sq.mpr (near.trans (le_abs_self d))
  rw [(newton_eq normal fits small).1]
  have term : (2 ^ 62 : Int) * a ≤ 2 ^ 94 := by omega
  push_cast at below
  norm_num at below square term ⊢
  linarith

def seed (a : Nat) : Nat := (0x2E800 <<< 14 + 2 ^ 32 - a >>> 1) % 2 ^ 32

theorem seed_near (normal : 2 ^ 31 ≤ a) (word : a < 2 ^ 32) :
    seed a < 2 ^ 32 ∧ |(2 ^ 62 - a * seed a : Int)| ≤ 3 * 2 ^ 57 + 2 ^ 32 := by
  have value : seed a = 0xBA000000 - a / 2 := by
    unfold seed
    rw [Nat.shiftRight_eq_div_pow]
    omega
  refine ⟨Nat.mod_lt _ (by decide), ?_⟩
  have half : (seed a : Int) = 0xBA000000 - a / 2 := by omega
  obtain ⟨h, low, high⟩ : ∃ h : Int, 2 * h ≤ a ∧ a ≤ 2 * h + 1 ∧ (a / 2 : Int) = h :=
    ⟨a / 2, by omega, by omega, rfl⟩
  have left : (2 ^ 31 : Int) ≤ a := by exact_mod_cast normal
  have right : (a : Int) < 2 ^ 32 := by exact_mod_cast word
  rw [half, high.2, abs_le]
  constructor
  · nlinarith [sq_nonneg ((a : Int) - 0xBA000000)]
  · nlinarith [mul_nonneg (sub_nonneg.mpr left) (sub_nonneg.mpr right.le)]

def reciprocal (a : Nat) : Nat := if a = 0x80000000 then a else newton a (newton a (seed a))

theorem reciprocal_near (normal : 2 ^ 31 ≤ a) (word : a < 2 ^ 32) :
    reciprocal a < 2 ^ 32 ∧ a * reciprocal a ≤ 2 ^ 62 + 2 ^ 33 ∧
      2 ^ 62 ≤ a * reciprocal a + 82 * 2 ^ 42 := by
  unfold reciprocal
  split_ifs with power
  · subst power
    decide
  · obtain ⟨fits, near⟩ := seed_near normal word
    have left := (abs_le.mp near).1
    have small : a * seed a ≤ 2 ^ 63 := by zify; linarith
    obtain ⟨-, fits1, above1⟩ := newton_eq normal fits small
    have first := le_newton normal word fits small near
    have near1 : |(2 ^ 62 - a * newton a (seed a) : Int)| ≤ 9 * 2 ^ 52 + 2 ^ 33 := by
      zify at above1
      rw [abs_le]
      constructor
      · linarith
      · linarith
    have small1 : a * newton a (seed a) ≤ 2 ^ 63 := by omega
    obtain ⟨-, fits2, above2⟩ := newton_eq normal fits1 small1
    have second := le_newton normal word fits1 small1 near1
    refine ⟨fits2, above2, ?_⟩
    zify
    linarith

theorem half_near (normal : 2 ^ 31 ≤ a) (word : a < 2 ^ 32) {B : Nat}
    (lower : 2 ^ 62 ≤ a * reciprocal a + B) :
    reciprocal a / 2 ≤ 2 ^ 30 + 2 ∧ 2 * (a * (reciprocal a / 2)) ≤ 2 ^ 62 + 2 ^ 33 ∧
      2 ^ 62 ≤ 2 * (a * (reciprocal a / 2)) + B + 2 ^ 32 := by
  obtain ⟨-, upper, -⟩ := reciprocal_near normal word
  have short := Nat.mul_le_mul_right (reciprocal a) normal
  have next : reciprocal a ≤ 2 * (reciprocal a / 2) + 1 := by omega
  have below := Nat.mul_le_mul_left a (Nat.mul_div_le (reciprocal a) 2)
  have above := Nat.mul_le_mul_left a next
  refine ⟨by omega, by linarith, by linarith⟩

end Newton

/-- The count of the last shift in `gglRecipQ`. -/
def shift (x q : Int) : Int := (gglRecipQNormalized x).2 + (16 - q)

variable {x : Int}

theorem gglRecipQNormalized_eq (large : 2 < x.natAbs) (word : x.natAbs < 2 ^ 32) :
    gglRecipQNormalized x =
      (if x < 0 then -((reciprocal (x.natAbs * 2 ^ gglClz x.natAbs) / 2 : Nat) : Int)
        else (reciprocal (x.natAbs * 2 ^ gglClz x.natAbs) / 2 : Nat),
      29 - (gglClz x.natAbs : Int)) := by
  obtain ⟨-, fits⟩ := normalized (n := x.natAbs) (by omega) word
  have shifted : x.natAbs <<< gglClz x.natAbs % 2 ^ 32 = x.natAbs * 2 ^ gglClz x.natAbs := by
    rw [Nat.shiftLeft_eq, Nat.mod_eq_of_lt fits]
  have exponent : (30 - gglClz x.natAbs - 1 : Int) = 29 - gglClz x.natAbs := by omega
  unfold gglRecipQNormalized
  dsimp only
  rw [if_neg (not_le.mpr large), shifted, exponent, Nat.shiftRight_eq_div_pow, pow_one]
  rfl

theorem shift28_bounds (word : x.natAbs < 2 ^ 32) :
    (1 ≤ shift x 28 ↔ 2 ^ 15 ≤ x.natAbs) ∧ shift x 28 ≤ 17 := by
  by_cases tiny : x.natAbs ≤ 2
  · have none : shift x 28 = -12 := by
      unfold shift gglRecipQNormalized
      dsimp only
      rw [if_pos tiny]
      split_ifs <;> rfl
    omega
  · obtain ⟨low, high⟩ := normalized (n := x.natAbs) (by omega) word
    have value : shift x 28 = 17 - (gglClz x.natAbs : Int) := by
      rw [shift, gglRecipQNormalized_eq (by omega) word]
      dsimp only
      omega
    rw [value]
    refine ⟨⟨fun positive => ?_, fun large => ?_⟩, by omega⟩
    · have power : 2 ^ gglClz x.natAbs ≤ 2 ^ 16 := Nat.pow_le_pow_right (by decide) (by omega)
      have product := Nat.mul_le_mul_left x.natAbs power
      omega
    · by_contra many
      have power : 2 ^ 17 ≤ 2 ^ gglClz x.natAbs := Nat.pow_le_pow_right (by decide) (by omega)
      have product := Nat.mul_le_mul large power
      omega

theorem rounded_near {n R P L W v B : Int} (count : 0 ≤ n) (scale : 0 < L) (whole : P * L = W)
    (upper : 2 * (n * L * R) ≤ 2 ^ 62 + 2 ^ 33)
    (lower : 2 ^ 62 ≤ 2 * (n * L * R) + B + 2 ^ 32) (high : 2 * (P * v) ≤ 2 * R + P)
    (low : 2 * R ≤ 2 * (P * v) + P) :
    W * (2 * (n * v)) ≤ 2 ^ 62 + 2 ^ 33 + W * n ∧
      2 ^ 62 ≤ W * (2 * (n * v) + n) + 2 ^ 32 + B := by
  have factor : 0 ≤ n * L := mul_nonneg count scale.le
  have above := mul_le_mul_of_nonneg_left high factor
  have below := mul_le_mul_of_nonneg_left low factor
  have product : n * L * (2 * (P * v)) = W * (2 * (n * v)) := by
    rw [← whole]
    ring
  have slack : n * L * P = W * n := by
    rw [← whole]
    ring
  rw [mul_add, product, slack] at above below
  constructor
  · linarith
  · linarith

/-- The half of the reciprocal that `gglRecipQNormalized` returns, with its sign. -/
def signedHalf (x : Int) : Int :=
  if x < 0 then -((reciprocal (x.natAbs * 2 ^ gglClz x.natAbs) / 2 : Nat) : Int)
  else (reciprocal (x.natAbs * 2 ^ gglClz x.natAbs) / 2 : Nat)

theorem gglRecipQ_eq (large : 2 < x.natAbs) (word : x.natAbs < 2 ^ 32) {k m : Nat}
    (digits : k + 1 + gglClz x.natAbs = m) (format : m ≤ 29) :
    gglRecipQ x (45 - m) = (signedHalf x + 2 ^ k) / 2 ^ (k + 1) := by
  obtain ⟨low, high⟩ := normalized (n := x.natAbs) (by omega) word
  obtain ⟨-, -, error⟩ := reciprocal_near low high
  have short := (half_near low high error).1
  have half : (2 ^ k : Int) ≤ 2 ^ 28 := pow_le_pow_right₀ (by decide) (by omega)
  have positive : (0 : Int) < 2 ^ k := pow_pos (by decide) k
  have sides : -(2 ^ 30 + 2) ≤ signedHalf x ∧ signedHalf x ≤ 2 ^ 30 + 2 := by
    unfold signedHalf
    split_ifs <;> omega
  have count : (29 - gglClz x.natAbs + (16 - (45 - m)) : Int) = k + 1 := by omega
  have rounding : (((k : Int) + 1 - 1) % 64).toNat = k := by omega
  have last : (((k : Int) + 1) % 32).toNat = k + 1 := by omega
  unfold gglRecipQ
  rw [gglRecipQNormalized_eq large word]
  dsimp only
  rw [count, rounding, last]
  change wrap32 (signedHalf x + 2 ^ k) >>> (k + 1) = _
  rw [wrap32_of_bounds (by omega) (by omega), Int.shiftRight_eq_div_pow]
  norm_cast

theorem gglRecipQ_error (large : 2 < x.natAbs) (word : x.natAbs < 2 ^ 32) {m B : Nat}
    (few : gglClz x.natAbs < m) (format : m ≤ 29)
    (error : 2 ^ 62 ≤ x.natAbs * 2 ^ gglClz x.natAbs *
      reciprocal (x.natAbs * 2 ^ gglClz x.natAbs) + B) :
    2 ^ m * (2 * (x * gglRecipQ x (45 - m))) ≤ 2 ^ 62 + 2 ^ 33 + 2 ^ m * x.natAbs ∧
      2 ^ 62 ≤ 2 ^ m * (2 * (x * gglRecipQ x (45 - m)) + x.natAbs) + 2 ^ 32 + B := by
  obtain ⟨low, high⟩ := normalized (n := x.natAbs) (by omega) word
  obtain ⟨short, upper, lower⟩ := half_near low high error
  set lz := gglClz x.natAbs
  set R := reciprocal (x.natAbs * 2 ^ lz) / 2
  obtain ⟨k, digits⟩ : ∃ k : Nat, k + 1 + lz = m := ⟨m - 1 - lz, by omega⟩
  have whole : (2 ^ (k + 1) * 2 ^ lz : Int) = 2 ^ m := by rw [← pow_add, digits]
  have value := gglRecipQ_eq large word digits format
  have signed : signedHalf x = if x < 0 then -(R : Int) else R := rfl
  set y := signedHalf x
  set v := gglRecipQ x (45 - m)
  have double : (2 ^ (k + 1) : Int) = 2 * 2 ^ k := by ring
  have quotient := Int.mul_ediv_self_le (x := y + 2 ^ k) (k := 2 ^ (k + 1)) (by positivity)
  have remainder := Int.lt_mul_ediv_self_add (x := y + 2 ^ k) (k := 2 ^ (k + 1)) (by positivity)
  rw [← value] at quotient remainder
  have scale : (0 : Int) < 2 ^ lz := pow_pos (by decide) lz
  have upper' : 2 * (x.natAbs * 2 ^ lz * R : Int) ≤ 2 ^ 62 + 2 ^ 33 := by exact_mod_cast upper
  have lower' : 2 ^ 62 ≤ 2 * (x.natAbs * 2 ^ lz * R : Int) + B + 2 ^ 32 := by
    exact_mod_cast lower
  rcases Int.lt_or_le x 0 with negative | nonnegative
  · rw [if_pos negative] at signed
    have size : (x.natAbs : Int) = -x := by omega
    rw [size] at upper' lower' ⊢
    have near := rounded_near (v := -v) (by omega) scale whole upper' lower' (by linarith)
      (by linarith)
    rwa [neg_mul_neg] at near
  · rw [if_neg (not_lt.mpr nonnegative)] at signed
    have size : (x.natAbs : Int) = x := by omega
    rw [size] at upper' lower' ⊢
    exact rounded_near nonnegative scale whole upper' lower' (by linarith) (by linarith)

theorem gglClz_lt {n m : Nat} (large : 2 ^ (32 - m) ≤ n) (word : n < 2 ^ 32) (few : m ≤ 32) :
    gglClz n < m := by
  have some : n ≠ 0 := by
    have positive := Nat.two_pow_pos (32 - m)
    omega
  have digits : 32 - m ≤ n.log2 := (Nat.le_log2 some).mpr large
  unfold gglClz
  rw [if_neg some]
  have long : n.log2 < 32 := (Nat.log2_lt some).mpr word
  omega

theorem gglRecip28_error (large : 2 ^ 15 ≤ x.natAbs) (word : x.natAbs < 2 ^ 32) {B : Nat}
    (error : 2 ^ 62 ≤ x.natAbs * 2 ^ gglClz x.natAbs *
      reciprocal (x.natAbs * 2 ^ gglClz x.natAbs) + B) :
    2 * (x * gglRecip28 x) ≤ 2 ^ 45 + 2 ^ 16 + x.natAbs ∧
      2 ^ 62 ≤ 2 ^ 17 * (2 * (x * gglRecip28 x) + 2 ^ 15 + x.natAbs) + B := by
  have few := gglClz_lt (m := 17) large word (by decide)
  have near := gglRecipQ_error (m := 17) (by omega) word few (by decide) error
  change 2 ^ 17 * (2 * (x * gglRecip28 x)) ≤ _ ∧ _ ≤ 2 ^ 17 * (2 * (x * gglRecip28 x) + _) + _ + _
    at near
  omega

theorem gglRecip28_near (large : 2 ^ 15 ≤ x.natAbs) (word : x.natAbs < 2 ^ 32) :
    2 * (x * gglRecip28 x) ≤ 2 ^ 45 + 2 ^ 16 + x.natAbs ∧
      2 ^ 45 ≤ 2 * (x * gglRecip28 x) + 82 * 2 ^ 25 + 2 ^ 15 + x.natAbs := by
  obtain ⟨low, high⟩ := normalized (n := x.natAbs) (by omega) word
  obtain ⟨-, -, error⟩ := reciprocal_near low high
  obtain ⟨above, below⟩ := gglRecip28_error large word error
  exact ⟨above, by omega⟩

end RabbitRender.Reciprocals
