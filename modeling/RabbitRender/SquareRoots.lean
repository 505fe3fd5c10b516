/- RabbitRender/SquareRoots
   layer: proof
   source: libpixelflinger/fixed.cpp
   digest: The error of `gglSqrtRecipx`, and that its products and sums fit 32 bits. -/

import RabbitRender.Fixed
import RabbitRender.Lib.NewtonSteps
import Mathlib.Analysis.Real.Sqrt
import Mathlib.Tactic.FieldSimp
import Mathlib.Tactic.NormNum

set_option autoImplicit false

namespace RabbitRender.SquareRoots

open Fixed
open Lib.NewtonSteps (inverse_root_near)

/-- The product of `gglMulx` before it is cut to a word. -/
def mulxWhole (a b : Int) (shift : Nat) : Int := (a * b + 2 ^ (shift - 1)) >>> shift

/-- The sums of an iteration of `gglSqrtRecipx`. -/
def newtonSums (a x : Int) : List Int :=
  let ax := gglMulx a x 16
  let axx := gglMulx ax x 16
  [mulxWhole a x 16, mulxWhole ax x 16, 0x30000 - axx,
    mulxWhole (x >>> (1 : Nat)) (0x30000 - axx) 16]

def tableShift (lz index : Nat) : Int :=
  let x := gglSqrtReciprocApproxTab.getD index 0
  let exp : Int := lz - 16
  if exp ≤ 0 then x >>> ((-exp) >>> (1 : Nat)).toNat
  else x <<< (exp >>> (1 : Nat) + exp % 2).toNat

/-- What the iterations of `gglSqrtRecipx` start from. -/
def rootSeed (lz index : Nat) : Int :=
  let x := wrap32 (tableShift lz index)
  if ((lz : Int) - 16) % 2 = 1 then gglMulx x 0x16A09 16 >>> (1 : Nat) else x

def tableIndex (a : Int) : Nat := (a >>> ((60 - clz32 a) % 32) % 8).toNat

/-- The sums of `gglSqrtRecipx`. -/
def rootSums (a : Int) : List Int :=
  if a = 0 ∨ a = 0x10000 then []
  else
    let lz := clz32 a
    let x := rootSeed lz (tableIndex a)
    tableShift lz (tableIndex a) :: (if ((lz : Int) - 16) % 2 = 1 then
      [mulxWhole (wrap32 (tableShift lz (tableIndex a))) 0x16A09 16] else []) ++
      newtonSums a x ++ newtonSums a (sqrtNewton a x)

def Word (x : Int) : Prop := -2 ^ 31 ≤ x ∧ x < 2 ^ 31

instance (x : Int) : Decidable (Word x) := inferInstanceAs (Decidable (_ ∧ _))

theorem gglMulx_of_word {a b : Int} {shift : Nat} (word : Word (mulxWhole a b shift)) :
    gglMulx a b shift = mulxWhole a b shift := wrap32_of_bounds word.1 word.2

theorem mulxWhole_near (a b : Int) (shift : Nat) :
    |(mulxWhole a b (shift + 1) : ℝ) - a * b / 2 ^ (shift + 1)| ≤ 1 / 2 := by
  have power : (2 : Int) ^ (shift + 1) = 2 * 2 ^ shift := by ring
  have value : mulxWhole a b (shift + 1) = (a * b + 2 ^ shift) / 2 ^ (shift + 1) := by
    rw [mulxWhole, Int.shiftRight_eq_div_pow, Nat.add_sub_cancel]
    norm_cast
  have high := Int.mul_ediv_self_le (x := a * b + 2 ^ shift) (k := 2 ^ (shift + 1)) (by positivity)
  have low := Int.lt_mul_ediv_self_add (x := a * b + 2 ^ shift) (k := 2 ^ (shift + 1))
    (by positivity)
  rw [← value] at high low
  have high' : 2 * 2 ^ shift * (mulxWhole a b (shift + 1) : ℝ) ≤ a * b + 2 ^ shift := by
    rw [power] at high
    exact_mod_cast high
  have low' : (a : ℝ) * b + 2 ^ shift <
      2 * 2 ^ shift * (mulxWhole a b (shift + 1) : ℝ) + 2 * 2 ^ shift := by
    rw [power] at low
    exact_mod_cast low
  have positive : (0 : ℝ) < 2 ^ shift := by positivity
  have quotient : (mulxWhole a b (shift + 1) : ℝ) - a * b / 2 ^ (shift + 1) =
      (2 * 2 ^ shift * mulxWhole a b (shift + 1) - a * b) / (2 * 2 ^ shift) := by
    rw [pow_succ']
    field_simp
  rw [quotient, abs_div, abs_of_pos (by positivity : (0 : ℝ) < 2 * 2 ^ shift),
    div_le_iff₀ (by positivity)]
  exact abs_le.mpr ⟨by linarith, by linarith⟩

theorem word_of_near {n : Int} {r : ℝ} (near : |(n : ℝ) - r| ≤ 1 / 2) (low : -(2 ^ 31 - 1) ≤ r)
    (high : r ≤ 2 ^ 31 - 1) : Word n := by
  obtain ⟨below, above⟩ := abs_le.mp near
  constructor
  · have bound : (-2 ^ 31 : ℝ) ≤ n := by linarith
    exact_mod_cast bound
  · have bound : (n : ℝ) < 2 ^ 31 := by linarith
    exact_mod_cast bound

/-- The square root of a squared length, in units of the reciprocal. -/
noncomputable def root (a : Int) : ℝ := √a / 2 ^ 24

section Iteration

variable {a x : Int}

theorem root_sq (positive : 0 < a) : root a ^ 2 * 2 ^ 48 = a := by
  have square := Real.sq_sqrt (by exact_mod_cast positive.le : (0 : ℝ) ≤ a)
  rw [root, div_pow, square]
  norm_num

theorem root_pos (positive : 0 < a) : 0 < root a :=
  div_pos (Real.sqrt_pos.mpr (by exact_mod_cast positive)) (by positivity)

theorem root_le (positive : 0 < a) (word : a < 2 ^ 31) : root a ≤ 1 / 2 ^ 8 := by
  have bound : (a : ℝ) < 2 ^ 31 := by exact_mod_cast word
  have power : root a ^ 2 ≤ (1 / 2 ^ 8) ^ 2 := by
    have square := root_sq positive
    norm_num at square ⊢
    linarith
  exact le_of_sq_le_sq power (by positivity)

theorem square_near (positive : 0 < a) (word : a < 2 ^ 31) (some : 0 < x)
    (size : x * root a ≤ 11 / 10) :
    Word (mulxWhole a x 16) ∧ gglMulx a x 16 = mulxWhole a x 16 ∧
      |(mulxWhole (mulxWhole a x 16) x 16 : ℝ) - (x * root a) ^ 2 * 2 ^ 16| ≤
        (x : ℝ) / 2 ^ 17 + 1 / 2 := by
  have square := root_sq positive
  have scale := root_pos positive
  have least := root_le positive word
  have some' : 0 < (x : ℝ) := by exact_mod_cast some
  set κ := root a
  set t : ℝ := x * κ with product
  have sign : 0 < t := mul_pos some' scale
  have first : |(mulxWhole a x 16 : ℝ) - κ * t * 2 ^ 32| ≤ 1 / 2 := by
    have whole : κ * t * 2 ^ 32 = a * x / 2 ^ 16 := by
      rw [product, ← square]
      ring
    rw [whole]
    exact mulxWhole_near a x 15
  have firstWord : Word (mulxWhole a x 16) := by
    have bound : κ * t ≤ 1 / 2 ^ 8 * 2 :=
      mul_le_mul least (by linarith) sign.le (by positivity)
    have positive : 0 ≤ κ * t := mul_nonneg scale.le sign.le
    exact word_of_near first (by linarith) (by linarith)
  refine ⟨firstWord, gglMulx_of_word firstWord, ?_⟩
  set m := mulxWhole a x 16
  have whole : (mulxWhole m x 16 : ℝ) - t ^ 2 * 2 ^ 16 =
      (mulxWhole m x 16 - m * x / 2 ^ 16) + (m - κ * t * 2 ^ 32) * ((x : ℝ) / 2 ^ 16) := by
    rw [product]
    ring
  have part : |(m - κ * t * 2 ^ 32) * ((x : ℝ) / 2 ^ 16)| ≤ 1 / 2 * ((x : ℝ) / 2 ^ 16) := by
    rw [abs_mul, abs_of_pos (div_pos some' (by positivity) : 0 < (x : ℝ) / 2 ^ 16)]
    exact mul_le_mul_of_nonneg_right first (by positivity)
  rw [whole]
  refine (abs_add_le _ _).trans ((add_le_add (mulxWhole_near m x 15) part).trans_eq ?_)
  ring

theorem sqrtNewton_near (positive : 0 < a) (word : a < 2 ^ 31) (some : 0 < x) (short : x ≤ 2 ^ 25)
    {e h : ℝ} (near : |1 - x * root a| ≤ e) (small : e ≤ 1 / 10)
    (square : (x : ℝ) / 2 ^ 33 + 1 / 2 ^ 17 ≤ h) :
    |1 - sqrtNewton a x * root a| ≤
        e ^ 2 * (3 + e) / 2 + (1 + e) * h / 2 + root a * (3 + 2 * e + h) / 2 ∧
      ∀ s ∈ newtonSums a x, Word s := by
  obtain ⟨lowT, highT⟩ := abs_le.mp near
  obtain ⟨firstWord, first, second⟩ := square_near positive word some (by linarith)
  have scale := root_pos positive
  have few : (x : ℝ) ≤ 2 ^ 25 := by exact_mod_cast short
  have some' : 0 < (x : ℝ) := by exact_mod_cast some
  set κ := root a
  set t : ℝ := x * κ with product
  set m := mulxWhole a x 16
  set y := mulxWhole m x 16
  obtain ⟨lowY, highY⟩ := abs_le.mp second
  have power : t ^ 2 ≤ (11 / 10) ^ 2 := sq_le_sq' (by linarith) (by linarith)
  have sign := sq_nonneg t
  have boundsY : -2 ^ 20 ≤ y ∧ y ≤ 2 ^ 20 := by
    have low : (-2 ^ 20 : ℝ) ≤ y := by linarith
    have high : (y : ℝ) ≤ 2 ^ 20 := by linarith
    exact ⟨by exact_mod_cast low, by exact_mod_cast high⟩
  have secondWord : Word y := ⟨by omega, by omega⟩
  have third := mulxWhole_near (x >>> (1 : Nat)) (0x30000 - y) 15
  have halves : 2 * x >>> (1 : Nat) ≤ x ∧ x ≤ 2 * x >>> (1 : Nat) + 1 := by
    rw [Int.shiftRight_eq_div_pow]
    omega
  set half := x >>> (1 : Nat)
  have lowH : 2 * (half : ℝ) ≤ x := by exact_mod_cast halves.1
  have highH : (x : ℝ) ≤ 2 * half + 1 := by exact_mod_cast halves.2
  set r := mulxWhole half (0x30000 - y) 16
  push_cast at third
  have wrong : |(y : ℝ) / 2 ^ 16 - t ^ 2| ≤ h := by
    rw [abs_le]
    constructor <;> linarith
  have next := inverse_root_near near (by linarith) scale.le (sub_nonneg.mpr lowH)
    (sub_le_iff_le_add'.mpr highH) wrong third
  have whole : (t - κ * (x - 2 * half)) * (3 - t ^ 2 - (y / 2 ^ 16 - t ^ 2)) / 2 +
      κ * (r - half * (196608 - y) / 2 ^ 16) = r * κ := by
    rw [product]
    ring
  rw [whole] at next
  have thirdWord : Word r := by
    have bound : |(half : ℝ) * ((196608 - y) / 2 ^ 16)| ≤ 2 ^ 25 * 2 ^ 5 := by
      rw [abs_mul]
      exact mul_le_mul (abs_le.mpr ⟨by linarith, by linarith⟩)
        (abs_le.mpr ⟨by linarith, by linarith⟩) (abs_nonneg _) (by positivity)
    rw [mul_div_assoc] at third
    exact word_of_near third (by linarith [(abs_le.mp bound).1]) (by linarith [(abs_le.mp bound).2])
  have value : sqrtNewton a x = r := by
    unfold sqrtNewton
    rw [first, gglMulx_of_word secondWord]
    exact gglMulx_of_word thirdWord
  rw [value]
  refine ⟨next, ?_⟩
  unfold newtonSums
  dsimp only
  rw [first, gglMulx_of_word secondWord]
  simp only [List.mem_cons, List.not_mem_nil, or_false]
  rintro s (rfl | rfl | rfl | rfl)
  · exact firstWord
  · exact secondWord
  · exact ⟨by omega, by omega⟩
  · exact thirdWord

end Iteration

/-- Near to the inverse square root of the numbers with leading digits `j`, from `2 ^ k` on. -/
def SeedNear (k j : Nat) (x : Int) : Prop :=
  (0 < x ∧ x ≤ 2 ^ 23) ∧ 995 * 2 ^ 48 ≤ 1000 * (x ^ 2 * (j * 2 ^ (k - 3))) ∧
    8 * (x ^ 2 * ((j + 1) * 2 ^ (k - 3))) ≤ 9 * 2 ^ 48

instance (k j : Nat) (x : Int) : Decidable (SeedNear k j x) := inferInstanceAs (Decidable (_ ∧ _))

theorem seeds : ∀ k < 31, ∀ j < 16, 3 ≤ k → 8 ≤ j →
    SeedNear k j (rootSeed (31 - k) (j - 8)) ∧ Word (tableShift (31 - k) (j - 8)) ∧
      Word (mulxWhole (wrap32 (tableShift (31 - k) (j - 8))) 0x16A09 16) := by
  decide +kernel

section Seed

variable {a : Int}

private theorem index_eq {j : Nat} (least : 8 ≤ j) (most : j < 16) :
    ((j : Int) % 8).toNat = j - 8 := by
  omega

theorem digits (large : 8 ≤ a) (word : a < 2 ^ 31) : ∃ k < 31, ∃ j < 16, 3 ≤ k ∧ 8 ≤ j ∧
    clz32 a = 31 - k ∧ tableIndex a = j - 8 ∧ (j * 2 ^ (k - 3) : Int) ≤ a ∧
      a < (j + 1) * 2 ^ (k - 3) := by
  obtain ⟨n, rfl⟩ := Int.eq_ofNat_of_zero_le (by omega : 0 ≤ a)
  have some : n ≠ 0 := by omega
  have low := Nat.log2_self_le some
  have high := Nat.lt_log2_self (n := n)
  have top : n.log2 < 31 := (Nat.log2_lt some).mpr (by omega)
  have bottom : 3 ≤ n.log2 := (Nat.le_log2 some).mpr (by omega)
  obtain ⟨i, power⟩ := Nat.exists_eq_add_of_le bottom
  have count : (60 - (31 - n.log2)) % 32 = i := by omega
  have lead : clz32 (n : Int) = 31 - n.log2 := by
    unfold clz32 gglClz
    rw [if_neg (by omega), Int.toNat_natCast, if_neg some]
  have eight : 2 ^ (3 + i) = 8 * 2 ^ i := by rw [Nat.pow_add]
  rw [power] at low
  rw [power, Nat.pow_succ] at high
  have least : 8 ≤ n / 2 ^ i := (Nat.le_div_iff_mul_le (Nat.two_pow_pos i)).mpr (by omega)
  have most : n / 2 ^ i < 16 := (Nat.div_lt_iff_lt_mul (Nat.two_pow_pos i)).mpr (by omega)
  have index : tableIndex n = n / 2 ^ i - 8 := by
    have shifted : (n : Int) >>> i = (n / 2 ^ i : Nat) :=
      congrArg Nat.cast (Nat.shiftRight_eq_div_pow n i)
    unfold tableIndex
    rw [lead, count, shifted]
    exact index_eq least most
  refine ⟨n.log2, top, n / 2 ^ i, most, bottom, least, lead, index, ?_⟩
  rw [power, Nat.add_sub_cancel_left]
  constructor
  · exact_mod_cast Nat.div_mul_le_self n (2 ^ i)
  · have next := Nat.lt_div_mul_add (a := n) (Nat.two_pow_pos i)
    exact_mod_cast (by rw [Nat.succ_mul]; exact next : n < (n / 2 ^ i + 1) * 2 ^ i)

theorem near_one {t : ℝ} (positive : 0 ≤ t) (low : 995 / 1000 ≤ t ^ 2) (high : t ^ 2 ≤ 9 / 8) :
    |1 - t| ≤ 61 / 1000 := by
  have least : 939 / 1000 ≤ t := le_of_sq_le_sq (by norm_num; linarith) positive
  have most : t ≤ 1061 / 1000 := le_of_sq_le_sq (by norm_num; linarith) (by norm_num)
  exact abs_le.mpr ⟨by linarith, by linarith⟩

theorem seed_near (large : 8 ≤ a) (word : a < 2 ^ 31) :
    let x := rootSeed (clz32 a) (tableIndex a)
    0 < x ∧ x ≤ 2 ^ 23 ∧ |1 - x * root a| ≤ 61 / 1000 ∧
      Word (tableShift (clz32 a) (tableIndex a)) ∧
      Word (mulxWhole (wrap32 (tableShift (clz32 a) (tableIndex a))) 0x16A09 16) := by
  obtain ⟨k, top, j, most, bottom, least, lead, index, low, high⟩ := digits large word
  obtain ⟨⟨⟨some, short⟩, below, above⟩, shifted, product⟩ := seeds k top j most bottom least
  rw [lead, index]
  intro x
  refine ⟨some, short, ?_, shifted, product⟩
  have square := root_sq (a := a) (by omega)
  have power : ((x : ℝ) * root a) ^ 2 = x ^ 2 * a / 2 ^ 48 := by
    rw [← square]
    ring
  have lower : (995 : ℝ) * 2 ^ 48 ≤ 1000 * (x ^ 2 * a) := by
    have grown := mul_le_mul_of_nonneg_left low (sq_nonneg x)
    exact_mod_cast below.trans (by linarith)
  have upper : (8 : ℝ) * (x ^ 2 * a) ≤ 9 * 2 ^ 48 := by
    have grown := mul_le_mul_of_nonneg_left high.le (sq_nonneg x)
    exact_mod_cast le_trans (mul_le_mul_of_nonneg_left grown (by decide)) above
  refine near_one (mul_nonneg (by exact_mod_cast some.le) (root_pos (by omega)).le) ?_ ?_
  · rw [power]
    linarith
  · rw [power]
    linarith

end Seed

section Reciprocal

variable {a : Int}

theorem gglSqrtRecipx_eq (some : a ≠ 0) (other : a ≠ 0x10000)
    (word : Word (tableShift (clz32 a) (tableIndex a))) :
    gglSqrtRecipx a =
      sqrtNewton a (sqrtNewton a (rootSeed (clz32 a) (tableIndex a))) := by
  have table := wrap32_of_bounds word.1 word.2
  let lz := clz32 a
  let exp : Int := lz - 16
  let entry := gglSqrtReciprocApproxTab.getD (tableIndex a) 0
  have shifted : (if exp ≤ 0 then entry >>> ((-exp) >>> (1 : Nat)).toNat
      else wrap32 (entry <<< (exp >>> (1 : Nat) + exp % 2).toNat)) =
        tableShift lz (tableIndex a) := by
    unfold tableShift at table ⊢
    dsimp only at table ⊢
    split_ifs at table ⊢ with right
    · rfl
    · exact table
  unfold gglSqrtRecipx rootSeed
  rw [if_neg some, if_neg other, table]
  exact congrArg (fun x => sqrtNewton a (sqrtNewton a
    (if exp % 2 = 1 then gglMulx x 0x16A09 16 >>> (1 : Nat) else x))) shifted

theorem gglSqrtRecipx_near_large (large : 8 ≤ a) (word : a < 2 ^ 31) (other : a ≠ 0x10000) :
    |1 - gglSqrtRecipx a * root a| ≤ 1 / 5500 + 38 / 25 * root a + 1 / (2 ^ 33 * root a) ∧
      ∀ s ∈ rootSums a, Word s := by
  obtain ⟨some, short, near, shifted, product⟩ := seed_near large word
  have positive : 0 < a := by omega
  have scale := root_pos positive
  have square := root_sq positive
  have least : root a ≤ 2763 / 1000000 := by
    have bound : (a : ℝ) ≤ 2 ^ 31 := by exact_mod_cast word.le
    exact le_of_sq_le_sq (by norm_num at square ⊢; linarith) (by norm_num)
  have most : 14 / 5 / 2 ^ 24 ≤ root a := by
    have bound : (8 : ℝ) ≤ a := by exact_mod_cast large
    exact le_of_sq_le_sq (by norm_num at square ⊢; linarith) scale.le
  have value := gglSqrtRecipx_eq positive.ne' other shifted
  set x := rootSeed (clz32 a) (tableIndex a)
  have few : (x : ℝ) ≤ 2 ^ 23 := by exact_mod_cast short
  obtain ⟨first, firstSums⟩ := sqrtNewton_near positive word some (by omega) near (by norm_num)
    (h := 1 / 1000) (by linarith)
  have near' : |1 - sqrtNewton a x * root a| ≤ 106 / 10000 := first.trans (by linarith)
  set y := sqrtNewton a x
  obtain ⟨low, high⟩ := abs_le.mp near'
  have some' : 0 < (y : ℝ) := pos_of_mul_pos_left (by linarith : 0 < y * root a) scale.le
  have quotient : (y : ℝ) ≤ 10106 / 10000 / root a := (le_div_iff₀ scale).mpr (by linarith)
  have few' : (y : ℝ) ≤ 2 ^ 23 := by
    refine quotient.trans ((div_le_div_of_nonneg_left (by norm_num) (by norm_num) most).trans ?_)
    norm_num
  have short' : y ≤ 2 ^ 23 := by exact_mod_cast few'
  obtain ⟨second, secondSums⟩ := sqrtNewton_near positive word (by exact_mod_cast some')
    (by omega) near' (by norm_num) le_rfl
  constructor
  · rw [value]
    refine second.trans ?_
    have inverse : 1 / (2 ^ 33 * root a) = 1 / root a / 2 ^ 33 := by
      rw [mul_comm, div_div]
    have share : (y : ℝ) / 2 ^ 33 ≤ 10106 / 10000 * (1 / root a / 2 ^ 33) := by
      rw [mul_div_assoc', mul_one_div]
      exact div_le_div_of_nonneg_right quotient (by positivity)
    have sign : 0 ≤ 1 / root a / 2 ^ 33 := by positivity
    rw [inverse]
    have small : root a * (y / 2 ^ 33 + 1 / 2 ^ 17) ≤ root a * (1 / 1000) :=
      mul_le_mul_of_nonneg_left (by linarith) scale.le
    linarith
  · unfold rootSums
    rw [if_neg (by omega)]
    intro s member
    simp only [List.mem_append, List.mem_cons] at member
    rcases member with ((rfl | odd) | first) | second
    · exact shifted
    · split_ifs at odd with uneven
      · rw [List.mem_singleton.mp odd]
        exact product
      · exact absurd odd List.not_mem_nil
    · exact firstSums s first
    · exact secondSums s second

theorem near_of_square {r : Int} (positive : 0 < a) (sign : 0 ≤ r)
    (square : 700 * |2 ^ 48 - r ^ 2 * a| ≤ 2 ^ 48) : |1 - r * root a| ≤ 1 / 1300 := by
  have scale := root_sq positive
  have sign' : 0 ≤ r * root a := mul_nonneg (by exact_mod_cast sign) (root_pos positive).le
  have square' : 700 * |(2 ^ 48 - r ^ 2 * a : ℝ)| ≤ 2 ^ 48 := by exact_mod_cast square
  have whole : (2 ^ 48 - r ^ 2 * a : ℝ) = (1 - r * root a) * ((1 + r * root a) * 2 ^ 48) := by
    rw [← scale]
    ring
  rw [whole, abs_mul, abs_of_nonneg (by positivity : 0 ≤ (1 + r * root a) * 2 ^ 48)] at square'
  have near : |1 - r * root a| ≤ 1 / 700 := by
    have grown : |1 - r * root a| * 2 ^ 48 ≤ |1 - r * root a| * ((1 + r * root a) * 2 ^ 48) :=
      mul_le_mul_of_nonneg_left (by linarith) (abs_nonneg _)
    linarith
  have double : |1 - r * root a| * (19 / 10 * 2 ^ 48) ≤
      |1 - r * root a| * ((1 + r * root a) * 2 ^ 48) :=
    mul_le_mul_of_nonneg_left (by linarith [(abs_le.mp near).2]) (abs_nonneg _)
  linarith

theorem gglSqrtRecipx_near_small (small : a ∈ ([1, 2, 4, 5] : List Int)) :
    |1 - gglSqrtRecipx a * root a| ≤ 1 / 1300 ∧ ∀ s ∈ rootSums a, Word s := by
  have each : ∀ b ∈ ([1, 2, 4, 5] : List Int), 0 < b ∧ 0 ≤ gglSqrtRecipx b ∧
      700 * |2 ^ 48 - gglSqrtRecipx b ^ 2 * b| ≤ 2 ^ 48 ∧ ∀ s ∈ rootSums b, Word s := by
    decide +kernel
  obtain ⟨positive, sign, square, words⟩ := each a small
  exact ⟨near_of_square positive sign square, words⟩

/-- `gglSqrtRecipx` has an error of one in 5500, of one and a half units for its rounding, and of
one for the rounding of a small square. -/
theorem gglSqrtRecipx_near (range : 8 ≤ a ∨ a ∈ ([1, 2, 4, 5] : List Int)) (word : a < 2 ^ 31) :
    |1 - gglSqrtRecipx a * root a| ≤ 1 / 5500 + 38 / 25 * root a + 1 / (2 ^ 33 * root a) ∧
      ∀ s ∈ rootSums a, Word s := by
  have positive : 0 < a := by
    rcases range with large | small
    · omega
    · simp only [List.mem_cons, List.not_mem_nil, or_false] at small
      omega
  have scale := root_pos positive
  rcases range with large | small
  · by_cases one : a = 0x10000
    · subst one
      have square := root_sq (a := 0x10000) (by decide)
      have value : root 0x10000 = 1 / 2 ^ 16 := by
        have power : root 0x10000 ^ 2 = (1 / 2 ^ 16) ^ 2 := by
          norm_num at square ⊢
          linarith
        exact (pow_left_inj₀ scale.le (by positivity) two_ne_zero).mp power
      refine ⟨?_, by decide⟩
      rw [show gglSqrtRecipx 0x10000 = 0x10000 from rfl, value]
      norm_num
    · exact gglSqrtRecipx_near_large large word one
  · obtain ⟨near, words⟩ := gglSqrtRecipx_near_small small
    have few : (a : ℝ) ≤ 5 := by
      have bound : a ≤ 5 := by
        simp only [List.mem_cons, List.not_mem_nil, or_false] at small
        omega
      exact_mod_cast bound
    have square := root_sq positive
    have least : root a ≤ 9 / 4 / 2 ^ 24 :=
      le_of_sq_le_sq (by norm_num at square ⊢; linarith) (by positivity)
    have share : 1 / 1300 ≤ 1 / (2 ^ 33 * root a) := by
      refine one_div_le_one_div_of_le (by positivity) ?_
      linarith
    exact ⟨by linarith, words⟩

end Reciprocal

end RabbitRender.SquareRoots
