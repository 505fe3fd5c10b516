/- RabbitRender/Raster/DivisionWords
   layer: theorem
   source: libpixelflinger/fixed.cpp, libpixelflinger/trap.cpp
   digest: `gglDivQ` on 32-bit words, and when it ends with the quotient. -/

import RabbitRender.Raster.Division
import RabbitRender.Reciprocals

set_option autoImplicit false

namespace RabbitRender.Raster.DivisionWords

open Fixed
open Fixed.MulDiv (magnitude)
open Raster.Division (divideBits_spec)
open Reciprocals (normalized)

/-- `divideBits` on words. -/
def divideWords (d : Int) : Nat → (n : Int) → (q : Nat) → Nat
  | 0, _, q => q
  | bits + 1, n, q =>
    if n ≥ 0 then divideWords d bits (wrap32 (n * 2 - d)) (2 * q + 1)
    else divideWords d bits (wrap32 ((n + d) * 2 - d)) (2 * q)

def counter (n d i : Int) : Int := i + ((clz32 (magnitude d) : Int) - clz32 (magnitude n)) + 1

def gglDivQ (n d i : Int) : Int :=
  let a := magnitude n
  let b := magnitude d
  let nd : Int := (clz32 b : Int) - clz32 a
  let b' := if nd > 0 then wrap32 (b * 2 ^ nd.toNat) else b
  let a' := if nd > 0 then a else wrap32 (a * 2 ^ ((-nd) % 32).toNat)
  let q := divideWords b' (divideTurns (counter n d i)) (wrap32 (a' - b')) 0
  if (n < 0) ≠ (d < 0) then wrap32 (-q) else wrap32 q

/-- The loops end when their counter gets to zero, without passing the least word, and leave the
truncated quotient. -/
structure Divides (n d : Int) (i : Nat) : Prop where
  ends : divideTurns (counter n d i) = counter n d i
  quotient : gglDivQ n d i = Int.tdiv (n * 2 ^ i) d

variable {n d : Int} {i : Nat}

theorem magnitude_eq (low : -2 ^ 31 ≤ n) (high : n < 2 ^ 31) :
    magnitude n = wrap32 n.natAbs ∧ clz32 (magnitude n) = gglClz n.natAbs := by
  have same : magnitude n = wrap32 n.natAbs := by
    unfold magnitude
    split_ifs with negative
    · congr 1
      omega
    · rw [wrap32_of_bounds (by omega) (by omega)]
      omega
  refine ⟨same, ?_⟩
  rw [same]
  by_cases least : n = -2 ^ 31
  · subst least
    decide
  · rw [wrap32_of_bounds (by omega) (by omega), clz32, if_neg (by omega), Int.toNat_natCast]

def numerator (a b : Nat) : Nat := a * 2 ^ (gglClz a - gglClz b)

def divisor (a b : Nat) : Nat := b * 2 ^ (gglClz b - gglClz a)

section Magnitudes

variable {a b : Nat}

theorem numerator_lt (some : b ≠ 0) (aword : a < 2 ^ 32) (bword : b < 2 ^ 32) :
    numerator a b < 2 * divisor a b ∧ (a ≠ 0 → divisor a b < 2 * numerator a b) := by
  obtain ⟨lowB, highB⟩ := normalized some bword
  unfold numerator divisor
  by_cases zero : a = 0
  · subst zero
    have positive : 0 < b * 2 ^ (gglClz b - gglClz 0) :=
      Nat.mul_pos (Nat.pos_of_ne_zero some) (Nat.two_pow_pos _)
    exact ⟨by omega, fun h => absurd rfl h⟩
  · obtain ⟨lowA, highA⟩ := normalized zero aword
    rcases Nat.le_total (gglClz a) (gglClz b) with few | many
    · obtain ⟨m, clz⟩ := Nat.exists_eq_add_of_le few
      rw [clz, Nat.sub_eq_zero_of_le (Nat.le_add_right _ _), Nat.add_sub_cancel_left, pow_zero]
      rw [clz, pow_add, mul_left_comm, mul_comm] at lowB highB
      constructor
      · exact Nat.lt_of_mul_lt_mul_right (a := 2 ^ gglClz a) (by linarith)
      · exact fun _ => Nat.lt_of_mul_lt_mul_right (a := 2 ^ gglClz a) (by linarith)
    · obtain ⟨m, clz⟩ := Nat.exists_eq_add_of_le many
      rw [clz, Nat.sub_eq_zero_of_le (Nat.le_add_right _ _), Nat.add_sub_cancel_left, pow_zero]
      rw [clz, pow_add, mul_left_comm, mul_comm] at lowA highA
      constructor
      · exact Nat.lt_of_mul_lt_mul_right (a := 2 ^ gglClz b) (by linarith)
      · exact fun _ => Nat.lt_of_mul_lt_mul_right (a := 2 ^ gglClz b) (by linarith)

theorem quotient_eq (bits : gglClz a ≤ gglClz b + i) :
    numerator a b * 2 ^ (i + gglClz b - gglClz a) / divisor a b = a * 2 ^ i / b := by
  unfold numerator divisor
  rcases Nat.le_total (gglClz a) (gglClz b) with few | many
  · have exponent : i + gglClz b - gglClz a = i + (gglClz b - gglClz a) := by omega
    rw [Nat.sub_eq_zero_of_le few, pow_zero, mul_one, exponent, pow_add, ← mul_assoc,
      Nat.mul_div_mul_right _ _ (Nat.two_pow_pos _)]
  · have exponent : gglClz a - gglClz b + (i + gglClz b - gglClz a) = i := by omega
    rw [Nat.sub_eq_zero_of_le many, pow_zero, mul_one, mul_assoc, ← pow_add, exponent]

theorem divisor_le (aword : a < 2 ^ 31) (bword : b ≤ 2 ^ 31) : divisor a b ≤ 2 ^ 31 := by
  unfold divisor
  rcases Nat.le_total (gglClz b) (gglClz a) with few | many
  · rwa [Nat.sub_eq_zero_of_le few, pow_zero, mul_one]
  · by_cases zero : b = 0
    · subst zero
      rw [zero_mul]
      exact Nat.zero_le _
    · have high := (normalized zero (by omega : b < 2 ^ 32)).2
      have leading : 1 ≤ gglClz a := by
        unfold gglClz
        split_ifs with none
        · decide
        · have digits := (Nat.log2_lt none).mpr aword
          omega
      obtain ⟨m, clz⟩ := Nat.exists_eq_add_of_le many
      have double : 2 ^ 1 ≤ 2 ^ gglClz a := Nat.pow_le_pow_right (by decide) leading
      rw [clz, Nat.add_sub_cancel_left]
      rw [clz, pow_add, mul_left_comm] at high
      have part := Nat.mul_le_mul_right (b * 2 ^ m) double
      omega

end Magnitudes

theorem divideBits_bounds (d : Int) (k : Nat) (n : Int) (q : Nat) :
    q * 2 ^ k ≤ divideBits d k n q ∧ divideBits d k n q < (q + 1) * 2 ^ k := by
  induction k generalizing n q with
  | zero => simp [divideBits]
  | succ k ih =>
    rw [divideBits, pow_succ]
    split_ifs
    · have next := ih (n * 2 - d) (2 * q + 1)
      constructor <;> linarith [next.1, next.2, Nat.two_pow_pos k]
    · have next := ih ((n + d) * 2 - d) (2 * q)
      constructor <;> linarith [next.1, next.2, Nat.two_pow_pos k]

theorem divideWords_bounds (d : Int) (k : Nat) (n : Int) (q : Nat) :
    q * 2 ^ k ≤ divideWords d k n q ∧ divideWords d k n q < (q + 1) * 2 ^ k := by
  induction k generalizing n q with
  | zero => simp [divideWords]
  | succ k ih =>
    rw [divideWords, pow_succ]
    split_ifs
    · have next := ih (wrap32 (n * 2 - d)) (2 * q + 1)
      constructor <;> linarith [next.1, next.2, Nat.two_pow_pos k]
    · have next := ih (wrap32 ((n + d) * 2 - d)) (2 * q)
      constructor <;> linarith [next.1, next.2, Nat.two_pow_pos k]

theorem divideWords_wrap (d : Int) (k : Nat) (n : Int) (q : Nat) :
    divideWords (wrap32 d) k n q = divideWords d k n q := by
  induction k generalizing n q with
  | zero => rfl
  | succ k ih =>
    have double : wrap32 ((n + wrap32 d) * 2 - wrap32 d) = wrap32 ((n + d) * 2 - d) := by
      rw [wrap32_sub_right, show (n + wrap32 d) * 2 - d = wrap32 d * 2 + (n * 2 - d) by ring,
        ← wrap32_add_left, wrap32_mul_left, wrap32_add_left]
      congr 1
      ring
    rw [divideWords, divideWords, wrap32_sub_right, double, ih, ih]

def Near (r d : Nat) : Prop := d ≤ r + 2 ^ 31 ∧ r < d + 2 ^ 31

instance (r d : Nat) : Decidable (Near r d) := inferInstanceAs (Decidable (_ ∧ _))

/-- The words have the bits of the quotient exactly if each remainder is near. The induction is on
the number of bits; the first remainder that is not near has the wrong sign. -/
theorem divideWords_eq_iff {b : Nat} (some : 0 < b) (word : b < 2 ^ 32) (k : Nat) {r : Nat}
    (q : Nat) (small : r < 2 * b) :
    divideWords b k (wrap32 (r - b)) q = divideBits b k (r - b) q ↔
      ∀ j < k, Near (r * 2 ^ j % (2 * b)) b := by
  induction k generalizing r q with
  | zero => exact iff_of_true rfl fun j none => absurd none (Nat.not_lt_zero j)
  | succ k ih =>
    have step (next : r % b * 2 < 2 * b) : (∀ j < k + 1, Near (r * 2 ^ j % (2 * b)) b) ↔
        Near r b ∧ ∀ j < k, Near (r % b * 2 * 2 ^ j % (2 * b)) b := by
      have later (j : Nat) : r * 2 ^ (j + 1) % (2 * b) = r % b * 2 * 2 ^ j % (2 * b) := by
        have double : r * 2 % (2 * b) = r % b * 2 := by
          rw [mul_comm 2 b, Nat.mul_mod_mul_right]
        rw [pow_succ', ← mul_assoc, ← double, Nat.mod_mul_mod]
      constructor
      · intro all
        have first := all 0 (Nat.succ_pos k)
        rw [pow_zero, mul_one, Nat.mod_eq_of_lt small] at first
        exact ⟨first, fun j h => later j ▸ all (j + 1) (by omega)⟩
      · rintro ⟨first, all⟩ j h
        cases j with
        | zero => rwa [pow_zero, mul_one, Nat.mod_eq_of_lt small]
        | succ j => exact (later j).symm ▸ all j (by omega)
    have rest : r % b < b := Nat.mod_lt r some
    rw [step (by omega), divideWords, divideBits]
    have one := (divideWords_bounds b k (wrap32 (wrap32 (r - b) * 2 - b)) (2 * q + 1)).1
    have zero := (divideBits_bounds b k ((r - b + b) * 2 - b) (2 * q)).2
    have zero' := (divideWords_bounds b k (wrap32 ((wrap32 (r - b) + b) * 2 - b)) (2 * q)).2
    have one' := (divideBits_bounds b k ((r - b) * 2 - b) (2 * q + 1)).1
    have bounds := wrap32_bounds ((r : Int) - b)
    by_cases near : Near r b
    · have same : wrap32 ((r : Int) - b) = r - b :=
        wrap32_of_bounds (by unfold Near at near; omega) (by unfold Near at near; omega)
      rw [same]
      by_cases taken : b ≤ r
      · have remainder : r % b = r - b := by
          rw [Nat.mod_eq_sub_mod taken, Nat.mod_eq_of_lt (by omega)]
        have next : ((r : Int) - b) * 2 = (r % b * 2 : Nat) := by omega
        rw [if_pos (by omega), if_pos (by omega), next, ih (2 * q + 1) (by omega)]
        exact (and_iff_right near).symm
      · have remainder : r % b = r := Nat.mod_eq_of_lt (by omega)
        have next : ((r : Int) - b + b) * 2 = (r % b * 2 : Nat) := by omega
        rw [if_neg (by omega), if_neg (by omega), next, ih (2 * q) (by omega)]
        exact (and_iff_right near).symm
    · refine iff_of_false (fun same => ?_) fun all => near all.1
      unfold Near at near
      by_cases taken : b ≤ r
      · have turned : wrap32 ((r : Int) - b) = r - b - 2 ^ 32 := by
          rw [← wrap32_sub_turn]
          exact wrap32_of_bounds (by omega) (by omega)
        rw [if_neg (by omega), if_pos (by omega)] at same
        omega
      · have turned : wrap32 ((r : Int) - b) = r - b + 2 ^ 32 := by
          have turn := wrap32_sub_turn ((r : Int) - b + 2 ^ 32)
          rw [add_sub_cancel_right] at turn
          rw [turn]
          exact wrap32_of_bounds (by omega) (by omega)
        rw [if_pos (by omega), if_neg (by omega)] at same
        omega

section Quotient

variable (nlow : -2 ^ 31 ≤ n) (nhigh : n < 2 ^ 31) (dlow : -2 ^ 31 ≤ d) (dhigh : d < 2 ^ 31)
include nlow nhigh dlow dhigh

theorem counter_eq :
    counter n d i = i + ((gglClz d.natAbs : Int) - gglClz n.natAbs) + 1 := by
  rw [counter, (magnitude_eq nlow nhigh).2, (magnitude_eq dlow dhigh).2]

theorem ends_iff :
    divideTurns (counter n d i) = counter n d i ↔ gglClz n.natAbs ≤ gglClz d.natAbs + i := by
  rw [counter_eq nlow nhigh dlow dhigh, divideTurns]
  split_ifs <;> push_cast <;> omega

theorem gglDivQ_words (bits : gglClz n.natAbs ≤ gglClz d.natAbs + i) :
    gglDivQ n d i =
      let N := numerator n.natAbs d.natAbs
      let D := divisor n.natAbs d.natAbs
      let q := divideWords D (i + gglClz d.natAbs - gglClz n.natAbs + 1) (wrap32 (N - D)) 0
      if (n < 0) ≠ (d < 0) then wrap32 (-q) else wrap32 q := by
  have turns : divideTurns (counter n d i) = i + gglClz d.natAbs - gglClz n.natAbs + 1 := by
    have ends := (ends_iff nlow nhigh dlow dhigh).mpr bits
    rw [counter_eq nlow nhigh dlow dhigh] at ends ⊢
    omega
  have few (m : Nat) : gglClz m ≤ 32 := by
    unfold gglClz
    split_ifs <;> omega
  have shifted : (if (clz32 (magnitude d) : Int) - clz32 (magnitude n) > 0 then
      wrap32 (magnitude d * 2 ^ ((clz32 (magnitude d) : Int) - clz32 (magnitude n)).toNat)
      else magnitude d) = wrap32 (divisor n.natAbs d.natAbs) := by
    rw [(magnitude_eq nlow nhigh).2, (magnitude_eq dlow dhigh).2, (magnitude_eq dlow dhigh).1,
      divisor]
    split_ifs with longer
    · have exponent : ((gglClz d.natAbs : Int) - gglClz n.natAbs).toNat =
          gglClz d.natAbs - gglClz n.natAbs := by omega
      rw [exponent, wrap32_mul_left, Nat.cast_mul, Nat.cast_pow, Nat.cast_two]
    · rw [Nat.sub_eq_zero_of_le (by omega), pow_zero, mul_one]
  have shifted' : (if (clz32 (magnitude d) : Int) - clz32 (magnitude n) > 0 then magnitude n
      else wrap32 (magnitude n *
        2 ^ ((-((clz32 (magnitude d) : Int) - clz32 (magnitude n))) % 32).toNat)) =
      wrap32 (numerator n.natAbs d.natAbs) := by
    rw [(magnitude_eq nlow nhigh).2, (magnitude_eq dlow dhigh).2, (magnitude_eq nlow nhigh).1,
      numerator]
    split_ifs with longer
    · rw [Nat.sub_eq_zero_of_le (by omega), pow_zero, mul_one]
    · by_cases zero : n.natAbs = 0
      · have none : wrap32 0 = 0 := by decide
        rw [zero, zero_mul, Nat.cast_zero, none, zero_mul, none]
      · have leading : gglClz n.natAbs < 32 := by
          unfold gglClz
          rw [if_neg zero]
          omega
        have exponent : ((-((gglClz d.natAbs : Int) - gglClz n.natAbs)) % 32).toNat =
            gglClz n.natAbs - gglClz d.natAbs := by omega
        rw [exponent, wrap32_mul_left, Nat.cast_mul, Nat.cast_pow, Nat.cast_two]
  simp only [gglDivQ]
  rw [turns, shifted, shifted', wrap32_sub_left, wrap32_sub_right, divideWords_wrap]

end Quotient

theorem tdiv_eq (n d : Int) : Int.tdiv n d =
    if (n < 0) ≠ (d < 0) then -((n.natAbs / d.natAbs : Nat) : Int)
    else (n.natAbs / d.natAbs : Nat) := by
  obtain ⟨a, rfl | rfl⟩ := n.eq_nat_or_neg <;> obtain ⟨b, rfl | rfl⟩ := d.eq_nat_or_neg
  all_goals
    simp only [Int.natAbs_neg, Int.natAbs_natCast, Int.neg_tdiv, Int.tdiv_neg, neg_neg,
      Int.ofNat_tdiv]
    by_cases zeroA : a = 0
    · subst zeroA
      simp
    by_cases zeroB : b = 0
    · subst zeroB
      simp
    split_ifs with signs
    all_goals
      simp only [ne_eq, eq_iff_iff, not_not] at signs
      first | rfl | omega

theorem signed_iff {q p : Nat} (s : Prop) [Decidable s] (word : q < 2 ^ 32) (fits : p < 2 ^ 31) :
    ((if s then wrap32 (-q) else wrap32 q) = if s then -(p : Int) else p) ↔ q = p := by
  unfold wrap32
  constructor
  · intro same
    split_ifs at same
    all_goals
      rw [Int.bmod_def] at same
      split_ifs at same <;> omega
  · rintro rfl
    split_ifs
    all_goals exact wrap32_of_bounds (by omega) (by omega)

/-- Where the division of words ends with the quotient, it is the one of unbounded integers. -/
theorem Divides.unbounded (divides : Divides n d i) (nonzero : n ≠ 0) (divisor : d ≠ 0)
    (nword : n.natAbs < 2 ^ 31) (dword : d.natAbs < 2 ^ 31)
    (bits : gglClz n.natAbs ≤ gglClz d.natAbs + i)
    (fits : n.natAbs * 2 ^ i / d.natAbs < 2 ^ 31) : gglDivQ n d i = Fixed.gglDivQ n d i := by
  rw [Division.gglDivQ_eq nonzero divisor nword dword bits fits]
  exact divides.quotient

/-- The division of words ends with the truncated quotient, where that fits, exactly if the
quotient has a bit to compute and no remainder of the least word is far from its divisor. -/
theorem gglDivQ_divides_iff (nlow : -2 ^ 31 ≤ n) (nhigh : n < 2 ^ 31) (dlow : -2 ^ 31 ≤ d)
    (dhigh : d < 2 ^ 31) (nonzero : d ≠ 0) (fits : n.natAbs * 2 ^ i / d.natAbs < 2 ^ 31) :
    Divides n d i ↔
      gglClz n.natAbs ≤ gglClz d.natAbs + i ∧
      (n = -2 ^ 31 → ∀ k ≤ i + gglClz d.natAbs,
        Near (2 ^ (31 + k) % (2 * (d.natAbs * 2 ^ gglClz d.natAbs)))
          (d.natAbs * 2 ^ gglClz d.natAbs)) := by
  have counts : Divides n d i ↔ gglClz n.natAbs ≤ gglClz d.natAbs + i ∧
      gglDivQ n d i = Int.tdiv (n * 2 ^ i) d := by
    rw [← ends_iff nlow nhigh dlow dhigh]
    exact ⟨fun h => ⟨h.1, h.2⟩, fun h => ⟨h.1, h.2⟩⟩
  rw [counts, and_congr_right_iff]
  intro bits
  have some : d.natAbs ≠ 0 := Int.natAbs_ne_zero.mpr nonzero
  have scaled : n * 2 ^ i < 0 ↔ n < 0 := by
    have power : (0 : Int) < 2 ^ i := by positivity
    exact ⟨fun h => neg_of_mul_neg_left h power.le, fun h => mul_neg_of_neg_of_pos h power⟩
  have truncated := tdiv_eq (n * 2 ^ i) d
  have two : Int.natAbs 2 = 2 := rfl
  simp only [scaled, Int.natAbs_mul, Int.natAbs_pow, two] at truncated
  rw [gglDivQ_words nlow nhigh dlow dhigh bits, truncated]
  have small := numerator_lt some (by omega : n.natAbs < 2 ^ 32) (by omega)
  have normal := (normalized some (by omega)).2
  have word : divisor n.natAbs d.natAbs < 2 ^ 32 := by
    have shifts := Nat.pow_le_pow_right (by decide : 0 < 2)
      (Nat.sub_le (gglClz d.natAbs) (gglClz n.natAbs))
    exact (Nat.mul_le_mul_left d.natAbs shifts).trans_lt normal
  have positive : 0 < divisor n.natAbs d.natAbs := by omega
  have exact := divideBits_spec (i + gglClz d.natAbs - gglClz n.natAbs) 0
    (d := divisor n.natAbs d.natAbs) (Int.natCast_nonneg (numerator n.natAbs d.natAbs))
    (by exact_mod_cast small.1)
  have bits : divideBits (divisor n.natAbs d.natAbs)
      (i + gglClz d.natAbs - gglClz n.natAbs + 1)
      (numerator n.natAbs d.natAbs - divisor n.natAbs d.natAbs) 0 =
        n.natAbs * 2 ^ i / d.natAbs := by
    rw [← quotient_eq bits]
    zify
    rw [exact, Nat.cast_zero, zero_mul, zero_add]
  have agree := divideWords_eq_iff positive word (i + gglClz d.natAbs - gglClz n.natAbs + 1) 0
    small.1
  rw [bits] at agree
  by_cases least : n = -2 ^ 31
  · have magnitude : n.natAbs = 2 ^ 31 := by omega
    have leading : gglClz (2 ^ 31) = 0 := by decide
    rw [magnitude] at fits agree ⊢
    rw [numerator, divisor, leading, Nat.zero_sub, Nat.sub_zero, Nat.sub_zero, pow_zero, mul_one]
      at agree
    simp only [numerator, divisor, leading, Nat.zero_sub, Nat.sub_zero, pow_zero, mul_one]
    have turns : i + gglClz d.natAbs + 1 ≤ 32 := by
      have quotient : 2 ^ i < d.natAbs := by
        rw [Nat.div_lt_iff_lt_mul (Nat.pos_of_ne_zero some)] at fits
        exact Nat.lt_of_mul_lt_mul_left fits
      have product := Nat.mul_lt_mul_of_pos_right quotient (Nat.two_pow_pos (gglClz d.natAbs))
      rw [← pow_add] at product
      exact (Nat.pow_lt_pow_iff_right (by decide : 1 < 2)).mp (product.trans normal)
    have bound := (divideWords_bounds ((d.natAbs * 2 ^ gglClz d.natAbs : Nat) : Int)
      (i + gglClz d.natAbs + 1)
      (wrap32 ((2 ^ 31 : Nat) - (d.natAbs * 2 ^ gglClz d.natAbs : Nat))) 0).2
    have power := Nat.pow_le_pow_right (by decide : 0 < 2) turns
    rw [signed_iff _ (by omega) fits, agree]
    simp only [least, forall_const, Nat.lt_succ_iff, pow_add]
  · have near : ∀ j < i + gglClz d.natAbs - gglClz n.natAbs + 1,
        Near (numerator n.natAbs d.natAbs * 2 ^ j % (2 * divisor n.natAbs d.natAbs))
          (divisor n.natAbs d.natAbs) := by
      intro j _
      have low := divisor_le (a := n.natAbs) (b := d.natAbs) (by omega) (by omega)
      have rest := Nat.mod_lt (numerator n.natAbs d.natAbs * 2 ^ j)
        (by omega : 0 < 2 * divisor n.natAbs d.natAbs)
      unfold Near
      omega
    have same := agree.mpr near
    refine iff_of_true ?_ fun h => absurd h least
    simp only
    exact (signed_iff _ (by omega) fits).mpr same

theorem gglDivQ_divides_negative : Divides (-5) 3 16 :=
  (gglDivQ_divides_iff (by decide) (by decide) (by decide) (by decide) (by decide)
    (by decide)).mpr ⟨by decide, fun least => absurd least (by decide)⟩

/-- An edge a sixteenth of a pixel wide and 8192 pixels tall has no bit to compute. -/
theorem gglDivQ_turns : 1 * 2 ^ 16 / (2 ^ 17 + 2) < 2 ^ 31 ∧ ¬Divides 1 (2 ^ 17 + 2) 16 :=
  ⟨by decide, fun h => absurd h.ends (by decide)⟩

end RabbitRender.Raster.DivisionWords
