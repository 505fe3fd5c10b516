/- RabbitRender/Raster/Division
   layer: proof
   source: libpixelflinger/fixed.cpp
   digest: The quotient that gglDivQ computes bit by bit. -/

import Mathlib.Tactic.Linarith
import Mathlib.Tactic.Positivity
import Mathlib.Tactic.Ring
import RabbitRender.Fixed

set_option autoImplicit false

namespace RabbitRender.Raster.Division

open Fixed

theorem divideBits_spec {d : Int} (k : Nat) {n : Int} (q : Nat) (positive : 0 ≤ n)
    (small : n < 2 * d) :
    (divideBits d (k + 1) (n - d) q : Int) = q * 2 ^ (k + 1) + n * 2 ^ k / d := by
  have divisor : 0 < d := by omega
  induction k generalizing n q with
  | zero =>
    simp only [divideBits, zero_add, pow_zero, mul_one, pow_one]
    split_ifs with fits
    · have : n / d = 1 := by
        rw [Int.ediv_eq_iff_of_pos divisor]
        omega
      rw [this]
      push_cast
      ring
    · have : n / d = 0 := Int.ediv_eq_zero_of_lt positive (by omega)
      rw [this]
      push_cast
      ring
  | succ k ih =>
    rw [divideBits]
    split_ifs with fits
    · have next := ih (n := (n - d) * 2) (2 * q + 1) (by omega) (by omega)
      rw [next]
      have : n * 2 ^ (k + 1) = (n - d) * 2 * 2 ^ k + 2 ^ (k + 1) * d := by ring
      rw [this, Int.add_mul_ediv_right _ _ divisor.ne']
      push_cast
      ring
    · have next := ih (n := n * 2) (2 * q) (by omega) (by omega)
      rw [show n - d + d = n by ring, next]
      have : n * 2 ^ (k + 1) = n * 2 * 2 ^ k := by ring
      rw [this]
      push_cast
      ring

theorem gglClz_eq {x : Nat} (positive : x ≠ 0) (word : x < 2 ^ 31) :
    (gglClz x : Int) = 31 - Nat.log2 x ∧ 2 ^ Nat.log2 x ≤ x ∧ x < 2 ^ (Nat.log2 x + 1) := by
  have bound : Nat.log2 x < 31 := (Nat.log2_lt positive).mpr word
  refine ⟨?_, Nat.log2_self_le positive, Nat.lt_log2_self⟩
  rw [gglClz, if_neg positive]
  omega

theorem divide_eq {a b i : Nat} (numerator : a ≠ 0) (divisor : b ≠ 0) (aword : a < 2 ^ 31)
    (bword : b < 2 ^ 31) (bits : gglClz a ≤ gglClz b + i) :
    let nd : Int := (gglClz b : Int) - gglClz a
    let d' : Int := if nd > 0 then (b <<< nd.toNat : Nat) else b
    let n' : Int := if nd > 0 then a else (a <<< (-nd).toNat : Nat)
    divideBits d' (divideTurns (i + nd + 1)) (n' - d') 0 = a * 2 ^ i / b := by
  obtain ⟨clzA, lowA, highA⟩ := gglClz_eq numerator aword
  obtain ⟨clzB, lowB, highB⟩ := gglClz_eq divisor bword
  intro nd d' n'
  have turns : divideTurns (i + nd + 1) = (i + nd).toNat + 1 := by
    rw [divideTurns, if_pos (by omega)]
    omega
  rw [turns]
  zify
  by_cases longer : nd > 0
  · obtain ⟨m, hm⟩ : ∃ m : Nat, nd = m := ⟨nd.toNat, by omega⟩
    have shifted : d' = b * 2 ^ m := by
      simp only [d', if_pos longer, hm, Int.toNat_natCast, Nat.shiftLeft_eq]
      push_cast
      ring
    have kept : n' = a := if_pos longer
    have small : (a : Int) < 2 * (b * 2 ^ m) := by
      have powers : a.log2 = m + b.log2 := by omega
      rw [powers] at highA
      calc (a : Int) < 2 ^ (m + b.log2 + 1) := by exact_mod_cast highA
        _ = 2 * (2 ^ b.log2 * 2 ^ m) := by ring
        _ ≤ 2 * (b * 2 ^ m) := by
          gcongr
          exact_mod_cast lowB
    have spec := divideBits_spec (i + nd).toNat 0 (by omega : (0 : Int) ≤ n')
      (by rw [kept, shifted]; exact small : n' < 2 * d')
    have exponents : (i + nd).toNat = i + m := by omega
    rw [spec, kept, shifted, exponents, Nat.cast_zero, zero_mul, zero_add, pow_add, ← mul_assoc,
      Int.mul_ediv_mul_of_pos_left _ _ (by positivity)]
  · obtain ⟨m, hm⟩ : ∃ m : Nat, nd = -m := ⟨(-nd).toNat, by omega⟩
    have kept : d' = b := if_neg longer
    have shifted : n' = a * 2 ^ m := by
      simp only [n', if_neg longer, hm, neg_neg, Int.toNat_natCast, Nat.shiftLeft_eq]
      push_cast
      ring
    have small : (a * 2 ^ m : Int) < 2 * b := by
      have powers : b.log2 = a.log2 + m := by omega
      rw [powers] at lowB
      calc (a * 2 ^ m : Int) < 2 ^ (a.log2 + 1) * 2 ^ m := by
            gcongr
            exact_mod_cast highA
        _ = 2 * 2 ^ (a.log2 + m) := by ring
        _ ≤ 2 * b := by
          gcongr
          exact_mod_cast lowB
    have spec := divideBits_spec (i + nd).toNat 0 (by rw [shifted]; positivity : (0 : Int) ≤ n')
      (by rw [kept, shifted]; exact small : n' < 2 * d')
    have exponents : i = m + (i + nd).toNat := by omega
    rw [spec, kept, shifted, Nat.cast_zero, zero_mul, zero_add, mul_assoc, ← pow_add, ← exponents]

theorem gglDivQ_eq {n d : Int} {i : Nat} (nonzero : n ≠ 0) (divisor : d ≠ 0)
    (nword : n.natAbs < 2 ^ 31) (dword : d.natAbs < 2 ^ 31)
    (bits : gglClz n.natAbs ≤ gglClz d.natAbs + i)
    (fits : n.natAbs * 2 ^ i / d.natAbs < 2 ^ 31) :
    gglDivQ n d i = Int.tdiv (n * 2 ^ i) d := by
  have magnitude := divide_eq (Int.natAbs_ne_zero.mpr nonzero) (Int.natAbs_ne_zero.mpr divisor)
    nword dword bits
  simp only [gglDivQ]
  rw [magnitude]
  clear magnitude nword dword bits
  obtain ⟨a, rfl | rfl⟩ := n.eq_nat_or_neg <;> obtain ⟨b, rfl | rfl⟩ := d.eq_nat_or_neg
  all_goals
    have numerator : 0 < a := by omega
    have denominator : 0 < b := by omega
    have quotient : Int.tdiv ((a : Int) * 2 ^ i) b = (a * 2 ^ i / b : Nat) := by
      rw [Int.ofNat_tdiv, Nat.cast_mul, Nat.cast_pow]
      rfl
    simp only [Int.natAbs_neg, Int.natAbs_natCast, neg_mul, Int.neg_tdiv, Int.tdiv_neg, neg_neg,
      quotient] at fits ⊢
    generalize a * 2 ^ i / b = q at fits ⊢
    split_ifs with signs
    all_goals
      simp only [ne_eq, eq_iff_iff, not_not] at signs
      first | exact wrap32_of_bounds (by omega) (by omega) | omega

theorem gglDivQ16_eq {dx dy : Int} (left : -2 ^ 16 < dx) (right : dx < 2 ^ 16) (nonzero : dx ≠ 0)
    (tall : 2 ≤ dy) (short : dy < 2 ^ 16) : gglDivQ16 dx dy = Int.tdiv (dx * 2 ^ 16) dy := by
  have clzN := gglClz_eq (Int.natAbs_ne_zero.mpr nonzero) (by omega)
  have clzD := gglClz_eq (x := dy.natAbs) (by omega) (by omega)
  have logD : dy.natAbs.log2 < 16 := (Nat.log2_lt (by omega)).mpr (by omega)
  refine gglDivQ_eq (i := 16) nonzero (by omega) (by omega) (by omega) (by omega) ?_
  rw [Nat.div_lt_iff_lt_mul (by omega)]
  calc dx.natAbs * 2 ^ 16 < 2 ^ 16 * 2 ^ 16 := by omega
    _ = 2 ^ 31 * 2 := by norm_num
    _ ≤ 2 ^ 31 * dy.natAbs := by omega

end RabbitRender.Raster.Division
