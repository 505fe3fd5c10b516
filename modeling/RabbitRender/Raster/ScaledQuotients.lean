/- RabbitRender/Raster/ScaledQuotients
   layer: theorem
   source: libpixelflinger/fixed.cpp, swrender/primitives.cpp
   digest: `gglMulDivi` on 32-bit words, and when it ends with the saturated quotient. -/

import RabbitRender.Raster.DivisionWords

set_option autoImplicit false

namespace RabbitRender.Raster.ScaledQuotients

open Fixed (clz32 gglClz gglMulDivi slowDivide slowMuldiv wrap32 wrap32_add_left wrap32_bounds
  wrap32_mul_left wrap32_of_bounds wrap32_sub_left)
open Fixed.MulDiv
open Raster.DivisionWords (magnitude_eq)
open Reciprocals (normalized)

def saturate (q : Int) : Int :=
  if -2 ^ 31 ≤ q ∧ q < 2 ^ 31 then q else if q < 0 then -(2 ^ 31 - 1) else 2 ^ 31 - 1

/-- The loop ends when its counter gets to zero, without passing the least word, and the result is
the truncated quotient, or saturated. -/
structure MulDivides (a b c : Int) : Prop where
  ends : smaller a b ≤ magnitude c → turns (32 - clz32 (larger a b)) = 32 - clz32 (larger a b)
  quotient : gglMulDivi a b c = saturate (Int.tdiv (a * b) c)

section Quick

variable {x y c : Nat}

/-- Bit `j` of `x` and the remainder of the bits above it, before the divisor is subtracted. -/
def partialSum (x y c j : Nat) : Nat := 2 * (x / 2 ^ (j + 1) * y % c) + x / 2 ^ j % 2 * y

theorem shifted_negative {k : Nat} (few : k < 32) :
    wrap32 (x * 2 ^ (31 - k)) < 0 ↔ x / 2 ^ k % 2 = 1 := by
  have word : x * 2 ^ (31 - k) % 2 ^ 32 = (x % 2 ^ k + 2 ^ k * (x / 2 ^ k % 2)) * 2 ^ (31 - k) := by
    have powers : (2 : Nat) ^ 32 = 2 ^ k * 2 * 2 ^ (31 - k) := by
      rw [← pow_succ, ← pow_add]
      congr 1
      omega
    rw [powers, Nat.mul_mod_mul_right, Nat.mod_mul]
  have top : (2 : Nat) ^ 31 = 2 ^ k * 2 ^ (31 - k) := by
    rw [← pow_add]
    congr 1
    omega
  have rest := Nat.mod_lt x (Nat.two_pow_pos k)
  have below := Nat.mul_lt_mul_of_pos_right rest (Nat.two_pow_pos (31 - k))
  have sign : wrap32 (x * 2 ^ (31 - k)) < 0 ↔ 2 ^ 31 ≤ x * 2 ^ (31 - k) % 2 ^ 32 := by
    have cast : (x * 2 ^ (31 - k) : Int) = (x * 2 ^ (31 - k) : Nat) := by push_cast; rfl
    rw [cast, wrap32, Int.bmod_def]
    split_ifs <;> omega
  rw [sign, word]
  rcases Nat.mod_two_eq_zero_or_one (x / 2 ^ k) with zero | one
  · rw [zero, mul_zero, add_zero]
    exact iff_of_false (by omega) (by decide)
  · rw [one, mul_one, add_mul, ← top]
    exact iff_of_true (Nat.le_add_left _ _) rfl

theorem subtract_of_le {r : Int} {q : Nat} (more : c ≤ r) (rword : r < 2 ^ 31)
    (qword : q + 1 < 2 ^ 31) : subtract c (r, q) = (r - c, ((q + 1 : Nat) : Int)) := by
  unfold subtract
  rw [if_pos more, wrap32_of_bounds (by dsimp only; omega) (by dsimp only; omega),
    wrap32_of_bounds (by dsimp only; omega) (by dsimp only; omega), Nat.cast_add, Nat.cast_one]

theorem subtract_of_lt {r q : Int} (less : r < c) : subtract c (r, q) = (r, q) :=
  if_neg (not_le.mpr less)

theorem subtract_twice {r q : Nat} (divisor : 0 < c) (small : r < 3 * c) (rword : r < 2 ^ 31)
    (qword : q + r / c < 2 ^ 31) :
    subtract c (subtract c (r, q)) = (((r % c : Nat) : Int), ((q + r / c : Nat) : Int)) := by
  have digit := Nat.div_add_mod r c
  have rest := Nat.mod_lt r divisor
  rcases Nat.lt_or_ge r c with zero | more
  · have less : (r : Int) < c := by omega
    rw [subtract_of_lt less, subtract_of_lt less, Nat.mod_eq_of_lt zero, Nat.div_eq_of_lt zero,
      add_zero]
  · rcases Nat.lt_or_ge r (2 * c) with one | two
    · have quotient : r / c = 1 := Nat.div_eq_of_lt_le (by omega) (by omega)
      rw [quotient] at digit qword ⊢
      rw [subtract_of_le (r := r) (by omega) (by omega) (by omega), subtract_of_lt (by omega)]
      congr 1
      omega
    · have quotient : r / c = 2 := Nat.div_eq_of_lt_le (by omega) (by omega)
      rw [quotient] at digit qword ⊢
      rw [subtract_of_le (r := r) (by omega) (by omega) (by omega),
        subtract_of_le (by omega) (by omega) (by omega)]
      congr 1
      omega

theorem subtract_le {r : Int} {q : Nat} (low : -2 ^ 31 ≤ r) (rword : r < 2 ^ 31)
    (qword : q + 2 < 2 ^ 31) :
    ∃ r' : Int, -2 ^ 31 ≤ r' ∧ r' < 2 ^ 31 ∧ ∃ d ≤ 2, (d = 2 → c < 2 ^ 30) ∧
      subtract c (subtract c (r, q)) = (r', ((q + d : Nat) : Int)) := by
  by_cases zero : r < c
  · rw [subtract_of_lt zero, subtract_of_lt zero]
    exact ⟨r, low, rword, 0, by omega, by omega, rfl⟩
  · rw [subtract_of_le (by omega) rword (by omega)]
    by_cases one : r - c < c
    · rw [subtract_of_lt one]
      exact ⟨r - c, by omega, by omega, 1, by omega, by omega, rfl⟩
    · rw [subtract_of_le (by omega) (by omega) (by omega)]
      exact ⟨r - c - c, by omega, by omega, 2, by omega, by omega, rfl⟩

variable (small : y ≤ c) (word : x < 2 ^ 31)

theorem digits (k : Nat) :
    x / 2 ^ k * y / c = 2 * (x / 2 ^ (k + 1) * y / c) + partialSum x y c k / c ∧
      x / 2 ^ k * y % c = partialSum x y c k % c := by
  have bits : x / 2 ^ k = 2 * (x / 2 ^ (k + 1)) + x / 2 ^ k % 2 := by
    rw [pow_succ, ← Nat.div_div_eq_div_mul]
    omega
  have split : x / 2 ^ k * y = c * (2 * (x / 2 ^ (k + 1) * y / c)) + partialSum x y c k := by
    have product := Nat.div_add_mod (x / 2 ^ (k + 1) * y) c
    unfold partialSum
    nth_rewrite 1 [bits]
    rw [add_mul, mul_assoc]
    linarith
  by_cases zero : c = 0
  · subst zero
    rw [split]
    simp
  · rw [split, Nat.mul_add_div (Nat.pos_of_ne_zero zero), Nat.mul_add_mod]
    exact ⟨rfl, rfl⟩

include small in
theorem quotient_le (k : Nat) : x / 2 ^ k * y / c ≤ x := by
  refine (Nat.div_le_of_le_mul ?_).trans (Nat.div_le_self x (2 ^ k))
  rw [mul_comm c]
  exact Nat.mul_le_mul_left _ small

include small word in
theorem quickWords_short (k : Nat) {a r : Int} {q : Nat} (low : -2 ^ 31 ≤ r) (high : r < 2 ^ 31)
    (short : q < x / 2 ^ k * y / c) (far : c < 2 ^ 30 → q + 2 ≤ x / 2 ^ k * y / c) :
    ∃ p < x * y / c, quickWords y c k a r q = (p : Nat) := by
  induction k generalizing a r q with
  | zero => exact ⟨q, by simpa using short, rfl⟩
  | succ k ih =>
    have digit := (digits (x := x) (y := y) (c := c) k).1
    have bound := quotient_le (x := x) small k
    generalize partialSum x y c k / c = e at digit
    generalize x / 2 ^ k * y / c = F at digit bound ih
    generalize x / 2 ^ (k + 1) * y / c = G at digit short far
    rw [quickWords]
    generalize hs : (if a < 0 then wrap32 (wrap32 (r * 2) + y) else wrap32 (r * 2)) = s
    have sword : -2 ^ 31 ≤ s ∧ s < 2 ^ 31 := by
      rw [← hs]
      split_ifs
      all_goals exact wrap32_bounds _
    have double : wrap32 (q * 2) = (2 * q : Nat) := by
      rw [wrap32_of_bounds (by omega) (by omega)]
      push_cast
      ring
    obtain ⟨r', low', high', d, few, two, turn⟩ :=
      subtract_le (c := c) sword.1 sword.2 (by omega : 2 * q + 2 < 2 ^ 31)
    simp only [double, turn]
    exact ih low' high' (by omega) (by omega)

include small word in
/-- The loop leaves the quotient exactly if no sum of a remainder and the smaller factor leaves the
word: the first that does adds no digit where one is due. -/
theorem quickWords_spec (divisor : 0 < c) (cword : c < 2 ^ 31) (k : Nat) (few : k ≤ 32) :
    ∃ p ≤ x * y / c, quickWords y c k (wrap32 (x * 2 ^ (32 - k))) (x / 2 ^ k * y % c : Nat)
      (x / 2 ^ k * y / c : Nat) = (p : Nat) ∧
      (p = x * y / c ↔ ∀ j < k, partialSum x y c j < 2 ^ 31) := by
  induction k with
  | zero => exact ⟨x * y / c, le_rfl, by simp [quickWords], by simp⟩
  | succ k ih =>
    have digit := digits (x := x) (y := y) (c := c) k
    have bound := quotient_le (x := x) small k
    have exponent : 32 - (k + 1) = 31 - k := by omega
    have rest := Nat.mod_lt (x / 2 ^ (k + 1) * y) divisor
    have sum : partialSum x y c k < 3 * c := by
      have bit := Nat.mod_lt (x / 2 ^ k) (by decide : 0 < 2)
      have part := Nat.mul_le_mul (Nat.le_of_lt_succ bit) small
      unfold partialSum
      omega
    rw [quickWords]
    have added : (if wrap32 (x * 2 ^ (32 - (k + 1))) < 0 then
        wrap32 (wrap32 ((x / 2 ^ (k + 1) * y % c : Nat) * 2) + y)
        else wrap32 ((x / 2 ^ (k + 1) * y % c : Nat) * 2)) = wrap32 (partialSum x y c k) := by
      rw [exponent, wrap32_add_left]
      unfold partialSum
      rcases Nat.mod_two_eq_zero_or_one (x / 2 ^ k) with zero | one
      · rw [if_neg (by rw [shifted_negative (by omega)]; omega), zero]
        congr 1
        push_cast
        ring
      · rw [if_pos ((shifted_negative (by omega)).mpr one), one]
        congr 1
        push_cast
        ring
    have double : wrap32 ((x / 2 ^ (k + 1) * y / c : Nat) * 2) =
        (2 * (x / 2 ^ (k + 1) * y / c) : Nat) := by
      have fits : 2 * (x / 2 ^ (k + 1) * y / c) ≤ x / 2 ^ k * y / c := by
        rw [digit.1]
        exact Nat.le_add_right _ _
      generalize x / 2 ^ (k + 1) * y / c = G at fits
      rw [wrap32_of_bounds (by omega) (by omega)]
      push_cast
      ring
    have shifted : wrap32 (wrap32 (x * 2 ^ (32 - (k + 1))) * 2) = wrap32 (x * 2 ^ (32 - k)) := by
      have power : 32 - k = 32 - (k + 1) + 1 := by omega
      rw [wrap32_mul_left, mul_assoc, ← pow_succ, ← power]
    simp only [added, double, shifted]
    by_cases near : partialSum x y c k < 2 ^ 31
    · have same : wrap32 (partialSum x y c k) = partialSum x y c k :=
        wrap32_of_bounds (by omega) (by omega)
      rw [same, subtract_twice divisor sum near (by rw [← digit.1]; omega), ← digit.1, ← digit.2]
      obtain ⟨p, le, value, iff⟩ := ih (by omega)
      refine ⟨p, le, value, iff.trans ⟨fun all j h => ?_, fun all j h => all j (by omega)⟩⟩
      rcases Nat.lt_succ_iff_lt_or_eq.mp h with before | rfl
      · exact all j before
      · exact near
    · have lost : wrap32 (partialSum x y c k) < c := by
        rw [wrap32, Int.bmod_def]
        split_ifs <;> omega
      have quotient : 1 ≤ partialSum x y c k / c ∧ (c < 2 ^ 30 → 2 ≤ partialSum x y c k / c) := by
        constructor
        · exact (Nat.le_div_iff_mul_le divisor).mpr (by omega)
        · exact fun _ => (Nat.le_div_iff_mul_le divisor).mpr (by omega)
      have short : 2 * (x / 2 ^ (k + 1) * y / c) < x / 2 ^ k * y / c := by
        rw [digit.1]
        exact Nat.lt_add_of_pos_right quotient.1
      have far : c < 2 ^ 30 → 2 * (x / 2 ^ (k + 1) * y / c) + 2 ≤ x / 2 ^ k * y / c := by
        intro narrow
        rw [digit.1]
        exact Nat.add_le_add_left (quotient.2 narrow) _
      rw [subtract_of_lt lost, subtract_of_lt lost]
      obtain ⟨p, less, value⟩ := quickWords_short small word k
        (a := wrap32 (x * 2 ^ (32 - k))) (wrap32_bounds (partialSum x y c k)).1
        (wrap32_bounds (partialSum x y c k)).2 short far
      refine ⟨p, less.le, ?_, iff_of_false less.ne fun all => near (all k (Nat.lt_succ_self k))⟩
      dsimp only
      exact value

end Quick

theorem least_sum {a r : Int} (least : r = 0 ∨ r = -2 ^ 31) :
    (if a < 0 then wrap32 (wrap32 (r * 2) + -2 ^ 31) else wrap32 (r * 2)) = 0 ∨
      (if a < 0 then wrap32 (wrap32 (r * 2) + -2 ^ 31) else wrap32 (r * 2)) = -2 ^ 31 := by
  rcases least with rfl | rfl
  all_goals
    split_ifs
    · exact Or.inr (by decide)
    · exact Or.inl (by decide)

theorem quickWords_least {c : Int} (positive : 0 < c) (k : Nat) (a : Int) {r : Int}
    (least : r = 0 ∨ r = -2 ^ 31) : quickWords (-2 ^ 31) c k a r 0 = 0 := by
  induction k generalizing a r with
  | zero => rfl
  | succ k ih =>
    have next := least_sum (a := a) least
    rw [quickWords]
    generalize (if a < 0 then wrap32 (wrap32 (r * 2) + -2 ^ 31) else wrap32 (r * 2)) = s at next
    have never (q : Int) : subtract c (s, q) = (s, q) := by
      refine if_neg ?_
      rcases next with rfl | rfl
      · exact not_le.mpr positive
      · dsimp only
        omega
    have none : wrap32 (0 * 2) = 0 := by decide
    rw [never, never, none]
    exact ih _ next

theorem quickWords_least_least (k : Nat) (a : Int) {r : Int} (q : Int)
    (least : r = 0 ∨ r = -2 ^ 31) :
    wrap32 (quickWords (-2 ^ 31) (-2 ^ 31) k a r q) = wrap32 ((q + 2) * 2 ^ k - 2) := by
  induction k generalizing a r q with
  | zero => rw [quickWords, pow_zero, mul_one, add_sub_cancel_right]
  | succ k ih =>
    have next := least_sum (a := a) least
    rw [quickWords]
    generalize (if a < 0 then wrap32 (wrap32 (r * 2) + -2 ^ 31) else wrap32 (r * 2)) = s at next
    have twice (p : Int) : subtract (-2 ^ 31) (subtract (-2 ^ 31) (s, p)) =
        (s, wrap32 (wrap32 (p + 1) + 1)) := by
      rcases next with rfl | rfl
      · rfl
      · rfl
    have sum : (wrap32 (q * 2) + 1 : Int) + 1 + 2 = wrap32 (q * 2) + 4 := by ring
    rw [twice, ih _ _ next, wrap32_add_left, ← wrap32_sub_left, ← wrap32_mul_left,
      wrap32_add_left, sum, wrap32_add_left, wrap32_mul_left, wrap32_sub_left, pow_succ]
    congr 1
    ring

theorem slowDivide_eq {c : Nat} (cword : c ≤ 2 ^ 31) (k : Nat) (few : k ≤ 32) {r lo : Nat} (q : Nat)
    (rest : r < c) (word : lo < 2 ^ 32) :
    slowDivide c k r lo q = q * 2 ^ k + (r * 2 ^ k + lo / 2 ^ (32 - k)) / c := by
  induction k generalizing r lo q with
  | zero =>
    rw [slowDivide, pow_zero, mul_one, mul_one, Nat.div_eq_of_lt word, add_zero,
      Nat.div_eq_of_lt rest, add_zero]
  | succ k ih =>
    have shift : r <<< 1 ||| lo >>> 31 = 2 * r + lo / 2 ^ 31 := by
      have bit : lo >>> 31 < 2 ^ 1 := by
        rw [Nat.shiftRight_eq_div_pow]
        omega
      rw [← Nat.shiftLeft_add_eq_or_of_lt bit, Nat.shiftLeft_eq, Nat.shiftRight_eq_div_pow]
      ring
    have next : lo <<< 1 % 2 ^ 32 = 2 * (lo % 2 ^ 31) := by
      rw [Nat.shiftLeft_eq]
      omega
    have digit (p : Nat) : p <<< 1 = 2 * p := by
      rw [Nat.shiftLeft_eq]
      ring
    have power : (2 : Nat) ^ 31 = 2 ^ k * 2 ^ (31 - k) := by
      rw [← pow_add]
      congr 1
      omega
    have bits : r * 2 ^ (k + 1) + lo / 2 ^ (32 - (k + 1)) =
        (2 * r + lo / 2 ^ 31) * 2 ^ k + 2 * (lo % 2 ^ 31) / 2 ^ (32 - k) := by
      have exponent : 32 - k = 31 - k + 1 := by omega
      have rest : 2 * (lo % 2 ^ 31) / 2 ^ (32 - k) = lo % 2 ^ 31 / 2 ^ (31 - k) := by
        rw [exponent, pow_succ' 2 (31 - k), Nat.mul_div_mul_left _ _ (by decide : 0 < 2)]
      have whole : lo / 2 ^ (31 - k) = lo / 2 ^ 31 * 2 ^ k + lo % 2 ^ 31 / 2 ^ (31 - k) := by
        nth_rewrite 1 [← Nat.div_add_mod lo (2 ^ 31)]
        nth_rewrite 1 [power]
        rw [mul_right_comm, mul_comm (2 ^ k * _), Nat.mul_add_div (Nat.two_pow_pos _), mul_comm]
      rw [rest, show 32 - (k + 1) = 31 - k by omega, whole, pow_succ]
      ring
    rw [slowDivide, shift, next, digit, bits]
    have sum : 2 * r + lo / 2 ^ 31 < 2 * c := by omega
    generalize 2 * r + lo / 2 ^ 31 = s at sum
    have word' : 2 * (lo % 2 ^ 31) < 2 ^ 32 := by omega
    split_ifs with more
    · have one : 2 * q ||| 1 = 2 * q + 1 := by
        rw [← digit, ← Nat.shiftLeft_add_eq_or_of_lt (by decide)]
      have split : s * 2 ^ k + 2 * (lo % 2 ^ 31) / 2 ^ (32 - k) =
          c * 2 ^ k + ((s - c) * 2 ^ k + 2 * (lo % 2 ^ 31) / 2 ^ (32 - k)) := by
        rw [← add_assoc, ← add_mul, Nat.add_sub_cancel' more]
      rw [one, ih (by omega) _ (by omega) word', split, Nat.mul_add_div (by omega), pow_succ]
      ring
    · rw [ih (by omega) _ (by omega) word', pow_succ]
      ring

theorem slowMuldiv_eq {x y c : Nat} (cword : c ≤ 2 ^ 31) :
    slowMuldiv x y c =
      if c ≤ x * y / 2 ^ 32 ∨ x * y < 2 ^ 32 ∧ 2 ^ 31 ≤ x * y / c then 2 ^ 31 - 1
      else x * y / c := by
  have whole := Nat.div_add_mod (x * y) (2 ^ 32)
  have low := Nat.mod_lt (x * y) (Nat.two_pow_pos 32)
  unfold slowMuldiv
  rw [Nat.shiftRight_eq_div_pow]
  by_cases beyond : c ≤ x * y / 2 ^ 32
  · rw [if_pos beyond, if_pos (Or.inl beyond)]
    rfl
  · rw [if_neg beyond]
    by_cases narrow : x * y < 2 ^ 32
    · rw [if_pos (Nat.div_eq_of_lt narrow), Nat.mod_eq_of_lt narrow]
      by_cases wide : 2 ^ 31 ≤ x * y / c
      · rw [if_pos wide, if_pos (Or.inr ⟨narrow, wide⟩)]
        rfl
      · rw [if_neg wide, if_neg (by tauto)]
    · rw [if_neg (Nat.div_ne_zero_iff.mpr ⟨by decide, not_lt.mp narrow⟩),
        slowDivide_eq cword 32 le_rfl 0 (not_le.mp beyond) low, if_neg (by tauto), zero_mul, zero_add,
        Nat.sub_self, pow_zero, Nat.div_one, mul_comm (x * y / 2 ^ 32), whole]

variable {a b c : Int}

theorem negative_iff : negative a b c = true ↔ ¬(a < 0 ↔ ¬(b < 0 ↔ c < 0)) := by
  by_cases ha : a < 0 <;> by_cases hb : b < 0 <;> by_cases hc : c < 0 <;>
    simp [negative, ha, hb, hc]

theorem negative_comm : negative b a c = negative a b c := by
  unfold negative
  rw [Bool.xor_left_comm]

theorem mulDivides_comm : MulDivides b a c ↔ MulDivides a b c := by
  have swap (a b : Int) (h : MulDivides b a c) : MulDivides a b c := by
    obtain ⟨ends, quotient⟩ := h
    unfold gglMulDivi larger smaller at *
    rw [max_comm, min_comm, negative_comm, mul_comm b] at *
    exact ⟨ends, quotient⟩
  exact ⟨swap a b, swap b a⟩

theorem saturate_eq_zero {q : Int} : saturate q = 0 ↔ q = 0 := by
  unfold saturate
  split_ifs <;> omega

theorem quotient_signed (a b c : Int) : Int.tdiv (a * b) c =
    if negative a b c then -((a.natAbs * b.natAbs / c.natAbs : Nat) : Int)
    else (a.natAbs * b.natAbs / c.natAbs : Nat) := by
  rw [DivisionWords.tdiv_eq, Int.natAbs_mul]
  by_cases zero : a * b = 0
  · have none : a.natAbs * b.natAbs = 0 := by
      rw [← Int.natAbs_mul, zero]
      rfl
    simp [none]
  · have sign : a * b < 0 ↔ ¬(a < 0 ↔ b < 0) := by
      have nonzero := mul_ne_zero_iff.mp zero
      rw [mul_neg_iff]
      omega
    have same : negative a b c = true ↔ (a * b < 0) ≠ (c < 0) := by
      rw [negative_iff, ne_eq, eq_iff_iff, sign]
      tauto
    simp only [same]

theorem magnitude_least : magnitude (-2 ^ 31) = -2 ^ 31 := by decide

theorem doubled_ne {m : Nat} (some : m ≠ 0) (word : m ≤ 2 ^ 31) :
    wrap32 ((0 + 2) * 2 ^ (32 - gglClz m) - 2) ≠ wrap32 m := by
  obtain ⟨low, high⟩ := normalized some (by omega : m < 2 ^ 32)
  have few : gglClz m < 32 := by
    unfold gglClz
    rw [if_neg some]
    omega
  intro same
  by_cases least : gglClz m = 0
  · rw [least, pow_zero, mul_one] at low
    have top : m = 2 ^ 31 := by omega
    subst top
    rw [least] at same
    exact absurd same (by decide)
  · obtain ⟨k, bits⟩ : ∃ k, 32 - gglClz m = k := ⟨_, rfl⟩
    have top : 2 * 2 ^ k ≤ 2 ^ 32 := by
      rw [← pow_succ']
      exact Nat.pow_le_pow_right (by decide) (by omega)
    have less : m < 2 ^ k := by
      have power : (2 : Nat) ^ 32 = 2 ^ k * 2 ^ gglClz m := by
        rw [← pow_add]
        congr 1
        omega
      rw [power] at high
      exact Nat.lt_of_mul_lt_mul_right high
    have cast : ((0 + 2) * 2 ^ k - 2 : Int) = (2 * 2 ^ k : Nat) - 2 := by
      push_cast
      ring
    rw [bits, cast] at same
    generalize 2 ^ k = P at *
    unfold wrap32 at same
    rw [Int.bmod_def, Int.bmod_def] at same
    split_ifs at same <;> omega

theorem not_mulDivides_least (low : -2 ^ 31 ≤ b) (high : b < 2 ^ 31) (clow : -2 ^ 31 ≤ c)
    (chigh : c < 2 ^ 31) (nonzero : c ≠ 0) : ¬MulDivides (-2 ^ 31) b c := by
  rintro ⟨ends, quotient⟩
  have bounds : -2 ^ 31 ≤ magnitude b ∧ -2 ^ 31 ≤ magnitude c := by
    rw [(magnitude_eq low high).1, (magnitude_eq clow chigh).1]
    exact ⟨(wrap32_bounds _).1, (wrap32_bounds _).1⟩
  have least : smaller (-2 ^ 31) b = -2 ^ 31 := by
    rw [smaller, magnitude_least]
    exact min_eq_left bounds.1
  have other : larger (-2 ^ 31) b = magnitude b := by
    rw [larger, magnitude_least]
    exact max_eq_right bounds.1
  rw [least, other, (magnitude_eq low high).2] at ends
  have some : b.natAbs ≠ 0 := by
    intro zero
    rw [zero] at ends
    exact absurd (ends bounds.2) (by decide)
  rw [gglMulDivi, least, other, if_pos bounds.2, quickMuldiv, (magnitude_eq low high).2,
    ends bounds.2] at quotient
  generalize wrap32 (magnitude b * 2 ^ gglClz b.natAbs) = x at quotient
  by_cases same : c = -2 ^ 31
  · subst same
    have digits := quickWords_least_least (32 - gglClz b.natAbs) x 0 (Or.inl rfl)
    have exact : saturate b = b := if_pos ⟨low, high⟩
    have sign : negative (-2 ^ 31) b (-2 ^ 31) = true ↔ b < 0 := by
      rw [negative_iff]
      omega
    rw [Int.mul_tdiv_cancel_left b nonzero, exact, magnitude_least] at quotient
    refine doubled_ne some (by omega) (digits.symm.trans ?_)
    generalize quickWords (-2 ^ 31) (-2 ^ 31) (32 - gglClz b.natAbs) x 0 0 = q at quotient
    simp only [sign] at quotient
    unfold wrap32 at *
    split_ifs at quotient with negative
    · have turned : q.bmod (2 ^ 32) = (-b).bmod (2 ^ 32) := by
        rw [← quotient, Int.bmod_def, Int.bmod_def, Int.bmod_def]
        split_ifs <;> omega
      rw [turned]
      congr 1
      omega
    · congr 1
      omega
  · have divisor : magnitude c = c.natAbs := by
      rw [(magnitude_eq clow chigh).1]
      exact wrap32_of_bounds (by omega) (by omega)
    have none : wrap32 (-0) = 0 := by decide
    rw [quickWords_least (by omega) _ x (Or.inl rfl), none, ite_self, eq_comm, saturate_eq_zero,
      quotient_signed] at quotient
    have zero : (-2 ^ 31 : Int).natAbs * b.natAbs / c.natAbs = 0 := by
      split_ifs at quotient <;> omega
    have top : (-2 ^ 31 : Int).natAbs = 2 ^ 31 := rfl
    rw [Nat.div_eq_zero_iff, top] at zero
    omega

section Ordinary

variable {x y d : Nat}

def QuickSafe (x y d : Nat) : Prop := x ≠ 0 ∧ ∀ j < 31, partialSum x y d j < 2 ^ 31

instance : Decidable (QuickSafe x y d) := inferInstanceAs (Decidable (_ ∧ _))

/-- The slow division notices that the quotient does not fit the signed word, or it does fit. -/
def SlowSafe (sign : Bool) (x y d : Nat) : Prop :=
  2 ^ 31 ≤ x * y / d → x * y / 2 ^ 32 < d → ¬(x * y < 2 ^ 32 ↔ sign ∧ x * y / d = 2 ^ 31)

instance (sign : Bool) : Decidable (SlowSafe sign x y d) := inferInstanceAs (Decidable (_ → _ → _))

theorem quickMuldiv_spec (small : y ≤ d) (word : x < 2 ^ 31) (divisor : 0 < d) (dword : d < 2 ^ 31)
    (some : x ≠ 0) :
    ∃ p ≤ x * y / d, quickMuldiv x y d = (p : Nat) ∧ (p = x * y / d ↔ QuickSafe x y d) := by
  obtain ⟨low, high⟩ := normalized some (by omega : x < 2 ^ 32)
  have leading : clz32 (x : Int) = gglClz x := by
    rw [clz32, if_neg (by omega), Int.toNat_natCast]
  have few : gglClz x < 32 := by
    unfold gglClz
    rw [if_neg some]
    omega
  have none : x / 2 ^ (32 - gglClz x) = 0 := by
    have power : (2 : Nat) ^ 32 = 2 ^ (32 - gglClz x) * 2 ^ gglClz x := by
      rw [← pow_add]
      congr 1
      omega
    rw [power] at high
    exact Nat.div_eq_of_lt (Nat.lt_of_mul_lt_mul_right high)
  obtain ⟨p, le, value, iff⟩ := quickWords_spec small word divisor dword (32 - gglClz x) (by omega)
  rw [none, zero_mul, Nat.zero_mod, Nat.zero_div, Nat.cast_zero,
    show 32 - (32 - gglClz x) = gglClz x by omega] at value
  refine ⟨p, le, ?_, iff.trans ⟨fun all => ⟨some, fun j _ => ?_⟩, fun safe j h => safe.2 j ?_⟩⟩
  · rw [quickMuldiv, leading, turns, if_neg (by omega)]
    exact value
  · by_cases bit : j < 32 - gglClz x
    · exact all j bit
    · have above (i : Nat) (h : 32 - gglClz x ≤ i) : x / 2 ^ i = 0 :=
        Nat.le_zero.mp (none ▸ Nat.div_le_div_left (Nat.pow_le_pow_right (by decide) h)
          (Nat.two_pow_pos _))
      rw [partialSum, above j (by omega), above (j + 1) (by omega), zero_mul, Nat.zero_mod,
        Nat.zero_mod, zero_mul]
      decide
  · have one : gglClz x ≠ 0 := by
      intro zero
      rw [zero, pow_zero, mul_one] at low
      omega
    omega

theorem quick_iff (sign : Bool) {p Q : Nat} (le : p ≤ Q) (fits : Q < 2 ^ 31) :
    (if sign then wrap32 (-p) else (p : Int)) = saturate (if sign then -(Q : Int) else Q) ↔
      p = Q := by
  have word (z : Int) (low : -2 ^ 31 ≤ z) (high : z < 2 ^ 31) : saturate z = z := if_pos ⟨low, high⟩
  rw [apply_ite saturate, word Q (by omega) (by omega), word (-Q) (by omega) (by omega),
    wrap32_of_bounds (by omega) (by omega)]
  split_ifs <;> omega

theorem slow_iff (sign : Bool) (dword : d ≤ 2 ^ 31) (positive : 0 < d) :
    (if sign then wrap32 (-wrap32 (slowMuldiv x y d)) else wrap32 (slowMuldiv x y d)) =
      saturate (if sign then -((x * y / d : Nat) : Int) else (x * y / d : Nat)) ↔
    SlowSafe sign x y d := by
  have high : x * y / 2 ^ 32 < d ↔ x * y / d < 2 ^ 32 := by
    rw [Nat.div_lt_iff_lt_mul (by decide), Nat.div_lt_iff_lt_mul positive, mul_comm d]
  rw [slowMuldiv_eq dword, SlowSafe]
  have beyond : d ≤ x * y / 2 ^ 32 ↔ 2 ^ 32 ≤ x * y / d := by omega
  simp only [high, beyond]
  clear high beyond dword positive
  generalize x * y / d = Q
  generalize x * y = P
  rw [apply_ite saturate]
  have word (z : Int) (low : -2 ^ 31 ≤ z) (high : z < 2 ^ 31) : wrap32 z = z ∧ saturate z = z :=
    ⟨wrap32_of_bounds low high, if_pos ⟨low, high⟩⟩
  have above (h : 2 ^ 31 ≤ Q) : saturate Q = 2 ^ 31 - 1 := by
    unfold saturate
    split_ifs <;> omega
  have below (h : 2 ^ 31 < Q) : saturate (-Q) = -(2 ^ 31 - 1) := by
    unfold saturate
    split_ifs <;> omega
  have largest : wrap32 (2 ^ 31 - 1 : Nat) = 2 ^ 31 - 1 ∧ wrap32 (-(2 ^ 31 - 1)) = -(2 ^ 31 - 1) :=
    ⟨by decide, by decide⟩
  rcases lt_or_ge Q (2 ^ 31) with fits | wide
  · have kept : ¬(2 ^ 32 ≤ Q ∨ P < 2 ^ 32 ∧ 2 ^ 31 ≤ Q) := by omega
    rw [if_neg kept, (word Q (by omega) (by omega)).1, (word (-Q) (by omega) (by omega)).1]
    refine iff_of_true ?_ fun h => absurd h (by omega)
    split_ifs
    · exact ((word (-Q) (by omega) (by omega)).2).symm
    · exact ((word Q (by omega) (by omega)).2).symm
  · by_cases noticed : 2 ^ 32 ≤ Q ∨ P < 2 ^ 32 ∧ 2 ^ 31 ≤ Q
    · rw [if_pos noticed, largest.1, largest.2, above wide]
      by_cases least : sign = true ∧ Q = 2 ^ 31
      · obtain ⟨rfl, rfl⟩ := least
        refine iff_of_false (by decide) fun safe => safe le_rfl (by decide) ?_
        exact iff_of_true (noticed.resolve_left (by decide)).1 ⟨rfl, rfl⟩
      · refine iff_of_true ?_ fun _ h same => ?_
        · split_ifs with negative
          · have odd : Q ≠ 2 ^ 31 := fun h => least ⟨negative, h⟩
            rw [below (by omega)]
          · rfl
        · exact least (same.mp (noticed.resolve_left (not_le.mpr h)).1)
    · rw [if_neg noticed, above wide]
      have turned : wrap32 Q = Q - 2 ^ 32 := by
        unfold wrap32
        rw [Int.bmod_def]
        split_ifs <;> omega
      rw [turned]
      by_cases least : sign = true ∧ Q = 2 ^ 31
      · obtain ⟨rfl, rfl⟩ := least
        refine iff_of_true (by decide) fun _ _ same => ?_
        exact noticed (Or.inr ⟨same.mpr ⟨rfl, rfl⟩, le_rfl⟩)
      · have fits : Q < 2 ^ 32 := by omega
        refine iff_of_false ?_ fun safe => safe wide fits ?_
        · split_ifs with negative
          · have odd : Q ≠ 2 ^ 31 := fun h => least ⟨negative, h⟩
            rw [below (by omega), (word (-(Q - 2 ^ 32)) (by omega) (by omega)).1]
            omega
          · omega
        · exact iff_of_false (fun h => noticed (Or.inr ⟨h, wide⟩)) least

end Ordinary

/-- `gglMulDivi` ends with the saturated quotient exactly for factors other than the least word for
which the division it chooses is safe. -/
theorem gglMulDivi_mulDivides_iff (alow : -2 ^ 31 ≤ a) (ahigh : a < 2 ^ 31) (blow : -2 ^ 31 ≤ b)
    (bhigh : b < 2 ^ 31) (clow : -2 ^ 31 ≤ c) (chigh : c < 2 ^ 31) (nonzero : c ≠ 0) :
    MulDivides a b c ↔ a ≠ -2 ^ 31 ∧ b ≠ -2 ^ 31 ∧
      let x := max a.natAbs b.natAbs
      let y := min a.natAbs b.natAbs
      if y ≤ c.natAbs ∧ c ≠ -2 ^ 31 then QuickSafe x y c.natAbs
      else SlowSafe (negative a b c) x y c.natAbs := by
  by_cases aleast : a = -2 ^ 31
  · subst aleast
    exact iff_of_false (not_mulDivides_least blow bhigh clow chigh nonzero) fun h => h.1 rfl
  by_cases bleast : b = -2 ^ 31
  · subst bleast
    rw [← mulDivides_comm]
    exact iff_of_false (not_mulDivides_least alow ahigh clow chigh nonzero) fun h => h.2.1 rfl
  rw [and_iff_right aleast, and_iff_right bleast]
  have ordinary (n : Int) (low : -2 ^ 31 ≤ n) (high : n < 2 ^ 31) (least : n ≠ -2 ^ 31) :
      magnitude n = n.natAbs := by
    rw [(magnitude_eq low high).1]
    exact wrap32_of_bounds (by omega) (by omega)
  have product : a.natAbs * b.natAbs = max a.natAbs b.natAbs * min a.natAbs b.natAbs := by
    rcases Nat.le_total a.natAbs b.natAbs with h | h
    · rw [max_eq_right h, min_eq_left h, mul_comm]
    · rw [max_eq_left h, min_eq_right h]
  have large : larger a b = (max a.natAbs b.natAbs : Nat) := by
    rw [larger, ordinary a alow ahigh aleast, ordinary b blow bhigh bleast, Nat.cast_max]
  have small : smaller a b = (min a.natAbs b.natAbs : Nat) := by
    rw [smaller, ordinary a alow ahigh aleast, ordinary b blow bhigh bleast, Nat.cast_min]
  have xword : max a.natAbs b.natAbs < 2 ^ 31 := by omega
  have yword : min a.natAbs b.natAbs < 2 ^ 31 := by omega
  have counts : MulDivides a b c ↔ (smaller a b ≤ magnitude c →
      turns (32 - clz32 (larger a b)) = 32 - clz32 (larger a b)) ∧
      gglMulDivi a b c = saturate (Int.tdiv (a * b) c) := ⟨fun h => ⟨h.1, h.2⟩, fun h => ⟨h.1, h.2⟩⟩
  rw [counts, quotient_signed, gglMulDivi, product, large, small]
  generalize max a.natAbs b.natAbs = x at *
  generalize min a.natAbs b.natAbs = y at *
  dsimp only
  by_cases quick : y ≤ c.natAbs ∧ c ≠ -2 ^ 31
  · have divisor := ordinary c clow chigh quick.2
    have leading : clz32 (x : Int) = gglClz x := by
      rw [clz32, if_neg (by omega), Int.toNat_natCast]
    have chosen : (y : Int) ≤ magnitude c := by omega
    rw [if_pos quick, if_pos chosen, forall_prop_of_true chosen, leading, divisor]
    by_cases none : x = 0
    · subst none
      exact iff_of_false (fun h => absurd h.1 (by decide)) fun h => h.1 rfl
    · have few : gglClz x < 32 := by
        unfold gglClz
        rw [if_neg none]
        omega
      obtain ⟨p, le, value, iff⟩ := quickMuldiv_spec (x := x) quick.1 xword (by omega) (by omega) none
      have fits : x * y / c.natAbs ≤ x := Nat.div_le_of_le_mul (by
        rw [mul_comm c.natAbs]
        exact Nat.mul_le_mul_left x quick.1)
      rw [turns, if_neg (by omega), and_iff_right rfl, value, ← iff]
      exact quick_iff _ le (fits.trans_lt xword)
  · have unsigned (n : Nat) (word : n < 2 ^ 31) : uint32 n = n := by
      unfold uint32
      omega
    have chosen : ¬(y : Int) ≤ magnitude c ∧ uint32 (magnitude c) = c.natAbs := by
      by_cases least : c = -2 ^ 31
      · subst least
        rw [magnitude_least]
        exact ⟨by omega, by decide⟩
      · rw [ordinary c clow chigh least, unsigned c.natAbs (by omega)]
        exact ⟨by omega, rfl⟩
    rw [if_neg quick, if_neg chosen.1, chosen.2, unsigned x xword, unsigned y yword,
      and_iff_right fun h => absurd h chosen.1]
    exact slow_iff _ (by omega) (by omega)

theorem gglMulDivi_negative : MulDivides (2 ^ 28) (-3) 7 :=
  (gglMulDivi_mulDivides_iff (by decide) (by decide) (by decide) (by decide) (by decide) (by decide)
    (by decide)).mpr ⟨by decide, by decide, (if_pos (by decide)).mpr (by decide)⟩

/-- A quotient above the signed words that the slow division does not notice. -/
theorem gglMulDivi_unsaturated : ¬MulDivides (2 ^ 31 - 1) (2 ^ 31 - 1) (2 ^ 30) :=
  fun h => absurd h.quotient (by decide)

end RabbitRender.Raster.ScaledQuotients
