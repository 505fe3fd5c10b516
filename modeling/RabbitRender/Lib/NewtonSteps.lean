/- RabbitRender/Lib/NewtonSteps
   layer: library
   source: none
   digest: Newton's iteration for a reciprocal, in whole numbers with rounding down, and for an
     inverse square root, with an error for each rounding. -/

import Mathlib.Algebra.Order.Field.Basic
import Mathlib.Data.Int.Order.Basic
import Mathlib.Tactic.Linarith
import Mathlib.Tactic.Ring

set_option autoImplicit false

namespace RabbitRender.Lib.NewtonSteps

-- `r / S` approximates the reciprocal of `a / W`, so that `a * r` is near to `S * W`.
section Reciprocal

variable (S W a r : Nat)

/-- `r * (2 - a * r)` -/
def step : Nat := (2 * S - a * r / W) * r / S

variable {S W a r}

theorem step_le (word : 0 < W) :
    4 * S * (a * step S W a r) ≤ (2 * S + 1) ^ 2 * W := by
  set e := a * r / W with quotient
  have product : a * r < (e + 1) * W := by
    rw [quotient, Nat.mul_comm (_ + 1)]
    exact Nat.lt_mul_div_succ _ word
  have rounded : S * step S W a r ≤ (2 * S - e) * r := Nat.mul_div_le _ _
  have square : 4 * ((2 * S - e) * (e + 1)) ≤ (2 * S + 1) ^ 2 := by
    rcases Nat.le_total (2 * S) e with large | small
    · rw [Nat.sub_eq_zero_of_le large]
      simp
    · obtain ⟨d, whole⟩ := Nat.exists_eq_add_of_le small
      have rest : 2 * S - e = d := by omega
      have square := sq_nonneg ((d : Int) - (e + 1))
      rw [rest, whole]
      zify
      linarith
  calc 4 * S * (a * step S W a r) = 4 * a * (S * step S W a r) := by ring
    _ ≤ 4 * a * ((2 * S - e) * r) := Nat.mul_le_mul_left _ rounded
    _ = 4 * (2 * S - e) * (a * r) := by ring
    _ ≤ 4 * (2 * S - e) * ((e + 1) * W) := Nat.mul_le_mul_left _ product.le
    _ = 4 * ((2 * S - e) * (e + 1)) * W := by ring
    _ ≤ (2 * S + 1) ^ 2 * W := Nat.mul_le_mul_right _ square

theorem le_step (scale : 0 < S) (small : a * r ≤ 2 * S * W) :
    (S * W : Int) * (S * W - a * step S W a r) ≤ (S * W - a * r) ^ 2 + S * W * a := by
  set e := a * r / W with quotient
  have twice : e ≤ 2 * S := by
    rw [quotient]
    exact Nat.div_le_of_le_mul (by rwa [Nat.mul_comm W])
  have below : e * W ≤ a * r := Nat.div_mul_le_self _ _
  have rounded : (2 * S - e) * r < S * (step S W a r + 1) := Nat.lt_mul_div_succ _ scale
  zify [twice] at rounded below
  have bound : ((2 * S - e) * r : Int) * W * a ≥ (2 * S * W - a * r) * (a * r) := by
    have factor : (2 * S * W - a * r : Int) ≤ (2 * S - e) * W := by linarith
    have power := mul_le_mul_of_nonneg_right factor
      (mul_nonneg (Int.natCast_nonneg a) (Int.natCast_nonneg r))
    linarith
  have scaled := mul_le_mul_of_nonneg_right (mul_le_mul_of_nonneg_right rounded.le
    (Int.natCast_nonneg W)) (Int.natCast_nonneg a)
  linarith

theorem step_lower (word : 0 < W) (small : a * r ≤ 2 * S * W) :
    ((S * W - a * r) ^ 2 - W * (a * r) : Int) ≤ S * W * (S * W - a * step S W a r) := by
  set e := a * r / W with quotient
  have twice : e ≤ 2 * S := by
    rw [quotient]
    exact Nat.div_le_of_le_mul (by rwa [Nat.mul_comm W])
  have product : a * r < (e + 1) * W := by
    rw [quotient, Nat.mul_comm (_ + 1)]
    exact Nat.lt_mul_div_succ _ word
  have rounded : S * step S W a r ≤ (2 * S - e) * r := Nat.mul_div_le _ _
  zify [twice] at rounded product
  have scaled := mul_le_mul_of_nonneg_right (mul_le_mul_of_nonneg_right rounded
    (Int.natCast_nonneg W)) (Int.natCast_nonneg a)
  have factor : ((2 * S - e) * W : Int) ≤ 2 * S * W - a * r + W := by linarith
  have power := mul_le_mul_of_nonneg_right factor
    (mul_nonneg (Int.natCast_nonneg a) (Int.natCast_nonneg r))
  linarith

end Reciprocal

-- With `t = κ * x` for `κ` the square root of the argument, a step is `t * (3 - t ^ 2) / 2`.
section InverseRoot

variable {K : Type*} [Field K] [LinearOrder K] [IsStrictOrderedRing K] {t κ δ η θ e h : K}

theorem inverse_root_near (near : |1 - t| ≤ e) (small : e ≤ 1) (scale : 0 ≤ κ) (drop : 0 ≤ δ)
    (unit : δ ≤ 1) (square : |η| ≤ h) (rounding : |θ| ≤ 1 / 2) :
    |1 - ((t - κ * δ) * (3 - t ^ 2 - η) / 2 + κ * θ)| ≤
      e ^ 2 * (3 + e) / 2 + (1 + e) * h / 2 + κ * (3 + 2 * e + h) / 2 := by
  obtain ⟨lowT, highT⟩ := abs_le.mp near
  obtain ⟨lowS, highS⟩ := abs_le.mp square
  have positive : 0 ≤ e := (abs_nonneg _).trans near
  have parts : 1 - ((t - κ * δ) * (3 - t ^ 2 - η) / 2 + κ * θ) =
      (1 - t) ^ 2 * (t + 2) / 2 + t * η / 2 + κ * (δ * (3 - t ^ 2 - η) / 2 - θ) := by ring
  have newton : |(1 - t) ^ 2 * (t + 2) / 2| ≤ e ^ 2 * (3 + e) / 2 := by
    have power : (1 - t) ^ 2 ≤ e ^ 2 := sq_le_sq' (by linarith) highT
    have factor : |t + 2| ≤ 3 + e := abs_le.mpr ⟨by linarith, by linarith⟩
    rw [abs_div, abs_mul, abs_of_nonneg (sq_nonneg (1 - t)), abs_of_pos (zero_lt_two' K)]
    exact div_le_div_of_nonneg_right (mul_le_mul power factor (abs_nonneg _) (sq_nonneg e))
      zero_le_two
  have wrong : |t * η / 2| ≤ (1 + e) * h / 2 := by
    have factor : |t| ≤ 1 + e := abs_le.mpr ⟨by linarith, by linarith⟩
    rw [abs_div, abs_mul, abs_of_pos (zero_lt_two' K)]
    exact div_le_div_of_nonneg_right (mul_le_mul factor square (abs_nonneg _) (by linarith))
      zero_le_two
  have rest : |3 - t ^ 2 - η| ≤ 2 + 2 * e + h := by
    have power : t ^ 2 ≤ (1 + e) ^ 2 := sq_le_sq' (by linarith) (by linarith)
    have least : (1 - e) ^ 2 ≤ t ^ 2 := sq_le_sq' (by linarith) (by linarith)
    have whole : e ^ 2 ≤ 1 := pow_le_one₀ positive small
    exact abs_le.mpr ⟨by linarith, by linarith [sq_nonneg e]⟩
  have dropped : |κ * (δ * (3 - t ^ 2 - η) / 2 - θ)| ≤ κ * (3 + 2 * e + h) / 2 := by
    have half : |δ * (3 - t ^ 2 - η) / 2| ≤ (2 + 2 * e + h) / 2 := by
      rw [abs_div, abs_mul, abs_of_nonneg drop, abs_of_pos (zero_lt_two' K)]
      have factor := mul_le_mul unit rest (abs_nonneg _) zero_le_one
      linarith
    have sum : |δ * (3 - t ^ 2 - η) / 2 - θ| ≤ (3 + 2 * e + h) / 2 :=
      (abs_sub _ _).trans (by linarith)
    rw [abs_mul, abs_of_nonneg scale, mul_div_assoc κ]
    exact mul_le_mul_of_nonneg_left sum scale
  rw [parts]
  exact (abs_add_three _ _ _).trans (add_le_add (add_le_add newton wrong) dropped)

end InverseRoot

end RabbitRender.Lib.NewtonSteps
