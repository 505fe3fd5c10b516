/- RabbitRender/Lib/Halving
   layer: library
   digest: Extents that are halved down to one. -/

import Mathlib.Algebra.Group.Nat.Defs
import Mathlib.Data.Nat.Log
import Mathlib.Order.MinMax

set_option autoImplicit false

namespace RabbitRender.Lib.Halving

/-- An extent after `l` halvings, which stop at one. -/
def shrink (extent l : Nat) : Nat := max 1 (extent / 2 ^ l)

theorem shrink_pos (extent l : Nat) : 0 < shrink extent l := Nat.lt_of_lt_of_le Nat.one_pos (le_max_left _ _)

variable {extent : Nat}

theorem shrink_zero (positive : 0 < extent) : shrink extent 0 = extent := by
  rw [shrink, Nat.pow_zero, Nat.div_one]
  exact max_eq_right positive

theorem shrink_one_left (l : Nat) : shrink 1 l = 1 := max_eq_left (Nat.div_le_self 1 _)

theorem shrink_shrink (extent k l : Nat) : shrink (shrink extent k) l = shrink extent (k + l) := by
  have twice : extent / 2 ^ (k + l) = extent / 2 ^ k / 2 ^ l := by
    rw [Nat.pow_add, Nat.div_div_eq_div_mul]
  rcases Nat.eq_zero_or_pos (extent / 2 ^ k) with none | some
  · have first : shrink extent k = 1 := by rw [shrink, none, max_eq_left (Nat.zero_le 1)]
    rw [first, shrink_one_left, shrink, twice, none, Nat.zero_div, max_eq_left (Nat.zero_le 1)]
  · have first : shrink extent k = extent / 2 ^ k := max_eq_right some
    rw [first, shrink, shrink, twice]

theorem shrink_max (w h l : Nat) : shrink (max w h) l = max (shrink w l) (shrink h l) := by
  have monotone : Monotone fun extent => shrink extent l :=
    fun _ _ le => max_le_max le_rfl (Nat.div_le_div_right le)
  exact monotone.map_max

theorem log2_shrink (positive : 0 < extent) (l : Nat) :
    Nat.log2 (shrink extent l) = Nat.log2 extent - l := by
  simp only [Nat.log2_eq_log_two]
  rcases Nat.eq_zero_or_pos (extent / 2 ^ l) with none | some
  · have first : shrink extent l = 1 := by rw [shrink, none, max_eq_left (Nat.zero_le 1)]
    have below : extent < 2 ^ l := (Nat.div_eq_zero_iff_lt (Nat.two_pow_pos l)).mp none
    have small := (Nat.log_lt_iff_lt_pow Nat.one_lt_two positive.ne').mpr below
    rw [first, Nat.log_one_right]
    omega
  · have first : shrink extent l = extent / 2 ^ l := max_eq_right some
    rw [first, Nat.log_div_base_pow]

theorem shrink_eq_one_iff (positive : 0 < extent) (l : Nat) :
    shrink extent l = 1 ↔ Nat.log2 extent ≤ l := by
  constructor
  · intro one
    have taken := log2_shrink positive l
    rw [one, Nat.log2_eq_log_two, Nat.log_one_right] at taken
    omega
  · intro reached
    have taken := log2_shrink positive l
    rw [Nat.sub_eq_zero_of_le reached, Nat.log2_eq_log_two] at taken
    have small := Nat.log_eq_zero_iff.mp taken
    have some := shrink_pos extent l
    omega

end RabbitRender.Lib.Halving
