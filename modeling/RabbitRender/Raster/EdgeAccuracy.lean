/- RabbitRender/Raster/EdgeAccuracy
   layer: theorem
   source: libpixelflinger/trap.cpp
   digest: An edge is stepped within an eighth of a pixel of its line, in 32 bits, exactly if its
     way to the first scanline and its position after the last one fit. -/

import RabbitRender.Raster.Edges
import Mathlib.Algebra.Order.Field.Rat
import Mathlib.Tactic.FieldSimp
import Mathlib.Tactic.NormNum

set_option autoImplicit false

namespace RabbitRender.Raster.EdgeAccuracy

open Fixed Raster.Trap Raster.Edges

def Word (x : Int) : Prop := -2 ^ 31 ≤ x ∧ x < 2 ^ 31

instance (x : Int) : Decidable (Word x) := inferInstanceAs (Decidable (_ ∧ _))

/-- Where the line through two vertices, their rows made odd, meets the centre of a scanline, in
16.16. -/
def line (p q : Vertex) (y : Int) : ℚ :=
  (p.x + (q.x - p.x) * skipped p y / ((oddRow q.y - oddRow p.y : Int) : ℚ)) * 2 ^ 12

/-- The record of the edge from `p` down to `q` is set up and stepped in 32 bits, and its position
on every scanline, less the half that rounds it, is nearer than an eighth of a pixel to the
line. -/
structure Accurate (p q : Vertex) (e : Edge) : Prop where
  way : Word (e.xIncr * (e.yTop - oddRow p.y))
  start : Word (p.x <<< (12 : Nat) + 2 ^ 15 + (e.xIncr * (e.yTop - oddRow p.y)) >>> (4 : Nat))
  step (y : Int) (after : e.yTop / 16 ≤ y) (before : y ≤ e.yBot / 16) :
    Word (crossing e y + e.xIncr)
  sweep (s t : Int) (after : e.yTop / 16 ≤ s) (rows : s < t) (before : t ≤ e.yBot / 16 + 1) :
    Word (e.xIncr * (t - s)) ∧ Word (crossing e s + e.xIncr * (t - s))
  near (y : Int) (after : e.yTop / 16 ≤ y) (before : y ≤ e.yBot / 16) :
    |(crossing e y - 2 ^ 15 : ℚ) - line p q y| < 2 ^ 13

def increment (p q : Vertex) : Int := ((q.x - p.x) * 2 ^ 16).tdiv (oddRow q.y - oddRow p.y)

def WayFits (scissor : Scissor) (p q : Vertex) : Prop :=
  Word (increment p q * skipped p (top scissor p))

def EndFits (scissor : Scissor) (p q : Vertex) : Prop :=
  Word (p.x * 2 ^ 12 + 2 ^ 15 + increment p q * skipped p (bottom scissor q) / 16)

section Edge

variable {scissor : Scissor} {p q : Vertex}

variable {y : Int}

/-- A truncated quotient is less than one off, which is less than a sixteenth of a pixel at the
end of the longest edge. -/
theorem position_near (hp : InRange p) (hq : InRange q) (after : firstRow p ≤ y)
    (before : y < firstRow q) : |(position p q y - 2 ^ 15 : ℚ) - line p q y| < 2 ^ 13 := by
  obtain ⟨span, most⟩ : 0 < skipped p y ∧ skipped p y < oddRow q.y - oddRow p.y := by
    unfold firstRow skipped at *
    unfold oddRow at *
    omega
  have tall : oddRow q.y - oddRow p.y < 2 ^ 16 := by
    obtain ⟨_, _, _, _⟩ := hp
    obtain ⟨_, _, _, _⟩ := hq
    unfold oddRow
    omega
  have quotient := slope_eq hp hq (by omega)
  have division := Int.mul_tdiv_add_tmod ((q.x - p.x) * 2 ^ 16) (oddRow q.y - oddRow p.y)
  rw [← quotient] at division
  have restLow := Int.lt_tmod_of_pos ((q.x - p.x) * 2 ^ 16) (span.trans most)
  have restHigh := Int.tmod_lt_of_pos ((q.x - p.x) * 2 ^ 16) (span.trans most)
  unfold position line
  generalize oddRow q.y - oddRow p.y = dy at *
  generalize skipped p y = k at *
  generalize slope p q = s at *
  generalize ((q.x - p.x) * 2 ^ 16).tmod dy = rest at *
  have rounded : 16 * (s * k / 16) ≤ s * k ∧ s * k < 16 * (s * k / 16) + 16 := by omega
  generalize s * k / 16 = f at *
  have scaled : dy * (16 * f) ≤ dy * (s * k) ∧ dy * (s * k) ≤ dy * (16 * f + 16) :=
    ⟨mul_le_mul_of_nonneg_left rounded.1 (span.trans most).le,
      mul_le_mul_of_nonneg_left rounded.2.le (span.trans most).le⟩
  have way : (q.x - p.x) * 2 ^ 16 * k = dy * (s * k) + rest * k := by
    rw [← division]
    ring
  have above : rest * k ≤ dy * k := mul_le_mul_of_nonneg_right restHigh.le span.le
  have below : -dy * k ≤ rest * k := mul_le_mul_of_nonneg_right restLow.le span.le
  have long : dy * k ≤ dy * 2 ^ 16 :=
    mul_le_mul_of_nonneg_left (most.trans tall).le (span.trans most).le
  have bounds : -(2 ^ 17 * dy) < 16 * dy * f - (q.x - p.x) * 2 ^ 16 * k ∧
      16 * dy * f - (q.x - p.x) * 2 ^ 16 * k < 2 ^ 17 * dy := by
    constructor <;> linarith
  have positive : (0 : ℚ) < dy := by exact_mod_cast span.trans most
  have error : ((p.x * 2 ^ 12 + 2 ^ 15 + f : Int) - 2 ^ 15 : ℚ) -
      (p.x + (q.x - p.x) * k / dy) * 2 ^ 12 =
      (16 * dy * f - (q.x - p.x) * 2 ^ 16 * k : Int) / (16 * dy) := by
    push_cast
    field_simp
    ring
  rw [error, abs_lt, lt_div_iff₀ (by positivity), div_lt_iff₀ (by positivity)]
  have cast (a b : Int) (less : a < b) : (a : ℚ) < b := by exact_mod_cast less
  have low := cast _ _ bounds.1
  have high := cast _ _ bounds.2
  push_cast at low high ⊢
  constructor <;> linarith

theorem rows_inside (after : top scissor p ≤ y) (before : y < bottom scissor q) :
    firstRow p ≤ y ∧ y < firstRow q := by
  unfold top bottom at *
  omega

theorem down_of_rows (rows : top scissor p < bottom scissor q) :
    oddRow p.y < oddRow q.y := by
  obtain ⟨above, below⟩ := rows_inside le_rfl rows
  unfold firstRow at above below
  omega

theorem slope_eq_increment (hp : InRange p) (hq : InRange q)
    (rows : top scissor p < bottom scissor q) : slope p q = increment p q :=
  slope_eq hp hq (down_of_rows rows)

theorem word_position (hp : InRange p) (hq : InRange q) (after : top scissor p ≤ y)
    (before : y < bottom scissor q) : Word (position p q y) ∧ 2 ^ 15 ≤ position p q y := by
  obtain ⟨above, below⟩ := rows_inside after before
  obtain ⟨low, high⟩ := position_bounds hp hq above below
  obtain ⟨_, _, _, _⟩ := hp
  obtain ⟨_, _, _, _⟩ := hq
  exact ⟨⟨by omega, by omega⟩, by omega⟩

theorem word_steps (hp : InRange p) (hq : InRange q) {s t : Int}
    (after : top scissor p ≤ s) (more : s < t) (before : t ≤ bottom scissor q) :
    Word (slope p q * (t - s)) := by
  have rows : top scissor p < bottom scissor q := by omega
  have down := down_of_rows rows
  have first := (rows_inside after (show s < bottom scissor q by omega)).1
  have last := (rows_inside (show top scissor p ≤ t - 1 by omega)
    (show t - 1 < bottom scissor q by omega)).2
  have quotient := slope_eq hp hq down
  have length : 16 * (t - 1 - s) < oddRow q.y - oddRow p.y := by
    unfold firstRow oddRow at *
    omega
  obtain ⟨_, _, _, _⟩ := hp
  obtain ⟨_, _, _, _⟩ := hq
  by_cases single : t = s + 1
  · obtain ⟨low, high⟩ := tdiv_mul_bounds ((q.x - p.x) * 2 ^ 16) (d := oddRow q.y - oddRow p.y) (t := 2) (by omega)
      (by decide) (show 2 ≤ oddRow q.y - oddRow p.y by unfold oddRow at *; omega)
    rw [← quotient] at low high
    rw [single, add_sub_cancel_left, mul_one]
    constructor <;> omega
  · obtain ⟨low, high⟩ := tdiv_mul_bounds ((q.x - p.x) * 2 ^ 16) (d := oddRow q.y - oddRow p.y)
      (t := 16 * (t - 1 - s)) (by omega) (by omega) length.le
    obtain ⟨low', high'⟩ := tdiv_mul_bounds ((q.x - p.x) * 2 ^ 16)
      (d := oddRow q.y - oddRow p.y) (t := 16) (by omega) (by decide) (by omega)
    rw [← quotient] at low high low' high'
    have split : slope p q * (t - s) = slope p q * (t - 1 - s) + slope p q := by ring
    have product : slope p q * (16 * (t - 1 - s)) = 16 * (slope p q * (t - 1 - s)) := by ring
    rw [product] at low high
    rw [split]
    constructor <;> omega

/-- The edge between two vertices, given in either order, is stepped accurately and in 32 bits
exactly if its way to the first scanline and its position below the last one fit. -/
theorem edge_accurate_iff (scissor : Scissor) (hp : InRange p) (hq : InRange q) (down : p.y ≤ q.y)
    {e : Edge}
    (setup : edgeSetup p q (scissor.top * triOne + triHalf) (scissor.bottom * triOne - triHalf) =
        some e ∨
      edgeSetup q p (scissor.top * triOne + triHalf) (scissor.bottom * triOne - triHalf) =
        some e) :
    Accurate p q e ↔ WayFits scissor p q ∧ EndFits scissor p q := by
  have setup' : edgeSetup p q (scissor.top * triOne + triHalf)
      (scissor.bottom * triOne - triHalf) = some e := by
    rcases setup with given | given
    · exact given
    · rwa [edgeSetup_comm]
  rw [edgeSetup_eq scissor (by unfold Down oddRow; omega)] at setup'
  obtain ⟨rows, same⟩ := Option.ite_none_right_eq_some.mp setup'
  obtain rfl := Option.some.inj same
  have increments := slope_eq_increment hp hq rows
  have first : (16 * top scissor p + 8) / 16 = top scissor p := by omega
  have last : (16 * bottom scissor q - 8) / 16 = bottom scissor q - 1 := by omega
  have ended : EndFits scissor p q ↔ Word (position p q (bottom scissor q)) := by
    rw [EndFits, position, increments]
  have fits (way : WayFits scissor p q) : Fits scissor p q := by
    intro _
    rw [increments]
    exact way
  have at' (way : WayFits scissor p q) {y : Int} (after : top scissor p ≤ y)
      (before : y < bottom scissor q) : crossing (record scissor p q) y = position p q y :=
    crossing_record hp hq (fits way) after before
  rw [ended]
  constructor
  · intro accurate
    have way : WayFits scissor p q := by
      have product := accurate.way
      rw [record_yTop] at product
      rwa [WayFits, ← increments]
    refine ⟨way, ?_⟩
    have step := (accurate.step (bottom scissor q - 1) (by rw [record_yTop]; omega)
      (by rw [record_yBot]; omega))
    rw [at' way (by omega) (by omega)] at step
    have next := position_add p q (bottom scissor q - 1) 1
    rw [sub_add_cancel, mul_one] at next
    rwa [next]
  · rintro ⟨way, stop⟩
    have below {y : Int} (after : top scissor p ≤ y) (before : y ≤ bottom scissor q) :
        Word (position p q y) := by
      rcases before.lt_or_eq with inside | rfl
      · exact (word_position hp hq after inside).1
      · exact stop
    constructor
    · rw [record_yTop]
      rw [WayFits, ← increments] at way
      exact way
    · have start : p.x <<< (12 : Nat) + 2 ^ 15 +
          (slope p q * skipped p (top scissor p)) >>> (4 : Nat) = position p q (top scissor p) := by
        rw [Int.shiftLeft_eq, Int.shiftRight_eq_div_pow]
        rfl
      exact start ▸ below le_rfl rows.le
    · intro y after before
      rw [record_yTop, first] at after
      rw [record_yBot, last] at before
      rw [at' way after (by omega)]
      have next := position_add p q y 1
      rw [mul_one] at next
      exact next ▸ below (by omega) (by omega)
    · intro s t after more before
      rw [record_yTop, first] at after
      rw [record_yBot, last] at before
      refine ⟨word_steps hp hq after more (by omega), ?_⟩
      rw [at' way after (by omega)]
      have next := position_add p q s (t - s)
      rw [add_sub_cancel] at next
      exact next ▸ below (by omega) (by omega)
    · intro y after before
      rw [record_yTop, first] at after
      rw [record_yBot, last] at before
      obtain ⟨above, under⟩ := rows_inside (p := p) (q := q) after (by omega)
      rw [at' way after (by omega)]
      exact position_near hp hq above under

end Edge

/-- An edge of a quarter of the width. -/
theorem edge_accurate_quarter :
    Accurate ⟨0, 9⟩ ⟨16384, 25⟩ ⟨60 * 2 ^ 20 + 2 ^ 15, 1024 * 2 ^ 16, 24, 24⟩ :=
  (edge_accurate_iff ⟨0, 0, 4096, 4096⟩ (by decide) (by decide) (by decide)
    (.inl (by decide +kernel))).mpr (by unfold WayFits EndFits; decide +kernel)

/-- An edge over the whole width, in one pixel of height: on its only scanline it is more than
4000 pixels off. -/
theorem edge_wraps :
    ∃ e, edgeSetup ⟨0, 9⟩ ⟨65535, 25⟩ (0 * triOne + triHalf) (4096 * triOne - triHalf) = some e ∧
      2 ^ 16 * 4000 < |(crossing e 1 - 2 ^ 15 : ℚ) - line ⟨0, 9⟩ ⟨65535, 25⟩ 1| ∧
      ¬Accurate ⟨0, 9⟩ ⟨65535, 25⟩ e := by
  refine ⟨⟨-16748288, 268431360, 24, 24⟩, by decide +kernel, by decide +kernel, fun accurate => ?_⟩
  have way := accurate.way
  revert way
  decide +kernel

end RabbitRender.Raster.EdgeAccuracy
