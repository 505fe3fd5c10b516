/- RabbitRender/Raster/Clipping
   layer: proof
   source: libpixelflinger/trap.cpp
   digest: A scissor leaves of a triangle the pixels inside it, when its edges can be stepped to
     their first scanline in 32 bits and its lower edges keep the order they start in. -/

import RabbitRender.Raster.Sweep

set_option autoImplicit false

namespace RabbitRender.Raster.Clipping

open Raster.Edges Raster.Sweep Raster.Trap

def Inside (scissor : Scissor) (x y : Int) : Prop :=
  (scissor.left ≤ x ∧ x < scissor.right) ∧ scissor.top ≤ y ∧ y < scissor.bottom

structure Covers (scissor : Scissor) (v : Vertex) : Prop where
  left : scissor.left * 16 ≤ v.x
  right : v.x ≤ scissor.right * 16
  top : scissor.top * 16 ≤ v.y
  bottom : v.y ≤ scissor.bottom * 16

instance (scissor : Scissor) (v : Vertex) : Decidable (Covers scissor v) :=
  decidable_of_iff (scissor.left * 16 ≤ v.x ∧ v.x ≤ scissor.right * 16 ∧ scissor.top * 16 ≤ v.y ∧
      v.y ≤ scissor.bottom * 16)
    ⟨fun ⟨left, right, top, bottom⟩ => ⟨left, right, top, bottom⟩,
      fun ⟨left, right, top, bottom⟩ => ⟨left, right, top, bottom⟩⟩

/-- The way of every edge of the triangle to its first scanline in the scissor fits 32 bits. -/
def EdgesFit (scissor : Scissor) (v0 v1 v2 : Vertex) : Prop :=
  ∀ p ∈ [v0, v1, v2], ∀ q ∈ [v0, v1, v2], Down p q → Fits scissor p q

/-- The edges that meet at the lowest vertex have the same order at the first scanline they share
and at the first one of them in the scissor. -/
def KeepsOrder (scissor : Scissor) (v0 v1 v2 : Vertex) : Prop :=
  ∀ a m b, Listed a m b v0 v1 v2 → Down a m → Down m b → top scissor m < bottom scissor b →
    (LeftOf a b m b (top scissor m) ↔ LeftOf a b m b (firstRow m))

variable {y x : Int} {cover scissor : Scissor} {p q : Vertex}

theorem leftOf_iff_slope {a m b : Vertex} (below : firstRow a ≤ y) :
    LeftOf a b a m y ↔ slope a b ≤ slope a m := by
  have further : 0 ≤ skipped a y := by
    unfold firstRow at below
    unfold skipped
    omega
  have mono (s t : Int) (ordered : s ≤ t) : s * skipped a y / 16 ≤ t * skipped a y / 16 :=
    Int.ediv_le_ediv (by decide) (mul_le_mul_of_nonneg_right ordered further)
  unfold LeftOf position
  constructor
  · intro before
    by_contra steeper
    have := mono (slope a m) (slope a b) (by omega)
    omega
  · intro ordered
    have := mono (slope a b) (slope a m) ordered
    omega

theorem covers_rows {v : Vertex} (covers : Covers cover v) :
    top cover v = firstRow v ∧ bottom cover v = firstRow v := by
  obtain ⟨-, -, above, below⟩ := covers
  unfold top bottom firstRow oddRow
  omega

theorem fits_of_rows (fits : Fits scissor p q) (covers : Covers cover p)
    (crossed : top scissor p < bottom scissor q) : Fits cover p q := by
  intro _
  obtain ⟨low, high⟩ := fits crossed
  have first := (covers_rows covers).1
  have start : 0 ≤ skipped p (firstRow p) := by
    unfold firstRow skipped
    omega
  have shorter : skipped p (firstRow p) ≤ skipped p (top scissor p) := by
    unfold skipped top
    omega
  rw [first]
  rcases le_total 0 (slope p q) with right | left
  · have := mul_nonneg right start
    have := mul_le_mul_of_nonneg_left shorter right
    omega
  · have := mul_nonpos_of_nonpos_of_nonneg left start
    have := mul_le_mul_of_nonpos_left shorter left
    omega

/-- The pixels of scanline `y` between two lines that are sorted at scanline `s`. -/
def BetweenLines (p q p' q' : Vertex) (s x y : Int) : Prop :=
  if LeftOf p q p' q' s then pixel (position p q y) ≤ x ∧ x < pixel (position p' q' y)
  else pixel (position p' q' y) ≤ x ∧ x < pixel (position p q y)

theorem betweenLines_comm (p q p' q' : Vertex) (s x y : Int) :
    BetweenLines p q p' q' s x y ↔ BetweenLines p' q' p q s x y := by
  unfold BetweenLines
  by_cases left : LeftOf p q p' q' s
  · by_cases left' : LeftOf p' q' p q s
    · have same : position p q s = position p' q' s ∧ slope p q = slope p' q' := by
        unfold LeftOf at left left'
        omega
      have here := position_add p q s (y - s)
      rw [same.1, same.2, ← position_add, add_sub_cancel] at here
      simp [left, left', here]
    · rw [if_pos left, if_neg left']
  · have left' : LeftOf p' q' p q s := by
      unfold LeftOf at left ⊢
      omega
    rw [if_neg left, if_pos left']

def IsLine (scissor : Scissor) (p q : Vertex) (first last : Int) : Prop :=
  ∀ y, first ≤ y → y < last → crossing (record scissor p q) y = position p q y

theorem between_iff {p' q' : Vertex} {first last s : Int} (line : IsLine scissor p q first last)
    (line' : IsLine scissor p' q' first last) (hs : first ≤ s) (hsy : s ≤ y) (hy : y < last) :
    Between (record scissor p q) (record scissor p' q') s x y ↔ BetweenLines p q p' q' s x y := by
  have before : Before (record scissor p q) (record scissor p' q') s ↔ LeftOf p q p' q' s := by
    unfold Before
    rw [line s hs (hsy.trans_lt hy), line' s hs (hsy.trans_lt hy)]
    rfl
  unfold Between FromTo BetweenLines
  rw [line y (hs.trans hsy) hy, line' y (hs.trans hsy) hy, if_congr before rfl rfl]

theorem betweenLines_inside {p' q' : Vertex} {s : Int}
    (columns : scissor.left ≤ pixel (position p q y) ∧ pixel (position p q y) ≤ scissor.right)
    (columns' : scissor.left ≤ pixel (position p' q' y) ∧ pixel (position p' q' y) ≤ scissor.right)
    (between : BetweenLines p q p' q' s x y) : scissor.left ≤ x ∧ x < scissor.right := by
  unfold BetweenLines at between
  split_ifs at between
  · omega
  · omega

theorem position_inside (hp : InRange p) (hq : InRange q) (coversP : Covers scissor p)
    (coversQ : Covers scissor q) (after : firstRow p ≤ y) (before : y < firstRow q) :
    scissor.left ≤ pixel (position p q y) ∧ pixel (position p q y) ≤ scissor.right := by
  obtain ⟨low, high⟩ := position_bounds hp hq after before
  obtain ⟨leftP, rightP, -, -⟩ := coversP
  obtain ⟨leftQ, rightQ, -, -⟩ := coversQ
  rw [pixel, Int.shiftRight_eq_div_pow]
  omega

theorem sweep_iff {p1 q1 p2 q2 : Vertex} (first : top cover p = firstRow p)
    (last : bottom cover q = firstRow q)
    (here1 : IsLine scissor p1 q1 (top scissor p) (bottom scissor q))
    (here2 : IsLine scissor p2 q2 (top scissor p) (bottom scissor q))
    (there1 : top scissor p < bottom scissor q → IsLine cover p1 q1 (firstRow p) (firstRow q))
    (there2 : top scissor p < bottom scissor q → IsLine cover p2 q2 (firstRow p) (firstRow q))
    (order : top scissor p < bottom scissor q →
      (LeftOf p1 q1 p2 q2 (top scissor p) ↔ LeftOf p1 q1 p2 q2 (firstRow p)))
    (inside : firstRow p ≤ y → y < firstRow q → BetweenLines p1 q1 p2 q2 (firstRow p) x y →
      cover.left ≤ x ∧ x < cover.right) :
    (top scissor p ≤ y ∧ y < bottom scissor q ∧
        Between (record scissor p1 q1) (record scissor p2 q2) (top scissor p) x y) ∧
        scissor.left ≤ x ∧ x < scissor.right ↔
      ((top cover p ≤ y ∧ y < bottom cover q ∧
        Between (record cover p1 q1) (record cover p2 q2) (top cover p) x y) ∧
        cover.left ≤ x ∧ x < cover.right) ∧ Inside scissor x y := by
  rw [first, last]
  have rows : top scissor p ≤ y ∧ y < bottom scissor q ↔
      (firstRow p ≤ y ∧ y < firstRow q) ∧ scissor.top ≤ y ∧ y < scissor.bottom := by
    unfold top bottom
    omega
  have same (after : top scissor p ≤ y) (before : y < bottom scissor q) :
      Between (record scissor p1 q1) (record scissor p2 q2) (top scissor p) x y ↔
        Between (record cover p1 q1) (record cover p2 q2) (firstRow p) x y := by
    have crossed := after.trans_lt before
    obtain ⟨⟨after', before'⟩, -⟩ := rows.mp ⟨after, before⟩
    rw [between_iff here1 here2 le_rfl after before,
      between_iff (there1 crossed) (there2 crossed) le_rfl after' before']
    unfold BetweenLines
    rw [if_congr (order crossed) rfl rfl]
  unfold Inside
  constructor
  · rintro ⟨⟨after, before, between⟩, columns⟩
    obtain ⟨⟨after', before'⟩, inRows⟩ := rows.mp ⟨after, before⟩
    have crossed := after.trans_lt before
    have there := (same after before).mp between
    have lines := (between_iff (there1 crossed) (there2 crossed) le_rfl after' before').mp there
    exact ⟨⟨⟨after', before', there⟩, inside after' before' lines⟩, columns, inRows⟩
  · rintro ⟨⟨⟨after, before, between⟩, -⟩, columns, inRows⟩
    obtain ⟨after', before'⟩ := rows.mpr ⟨⟨after, before⟩, inRows⟩
    exact ⟨⟨after', before', (same after' before').mpr between⟩, columns⟩

theorem isLine_of_fits (hp : InRange p) (hq : InRange q) (fits : Fits scissor p q)
    (coversP : Covers cover p) (coversQ : Covers cover q) :
    IsLine scissor p q (top scissor p) (bottom scissor q) ∧
      (top scissor p < bottom scissor q → IsLine cover p q (firstRow p) (firstRow q)) := by
  refine ⟨fun y after before => crossing_record hp hq fits after before,
    fun crossed y after before => ?_⟩
  refine crossing_record hp hq (fits_of_rows fits coversP crossed) ?_ ?_
  · rw [(covers_rows coversP).1]
    exact after
  · rw [(covers_rows coversQ).2]
    exact before

theorem IsLine.mono {first last first' last' : Int} (line : IsLine scissor p q first last)
    (hf : first ≤ first') (hl : last' ≤ last) : IsLine scissor p q first' last' :=
  fun y after before => line y (hf.trans after) (before.trans_le hl)

end RabbitRender.Raster.Clipping
