/- RabbitRender/Raster/Edges
   layer: proof
   source: libpixelflinger/trap.cpp
   digest: The scanlines an edge crosses, and where it crosses them. -/

import RabbitRender.Raster.Division
import RabbitRender.Raster.Trap

set_option autoImplicit false

namespace RabbitRender.Raster.Edges

open Fixed Raster.Division Raster.Trap

structure InRange (v : Vertex) : Prop where
  left : 0 ≤ v.x
  right : v.x < 2 ^ 16
  top : 0 ≤ v.y
  bottom : v.y < 2 ^ 16

instance (v : Vertex) : Decidable (InRange v) :=
  decidable_of_iff (0 ≤ v.x ∧ v.x < 2 ^ 16 ∧ 0 ≤ v.y ∧ v.y < 2 ^ 16)
    ⟨fun ⟨left, right, top, bottom⟩ => ⟨left, right, top, bottom⟩,
      fun ⟨left, right, top, bottom⟩ => ⟨left, right, top, bottom⟩⟩

def firstRow (v : Vertex) : Int := (oddRow v.y + 7) / 16

def skipped (v : Vertex) (y : Int) : Int := 16 * y + 8 - oddRow v.y

/-- The increment of the edge from `p` down to `q`. -/
def slope (p q : Vertex) : Int :=
  if q.x - p.x ≠ 0 then gglDivQ16 (q.x - p.x) (oddRow q.y - oddRow p.y) else 0

/-- The position of the edge from `p` down to `q` at a scanline, in unbounded arithmetic. -/
def position (p q : Vertex) (y : Int) : Int :=
  p.x * 2 ^ 12 + 2 ^ 15 + slope p q * skipped p y / 16

def pixel (x : Int) : Int := x >>> (16 : Nat)

/-- The scanlines of the scissor below `p`, from the first one on. -/
def top (scissor : Scissor) (p : Vertex) : Int := max scissor.top (firstRow p)

/-- The scanlines of the scissor above `q` are those before this one. -/
def bottom (scissor : Scissor) (q : Vertex) : Int := min scissor.bottom (firstRow q)

/-- Where the edge crosses scanlines of the scissor, its way to the first of them fits 32 bits. -/
def Fits (scissor : Scissor) (p q : Vertex) : Prop :=
  top scissor p < bottom scissor q →
    -2 ^ 31 ≤ slope p q * skipped p (top scissor p) ∧
      slope p q * skipped p (top scissor p) < 2 ^ 31

/-- `q` is not above `p`. -/
def Down (p q : Vertex) : Prop := oddRow p.y ≤ oddRow q.y

/-- The edge from `p` is to the left of the one from `p'` at a scanline, or will not be to the right
of it on the next. -/
def LeftOf (p q p' q' : Vertex) (y : Int) : Prop :=
  position p q y < position p' q' y ∨
    position p q y = position p' q' y ∧ slope p q ≤ slope p' q'

instance (p q p' q' : Vertex) (y : Int) : Decidable (LeftOf p q p' q' y) :=
  inferInstanceAs (Decidable (_ ∨ _))

theorem position_add (p q : Vertex) (y n : Int) :
    position p q (y + n) = position p q y + slope p q * n := by
  have : slope p q * skipped p (y + n) = slope p q * skipped p y + slope p q * n * 16 := by
    simp only [skipped]
    ring
  rw [position, position, this, Int.add_mul_ediv_right _ _ (by decide)]
  ring

variable {p q : Vertex}

theorem slope_eq (hp : InRange p) (hq : InRange q) (down : oddRow p.y < oddRow q.y) :
    slope p q = Int.tdiv ((q.x - p.x) * 2 ^ 16) (oddRow q.y - oddRow p.y) := by
  obtain ⟨_, _, _, _⟩ := hp
  obtain ⟨_, _, _, _⟩ := hq
  unfold slope oddRow at *
  split_ifs with nonzero
  · exact gglDivQ16_eq (by omega) (by omega) nonzero (by omega) (by omega)
  · rw [not_not.mp nonzero]
    simp

theorem tdiv_mul_bounds (n : Int) {d t : Int} (divisor : 0 < d) (after : 0 ≤ t) (before : t ≤ d) :
    min 0 n ≤ n.tdiv d * t ∧ n.tdiv d * t ≤ max 0 n := by
  have magnitude (m : Int) (positive : 0 ≤ m) : 0 ≤ m.tdiv d * t ∧ m.tdiv d * t ≤ m := by
    rw [Int.tdiv_eq_ediv_of_nonneg positive]
    have quotient : 0 ≤ m / d := Int.ediv_nonneg positive divisor.le
    refine ⟨mul_nonneg quotient after, ?_⟩
    calc m / d * t ≤ m / d * d := mul_le_mul_of_nonneg_left before quotient
      _ ≤ m := Int.ediv_mul_le m divisor.ne'
  rcases le_total 0 n with positive | negative
  · obtain ⟨low, high⟩ := magnitude n positive
    exact ⟨(min_le_left _ _).trans low, high.trans (le_max_right _ _)⟩
  · obtain ⟨low, high⟩ := magnitude (-n) (neg_nonneg.mpr negative)
    rw [Int.neg_tdiv, neg_mul] at low high
    omega

theorem position_bounds (hp : InRange p) (hq : InRange q) {y : Int} (after : firstRow p ≤ y)
    (before : y < firstRow q) :
    min p.x q.x * 2 ^ 12 + 2 ^ 15 ≤ position p q y ∧
      position p q y ≤ max p.x q.x * 2 ^ 12 + 2 ^ 15 := by
  have span : 0 < skipped p y ∧ skipped p y < oddRow q.y - oddRow p.y := by
    unfold firstRow skipped at *
    unfold oddRow at *
    omega
  obtain ⟨low, high⟩ := tdiv_mul_bounds ((q.x - p.x) * 2 ^ 16) (span.1.trans span.2) span.1.le
    span.2.le
  rw [← slope_eq hp hq (by omega)] at low high
  unfold position
  generalize slope p q * skipped p y = n at low high
  omega

theorem edgeSetup_comm (p q : Vertex) (ymin ymax : Int) :
    edgeSetup p q ymin ymax = edgeSetup q p ymin ymax := by
  rcases lt_trichotomy p.y q.y with above | level | below
  · simp [edgeSetup, above, above.not_gt]
  · simp [edgeSetup, level]
  · simp [edgeSetup, below, below.not_gt]

def record (scissor : Scissor) (p q : Vertex) : Edge :=
  ⟨wrap32 (wrap32 (p.x <<< (12 : Nat) + 2 ^ 15) +
      wrap32 (slope p q * skipped p (top scissor p)) >>> (4 : Nat)),
    slope p q, 16 * top scissor p + 8, 16 * bottom scissor q - 8⟩

@[simp] theorem record_yTop (scissor : Scissor) (p q : Vertex) :
    (record scissor p q).yTop = 16 * top scissor p + 8 := rfl

@[simp] theorem record_yBot (scissor : Scissor) (p q : Vertex) :
    (record scissor p q).yBot = 16 * bottom scissor q - 8 := rfl

theorem edgeSetup_eq (scissor : Scissor) (down : Down p q) :
    edgeSetup p q (scissor.top * triOne + triHalf) (scissor.bottom * triOne - triHalf) =
      if top scissor p < bottom scissor q then some (record scissor p q) else none := by
  by_cases level : oddRow p.y = oddRow q.y
  · have outside : ¬top scissor p < bottom scissor q := by
      simp only [top, bottom, firstRow, level]
      omega
    rw [if_neg outside, edgeSetup]
    split_ifs <;> simp [level]
  have below : ¬p.y > q.y := by
    unfold Down oddRow at *
    omega
  have first : (if oddRow p.y > scissor.top * triOne + triHalf then triSnapNextHalf (oddRow p.y)
      else scissor.top * triOne + triHalf) = 16 * top scissor p + 8 := by
    unfold top firstRow triSnapNextHalf triCeil triHalf triOne oddRow
    omega
  have last : (if oddRow q.y < scissor.bottom * triOne - triHalf then triSnapPrevHalf (oddRow q.y)
      else scissor.bottom * triOne - triHalf) = 16 * bottom scissor q - 8 := by
    unfold bottom firstRow triSnapPrevHalf triCeil triHalf triOne oddRow
    omega
  simp only [edgeSetup, if_neg below]
  rw [first, last]
  by_cases crossed : top scissor p < bottom scissor q
  · have cut : ¬(oddRow q.y - oddRow p.y = 0 ∨
        oddRow p.y > scissor.bottom * triOne - triHalf ∨
        oddRow q.y < scissor.top * triOne + triHalf) := by
      unfold top bottom firstRow triHalf triOne oddRow at *
      omega
    have ordered : ¬16 * top scissor p + 8 > 16 * bottom scissor q - 8 := by omega
    have further : oddRow p.y < 16 * top scissor p + 8 := by
      unfold top firstRow oddRow
      omega
    rw [if_neg cut, if_neg ordered, if_pos further, if_pos crossed]
    rfl
  · rw [if_neg crossed, if_pos (show 16 * top scissor p + 8 > 16 * bottom scissor q - 8 by omega),
      ite_self]

def crossing (e : Edge) (y : Int) : Int := wrap32 (e.x + e.xIncr * (y - e.yTop / 16))

theorem crossing_add (e : Edge) (y n : Int) :
    crossing e (y + n) = wrap32 (crossing e y + e.xIncr * n) := by
  rw [crossing, crossing, wrap32_add_left]
  congr 1
  ring

theorem record_crossing (scissor : Scissor) (p q : Vertex) :
    (record scissor p q).x = crossing (record scissor p q) (top scissor p) := by
  have row : (16 * top scissor p + 8) / 16 = top scissor p := by omega
  rw [crossing, record_yTop, row, sub_self, mul_zero, add_zero]
  exact (wrap32_wrap32 _).symm

theorem crossing_record {scissor : Scissor} (hp : InRange p) (hq : InRange q)
    (fits : Fits scissor p q) {y : Int} (after : top scissor p ≤ y) (before : y < bottom scissor q) :
    crossing (record scissor p q) y = position p q y := by
  have crossed := after.trans_lt before
  have rows : firstRow p ≤ top scissor p ∧ y < firstRow q := by
    unfold top bottom at *
    omega
  obtain ⟨low, high⟩ := position_bounds hp hq (rows.1.trans after) rows.2
  obtain ⟨_, _, _, _⟩ := hp
  obtain ⟨_, _, _, _⟩ := hq
  have start : wrap32 (p.x <<< (12 : Nat) + 2 ^ 15) = p.x * 2 ^ 12 + 2 ^ 15 := by
    rw [Int.shiftLeft_eq]
    exact wrap32_of_bounds (by omega) (by omega)
  have way : wrap32 (slope p q * skipped p (top scissor p)) =
      slope p q * skipped p (top scissor p) := wrap32_of_bounds (fits crossed).1 (fits crossed).2
  obtain ⟨n, rfl⟩ : ∃ n : Nat, y = top scissor p + n := ⟨(y - top scissor p).toNat, by omega⟩
  have first : (record scissor p q).x = wrap32 (position p q (top scissor p)) := by
    unfold record position
    rw [start, way, Int.shiftRight_eq_div_pow]
    rfl
  rw [crossing_add, ← record_crossing, first, wrap32_add_left]
  change wrap32 (position p q (top scissor p) + slope p q * n) = _
  rw [← position_add, wrap32_of_bounds (by omega) (by omega)]

end RabbitRender.Raster.Edges
