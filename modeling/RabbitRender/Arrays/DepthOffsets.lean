/- RabbitRender/Arrays/DepthOffsets
   layer: theorem
   source: swrender/primitives.cpp, swrender/matrix.cpp
   digest: The triangles whose depth plane, with exact quotients, has the right polygon offset. -/

import RabbitRender.Arrays.ExactPlanes
import Mathlib.Tactic.Linarith

set_option autoImplicit false

namespace RabbitRender.Arrays.DepthOffsets

open Vertices Arrays.ExactPlanes
open Arrays.Compile (Pipeline)
open Arrays.Gradients (Context PolygonOffset clampZ)

/-- `factor * max(|dz/dx|, |dz/dy|) + units`, for a plane with 16 bits of fraction. -/
def offset (o : PolygonOffset) (p : Plane) : ℚ :=
  o.factor.toInt * max |p.dx| |p.dy| / 2 ^ 16 + o.units.toInt

def Inside (v0 v1 v2 : Vertex) (x y : ℚ) : Prop :=
  ∃ a b c : ℚ, 0 ≤ a ∧ 0 ≤ b ∧ 0 ≤ c ∧ a + b + c = 1 ∧
    x = a * v0.window.x + b * v1.window.x + c * v2.window.x ∧
      y = a * v0.window.y + b * v1.window.y + c * v2.window.y

/-- The plane through the depths of the vertices is installed with its offset, and its depths are
32-bit words all over the triangle. -/
structure OffsetRight (c : Context) (v0 v1 v2 : Vertex) : Prop where
  plane (it p : Plane) (installed : (triangle c v0 v1 v2).depth = some it)
    (through : p.Through ownDepth [v0, v1, v2]) :
    it = { p with c := p.c.map fun value => value + offset c.polygonOffset p }
  word (it : Plane) (installed : (triangle c v0 v1 v2).depth = some it) (value : ℚ)
    (origin : it.c = some value) (x y : ℚ) (inside : Inside v0 v1 v2 x y) :
    0 ≤ value + (it.dx * x + it.dy * y) / 16 ∧ value + (it.dx * x + it.dy * y) / 16 < 2 ^ 32

section Triangle

variable (v0 v1 v2 : Vertex)

def slopeX : ℚ :=
  ((ownDepth v1 - ownDepth v0) * (v2.window.y - v0.window.y) +
    (ownDepth v2 - ownDepth v0) * (v0.window.y - v1.window.y)) * 16 / (initTriangle v0 v1 v2).area

def slopeY : ℚ :=
  ((ownDepth v2 - ownDepth v0) * (v1.window.x - v0.window.x) +
    (ownDepth v1 - ownDepth v0) * (v0.window.x - v2.window.x)) * 16 / (initTriangle v0 v1 v2).area

def trianglePlane : Plane :=
  ⟨some (ownDepth v0 - (slopeX v0 v1 v2 * v0.window.x + slopeY v0 v1 v2 * v0.window.y) / 16),
    slopeX v0 v1 v2, slopeY v0 v1 v2⟩

variable {v0 v1 v2}

theorem area_eq : ((initTriangle v0 v1 v2).area : ℚ) =
    (v1.window.x - v0.window.x) * (v2.window.y - v0.window.y) -
      (v0.window.y - v1.window.y) * (v0.window.x - v2.window.x) := by
  dsimp only [initTriangle]
  push_cast
  ring

theorem through_trianglePlane (area : (initTriangle v0 v1 v2).area ≠ 0) :
    (trianglePlane v0 v1 v2).Through ownDepth [v0, v1, v2] := by
  have nonzero : ((initTriangle v0 v1 v2).area : ℚ) ≠ 0 := by exact_mod_cast area
  have value := @area_eq v0 v1 v2
  refine through_cons.mpr ⟨?_, through_cons.mpr ⟨?_, through_cons.mpr ⟨?_, through_nil _ _⟩⟩⟩
  · show some _ = some _
    congr 1
    dsimp only [trianglePlane]
    ring
  all_goals
    show some _ = some _
    congr 1
    dsimp only [trianglePlane]
    unfold slopeX slopeY
    field_simp
    rw [value]
    ring

/-- There is no other plane through the vertices. -/
theorem eq_trianglePlane (area : (initTriangle v0 v1 v2).area ≠ 0) {p : Plane}
    (through : p.Through ownDepth [v0, v1, v2]) : p = trianglePlane v0 v1 v2 := by
  have nonzero : ((initTriangle v0 v1 v2).area : ℚ) ≠ 0 := by exact_mod_cast area
  have value := @area_eq v0 v1 v2
  obtain ⟨origin, dx, dy⟩ := p
  cases origin with
  | none => exact absurd (through v0 (by simp)) (Option.some_ne_none _).symm
  | some c =>
    have first : c + (dx * v0.window.x + dy * v0.window.y) / 16 = ownDepth v0 :=
      Option.some.inj (through v0 (by simp))
    have second : c + (dx * v1.window.x + dy * v1.window.y) / 16 = ownDepth v1 :=
      Option.some.inj (through v1 (by simp))
    have third : c + (dx * v2.window.x + dy * v2.window.y) / 16 = ownDepth v2 :=
      Option.some.inj (through v2 (by simp))
    have x : dx = slopeX v0 v1 v2 := by
      unfold slopeX
      rw [eq_div_iff nonzero, value, ← first, ← second, ← third]
      ring
    have y : dy = slopeY v0 v1 v2 := by
      unfold slopeY
      rw [eq_div_iff nonzero, value, ← first, ← second, ← third]
      ring
    subst x y
    unfold trianglePlane
    congr 2
    linarith

end Triangle

theorem depthOffset_eq {o : PolygonOffset} (on : o.enable = true) (it : Plane) :
    depthOffset o it =
      o.factor.toInt * max it.dx it.dy / 2 ^ 16 + (o.units <<< (16 : Nat)).toInt := by
  rw [depthOffset, if_pos on]
  dsimp only
  split_ifs with some
  · rw [mul_comm]
  · have none : BitVec.toInt (0 : BitVec 32) = 0 := rfl
    rw [not_not.mp some, none, Int.cast_zero, zero_mul, zero_div, zero_add]

section Installed

variable {c : Context} {v0 v1 v2 : Vertex}

def plain (v0 v1 v2 : Vertex) : Plane :=
  ((initTriangle v0 v1 v2).initLerp v0).iterators0032 (clampZ v0.window.z) (clampZ v1.window.z)
    (clampZ v2.window.z)

theorem depth_triangle (tested : c.pipeline.depthTest = true) : (triangle c v0 v1 v2).depth =
    some { plain v0 v1 v2 with
      c := (plain v0 v1 v2).c.map fun value =>
        value + depthOffset c.polygonOffset (plain v0 v1 v2) } := by
  unfold triangle
  dsimp only
  rw [if_pos (by rw [tested, Bool.or_true]), lerpTriangle]
  exact if_pos tested

theorem at_plain (v0 v1 v2 : Vertex) : (plain v0 v1 v2).at v0 = some (ownDepth v0) :=
  (initTriangle v0 v1 v2).fits_first v0 v1 v2 ownDepth v0 (by simp)

def Level (v0 v1 v2 : Vertex) : Prop :=
  clampZ v1.window.z = clampZ v0.window.z ∧ clampZ v2.window.z = clampZ v0.window.z

theorem ownDepth_inj {v w : Vertex} :
    ownDepth v = ownDepth w ↔ clampZ v.window.z = clampZ w.window.z := by
  unfold ownDepth
  rw [mul_left_inj' (by norm_num)]
  exact Int.cast_inj

theorem slopes_iff (area : (initTriangle v0 v1 v2).area ≠ 0) :
    (plain v0 v1 v2).dx = slopeX v0 v1 v2 ∧ (plain v0 v1 v2).dy = slopeY v0 v1 v2 ↔
      (initTriangle v0 v1 v2).Shaded ∨ Level v0 v1 v2 := by
  by_cases shaded : (initTriangle v0 v1 v2).Shaded
  · have same := eq_trianglePlane area (fits_triangle shaded ownDepth)
    exact iff_of_true ⟨congrArg Plane.dx same, congrArg Plane.dy same⟩ (Or.inl shaded)
  · rw [or_iff_right shaded]
    obtain ⟨dx, dy⟩ := Lerp.initLerp_flat shaded v0 (clampZ v0.window.z * 2 ^ 16)
      (clampZ v1.window.z * 2 ^ 16) (clampZ v2.window.z * 2 ^ 16)
    change (plain v0 v1 v2).dx = 0 at dx
    change (plain v0 v1 v2).dy = 0 at dy
    rw [dx, dy]
    constructor
    · rintro ⟨x, y⟩
      have through := through_trianglePlane area
      have value (v : Vertex) (member : v ∈ [v0, v1, v2]) : ownDepth v = ownDepth v0 := by
        have here := Option.some.inj (through v member)
        dsimp only [trianglePlane] at here
        rw [← x, ← y, zero_mul, zero_mul, zero_mul, zero_mul, add_zero, zero_div, sub_zero,
          add_zero] at here
        exact here.symm
      exact ⟨ownDepth_inj.mp (value v1 (by simp)), ownDepth_inj.mp (value v2 (by simp))⟩
    · rintro ⟨first, second⟩
      unfold slopeX slopeY
      rw [ownDepth_inj.mpr first, ownDepth_inj.mpr second]
      simp

theorem plain_eq (area : (initTriangle v0 v1 v2).area ≠ 0)
    (slopes : (plain v0 v1 v2).dx = slopeX v0 v1 v2 ∧ (plain v0 v1 v2).dy = slopeY v0 v1 v2) :
    plain v0 v1 v2 = trianglePlane v0 v1 v2 := by
  have first := (at_plain v0 v1 v2).trans (through_trianglePlane area v0 (by simp)).symm
  have origin := Option.some.inj first
  rw [slopes.1, slopes.2] at origin
  have value : (plain v0 v1 v2).c = (trianglePlane v0 v1 v2).c :=
    congrArg some (add_right_cancel origin)
  calc plain v0 v1 v2 = ⟨(plain v0 v1 v2).c, (plain v0 v1 v2).dx, (plain v0 v1 v2).dy⟩ := rfl
    _ = trianglePlane v0 v1 v2 := by
      rw [value, slopes.1, slopes.2]
      rfl

theorem inside_vertex (v0 v1 v2 : Vertex) : ∀ v ∈ [v0, v1, v2],
    Inside v0 v1 v2 v.window.x v.window.y := by
  intro v member
  simp only [List.mem_cons, List.not_mem_nil, or_false] at member
  rcases member with rfl | rfl | rfl
  · exact ⟨1, 0, 0, by norm_num, le_rfl, le_rfl, by norm_num, by ring, by ring⟩
  · exact ⟨0, 1, 0, le_rfl, by norm_num, le_rfl, by norm_num, by ring, by ring⟩
  · exact ⟨0, 0, 1, le_rfl, le_rfl, by norm_num, by norm_num, by ring, by ring⟩

/-- The values of a plane between the vertices are between those at the vertices. -/
theorem value_inside {p : Plane} {value : ℚ} (origin : p.c = some value)
    (through : p.Through ownDepth [v0, v1, v2]) {low high e : ℚ}
    (bounds : ∀ v ∈ [v0, v1, v2], low ≤ ownDepth v + e ∧ ownDepth v + e < high) {x y : ℚ}
    (inside : Inside v0 v1 v2 x y) : low ≤ value + e + (p.dx * x + p.dy * y) / 16 ∧
      value + e + (p.dx * x + p.dy * y) / 16 < high := by
  obtain ⟨a, b, d, ha, hb, hd, sum, rfl, rfl⟩ := inside
  have at' (v : Vertex) (member : v ∈ [v0, v1, v2]) :
      value + (p.dx * v.window.x + p.dy * v.window.y) / 16 = ownDepth v := by
    have here := through v member
    rw [Plane.at, origin] at here
    exact Option.some.inj here
  have first := at' v0 (by simp)
  have second := at' v1 (by simp)
  have third := at' v2 (by simp)
  obtain ⟨low0, high0⟩ := bounds v0 (by simp)
  obtain ⟨low1, high1⟩ := bounds v1 (by simp)
  obtain ⟨low2, high2⟩ := bounds v2 (by simp)
  have mean : value + e + (p.dx * (a * v0.window.x + b * v1.window.x + d * v2.window.x) +
      p.dy * (a * v0.window.y + b * v1.window.y + d * v2.window.y)) / 16 =
      a * (ownDepth v0 + e) + b * (ownDepth v1 + e) + d * (ownDepth v2 + e) := by
    linear_combination a * first + b * second + d * third - (value + e) * sum
  rw [mean]
  constructor
  · have least := add_le_add (add_le_add (mul_le_mul_of_nonneg_left low0 ha)
      (mul_le_mul_of_nonneg_left low1 hb)) (mul_le_mul_of_nonneg_left low2 hd)
    rwa [← add_mul, ← add_mul, sum, one_mul] at least
  · have most : ∃ m < high, ownDepth v0 + e ≤ m ∧ ownDepth v1 + e ≤ m ∧ ownDepth v2 + e ≤ m :=
      ⟨max (ownDepth v0 + e) (max (ownDepth v1 + e) (ownDepth v2 + e)),
        max_lt high0 (max_lt high1 high2), le_max_left _ _,
        (le_max_left _ _).trans (le_max_right _ _), (le_max_right _ _).trans (le_max_right _ _)⟩
    obtain ⟨m, less, le0, le1, le2⟩ := most
    have above := add_le_add (add_le_add (mul_le_mul_of_nonneg_left le0 ha)
      (mul_le_mul_of_nonneg_left le1 hb)) (mul_le_mul_of_nonneg_left le2 hd)
    rw [← add_mul, ← add_mul, sum, one_mul] at above
    exact above.trans_lt less

end Installed

/-- A triangle has the right offset exactly if it is shaded or level, the sign of its slopes and
the second shift of the units cancel out, and the depths of its vertices have room for it. -/
theorem offset_right_iff {c : Context} (tested : c.pipeline.depthTest = true)
    (on : c.polygonOffset.enable = true) {v0 v1 v2 : Vertex}
    (area : (initTriangle v0 v1 v2).area ≠ 0) :
    OffsetRight c v0 v1 v2 ↔ ((initTriangle v0 v1 v2).Shaded ∨ Level v0 v1 v2) ∧
      c.polygonOffset.factor.toInt * (max |slopeX v0 v1 v2| |slopeY v0 v1 v2| -
          max (slopeX v0 v1 v2) (slopeY v0 v1 v2)) / 2 ^ 16 =
        (c.polygonOffset.units <<< (16 : Nat)).toInt - c.polygonOffset.units.toInt ∧
      ∀ v ∈ [v0, v1, v2], 0 ≤ ownDepth v + offset c.polygonOffset (trianglePlane v0 v1 v2) ∧
        ownDepth v + offset c.polygonOffset (trianglePlane v0 v1 v2) < 2 ^ 32 := by
  have installed : (triangle c v0 v1 v2).depth = _ := depth_triangle tested
  have through := through_trianglePlane area
  have amounts : depthOffset c.polygonOffset (trianglePlane v0 v1 v2) =
      offset c.polygonOffset (trianglePlane v0 v1 v2) ↔
      c.polygonOffset.factor.toInt * (max |slopeX v0 v1 v2| |slopeY v0 v1 v2| -
          max (slopeX v0 v1 v2) (slopeY v0 v1 v2)) / 2 ^ 16 =
        (c.polygonOffset.units <<< (16 : Nat)).toInt - c.polygonOffset.units.toInt := by
    rw [depthOffset_eq on, offset, mul_sub, sub_div]
    dsimp only [trianglePlane]
    constructor <;> intro h <;> linarith
  rw [← amounts]
  constructor
  · rintro ⟨plane, word⟩
    have equal := plane _ _ installed through
    have slopes : (plain v0 v1 v2).dx = slopeX v0 v1 v2 ∧ (plain v0 v1 v2).dy = slopeY v0 v1 v2 :=
      ⟨congrArg Plane.dx equal, congrArg Plane.dy equal⟩
    rw [plain_eq area slopes] at equal installed
    have sums := Option.some.inj (congrArg Plane.c equal)
    have same := add_left_cancel sums
    refine ⟨(slopes_iff area).mp slopes, same, fun v member => ?_⟩
    have value := Option.some.inj (through v member)
    have room := word _ installed _ rfl _ _ (inside_vertex v0 v1 v2 v member)
    dsimp only [trianglePlane] at value room same ⊢
    rw [← value, ← same]
    constructor <;> linarith [room.1, room.2]
  · rintro ⟨shape, same, room⟩
    rw [plain_eq area ((slopes_iff area).mpr shape), same] at installed
    constructor
    · intro it p got other
      rw [eq_trianglePlane area other]
      exact Option.some.inj (got.symm.trans installed)
    · intro it got value origin x y inside
      obtain rfl := Option.some.inj (installed.symm.trans got)
      obtain rfl := Option.some.inj origin
      exact value_inside (p := trianglePlane v0 v1 v2) rfl through room inside

section Samples

private def sloped (x y z : Int) : Vertex := { Vertex.zero with window := ⟨x, y, z, 0x10000⟩ }

private def tested (o : PolygonOffset) : Context where
  pipeline := { Pipeline.flat (fun _ => ⟨0, 0, 0, 0⟩) with depthTest := true }
  setup :=
    { interpolateW := false, pointSize := 0x10000, lineWidth := 0x10000
      unit := fun _ => { sClamp := false, tClamp := false, bound := ⟨8, 8⟩, minFilter := 0x2600
                         surface := ⟨8, 8⟩, mip := fun _ => ⟨8, 8⟩ } }
  polygonOffset := o

theorem offset_right_rising :
    OffsetRight (tested ⟨true, 0x10000, 0⟩) (sloped 0 0 0) (sloped 160 0 100) (sloped 0 160 100) :=
  (offset_right_iff rfl rfl (by decide)).mpr
    ⟨Or.inl (by decide), by decide +kernel, by decide +kernel⟩

/-- Units of 1.0 add nothing, the offset of falling slopes is that of level ones, and next to the
largest depth the offset leaves the word. -/
theorem offset_wrong :
    ¬OffsetRight (tested ⟨true, 0, 0x10000⟩) (sloped 0 0 0) (sloped 160 0 100) (sloped 0 160 100) ∧
    ¬OffsetRight (tested ⟨true, 0x10000, 0⟩) (sloped 0 0 100) (sloped 160 0 0) (sloped 0 160 0) ∧
    ∃ x y : ℚ, Inside (sloped 0 0 0) (sloped 160 0 0xFFFF) (sloped 0 160 0xFFFF) x y ∧
      ∃ it value, (triangle (tested ⟨true, 0x10000, 0⟩) (sloped 0 0 0) (sloped 160 0 0xFFFF)
        (sloped 0 160 0xFFFF)).depth = some it ∧ it.c = some value ∧
          2 ^ 32 ≤ value + (it.dx * x + it.dy * y) / 16 := by
  refine ⟨fun right => ?_, fun right => ?_, ?_⟩
  · have same := @through_trianglePlane (sloped 0 0 0) (sloped 160 0 100) (sloped 0 160 100)
      (by decide)
    have equal := congrArg Plane.c (right.plane _ _ rfl same)
    revert equal
    decide +kernel
  · have same := @through_trianglePlane (sloped 0 0 100) (sloped 160 0 0) (sloped 0 160 0)
      (by decide)
    have equal := congrArg Plane.c (right.plane _ _ rfl same)
    revert equal
    decide +kernel
  · refine ⟨_, _, inside_vertex _ _ _ (sloped 160 0 0xFFFF) (by simp), _, _, rfl, rfl, ?_⟩
    decide +kernel

end Samples

end RabbitRender.Arrays.DepthOffsets
