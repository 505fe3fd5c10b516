/- RabbitRender/Clipping/Exact
   layer: model
   source: swrender/primitives.cpp, swrender/array.cpp, swrender/vertex.cpp
   digest: Clipping of segments and triangles against the view volume with exact quotients. -/

import Mathlib.Algebra.Order.Field.Basic
import Mathlib.Algebra.Order.Ring.Rat
import Mathlib.Data.Fin.VecNotation
import Mathlib.Data.Fintype.Basic
import Mathlib.Data.List.FinRange
import Mathlib.Tactic.FieldSimp
import Mathlib.Tactic.FinCases
import Mathlib.Tactic.Linarith
import Mathlib.Tactic.Ring
import RabbitRender.Lib.ConvexPolygons

set_option autoImplicit false

namespace RabbitRender.Clipping.Exact

open Lib.ConvexPolygons (fan)

/-- `vec4_t`: `x`, `y`, `z` and `w`. -/
abbrev Vec4 := Fin 4 → ℚ

/-- `v->window` -/
structure Window where
  x : ℚ
  y : ℚ
  z : ℚ
  w : ℚ
deriving DecidableEq

/-- What the clippers read and write of `vertex_t`. -/
structure Vertex where
  clip : Vec4
  fog : ℚ
  window : Window
  /-- The frustum clip flags, in the order of their bits. -/
  flags : Fin 6 → Bool

/-- The entries of the viewport matrix, and whether the depth test is enabled. -/
structure Viewport where
  m0 : ℚ
  m5 : ℚ
  m10 : ℚ
  m12 : ℚ
  m13 : ℚ
  m14 : ℚ
  depthTest : Bool

def perspective (c : Viewport) (v : Vertex) : Vertex :=
  let rw := 1 / v.clip 3
  { v with
    window :=
      { x := v.clip 0 * rw * c.m0 + c.m12
        y := v.clip 1 * rw * c.m5 + c.m13
        z := if c.depthTest then v.clip 2 * rw * c.m10 + c.m14 else v.window.z
        w := rw } }

/-- The tests of `clipFrustumPerspective`. -/
def frustumFlags (v : Vec4) : Fin 6 → Bool :=
  let w := v 3
  ![v 0 < -w, v 0 > w, v 1 < -w, v 1 > w, v 2 < -w, v 2 > w]

def clipFrustumPerspective (c : Viewport) (v : Vertex) : Vertex :=
  let v := { v with flags := frustumFlags v.clip }
  if ∀ k, v.flags k = false then perspective c v else v

def frustumPlaneDist (plane : Fin 6) (s : Vec4) : ℚ :=
  let d := s ⟨plane.val / 2, by omega⟩
  if plane.val % 2 = 1 then s 3 - d else s 3 + d

/-- `clipDivide`, without the rounding to 4.28. -/
def clipDivide (a b : ℚ) : ℚ := a / b

def clipVec4 (t : ℚ) (s p : Vec4) : Vec4 := fun i => t * (s i - p i) + p i

def clipVertex (c : Viewport) (nv : Vertex) (t : ℚ) (s p : Vertex) : Vertex :=
  let nv := { nv with clip := clipVec4 t s.clip p.clip, fog := t * (s.fog - p.fog) + p.fog }
  { perspective c nv with flags := fun _ => false }

def planesOf (vertices : List Vertex) : List (Fin 6) :=
  (List.finRange 6).filter fun k => vertices.any fun v => v.flags k

/-- One plane of `clip_line`; without a result it returns 0. -/
def clipLinePlane (c : Viewport) (plane : Fin 6) (s p : Vertex) : Option (Vertex × Vertex) :=
  let sd := frustumPlaneDist plane s.clip
  let pd := frustumPlaneDist plane p.clip
  if sd ≥ 0 then
    if pd ≥ 0 then some (s, p)
    else
      -- s inside, p outside (exiting)
      some (s, clipVertex c p (clipDivide sd (sd - pd)) p s)
  else if pd ≥ 0 then
    -- s outside (entering)
    if pd ≠ 0 then some (clipVertex c s (clipDivide pd (pd - sd)) s p, p) else some (s, p)
  else none

def clipLinePlanes (c : Viewport) : List (Fin 6) → Vertex × Vertex → Option (Vertex × Vertex)
  | [], e => some e
  | plane :: planes, e => (clipLinePlane c plane e.1 e.2).bind (clipLinePlanes c planes)

/-- `clip_line`: the segment when it returns 2. -/
def clipLine (c : Viewport) (s p : Vertex) : Option (Vertex × Vertex) :=
  clipLinePlanes c (planesOf [s, p]) (s, p)

/-- The loop over the vertices: the output list, the new vertices so far in all lists and in this
one, and the previous vertex. -/
structure Loop where
  output : List Vertex
  used : Nat
  sentinel : Nat
  s : Vertex

/-- One turn of the loop; the entries of `buffer` hold anything before. Without a result the
sentinel returns. -/
def turn (c : Viewport) (buffer : Nat → Vertex) (plane : Fin 6) (l : Loop) (p : Vertex) :
    Option Loop :=
  let sd := frustumPlaneDist plane l.s.clip
  let pd := frustumPlaneDist plane p.clip
  if sd ≥ 0 then
    if pd ≥ 0 then
      -- both inside
      some ⟨l.output ++ [p], l.used, l.sentinel, p⟩
    else
      -- s inside, p outside (exiting)
      let nv := clipVertex c (buffer l.used) (clipDivide sd (sd - pd)) p l.s
      if l.sentinel + 1 ≥ 3 then none
      else some ⟨l.output ++ [nv], l.used + 1, l.sentinel + 1, p⟩
  else if pd ≥ 0 then
    -- s outside (entering)
    if pd ≠ 0 then
      let nv := clipVertex c (buffer l.used) (clipDivide pd (pd - sd)) l.s p
      if l.sentinel + 1 ≥ 3 then none
      else some ⟨l.output ++ [nv] ++ [p], l.used + 1, l.sentinel + 1, p⟩
    else some ⟨l.output ++ [p], l.used, l.sentinel, p⟩
  else
    -- both outside
    some ⟨l.output, l.used, l.sentinel, p⟩

def turns (c : Viewport) (buffer : Nat → Vertex) (plane : Fin 6) : List Vertex → Loop → Option Loop
  | [], l => some l
  | p :: rest, l => (turn c buffer plane l p).bind (turns c buffer plane rest)

/-- The loops over the planes, from a list of vertices and the entries of `buffer` in use. -/
def clipTrianglePlanes (c : Viewport) (buffer : Nat → Vertex) :
    List (Fin 6) → List Vertex → Nat → Option (List Vertex)
  | [], ivl, _ => some ivl
  | plane :: planes, ivl, used =>
    match ivl.getLast? with
    | none => none
    | some s =>
      (turns c buffer plane ivl ⟨[], used, 0, s⟩).bind fun l =>
        if l.output.length < 3 then none
        else clipTrianglePlanes c buffer planes l.output l.used

/-- `clip_triangle`: the triangles it renders, before any of them is culled; none when it returns
early. -/
def clipTriangle (c : Viewport) (buffer : Nat → Vertex) (v0 v1 v2 : Vertex) :
    Option (List (Vertex × Vertex × Vertex)) :=
  (clipTrianglePlanes c buffer (planesOf [v0, v1, v2]) [v0, v1, v2] 0).map fun
    | p0 :: p1 :: rest => fan p0 p1 rest
    | _ => []

/-- `-w ≤ x, y, z ≤ w` -/
def Inside (v : Vec4) : Prop := ∀ i : Fin 3, -v 3 ≤ v i.castSucc ∧ v i.castSucc ≤ v 3

def StrictlyInside (v : Vec4) : Prop := ∀ i : Fin 3, -v 3 < v i.castSucc ∧ v i.castSucc < v 3

instance (v : Vec4) : Decidable (Inside v) := inferInstanceAs (Decidable (∀ _, _))

theorem forall_planes {P : Fin 6 → Prop} :
    (∀ k, P k) ↔ ∀ i : Fin 3, P ⟨2 * i.val, by omega⟩ ∧ P ⟨2 * i.val + 1, by omega⟩ := by
  constructor
  · intro all i
    exact ⟨all _, all _⟩
  · intro pairs k
    fin_cases k
    · exact (pairs 0).1
    · exact (pairs 0).2
    · exact (pairs 1).1
    · exact (pairs 1).2
    · exact (pairs 2).1
    · exact (pairs 2).2

theorem planeDist_low (v : Vec4) (i : Fin 3) :
    frustumPlaneDist ⟨2 * i.val, by omega⟩ v = v 3 + v i.castSucc := by
  fin_cases i <;> rfl

theorem planeDist_high (v : Vec4) (i : Fin 3) :
    frustumPlaneDist ⟨2 * i.val + 1, by omega⟩ v = v 3 - v i.castSucc := by
  fin_cases i <;> rfl

theorem inside_iff (v : Vec4) : Inside v ↔ ∀ k, 0 ≤ frustumPlaneDist k v := by
  rw [forall_planes]
  apply forall_congr'
  intro i
  rw [planeDist_low, planeDist_high]
  constructor <;> rintro ⟨low, high⟩ <;> constructor <;> linarith

theorem strictlyInside_iff (v : Vec4) : StrictlyInside v ↔ ∀ k, 0 < frustumPlaneDist k v := by
  rw [forall_planes]
  apply forall_congr'
  intro i
  rw [planeDist_low, planeDist_high]
  constructor <;> rintro ⟨low, high⟩ <;> constructor <;> linarith

theorem frustumFlags_iff (v : Vec4) (k : Fin 6) :
    frustumFlags v k = true ↔ frustumPlaneDist k v < 0 := by
  have low (x : ℚ) : decide (x < -v 3) = true ↔ v 3 + x < 0 := by
    rw [decide_eq_true_iff]
    constructor <;> intro <;> linarith
  have high (x : ℚ) : decide (x > v 3) = true ↔ v 3 - x < 0 := by
    rw [decide_eq_true_iff]
    constructor <;> intro <;> linarith
  fin_cases k
  · exact low (v 0)
  · exact high (v 0)
  · exact low (v 1)
  · exact high (v 1)
  · exact low (v 2)
  · exact high (v 2)

theorem planeDist_clipVec4 (k : Fin 6) (t : ℚ) (s p : Vec4) :
    frustumPlaneDist k (clipVec4 t s p) =
      t * frustumPlaneDist k s + (1 - t) * frustumPlaneDist k p := by
  unfold frustumPlaneDist clipVec4
  dsimp only
  split_ifs <;> ring

def Projected (c : Viewport) (v : Vertex) : Prop := (perspective c v).window = v.window

theorem projected_perspective (c : Viewport) (v : Vertex) : Projected c (perspective c v) := by
  unfold Projected perspective
  dsimp only
  split_ifs <;> rfl

@[simp] theorem clipVertex_clip (c : Viewport) (nv : Vertex) (t : ℚ) (s p : Vertex) :
    (clipVertex c nv t s p).clip = clipVec4 t s.clip p.clip := rfl

theorem clipVertex_projected (c : Viewport) (nv : Vertex) (t : ℚ) (s p : Vertex) :
    Projected c (clipVertex c nv t s p) :=
  projected_perspective c
    { nv with clip := clipVec4 t s.clip p.clip, fog := t * (s.fog - p.fog) + p.fog }

theorem clipFrustumPerspective_clip (c : Viewport) (v : Vertex) :
    (clipFrustumPerspective c v).clip = v.clip := by
  unfold clipFrustumPerspective
  dsimp only
  split_ifs <;> rfl

theorem clipFrustumPerspective_flags (c : Viewport) (v : Vertex) :
    (clipFrustumPerspective c v).flags = frustumFlags v.clip := by
  unfold clipFrustumPerspective
  dsimp only
  split_ifs <;> rfl

theorem clipFrustumPerspective_projected {c : Viewport} {v : Vertex}
    (inside : ∀ k, (clipFrustumPerspective c v).flags k = false) :
    Projected c (clipFrustumPerspective c v) := by
  rw [clipFrustumPerspective_flags] at inside
  unfold clipFrustumPerspective
  dsimp only
  rw [if_pos inside]
  exact projected_perspective c _

theorem clipFrustumPerspective_flag {c : Viewport} {v : Vertex} {k : Fin 6} :
    (clipFrustumPerspective c v).flags k = true ↔
      frustumPlaneDist k (clipFrustumPerspective c v).clip < 0 := by
  rw [clipFrustumPerspective_flags, clipFrustumPerspective_clip, frustumFlags_iff]

theorem mem_planesOf {vertices : List Vertex} {k : Fin 6} :
    k ∈ planesOf vertices ↔ ∃ v ∈ vertices, v.flags k = true := by
  unfold planesOf
  rw [List.mem_filter, List.any_eq_true]
  exact and_iff_right (List.mem_finRange k)

end RabbitRender.Clipping.Exact
