/- RabbitRender/Arrays/Colors
   layer: model
   source: swrender/array.cpp, swrender/vertex.cpp, swrender/primitives.cpp, swrender/light.cpp
   digest: Where the colours of vertices come from, and those that reach the rasterizer. -/

import RabbitRender.Arrays.Steps

set_option autoImplicit false

namespace RabbitRender.Arrays.Colors

open Fixed Vertices Arrays.Compile Arrays.Steps
open RabbitRender.Matrix.Transforms (GLfloat)
open Primitives

/-- The four components lie in `[0, 0x10000]`. -/
structure InRange (v : Vec4) : Prop where
  x : 0 ≤ v.x ∧ v.x ≤ 0x10000
  y : 0 ≤ v.y ∧ v.y ≤ 0x10000
  z : 0 ≤ v.z ∧ v.z ≤ 0x10000
  w : 0 ≤ v.w ∧ v.w ≤ 0x10000

instance (v : Vec4) : Decidable (InRange v) :=
  decidable_of_iff ((0 ≤ v.x ∧ v.x ≤ 0x10000) ∧ (0 ≤ v.y ∧ v.y ≤ 0x10000) ∧
      (0 ≤ v.z ∧ v.z ≤ 0x10000) ∧ 0 ≤ v.w ∧ v.w ≤ 0x10000)
    ⟨fun h => ⟨h.1, h.2.1, h.2.2.1, h.2.2.2⟩, fun h => ⟨h.x, h.y, h.z, h.w⟩⟩

def clampColor (v : Vec4) : Vec4 := ⟨gglClampx v.x, gglClampx v.y, gglClampx v.z, gglClampx v.w⟩

theorem gglClampx_range (c : Int) : 0 ≤ gglClampx c ∧ gglClampx c ≤ 0x10000 := by
  unfold gglClampx
  split_ifs <;> omega

theorem inRange_clampColor (v : Vec4) : InRange (clampColor v) :=
  ⟨gglClampx_range v.x, gglClampx_range v.y, gglClampx_range v.z, gglClampx_range v.w⟩

/-- The elements of a colour array: four components of one of the accepted types. -/
inductive ColorArray (F : Type) where
  | unsignedByte (element : Nat → Fin 4 → Fin 256)
  | float (element : Nat → Fin 4 → F)
  | fixed (element : Nat → Fin 4 → Int)

/-- `current.color`, `currentColorClamped`, the colour array and `lighting.enable`. The array has
no `source` while it has neither a buffer nor a pointer. -/
structure ColorState (F : Type) where
  current : Vec4
  clamped : Vec4
  clamped_range : InRange clamped
  arrayEnable : Bool
  source : Option (ColorArray F)
  lighting : Bool

variable {F : Type}

namespace ColorState

/-- `ogles_init_vertex` sets the current colour only. -/
def init : ColorState F where
  current := ⟨0x10000, 0x10000, 0x10000, 0x10000⟩
  clamped := ⟨0, 0, 0, 0⟩
  clamped_range := by decide
  arrayEnable := false
  source := none
  lighting := false

def glColor4x (c : ColorState F) (color : Vec4) : ColorState F :=
  { c with current := color, clamped := clampColor color, clamped_range := inRange_clampColor color }

end ColorState

/-- `GGL_UB_TO_X` -/
def ubToX (b : Fin 256) : Int := b + b * 256 + b / 128

def vec4 (component : Fin 4 → Int) : Vec4 :=
  ⟨component 0, component 1, component 2, component 3⟩

/-- `color_fct` of four components. -/
def colorFct [GLfloat F] : ColorArray F → Nat → Vec4
  | .unsignedByte element, i => vec4 fun k => ubToX (element i k)
  | .float element, i => vec4 fun k => GLfloat.toFixed (element i k)
  | .fixed element, i => vec4 fun k => element i k

/-- `color_clamp_fct` of four components. -/
def colorClampFct [GLfloat F] : ColorArray F → Nat → Vec4
  | .unsignedByte element, i => vec4 fun k => ubToX (element i k)
  | .float element, i => clampColor (vec4 fun k => GLfloat.toFixed (element i k))
  | .fixed element, i => clampColor (vec4 fun k => element i k)

/-- `arrays.color.fetch` as `validate_arrays` picks it. -/
def fetcher [GLfloat F] (c : ColorState F) : Nat → Vec4 :=
  match c.arrayEnable, c.source with
  | true, some source => if c.lighting then colorFct source else colorClampFct source
  | _, _ => fun _ => c.current

/-- A draw call's pipeline in a colour state. The lighting equation ends in a clamp. -/
def coloured [GLfloat F] (c : ColorState F) (equation : Vertex → Vec4) (p : Pipeline) : Pipeline :=
  { p with
    lighting := c.lighting
    fetchColor := fun element _ => fetcher c element
    lightColor := fun v => clampColor (equation v) }

variable (p : Pipeline)

/-- The loop of `clip_triangle` over the vertices, against one plane: the list it puts out, unless
fewer than three vertices are left or the polygon is not convex. New vertices are made in the
buffer; what the buffer held before shows in no colour. -/
def clipLoop (plane : Plane) : List Vertex → (s : Vertex) → (output : List Vertex) →
    (sentinel : Nat) → Option (List Vertex)
  | [], _, output, _ => if output.length < 3 then none else some output
  | v :: rest, s, output, sentinel =>
    let sd := distance p plane s
    let pd := distance p plane v
    if sd ≥ 0 then
      if pd ≥ 0 then clipLoop plane rest v (output ++ [v]) sentinel
      else
        -- s inside, v outside
        let new := clipAgainst p plane .zero (clipDivide sd (sd - pd)) v s
        if sentinel + 1 ≥ 3 then none
        else clipLoop plane rest v (output ++ [new]) (sentinel + 1)
    else if pd ≥ 0 then
      if pd ≠ 0 then
        let new := clipAgainst p plane .zero (clipDivide pd (pd - sd)) s v
        if sentinel + 1 ≥ 3 then none
        else clipLoop plane rest v (output ++ [new, v]) (sentinel + 1)
      else clipLoop plane rest v (output ++ [v]) sentinel
    else clipLoop plane rest v output sentinel

/-- The loops of `clip_triangle` over the planes. -/
def clipPolygon : List Plane → List Vertex → Option (List Vertex)
  | [], polygon => some polygon
  | plane :: planes, polygon =>
    (clipLoop p plane polygon (polygon.getLastD .zero) [] 0).bind (clipPolygon planes)

/-- The triangles at the end of `clip_triangle`: a fan around `p0`, less what is culled. -/
def fan (p0 : Vertex) : Vertex → List Vertex → List (Vertex × Vertex × Vertex)
  | _, [] => []
  | p1, p2 :: rest =>
    if cullTriangle p p0 p1 p2 then fan p0 p2 rest else (p0, p1, p2) :: fan p0 p2 rest

/-- The triangles `clip_triangle` hands to `triangle`. -/
def clipTriangle (v0 v1 v2 : Vertex) : List (Vertex × Vertex × Vertex) :=
  let planes := allPlanes.filter fun plane =>
    (v0.flags ||| v1.flags ||| v2.flags) &&& clipAll &&& plane.bit ≠ 0
  match clipPolygon p planes [v0, v1, v2] with
  | some (p0 :: p1 :: rest) => fan p p0 p1 rest
  | _ => []

/-- The colours of vertices that `lerp_triangle` makes gradients of. -/
def gradientColors (triangles : List (Vertex × Vertex × Vertex)) : List Vec4 :=
  triangles.flatMap fun t => [t.1.color, t.2.1.color, t.2.2.color]

/-- The colours a step passes to `color4xv` or to the gradients. -/
def passed (m : Machine) : Step → List Vec4
  | .point v => [(lightPoint p (m.verts v)).color]
  | .line v0 v1 =>
    let r := lightTriangle p (fetchTexcoord p m v0 v1 v1) v0 v1 v1
    if !p.smooth then [(r.verts v1).color]
    else
      let (visible, s, q) := clipLine p (r.verts v0) (r.verts v1)
      if visible then gradientColors [(s, q, s)] else []
  | .triangle v0 v1 v2 =>
    let cc := ((m.verts v0).flags ||| (m.verts v1).flags ||| (m.verts v2).flags) &&& clipAll
    if cc = 0 && cullTriangle p (m.verts v0) (m.verts v1) (m.verts v2) then []
    else
      let r := lightTriangle p (fetchTexcoord p m v0 v1 v2) v0 v1 v2
      if !p.smooth then [(r.verts v2).color]
      else if cc = 0 then gradientColors [(r.verts v0, r.verts v1, r.verts v2)]
      else gradientColors (clipTriangle p (r.verts v0) (r.verts v1) (r.verts v2))
  | _ => []

/-- A step of a draw call in a colour state, or a call of `glDrawTex`. -/
inductive Op (F : Type) where
  | draw (c : ColorState F) (equation : Vertex → Vec4) (p : Pipeline) (s : Step)
  | drawTex (c : ColorState F)

def Op.colors : Op F → ColorState F
  | draw c _ _ _ => c
  | drawTex c => c

variable [GLfloat F]

def act (m : Machine) : Op F → Machine
  | .draw c equation p s => step (coloured c equation p) m s
  | .drawTex _ => m

/-- What the call passes to the rasterizer. `glDrawTex` passes the clamped colour. -/
def colorsOf (m : Machine) : Op F → List Vec4
  | .draw c equation p s => passed (coloured c equation p) m s
  | .drawTex c => [c.clamped]

end RabbitRender.Arrays.Colors
