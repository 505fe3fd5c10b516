/- RabbitRender/Arrays/Gradients
   layer: model
   source: swrender/primitives.cpp, include/gl_context.h
   digest: What the rasterizer is given for a point and for a line: colour, texture, depth and
     fog. -/

import RabbitRender.Arrays.Draw

set_option autoImplicit false

namespace RabbitRender.Arrays.Gradients

open RabbitRender.GL (GLenum)
open Fixed Vertices Arrays.Compile Primitives

/-- `gglMulx` by a computed shift; the rounding term is an `int`. -/
def mulx (a b shift : Int) : Int :=
  wrap32 ((a * b + wrap32 (2 ^ ((shift - 1) % 32).toNat)) >>> (shift % 64).toNat)

/-- `gglMulAddx` by a computed shift. -/
def mulAddx (a b c shift : Int) : Int := wrap32 (wrap32 ((a * b) >>> (shift % 64).toNat) + c)

def wrap64 (x : Int) : Int := Int.bmod x (2 ^ 64)

/-- `gglClz` of the words or-ed together. -/
def clzOr (xs : List Int) : Int :=
  if xs.any (· < 0) then 0 else gglClz (xs.foldl (fun bits x => bits ||| x.toNat) 0)

def clzAbs (xs : List Int) : Int := clzOr (xs.map fun x => (x.natAbs : Int))

/-- `it[3]`: the value at the origin and its derivatives. -/
structure Gradient where
  c : Int
  dx : Int
  dy : Int
deriving DecidableEq, Repr

/-- `compute_iterators_t` -/
structure Lerp where
  dx01 : Int
  dy10 : Int
  dx20 : Int
  dy02 : Int
  x0 : Int
  y0 : Int
  area : Int
  scale : Int
  areaScale : Int
deriving DecidableEq, Repr

/-- `initLine`; the members it leaves out are those `initLerp` sets. -/
def initLine (v0 v1 : Vertex) : Lerp :=
  let dx := wrap32 (v1.window.x - v0.window.x)
  let dy := wrap32 (v0.window.y - v1.window.y)
  { dx01 := dx, dy10 := dy, dx20 := dy, dy02 := dx, x0 := 0, y0 := 0
    area := wrap32 (dx * dx + -dy * dy), scale := 0, areaScale := 0 }

def Lerp.leading (l : Lerp) : Int := clzAbs [l.dy02, l.dy10, l.dx01, l.dx20]

/-- The scale factor of the differences: the reciprocal `d` of the area, its exponent `q`, and
the shift `s`. -/
def areaScale (l : Lerp) : Int × Int × Int :=
  let area := wrap32 (l.area + triHalf) >>> (4 : Nat)
  if 2 ≤ area.natAbs then
    let (d, q) := gglRecipQNormalized area
    let s := 32 - l.leading + 15
    let s := if s < q then q else s
    if s > 32 then (d >>> ((32 - s) % 32).toNat, q, 32) else (d, q, s)
  else (0, 0, 0)

def initLerp (tmus : Bool) (l : Lerp) (v0 : Vertex) : Lerp :=
  let (d, q, s) := areaScale l
  let l := { l with
    x0 := v0.window.x, y0 := v0.window.y
    dx01 := mulx l.dx01 d s, dy10 := mulx l.dy10 d s
    dx20 := mulx l.dx20 d s, dy02 := mulx l.dy02 d s
    areaScale := (32 + q - s) % 256, scale := 0 }
  if tmus then
    let B := clzAbs [l.x0, l.y0]
    { l with scale := (max 0 (32 - (l.leading + 16)) + max 0 (32 - (B + 4)) + 1) % 256 }
  else l

namespace Lerp

variable (l : Lerp)

def gradient (c0 dc01 dc02 : Int) : Gradient :=
  let s := l.areaScale
  let dcdx := mulAddx dc01 l.dy02 (mulx dc02 l.dy10 s) s
  let dcdy := mulAddx dc02 l.dx01 (mulx dc01 l.dx20 s) s
  ⟨wrap32 (c0 - mulAddx dcdx l.x0 (mulx dcdy l.y0 4) 4), dcdx, dcdy⟩

def iteratorsScale (c0 c1 c2 : Int) : Gradient × Int :=
  let dc01 := wrap32 (c1 - c0)
  let dc02 := wrap32 (c2 - c0)
  let A := clzAbs [c0]
  let B := clzAbs [dc01, dc02]
  let scale := min A (B - l.scale) - 2
  let shifted (c : Int) : Int :=
    if scale ≥ 0 then wrap32 (c <<< (scale % 32).toNat) else c >>> (-scale % 32).toNat
  (l.gradient (shifted c0) (shifted dc01) (shifted dc02), scale)

def iterators1616 (c0 c1 c2 : Int) : Gradient :=
  l.gradient c0 (wrap32 (c1 - c0)) (wrap32 (c2 - c0))

/-- `iterators0032`, in 64 bits. -/
def iterators0032 (c0 c1 c2 : Int) : Gradient :=
  let s := ((l.areaScale - 16) % 32).toNat
  let dc01 := wrap32 (c1 - c0) >>> s
  let dc02 := wrap32 (c2 - c0) >>> s
  let dcdx := wrap64 (dc01 * l.dy02 + dc02 * l.dy10)
  let dcdy := wrap64 (dc02 * l.dx01 + dc01 * l.dx20)
  ⟨wrap64 (wrap32 (c0 <<< (16 : Nat)) - wrap64 (dcdx * l.x0 + dcdy * l.y0) >>> (4 : Nat)),
    dcdx, dcdy⟩

end Lerp

def clampZ (z : Int) : Int :=
  let z := if z < 0 then 0 else z
  if z ≥ 0x10000 then 0xFFFF else z

abbrev GLfixed := BitVec 32

/-- `polygonOffset` of the context. -/
structure PolygonOffset where
  enable : Bool
  factor : GLfixed
  units : GLfixed
deriving DecidableEq, Repr

/-- The depth part of `lerp_triangle`, in its three branches. -/
def depthGradient (o : PolygonOffset) (l : Lerp) (z0 z1 z2 : Int) : Gradient :=
  let it := l.iterators0032 z0 z1 z2
  let units := (o.units <<< (16 : Nat)).toInt
  let value :=
    if o.enable then
      if o.factor ≠ 0 then
        let maxDepthSlope := max it.dx it.dy
        it.c + wrap64 (maxDepthSlope * o.factor.toInt) >>> (16 : Nat) + units
      else wrap32 it.c + units
    else it.c
  ⟨wrap32 value, wrap32 it.dx, wrap32 it.dy⟩

structure Size where
  width : Int
  height : Int
deriving DecidableEq, Repr

/-- A texture unit: the wrap modes and the surface of the rasterizer's unit, the filter and the
surfaces of the texture object. -/
structure Unit where
  sClamp : Bool
  tClamp : Bool
  bound : Size
  minFilter : GLenum
  surface : Size
  mip : Int → Size
  /-- what earlier primitives have left in `itt[0]` and `itt[3]` -/
  origins : Int × Int := (0, 0)

def nearestMipmapNearest : GLenum := 0x2700

def computeLod (u : Unit) (l : Lerp) (t0 t1 t2 : Vec4) : Int :=
  let shift := 16 + (16 - 4)
  let product (s t : Int) := gglMulx (wrap32 s) (wrap32 t) shift
  let doubled := wrap32 (product (t1.x - t0.x) (t2.y - t0.y) -
    product (t2.x - t0.x) (t1.y - t0.y))
  let texelArea := wrap32 (doubled.natAbs * u.surface.width * u.surface.height)
  let log2TArea := (32 - 4 - 1) - clzOr [texelArea]
  let log2Area := (32 - 4 * 2 - 1) - clzAbs [l.area]
  (log2TArea - log2Area + 1) >>> (1 : Nat)

/-- What one unit is given: the level bound for the primitive, and `itt`. -/
structure TexGradient where
  lod : Option Int
  s : Gradient
  t : Gradient
  sScale : Int
  tScale : Int
deriving DecidableEq, Repr

/-- The loop body that `lerp_texcoords` and `lerp_texcoords_w` share; `weigh` multiplies the
coordinates of the three vertices by `w`. -/
def lerpUnit (u : Unit) (l : Lerp) (base : Int) (weigh : Int → Int → Int → Int × Int × Int)
    (t0 t1 t2 : Vec4) : TexGradient :=
  let lod := if u.minFilter ≥ nearestMipmapNearest then some (computeLod u l t0 t1 t2) else none
  let size := (lod.map u.mip).getD u.bound
  let width := if u.sClamp then size.width else 1
  let height := if u.tClamp then size.height else 1
  let (s0, s1, s2) := weigh (t0.x * width) (t1.x * width) (t2.x * width)
  let (t0, t1, t2) := weigh (t0.y * height) (t1.y * height) (t2.y * height)
  let (s, sScale) := l.iteratorsScale s0 s1 s2
  let (t, tScale) := l.iteratorsScale t0 t1 t2
  ⟨lod, s, t, base - sScale, base - tScale⟩

structure Setup where
  interpolateW : Bool
  unit : Fin 2 → Unit
  pointSize : Int
  lineWidth : Int

structure Context where
  pipeline : Pipeline
  setup : Setup
  polygonOffset : PolygonOffset

structure Planes where
  w : Option Gradient
  texture : Fin 2 → Option TexGradient
  color : Option (List Gradient)
  depth : Option Gradient
  fog : Option Gradient

def Planes.none : Planes := ⟨.none, fun _ => .none, .none, .none, .none⟩

variable (c : Context)

def lerpTexcoords (l : Lerp) (v0 v1 v2 : Vertex) (i : Fin 2) : Option TexGradient :=
  if c.pipeline.textureEnable i then
    some (lerpUnit (c.setup.unit i) l 0 (fun a b c => (a, b, c)) (v0.texture i) (v1.texture i)
      (v2.texture i))
  else none

def lerpTexcoordsW (l : Lerp) (v0 v1 v2 : Vertex) :
    Gradient × (Fin 2 → Option TexGradient) :=
  let w0 := v0.window.w
  let w1 := v1.window.w
  let w2 := v2.window.w
  let wscale := 32 - clzOr [w0, w1, w2]
  let (itw, sc) := l.iteratorsScale w0 w1 w2
  let sc := sc + (wscale - 16)
  let weigh (a b c : Int) := (mulx a w0 wscale, mulx b w1 wscale, mulx c w2 wscale)
  (itw, fun i =>
    if c.pipeline.textureEnable i then
      some (lerpUnit (c.setup.unit i) l sc weigh (v0.texture i) (v1.texture i) (v2.texture i))
    else none)

def lerpTriangle (l : Lerp) (v0 v1 v2 : Vertex) : Planes :=
  let p := c.pipeline
  let l := initLerp p.tmus l v0
  let withW := lerpTexcoordsW c l v0 v1 v2
  { w := if p.tmus && c.setup.interpolateW then some withW.1 else none
    texture := if p.tmus then
        (if c.setup.interpolateW then withW.2 else lerpTexcoords c l v0 v1 v2)
      else fun _ => none
    color := if p.smooth then
        some ((List.range 4).map fun i =>
          l.iterators1616 (v0.color.get i * 255) (v1.color.get i * 255) (v2.color.get i * 255))
      else none
    depth := if p.depthTest then
        some (depthGradient c.polygonOffset l (clampZ v0.window.z) (clampZ v1.window.z)
          (clampZ v2.window.z))
      else none
    fog := if p.fogging then some (l.iterators1616 v0.fog v1.fog v2.fog) else none }

/-- A point or a segment as the rasterizer gets it, and the flat colour it is drawn with. -/
inductive Drawn where
  | point (window : Vec4) (size : Int) (color : Vec4) (planes : Planes)
  | segment (start stop : Vec4) (width : Int) (color : Option Vec4) (planes : Planes)

/-- The texture coordinates of a point: `fetch_texcoord` with the vertex in all three places. -/
def texturePoint (p : Pipeline) (v : Vertex) : Vertex :=
  if !p.tmus then v
  else if v.flags &&& v.flags &&& v.flags &&& tt ≠ 0 then v
  else
    let unit (i : Fin 2) (v : Vertex) : Vertex :=
      if p.textureEnable i then texturize p i (texturize p i (texturize p i v)) else v
    markTT (markTT (markTT (unit 1 (unit 0 v))))

/-- The vertex `primitive_point` draws. -/
def pointVertex (p : Pipeline) (v : Vertex) : Vertex := texturePoint p (lightPoint p v)

theorem primitivePoint_vertex (p : Pipeline) (m : Machine) (slot : Nat) :
    (primitivePoint p m slot).verts slot = pointVertex p (m.verts slot) := by
  have shaded (m : Machine) (f : Vertex → Vertex) :
      (shade m slot f).verts slot = f (m.verts slot) := m.set_same slot _
  have unit (m : Machine) (i : Fin 2) : (if p.textureEnable i then
      shade (shade (shade m slot (texturize p i)) slot (texturize p i)) slot (texturize p i)
      else m).verts slot = if p.textureEnable i then
        texturize p i (texturize p i (texturize p i (m.verts slot))) else m.verts slot := by
    split_ifs
    · rw [shaded, shaded, shaded]
    · rfl
  have fetched (m : Machine) :
      (fetchTexcoord p m slot slot slot).verts slot = texturePoint p (m.verts slot) := by
    unfold fetchTexcoord texturePoint
    split_ifs
    · rfl
    · rfl
    · simp only [shaded, unit]
  unfold primitivePoint pointVertex
  by_cases textured : p.tmus = true
  · rw [if_pos textured, fetched, shaded]
  · rw [if_neg textured, shaded, texturePoint, if_pos (by simpa using textured)]

/-- A unit's part of `primitive_point`: `itt[0]` and `itt[3]` are assigned for clamping only. -/
def pointUnit (u : Unit) (t : Vec4) : TexGradient :=
  let s := if u.sClamp then t.x * u.surface.width else u.origins.1
  let t := if u.tClamp then t.y * u.surface.height else u.origins.2
  ⟨none, ⟨s, 0, 0⟩, ⟨t, 0, 0⟩, if u.sClamp then 0 else 16, if u.tClamp then 0 else 16⟩

/-- `primitive_point`, on the vertex it leaves in the buffer. -/
def drawnPoint (v : Vertex) : Drawn :=
  let p := c.pipeline
  .point v.window c.setup.pointSize v.color
    { w := none
      texture := fun i =>
        if p.tmus && p.textureEnable i then some (pointUnit (c.setup.unit i) (v.texture i))
        else none
      color := none
      depth := if p.depthTest then some ⟨wrap32 (clampZ v.window.z * 0x10001), 0, 0⟩ else none
      fog := if p.fogging then some ⟨v.fog, 0, 0⟩ else none }

private theorem clipAgainst_color {p : Pipeline} (flat : p.smooth = false) (plane : Plane)
    (nv : Vertex) (t : Int) (s q : Vertex) : (clipAgainst p plane nv t s q).color = nv.color := by
  cases plane with
  | user i | frustum i =>
    show (if p.smooth then _ else nv.color) = nv.color
    rw [flat]
    rfl

/-- `primitive_line` from its clipped vertices on. The flat colour was given before the clipping,
which leaves it alone. -/
def drawnLine (v0 v1 : Vertex) : Drawn :=
  let p := c.pipeline
  let planes := if p.tmus || p.smooth || c.setup.interpolateW || p.fogging || p.depthTest then
      lerpTriangle c (initLine v0 v1) v0 v1 v0
    else .none
  .segment v0.window v1.window c.setup.lineWidth (if p.smooth then none else some v1.color) planes

end RabbitRender.Arrays.Gradients
