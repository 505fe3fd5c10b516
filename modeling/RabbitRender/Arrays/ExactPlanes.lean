/- RabbitRender/Arrays/ExactPlanes
   layer: model, theorem
   source: swrender/primitives.cpp, libpixelflinger/pixelflinger.cpp
   digest: The planes a primitive installs, with exact quotients, and what they are at its
     vertices. -/

import RabbitRender.Arrays.GradientShifts
import Mathlib.Data.Rat.Defs
import Mathlib.Tactic.Ring
import Mathlib.Tactic.FieldSimp
import Mathlib.Tactic.LinearCombination
import Mathlib.Tactic.NormNum

set_option autoImplicit false

namespace RabbitRender.Arrays.ExactPlanes

open Fixed Vertices Primitives Arrays.Compile
open Arrays.Gradients
  (Context PolygonOffset Size clampZ clzOr computeLod mulx nearestMipmapNearest)

/-- `it[3]`: the value at the origin, if a statement has assigned it, and its derivatives for each
pixel. -/
structure Plane where
  c : Option ℚ
  dx : ℚ
  dy : ℚ
deriving DecidableEq

/-- The value at the window position of a vertex, which is in sixteenths of a pixel. -/
def Plane.at (p : Plane) (v : Vertex) : Option ℚ :=
  p.c.map fun c => c + (p.dx * v.window.x + p.dy * v.window.y) / 16

def Plane.Through (p : Plane) (value : Vertex → ℚ) (vertices : List Vertex) : Prop :=
  ∀ v ∈ vertices, p.at v = some (value v)

structure Lerp where
  dx01 : ℚ
  dy10 : ℚ
  dx20 : ℚ
  dy02 : ℚ
  area : Int
  x0 : ℚ
  y0 : ℚ

/-- The members it leaves out are those `initLerp` sets. -/
def initTriangle (v0 v1 v2 : Vertex) : Lerp :=
  let dx01 := v1.window.x - v0.window.x
  let dy10 := v0.window.y - v1.window.y
  let dx20 := v0.window.x - v2.window.x
  let dy02 := v2.window.y - v0.window.y
  ⟨dx01, dy10, dx20, dy02, dx01 * dy02 + -dy10 * dx20, 0, 0⟩

def initLine (v0 v1 : Vertex) : Lerp :=
  let dx := v1.window.x - v0.window.x
  let dy := v0.window.y - v1.window.y
  ⟨dx, dy, dy, dx, dx * dx + -dy * dy, 0, 0⟩

namespace Lerp

variable (l : Lerp)

/-- `abs(area) >= minArea`: "triangles with an area smaller than 1.0 are not smooth-shaded". -/
def Shaded : Prop := 2 ≤ ((l.area + triHalf) >>> (4 : Nat)).natAbs

instance : Decidable l.Shaded := inferInstanceAs (Decidable (_ ≤ _))

/-- The differences over the area, which `m_area` has in 1/256 of a square pixel. -/
def initLerp (v0 : Vertex) : Lerp :=
  let d : ℚ := if l.Shaded then 1 / ((l.area : ℚ) / 16) else 0
  { l with dx01 := l.dx01 * d, dy10 := l.dy10 * d, dx20 := l.dx20 * d, dy02 := l.dy02 * d,
           x0 := v0.window.x, y0 := v0.window.y }

/-- `iterators1616` -/
def iterators (c0 c1 c2 : ℚ) : Plane :=
  let dc01 := c1 - c0
  let dc02 := c2 - c0
  let dcdx := dc01 * l.dy02 + dc02 * l.dy10
  let dcdy := dc02 * l.dx01 + dc01 * l.dx20
  ⟨some (c0 - (dcdx * l.x0 + dcdy * l.y0) / 16), dcdx, dcdy⟩

/-- `iteratorsScale`, with the exponent the code picks for the words `r0`, `r1` and `r2`. -/
def iteratorsScale (fixed : Gradients.Lerp) (c0 c1 c2 : ℚ) (r0 r1 r2 : Int) : Plane × Int :=
  let scale := (fixed.iteratorsScale r0 r1 r2).2
  (l.iterators (c0 * 2 ^ scale) (c1 * 2 ^ scale) (c2 * 2 ^ scale), scale)

def iterators0032 (c0 c1 c2 : ℚ) : Plane :=
  l.iterators (c0 * 2 ^ 16) (c1 * 2 ^ 16) (c2 * 2 ^ 16)

end Lerp

/-- A texture unit: the planes of `itt` with the exponents `itt[6]` and `itt[7]`, and the surface
that is bound. -/
structure TexPlanes where
  s : Plane
  t : Plane
  sScale : Int
  tScale : Int
  surface : Size

/-- What the rasterizer interpolates over a primitive; `w` has its exponent. -/
structure Planes where
  color : Option (Fin 4 → Plane)
  depth : Option Plane
  fog : Option Plane
  w : Option (Plane × Int)
  texture : Fin 2 → Option TexPlanes

def Planes.none : Planes := ⟨.none, .none, .none, .none, fun _ => .none⟩

variable (c : Context)

/-- What `polygonOffset` adds to a depth plane. -/
def depthOffset (o : PolygonOffset) (it : Plane) : ℚ :=
  if o.enable then
    let units : ℚ := (o.units <<< (16 : Nat)).toInt
    if o.factor ≠ 0 then max it.dx it.dy * o.factor.toInt / 2 ^ 16 + units else units
  else 0

/-- The depth part of `lerp_triangle`. -/
def depthPlane (o : PolygonOffset) (l : Lerp) (z0 z1 z2 : Int) : Plane :=
  let it := l.iterators0032 z0 z1 z2
  { it with c := it.c.map fun c => c + depthOffset o it }

/-- The surface a unit is bound to for the primitive: the level of detail, if it has one. -/
def boundSurface (u : Gradients.Unit) (fixed : Gradients.Lerp) (t0 t1 t2 : Vec4) : Size :=
  if u.minFilter ≥ nearestMipmapNearest then u.mip (computeLod u fixed t0 t1 t2) else u.bound

/-- The factor of `s` that clamping asks for. -/
def sFactor (u : Gradients.Unit) (surface : Size) : Int := if u.sClamp then surface.width else 1

def tFactor (u : Gradients.Unit) (surface : Size) : Int := if u.tClamp then surface.height else 1

/-- The loop body of `lerp_texcoords`. -/
def lerpTexcoords (u : Gradients.Unit) (l : Lerp) (fixed : Gradients.Lerp) (t0 t1 t2 : Vec4) : TexPlanes :=
  let surface := boundSurface u fixed t0 t1 t2
  let width := sFactor u surface
  let height := tFactor u surface
  let plane (c0 c1 c2 : Int) := l.iteratorsScale fixed c0 c1 c2 c0 c1 c2
  let s := plane (t0.x * width) (t1.x * width) (t2.x * width)
  let t := plane (t0.y * height) (t1.y * height) (t2.y * height)
  ⟨s.1, t.1, -s.2, -t.2, surface⟩

/-- The plane of `w`, and the exponent the texture coordinates start from. -/
def lerpW (l : Lerp) (fixed : Gradients.Lerp) (w0 w1 w2 : Int) : (Plane × Int) × Int :=
  let wscale := 32 - clzOr [w0, w1, w2]
  let w := l.iteratorsScale fixed w0 w1 w2 w0 w1 w2
  (w, w.2 + (wscale - 16))

/-- The loop body of `lerp_texcoords_w`. -/
def lerpTexcoordsW (u : Gradients.Unit) (l : Lerp) (fixed : Gradients.Lerp) (w0 w1 w2 : Int)
    (t0 t1 t2 : Vec4) : TexPlanes :=
  let wscale := 32 - clzOr [w0, w1, w2]
  let sc := (lerpW l fixed w0 w1 w2).2
  let surface := boundSurface u fixed t0 t1 t2
  let width := sFactor u surface
  let height := tFactor u surface
  let plane (c0 c1 c2 : Int) :=
    l.iteratorsScale fixed (c0 * w0 / 2 ^ wscale) (c1 * w1 / 2 ^ wscale) (c2 * w2 / 2 ^ wscale)
      (mulx c0 w0 wscale) (mulx c1 w1 wscale) (mulx c2 w2 wscale)
  let s := plane (t0.x * width) (t1.x * width) (t2.x * width)
  let t := plane (t0.y * height) (t1.y * height) (t2.y * height)
  ⟨s.1, t.1, sc - s.2, sc - t.2, surface⟩

/-- `lerp_triangle`; `fixed` is the iterator as the code has it, for the exponents. -/
def lerpTriangle (l : Lerp) (fixed : Gradients.Lerp) (v0 v1 v2 : Vertex) : Planes :=
  let p := c.pipeline
  let l := l.initLerp v0
  let fixed := Gradients.initLerp p.tmus fixed v0
  let w0 := v0.window.w
  let w1 := v1.window.w
  let w2 := v2.window.w
  { color := if p.smooth then
        some fun i => l.iterators (v0.color.get i * 255) (v1.color.get i * 255)
          (v2.color.get i * 255)
      else none
    depth := if p.depthTest then
        some (depthPlane c.polygonOffset l (clampZ v0.window.z) (clampZ v1.window.z)
          (clampZ v2.window.z))
      else none
    fog := if p.fogging then some (l.iterators v0.fog v1.fog v2.fog) else none
    w := if p.tmus && c.setup.interpolateW then some (lerpW l fixed w0 w1 w2).1 else none
    texture := fun i =>
      if p.tmus && p.textureEnable i then
        some (if c.setup.interpolateW then
          lerpTexcoordsW (c.setup.unit i) l fixed w0 w1 w2 (v0.texture i) (v1.texture i)
            (v2.texture i)
        else
          lerpTexcoords (c.setup.unit i) l fixed (v0.texture i) (v1.texture i) (v2.texture i))
      else none }

/-- A unit's part of `primitive_point`: `itt[0]` and `itt[3]` are assigned for clamping only. -/
def pointUnit (u : Gradients.Unit) (t : Vec4) : TexPlanes :=
  { s := ⟨if u.sClamp then some (t.x * u.surface.width) else none, 0, 0⟩
    t := ⟨if u.tClamp then some (t.y * u.surface.height) else none, 0, 0⟩
    sScale := if u.sClamp then 0 else 16
    tScale := if u.tClamp then 0 else 16
    surface := u.surface }

/-- `primitive_point`. `color4xv` assigns the values at the origin and leaves the derivatives as
they were `before`. -/
def primitivePoint (before : Fin 4 → Plane) (v : Vertex) : Planes :=
  let p := c.pipeline
  { color := if p.smooth then
        some fun i => { before i with c := some (v.color.get i * 255) }
      else none
    depth := if p.depthTest then some ⟨some (clampZ v.window.z * 0x10001), 0, 0⟩ else none
    fog := if p.fogging then some ⟨some v.fog, 0, 0⟩ else none
    w := none
    texture := fun i =>
      if p.tmus && p.textureEnable i then some (pointUnit (c.setup.unit i) (v.texture i))
      else none }

/-- `primitive_line`, from its clipped vertices on. -/
def primitiveLine (v0 v1 : Vertex) : Planes :=
  let p := c.pipeline
  if p.tmus || p.smooth || c.setup.interpolateW || p.fogging || p.depthTest then
    lerpTriangle c (initLine v0 v1) (Gradients.initLine v0 v1) v0 v1 v0
  else .none

def triangle (v0 v1 v2 : Vertex) : Planes :=
  let p := c.pipeline
  if p.tmus || p.smooth || c.setup.interpolateW || p.fogging || p.depthTest then
    lerpTriangle c (initTriangle v0 v1 v2) (GradientShifts.initTriangle v0 v1 v2) v0 v1 v2
  else .none

/-- What the texture coordinates of a vertex are multiplied by where `w` is interpolated. -/
def Planes.weight (planes : Planes) (v : Vertex) : ℚ :=
  match planes.w with
  | .none => 1
  | some w => v.window.w * 2 ^ w.2 / 2 ^ 16

structure Passes (planes : Planes) (depth : Plane → Vertex → ℚ) (vertices : List Vertex) :
    Prop where
  color (it : Fin 4 → Plane) (installed : planes.color = some it) (i : Fin 4) :
    (it i).Through (fun v => v.color.get i * 255) vertices
  depth (it : Plane) (installed : planes.depth = some it) : it.Through (depth it) vertices
  fog (it : Plane) (installed : planes.fog = some it) : it.Through (fun v => v.fog) vertices
  w (it : Plane) (scale : Int) (installed : planes.w = some (it, scale)) :
    it.Through (fun v => v.window.w * 2 ^ scale) vertices
  s (i : Fin 2) (it : TexPlanes) (installed : planes.texture i = some it) :
    it.s.Through (fun v => ((v.texture i).x * sFactor (c.setup.unit i) it.surface : Int) *
      planes.weight v / 2 ^ it.sScale) vertices
  t (i : Fin 2) (it : TexPlanes) (installed : planes.texture i = some it) :
    it.t.Through (fun v => ((v.texture i).y * tFactor (c.setup.unit i) it.surface : Int) *
      planes.weight v / 2 ^ it.tScale) vertices

def ownDepth (v : Vertex) : ℚ := clampZ v.window.z * 2 ^ 16

/-- What the planes of a point are at it: neither the colours of smooth shading nor the texture
coordinates that are not clamped. -/
structure PassesPoint (planes : Planes) (v : Vertex) : Prop where
  depth (it : Plane) (installed : planes.depth = some it) :
    it.Through (fun v => clampZ v.window.z * 0x10001) [v]
  fog (it : Plane) (installed : planes.fog = some it) : it.Through (fun v => v.fog) [v]
  s (i : Fin 2) (it : TexPlanes) (installed : planes.texture i = some it)
    (clamped : (c.setup.unit i).sClamp = true) :
    it.s.Through (fun v => ((v.texture i).x * it.surface.width : Int) / 2 ^ it.sScale) [v]
  t (i : Fin 2) (it : TexPlanes) (installed : planes.texture i = some it)
    (clamped : (c.setup.unit i).tClamp = true) :
    it.t.Through (fun v => ((v.texture i).y * it.surface.height : Int) / 2 ^ it.tScale) [v]

theorem through_cons {p : Plane} {value : Vertex → ℚ} {v : Vertex} {vertices : List Vertex} :
    p.Through value (v :: vertices) ↔ p.at v = some (value v) ∧ p.Through value vertices :=
  List.forall_mem_cons

theorem through_nil (p : Plane) (value : Vertex → ℚ) : p.Through value [] :=
  fun _ member => absurd member List.not_mem_nil

namespace Lerp

variable (l : Lerp)

theorem iterators_at (v0 v : Vertex) (c0 c1 c2 : ℚ) :
    let it := (l.initLerp v0).iterators c0 c1 c2
    it.at v = some (c0 + (it.dx * (v.window.x - v0.window.x) +
      it.dy * (v.window.y - v0.window.y)) / 16) := by
  intro it
  show some _ = some _
  congr 1
  dsimp only [it, iterators, initLerp]
  ring

/-- The iterators interpolate between vertices whose values are those of `v0`, `v1` and `v2`. -/
def Fits (v0 v1 v2 : Vertex) (vertices : List Vertex) : Prop :=
  ∀ f : Vertex → ℚ, ((l.initLerp v0).iterators (f v0) (f v1) (f v2)).Through f vertices

theorem fits_first (v0 v1 v2 : Vertex) : l.Fits v0 v1 v2 [v0] := by
  intro f
  refine through_cons.mpr ⟨?_, through_nil _ _⟩
  rw [iterators_at, sub_self, sub_self, mul_zero, mul_zero, add_zero, zero_div, add_zero]

variable {l}

theorem Shaded.area_ne_zero (shaded : l.Shaded) : (l.area : ℚ) ≠ 0 := by
  intro zero
  have area : l.area = 0 := by exact_mod_cast zero
  rw [Shaded, area] at shaded
  exact absurd shaded (by decide)

theorem initLerp_flat (flat : ¬l.Shaded) (v0 : Vertex) (c0 c1 c2 : ℚ) :
    ((l.initLerp v0).iterators c0 c1 c2).dx = 0 ∧ ((l.initLerp v0).iterators c0 c1 c2).dy = 0 := by
  unfold iterators initLerp
  rw [if_neg flat]
  simp only [mul_zero, add_zero, and_self]

end Lerp

theorem fits_triangle {v0 v1 v2 : Vertex} (shaded : (initTriangle v0 v1 v2).Shaded) :
    (initTriangle v0 v1 v2).Fits v0 v1 v2 [v0, v1, v2] := by
  intro f
  have area := shaded.area_ne_zero
  have first := through_cons.mp ((initTriangle v0 v1 v2).fits_first v0 v1 v2 f)
  refine through_cons.mpr ⟨first.1, through_cons.mpr ⟨?_, through_cons.mpr ⟨?_, through_nil _ _⟩⟩⟩
  all_goals
    rw [Lerp.iterators_at]
    dsimp only [Lerp.iterators, Lerp.initLerp]
    rw [if_pos shaded]
    congr 1
    field_simp
    dsimp only [initTriangle]
    push_cast
    ring

theorem fits_line {v0 v1 : Vertex} (shaded : (initLine v0 v1).Shaded) :
    (initLine v0 v1).Fits v0 v1 v0 [v0, v1] := by
  intro f
  have area := shaded.area_ne_zero
  have first := through_cons.mp ((initLine v0 v1).fits_first v0 v1 v0 f)
  refine through_cons.mpr ⟨first.1, through_cons.mpr ⟨?_, through_nil _ _⟩⟩
  rw [Lerp.iterators_at]
  dsimp only [Lerp.iterators, Lerp.initLerp]
  rw [if_pos shaded]
  congr 1
  field_simp
  dsimp only [initLine]
  push_cast
  ring

section Fits

variable {l : Lerp} {v0 v1 v2 : Vertex} {vertices : List Vertex}

theorem through_congr {p : Plane} {f g : Vertex → ℚ} (through : p.Through f vertices)
    (same : ∀ v, f v = g v) : p.Through g vertices := by
  intro v member
  rw [through v member, same]

theorem depthPlane_through (fits : l.Fits v0 v1 v2 vertices) (o : PolygonOffset) :
    let it := depthPlane o (l.initLerp v0) (clampZ v0.window.z) (clampZ v1.window.z)
      (clampZ v2.window.z)
    it.Through (fun v => ownDepth v + depthOffset o it) vertices := by
  intro it v member
  have plain := Option.some.inj (fits ownDepth v member)
  show some (_ + depthOffset o it + _) = some _
  rw [add_right_comm]
  exact congrArg (fun depth => some (depth + depthOffset o it)) plain

theorem iteratorsScale_through (fits : l.Fits v0 v1 v2 vertices) (fixed : Gradients.Lerp)
    (f : Vertex → ℚ) (r0 r1 r2 : Int) :
    let it := (l.initLerp v0).iteratorsScale fixed (f v0) (f v1) (f v2) r0 r1 r2
    it.1.Through (fun v => f v * 2 ^ it.2) vertices :=
  fits fun v => f v * 2 ^ (fixed.iteratorsScale r0 r1 r2).2

theorem weighed (x w : ℚ) (wscale scale scale' : Int) :
    x * w / 2 ^ wscale * 2 ^ scale' =
      x * (w * 2 ^ scale / 2 ^ 16) / 2 ^ (scale + (wscale - 16) - scale') := by
  have two : (2 : ℚ) ≠ 0 := by norm_num
  have sixteen : (2 : ℚ) ^ (16 : Int) = 2 ^ 16 := zpow_natCast 2 16
  rw [zpow_sub₀ two, zpow_add₀ two, zpow_sub₀ two, sixteen]
  have nonzero (k : Int) : (2 : ℚ) ^ k ≠ 0 := zpow_ne_zero k two
  have a := nonzero wscale
  have b := nonzero scale
  have d := nonzero scale'
  field_simp

theorem plain_through (fits : l.Fits v0 v1 v2 vertices) (fixed : Gradients.Lerp)
    (coord : Vertex → Int) :
    let it := (l.initLerp v0).iteratorsScale fixed (coord v0) (coord v1) (coord v2) (coord v0)
      (coord v1) (coord v2)
    it.1.Through (fun v => coord v * 1 / 2 ^ (-it.2)) vertices := by
  intro it
  refine through_congr (iteratorsScale_through fits fixed (fun v => coord v) _ _ _) fun v => ?_
  rw [zpow_neg, div_inv_eq_mul, mul_one]

theorem weighted_through (fits : l.Fits v0 v1 v2 vertices) (fixed : Gradients.Lerp)
    (coord : Vertex → Int) :
    let wscale := 32 - clzOr [v0.window.w, v1.window.w, v2.window.w]
    let w := lerpW (l.initLerp v0) fixed v0.window.w v1.window.w v2.window.w
    let it := (l.initLerp v0).iteratorsScale fixed (coord v0 * v0.window.w / 2 ^ wscale)
      (coord v1 * v1.window.w / 2 ^ wscale) (coord v2 * v2.window.w / 2 ^ wscale)
      (mulx (coord v0) v0.window.w wscale) (mulx (coord v1) v1.window.w wscale)
      (mulx (coord v2) v2.window.w wscale)
    it.1.Through (fun v => coord v * (v.window.w * 2 ^ w.1.2 / 2 ^ 16) / 2 ^ (w.2 - it.2))
      vertices := by
  intro wscale w it
  refine through_congr (iteratorsScale_through fits fixed
    (fun v => coord v * v.window.w / 2 ^ wscale) _ _ _) fun v => ?_
  exact weighed (coord v) v.window.w wscale w.1.2 it.2

theorem lerpTriangle_texture {fixed : Gradients.Lerp} {i : Fin 2} {it : TexPlanes}
    (installed : (lerpTriangle c l fixed v0 v1 v2).texture i = some it) :
    let fixed' := Gradients.initLerp c.pipeline.tmus fixed v0
    let w := lerpW (l.initLerp v0) fixed' v0.window.w v1.window.w v2.window.w
    ((lerpTriangle c l fixed v0 v1 v2).weight = if c.setup.interpolateW then
      fun v => (v.window.w : ℚ) * 2 ^ w.1.2 / 2 ^ 16 else fun _ => 1) ∧
    (if c.setup.interpolateW then
      lerpTexcoordsW (c.setup.unit i) (l.initLerp v0) fixed' v0.window.w v1.window.w v2.window.w
        (v0.texture i) (v1.texture i) (v2.texture i)
    else
      lerpTexcoords (c.setup.unit i) (l.initLerp v0) fixed' (v0.texture i) (v1.texture i)
        (v2.texture i)) = it := by
  intro fixed' w
  obtain ⟨enabled, same⟩ := Option.ite_none_right_eq_some.mp installed
  have tmus : c.pipeline.tmus = true := (Bool.and_eq_true _ _ ▸ enabled).1
  refine ⟨?_, Option.some.inj same⟩
  funext v
  by_cases interpolated : c.setup.interpolateW = true
  · have planeW : (lerpTriangle c l fixed v0 v1 v2).w = some w.1 := by
      apply if_pos
      rw [tmus, interpolated]
      rfl
    rw [if_pos interpolated, Planes.weight, planeW]
  · have planeW : (lerpTriangle c l fixed v0 v1 v2).w = .none := by
      apply if_neg
      rw [tmus, Bool.eq_false_of_not_eq_true interpolated]
      decide
    rw [if_neg interpolated, Planes.weight, planeW]

theorem lerpTriangle_passes (fits : l.Fits v0 v1 v2 vertices) (fixed : Gradients.Lerp) :
    Passes c (lerpTriangle c l fixed v0 v1 v2)
      (fun it v => ownDepth v + depthOffset c.polygonOffset it) vertices where
  color := by
    intro it installed i
    obtain ⟨_, same⟩ := Option.ite_none_right_eq_some.mp installed
    rw [← Option.some.inj same]
    exact fits fun v => v.color.get i * 255
  depth := by
    intro it installed
    obtain ⟨_, same⟩ := Option.ite_none_right_eq_some.mp installed
    rw [← Option.some.inj same]
    exact depthPlane_through fits c.polygonOffset
  fog := by
    intro it installed
    obtain ⟨_, same⟩ := Option.ite_none_right_eq_some.mp installed
    rw [← Option.some.inj same]
    exact fits fun v => v.fog
  w := by
    intro it scale installed
    obtain ⟨_, same⟩ := Option.ite_none_right_eq_some.mp installed
    obtain ⟨rfl, rfl⟩ := Prod.mk.inj (Option.some.inj same)
    exact iteratorsScale_through fits _ (fun v => v.window.w) _ _ _
  s := by
    intro i it installed
    obtain ⟨weight, same⟩ := lerpTriangle_texture c installed
    by_cases interpolated : c.setup.interpolateW
    · rw [if_pos interpolated] at weight same
      rw [weight, ← same]
      exact weighted_through fits _ fun v => (v.texture i).x * _
    · rw [if_neg interpolated] at weight same
      rw [weight, ← same]
      exact plain_through fits _ fun v => (v.texture i).x * _
  t := by
    intro i it installed
    obtain ⟨weight, same⟩ := lerpTriangle_texture c installed
    by_cases interpolated : c.setup.interpolateW
    · rw [if_pos interpolated] at weight same
      rw [weight, ← same]
      exact weighted_through fits _ fun v => (v.texture i).y * _
    · rw [if_neg interpolated] at weight same
      rw [weight, ← same]
      exact plain_through fits _ fun v => (v.texture i).y * _

theorem passes_none (depth : Plane → Vertex → ℚ) : Passes c Planes.none depth vertices where
  color := fun _ installed => absurd installed.symm (Option.some_ne_none _)
  depth := fun _ installed => absurd installed.symm (Option.some_ne_none _)
  fog := fun _ installed => absurd installed.symm (Option.some_ne_none _)
  w := fun _ _ installed => absurd installed.symm (Option.some_ne_none _)
  s := fun _ _ installed => absurd installed.symm (Option.some_ne_none _)
  t := fun _ _ installed => absurd installed.symm (Option.some_ne_none _)

structure Level (planes : Planes) : Prop where
  color (it : Fin 4 → Plane) (installed : planes.color = some it) (i : Fin 4) :
    (it i).dx = 0 ∧ (it i).dy = 0
  depth (it : Plane) (installed : planes.depth = some it) : it.dx = 0 ∧ it.dy = 0
  fog (it : Plane) (installed : planes.fog = some it) : it.dx = 0 ∧ it.dy = 0
  w (it : Plane × Int) (installed : planes.w = some it) : it.1.dx = 0 ∧ it.1.dy = 0
  texture (i : Fin 2) (it : TexPlanes) (installed : planes.texture i = some it) :
    (it.s.dx = 0 ∧ it.s.dy = 0) ∧ it.t.dx = 0 ∧ it.t.dy = 0

theorem level_none : Level Planes.none where
  color := fun _ installed => absurd installed.symm (Option.some_ne_none _)
  depth := fun _ installed => absurd installed.symm (Option.some_ne_none _)
  fog := fun _ installed => absurd installed.symm (Option.some_ne_none _)
  w := fun _ installed => absurd installed.symm (Option.some_ne_none _)
  texture := fun _ _ installed => absurd installed.symm (Option.some_ne_none _)

theorem lerpTriangle_level (flat : ¬l.Shaded) (fixed : Gradients.Lerp) :
    Level (lerpTriangle c l fixed v0 v1 v2) := by
  refine ⟨fun it installed i => ?color, fun it installed => ?depth, fun it installed => ?fog,
    fun it installed => ?w, fun i it installed => ?texture⟩
  case texture =>
    obtain ⟨_, same⟩ := lerpTriangle_texture c installed
    rw [← same]
    split_ifs
    all_goals exact ⟨Lerp.initLerp_flat flat _ _ _ _, Lerp.initLerp_flat flat _ _ _ _⟩
  all_goals
    obtain ⟨_, same⟩ := Option.ite_none_right_eq_some.mp installed
    rw [← Option.some.inj same]
    exact Lerp.initLerp_flat flat _ _ _ _

end Fits

theorem primitivePoint_passes (before : Fin 4 → Plane) (v : Vertex) :
    PassesPoint c (primitivePoint c before v) v := by
  have constant (value : ℚ) : (⟨some value, 0, 0⟩ : Plane).at v = some value := by
    show some (value + (0 * _ + 0 * _) / 16) = some value
    rw [zero_mul, zero_mul, add_zero, zero_div, add_zero]
  have only {p : Plane} {f : Vertex → ℚ} (at' : p.at v = some (f v)) : p.Through f [v] :=
    through_cons.mpr ⟨at', through_nil _ _⟩
  refine ⟨?_, ?_, ?_, ?_⟩
  · intro it installed
    obtain ⟨_, same⟩ := Option.ite_none_right_eq_some.mp installed
    rw [← Option.some.inj same]
    exact only (constant _)
  · intro it installed
    obtain ⟨_, same⟩ := Option.ite_none_right_eq_some.mp installed
    rw [← Option.some.inj same]
    exact only (constant _)
  · intro i it installed clamped
    obtain ⟨_, same⟩ := Option.ite_none_right_eq_some.mp installed
    rw [← Option.some.inj same, pointUnit, clamped, if_pos rfl, if_pos rfl]
    apply only
    rw [constant, zpow_zero, div_one, Int.cast_mul]
  · intro i it installed clamped
    obtain ⟨_, same⟩ := Option.ite_none_right_eq_some.mp installed
    rw [← Option.some.inj same, pointUnit, clamped, if_pos rfl, if_pos rfl]
    apply only
    rw [constant, zpow_zero, div_one, Int.cast_mul]

/-- A triangle whose area passes the guard, a line whose difference of squares does, and a point
have planes through their vertices, up to the polygon offset; below the guard the planes of a
triangle are level. -/
theorem planes_through_vertices :
    let depth (it : Plane) (v : Vertex) := ownDepth v + depthOffset c.polygonOffset it
    (∀ v0 v1 v2, Passes c (triangle c v0 v1 v2) depth [v0] ∧
      if (initTriangle v0 v1 v2).Shaded then Passes c (triangle c v0 v1 v2) depth [v0, v1, v2]
      else Level (triangle c v0 v1 v2)) ∧
    (∀ v0 v1, (initLine v0 v1).Shaded → Passes c (primitiveLine c v0 v1) depth [v0, v1]) ∧
    ∀ before v, PassesPoint c (primitivePoint c before v) v := by
  intro depth
  refine ⟨fun v0 v1 v2 => ?_, fun v0 v1 shaded => ?_, primitivePoint_passes c⟩
  · unfold triangle
    dsimp only
    split_ifs with any shaded
    · exact ⟨lerpTriangle_passes c (Lerp.fits_first _ _ _ _) _,
        lerpTriangle_passes c (fits_triangle shaded) _⟩
    · exact ⟨lerpTriangle_passes c (Lerp.fits_first _ _ _ _) _, lerpTriangle_level c shaded _⟩
    · exact ⟨passes_none c _, passes_none c _⟩
    · exact ⟨passes_none c _, level_none⟩
  · unfold primitiveLine
    dsimp only
    split_ifs
    · exact lerpTriangle_passes c (fits_line shaded) _
    · exact passes_none c _

section Samples

private def white : Int := 0x10000

private def corner (x y : Int) (value : Int) : Vertex :=
  { Vertex.zero with window := ⟨x, y, 0, white⟩, color := ⟨value, value, value, value⟩ }

private def setup : Gradients.Setup :=
  { interpolateW := false, pointSize := 0x10000, lineWidth := 0x10000
    unit := fun _ => { sClamp := false, tClamp := false, bound := ⟨8, 8⟩, minFilter := 0x2600
                       surface := ⟨8, 8⟩, mip := fun _ => ⟨8, 8⟩ } }

private def smoothOnly : Context :=
  { pipeline := { Pipeline.flat (fun _ => ⟨0, 0, 0, 0⟩) with smooth := true }, setup := setup
    polygonOffset := ⟨false, 0, 0⟩ }

private def depthOnly : Context :=
  { pipeline := { Pipeline.flat (fun _ => ⟨0, 0, 0, 0⟩) with depthTest := true }, setup := setup
    polygonOffset := ⟨true, 0, 1⟩ }

private def texturedOnly : Context :=
  { pipeline := { Pipeline.flat (fun _ => ⟨0, 0, 0, 0⟩) with
      tmus := true, textureEnable := fun _ => true }
    setup := setup, polygonOffset := ⟨false, 0, 0⟩ }

theorem planes_through_samples :
    Passes smoothOnly (triangle smoothOnly (corner 0 0 0) (corner 160 0 white) (corner 0 160 0))
      (fun it v => ownDepth v + depthOffset smoothOnly.polygonOffset it)
      [corner 0 0 0, corner 160 0 white, corner 0 160 0] ∧
    Passes smoothOnly (primitiveLine smoothOnly (corner 0 0 0) (corner 160 80 white))
      (fun it v => ownDepth v + depthOffset smoothOnly.polygonOffset it)
      [corner 0 0 0, corner 160 80 white] := by
  obtain ⟨triangles, lines, _⟩ := planes_through_vertices smoothOnly
  have shaded : (initTriangle (corner 0 0 0) (corner 160 0 white) (corner 0 160 0)).Shaded := by
    decide
  have passes := (triangles (corner 0 0 0) (corner 160 0 white) (corner 0 160 0)).2
  rw [if_pos shaded] at passes
  exact ⟨passes, lines _ _ (by decide)⟩

/-- A triangle below the guard, one with a polygon offset, a line of 45°, a smooth point after a
sloping colour, and a point with a repeated texture. -/
theorem planes_missing :
    ((initTriangle (corner 0 0 0) (corner 1 0 white) (corner 0 1 0)).area ≠ 0 ∧
      ¬Passes smoothOnly (triangle smoothOnly (corner 0 0 0) (corner 1 0 white) (corner 0 1 0))
        (fun _ => ownDepth) [corner 0 0 0, corner 1 0 white, corner 0 1 0]) ∧
    ((initTriangle (corner 0 0 0) (corner 160 0 0) (corner 0 160 0)).area ≠ 0 ∧
      ¬Passes depthOnly (triangle depthOnly (corner 0 0 0) (corner 160 0 0) (corner 0 160 0))
        (fun _ => ownDepth) [corner 0 0 0, corner 160 0 0, corner 0 160 0]) ∧
    ¬Passes smoothOnly (primitiveLine smoothOnly (corner 0 0 0) (corner 160 160 white))
      (fun _ => ownDepth) [corner 0 0 0, corner 160 160 white] ∧
    ¬Passes smoothOnly (primitivePoint smoothOnly (fun _ => ⟨some 0, 1, 0⟩) (corner 160 160 0))
      (fun _ v => clampZ v.window.z * 0x10001) [corner 160 160 0] ∧
    ¬Passes texturedOnly
      (primitivePoint texturedOnly (fun _ => ⟨some 0, 0, 0⟩) (corner 160 160 0))
      (fun _ v => clampZ v.window.z * 0x10001) [corner 160 160 0] := by
  refine ⟨⟨by decide, fun passes => ?_⟩, ⟨by decide, fun passes => ?_⟩, fun passes => ?_,
    fun passes => ?_, fun passes => ?_⟩
  · have value := passes.color _ rfl 0 (corner 1 0 white) (by simp)
    revert value
    decide +kernel
  · have value := passes.depth _ rfl (corner 0 0 0) (by simp)
    revert value
    decide +kernel
  · have value := passes.color _ rfl 0 (corner 160 160 white) (by simp)
    revert value
    decide +kernel
  · have value := passes.color _ rfl 0 (corner 160 160 0) (by simp)
    revert value
    decide +kernel
  · have value := passes.s 0 _ rfl (corner 160 160 0) (by simp)
    revert value
    decide +kernel

end Samples

end RabbitRender.Arrays.ExactPlanes
