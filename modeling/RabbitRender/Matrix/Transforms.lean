/- RabbitRender/Matrix/Transforms
   layer: model
   source: swrender/matrix.cpp, swrender/array.cpp
   digest: Matrix stacks, the viewport matrix, and the cached product of both with its dirty bits. -/

import Mathlib.Data.Fin.VecNotation
import Mathlib.Logic.Function.Basic
import RabbitRender.GL

set_option autoImplicit false

namespace RabbitRender.Matrix.Transforms

open RabbitRender.GL (GLenum)

-- What the code does with `GLfloat`. No law is assumed: the model copies the order of the
-- operations, so every result about it holds for IEEE single precision.
class GLfloat (F : Type) extends Zero F, One F, Add F, Sub F, Mul F, Neg F where
  /-- `gglFloatToFixed` -/
  toFixed : F → Int
  /-- `fixedToFloat` -/
  ofFixed : Int → F
  /-- conversion of an `int` -/
  ofInt : Int → F
  mul2f : F → F
  div2f : F → F
  reciprocalf : F → F
  sqrtf : F → F
  /-- `sincosf`, the sine first -/
  sincosf : F → F × F
  /-- `GLfloat(M_PI / 180.0f)` -/
  degree : F
  /-- `v > 1` -/
  gtOne : F → Bool
  clampToZerof : F → F
  isZerof : F → Bool
  isOnef : F → Bool
  cmpf : F → F → Bool
  /-- `x == y` -/
  eqf : F → F → Bool
  isZeroOrNegativef : F → Bool

open GLfloat

/-- `matrixf_t`. Column `i` and row `j` are at `j + 4 * i`. -/
abbrev Matrixf (F : Type) := Fin 16 → F

/-- `matrixx_t`. -/
abbrev Matrixx := Fin 16 → Int

/-- `I(i, j)`. -/
def index (i j : Fin 4) : Fin 16 := ⟨j + 4 * i, by omega⟩

def gIdentityx : Matrixx := fun n => if n.val % 5 = 0 then 0x10000 else 0

section Matrixf

variable {F : Type} [GLfloat F]

def identityf : Matrixf F := fun n => if n.val % 5 = 0 then 1 else 0

/-- `matrixf_t::multiply(r, lhs, rhs)`. -/
def multiply (lhs rhs : Matrixf F) : Matrixf F := fun n =>
  let i : Fin 4 := ⟨n / 4, by omega⟩
  let k : Fin 4 := ⟨n % 4, by omega⟩
  lhs (index 0 k) * rhs (index i 0) + lhs (index 1 k) * rhs (index i 1) +
    lhs (index 2 k) * rhs (index i 2) + lhs (index 3 k) * rhs (index i 3)

/-- `matrixx_t::load`. -/
def toMatrixx (m : Matrixf F) : Matrixx := fun n => if isZerof (m n) then 0 else toFixed (m n)

def ofMatrixx (m : Matrixx) : Matrixf F := fun n => ofFixed (m n)

def translate (m : Matrixf F) (x y z : F) : Matrixf F := fun n =>
  if 12 ≤ n.val then
    let i : Fin 4 := ⟨n % 4, by omega⟩
    m n + (m (index 0 i) * x + m (index 1 i) * y + m (index 2 i) * z)
  else m n

def scale (m : Matrixf F) (x y z : F) : Matrixf F := fun n =>
  if n.val < 4 then m n * x else if n.val < 8 then m n * y else if n.val < 12 then m n * z else m n

def ofColumns (c0 c1 c2 c3 : Fin 4 → F) : Matrixf F := fun n =>
  let j : Fin 4 := ⟨n % 4, by omega⟩
  if n.val < 4 then c0 j else if n.val < 8 then c1 j else if n.val < 12 then c2 j else c3 j

/-- The matrix `rotate` multiplies by. -/
def rotation (a x y z : F) : Matrixf F :=
  let (s, c) := sincosf (a * degree)
  let last : Fin 4 → F := ![0, 0, 0, 1]
  if isOnef x && isZerof y && isZerof z then
    ofColumns ![1, 0, 0, 0] ![0, c, s, 0] ![0, -s, c, 0] last
  else if isZerof x && isOnef y && isZerof z then
    ofColumns ![c, 0, -s, 0] ![0, 1, 0, 0] ![s, 0, c, 0] last
  else if isZerof x && isZerof y && isOnef z then
    ofColumns ![c, s, 0, 0] ![-s, c, 0, 0] ![0, 0, 1, 0] last
  else
    let len := sqrtf (x * x + y * y + z * z)
    let recipLen := if isOnef len then 1 else reciprocalf len
    let x := if isOnef len then x else x * recipLen
    let y := if isOnef len then y else y * recipLen
    let z := if isOnef len then z else z * recipLen
    let nc := 1 - c
    let xy := x * y
    let yz := y * z
    let zx := z * x
    let xs := x * s
    let ys := y * s
    let zs := z * s
    ofColumns ![x * x * nc + c, xy * nc + zs, zx * nc - ys, 0]
      ![xy * nc - zs, y * y * nc + c, yz * nc + xs, 0]
      ![zx * nc + ys, yz * nc - xs, z * z * nc + c, 0] last

/-- The matrix of `frustumf`, when its arguments are accepted. -/
def frustum (left right bottom top zNear zFar : F) : Option (Matrixf F) :=
  if cmpf left right || cmpf top bottom || cmpf zNear zFar || isZeroOrNegativef zNear ||
      isZeroOrNegativef zFar then none
  else
    let rWidth := reciprocalf (right - left)
    let rHeight := reciprocalf (top - bottom)
    let rDepth := reciprocalf (zNear - zFar)
    some (ofColumns ![mul2f (zNear * rWidth), 0, 0, 0] ![0, mul2f (zNear * rHeight), 0, 0]
      ![mul2f ((right + left) * rWidth), (top + bottom) * rHeight, (zFar + zNear) * rDepth, -1]
      ![0, 0, mul2f (zFar * zNear * rDepth), 0])

/-- The matrix of `orthof`, when its arguments are accepted. -/
def ortho (left right bottom top zNear zFar : F) : Option (Matrixf F) :=
  if cmpf left right || cmpf top bottom || cmpf zNear zFar then none
  else
    let rWidth := reciprocalf (right - left)
    let rHeight := reciprocalf (top - bottom)
    let rDepth := reciprocalf (zFar - zNear)
    some (ofColumns ![mul2f rWidth, 0, 0, 0] ![0, mul2f rHeight, 0, 0] ![0, 0, -mul2f rDepth, 0]
      ![-(right + left) * rWidth, -(top + bottom) * rHeight, -(zFar + zNear) * rDepth, 1])

end Matrixf

/-- The functions behind `point2`, `point3` and `point4`. -/
inductive Points where
  | nop
  | generic
  | mvui
deriving DecidableEq, Repr

/-- `transform_t`; `projection2D` is `FLAGS_2D_PROJECTION`. -/
structure Transform where
  matrix : Matrixx
  projection2D : Bool
  points : Points

def Transform.identity : Transform := ⟨gIdentityx, false, .nop⟩

def notZero (v : Int) : Bool := 4 ≤ v.natAbs

def notOne (v : Int) : Bool := notZero (v - 0x10000)

/-- The test of `transform_t::picker`. -/
def is2D (m : Matrixx) : Bool := !(notZero (m 3) || notZero (m 7) || notZero (m 11) || notOne (m 15))

/-- Load a matrix and pick: `matrix.load`, then `picker`. -/
def Transform.load {F : Type} [GLfloat F] (m : Matrixf F) : Transform :=
  ⟨toMatrixx m, is2D (toMatrixx m), .generic⟩

def opIdentity : BitVec 8 := 0x00
def opTranslate : BitVec 8 := 0x01
def opUniformScale : BitVec 8 := 0x02
def opScale : BitVec 8 := 0x05
def opRotate : BitVec 8 := 0x08
def opAll : BitVec 8 := 0x1F

/-- `matrix_stack_t`, with `DO_PICKER` and `DO_FLOAT_TO_FIXED` as two flags. -/
structure MatrixStack (F : Type) where
  transform : Transform
  maxDepth : Nat
  depth : Nat
  doPicker : Bool
  doFloatToFixed : Bool
  stack : Nat → Matrixf F
  ops : Nat → BitVec 8

namespace MatrixStack

variable {F : Type} [GLfloat F]

def top (s : MatrixStack F) : Matrixf F := s.stack s.depth

def topOps (s : MatrixStack F) : BitVec 8 := s.ops s.depth

def setTop (s : MatrixStack F) (m : Matrixf F) (ops : BitVec 8) : MatrixStack F :=
  { s with
    stack := Function.update s.stack s.depth m
    ops := Function.update s.ops s.depth ops }

def loadIdentity (s : MatrixStack F) : MatrixStack F :=
  { s.setTop identityf opIdentity with transform := .identity }

/-- `init`, in a context that has been cleared. -/
def init (maxDepth : Nat) : MatrixStack F :=
  loadIdentity ⟨.identity, maxDepth, 0, false, false, fun _ _ => 0, fun _ => 0⟩

/-- `load(GLfixed const*)` also loads the fixed-point transform. -/
def loadx (s : MatrixStack F) (rhs : Matrixx) : MatrixStack F :=
  { s.setTop (ofMatrixx rhs) opAll with transform := { s.transform with matrix := rhs } }

/-- `load(GLfloat const*)` -/
def loadf (s : MatrixStack F) (rhs : Matrixf F) : MatrixStack F := s.setTop rhs opAll

def multiply (s : MatrixStack F) (rhs : Matrixf F) : MatrixStack F :=
  s.setTop (Transforms.multiply s.top rhs) opAll

def translate (s : MatrixStack F) (x y z : F) : MatrixStack F :=
  s.setTop (Transforms.translate s.top x y z) (s.topOps ||| opTranslate)

def scale (s : MatrixStack F) (x y z : F) : MatrixStack F :=
  s.setTop (Transforms.scale s.top x y z)
    (s.topOps ||| if eqf x y && eqf y z then opUniformScale else opScale)

def rotate (s : MatrixStack F) (a x y z : F) : MatrixStack F :=
  s.setTop (Transforms.multiply s.top (rotation a x y z)) (s.topOps ||| opRotate)

def validate (s : MatrixStack F) : MatrixStack F :=
  let loaded := if s.doFloatToFixed then { s.transform with matrix := toMatrixx s.top }
    else s.transform
  let picked := if s.doPicker then
      { loaded with projection2D := is2D loaded.matrix, points := .generic }
    else loaded
  { s with transform := picked, doPicker := false, doFloatToFixed := false }

def push (s : MatrixStack F) : Option (MatrixStack F) :=
  if s.depth ≥ s.maxDepth - 1 then none
  else
    some { s with
      stack := Function.update s.stack (s.depth + 1) s.top
      ops := Function.update s.ops (s.depth + 1) s.topOps
      depth := s.depth + 1 }

def pop (s : MatrixStack F) : Option (MatrixStack F) :=
  if s.depth = 0 then none else some { s with depth := s.depth - 1 }

end MatrixStack

/-- The bits of `transform_state_t::dirty`, and of the set a validation wants. -/
structure Bits where
  modelview : Bool := false
  projection : Bool := false
  viewport : Bool := false
  texture : Bool := false
  mvui : Bool := false
  mvit : Bool := false
  mvp : Bool := false
deriving DecidableEq, Repr

def Bits.inter (a b : Bits) : Bits :=
  ⟨a.modelview && b.modelview, a.projection && b.projection, a.viewport && b.viewport,
    a.texture && b.texture, a.mvui && b.mvui, a.mvit && b.mvit, a.mvp && b.mvp⟩

def Bits.diff (a b : Bits) : Bits :=
  ⟨a.modelview && !b.modelview, a.projection && !b.projection, a.viewport && !b.viewport,
    a.texture && !b.texture, a.mvui && !b.mvui, a.mvit && !b.mvit, a.mvp && !b.mvp⟩

def Bits.any (a : Bits) : Bool :=
  a.modelview || a.projection || a.viewport || a.texture || a.mvui || a.mvit || a.mvp

/-- What `current` points to; `matrixMode` is the kind of it. -/
inductive Current where
  | modelview
  | projection
  | texture (unit : Fin 2)
deriving DecidableEq, Repr

/-- `vp_transform_t`. -/
structure Viewport (F : Type) where
  transform : Transform
  matrix : Matrixf F
  zNear : F
  zFar : F

/-- The value of `arrays.perspective`. -/
inductive Perspective where
  | validate
  | perspective2D
  | perspective3D
  | perspective3DZ
  | clipAllPerspective3D
  | clipAllPerspective3DZ
deriving DecidableEq, Repr

/-- The transform state with the parts of the context its functions use. `activeUnit` is the
texture unit `glMatrixMode` selects, `surface` the origin of the surface and the height of the
colour buffer, and `inverse` the matrix inversion. -/
structure Context (F : Type) where
  current : Current
  modelview : MatrixStack F
  projection : MatrixStack F
  texture : Fin 2 → MatrixStack F
  mvp : Transform
  vpt : Viewport F
  mvp4 : Transform
  mvit4 : Transform
  mvui : Transform
  dirty : Bits
  perspective : Perspective
  vertexSize : Int
  activeUnit : Fin 2
  surface : Int × Int × Int
  inverse : Matrixf F → Matrixf F
  error : GLenum

variable {F : Type} [GLfloat F]

def oglesError (c : Context F) (error : GLenum) : Context F :=
  { c with error := GL.firstError c.error error }

def Context.stack (c : Context F) : MatrixStack F :=
  match c.current with
  | .modelview => c.modelview
  | .projection => c.projection
  | .texture i => c.texture i

def Context.setStack (c : Context F) (s : MatrixStack F) : Context F :=
  match c.current with
  | .modelview => { c with modelview := s }
  | .projection => { c with projection := s }
  | .texture i => { c with texture := Function.update c.texture i s }

/-- `ogles_init_matrix`, after `ogles_init_array` has set the vertex size. -/
def init (activeUnit : Fin 2) (surface : Int × Int × Int) (inverse : Matrixf F → Matrixf F) :
    Context F :=
  { current := .modelview, modelview := .init 16, projection := .init 2, texture := fun _ => .init 2,
    mvp := .identity, vpt := ⟨.identity, identityf, 0, 1⟩, mvp4 := .identity, mvit4 := .identity,
    mvui := .identity, dirty := { viewport := true, mvui := true, mvit := true, mvp := true },
    perspective := .validate, vertexSize := 4, activeUnit := activeUnit, surface := surface,
    inverse := inverse, error := GL.noError }

/-- `transform_state_t::invalidate`. -/
def invalidate (c : Context F) : Context F :=
  let dirty := match c.current with
    | .modelview => { c.dirty with modelview := true, mvp := true, mvui := true, mvit := true }
    | .projection => { c.dirty with projection := true, mvp := true }
    | .texture _ => { c.dirty with texture := true, mvp := true }
  { c.setStack { c.stack with doPicker := true, doFloatToFixed := true } with dirty := dirty }

/-- `transform_state_t::update_mvp`. -/
def updateMvp (c : Context F) : Context F :=
  let product := multiply c.projection.top c.modelview.top
  let mvp4 : Transform := .load product
  let mvp : Transform := if mvp4.projection2D then .load (multiply c.vpt.matrix product) else mvp4
  { c with mvp4 := mvp4, mvp := mvp }

def inverseTranspose (c : Context F) : Matrixx :=
  let r := c.inverse c.modelview.top
  fun n => toFixed (r (index ⟨n % 4, by omega⟩ ⟨n / 4, by omega⟩))

def updateMvit (c : Context F) : Context F :=
  { c with mvit4 := ⟨inverseTranspose c, is2D (inverseTranspose c), .generic⟩ }

/-- `update_mvui`, with lighting in eye space. -/
def updateMvui (c : Context F) : Context F :=
  { c with mvui := ⟨inverseTranspose c, false, .mvui⟩ }

/-- The stacks and the viewport transform, in the order of `ogles_validate_transform_impl`. -/
def validateStacks (c : Context F) (dirty : Bits) : Context F :=
  let c := if dirty.modelview then { c with modelview := c.modelview.validate } else c
  let c := if dirty.projection then { c with projection := c.projection.validate } else c
  if dirty.viewport then { c with vpt := { c.vpt with transform := .load c.vpt.matrix } } else c

def validateMvp (c : Context F) (dirty : Bits) : Context F :=
  if dirty.mvp then { updateMvp c with perspective := .validate } else c

def validateDerived (c : Context F) (dirty : Bits) : Context F :=
  let c := if dirty.mvui then updateMvui c else c
  let c := if dirty.texture then { c with texture := fun i => (c.texture i).validate } else c
  if dirty.mvit then updateMvit c else c

/-- `ogles_validate_transform` and, where a wanted bit is dirty, `ogles_validate_transform_impl`. -/
def validateTransform (c : Context F) (want : Bits) : Context F :=
  let dirty := c.dirty.inter want
  if dirty.any then
    let c := validateDerived (validateMvp (validateStacks c dirty) dirty) dirty
    { c with dirty := c.dirty.diff want }
  else c

/-- The choice `validate_perspective` makes. -/
def choosePerspective (clipPlanes depthTest fog : Bool) (vertexSize : Int) (projection2D : Bool) :
    Perspective :=
  if vertexSize ≠ 4 && projection2D then .perspective2D
  else if depthTest || fog then
    if clipPlanes || fog then .clipAllPerspective3DZ else .perspective3DZ
  else if clipPlanes then .clipAllPerspective3D else .perspective3D

/-- The first vertex of a draw call replaces `validate_perspective` by its choice. -/
def resolvePerspective (c : Context F) (clipPlanes depthTest fog : Bool) : Context F :=
  match c.perspective with
  | .validate =>
    let choice := choosePerspective clipPlanes depthTest fog c.vertexSize c.mvp4.projection2D
    { c with perspective := choice }
  | _ => c

def modify (c : Context F) (f : MatrixStack F → MatrixStack F) : Context F :=
  invalidate (c.setStack (f c.stack))

def glMatrixMode (c : Context F) (mode : GLenum) : Context F :=
  if mode = GL.modelview then { c with current := .modelview }
  else if mode = GL.projection then { c with current := .projection }
  else if mode = GL.texture then { c with current := .texture c.activeUnit }
  else oglesError c GL.invalidEnum

def glLoadIdentity (c : Context F) : Context F :=
  let c := modify c MatrixStack.loadIdentity
  c.setStack { c.stack with doPicker := false, doFloatToFixed := false }

def glLoadMatrixf (c : Context F) (m : Matrixf F) : Context F := modify c (·.loadf m)

def glLoadMatrixx (c : Context F) (m : Matrixx) : Context F :=
  let c := modify c (·.loadx m)
  c.setStack { c.stack with doFloatToFixed := false }

def glMultMatrixf (c : Context F) (m : Matrixf F) : Context F := modify c (·.multiply m)

def glMultMatrixx (c : Context F) (m : Matrixx) : Context F := modify c (·.multiply (ofMatrixx m))

def glTranslatef (c : Context F) (x y z : F) : Context F := modify c (·.translate x y z)

def glScalef (c : Context F) (x y z : F) : Context F := modify c (·.scale x y z)

def glRotatef (c : Context F) (a x y z : F) : Context F := modify c (·.rotate a x y z)

def glFrustumf (c : Context F) (left right bottom top zNear zFar : F) : Context F :=
  match frustum left right bottom top zNear zFar with
  | none => oglesError c GL.invalidValue
  | some rhs => modify c (·.multiply rhs)

def glOrthof (c : Context F) (left right bottom top zNear zFar : F) : Context F :=
  match ortho left right bottom top zNear zFar with
  | none => oglesError c GL.invalidValue
  | some rhs => modify c (·.multiply rhs)

def glPushMatrix (c : Context F) : Context F :=
  match c.stack.push with
  | none => oglesError c GL.stackOverflow
  | some s => invalidate (c.setStack s)

def glPopMatrix (c : Context F) : Context F :=
  match c.stack.pop with
  | none => oglesError c GL.stackUnderflow
  | some s => invalidate (c.setStack s)

/-- `ogles_viewport`. -/
def glViewport (c : Context F) (x y w h : Int) : Context F :=
  if w < 0 ∨ h < 0 then oglesError c GL.invalidValue
  else
    let (portX, portY, height) := c.surface
    let sx : F := div2f (ofInt w)
    let sy : F := div2f (ofInt h)
    let ox := sx + ofInt (x + portX)
    let oy := sy - ofInt (y + portY) + ofInt (height - h)
    let a := div2f (c.vpt.zFar - c.vpt.zNear)
    let b := div2f (c.vpt.zFar + c.vpt.zNear)
    let matrix := ofColumns ![sx, 0, 0, 0] ![0, -sy, 0, 0] ![0, 0, a, 0] ![ox, oy, b, 1]
    { c with
      vpt := { c.vpt with matrix := matrix }
      dirty := { c.dirty with viewport := true, mvp := c.dirty.mvp || c.mvp4.projection2D } }

/-- The range `depthRangef` stores. -/
def clampDepth (v : F) : F := clampToZerof (if gtOne v then 1 else v)

/-- The viewport matrix after `depthRangef`. -/
def depthMatrix (m : Matrixf F) (zNear zFar : F) : Matrixf F :=
  Function.update (Function.update m 10 (div2f (clampDepth zFar - clampDepth zNear))) 14
    (div2f (clampDepth zFar + clampDepth zNear))

def glDepthRangef (c : Context F) (zNear zFar : F) : Context F :=
  { c with
    vpt := { c.vpt with
      matrix := depthMatrix c.vpt.matrix zNear zFar
      zNear := clampDepth zNear
      zFar := clampDepth zFar }
    -- unlike `ogles_viewport`, `MVP` is not raised here
    dirty := { c.dirty with viewport := true } }

def glVertexPointer (c : Context F) (size : Int) (type : GLenum) (stride : Int) : Context F :=
  if size < 2 ∨ 4 < size ∨ stride < 0 then oglesError c GL.invalidValue
  else if type ∈ [GL.byte, GL.short, GL.fixed, GL.float] then { c with vertexSize := size }
  else oglesError c GL.invalidEnum

end RabbitRender.Matrix.Transforms
