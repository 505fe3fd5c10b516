/- RabbitRender/Setters/Calls
   layer: model
   source: swrender/state.cpp, swrender/light.cpp, swrender/array.cpp, swrender/texture.cpp,
     swrender/vertex.cpp, swrender/matrix.cpp
   digest: The entry points that set state, in their fixed-point and floating-point forms. -/

import RabbitRender.Lighting.Lights
import RabbitRender.Pixelflinger.State
import RabbitRender.Textures.Units

set_option autoImplicit false

namespace RabbitRender.Setters.Calls

open RabbitRender.GL (GLenum)
open Lighting RabbitRender.Matrix Pixelflinger
open Textures.Units (TextureObject)
open Vertices (Vec4)

/-- What the entry points do with a `GLfloat` argument. -/
class Parameter (A : Type) where
  /-- `gglFloatToFixed` -/
  toFixed : A → Int
  /-- conversion to a `GLint` -/
  toInt : A → Int
  /-- conversion of a `GLint` -/
  ofInt : Int → A
  /-- `v <= 0` -/
  nonPositive : A → Bool
  /-- the fixed-point cosine of an angle in degrees, which is computed in `GLfloat` -/
  cosine : Int → Int

/-- The functions `fog.fog` can point to. -/
inductive FogFunction where
  | linear
  | exp
  | exp2
deriving DecidableEq, Repr

/-- `fog_t`. -/
structure Fog where
  density : Int
  start : Int
  finish : Int
  invEndMinusStart : Int
  mode : GLenum
  fog : FogFunction
deriving DecidableEq, Repr

/-- `array_t`, the part `init` sets; `bo` is the name of a buffer object. -/
structure ArrayPointer where
  size : Int
  stride : Int
  pointer : Nat
  bo : Option Nat
  type : GLenum
  bounds : Int
deriving DecidableEq, Repr

/-- `ogles_context_t`. The errors are `error` and that of the rasterizer; the parts that have one
of their own do not use it here. `textures.active` is the unit `transforms.activeUnit`. -/
structure Context (F : Type) where
  cullFace : GLenum
  frontFace : GLenum
  shadeModel : GLenum
  pointSize : Int
  lineWidth : Int
  lighting : Lights.State
  fog : Fog
  fogColor : Fin 3 → Int
  vertex : ArrayPointer
  normal : ArrayPointer
  color : ArrayPointer
  texCoord : Fin 2 → ArrayPointer
  clientActive : Fin 2
  arrayBuffer : Option Nat
  transforms : Transforms.Context F
  matrixMode : GLenum
  clipPlanes : Fin 6 → Vec4
  objects : Nat → TextureObject
  bound : Fin 2 → Nat
  unitDirty : Fin 2 → UInt8
  rasterizer : Pixelflinger.State.Context
  error : GLenum

variable {F : Type}

/-- An array after `ogles_init_array`. -/
def ArrayPointer.unset : ArrayPointer := ⟨4, 0, 0, none, GL.float, 0⟩

/-- The context of `ogles_init`. -/
def initial [Transforms.GLfloat F] (transforms : Transforms.Context F) : Context F where
  cullFace := GL.back
  frontFace := GL.ccw
  shadeModel := GL.smooth
  pointSize := Fixed.triFromFixed 0x10000
  lineWidth := Fixed.triFromFixed 0x10000
  lighting := Lights.init
  fog := ⟨0x10000, 0, 0x10000, 0x10000, GL.exp, .exp⟩
  fogColor := fun _ => 0
  vertex := .unset
  normal := .unset
  color := .unset
  texCoord := fun _ => .unset
  clientActive := 0
  arrayBuffer := none
  transforms := transforms
  matrixMode := GL.modelview
  clipPlanes := fun _ => ⟨0, 0, 0, 0⟩
  objects := fun _ => {}
  bound := fun _ => 0
  unitDirty := fun _ => 0xFF
  rasterizer :=
    State.gglEnableDither (State.gglDepthMask (State.gglShadeModel State.initContext GGL.smooth) 1)
      true
  error := GL.noError

def oglesError (c : Context F) (error : GLenum) : Context F :=
  { c with error := GL.firstError c.error error }

def onLighting (c : Context F) (f : Lights.State → Lights.State) : Context F :=
  let lighting := f { c.lighting with error := c.error }
  { c with lighting := { lighting with error := c.lighting.error }, error := lighting.error }

def onRasterizer (c : Context F)
    (f : Pixelflinger.State.Context → Pixelflinger.State.Context) : Context F :=
  { c with rasterizer := f c.rasterizer }

def fixedVector {A : Type} [Parameter A] (params : Fin 4 → A) : Vec4 :=
  ⟨Parameter.toFixed (params 0), Parameter.toFixed (params 1), Parameter.toFixed (params 2),
    Parameter.toFixed (params 3)⟩

def faces : List GLenum := [GL.front, GL.back, GL.frontAndBack]

def glCullFace (c : Context F) (mode : GLenum) : Context F :=
  let c := if mode ∈ faces then c else oglesError c GL.invalidEnum
  { c with cullFace := mode }

def glFrontFace (c : Context F) (mode : GLenum) : Context F :=
  if mode ∈ [GL.cw, GL.ccw] then { c with frontFace := mode } else oglesError c GL.invalidEnum

def glShadeModel (c : Context F) (mode : GLenum) : Context F :=
  if mode ≠ GL.smooth ∧ mode ≠ GL.flat then oglesError c GL.invalidEnum
  else { c with shadeModel := mode }

section Forms

variable {A : Type} [Parameter A]

def glPointSize (c : Context F) (size : A) : Context F :=
  if Parameter.nonPositive size then oglesError c GL.invalidEnum
  else { c with pointSize := Fixed.triFromFixed (Parameter.toFixed size) }

def glPointSizex (c : Context F) (size : Int) : Context F :=
  if size ≤ 0 then oglesError c GL.invalidEnum
  else { c with pointSize := Fixed.triFromFixed size }

def glLineWidth (c : Context F) (width : A) : Context F :=
  if Parameter.nonPositive width then oglesError c GL.invalidEnum
  else { c with lineWidth := Fixed.triFromFixed (Parameter.toFixed width) }

def glLineWidthx (c : Context F) (width : Int) : Context F :=
  if width ≤ 0 then oglesError c GL.invalidEnum
  else { c with lineWidth := Fixed.triFromFixed width }

def glBlendFunc (c : Context F) (sfactor dfactor : GLenum) : Context F :=
  onRasterizer c (State.gglBlendFunc · sfactor dfactor)

def glAlphaFuncx (c : Context F) (func : GLenum) (ref : Int) : Context F :=
  onRasterizer c (State.gglAlphaFuncx · func ref)

def glAlphaFunc (c : Context F) (func : GLenum) (ref : A) : Context F :=
  glAlphaFuncx c func (Parameter.toFixed ref)

def glDepthFunc (c : Context F) (func : GLenum) : Context F :=
  onRasterizer c (State.gglDepthFunc · func)

/-- `ggl_texEnvi`; a negative parameter is no enumeration value. -/
def gglTexEnvi (c : Pixelflinger.State.Context) (target pname : GLenum) (param : Int) :
    Pixelflinger.State.Context :=
  State.gglTexEnvi c target pname param.toNat

def gglTexEnvxv (c : Pixelflinger.State.Context) (target pname : GLenum) (params : Vec4) :
    Pixelflinger.State.Context :=
  if target ≠ GGL.textureEnv then State.gglError c GL.invalidEnum
  else if pname = GGL.textureEnvMode then gglTexEnvi c target pname params.x
  else if pname = GGL.textureEnvColor then
    State.gglTexEnvColor c params.x params.y params.z params.w
  else State.gglError c GL.invalidEnum

def glTexEnvx (c : Context F) (target pname : GLenum) (param : Int) : Context F :=
  onRasterizer c (gglTexEnvi · target pname param)

def glTexEnvxv (c : Context F) (target pname : GLenum) (params : Vec4) : Context F :=
  onRasterizer c (gglTexEnvxv · target pname params)

def glTexEnvf (c : Context F) (target pname : GLenum) (param : A) : Context F :=
  onRasterizer c (gglTexEnvi · target pname (Parameter.toInt param))

def glTexEnvfv (c : Context F) (target pname : GLenum) (params : Fin 4 → A) : Context F :=
  if pname = GGL.textureEnvMode then
    onRasterizer c (gglTexEnvi · target pname (Parameter.toInt (params 0)))
  else if pname = GGL.textureEnvColor then
    onRasterizer c (gglTexEnvxv · target pname (fixedVector params))
  else oglesError c GL.invalidEnum

def glLightModelx (c : Context F) (pname : GLenum) (param : Int) : Context F :=
  onLighting c (Lights.lightModelx · pname param)

def glLightModelxv (c : Context F) (pname : GLenum) (params : Vec4) : Context F :=
  onLighting c (Lights.glLightModelxv · pname params)

def glLightModelf (c : Context F) (pname : GLenum) (param : A) : Context F :=
  glLightModelx c pname (Parameter.toFixed param)

def glLightModelfv (c : Context F) (pname : GLenum) (params : Fin 4 → A) : Context F :=
  glLightModelxv c pname (fixedVector params)

def glMaterialx (c : Context F) (face pname : GLenum) (param : Int) : Context F :=
  onLighting c (Lights.materialx · face pname param)

def glMaterialf (c : Context F) (face pname : GLenum) (param : A) : Context F :=
  glMaterialx c face pname (Parameter.toFixed param)

def glMaterialxv (A : Type) [Parameter A] (c : Context F) (face pname : GLenum) (params : Vec4) :
    Context F :=
  onLighting c
    (Lights.materialv · face pname params (Parameter.toFixed (Parameter.ofInt params.x : A)))

def glMaterialfv (c : Context F) (face pname : GLenum) (params : Fin 4 → A) : Context F :=
  onLighting c (Lights.materialv · face pname (fixedVector params) (Parameter.toFixed (params 0)))

def glLightx (A : Type) [Parameter A] (c : Context F) (i pname : GLenum) (param : Int) :
    Context F :=
  onLighting c (Lights.lightx (Parameter.cosine A) · i pname param)

def glLightf (c : Context F) (i pname : GLenum) (param : A) : Context F :=
  glLightx A c i pname (Parameter.toFixed param)

variable [Transforms.GLfloat F]

def changeLight (A : Type) [Parameter A] (c : Context F) (i pname : GLenum) (params : Vec4) :
    Context F :=
  onLighting c
    (Lights.lightxv (Parameter.cosine A) c.transforms.modelview.transform · i pname params)

def validateModelview (c : Context F) : Context F :=
  { c with transforms := Transforms.validateTransform c.transforms { modelview := true } }

/-- `lightxv`; a position is brought to eye space by the validated modelview transform. -/
def lightxv (A : Type) [Parameter A] (c : Context F) (i pname : GLenum) (params : Vec4) :
    Context F :=
  if (Lights.lightIndex i).isSome ∧ pname = GL.position then
    changeLight A (validateModelview c) i pname params
  else changeLight A c i pname params

def glLightxv (A : Type) [Parameter A] (c : Context F) (i pname : GLenum) (params : Vec4) :
    Context F := lightxv A c i pname params

def glLightfv (c : Context F) (i pname : GLenum) (params : Fin 4 → A) : Context F :=
  if pname ∈ [GL.spotExponent, GL.spotCutoff, GL.constantAttenuation, GL.linearAttenuation,
      GL.quadraticAttenuation] then glLightx A c i pname (Parameter.toFixed (params 0))
  else if pname = GL.spotDirection then lightxv A c i pname { fixedVector params with w := 0 }
  else lightxv A c i pname (fixedVector params)

def setClipPlane (c : Context F) (p : Fin 6) (equ : Vec4) : Context F :=
  let transforms := Transforms.validateTransform c.transforms { mvit := true }
  { c with
    transforms := transforms
    clipPlanes :=
      Function.update c.clipPlanes p (Arrays.Compile.point transforms.mvit4 .four equ) }

def clipPlanex (c : Context F) (plane : GLenum) (equ : Vec4) : Context F :=
  if valid : GL.clipPlane0 ≤ plane ∧ plane - GL.clipPlane0 < 6 then
    setClipPlane c ⟨plane - GL.clipPlane0, valid.2⟩ equ
  else oglesError c GL.invalidEnum

def glClipPlanex (c : Context F) (plane : GLenum) (equ : Vec4) : Context F := clipPlanex c plane equ

def glClipPlanef (c : Context F) (plane : GLenum) (equ : Fin 4 → A) : Context F :=
  clipPlanex c plane (fixedVector equ)

omit [Transforms.GLfloat F]

def gglRecip (x : Int) : Int := Fixed.gglRecipQ x 16

def fogFunction (mode : Int) : Option FogFunction :=
  if mode = GL.linear then some .linear
  else if mode = GL.exp then some .exp
  else if mode = GL.exp2 then some .exp2
  else none

def fogx (c : Context F) (pname : GLenum) (param : Int) : Context F :=
  if pname = GL.fogDensity then
    if param ≥ 0 then { c with fog := { c.fog with density := param } }
    else oglesError c GL.invalidValue
  else if pname = GL.fogStart then
    { c with
      fog :=
        { c.fog with start := param, invEndMinusStart := gglRecip (c.fog.finish - param) } }
  else if pname = GL.fogEnd then
    { c with
      fog :=
        { c.fog with finish := param, invEndMinusStart := gglRecip (param - c.fog.start) } }
  else if pname = GL.fogMode then
    match fogFunction param with
    | some f => { c with fog := { c.fog with mode := param.toNat, fog := f } }
    | none => oglesError c GL.invalidEnum
  else oglesError c GL.invalidEnum

def gglFogColor3xv (c : Context F) (color : Vec4) : Context F :=
  let scale (v : Int) : Int := (Fixed.gglClampx v - Fixed.gglClampx v / 2 ^ 8) / 2 ^ 8
  { c with fogColor := ![scale color.x, scale color.y, scale color.z] }

def glFogx (c : Context F) (pname : GLenum) (param : Int) : Context F := fogx c pname param

def glFogxv (c : Context F) (pname : GLenum) (params : Vec4) : Context F :=
  if pname ≠ GL.fogColor then fogx c pname params.x else gglFogColor3xv c params

/-- The mode is converted to an integer, the other parameters to fixed point. -/
def fogParameter (pname : GLenum) (param : A) : Int :=
  if pname ≠ GL.fogMode then Parameter.toFixed param else Parameter.toInt param

def glFogf (c : Context F) (pname : GLenum) (param : A) : Context F :=
  fogx c pname (fogParameter pname param)

def glFogfv (c : Context F) (pname : GLenum) (params : Fin 4 → A) : Context F :=
  if pname ≠ GL.fogColor then fogx c pname (fogParameter pname (params 0))
  else gglFogColor3xv c (fixedVector params)

/-- `array_t::init`. -/
def ArrayPointer.init (size : Int) (type : GLenum) (stride : Int) (pointer : Nat)
    (bo : Option Nat) : ArrayPointer where
  size := size
  stride :=
    if stride ≠ 0 then stride
    else if type = GL.short then size * 2
    else if type = GL.float ∨ type = GL.fixed then size * 4
    else size
  pointer := pointer
  bo := bo
  type := type
  bounds := 0

/-- The checks of the pointer calls; `accept` stores the array. -/
def arrayPointer (c : Context F) (sizes types : List GLenum) (size : Int) (type : GLenum)
    (stride : Int) (accept : Context F) : Context F :=
  if (∀ n ∈ sizes, size ≠ n) ∨ stride < 0 then oglesError c GL.invalidValue
  else if type ∈ types then accept
  else oglesError c GL.invalidEnum

def coordTypes : List GLenum := [GL.byte, GL.short, GL.fixed, GL.float]

def glVertexPointer (c : Context F) (size : Int) (type : GLenum) (stride : Int) (pointer : Nat) :
    Context F :=
  arrayPointer c [2, 3, 4] coordTypes size type stride
    { c with
      vertex := .init size type stride pointer c.arrayBuffer
      transforms := { c.transforms with vertexSize := size } }

def glColorPointer (c : Context F) (size : Int) (type : GLenum) (stride : Int) (pointer : Nat) :
    Context F :=
  arrayPointer c [4] [GL.unsignedByte, GL.fixed, GL.float] size type stride
    { c with color := .init size type stride pointer c.arrayBuffer }

def glNormalPointer (c : Context F) (type : GLenum) (stride : Int) (pointer : Nat) : Context F :=
  arrayPointer c [3] coordTypes 3 type stride
    { c with normal := .init 3 type stride pointer c.arrayBuffer }

def glTexCoordPointer (c : Context F) (size : Int) (type : GLenum) (stride : Int)
    (pointer : Nat) : Context F :=
  arrayPointer c [2, 3, 4] coordTypes size type stride
    { c with
      texCoord :=
        Function.update c.texCoord c.clientActive (.init size type stride pointer c.arrayBuffer) }

def glMatrixMode (c : Context F) (mode : GLenum) : Context F :=
  let select (current : Transforms.Current) : Context F :=
    { c with matrixMode := mode, transforms := { c.transforms with current := current } }
  if mode = GL.modelview then select .modelview
  else if mode = GL.projection then select .projection
  else if mode = GL.texture then select (.texture c.transforms.activeUnit)
  else oglesError c GL.invalidEnum

def activeObject (c : Context F) : TextureObject := c.objects (c.bound c.transforms.activeUnit)

def setObject (c : Context F) (o : TextureObject) : Context F :=
  { c with objects := Function.update c.objects (c.bound c.transforms.activeUnit) o }

/-- `invalidate_texture`, of the active unit. -/
def invalidateActive (c : Context F) : Context F :=
  { c with unitDirty := Function.update c.unitDirty c.transforms.activeUnit 0xFF }

def texParameterx (c : Context F) (target pname : GLenum) (param : Int) : Context F :=
  if target ≠ GL.texture2D ∧ target ≠ GL.textureExternalOes then oglesError c GL.invalidEnum
  else
    let o := activeObject c
    let change (o : TextureObject) : Context F := invalidateActive (setObject c o)
    let value := param.toNat
    if pname = GL.textureWrapS ∧ value ∈ [GL.repeatWrap, GL.clampToEdge] then
      change { o with wraps := value }
    else if pname = GL.textureWrapT ∧ value ∈ [GL.repeatWrap, GL.clampToEdge] then
      change { o with wrapt := value }
    else if pname = GL.textureMinFilter ∧
        value ∈ [GL.nearest, GL.linear, GL.nearestMipmapNearest, GL.linearMipmapNearest,
          GL.nearestMipmapLinear, GL.linearMipmapLinear] then change { o with minFilter := value }
    else if pname = GL.textureMagFilter ∧ value ∈ [GL.nearest, GL.linear] then
      change { o with magFilter := value }
    else if pname = GL.generateMipmap then change { o with generateMipmap := param }
    else oglesError c GL.invalidEnum

def glTexParameterx (c : Context F) (target pname : GLenum) (param : Int) : Context F :=
  texParameterx c target pname param

def glTexParameteri (c : Context F) (target pname : GLenum) (param : Int) : Context F :=
  texParameterx c target pname param

def glTexParameterf (c : Context F) (target pname : GLenum) (param : A) : Context F :=
  texParameterx c target pname (Parameter.toInt param)

/-- The rectangle is not a parameter of the rasterizer, and the unit stays as it is. -/
def glTexParameteriv (c : Context F) (target pname : GLenum) (params : Vec4) : Context F :=
  if target ≠ GL.texture2D ∧ target ≠ GL.textureExternalOes then oglesError c GL.invalidEnum
  else if pname = GL.textureCropRectOes then
    setObject c { activeObject c with cropRect := (params.x, params.y, params.z, params.w) }
  else texParameterx c target pname params.x

end Forms

inductive Call (A : Type) where
  | cullFace (mode : GLenum)
  | frontFace (mode : GLenum)
  | shadeModel (mode : GLenum)
  | pointSize (size : A)
  | pointSizex (size : Int)
  | lineWidth (width : A)
  | lineWidthx (width : Int)
  | blendFunc (sfactor dfactor : GLenum)
  | alphaFunc (func : GLenum) (ref : A)
  | alphaFuncx (func : GLenum) (ref : Int)
  | depthFunc (func : GLenum)
  | texEnvx (target pname : GLenum) (param : Int)
  | texEnvxv (target pname : GLenum) (params : Vec4)
  | texEnvf (target pname : GLenum) (param : A)
  | texEnvfv (target pname : GLenum) (params : Fin 4 → A)
  | lightModelx (pname : GLenum) (param : Int)
  | lightModelxv (pname : GLenum) (params : Vec4)
  | lightModelf (pname : GLenum) (param : A)
  | lightModelfv (pname : GLenum) (params : Fin 4 → A)
  | materialx (face pname : GLenum) (param : Int)
  | materialxv (face pname : GLenum) (params : Vec4)
  | materialf (face pname : GLenum) (param : A)
  | materialfv (face pname : GLenum) (params : Fin 4 → A)
  | lightx (i pname : GLenum) (param : Int)
  | lightxv (i pname : GLenum) (params : Vec4)
  | lightf (i pname : GLenum) (param : A)
  | lightfv (i pname : GLenum) (params : Fin 4 → A)
  | clipPlanex (plane : GLenum) (equ : Vec4)
  | clipPlanef (plane : GLenum) (equ : Fin 4 → A)
  | fogx (pname : GLenum) (param : Int)
  | fogxv (pname : GLenum) (params : Vec4)
  | fogf (pname : GLenum) (param : A)
  | fogfv (pname : GLenum) (params : Fin 4 → A)
  | vertexPointer (size : Int) (type : GLenum) (stride : Int) (pointer : Nat)
  | colorPointer (size : Int) (type : GLenum) (stride : Int) (pointer : Nat)
  | normalPointer (type : GLenum) (stride : Int) (pointer : Nat)
  | texCoordPointer (size : Int) (type : GLenum) (stride : Int) (pointer : Nat)
  | matrixMode (mode : GLenum)
  | texParameterx (target pname : GLenum) (param : Int)
  | texParameteri (target pname : GLenum) (param : Int)
  | texParameterf (target pname : GLenum) (param : A)
  | texParameteriv (target pname : GLenum) (params : Vec4)

variable [Transforms.GLfloat F] {A : Type} [Parameter A]

def call (c : Context F) : Call A → Context F
  | .cullFace mode => glCullFace c mode
  | .frontFace mode => glFrontFace c mode
  | .shadeModel mode => glShadeModel c mode
  | .pointSize size => glPointSize c size
  | .pointSizex size => glPointSizex c size
  | .lineWidth width => glLineWidth c width
  | .lineWidthx width => glLineWidthx c width
  | .blendFunc sfactor dfactor => glBlendFunc c sfactor dfactor
  | .alphaFunc func ref => glAlphaFunc c func ref
  | .alphaFuncx func ref => glAlphaFuncx c func ref
  | .depthFunc func => glDepthFunc c func
  | .texEnvx target pname param => glTexEnvx c target pname param
  | .texEnvxv target pname params => glTexEnvxv c target pname params
  | .texEnvf target pname param => glTexEnvf c target pname param
  | .texEnvfv target pname params => glTexEnvfv c target pname params
  | .lightModelx pname param => glLightModelx c pname param
  | .lightModelxv pname params => glLightModelxv c pname params
  | .lightModelf pname param => glLightModelf c pname param
  | .lightModelfv pname params => glLightModelfv c pname params
  | .materialx face pname param => glMaterialx c face pname param
  | .materialxv face pname params => glMaterialxv A c face pname params
  | .materialf face pname param => glMaterialf c face pname param
  | .materialfv face pname params => glMaterialfv c face pname params
  | .lightx i pname param => glLightx A c i pname param
  | .lightxv i pname params => glLightxv A c i pname params
  | .lightf i pname param => glLightf c i pname param
  | .lightfv i pname params => glLightfv c i pname params
  | .clipPlanex plane equ => glClipPlanex c plane equ
  | .clipPlanef plane equ => glClipPlanef c plane equ
  | .fogx pname param => glFogx c pname param
  | .fogxv pname params => glFogxv c pname params
  | .fogf pname param => glFogf c pname param
  | .fogfv pname params => glFogfv c pname params
  | .vertexPointer size type stride pointer => glVertexPointer c size type stride pointer
  | .colorPointer size type stride pointer => glColorPointer c size type stride pointer
  | .normalPointer type stride pointer => glNormalPointer c type stride pointer
  | .texCoordPointer size type stride pointer => glTexCoordPointer c size type stride pointer
  | .matrixMode mode => glMatrixMode c mode
  | .texParameterx target pname param => glTexParameterx c target pname param
  | .texParameteri target pname param => glTexParameteri c target pname param
  | .texParameterf target pname param => glTexParameterf c target pname param
  | .texParameteriv target pname params => glTexParameteriv c target pname params

end RabbitRender.Setters.Calls
