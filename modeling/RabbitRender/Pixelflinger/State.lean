/- RabbitRender/Pixelflinger/State
   layer: model
   source: include/ggl_context.h, libpixelflinger/pixelflinger.cpp, libpixelflinger/buffer.cpp
   digest: The rasterizer context and the calls that set its state. -/

import RabbitRender.Fixed
import RabbitRender.Pixelflinger.Formats
import Mathlib.Data.Fintype.Basic
import Mathlib.Logic.Function.Basic

set_option autoImplicit false

namespace RabbitRender.Pixelflinger.State

open RabbitRender.GL (GLenum)

/-- The functions `surface_t.read` can point to. -/
inductive Reader where
  | readABGR8888
  | readRGB565
  | readPixel
deriving DecidableEq, Repr

inductive Writer where
  | writePixel
deriving DecidableEq, Repr

/-- `GGLSurface`, as the calls receive it. -/
structure GGLSurface where
  width : Nat := 0
  height : Nat := 0
  stride : Int := 0
  data : Int := 0
  format : Format := Format.none
deriving DecidableEq, Repr

/-- `surface_t`. -/
structure Surface extends GGLSurface where
  dirty : Bool := false
  read : Option Reader := none
  write : Option Writer := none
deriving DecidableEq, Repr

/-- `texture_t`, without its iterators. -/
structure Texture where
  surface : Surface := {}
  sCoord : GLenum := GGL.oneToOne
  tCoord : GLenum := GGL.oneToOne
  sWrap : GLenum := GGL.repeatWrap
  tWrap : GLenum := GGL.repeatWrap
  minFilter : GLenum := GGL.nearest
  magFilter : GLenum := GGL.nearest
  env : GLenum := GGL.modulate
  envColor : Component → Nat := fun _ => 0
  enable : Bool := false
deriving DecidableEq

/-- The bits of `state.enables`. -/
inductive Enable where
  | blending
  | smooth
  | aa
  | logicOp
  | alphaTest
  | scissorTest
  | tmus
  | depthTest
  | stencilTest
  | w
  | dither
  | fog
  | pointAaNice
deriving DecidableEq, Repr

/-- The bits of `dirty`. -/
inductive Part where
  | tmu
  | cb
  | pixelPipeline
deriving DecidableEq, Repr

/-- `blend_state_t`. -/
structure Blend where
  src : GLenum := GGL.one
  dst : GLenum := GGL.zero
  srcAlpha : GLenum := GGL.one
  dstAlpha : GLenum := GGL.zero
  alphaSeparate : Bool := false
deriving DecidableEq, Repr

/-- `scissor_t`. -/
structure Scissor where
  userLeft : Int := 0
  userRight : Int := 0
  userTop : Int := 0
  userBottom : Int := 0
  left : Int := 0
  right : Int := 0
  top : Int := 0
  bottom : Int := 0
deriving DecidableEq, Repr

/-- `needs_t`. -/
structure Needs where
  n : BitVec 32
  p : BitVec 32
  t : Fin 2 → BitVec 32

instance : DecidableEq Needs := fun a b =>
  decidable_of_iff (a.n = b.n ∧ a.p = b.p ∧ a.t 0 = b.t 0 ∧ a.t 1 = b.t 1) <| by
    cases a; cases b
    simp only [Needs.mk.injEq, funext_iff, Fin.forall_fin_two]

/-- The functions `init_y` can point to. -/
inductive InitY where
  | initY
  | noop
  | packed
  | error
deriving DecidableEq, Repr

inductive StepY where
  | generic
  | nop
  | smooth
  | tmu
  | w
deriving DecidableEq, Repr

/-- The functions `scanline` can point to. -/
inductive Scanline where
  | scanline
  | perspective
  | perspectiveSingle
  | t32cb16blend
  | t32cb16blendDither
  | t32cb16blendSrca
  | t32cb16blendClamp
  | t32cb16blendClampDither
  | t32cb16blendClampMod
  | x32cb16blendClampMod
  | t32cb16blendClampModDither
  | x32cb16blendClampModDither
  | t32cb16
  | t32cb16Dither
  | t32cb16Clamp
  | t32cb16ClampDither
  | col32cb16blend
  | t16cb16Clamp
  | t16cb16blendClampMod
  | memcpy
  | memset8
  | memset16
  | memset32
  | noop
  | set
  | clear
deriving DecidableEq, Repr

/-- `context_t`, the part these calls and `ggl_pick` read and write. -/
structure Context where
  color : Surface
  read : Surface
  depth : Surface
  coverageBufferSize : Nat
  texture : Fin 2 → Texture
  scissor : Scissor
  blend : Blend
  alphaFunc : GLenum
  alphaRef : Int
  depthFunc : GLenum
  maskColor : Nat
  maskDepth : Nat
  maskStencil : Nat
  opcode : GLenum
  enables : Enable → Bool
  enabledTmu : BitVec 32
  needs : Needs
  dirty : Part → Bool
  activeTMU : Fin 2
  initY : InitY
  stepY : StepY
  scanline : Scanline
  span : Option Scanline
  error : GLenum

def gglError (c : Context) (error : GLenum) : Context :=
  { c with error := GL.firstError c.error error }

/-- `ggl_state_changed`. -/
def stateChanged (c : Context) (part : Part) : Context :=
  { c with dirty := Function.update c.dirty part true }

/-- `ggl_set_surface`; a negative stride moves the data to the last row. -/
def setSurface (dst : Surface) (src : GGLSurface) : Surface where
  toGGLSurface :=
    { src with
      data :=
        if src.stride < 0 then
          src.data + (-src.stride * (formats src.format).size * (src.height - 1)) % 2 ^ 32
        else src.data }
  dirty := true
  read := dst.read
  write := dst.write

def setScissor (c : Context) : Context :=
  { c with
    scissor :=
      if c.enables .scissorTest then
        { c.scissor with
          left := max 0 c.scissor.userLeft
          right := min c.color.width c.scissor.userRight
          top := max 0 c.scissor.userTop
          bottom := min c.color.height c.scissor.userBottom }
      else
        { c.scissor with left := 0, top := 0, right := c.color.width, bottom := c.color.height } }

def activeTexture (c : Context) : Texture := c.texture c.activeTMU

def setActive (c : Context) (t : Texture) : Context :=
  { c with texture := Function.update c.texture c.activeTMU t }

def gglBindTexture (c : Context) (surface : GGLSurface) : Context :=
  let changed :=
    if surface.format ≠ (activeTexture c).surface.format then stateChanged c .tmu else c
  setActive changed
    { activeTexture c with surface := setSurface (activeTexture c).surface surface }

/-- `ggl_colorBuffer`; `allocated` tells whether a larger coverage buffer could be had. -/
def gglColorBuffer (c : Context) (surface : GGLSurface) (allocated : Bool) : Context :=
  let changed := if surface.format ≠ c.color.format then stateChanged c .cb else c
  setScissor
    { changed with
      coverageBufferSize :=
        if c.coverageBufferSize < surface.width then (if allocated then surface.width else 0)
        else c.coverageBufferSize
      color := setSurface c.color surface
      read := if c.read.format = Format.none then setSurface c.read surface else c.read }

def gglReadBuffer (c : Context) (surface : GGLSurface) : Context :=
  { c with read := setSurface c.read surface }

def gglScissor (c : Context) (x y width height : Int) : Context :=
  setScissor
    { c with
      scissor :=
        { c.scissor with
          userLeft := x, userTop := y, userRight := x + width, userBottom := y + height } }

/-- The family `ggl_enable_blending`, `ggl_enable_fog` and so on. -/
def enableFlag (c : Context) (flag : Enable) (enable : Bool) : Context :=
  if c.enables flag ≠ enable then
    stateChanged { c with enables := Function.update c.enables flag enable } .pixelPipeline
  else c

def gglEnableBlending (c : Context) (enable : Bool) : Context := enableFlag c .blending enable

def gglEnableAlphaTest (c : Context) (enable : Bool) : Context := enableFlag c .alphaTest enable

def gglEnableLogicOp (c : Context) (enable : Bool) : Context := enableFlag c .logicOp enable

def gglEnableDither (c : Context) (enable : Bool) : Context := enableFlag c .dither enable

def gglEnableAa (c : Context) (enable : Bool) : Context := enableFlag c .aa enable

def gglEnablePointAaNice (c : Context) (enable : Bool) : Context :=
  enableFlag c .pointAaNice enable

def gglEnableWLerp (c : Context) (enable : Bool) : Context := enableFlag c .w enable

def gglEnableFog (c : Context) (enable : Bool) : Context := enableFlag c .fog enable

def gglEnableDepthTest (c : Context) (enable : Bool) : Context :=
  enableFlag c .depthTest (if c.depth.format = Format.none then false else enable)

def gglEnableStencilTest (c : Context) (_enable : Bool) : Context := c

def gglEnableScissorTest (c : Context) (enable : Bool) : Context :=
  if c.enables .scissorTest ≠ enable then
    setScissor { c with enables := Function.update c.enables .scissorTest enable }
  else c

/-- `enabled_tmu` after the bit of the active unit is set or cleared. -/
def tmuMask (c : Context) (enable : Bool) : BitVec 32 :=
  let mask : BitVec 32 := 1#32 <<< c.activeTMU.val
  if enable then c.enabledTmu ||| mask else c.enabledTmu &&& ~~~mask

def gglEnableTexture2d (c : Context) (enable : Bool) : Context :=
  if (activeTexture c).enable ≠ enable then
    stateChanged
      { setActive c { activeTexture c with enable := enable } with
        enabledTmu := tmuMask c enable
        enables := Function.update c.enables .tmus (tmuMask c enable ≠ 0) } .tmu
  else c

def enableDisable (c : Context) (name : GLenum) (en : Bool) : Context :=
  if name = GGL.blend then gglEnableBlending c en
  else if name = GGL.scissorTest then gglEnableScissorTest c en
  else if name = GGL.alphaTest then gglEnableAlphaTest c en
  else if name = GGL.colorLogicOp then gglEnableLogicOp c en
  else if name = GGL.dither then gglEnableDither c en
  else if name = GGL.stencilTest then gglEnableStencilTest c en
  else if name = GGL.depthTest then gglEnableDepthTest c en
  else if name = GGL.aa then gglEnableAa c en
  else if name = GGL.texture2D then gglEnableTexture2d c en
  else if name = GGL.wLerp then gglEnableWLerp c en
  else if name = GGL.fog then gglEnableFog c en
  else if name = GGL.pointSmoothNice then gglEnablePointAaNice c en
  else c

def gglDepthBuffer (c : Context) (surface : GGLSurface) : Context :=
  if surface.format = Format.z16 then { c with depth := setSurface c.depth surface }
  else gglEnableDepthTest { c with depth := { c.depth with format := Format.none } } false

def gglShadeModel (c : Context) (mode : GLenum) : Context :=
  if mode = GGL.flat then enableFlag c .smooth false
  else if mode = GGL.smooth then enableFlag c .smooth true
  else gglError c GL.invalidEnum

def setBlend (c : Context) (blend : Blend) : Context :=
  let c := { c with blend := blend }
  if c.enables .blending then stateChanged c .pixelPipeline else c

def gglBlendFunc (c : Context) (src dst : GLenum) : Context :=
  setBlend c { src := src, dst := dst, srcAlpha := src, dstAlpha := dst, alphaSeparate := false }

def gglBlendFuncSeparate (c : Context) (src dst srcAlpha dstAlpha : GLenum) : Context :=
  setBlend c { src, dst, srcAlpha, dstAlpha, alphaSeparate := true }

def gglColorMask (c : Context) (r g b a : Bool) : Context :=
  let mask := (if a then 1 <<< 0 else 0) ||| (if r then 1 <<< 1 else 0) |||
    (if g then 1 <<< 2 else 0) ||| (if b then 1 <<< 3 else 0)
  if c.maskColor ≠ mask then stateChanged { c with maskColor := mask } .pixelPipeline else c

/-- The test reads `(mask.depth != flag) ? 1 : 0`. -/
def gglDepthMask (c : Context) (flag : Nat) : Context :=
  if c.maskDepth ≠ flag then
    stateChanged { c with maskDepth := if flag ≠ 0 then 1 else 0 } .pixelPipeline
  else c

def gglStencilMask (c : Context) (mask : Nat) : Context :=
  if c.maskStencil ≠ mask then stateChanged { c with maskStencil := mask } .pixelPipeline else c

def gglFixedToIteratedColor (c : Int) : Int := c * 2 ^ 8 - c

def gglAlphaFuncx (c : Context) (func : GLenum) (ref : Int) : Context :=
  if func < GGL.never ∨ GGL.always < func then gglError c GL.invalidEnum
  else
    let c := { c with alphaRef := gglFixedToIteratedColor (Fixed.gglClampx ref) }
    if c.alphaFunc ≠ func then stateChanged { c with alphaFunc := func } .pixelPipeline else c

def gglDepthFunc (c : Context) (func : GLenum) : Context :=
  if func < GGL.never ∨ GGL.always < func then gglError c GL.invalidEnum
  else if c.depthFunc ≠ func then stateChanged { c with depthFunc := func } .pixelPipeline
  else c

def gglLogicOp (c : Context) (opcode : GLenum) : Context :=
  if opcode < GGL.clear ∨ GGL.set < opcode then gglError c GL.invalidEnum
  else if c.opcode ≠ opcode then stateChanged { c with opcode := opcode } .pixelPipeline
  else c

def gglActiveTexture (c : Context) (tmu : Nat) : Context :=
  if h : tmu < 2 then { c with activeTMU := ⟨tmu, h⟩ } else gglError c GL.invalidEnum

/-- A field of the active unit is set; the textures only change when its value does. -/
def setField (c : Context) (differs : Bool) (t : Texture) : Context :=
  if differs then stateChanged (setActive c t) .tmu else c

def gglTexEnvi (c : Context) (target pname param : GLenum) : Context :=
  if target ≠ GGL.textureEnv ∨ pname ≠ GGL.textureEnvMode then gglError c GL.invalidEnum
  else if param ∈ [GGL.replace, GGL.modulate, GGL.decal, GGL.blendEnv, GGL.add] then
    setField c ((activeTexture c).env ≠ param) { activeTexture c with env := param }
  else gglError c GL.invalidEnum

/-- `ggl_texEnvxv` with `GGL_TEXTURE_ENV_COLOR`; a colour is scaled to eight bits. -/
def gglTexEnvColor (c : Context) (r g b a : Int) : Context :=
  let scale (x : Int) : Nat :=
    (Fixed.gglClampx x - Fixed.gglClampx x / 2 ^ 8).toNat / 2 ^ 8
  setActive c { activeTexture c with envColor := ![scale a, scale r, scale g, scale b] }

def gglTexParameteri (c : Context) (target pname param : GLenum) : Context :=
  let u := activeTexture c
  if target ≠ GGL.texture2D then gglError c GL.invalidEnum
  else
    let param := if param = GGL.clampToEdge then GGL.clamp else param
    if pname = GGL.textureWrapS ∧ param ∈ [GGL.clamp, GGL.repeatWrap] then
      setField c (u.sWrap ≠ param) { u with sWrap := param }
    else if pname = GGL.textureWrapT ∧ param ∈ [GGL.clamp, GGL.repeatWrap] then
      setField c (u.tWrap ≠ param) { u with tWrap := param }
    else if pname = GGL.textureMinFilter ∧
        param ∈ [GGL.nearest, GGL.nearestMipmapNearest, GGL.nearestMipmapLinear] then
      setField c (u.minFilter ≠ GGL.nearest) { u with minFilter := GGL.nearest }
    else if pname = GGL.textureMinFilter ∧
        param ∈ [GGL.linear, GGL.linearMipmapNearest, GGL.linearMipmapLinear] then
      setField c (u.minFilter ≠ GGL.linear) { u with minFilter := GGL.linear }
    else if pname = GGL.textureMagFilter ∧ param ∈ [GGL.nearest, GGL.linear] then
      setField c (u.magFilter ≠ param) { u with magFilter := param }
    else gglError c GL.invalidEnum

def gglTexGeni (c : Context) (coord pname param : GLenum) : Context :=
  let u := activeTexture c
  if pname ≠ GGL.textureGenMode then gglError c GL.invalidEnum
  else if coord = GGL.s then setField c (u.sCoord ≠ param) { u with sCoord := param }
  else if coord = GGL.t then setField c (u.tCoord ≠ param) { u with tCoord := param }
  else gglError c GL.invalidEnum

/-- `ggl_init_context`: `ggl_init_trap` marks every part as changed. -/
def initContext : Context where
  color := {}
  read := {}
  depth := {}
  coverageBufferSize := 0
  texture := fun _ => {}
  scissor := {}
  blend := {}
  alphaFunc := GGL.always
  alphaRef := 0
  depthFunc := GGL.less
  maskColor := 0xF
  maskDepth := 0
  maskStencil := 0xFFFFFFFF
  opcode := GGL.copy
  enables := fun _ => false
  enabledTmu := 0
  needs := ⟨0, 0, fun _ => 0⟩
  dirty := fun _ => true
  activeTMU := 0
  initY := .initY
  stepY := .generic
  scanline := .scanline
  span := none
  error := GL.noError

end RabbitRender.Pixelflinger.State
