/- RabbitRender/Egl/Configs
   layer: model
   source: swrender/egl.cpp, include/gles/EGL/egl.h
   digest: The tables of configs, the choice between them, and the formats of the surfaces made with
     them. -/

import RabbitRender.Lib.Bisect
import RabbitRender.Pixelflinger.Formats

set_option autoImplicit false

namespace RabbitRender.Egl.Configs

open Lib.Bisect Pixelflinger

abbrev EGLint := Int

namespace EGL

def dontCare : EGLint := -1
def none : EGLint := 0x3038
def width : EGLint := 0x3057
def height : EGLint := 0x3056

def bufferSize : EGLint := 0x3020
def alphaSize : EGLint := 0x3021
def blueSize : EGLint := 0x3022
def greenSize : EGLint := 0x3023
def redSize : EGLint := 0x3024
def depthSize : EGLint := 0x3025
def stencilSize : EGLint := 0x3026
def configCaveat : EGLint := 0x3027
def configId : EGLint := 0x3028
def level : EGLint := 0x3029
def maxPbufferHeight : EGLint := 0x302A
def maxPbufferPixels : EGLint := 0x302B
def maxPbufferWidth : EGLint := 0x302C
def nativeRenderable : EGLint := 0x302D
def nativeVisualId : EGLint := 0x302E
def nativeVisualType : EGLint := 0x302F
def samples : EGLint := 0x3031
def sampleBuffers : EGLint := 0x3032
def surfaceType : EGLint := 0x3033
def transparentType : EGLint := 0x3034
def transparentBlueValue : EGLint := 0x3035
def transparentGreenValue : EGLint := 0x3036
def transparentRedValue : EGLint := 0x3037
def bindToTextureRgb : EGLint := 0x3039
def bindToTextureRgba : EGLint := 0x303A
def minSwapInterval : EGLint := 0x303B
def maxSwapInterval : EGLint := 0x303C
def luminanceSize : EGLint := 0x303D
def alphaMaskSize : EGLint := 0x303E
def colorBufferType : EGLint := 0x303F
def renderableType : EGLint := 0x3040
def conformant : EGLint := 0x3042

def slowConfig : EGLint := 0x3050
def rgbBuffer : EGLint := 0x308E
def pbufferBit : EGLint := 1
def pixmapBit : EGLint := 2
def windowBit : EGLint := 4
def openglEsBit : EGLint := 1

end EGL

/-- `GGL_MAX_VIEWPORT_DIMS` -/
def maxViewportDims : EGLint := 4096

/-- `config_pair_t` -/
structure Pair where
  key : EGLint
  value : EGLint
deriving DecidableEq, Repr

/-- `config_base_attribute_list` -/
def baseAttributes : List Pair :=
  [⟨EGL.stencilSize, 0⟩, ⟨EGL.configCaveat, EGL.slowConfig⟩, ⟨EGL.level, 0⟩,
    ⟨EGL.maxPbufferHeight, maxViewportDims⟩,
    ⟨EGL.maxPbufferPixels, maxViewportDims * maxViewportDims⟩,
    ⟨EGL.maxPbufferWidth, maxViewportDims⟩, ⟨EGL.nativeRenderable, 1⟩, ⟨EGL.nativeVisualId, 0⟩,
    ⟨EGL.nativeVisualType, Format.rgb565.val⟩, ⟨EGL.samples, 0⟩, ⟨EGL.sampleBuffers, 0⟩,
    ⟨EGL.transparentType, EGL.none⟩, ⟨EGL.transparentBlueValue, 0⟩,
    ⟨EGL.transparentGreenValue, 0⟩, ⟨EGL.transparentRedValue, 0⟩, ⟨EGL.bindToTextureRgba, 0⟩,
    ⟨EGL.bindToTextureRgb, 0⟩, ⟨EGL.minSwapInterval, 1⟩, ⟨EGL.maxSwapInterval, 1⟩,
    ⟨EGL.luminanceSize, 0⟩, ⟨EGL.alphaMaskSize, 0⟩, ⟨EGL.colorBufferType, EGL.rgbBuffer⟩,
    ⟨EGL.renderableType, EGL.openglEsBit⟩, ⟨EGL.conformant, 0⟩]

/-- One of `config_0_attribute_list` to `config_7_attribute_list`. -/
def attributes (buffer alpha blue green red depth id : EGLint) (visual : Format) : List Pair :=
  [⟨EGL.bufferSize, buffer⟩, ⟨EGL.alphaSize, alpha⟩, ⟨EGL.blueSize, blue⟩,
    ⟨EGL.greenSize, green⟩, ⟨EGL.redSize, red⟩, ⟨EGL.depthSize, depth⟩, ⟨EGL.configId, id⟩,
    ⟨EGL.nativeVisualId, visual.val⟩,
    ⟨EGL.surfaceType, EGL.windowBit + EGL.pbufferBit + EGL.pixmapBit⟩]

/-- `EGLConfig`, an index of `gConfigs`. -/
abbrev Config := Fin 8

/-- `gConfigs` -/
def configs : Config → List Pair
  | 0 => attributes 16 0 5 6 5 0 0 Format.rgb565
  | 1 => attributes 16 0 5 6 5 16 1 Format.rgb565
  | 2 => attributes 32 0 8 8 8 0 6 Format.rgbx8888
  | 3 => attributes 32 0 8 8 8 16 7 Format.rgbx8888
  | 4 => attributes 32 8 8 8 8 0 2 Format.rgba8888
  | 5 => attributes 32 8 8 8 8 16 3 Format.rgba8888
  | 6 => attributes 8 8 0 0 0 0 4 Format.a8
  | 7 => attributes 8 8 0 0 0 16 5 Format.a8

/-- The matchers of `config_management_t`. -/
inductive Match where
  | atLeast
  | exact
  | mask
  | ignore
deriving DecidableEq, Repr

def Match.holds : Match → EGLint → EGLint → Bool
  | .atLeast, reqValue, confValue => reqValue = EGL.dontCare || reqValue ≤ confValue
  | .exact, reqValue, confValue => reqValue = EGL.dontCare || confValue = reqValue
  | .mask, reqValue, confValue =>
    BitVec.ofInt 32 confValue &&& BitVec.ofInt 32 reqValue = BitVec.ofInt 32 reqValue
  | .ignore, _, _ => true

/-- `gConfigManagement` -/
def management : List (EGLint × Match) :=
  [(EGL.bufferSize, .atLeast), (EGL.alphaSize, .atLeast), (EGL.blueSize, .atLeast),
    (EGL.greenSize, .atLeast), (EGL.redSize, .atLeast), (EGL.depthSize, .atLeast),
    (EGL.stencilSize, .atLeast), (EGL.configCaveat, .exact), (EGL.configId, .exact),
    (EGL.level, .exact), (EGL.maxPbufferHeight, .ignore), (EGL.maxPbufferPixels, .ignore),
    (EGL.maxPbufferWidth, .ignore), (EGL.nativeRenderable, .exact), (EGL.nativeVisualId, .ignore),
    (EGL.nativeVisualType, .exact), (EGL.samples, .exact), (EGL.sampleBuffers, .exact),
    (EGL.surfaceType, .mask), (EGL.transparentType, .exact), (EGL.transparentBlueValue, .exact),
    (EGL.transparentGreenValue, .exact), (EGL.transparentRedValue, .exact),
    (EGL.bindToTextureRgba, .exact), (EGL.bindToTextureRgb, .exact),
    (EGL.minSwapInterval, .exact), (EGL.maxSwapInterval, .exact), (EGL.luminanceSize, .atLeast),
    (EGL.alphaMaskSize, .atLeast), (EGL.colorBufferType, .exact), (EGL.renderableType, .mask),
    (EGL.conformant, .mask)]

/-- `config_defaults` -/
def defaults : List Pair := [⟨EGL.surfaceType, EGL.windowBit⟩]

/-- `binarySearch` over the first `n` keys of an array. -/
def binarySearch (keys : Nat → EGLint) (n : Nat) (key : EGLint) : Option Nat :=
  (bisect (fun i => compare (keys i) key) 0 n).1

/-- The entry of a table that `binarySearch` finds. -/
def lookup {α : Type} (key : α → EGLint) (table : List α) (attr : EGLint) : Option α :=
  (binarySearch (fun i => (table[i]?.map key).getD 0) table.length attr).bind fun i => table[i]?

/-- The pair for an attribute: that of the config, or else the one of all configs. -/
def findPair (config : Config) (attr : EGLint) : Option Pair :=
  match lookup Pair.key (configs config) attr with
  | some pair => some pair
  | none => lookup Pair.key baseAttributes attr

def isAttributeMatching (config : Config) (attr val : EGLint) : Bool :=
  match findPair config attr, lookup Prod.fst management attr with
  | some pair, some (_, rule) => rule.holds val pair.value
  | _, _ => false

/-- `getConfigAttrib`, for a config that exists. -/
def getConfigAttrib (config : Config) (attr : EGLint) : Option EGLint :=
  (findPair config attr).map Pair.value

/-- `possibleMatch`, bit by bit. -/
abbrev Possible := Config → Bool

def possibleAny (possible : Possible) : Bool := (List.finRange 8).any possible

def restrict (possible : Possible) (attr val : EGLint) : Possible :=
  fun i => possible i && isAttributeMatching i attr val

/-- The loop over the attributes that precede `EGL_NONE`; it ends early when nothing is possible.
The count is that of the attributes it has read. -/
def chooseLoop : List (EGLint × EGLint) → Possible → Nat → Possible × Nat
  | [], possible, count => (possible, count)
  | (attr, val) :: rest, possible, count =>
    if possibleAny possible = true ∧ attr ≠ EGL.none then
      chooseLoop rest (restrict possible attr val) (count + 1)
    else (possible, count)

/-- The keys behind the end of the loop, where a default is looked for: the terminator, and then
whatever memory holds. -/
def keysBehind (behind : Nat → EGLint) : Nat → EGLint
  | 0 => EGL.none
  | i + 1 => behind i

def applyDefaults (behind : Nat → EGLint) (count : Nat) (possible : Possible) : Possible :=
  defaults.foldl (fun possible pair =>
    if possibleAny possible = true ∧ binarySearch (keysBehind behind) count pair.key = none then
      restrict possible pair.key pair.value
    else possible) possible

def chosen (attribs : List (EGLint × EGLint)) (behind : Nat → EGLint) : Possible :=
  let (possible, count) := chooseLoop attribs (fun _ => true) 0
  applyDefaults behind count possible

/-- `eglChooseConfig`: the configs it stores. A negative size never gets to zero. -/
def eglChooseConfig (attribs : List (EGLint × EGLint)) (behind : Nat → EGLint)
    (configSize : EGLint) : List Config :=
  let found := (List.finRange 8).filter (chosen attribs behind)
  if configSize < 0 then found else found.take configSize.toNat

/-- `getConfigFormatInfo`: the pixel format and the depth format. -/
def getConfigFormatInfo (configId : EGLint) : Option (Format × Format) :=
  if configId = 0 then some (Format.rgb565, Format.none)
  else if configId = 1 then some (Format.rgb565, Format.z16)
  else if configId = 2 then some (Format.rgbx8888, Format.none)
  else if configId = 3 then some (Format.rgbx8888, Format.z16)
  else if configId = 4 then some (Format.rgba8888, Format.none)
  else if configId = 5 then some (Format.rgba8888, Format.z16)
  else if configId = 6 then some (Format.a8, Format.none)
  else if configId = 7 then some (Format.a8, Format.z16)
  else none

structure SurfaceFormat where
  pixel : Format
  depth : Format
deriving DecidableEq, Repr

def formatsFor (config : Config) (bit : EGLint) : Option SurfaceFormat :=
  (getConfigAttrib config EGL.surfaceType).bind fun surfaceType =>
    if BitVec.ofInt 32 surfaceType &&& BitVec.ofInt 32 bit = 0 then none
    else
      (getConfigAttrib config EGL.configId).bind fun configId =>
        (getConfigFormatInfo configId).map fun (pixel, depth) => ⟨pixel, depth⟩

/-- `createPbufferSurface`; `allocated` tells whether the pixels could be had. -/
def createPbufferSurface (config : Config) (allocated : Bool) : Option SurfaceFormat :=
  (formatsFor config EGL.pbufferBit).filter fun _ => allocated

/-- `createPixmapSurface`, for a pixmap of a format; `allocated` is about the depth buffer. -/
def createPixmapSurface (config : Config) (pixmap : Format) (allocated : Bool) :
    Option SurfaceFormat :=
  (formatsFor config EGL.pixmapBit).filter fun s =>
    pixmap = s.pixel && (s.depth = Format.none || allocated)

def sizeOf (s : SurfaceFormat) (attr : EGLint) : Nat :=
  let component (i : Component) := ((formats s.pixel).c i).h - ((formats s.pixel).c i).l
  if attr = EGL.alphaSize then component 0
  else if attr = EGL.redSize then component 1
  else if attr = EGL.greenSize then component 2
  else if attr = EGL.blueSize then component 3
  else (formats s.depth).bitsPerPixel

def sizes : List EGLint :=
  [EGL.alphaSize, EGL.redSize, EGL.greenSize, EGL.blueSize, EGL.depthSize]

/-- The attributes of a list that is terminated by `EGL_NONE`. -/
def requests (attribs : List (EGLint × EGLint)) : List (EGLint × EGLint) :=
  attribs.takeWhile fun p => p.1 ≠ EGL.none

/-- The surface has the sizes its config reports, and they satisfy what was asked for. -/
structure Kept (attribs : List (EGLint × EGLint)) (config : Config) (s : SurfaceFormat) :
    Prop where
  reported : ∀ attr ∈ sizes, getConfigAttrib config attr = some (sizeOf s attr : EGLint)
  requested : ∀ p ∈ requests attribs, p.1 ∈ sizes → p.2 ≤ sizeOf s p.1

end RabbitRender.Egl.Configs
