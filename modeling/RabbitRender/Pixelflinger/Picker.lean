/- RabbitRender/Pixelflinger/Picker
   layer: model
   source: include/ggl_context.h, libpixelflinger/picker.cpp, libpixelflinger/buffer.cpp,
     libpixelflinger/scanline.cpp
   digest: The packed key of the pipeline and the functions `ggl_pick` selects by it. -/

import RabbitRender.Lib.BitFields
import RabbitRender.Pixelflinger.State

set_option autoImplicit false

namespace RabbitRender.Pixelflinger.Picker

open RabbitRender.GL (GLenum)
open Lib.BitFields Pixelflinger.State

namespace Needs

def cbFormat : Field := ⟨0, 6⟩
def shade : Field := ⟨6, 1⟩
def w : Field := ⟨7, 1⟩
def blendSrc : Field := ⟨8, 4⟩
def blendDst : Field := ⟨12, 4⟩
def blendSrcA : Field := ⟨16, 4⟩
def blendDstA : Field := ⟨20, 4⟩
def logicOp : Field := ⟨24, 4⟩
def maskArgb : Field := ⟨28, 4⟩

def pAlphaTest : Field := ⟨0, 3⟩
def pAa : Field := ⟨3, 1⟩
def pDepthTest : Field := ⟨4, 3⟩
def pMaskZ : Field := ⟨7, 1⟩
def pDither : Field := ⟨8, 1⟩
def pFog : Field := ⟨9, 1⟩

def tFormat : Field := ⟨0, 6⟩
def tPot : Field := ⟨7, 1⟩
def tSWrap : Field := ⟨8, 2⟩
def tTWrap : Field := ⟨10, 2⟩
def tEnv : Field := ⟨12, 3⟩
def tLinear : Field := ⟨15, 1⟩

end Needs

/-- `GGL_NEEDS_WRAP_11`. -/
def needsWrap11 : Nat := 2

def gglWrapToNeeds (e : GLenum) : Nat :=
  if e = GGL.clamp then 0 else if e = GGL.repeatWrap then 1 else 0

def gglBlendfactorToNeeds (b : GLenum) : Nat := if b ≤ 1 then b else b % 16 + 2

def gglEnvToNeeds (e : GLenum) : Nat :=
  if e = GGL.replace then 0
  else if e = GGL.modulate then 1
  else if e = GGL.decal then 2
  else if e = GGL.blendEnv then 3
  else if e = GGL.add then 4
  else 0

def withoutAlpha (factor : GLenum) : GLenum :=
  if factor = GGL.oneMinusDstAlpha ∨ factor = GGL.dstAlpha then GGL.one else factor

def blendNeeds (c : Context) : Nat × Nat × Nat × Nat :=
  if c.enables .blending then
    let factor (b : GLenum) : Nat :=
      gglBlendfactorToNeeds (if ((formats c.color.format).c 0).h = 0 then withoutAlpha b else b)
    let (srcA, dstA) :=
      if c.blend.alphaSeparate then (c.blend.srcAlpha, c.blend.dstAlpha)
      else (c.blend.src, c.blend.dst)
    (factor c.blend.src, factor c.blend.dst, factor srcA, factor dstA)
  else (GGL.one, GGL.zero, GGL.one, GGL.zero)

/-- The word `n`, with the bit `W` given. -/
def pipelineNeeds (c : Context) (w : Bool) : BitVec 32 :=
  let (src, dst, srcA, dstA) := blendNeeds c
  Needs.cbFormat.build 32 c.color.format.val |||
    Needs.blendSrc.build 32 src ||| Needs.blendDst.build 32 dst |||
    Needs.blendSrcA.build 32 srcA ||| Needs.blendDstA.build 32 dstA |||
    Needs.maskArgb.build 32 (c.maskColor ^^^ 0xF) |||
    Needs.shade.build 32 (c.enables .smooth).toNat |||
    Needs.w.build 32 w.toNat |||
    Needs.logicOp.build 32 (if c.enables .logicOp then c.opcode else GGL.copy)

/-- The bit `W` is only set while a texture unit is enabled. -/
def needsW (c : Context) : Bool := c.enables .tmus && c.enables .w

/-- The word `p`. -/
def testNeeds (c : Context) : BitVec 32 :=
  Needs.pDither.build 32 (c.enables .dither).toNat |||
    Needs.pAa.build 32 (c.enables .aa).toNat |||
    Needs.pFog.build 32 (c.enables .fog).toNat |||
    Needs.pAlphaTest.build 32 (if c.enables .alphaTest then c.alphaFunc else GGL.always) |||
    (if c.enables .depthTest then
      Needs.pDepthTest.build 32 c.depthFunc ||| Needs.pMaskZ.build 32 (c.maskDepth &&& 1)
    else Needs.pDepthTest.build 32 GGL.always)

def unitNeeds (tx : Texture) : BitVec 32 :=
  let oneToOne := tx.sCoord = GGL.oneToOne ∧ tx.tCoord = GGL.oneToOne
  Needs.tFormat.build 32 tx.surface.format.val |||
    Needs.tEnv.build 32 (gglEnvToNeeds tx.env) |||
    Needs.tPot.build 32 0 |||
    Needs.tSWrap.build 32 (if oneToOne then needsWrap11 else gglWrapToNeeds tx.sWrap) |||
    Needs.tTWrap.build 32 (if oneToOne then needsWrap11 else gglWrapToNeeds tx.tWrap) |||
    (if tx.magFilter = GGL.linear then Needs.tLinear.build 32 1 else 0) |||
    (if tx.minFilter = GGL.linear then Needs.tLinear.build 32 1 else 0)

/-- One turn of the loop over the units: the keys of the enabled ones are packed from `idx` on. -/
def packUnit (texture : Fin 2 → Texture) (packed : Fin 2 × (Fin 2 → BitVec 32)) (i : Fin 2) :
    Fin 2 × (Fin 2 → BitVec 32) :=
  let (idx, t) := packed
  if (texture i).enable then (idx + 1, Function.update t idx (unitNeeds (texture i)))
  else (idx, Function.update t i 0)

def textureNeeds (texture : Fin 2 → Texture) (t : Fin 2 → BitVec 32) : Fin 2 → BitVec 32 :=
  ([0, 1].foldl (packUnit texture) (0, t)).2

/-- The key `ggl_pick` computes: what is not marked as changed is taken from the last one. -/
def newNeeds (c : Context) : Needs :=
  let n :=
    if c.dirty .cb then
      Needs.cbFormat.clear c.needs.n ||| Needs.cbFormat.build 32 c.color.format.val
    else c.needs.n
  let pipeline := c.dirty .pixelPipeline || (c.dirty .cb && c.enables .blending)
  { n := if pipeline then pipelineNeeds c (needsW c) else n
    p := if pipeline then testNeeds c else c.needs.p
    t := if c.dirty .tmu then textureNeeds c.texture c.needs.t else c.needs.t }

def pickReader (format : Format) : Reader :=
  if format = Format.rgba8888 then .readABGR8888
  else if format = Format.rgb565 then .readRGB565
  else .readPixel

def pickReadWrite (s : Surface) : Surface :=
  { s with dirty := false, read := some (pickReader s.format), write := some .writePixel }

def pickSurface (s : Surface) : Surface := if s.dirty then pickReadWrite s else s

/-- `ggl_pick_texture`, without the copy of the geometry for generated code. -/
def pickTexture (c : Context) : Context :=
  { c with
    texture := fun i =>
      if (c.texture i).enable then { c.texture i with surface := pickSurface (c.texture i).surface }
      else c.texture i }

def pickCb (c : Context) : Context := { c with color := pickSurface c.color }

/-- `needs_filter_t`. -/
structure Filter where
  value : Needs
  mask : Needs

/-- `needs_t::match`. -/
def Filter.Matches (f : Filter) (needs : Needs) : Prop :=
  ((f.value.n ^^^ needs.n) &&& f.mask.n) ||| ((f.value.p ^^^ needs.p) &&& f.mask.p) |||
    ((f.value.t 0 ^^^ needs.t 0) &&& f.mask.t 0) |||
    ((f.value.t 1 ^^^ needs.t 1) &&& f.mask.t 1) = 0

instance (f : Filter) (needs : Needs) : Decidable (f.Matches needs) :=
  inferInstanceAs (Decidable (_ = _))

/-- `shortcut_t`. -/
structure Shortcut where
  filter : Filter
  scanline : Scanline
  initY : InitY

/-- The entries of `shortcuts` that ask for one texture and compare every bit. -/
def textureShortcut (n p t : BitVec 32) (fast : Scanline) (start : InitY) : Shortcut where
  filter :=
    { value := ⟨n, p, ![t, 0]⟩
      mask := ⟨0xFFFFFFFF, 0xFFFFFFFF, ![0xFFFFFFFF, 0x3F]⟩ }
  scanline := fast
  initY := start

/-- The entries of `shortcuts` that look at the first two words only. -/
def plainShortcut (n p maskN maskP : BitVec 32) (fast : Scanline) (start : InitY) : Shortcut where
  filter := { value := ⟨n, p, ![0, 0]⟩, mask := ⟨maskN, maskP, ![0, 0]⟩ }
  scanline := fast
  initY := start

def shortcuts : List Shortcut :=
  [textureShortcut 0x03515104 0x00000077 0x00000A01 .t32cb16blend .noop,
    textureShortcut 0x03010104 0x00000077 0x00000A01 .t32cb16 .noop,
    textureShortcut 0x03515104 0x00000177 0x00000A01 .t32cb16blendDither .noop,
    textureShortcut 0x03010104 0x00000177 0x00000A01 .t32cb16Dither .noop,
    -- dithering is ignored here
    { filter :=
        { value := ⟨0x03545404, 0x00000077, ![0x00000A01, 0]⟩
          mask := ⟨0xFFFFFFFF, 0xFFFFFEFF, ![0xFFFFFFFF, 0x3F]⟩ }
      scanline := .t32cb16blendSrca
      initY := .noop },
    textureShortcut 0x03515104 0x00000077 0x00000001 .t32cb16blendClamp .initY,
    textureShortcut 0x03515104 0x00000177 0x00000001 .t32cb16blendClampDither .initY,
    textureShortcut 0x03515104 0x00000077 0x00001001 .t32cb16blendClampMod .initY,
    textureShortcut 0x03515104 0x00000077 0x00001002 .x32cb16blendClampMod .initY,
    textureShortcut 0x03515104 0x00000177 0x00001001 .t32cb16blendClampModDither .initY,
    textureShortcut 0x03515104 0x00000177 0x00001002 .x32cb16blendClampModDither .initY,
    textureShortcut 0x03010104 0x00000077 0x00000001 .t32cb16Clamp .initY,
    textureShortcut 0x03010104 0x00000077 0x00000002 .t32cb16Clamp .initY,
    textureShortcut 0x03010104 0x00000177 0x00000001 .t32cb16ClampDither .initY,
    textureShortcut 0x03010104 0x00000177 0x00000002 .t32cb16ClampDither .initY,
    textureShortcut 0x03010104 0x00000077 0x00000004 .t16cb16Clamp .initY,
    textureShortcut 0x03515104 0x00000077 0x00001004 .t16cb16blendClampMod .initY,
    { filter :=
        { value := ⟨0x03515104, 0x00000077, ![0, 0]⟩
          mask := ⟨0xFFFFFFFF, 0xFFFFFFFF, ![0xFFFFFFFF, 0xFFFFFFFF]⟩ }
      scanline := .col32cb16blend
      initY := .packed },
    -- the alpha test, the depth test, the logic operation and the colour mask that draw nothing
    plainShortcut 0x00000000 0x00000000 0x00000000 0x00000007 .noop .noop,
    plainShortcut 0x00000000 0x00000000 0x00000000 0x00000070 .noop .noop,
    plainShortcut 0x05000000 0x00000000 0x0F000000 0x00000080 .noop .noop,
    plainShortcut 0xF0000000 0x00000000 0xF0000000 0x00000080 .noop .noop,
    plainShortcut 0x0F000000 0x00000077 0xFF000000 0x000000F7 .set .noop,
    plainShortcut 0x00000000 0x00000077 0xFF000000 0x000000F7 .clear .noop,
    plainShortcut 0x03000000 0x00000077 0xFFFFFF00 0x000000F7 .clear .noop,
    plainShortcut 0x00000000 0x00000000 0x0000003F 0x00000000 .noop .error]

def noblend1to1 : Filter where
  value := ⟨0x03010100, 0x00000077, ![0x00000A00, 0x00000000]⟩
  mask := ⟨0xFFFFFFC0, 0xFFFFFEFF, ![0xFFFFFFC0, 0x0000003F]⟩

def fill16noblend : Filter where
  value := ⟨0x03010100, 0x00000077, ![0x00000000, 0x00000000]⟩
  mask := ⟨0xFFFFFFC0, 0xFFFFFFFF, ![0x0000003F, 0x0000003F]⟩

/-- The size of a pixel in the format of a key; the table ends after its last entry. -/
def formatSize (format : Nat) : Nat := if h : format < 34 then (formats ⟨format, h⟩).size else 0

def formatComponents (format : Nat) : GLenum :=
  if h : format < 34 then (formats ⟨format, h⟩).components else 0

/-- What `pick_scanline` selects; `none` stands for the step function it leaves alone. -/
structure Selection where
  initY : InitY
  stepY : Option StepY
  scanline : Scanline
deriving DecidableEq, Repr

/-- `scanline_memset8` and its siblings. -/
def memsetScanline (size : Nat) : Option Scanline :=
  if size = 1 then some .memset8
  else if size = 2 then some .memset16
  else if size = 4 then some .memset32
  else none

/-- The search of `shortcuts`, and the generic pipeline where none matches. -/
def findShortcut (needs : Needs) : Selection :=
  match shortcuts.find? (fun s => s.filter.Matches needs) with
  | some s => ⟨s.initY, none, s.scanline⟩
  | none => ⟨.initY, some .generic, .scanline⟩

/-- `pick_scanline`, as it is compiled without a code generator. -/
def pickScanline (needs : Needs) : Selection :=
  let cbFormat := Needs.cbFormat.read needs.n
  let components := formatComponents (Needs.tFormat.read (needs.t 0))
  if Needs.tFormat.read (needs.t 0) = cbFormat ∧ noblend1to1.Matches needs ∧
      components ∈ [GGL.rgb, GGL.rgba, GGL.luminance, GGL.luminanceAlpha] then
    ⟨.noop, none, .memcpy⟩
  else if fill16noblend.Matches needs then
    match memsetScanline (formatSize cbFormat) with
    | some fill => ⟨.packed, none, fill⟩
    | none => findShortcut needs
  else findShortcut needs

def perspective (c : Context) : Option Scanline :=
  if c.enables .w && c.enables .tmus then
    if c.enabledTmu &&& (c.enabledTmu - 1) = 0 then some .perspectiveSingle else some .perspective
  else none

def gglPickScanline (c : Context) : Context :=
  let picked := pickScanline c.needs
  { c with
    initY := picked.initY
    stepY := picked.stepY.getD c.stepY
    scanline := (perspective c).getD picked.scanline
    span := if (perspective c).isSome then some picked.scanline else c.span }

def pickAll (c : Context) : Context := gglPickScanline (pickCb (pickTexture c))

def Clean (c : Context) : Prop :=
  c.dirty .tmu = false ∧ c.dirty .cb = false ∧ c.dirty .pixelPipeline = false

instance (c : Context) : Decidable (Clean c) := inferInstanceAs (Decidable (_ ∧ _))

def settle (c : Context) : Context := { c with dirty := fun _ => false }

def gglPick (c : Context) : Context :=
  if Clean c then c
  else if newNeeds c = c.needs then settle c
  else settle (pickAll { c with needs := newNeeds c })

end RabbitRender.Pixelflinger.Picker
