/- RabbitRender/Pixelflinger/Clear
   layer: model
   source: libpixelflinger/clear.cpp, libpixelflinger/memory_win32.cpp
   digest: Clearing the colour and the depth buffer in memory. -/

import RabbitRender.Lib.ByteMemory
import RabbitRender.Pixelflinger.PickCoherence
import RabbitRender.Pixelflinger.Pixels

set_option autoImplicit false

namespace RabbitRender.Pixelflinger.Clear

open Lib.ByteMemory Pixelflinger.State Pixelflinger.Pixels
open Pixelflinger.PickCoherence (Op call)

/-- `clear_state_t`, with the bits of `dirty`. -/
structure ClearState where
  r : Int := 0
  g : Int := 0
  b : Int := 0
  a : Int := 0
  depth : Int := 0x10000
  stencil : Int := 0
  colorPacked : Nat := 0
  depthPacked : Nat := 0
  colorDirty : Bool := true
  depthDirty : Bool := true
  stencilDirty : Bool := true
deriving DecidableEq, Repr

structure Rasterizer where
  context : Context
  clear : ClearState
  memory : Memory

def gglClearColorx (x : Rasterizer) (r g b a : Int) : Rasterizer :=
  { x with
    clear :=
      { x.clear with
        r := Fixed.gglClampx r
        g := Fixed.gglClampx g
        b := Fixed.gglClampx b
        a := Fixed.gglClampx a
        colorDirty := true } }

def gglClearDepthx (x : Rasterizer) (depth : Int) : Rasterizer :=
  { x with clear := { x.clear with depth := Fixed.gglClampx depth, depthDirty := true } }

def gglClearStencil (x : Rasterizer) (s : Int) : Rasterizer :=
  { x with clear := { x.clear with stencil := s, stencilDirty := true } }

def FillsStride (s : Surface) (w : Nat) : Prop :=
  Fixed.wrap32 (u32 (w * (formats s.format).size)) =
    Fixed.wrap32 (s.stride * (formats s.format).size)

instance (s : Surface) (w : Nat) : Decidable (FillsStride s w) :=
  inferInstanceAs (Decidable (_ = _))

/-- The bytes of one line, or of the whole rectangle when it is cleared in one call. -/
def clearedBytes (s : Surface) (w h : Nat) : Nat :=
  let w' := u32 (w * (formats s.format).size)
  if FillsStride s w then u32 (w' * h) else w'

def clearedRows (s : Surface) (w h : Nat) : Nat := if FillsStride s w then 1 else h

/-- `memset2d`; 24-bit pixels are not cleared. -/
def memset2d (m : Memory) (s : Surface) (packed l t w h : Nat) : Memory :=
  let size := (formats s.format).size
  let stride := Fixed.wrap32 (s.stride * size)
  let dst := s.data + (l + t * s.stride) * size % 2 ^ 32
  let bytes := clearedBytes s w h
  let rows := clearedRows s w h
  if size = 1 then fillRows m dst stride 1 packed bytes rows
  else if size = 2 then fillRows m dst stride 2 packed (bytes >>> 1) rows
  else if size = 4 then fillRows m dst stride 4 packed (bytes >>> 2) rows
  else m

def clearWidth (c : Context) : Nat := ((c.scissor.right - c.scissor.left) % 2 ^ 32).toNat

def clearHeight (c : Context) : Nat := ((c.scissor.bottom - c.scissor.top) % 2 ^ 32).toNat

def packedColor (clear : ClearState) (format : Format) : Nat :=
  gglPackColor format (gglFixedToIteratedColor clear.r).toNat
    (gglFixedToIteratedColor clear.g).toNat (gglFixedToIteratedColor clear.b).toNat
    (gglFixedToIteratedColor clear.a).toNat

def fixedToZ (z : Int) : Int := (z * 2 ^ 16 - z) >>> (16 : Nat)

def packedDepth (clear : ClearState) : Nat :=
  let depth := (fixedToZ clear.depth).toNat
  u32 (depth <<< 16) ||| depth

def fillSurface (x : Rasterizer) (s : Surface) (packed : Nat) : Memory :=
  memset2d x.memory s packed (x.context.scissor.left % 2 ^ 32).toNat
    (x.context.scissor.top % 2 ^ 32).toNat (clearWidth x.context) (clearHeight x.context)

def clearColorBuffer (x : Rasterizer) : Rasterizer :=
  let x :=
    if x.clear.colorDirty then
      { x with
        clear :=
          { x.clear with
            colorDirty := false
            colorPacked := packedColor x.clear x.context.color.format } }
    else x
  { x with memory := fillSurface x x.context.color x.clear.colorPacked }

def clearDepthBuffer (x : Rasterizer) : Rasterizer :=
  let x :=
    if x.clear.depthDirty then
      { x with clear := { x.clear with depthDirty := false, depthPacked := packedDepth x.clear } }
    else x
  { x with memory := fillSurface x x.context.depth x.clear.depthPacked }

/-- `GGL_COLOR_BUFFER_BIT` is bit 14 of the mask and `GGL_DEPTH_BUFFER_BIT` bit 8. -/
def clearsColor (c : Context) (mask : Nat) : Prop :=
  mask.testBit 14 = true ∧ c.color.format ≠ Format.none

def clearsDepth (c : Context) (mask : Nat) : Prop :=
  mask.testBit 8 = true ∧ c.depth.format ≠ Format.none

instance (c : Context) (mask : Nat) : Decidable (clearsColor c mask) :=
  inferInstanceAs (Decidable (_ ∧ _))

instance (c : Context) (mask : Nat) : Decidable (clearsDepth c mask) :=
  inferInstanceAs (Decidable (_ ∧ _))

def gglClear (x : Rasterizer) (mask : Nat) : Rasterizer :=
  if clearWidth x.context = 0 ∨ clearHeight x.context = 0 then x
  else
    let x := if clearsColor x.context mask then clearColorBuffer x else x
    if clearsDepth x.context mask then clearDepthBuffer x else x

inductive ClearOp where
  | state (op : Op)
  | clearColorx (r g b a : Int)
  | clearDepthx (depth : Int)
  | clearStencil (s : Int)
  | clear (mask : Nat)

def step (x : Rasterizer) : ClearOp → Rasterizer
  | .state op => { x with context := call x.context op }
  | .clearColorx r g b a => gglClearColorx x r g b a
  | .clearDepthx depth => gglClearDepthx x depth
  | .clearStencil s => gglClearStencil x s
  | .clear mask => gglClear x mask

def init (memory : Memory) : Rasterizer := ⟨initContext, {}, memory⟩

end RabbitRender.Pixelflinger.Clear
