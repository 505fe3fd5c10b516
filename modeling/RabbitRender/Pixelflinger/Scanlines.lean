/- RabbitRender/Pixelflinger/Scanlines
   layer: model
   source: libpixelflinger/scanline.cpp, libpixelflinger/memory_win32.cpp
   digest: The generic scanline with its tests, the scanlines that fill or copy a row of bytes, and
     the two rectangle blitters. -/

import RabbitRender.Lib.ByteCopies
import RabbitRender.Pixelflinger.ClearBounds
import RabbitRender.Pixelflinger.Stepping

set_option autoImplicit false

namespace RabbitRender.Pixelflinger.Scanlines

open RabbitRender.GL (GLenum)
open Fixed (wrap32)
open Lib.ByteMemory Lib.ByteCopies Pixelflinger.State Pixelflinger.Pixels Pixelflinger.Fragment
open Pixelflinger.Stepping
open Pixelflinger.ClearBounds (address)

/-- What the scanline reads for one fragment besides its state: the iterated colour of smooth
shading, the words of the units, the texel before, the coverage, the depth, the fog, an entry of
the dither matrix and what the blend factors hold before they are set. -/
structure Reads where
  color : Component → Int
  samples : Fin 2 → Sample
  texel : Pixel
  coverage : BitVec 16
  z : Int
  fog : Fog
  dither : Fin 64
  sf : Component → Nat
  df : Component → Nat

theorem units_le_components : 2 ≤ 4 := by decide

theorem byte_pos : 0 < 256 := by decide

def texUnit (c : Context) (reads : Reads) (i : Fin 2) : TexUnit where
  env := (c.texture i).env
  format := (c.texture i).surface.format
  sample := reads.samples i
  envColor := ⟨(c.texture i).envColor (i.castLE units_le_components) % 256, Nat.mod_lt _ byte_pos⟩

def texUnits (c : Context) (reads : Reads) : List TexUnit :=
  if c.enables .tmus then
    ([0, 1].filter fun i => (c.texture i).enable).map (texUnit c reads)
  else []

def fragmentInputs (r : Rasterizer) (reads : Reads) (word : Nat) : Inputs :=
  let c := r.context
  { color := if c.enables .smooth then reads.color else color r.iterators
    units := texUnits c reads
    texel := reads.texel
    coverage := if c.enables .aa then some reads.coverage else none
    fog := if c.enables .fog then some reads.fog else none
    blending :=
      if c.enables .blending then some ⟨c.blend, c.color.format, word, reads.sf, reads.df⟩
      else none }

def covered (x : Inputs) : Pixel :=
  applyCoverage x.coverage (x.units.foldl applyUnit (startFragment x.color, x.texel)).1

def compares (func : GLenum) (a b : Int) : Bool :=
  if func = GGL.never then false
  else if func = GGL.less then a < b
  else if func = GGL.equal then a = b
  else if func = GGL.lequal then a ≤ b
  else if func = GGL.greater then b < a
  else if func = GGL.notequal then a ≠ b
  else if func = GGL.gequal then b ≤ a
  else true

def alphaLevel (fragment : Pixel) : Int :=
  wrap32 (fragment.c 0 * (1 <<< 24 - 1) / (1 <<< fragment.s 0 - 1) : Nat)

def alphaTest (c : Context) (fragment : Pixel) : Bool :=
  !c.enables .alphaTest || compares c.alphaFunc (alphaLevel fragment) c.alphaRef

/-- The depth test and the write to the depth buffer; without a result the fragment is discarded. -/
def depthTest (c : Context) (z : Int) (m : Memory) (x y : Nat) : Option Memory :=
  if c.depth.format ≠ Format.none ∧ c.enables .depthTest then
    let p := c.depth.data + (x + y * c.depth.stride) * 2
    let zz := ofInt32 z >>> 16
    if compares c.depthFunc zz (load m p 2) then
      some (if c.maskDepth ≠ 0 then store m p 2 zz else m)
    else none
  else some m

/-- The call of `write_pixel`. -/
def writeFragment (c : Context) (dither : Fin 64) (m : Memory) (x y : Nat) (fragment : Pixel) :
    Memory :=
  let size := (formats c.color.format).size
  let target : Target :=
    { format := c.color.format
      maskColor := c.maskColor
      logicOp := if c.enables .logicOp then some c.opcode else none
      dither := if c.enables .dither then some dither else none
      word := load m (address c.color x y) size }
  store m (address c.color x y) size (writePixel target fragment)

def drawFragment (r : Rasterizer) (reads : Reads) (m : Memory) (x y : Nat) : Memory :=
  let c := r.context
  if alphaTest c (covered (fragmentInputs r reads 0)) then
    match depthTest c reads.z m x y with
    | some m =>
      let word := load m (address c.color x y) (formats c.color.format).size
      writeFragment c reads.dither m x y (shade (fragmentInputs r reads word))
    | none => m
  else m

/-- `scanline`, from column `x` on. -/
def scanline (r : Rasterizer) (reads : Nat → Reads) (y : Nat) : (x count : Nat) → Memory → Memory
  | _, 0, m => m
  | x, count + 1, m => scanline r reads y (x + 1) count (drawFragment r (reads x) m x y)

/-- A scanline that fills `count` pixels of a row. -/
abbrev FillScanline := Rasterizer → Memory → (x y count : Nat) → Memory

/-- `scanline_memset8` and its siblings; `android_memset16` and `android_memset32` store the low
bytes of the packed colour. -/
def scanlineMemset (size : Nat) : FillScanline := fun r m x y count =>
  fill m (r.context.color.data + (x + y * r.context.color.stride) * size) size r.packed count

def scanlineMemset8 : FillScanline := scanlineMemset 1

def scanlineMemset16 : FillScanline := scanlineMemset 2

def scanlineMemset32 : FillScanline := scanlineMemset 4

def memsetOf : Scanline → Option FillScanline
  | .memset8 => some scanlineMemset8
  | .memset16 => some scanlineMemset16
  | .memset32 => some scanlineMemset32
  | _ => none

/-- The size of a pixel of the colour buffer, which is used for the texture as well. -/
def pixelSize (r : Rasterizer) : Nat := (formats r.context.color.format).size

/-- A pointer into a surface; its offset is an `int`. -/
def pointer (s : Surface) (size : Nat) (x y : Int) : Int :=
  s.data + wrap32 ((x + s.stride * y) * size)

def copyDst (r : Rasterizer) : Int :=
  pointer r.context.color (pixelSize r) r.iterators.xl r.iterators.y

/-- The texel of the first pixel; the coordinates are those of a texture that is mapped 1:1. -/
def copySrc (r : Rasterizer) : Int :=
  let u := (r.texShade 0 0).v >>> (16 : Nat) + r.iterators.xl
  let v := (r.texShade 0 1).v >>> (16 : Nat) + r.iterators.y
  pointer (r.context.texture 0).surface (pixelSize r) u v

def copyCount (r : Rasterizer) : Nat := (r.iterators.xr - r.iterators.xl).toNat

def scanlineMemcpy (r : Rasterizer) (m : Memory) : Option Memory :=
  memcpy (copyDst r) (copySrc r) (copyCount r * pixelSize r) m

/-- `rect_generic`, of one row and `rows` more of them. -/
def rectGeneric (scanline : Rasterizer → Memory → Option Memory) :
    (rows : Nat) → Rasterizer → Memory → Option Memory
  | 0, r, m => scanline r m
  | rows + 1, r, m => (scanline r m).bind fun m => rectGeneric scanline rows (stepY r) m

/-- The rows of the rectangle and those of the texture follow one another without a gap. -/
def Contiguous (r : Rasterizer) : Prop :=
  r.context.color.stride = (r.context.texture 0).surface.stride ∧
    (copyCount r : Int) = r.context.color.stride

instance (r : Rasterizer) : Decidable (Contiguous r) := inferInstanceAs (Decidable (_ ∧ _))

/-- The bytes from one row of a surface to the next; an `int` before it becomes a `size_t`. -/
def rowPitch (s : Surface) (size : Nat) : Int := wrap32 (s.stride * size)

/-- `rect_memcpy`, of one row and `rows` more of them. -/
def rectMemcpy (rows : Nat) (r : Rasterizer) (m : Memory) : Option Memory :=
  if Contiguous r then
    memcpy (copyDst r) (copySrc r) (copyCount r * pixelSize r * (rows + 1)) m
  else
    copyRows (rowPitch r.context.color (pixelSize r))
      (rowPitch (r.context.texture 0).surface (pixelSize r)) (copyCount r * pixelSize r) rows
      (copyDst r) (copySrc r) m

end RabbitRender.Pixelflinger.Scanlines
