/- RabbitRender/Textures/Palettes
   layer: model
   source: swrender/texture.cpp
   digest: Paletted images: the size that is asked for, and the decoder with the bytes it reads. -/

import RabbitRender.Lib.ByteMemory
import RabbitRender.Textures.Uploads

set_option autoImplicit false

namespace RabbitRender.Textures.Palettes

open Fixed (wrap32)
open RabbitRender.GL (GLenum)
open Lib.ByteMemory
open Textures.Levels (sizeT)
open Textures.Units (paletteFormat)
open Textures.Uploads (lodExtent)

def indexBits (format : GLenum) : Nat :=
  if format = 0x8B90 ∨ format = 0x8B91 ∨ format = 0x8B92 ∨ format = 0x8B93 ∨ format = 0x8B94 then 4
  else 8

def entrySize (format : GLenum) : Nat :=
  if format = 0x8B90 ∨ format = 0x8B95 then 3
  else if format = 0x8B91 ∨ format = 0x8B96 then 4
  else if format = 0x8B92 ∨ format = 0x8B93 ∨ format = 0x8B94 ∨ format = 0x8B97 ∨ format = 0x8B98 ∨
    format = 0x8B99 then 2
  else 0

def paletteSize (format : GLenum) : Nat := 1 <<< indexBits format * entrySize format

/-- `h * ((w * indexBits) / 8)` for a level. -/
def levelBytes (format : GLenum) (width height level : Nat) : Int :=
  wrap32 (lodExtent height level * Int.tdiv (wrap32 (lodExtent width level * indexBits format)) 8)

/-- `levelSize`: a level that comes to nothing counts for one byte. -/
def levelSize (format : GLenum) (width height level : Nat) : Int :=
  if levelBytes format width height level ≠ 0 then levelBytes format width height level else 1

/-- The sum of a quantity of the levels before `level`. -/
def sumLevels (f : Nat → Int) : Nat → Int
  | 0 => 0
  | level + 1 => sumLevels f level + f level

def dataSizePalette4 (numLevels width height : Nat) (format : GLenum) : Nat :=
  sizeT (paletteSize format + sumLevels (levelSize format width height) numLevels)

/-- Where `decodePalette4` takes the indices of a level from. -/
def pixelOffset (format : GLenum) (width height level : Nat) : Int :=
  paletteSize format + sumLevels (levelBytes format width height) level

/-- The state of the loops of `decodePalette4`: the surface, the place in it, the place in the data,
and the bytes of the data that were read. -/
structure Decoder where
  surface : Memory
  p : Int
  pixels : Int
  reads : List Int

/-- `*pixels++`. -/
def Decoder.next (d : Decoder) : Decoder :=
  { d with pixels := d.pixels + 1, reads := d.reads ++ [d.pixels] }

def Decoder.entry (data : Memory) (size index : Nat) (d : Decoder) : Decoder :=
  { d with
    surface := fun a => if d.p ≤ a ∧ a < d.p + size then data (size * index + (a - d.p)) else d.surface a
    p := d.p + size
    reads := d.reads ++ (List.range size).map fun k => ((size * index + k : Nat) : Int) }

def Decoder.row8 (data : Memory) (size : Nat) : (width : Nat) → Decoder → Decoder
  | 0, d => d
  | width + 1, d => row8 data size width (d.next.entry data size (data d.pixels).toNat)

def Decoder.row4 (data : Memory) (size : Nat) : (width : Nat) → Decoder → Decoder
  | 0, d => d
  | 1, d => d.next.entry data size ((data d.pixels).toNat >>> 4)
  | width + 2, d =>
    let v := (data d.pixels).toNat
    row4 data size width ((d.next.entry data size (v >>> 4)).entry data size (v &&& 0xF))

/-- The loop over `y`. -/
def Decoder.rows (data : Memory) (bits size : Nat) (stride : Int) (width : Nat) :
    (count y : Nat) → Decoder → Decoder
  | 0, _, d => d
  | count + 1, y, d =>
    let d := { d with p := y * stride * size }
    rows data bits size stride width count (y + 1)
      (if bits = 8 then d.row8 data size width else d.row4 data size width)

def decodePalette4 (data : Memory) (level width height : Nat) (surface : Memory) (stride : Int)
    (format : GLenum) : Decoder :=
  let d : Decoder := ⟨surface, 0, pixelOffset format width height level, []⟩
  if entrySize format = 0 then d
  else
    d.rows data (indexBits format) (entrySize format) stride (lodExtent width level)
      (lodExtent height level) 0

/-- The bytes of indices that `decodePalette4` reads for a level. -/
def indexBytes (data : Memory) (level width height : Nat) (surface : Memory) (stride : Int)
    (format : GLenum) : Int :=
  (decodePalette4 data level width height surface stride format).pixels -
    pixelOffset format width height level

/-- The arguments of `glCompressedTexImage2D`. -/
structure CompressedTexImage where
  target : GLenum
  level : Int
  internalformat : GLenum
  width : Int
  height : Int
  border : Int
  imageSize : Int
  data : Option Memory

def CompressedTexImage.numLevels (a : CompressedTexImage) : Nat :=
  if a.level < 0 then a.level.natAbs else 1

/-- The arguments, with the comparison of the sizes: an `int` is converted to `size_t`, and the format
that is handed over is the one of the decoded image. -/
def CompressedTexImage.checked (a : CompressedTexImage) : Units.CompressedTexImage :=
  let format := ((paletteFormat a.internalformat).map Prod.fst).getD 0
  { target := a.target, level := a.level, internalformat := a.internalformat, width := a.width,
    height := a.height, border := a.border, hasData := a.data.isSome
    fits := decide (dataSizePalette4 a.numLevels a.width.toNat a.height.toNat format ≤
      sizeT a.imageSize) }

def CompressedTexImage.reads (a : CompressedTexImage) (data : Memory) (surface : Memory)
    (stride : Int) (level : Nat) : List Int :=
  (decodePalette4 data level a.width.toNat a.height.toNat surface stride a.internalformat).reads

def glCompressedTexImage2D (c : Uploads.Context) (a : CompressedTexImage) (out : Uploads.Outcome) :
    Option (Uploads.Context × GLenum) :=
  Uploads.glCompressedTexImage2D c a.checked out

end RabbitRender.Textures.Palettes
