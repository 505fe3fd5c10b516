/- RabbitRender/Textures/Mipmaps
   layer: model
   source: swrender/mipmap.cpp
   digest: Mipmap generation with the texels it reads and those it writes. -/

import RabbitRender.Lib.ByteMemory
import RabbitRender.Textures.Uploads

set_option autoImplicit false

namespace RabbitRender.Textures.Mipmaps

open Lib.ByteMemory Textures.Uploads
open Textures.Levels hiding Memory

-- Each takes `p00`, `p10`, `p01` and `p11` to the word that is written.
def spread565 (p : BitVec 32) : BitVec 32 := (p ||| p <<< 16) &&& 0x07E0F81F#32

def box565 (p00 p10 p01 p11 : BitVec 32) : BitVec 32 :=
  let sum := spread565 p00 + spread565 p10 + spread565 p01 + spread565 p11
  let grb := (sum >>> 2) &&& 0x07E0F81F#32
  (grb &&& 0xFFFF#32) ||| (grb >>> 16)

def box5551 (p00 p10 p01 p11 : BitVec 32) : BitVec 32 :=
  let r := ((p00 >>> 11) + (p10 >>> 11) + (p01 >>> 11) + (p11 >>> 11) + 2#32) >>> 2
  -- red is not masked off before the sum
  let g := (((p00 >>> 6) + (p10 >>> 6) + (p01 >>> 6) + (p11 >>> 6) + 2#32) >>> 2) &&& 0x3F#32
  let b := ((p00 &&& 0x3E#32) + (p10 &&& 0x3E#32) + (p01 &&& 0x3E#32) + (p11 &&& 0x3E#32) + 4#32) >>> 3
  let a := ((p00 &&& 1#32) + (p10 &&& 1#32) + (p01 &&& 1#32) + (p11 &&& 1#32) + 2#32) >>> 2
  (r <<< 11) ||| (g <<< 6) ||| (b <<< 1) ||| a

def box8888 (p00 p10 p01 p11 : BitVec 32) : BitVec 32 :=
  let low (p : BitVec 32) := p &&& 0x00FF00FF#32
  let high (p : BitVec 32) := (p >>> 8) &&& 0x00FF00FF#32
  let rb := (low p00 + low p01 + low p10 + low p11) >>> 2
  let ga := (high p00 + high p01 + high p10 + high p11) >>> 2
  (rb &&& 0x00FF00FF#32) ||| ((ga &&& 0x00FF00FF#32) <<< 8)

def spread4444 (p : BitVec 32) : BitVec 32 :=
  ((p <<< 12) &&& 0x0F0F0000#32) ||| (p &&& 0x0F0F#32)

def box4444 (p00 p10 p01 p11 : BitVec 32) : BitVec 32 :=
  let rbga := (spread4444 p00 + spread4444 p10 + spread4444 p01 + spread4444 p11) >>> 2
  (rbga &&& 0x0F0F#32) ||| ((rbga >>> 12) &&& 0xF0F0#32)

def boxByte (p00 p10 p01 p11 : BitVec 32) : BitVec 32 := (p00 + p10 + p01 + p11) >>> 2

/-- What a format's loop reads and writes: elements of `bytes` bytes, `skip` of them a texel. -/
structure Filter where
  bytes : Nat
  skip : Nat
  box : BitVec 32 → BitVec 32 → BitVec 32 → BitVec 32 → BitVec 32

def filter (format : Nat) : Option Filter :=
  if format = 4 then some ⟨2, 1, box565⟩
  else if format = 6 then some ⟨2, 1, box5551⟩
  else if format = 1 then some ⟨4, 1, box8888⟩
  else if format = 3 ∨ format = 0xA ∨ format = 8 ∨ format = 9 then
    some ⟨1, if format = 3 then 3 else if format = 0xA then 2 else 1, boxByte⟩
  else if format = 7 then some ⟨2, 1, box4444⟩
  else none

/-- One element: the elements of the level before that are read, and the one that is written. -/
structure Step where
  p00 : Nat
  p10 : Nat
  p01 : Nat
  p11 : Nat
  dst : Nat
deriving DecidableEq, Repr

def Step.reads (s : Step) : List Nat := [s.p00, s.p10, s.p01, s.p11]

/-- The elements of one texel; `bs` and `base` are in elements. -/
def texelSteps (skip bs offset x base : Nat) : List Step :=
  (List.range skip).map fun c =>
    ⟨c + offset, c + offset + skip, c + offset + bs, c + offset + bs + skip, x + base + c⟩

/-- The loop over `x`. -/
def rowSteps (skip bs base : Nat) : (texels x offset : Nat) → List Step
  | 0, _, _ => []
  | texels + 1, x, offset =>
    texelSteps skip bs offset x base ++ rowSteps skip bs base texels (x + 1) (offset + 2 * skip)

/-- The loop over `y`, for a level of `w * h` texels without gaps between its rows. -/
def levelSteps (skip bs w h : Nat) : List Step :=
  (List.range h).flatMap fun y =>
    rowSteps skip (bs * skip) (y * (w * skip)) w 0 (y * 2 * (bs * skip))

/-- Element `i` of a block. -/
def Filter.read (f : Filter) (src : Memory) (i : Nat) : BitVec 32 :=
  BitVec.ofNat 32 (load src (i * f.bytes : Nat) f.bytes)

def Filter.step (f : Filter) (src dst : Memory) (s : Step) : Memory :=
  store dst (s.dst * f.bytes : Nat) f.bytes
    (f.box (f.read src s.p00) (f.read src s.p10) (f.read src s.p01) (f.read src s.p11)).toNat

/-- The new level, from the level before, whose rows are `bs` texels apart. -/
def Filter.produce (f : Filter) (src dst : Memory) (bs w h : Nat) : Memory :=
  (levelSteps f.skip bs w h).foldl (f.step src) dst

def memory (bytes : Bytes) : Memory := fun a => bytes.getD a.toNat 0

def contents (m : Memory) (size : Nat) : Bytes := (List.range size).map fun i => m i

def surfaceMemory (image : Image) (s : GGLSurface) : Memory := memory (s.data.elim [] image.bytes)

structure Made where
  level : Nat
  base : GGLSurface
  cur : GGLSurface
  steps : List Step

structure Pyramid where
  image : Image
  status : Status
  made : List Made

def Filter.copy (f : Filter) (src : Memory) (size bs w h : Nat) (old : Bytes) : Bytes :=
  contents (f.produce src (memory old) bs w h) size

def blockSize (s : GGLSurface) : Nat := s.data.elim 0 Pointer.size

/-- The loop of `buildAPyramid`, for at most `rounds` rounds; `size` is that of a texel. The level
that is written has a block of its own. -/
def buildLevels (size : Nat) (out : Outcome) :
    (rounds : Nat) → Image → (base : GGLSurface) → (level w h : Nat) → Option Pyramid
  | 0, _, _, _, _, _ => none
  | rounds + 1, image, base, level, w, h =>
    match reallocate image.storage level (levelRequest size base w h) (out.memory level) with
    | (storage, .noError) =>
      let image := { image with storage := storage }
      let cur := storage.mip level
      match filter base.format with
      | none => some ⟨image, .badType, []⟩
      | some f =>
        let bs := base.stride.toNat
        let copy := f.copy (surfaceMemory image base) (blockSize cur) bs w h
        let image := image.paint level copy
        let made : Made := ⟨level, base, cur, levelSteps f.skip bs w h⟩
        if w &&& h = 1 then some ⟨image, .noError, [made]⟩
        else
          (buildLevels size out rounds image cur (level + 1) (halve w) (halve h)).map fun p =>
            { p with made := made :: p.made }
    | (storage, _) => some ⟨{ image with storage := storage }, .noMemory, []⟩

def buildAPyramid (rounds : Nat) (image : Image) (out : Outcome) : Option Pyramid :=
  let base := image.storage.surface
  if base.width &&& base.height = 1 then some ⟨image, .noError, []⟩
  else
    buildLevels (pixelSize base.format) out rounds image base 1 (halve base.width)
      (halve base.height)

end RabbitRender.Textures.Mipmaps
