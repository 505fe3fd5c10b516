/- RabbitRender/Pixelflinger/Pixels
   layer: model
   source: include/ggl_context.h, libpixelflinger/buffer.cpp
   digest: Pixels of components with their bit sizes, and how they are read from and packed into
     words. -/

import RabbitRender.Pixelflinger.State

set_option autoImplicit false

namespace RabbitRender.Pixelflinger.Pixels

open RabbitRender.GL (GLenum)
open Pixelflinger.State

/-- Conversion to `uint32_t`. -/
def u32 (x : Nat) : Nat := x % 2 ^ 32

/-- `pixel_t`: the components and the sizes they are declared with. -/
structure Pixel where
  c : Component → Nat
  s : Component → Nat

/-- The first loop of `expand`: the bits are repeated downwards. The sizes shrink in every turn,
so `dbits` turns are enough. -/
def smearRight : Nat → (v sbits dbits : Nat) → Nat
  | 0, v, _, _ => v
  | turns + 1, v, sbits, dbits =>
    let v := v ||| v >>> sbits
    if dbits ≤ sbits then v else smearRight turns v (2 * sbits) (dbits - sbits)

/-- The second loop of `expand`: the bits are repeated upwards. -/
def smearLeft : Nat → (v sbits dbits : Nat) → Nat
  | 0, v, _, _ => v
  | turns + 1, v, sbits, dbits =>
    let v := u32 (v ||| v <<< sbits)
    if dbits ≤ sbits then v
    else smearLeft turns v (if 2 * sbits < dbits - sbits then 2 * sbits else sbits) (dbits - sbits)

/-- `ggl_expand`, a component from `sbits` to `dbits`. -/
def gglExpand (v sbits dbits : Nat) : Nat :=
  if sbits < dbits then
    if sbits = 1 then u32 (v <<< dbits + (2 ^ 32 - v))
    else if dbits % sbits ≠ 0 then
      smearRight dbits (u32 (v <<< (dbits - sbits))) sbits (dbits - sbits)
    else smearLeft dbits v sbits (dbits - sbits)
  else v

/-- `extract`, a component from a word of `bits` bits. -/
def extract (v h l bits : Nat) : Nat :=
  let v := v >>> l
  if h ≠ bits then v &&& (1 <<< (h - l) - 1) else v

/-- `read_pixel`; a component the format lacks keeps what was in the pixel before. -/
def readPixel (f : GGLFormat) (v : Nat) (pixel : Pixel) : Pixel where
  s i := (f.c i).h - (f.c i).l
  c i := if (f.c i).h - (f.c i).l ≠ 0 then extract v (f.c i).h (f.c i).l (f.size * 8) else pixel.c i

def readRGB565 (v : Nat) : Pixel where
  c := ![0, v >>> 11, v >>> 5 &&& 0x3F, v &&& 0x1F]
  s := ![0, 5, 6, 5]

def readABGR8888 (v : Nat) : Pixel where
  c := ![v >>> 24, v &&& 0xFF, v >>> 8 &&& 0xFF, v >>> 16 &&& 0xFF]
  s := fun _ => 8

/-- `surface_t.read` at a pixel whose bytes hold the word `v`. -/
def readWord (reader : Reader) (format : Format) (v : Nat) (pixel : Pixel) : Pixel :=
  match reader with
  | .readABGR8888 => readABGR8888 (u32 v)
  | .readRGB565 => readRGB565 (v % 2 ^ 16)
  | .readPixel => readPixel (formats format) (v % 2 ^ ((formats format).size * 8)) pixel

/-- `downshift_component`: the bits of `v` from `sl` to `sh` are brought to those of `word` from `dl`
to `dh`, with an entry of the dither matrix. -/
def downshiftComponent (word v sh sl dh dl ch cl : Nat) (dither : Option (Fin 64)) : Nat :=
  let sbits := sh - sl
  let dbits := dh - dl
  let v := match dither with
    | some d =>
      if dbits < sbits then
        let fixed := u32 (v + (2 ^ 32 - v >>> dbits))
        if sbits - dbits ≤ 6 then u32 (fixed + (d.val >>> (6 - (sbits - dbits))) <<< sl)
        else u32 (fixed + (d.val <<< (sbits - dbits - 6)) <<< sl)
      else v
    | none => v
  let (v, sh) := if ch ≠ 0 then (u32 (v <<< (32 - sh)), 32) else (v, sh)
  if dl ≠ 0 then
    if cl ≠ 0 ∨ dbits < sbits then word ||| u32 ((v >>> (sh - dbits)) <<< dl)
    else word ||| u32 (v <<< (dh - sh))
  else if dh < sh then word ||| v >>> (sh - dh)
  else word ||| u32 (v <<< (dh - sh))

/-- `ggl_pack_color`: the word is repeated up to 32 bits. -/
def gglPackColor (format : Format) (r g b a : Nat) : Nat :=
  let f := formats format
  let place (p v : Nat) (i : Component) : Nat :=
    downshiftComponent p v 24 16 (f.c i).h (f.c i).l 0 1 none
  let p := place (place (place (place 0 r 1) g 2) b 3) a 0
  if f.size = 1 then
    let p := p ||| u32 (p <<< 8)
    p ||| u32 (p <<< 16)
  else if f.size = 2 then p ||| u32 (p <<< 16)
  else p

/-- What `write_pixel` reads besides the pixel: the format of the surface, the colour mask, the
logic operation when there is one, the entry of the dither matrix when there is dithering, and the
word in the surface. -/
structure Target where
  format : Format
  maskColor : Nat
  logicOp : Option GLenum
  dither : Option (Fin 64)
  word : Nat

/-- Luminance formats do not have green and blue, and the mask lets the component through. -/
def Written (t : Target) (i : Component) : Prop :=
  ¬(GGL.luminance ≤ (formats t.format).components ∧ (i = 2 ∨ i = 3)) ∧
    ((formats t.format).c i).h ≠ 0 ∧ t.maskColor.testBit i = true

instance (t : Target) (i : Component) : Decidable (Written t i) :=
  inferInstanceAs (Decidable (_ ∧ _))

def widened (pixel : Pixel) (range : BitRange) (i : Component) : Nat × Nat :=
  if pixel.s i < range.h - range.l then
    (gglExpand (pixel.c i) (pixel.s i) (range.h - range.l), range.h - range.l)
  else (pixel.c i, pixel.s i)

/-- One turn of the loop of `write_pixel`, on the word and the mask of the bits it covers. -/
def writeComponent (t : Target) (pixel : Pixel) (packed : Nat × Nat) (i : Component) : Nat × Nat :=
  let (v, mask) := packed
  if Written t i then
    let range := (formats t.format).c i
    let (u, pixelSize) := widened pixel range i
    (downshiftComponent v u pixelSize 0 range.h range.l 0 0 t.dither,
      mask ||| u32 ((1 <<< (range.h - range.l) - 1) <<< range.l))
  else (v, mask)

def not32 (x : Nat) : Nat := x ^^^ (2 ^ 32 - 1)

/-- `logic_op`, on the source and the destination. -/
def logicOp (op : GLenum) (s d : Nat) : Nat :=
  if op = GGL.clear then 0
  else if op = GGL.and then s &&& d
  else if op = GGL.andReverse then s &&& not32 d
  else if op = GGL.copy then s
  else if op = GGL.andInverted then not32 s &&& d
  else if op = GGL.noop then d
  else if op = GGL.xor then s ^^^ d
  else if op = GGL.or then s ||| d
  else if op = GGL.nor then not32 (s ||| d)
  else if op = GGL.equiv then not32 (s ^^^ d)
  else if op = GGL.invert then not32 d
  else if op = GGL.orReverse then s ||| not32 d
  else if op = GGL.copyInverted then not32 s
  else if op = GGL.orInverted then not32 s ||| d
  else if op = GGL.nand then not32 (s &&& d)
  else if op = GGL.set then 2 ^ 32 - 1
  else s

/-- `write_pixel`: the word it leaves in the surface. -/
def writePixel (t : Target) (pixel : Pixel) : Nat :=
  let (v, mask) := [0, 1, 2, 3].foldl (writeComponent t pixel) (0, 0)
  let d := t.word % 2 ^ ((formats t.format).size * 8)
  let v :=
    if t.maskColor ≠ 0xF ∨ t.logicOp.isSome then
      let v := match t.logicOp with
        | some op => logicOp op v d &&& mask
        | none => v
      v ||| d &&& not32 mask
    else v
  v % 2 ^ ((formats t.format).size * 8)

end RabbitRender.Pixelflinger.Pixels
