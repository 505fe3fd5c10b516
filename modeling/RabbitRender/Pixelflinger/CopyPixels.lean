/- RabbitRender/Pixelflinger/CopyPixels
   layer: model
   source: libpixelflinger/raster.cpp
   digest: The rows `ggl_copyPixels` copies inside the colour buffer, and the property of a clipped
     two-dimensional `memmove`. -/

import RabbitRender.Pixelflinger.Scanlines
import RabbitRender.Textures.DrawTex

set_option autoImplicit false

namespace RabbitRender.Pixelflinger.CopyPixels

open Fixed (wrap32)
open Lib.ByteMemory Lib.ByteCopies Pixelflinger.State Pixelflinger.Pixels
open Pixelflinger.ClearBounds (address InPixels)
open Pixelflinger.Scanlines (pointer rowPitch)
open Textures.DrawTex (gglFixedToIntRound)

/-- The arguments of `ggl_copyPixels` and the raster position, in 16.16. -/
structure Request where
  xs : Int32
  ys : Int32
  width : Int32
  height : Int32
  rasterX : Int32
  rasterY : Int32
deriving DecidableEq

/-- One axis of the rectangle: where it is copied to, where from and how long it is. -/
structure Span where
  dst : Int
  src : Int
  length : Int
deriving DecidableEq

def clipNear (near : Int) (s : Span) : Span :=
  if s.dst < near then
    let offset := wrap32 (near - s.dst)
    ⟨near, wrap32 (s.src + offset), wrap32 (s.length - offset)⟩
  else s

def clipFar (far : Int) (s : Span) : Span :=
  if far < wrap32 (s.dst + s.length) then { s with length := wrap32 (far - s.dst) } else s

def clip (near far : Int) (s : Span) : Span := clipFar far (clipNear near s)

/-- `x` as an `unsigned`. -/
def unsigned (x : Int) : Int := x % 2 ^ 32

def leaves (extent : Nat) (start length : Int) : Prop :=
  extent < unsigned start ∨ extent < unsigned (start + length)

instance (extent : Nat) (start length : Int) : Decidable (leaves extent start length) :=
  inferInstanceAs (Decidable (_ ∨ _))

def columns (c : Context) (r : Request) : Span :=
  clip c.scissor.left c.scissor.right
    ⟨gglFixedToIntRound r.rasterX.toInt, r.xs.toInt, r.width.toInt⟩

def rows (c : Context) (r : Request) : Span :=
  clip c.scissor.top c.scissor.bottom
    ⟨gglFixedToIntRound r.rasterY.toInt, r.ys.toInt, r.height.toInt⟩

def topToBottom (bpr : Int) : (yc : Nat) → (dst src : Int) → List (Int × Int)
  | 0, _, _ => []
  | yc + 1, dst, src => (dst, src) :: topToBottom bpr yc (dst + bpr) (src + bpr)

def bottomToTop (bpr : Int) : (yc : Nat) → (dst src : Int) → List (Int × Int)
  | 0, _, _ => []
  | yc + 1, dst, src => (dst - bpr, src - bpr) :: bottomToTop bpr yc (dst - bpr) (src - bpr)

/-- The copies of a call in their order: to and from which address, the bytes of each, and whether
they are made with `memmove`. -/
structure Copies where
  addresses : List (Int × Int)
  rowsize : Nat
  move : Bool
deriving DecidableEq

def rowCopies (c : Context) (r : Request) : Option Copies :=
  let cb := c.color
  if leaves cb.width r.xs.toInt r.width.toInt ∨ leaves cb.height r.ys.toInt r.height.toInt then none
  else
    let x := columns c r
    let y := rows c r
    if x.length ≤ 0 ∨ y.length ≤ 0 then none
    else if x.src = x.dst ∧ y.src = y.dst then none
    else
      let size := (formats cb.format).size
      let src := pointer cb size x.src y.src
      let dst := pointer cb size x.dst y.dst
      let bpr := rowPitch cb size
      let rowsize := (wrap32 (x.length * size)).toNat
      let yc := y.length.toNat
      if y.src < y.dst then
        some ⟨bottomToTop bpr yc (dst + y.length * bpr) (src + y.length * bpr), rowsize, false⟩
      else some ⟨topToBottom bpr yc dst src, rowsize, y.src = y.dst⟩

def memmove (dst src : Int) (size : Nat) (m : Memory) : Option Memory := some (copy m dst src size)

def Copies.moveRow (p : Copies) (dst src : Int) : Memory → Option Memory :=
  if p.move then memmove dst src p.rowsize else memcpy dst src p.rowsize

def Copies.run (p : Copies) : Memory → Option Memory := runCopies p.moveRow p.addresses

/-- `ggl_copyPixels`; without a result a `memcpy` is called with areas that overlap. -/
def copyPixels (c : Context) (r : Request) (m : Memory) : Option Memory :=
  match rowCopies c r with
  | none => some m
  | some p => p.run m

def rounded (x : Int32) : Int := (x.toInt + 0x8000) / 2 ^ 16

def SourceInside (c : Context) (r : Request) : Prop :=
  (0 ≤ r.xs.toInt ∧ r.xs.toInt + r.width.toInt ≤ c.color.width) ∧
    0 ≤ r.ys.toInt ∧ r.ys.toInt + r.height.toInt ≤ c.color.height

instance (c : Context) (r : Request) : Decidable (SourceInside c r) :=
  inferInstanceAs (Decidable ((_ ∧ _) ∧ _))

/-- The pixels of the scissor in the rectangle whose corner is moved to `(x, y)`. -/
def Target (c : Context) (r : Request) (x y px py : Int) : Prop :=
  ((c.scissor.left ≤ px ∧ px < c.scissor.right) ∧ x ≤ px ∧ px < x + r.width.toInt) ∧
    (c.scissor.top ≤ py ∧ py < c.scissor.bottom) ∧ y ≤ py ∧ py < y + r.height.toInt

instance (c : Context) (r : Request) (x y px py : Int) : Decidable (Target c r x y px py) :=
  inferInstanceAs (Decidable (((_ ∧ _) ∧ _) ∧ _))

/-- The pixels are those that were at the source before, and no other byte changes. -/
structure Moved (c : Context) (r : Request) (x y : Int) (m m' : Memory) : Prop where
  inside : SourceInside c r → ∀ px py (k : Nat), Target c r x y px py →
    k < (formats c.color.format).size →
    m' (address c.color px py + k) =
      m (address c.color (r.xs.toInt + (px - x)) (r.ys.toInt + (py - y)) + k)
  outside : ∀ b, ¬(SourceInside c r ∧ InPixels c.color (Target c r x y) b) → m' b = m b

def InRow (s : Surface) (size : Nat) (start : Int) : Prop :=
  ∃ x y : Int, ∃ n : Nat, (0 ≤ x ∧ x + n ≤ s.width) ∧ (0 ≤ y ∧ y < s.height) ∧
    start = address s x y ∧ size = n * (formats s.format).size

/-- A clipped two-dimensional `memmove` that reads and writes the surface only. -/
structure Moves (c : Context) (r : Request) : Prop where
  moved : ∀ m, ∃ m', copyPixels c r m = some m' ∧
    Moved c r (rounded r.rasterX) (rounded r.rasterY) m m'
  within : ∀ p, rowCopies c r = some p → ∀ a ∈ p.addresses,
    InRow c.color p.rowsize a.1 ∧ InRow c.color p.rowsize a.2

end RabbitRender.Pixelflinger.CopyPixels
