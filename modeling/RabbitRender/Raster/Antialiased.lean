/- RabbitRender/Raster/Antialiased
   layer: model
   source: libpixelflinger/trap.cpp, libpixelflinger/memory_win32.cpp, include/ggl_fixed.h
   digest: Anti-aliased polygons: the edge records, the sweep of two of them, and the coverage that
     it writes. -/

import Mathlib.Logic.Function.Basic
import RabbitRender.Raster.Trap

set_option autoImplicit false

namespace RabbitRender.Raster.Antialiased

open Fixed
open Raster.Trap (Vertex Scissor)

/-- Conversion to `int16_t`. -/
def int16 (x : Int) : Int := Int.bmod x (2 ^ 16)

/-- `AAEdge`: positions in 16.16, heights in 12.4. -/
structure AAEdge where
  x : Int
  xIncr : Int
  yIncr : Int
  yTop : Int
  yBot : Int
deriving DecidableEq, Repr

/-- `aa_edge_setup`; none when the edge is not counted. -/
def aaEdgeSetup (p1 p2 : Vertex) (ymin ymax : Int) : Option AAEdge :=
  let (top, bot) := if p1.y > p2.y then (p2, p1) else (p1, p2)
  let dy := wrap32 (bot.y - top.y)
  if dy = 0 ∨ top.y > ymax ∨ bot.y < ymin then none
  else
    let ymin := if top.y > ymin then top.y else ymin
    let ymax := if bot.y < ymax then bot.y else ymax
    let dx := wrap32 (bot.x - top.x)
    let xIncr := if ymin ≤ ymax ∧ dx ≠ 0 then gglDivQ16 dx dy else 0
    let yIncr := if ymin ≤ ymax ∧ dx ≠ 0 then wrap32 (gglDivQ16 dy dx).natAbs else 0x7FFFFFFF
    let x := wrap32 (top.x * 2 ^ 12)
    let x := if top.y < ymin then wrap32 (x + wrap32 (xIncr * (ymin - top.y)) >>> (4 : Nat)) else x
    some ⟨x, xIncr, yIncr, int16 ymin, int16 ymax⟩

def compareEdges (e0 e1 : AAEdge) : Int :=
  if e0.yTop > e1.yTop then 1
  else if e0.yTop < e1.yTop then -1
  else if e0.x > e1.x then 1
  else if e0.x < e1.x then -1
  else if e0.xIncr > e1.xIncr then 1
  else if e0.xIncr < e1.xIncr then -1
  else 0

def setupEdges (scissor : Scissor) (pts : List Vertex) : List AAEdge :=
  let ymin := wrap32 (scissor.top * triOne)
  let ymax := wrap32 (scissor.bottom * triOne)
  (pts.zip (pts.tail ++ pts.take 1)).filterMap fun (p1, p2) => aaEdgeSetup p1 p2 ymin ymax

/-- What is written to the coverage buffer: `SET_COVERAGE`, `ADD_COVERAGE`, `SUB_COVERAGE`, and the
additions of a loop that does not end, as its counter passes the largest `int`. -/
inductive Write where
  | set (first : Int) (count : Nat) (value : Int)
  | add (index cf : Int)
  | sub (index cf : Int)
  | flood (first cf : Int)
deriving DecidableEq, Repr

/-- What `ADD_COVERAGE` makes of a word. -/
def added (word cf : Int) : Int :=
  let value := wrap32 (word + cf)
  int16 (if value ≥ 0x8000 then 0x7FFF else value)

/-- The memory after a write; `cov` has the words from the buffer's start on. -/
def Write.apply (cov : Int → Int) : Write → Int → Int
  | .set first count value => fun i => if first ≤ i ∧ i < first + count then int16 value else cov i
  | .add index cf => Function.update cov index (added (cov index) cf)
  | .sub index cf =>
    let value := wrap32 (cov index - cf)
    Function.update cov index (int16 (if value < 0 then 0 else value))
  | .flood first cf => fun i => if first ≤ i then added (cov i) cf else cov i

def Write.Within (length : Int) : Write → Prop
  | .set first count _ => count = 0 ∨ (0 ≤ first ∧ first + count ≤ length)
  | .add index _ => 0 ≤ index ∧ index < length
  | .sub index _ => 0 ≤ index ∧ index < length
  | .flood _ _ => False

/-- The words that `android_memset16` writes for `n*2` bytes, a `size_t`. -/
def words (n : Int) : Nat := (n % 2 ^ 63).toNat

def gglFixedToIntCeil (f : Int) : Int := wrap32 (f + 0xFFFF) >>> (16 : Nat)

def gglFloorx (v : Int) : Int := wrap32 (v >>> (16 : Nat) * 2 ^ 16)

def gglCeilx (v : Int) : Int := wrap32 (gglFixedToIntCeil v * 2 ^ 16)

/-- `l_min`, `l_max`, `l_min_i` and `l_max_i`, or those of the right edge. -/
structure Extent where
  min : Int
  max : Int
  minI : Int
  maxI : Int
deriving DecidableEq, Repr

def AAEdge.position (e : AAEdge) (y : Int) : Int :=
  wrap32 (gglMulAddx e.xIncr (y - e.yTop) e.x 4)

/-- `gglIntToFixed(xmax)-1` -/
def lastColumn (xmax : Int) : Int := wrap32 (wrap32 (xmax * 2 ^ 16) - 1)

/-- An edge that goes from `x0` to `x1`, clamped to the framebuffer. -/
def extent (xmax x0 x1 : Int) : Extent :=
  let (lo, hi) := if x1 > x0 then (x0, x1) else (x1, x0)
  let lo := if lo < 0 then 0 else lo
  let hi := if hi < 0 then 0 else hi
  let lo := if lo >>> (16 : Nat) ≥ xmax then lastColumn xmax else lo
  let hi := if gglFixedToIntCeil hi ≥ xmax then lastColumn xmax else hi
  ⟨lo, hi, gglFloorx lo, gglCeilx hi⟩

/-- The pixels in the middle of an edge: what is written, and the index and coverage after it. -/
def ramp (write : Int → Int → Write) (incr : Int) : Nat → (index cf : Int) → List Write × Int × Int
  | 0, index, cf => ([], index, cf)
  | n + 1, index, cf =>
    let cf := wrap32 (cf + incr)
    let rest := ramp write incr n (index + 1) cf
    (write index cf :: rest.1, rest.2)

/-- `(dx * dx * y_incr) >> cf_shift` -/
def corner (dx yIncr : Int) : Int := wrap32 (wrap32 (dx * dx) * yIncr) >>> (10 : Nat)

/-- The coverage of an edge, added for the left one and subtracted for the right one. -/
def edgeCoverage (write : Int → Int → Write) (e : Extent) (yIncr dy : Int) : List Write :=
  let index := e.minI >>> (16 : Nat)
  if e.minI = gglFloorx e.max then
    let dx := wrap32 (e.max - e.min)
    [write index (gglMulx (wrap32 (dx >>> (1 : Nat) + wrap32 (e.minI + 0x10000 - e.max))) dy 5)]
  else
    let cf := corner (triFromFixed (e.minI - e.min) + triOne) yIncr
    let first := write index cf
    let cf := wrap32 (cf - corner (triFromFixed (e.min - e.minI)) yIncr)
    let count := (wrap32 (e.maxI - 0x10000) - wrap32 (e.minI + 0x10000)) / 0x10000
    let (middle, index, cf) := ramp write (yIncr >>> (1 : Nat)) count.toNat (index + 1) cf
    let cf := wrap32 (cf + corner (triFromFixed (e.max - e.maxI) - triOne) yIncr)
    first :: (middle ++ [write index cf])

def fullCoverage (left right : Extent) (dy : Int) : List Write :=
  let index := left.maxI >>> (16 : Nat)
  let cf := wrap32 (dy * 2 ^ 11)
  if cf ≥ 0x8000 then
    [.set index (words (wrap32 (right.max - left.maxI) >>> (16 : Nat) + 1)) 0x7FFF]
  else if right.max > 0x7FFF0000 then [.flood index cf]
  else
    (List.range ((right.max - left.maxI + 0xFFFF) / 0x10000).toNat).map fun (k : Nat) =>
      .add (index + k) cf

/-- A call of `aapolyx` up to its sweep. The records are sorted by `qsort`; `beyond` has what is in
memory behind them. -/
structure Polygon where
  scissor : Scissor
  pts : List Vertex
  edges : List AAEdge
  beyond : Nat → AAEdge
  perm : edges.Perm (setupEdges scissor pts)
  sorted : edges.Pairwise fun e0 e1 => compareEdges e0 e1 ≤ 0

/-- The variables of the loop, with the row and the span of `c->iterators`. -/
structure State where
  left : AAEdge
  right : AAEdge
  next : Nat
  yt : Int
  l : Int
  r : Int
  retire : Bool
  row : Int
  xl : Int
  xr : Int
deriving DecidableEq, Repr

/-- What one turn of the loop does: its writes, the rows it rasterises, the edge records it takes,
and the variables after it, if there is another turn. -/
structure Turn where
  writes : List Write
  rows : List Int
  records : List Nat
  next : Option State

namespace Polygon

variable (p : Polygon)

/-- `edges[k]` -/
def record (k : Nat) : AAEdge := p.edges.getD k (p.beyond k)

/-- `memset` of the coverage in the scissor. -/
def clear : Write := .set p.scissor.left (p.scissor.right - p.scissor.left).toNat 0

def start : Option State :=
  if 4 < p.pts.length ∨ p.pts.length < 2 ∨ p.scissor.left ≥ p.scissor.right ∨
      wrap32 (p.scissor.top * triOne) ≥ wrap32 (p.scissor.bottom * triOne) ∨
      p.edges.length < 2 then none
  else
    let left := p.record 0
    let right := p.record 1
    some
      { left, right, next := 2, yt := left.yTop, l := left.x, r := right.x, retire := false
        row := left.yTop >>> (4 : Nat), xl := p.scissor.right, xr := p.scissor.left }

end Polygon

namespace State

variable (s : State)

def y : Int := min (min s.left.yBot s.right.yBot) ((s.yt + triOne) / triOne * triOne)

def leftExtent (xmax : Int) : Extent := extent xmax s.l (s.left.position s.y)

def rightExtent (xmax : Int) : Extent := extent xmax s.r (s.right.position s.y)

/-- The edges after a turn, and the next record; none when the sweep is done. -/
def advance (p : Polygon) : Option (AAEdge × AAEdge × Nat) :=
  if s.y = s.left.yBot ∨ s.y = s.right.yBot then
    if s.next ≥ p.edges.length then none
    else
      let (left, i) := if s.y = s.left.yBot then (p.record s.next, s.next + 1) else (s.left, s.next)
      let (right, i) := if s.y = s.right.yBot then (p.record i, i + 1) else (s.right, i)
      some (left, right, i)
  else some (s.left, s.right, s.next)

end State

def Polygon.turn (p : Polygon) (s : State) : Turn :=
  let xmin := p.scissor.left
  let xmax := p.scissor.right
  let left := s.leftExtent xmax
  let right := s.rightExtent xmax
  let xml := max xmin (left.minI >>> (16 : Nat))
  let xmr := min xmax (right.maxI >>> (16 : Nat))
  let row := if s.retire then s.row + 1 else s.row
  let xl := if s.retire then xml else min s.xl xml
  let xr := if s.retire then xmr else max s.xr xmr
  let dy := s.y - s.yt
  let advanced := s.advance p
  { writes := (if s.retire then [p.clear] else []) ++ edgeCoverage .add left s.left.yIncr dy ++
      fullCoverage left right dy ++ edgeCoverage .sub right s.right.yIncr dy
    rows := (if s.retire ∧ s.xl < s.xr then [s.row] else []) ++
      (if advanced.isNone ∧ xl < xr then [row] else [])
    records := (advanced.map fun (_, _, i) => List.range' s.next (i - s.next)).getD []
    next := advanced.map fun (left, right, i) =>
      { left, right, next := i, yt := s.y, l := s.left.position s.y
        r := s.right.position s.y, retire := s.y % triOne = 0, row, xl, xr } }

def Polygon.sweep (p : Polygon) : Nat → Option State
  | 0 => p.start
  | n + 1 => (p.sweep n).bind fun s => (p.turn s).next

end RabbitRender.Raster.Antialiased
