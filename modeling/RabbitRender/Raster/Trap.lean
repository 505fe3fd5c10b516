/- RabbitRender/Raster/Trap
   layer: model
   source: libpixelflinger/trap.cpp
   digest: Triangles drawn by edge stepping: edge setup, the sweep of two edges, the spans. -/

import RabbitRender.Fixed

set_option autoImplicit false

namespace RabbitRender.Raster.Trap

open Fixed

/-- `GGLcoord[2]`: window coordinates with four bits below the pixel. -/
structure Vertex where
  x : Int
  y : Int
deriving DecidableEq, Repr

/-- `c->state.scissor` -/
structure Scissor where
  left : Int
  top : Int
  right : Int
  bottom : Int
deriving DecidableEq, Repr

/-- An edge at a scanline: its position and increment in 16.16, its first and last scanlines as
the heights of their centres. -/
structure Edge where
  x : Int
  xIncr : Int
  yTop : Int
  yBot : Int
deriving DecidableEq, Repr

/-- A call of `c->scanline`. -/
structure Span where
  y : Int
  xl : Int
  xr : Int
deriving DecidableEq, Repr

/-- `y | 1` -/
def oddRow (y : Int) : Int := y / 2 * 2 + 1

/-- `edge_setup`; none when the edge is not counted. -/
def edgeSetup (p1 p2 : Vertex) (ymin ymax : Int) : Option Edge :=
  let (top, bot) := if p1.y > p2.y then (p2, p1) else (p1, p2)
  let y1 := oddRow top.y
  let y2 := oddRow bot.y
  let dy := y2 - y1
  if dy = 0 ∨ y1 > ymax ∨ y2 < ymin then none
  else
    let ymin := if y1 > ymin then triSnapNextHalf y1 else ymin
    let ymax := if y2 < ymax then triSnapPrevHalf y2 else ymax
    -- the edge does not cross any scanline
    if ymin > ymax then none
    else
      let dx := bot.x - top.x
      let x := wrap32 (top.x <<< (12 : Nat) + 2 ^ 15)
      let xIncr := if dx ≠ 0 then gglDivQ16 dx dy else 0
      let x := if y1 < ymin then wrap32 (x + wrap32 (xIncr * (ymin - y1)) >>> (4 : Nat)) else x
      some ⟨x, xIncr, ymin, ymax⟩

/-- The loop of `triangle_sweep_edges`. -/
def sweepRows (scissor : Scissor) (leftXi rightXi : Int) :
    (count : Nat) → (leftX rightX y : Int) → List Span
  | 0, _, _, _ => []
  | count + 1, leftX, rightX, y =>
    let xl := max (leftX >>> (16 : Nat)) scissor.left
    let xr := min (rightX >>> (16 : Nat)) scissor.right
    let rest := sweepRows scissor leftXi rightXi count (wrap32 (leftX + leftXi))
      (wrap32 (rightX + rightXi)) (y + 1)
    if xl < xr then ⟨y, xl, xr⟩ :: rest else rest

def Edge.advance (e : Edge) (count : Int) : Edge := { e with x := wrap32 (e.x + e.xIncr * count) }

def Edge.after (left right : Edge) : Prop :=
  left.x > right.x ∨ left.x = right.x ∧ left.xIncr > right.xIncr

instance (left right : Edge) : Decidable (left.after right) :=
  inferInstanceAs (Decidable (_ ∨ _))

/-- `triangle_sweep_edges` from the scanline `y`: its spans, the edges and the scanline after it. -/
def triangleSweepEdges (scissor : Scissor) (left right : Edge) (ytop ybot y : Int) :
    List Span × Edge × Edge × Int :=
  let count := (ybot - ytop) >>> (4 : Nat) + 1
  if count ≤ 0 then ([], left, right, y)
  else
    let (l, r) := if left.after right then (right, left) else (left, right)
    (sweepRows scissor l.xIncr r.xIncr count.toNat l.x r.x y,
      left.advance count, right.advance count, y + count)

def sides (edge0 edge1 edge2 : Edge) : Edge × Edge × Edge :=
  let yTop := min (min edge0.yTop edge1.yTop) edge2.yTop
  if edge0.yTop > yTop then (edge2, edge1, edge0)
  else if edge1.yTop > yTop then (edge0, edge2, edge1)
  else (edge0, edge1, edge2)

/-- The two sweeps. None when the third edge record is read and was not set up. -/
def sweeps (scissor : Scissor) (left right : Edge) (other : Option Edge) (yTop yBot : Int) :
    Option (List Span) :=
  let yMid := min left.yBot right.yBot
  let (upper, left, right, y) := triangleSweepEdges scissor left right yTop yMid (yTop >>> (4 : Nat))
  let yMid := yMid + triOne
  if yMid ≤ yBot then
    other.map fun other =>
      let next := if other.yTop < yMid then other.advance 1 else other
      let (left, right) := if left.yBot = yBot then (left, next) else (next, right)
      upper ++ (triangleSweepEdges scissor left right yMid yBot y).1
  else some upper

/-- `trianglex_big` after the setup of its edges. -/
def fillEdges (scissor : Scissor) : List Edge → Option (List Span)
  | [edge0, edge1] =>
    sweeps scissor edge0 edge1 none (min edge0.yTop edge1.yTop) (max edge0.yBot edge1.yBot)
  | edge0 :: edge1 :: edge2 :: _ =>
    let (left, right, other) := sides edge0 edge1 edge2
    sweeps scissor left right (some other) (min (min edge0.yTop edge1.yTop) edge2.yTop)
      (max (max edge0.yBot edge1.yBot) edge2.yBot)
  -- a tiny triangle that crosses no scanline centre
  | _ => some []

def trianglexBig (scissor : Scissor) (v0 v1 v2 : Vertex) : Option (List Span) :=
  let ymin := scissor.top * triOne + triHalf
  let ymax := scissor.bottom * triOne - triHalf
  fillEdges scissor
    ([edgeSetup v0 v1 ymin ymax, edgeSetup v0 v2 ymin ymax, edgeSetup v1 v2 ymin ymax].filterMap id)

def Covered (spans : List Span) (x y : Int) : Prop :=
  ∃ s ∈ spans, s.y = y ∧ s.xl ≤ x ∧ x < s.xr

def Drawn (scissor : Scissor) (v0 v1 v2 : Vertex) (x y : Int) : Prop :=
  ∃ spans, trianglexBig scissor v0 v1 v2 = some spans ∧ Covered spans x y

example : trianglexBig ⟨0, 0, 8, 8⟩ ⟨0, 0⟩ ⟨32, 0⟩ ⟨0, 32⟩ = some [⟨0, 0, 2⟩, ⟨1, 0, 1⟩] := by
  decide +kernel

end RabbitRender.Raster.Trap
