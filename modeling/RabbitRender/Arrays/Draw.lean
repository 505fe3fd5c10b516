/- RabbitRender/Arrays/Draw
   layer: model
   source: swrender/array.cpp
   digest: The vertex cache and primitive assembly, for arrays and for index lists. -/

import RabbitRender.Primitives

set_option autoImplicit false

namespace RabbitRender.Arrays.Draw

open Vertices Arrays.Compile
open Primitives (renderPoint renderLine renderTriangle)

-- Entry `vBuffer[i]` is slot `i`, entry `vCache[i]` is slot `8 + i`.
def vertexBufferSize : Nat := 8

def vertexCacheSize : Nat := 64

def indexSeq : Nat := 0x10000

/-- `vertex_cache_t::clear`. -/
def clear (m : Machine) : Machine :=
  if m.sequence + indexSeq ≥ 0x80000000 then
    let verts := fun i => { m.verts i with index := 0 }
    { m with sequence := indexSeq, verts := verts }
  else { m with sequence := m.sequence + indexSeq }

def lock (m : Machine) (slot : Nat) : Machine :=
  m.set slot { m.verts slot with locked := true }

def unlock (m : Machine) (slot : Nat) : Machine :=
  m.set slot { m.verts slot with locked := false }

def spareSlot (m : Machine) : Nat :=
  2 + ((m.verts 2).locked.toNat ||| (m.verts 3).locked.toNat <<< 1)

variable (p : Pipeline)

def cacheVertex (m : Machine) (slot index : Nat) : Machine × Nat :=
  let slot := if (m.verts slot).locked then spareSlot m else slot
  (lock (compileElement p m slot index) slot, slot)

/-- `vCache + (index & (VERTEX_CACHE_SIZE - 1))`. -/
def cacheSlot (index : Nat) : Nat := vertexBufferSize + index % vertexCacheSize

/-- `fetch_vertex`, with the entry it returns. A hit is recorded in `hits`. -/
def fetchVertex (m : Machine) (index : Nat) : Machine × Nat :=
  let index := index ||| m.sequence
  let slot := cacheSlot index
  let v := m.verts slot
  if v.index = index then
    (lock { m with hits := m.hits ++ [⟨index, v.source, m.draw⟩] } slot, slot)
  else cacheVertex p m slot index

/-- The `do` loop over the batches of a draw call: at most `vcs` vertices at a time, as long as
`least` are left; the buffer has 72 entries. The body gets the first vertex, the size of its batch and what is left. -/
def batches {S : Type} (vcs least : Nat) (body : S → Int → Nat → Nat → S)
    (s : S) (first : Int) (count : Nat) : S :=
  if _h : count < least ∨ count = 0 ∨ vcs = 0 then s
  else
    let num := if count > vcs then vcs else count
    batches vcs least body (body s first num (count - num)) (first + num) (count - num)
termination_by count
decreasing_by
  show count - (if count > vcs then vcs else count) < count
  split <;> omega

variable {count : Nat}

theorem batches_stop {S : Type} {vcs least : Nat} {body : S → Int → Nat → Nat → S} {s : S}
    {first : Int} (h : count < least ∨ count = 0 ∨ vcs = 0) :
    batches vcs least body s first count = s := by
  rw [batches, dif_pos h]

theorem batches_step {S : Type} {vcs least : Nat} {body : S → Int → Nat → Nat → S} {s : S}
    {first : Int} (h : least ≤ count) (hcount : 0 < count) (hvcs : 0 < vcs) :
    batches vcs least body s first count =
      batches vcs least body (body s first (min vcs count) (count - min vcs count))
        (first + (min vcs count : Nat)) (count - min vcs count) := by
  have size : (if count > vcs then vcs else count) = min vcs count := by
    split <;> omega
  rw [batches, dif_neg (by omega)]
  simp only [size]

/-- `pointRun` goes on from entry `v`. -/
def pointRun : Nat → Machine → Nat → Machine
  | 0, m, _ => m
  | num + 1, m, v =>
    let m := if (m.verts v).flags &&& clipAll = 0 then renderPoint p m v else m
    pointRun num m (v + 1)

def drawPrimitivesPoints (m : Machine) (first : Int) (count : Nat) : Machine :=
  if count < 1 then m
  else
    batches 72 1 (fun m first num _ =>
      let m := compileElements p { m with cull := clipAll } 0 first num
      if m.cull = 0 then pointRun p num m 0 else m) m first count

theorem drawPrimitivesPoints_fit (some : 0 < count) (fit : count ≤ 72) (m : Machine) (first : Int) : drawPrimitivesPoints p m first count =
      let m := compileElements p { m with cull := clipAll } 0 first count
      if m.cull = 0 then pointRun p count m 0 else m := by
  rw [drawPrimitivesPoints, if_neg (by omega), batches_step some some (by decide),
    Nat.min_eq_right fit, Nat.sub_self, batches_stop (.inl Nat.one_pos)]

/-- Lines from `v0` to the `num` entries from `v` on, each to the next; and the last entry. -/
def lineRun : Nat → Machine → (v v0 : Nat) → Machine × Nat
  | 0, m, _, v0 => (m, v0)
  | num + 1, m, v, v0 =>
    let cc := (m.verts v0).flags &&& (m.verts v).flags
    let m := if cc &&& clipAll = 0 then renderLine p m v0 v else m
    lineRun num m (v + 1) v

/-- The loop body of `drawPrimitivesLineStrip`. -/
def lineBatch (m : Machine) (first : Int) (num _rest : Nat) : Machine :=
  let m := compileElements p m 1 first num
  let (m, v0) := if m.cull = 0 then lineRun p num m 1 0 else (m, 0)
  -- copy back the last processed vertex
  let last := m.verts v0
  { m.set 0 last with cull := last.flags &&& clipAll }

def drawPrimitivesLineStrip (m : Machine) (first : Int) (count : Nat) : Machine :=
  if count < 2 then m
  else
    let m := compileElement p { m with cull := clipAll } 0 first
    batches 71 1 (lineBatch p) m (first + 1) (count - 1)

def drawPrimitivesLineLoop (m : Machine) (first : Int) (count : Nat) : Machine :=
  if count < 2 then m
  else
    let m := drawPrimitivesLineStrip p m first count
    if count ≥ 3 then
      let m := compileElement p m 1 first
      let cc := (m.verts 0).flags &&& (m.verts 1).flags
      if cc &&& clipAll = 0 then renderLine p m 0 1 else m
    else m

/-- The inner loop of `drawPrimitivesLines`, on the `num` vertices from `v` on. -/
def linesRun : Nat → Machine → Nat → Machine
  | num + 2, m, v =>
    let cc := (m.verts v).flags &&& (m.verts (v + 1)).flags
    let m := if cc &&& clipAll = 0 then renderLine p m v (v + 1) else m
    linesRun num m (v + 2)
  | _, m, _ => m

def drawPrimitivesLines (m : Machine) (first : Int) (count : Nat) : Machine :=
  if count < 2 then m
  else
    batches 72 2 (fun m first num _ =>
      let m := compileElements p { m with cull := clipAll } 0 first num
      if m.cull = 0 then linesRun p num m 0 else m) m first count

/-- The inner loop of `drawPrimitivesTriangleFanOrStrip`, and `winding` after it. -/
def fanOrStripRun : Nat → Machine → (v v0 v1 winding : Nat) → Machine × Nat
  | 0, m, _, _, _, winding => (m, winding)
  | num + 1, m, v, v0, v1, winding =>
    let cc := (m.verts v0).flags &&& (m.verts v1).flags &&& (m.verts v).flags
    let m := if cc &&& clipAll = 0 then renderTriangle p m v0 v1 v else m
    let winding := winding ^^^ 1
    if winding ≠ 0 then fanOrStripRun num m (v + 1) v0 v winding
    else fanOrStripRun num m (v + 1) v v1 winding

/-- The loop body of `drawPrimitivesTriangleFanOrStrip`; the state carries `winding`. -/
def fanOrStripBatch (s : Machine × Nat) (first : Int) (num rest : Nat) : Machine × Nat :=
  let m := compileElements p s.1 2 first num
  let (m, winding) := if m.cull = 0 then fanOrStripRun p num m 2 0 1 s.2 else (m, s.2)
  if rest ≠ 0 then
    let v0 := m.verts 70
    let v1 := m.verts 71
    -- for strips copy back the two last compiled vertices
    let m := if winding &&& 2 = 0 then m.set 0 v0 else m
    ({ m.set 1 v1 with cull := v0.flags &&& v1.flags &&& clipAll }, winding)
  else (m, winding)

/-- `winding` is 2 for a fan and 1 for a strip. -/
def drawPrimitivesTriangleFanOrStrip (m : Machine) (first : Int) (count winding : Nat) : Machine :=
  if count < 3 then m
  else
    let m := compileElements p { m with cull := clipAll } 0 first 2
    (batches 70 1 (fanOrStripBatch p) (m, winding) (first + 2) (count - 2)).1

def drawPrimitivesTriangleStrip (m : Machine) (first : Int) (count : Nat) : Machine :=
  drawPrimitivesTriangleFanOrStrip p m first count 1

def drawPrimitivesTriangleFan (m : Machine) (first : Int) (count : Nat) : Machine :=
  drawPrimitivesTriangleFanOrStrip p m first count 2

/-- The inner loop of `drawPrimitivesTriangles`, on the `num` vertices from `v` on. -/
def trianglesRun : Nat → Machine → Nat → Machine
  | num + 3, m, v =>
    let cc := (m.verts v).flags &&& (m.verts (v + 1)).flags &&& (m.verts (v + 2)).flags
    let m := if cc &&& clipAll = 0 then renderTriangle p m v (v + 1) (v + 2) else m
    trianglesRun num m (v + 3)
  | _, m, _ => m

def drawPrimitivesTriangles (m : Machine) (first : Int) (count : Nat) : Machine :=
  if count < 3 then m
  else
    batches 72 3 (fun m first num _ =>
      let m := compileElements p { m with cull := clipAll } 0 first num
      if m.cull = 0 then trianglesRun p num m 0 else m) m first count

-- `read_index` delivers bytes or 16-bit words; an index list is the values it delivers.
abbrev Index := Fin 0x10000

def drawIndexedPrimitivesPoints : Machine → List Index → Machine
  | m, [] => m
  | m, i :: indices =>
    let (m, v) := fetchVertex p m i
    let m := if (m.verts v).flags &&& clipAll = 0 then renderPoint p m v else m
    drawIndexedPrimitivesPoints (unlock m v) indices

/-- The loop of `drawIndexedPrimitivesLineStrip`, from entry `v0`; and the last entry. -/
def indexedLineRun : Machine → Nat → List Index → Machine × Nat
  | m, v0, [] => (m, v0)
  | m, v0, i :: indices =>
    let (m, v1) := fetchVertex p m i
    let cc := (m.verts v0).flags &&& (m.verts v1).flags
    let m := if cc &&& clipAll = 0 then renderLine p m v0 v1 else m
    indexedLineRun (unlock m v0) v1 indices

def drawIndexedPrimitivesLineStrip (m : Machine) : List Index → Machine
  | i :: j :: indices =>
    let m := compileElement p m 0 (i : Nat)
    let (m, v1) := indexedLineRun p m 0 (j :: indices)
    unlock m v1
  | _ => m

def drawIndexedPrimitivesLines : Machine → List Index → Machine
  | m, i :: j :: indices =>
    let (m, v0) := fetchVertex p m i
    let (m, v1) := fetchVertex p m j
    let cc := (m.verts v0).flags &&& (m.verts v1).flags
    let m := if cc &&& clipAll = 0 then renderLine p m v0 v1 else m
    drawIndexedPrimitivesLines (unlock (unlock m v0) v1) indices
  | m, _ => m

def drawIndexedPrimitivesLineLoop (m : Machine) (indices : List Index) : Machine :=
  match indices with
  | i :: j :: k :: indices =>
    let m := compileElement p m 0 (i : Nat)
    let (m, v0) := indexedLineRun p m 0 (j :: k :: indices)
    let m := unlock m v0
    let cc := (m.verts v0).flags &&& (m.verts 0).flags
    if cc &&& clipAll = 0 then renderLine p m v0 0 else m
  | _ => drawIndexedPrimitivesLines p m indices

/-- The loop of `drawIndexedPrimitivesTriangleFanOrStrip`, and the entries `v0`, `v1` and `v2`
after it. -/
def indexedFanOrStripRun : Machine → (v0 v1 v2 winding : Nat) → List Index →
    Machine × Nat × Nat × Nat
  | m, v0, v1, v2, _, [] => (m, v0, v1, v2)
  | m, v0, v1, _, winding, i :: indices =>
    let (m, v2) := fetchVertex p m i
    let cc := (m.verts v0).flags &&& (m.verts v1).flags &&& (m.verts v2).flags
    let m := if cc &&& clipAll = 0 then renderTriangle p m v0 v1 v2 else m
    let winding := winding ^^^ 1
    -- the consumed entry is unlocked, and `v2` takes its place
    if winding ≠ 0 then indexedFanOrStripRun (unlock m v1) v0 v2 v2 winding indices
    else indexedFanOrStripRun (unlock m v0) v2 v1 v2 winding indices

/-- `winding` is 2 for a fan and 1 for a strip. -/
def drawIndexedPrimitivesTriangleFanOrStrip (m : Machine) (winding : Nat) :
    List Index → Machine
  | i :: j :: k :: indices =>
    let m := compileElement p m 0 (i : Nat)
    let m := compileElement p m 1 (j : Nat)
    let (m, v0, v1, v2) := indexedFanOrStripRun p m 0 1 0 winding (k :: indices)
    unlock (unlock (unlock m v1) v0) v2
  | _ => m

def drawIndexedPrimitivesTriangleStrip (m : Machine) (indices : List Index) : Machine :=
  drawIndexedPrimitivesTriangleFanOrStrip p m 1 indices

def drawIndexedPrimitivesTriangleFan (m : Machine) (indices : List Index) : Machine :=
  drawIndexedPrimitivesTriangleFanOrStrip p m 2 indices

def drawIndexedPrimitivesTriangles : Machine → List Index → Machine
  | m, i :: j :: k :: indices =>
    let (m, v0) := fetchVertex p m i
    let (m, v1) := fetchVertex p m j
    let (m, v2) := fetchVertex p m k
    let cc := (m.verts v0).flags &&& (m.verts v1).flags &&& (m.verts v2).flags
    let m := if cc &&& clipAll = 0 then renderTriangle p m v0 v1 v2 else m
    drawIndexedPrimitivesTriangles (unlock (unlock (unlock m v0) v1) v2) indices
  | m, _ => m

/-- The modes, in the order of `drawArraysPrims`. -/
inductive Mode where
  | points
  | lines
  | lineLoop
  | lineStrip
  | triangles
  | triangleStrip
  | triangleFan
deriving DecidableEq, Repr

def drawArraysPrims : Mode → Machine → Int → Nat → Machine
  | .points => drawPrimitivesPoints p
  | .lines => drawPrimitivesLines p
  | .lineLoop => drawPrimitivesLineLoop p
  | .lineStrip => drawPrimitivesLineStrip p
  | .triangles => drawPrimitivesTriangles p
  | .triangleStrip => drawPrimitivesTriangleStrip p
  | .triangleFan => drawPrimitivesTriangleFan p

def drawElementsPrims : Mode → Machine → List Index → Machine
  | .points => drawIndexedPrimitivesPoints p
  | .lines => drawIndexedPrimitivesLines p
  | .lineLoop => drawIndexedPrimitivesLineLoop p
  | .lineStrip => drawIndexedPrimitivesLineStrip p
  | .triangles => drawIndexedPrimitivesTriangles p
  | .triangleStrip => drawIndexedPrimitivesTriangleStrip p
  | .triangleFan => drawIndexedPrimitivesTriangleFan p

/-- `glDrawArrays` of an accepted mode, with the vertex array enabled. -/
def glDrawArrays (m : Machine) (mode : Mode) (first : Int) (count : Nat) : Machine :=
  let m := { m with draw := m.draw + 1 }
  if count = 0 || p.cullEnable && p.cullFace = GL.frontAndBack then m
  else drawArraysPrims p mode m first count

/-- `glDrawElements` of an accepted mode and type, with the vertex array enabled. -/
def glDrawElements (m : Machine) (mode : Mode) (indices : List Index) : Machine :=
  let m := { m with draw := m.draw + 1 }
  if indices.isEmpty || p.cullEnable && p.cullFace = GL.frontAndBack then m
  else drawElementsPrims p mode (clear m) indices

end RabbitRender.Arrays.Draw
