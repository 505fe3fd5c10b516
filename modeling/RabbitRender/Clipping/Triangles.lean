/- RabbitRender/Clipping/Triangles
   layer: model
   source: swrender/primitives.cpp
   digest: `clip_triangle` on its own buffers, for any distances and any new vertices. -/

import RabbitRender.Arrays.Colors

set_option autoImplicit false

namespace RabbitRender.Clipping.Triangles

open Fixed (clipDivide)
open Vertices
open Arrays.Compile (Pipeline)
open Primitives

/-- `MAX_CLIPPING_PLANES`: the view volume and `OGLES_MAX_CLIP_PLANES`. -/
def maxClippingPlanes : Nat := 6 + 6

def maxVertices : Nat := 3

/-- The size of `buffer`. -/
def bufferSize : Nat := maxClippingPlanes * 2 + 1

def outSize : Nat := maxClippingPlanes + maxVertices + 2

/-- What a `vertex_t*` of the function points to: one of the vertices it is given, or one of
`buffer`. -/
inductive Pointer where
  | corner (i : Fin 3)
  | buffer (i : Nat)
deriving DecidableEq, Repr

/-- The local arrays, and the indices written so far; `used` is `buf - buffer`. -/
structure Memory where
  corners : Fin 3 → Vertex
  buffer : Nat → Vertex
  out : Bool → Nat → Pointer
  used : Nat
  bufferWrites : List Nat
  listWrites : List Nat

namespace Memory

variable (m : Memory)

def deref : Pointer → Vertex
  | .corner i => m.corners i
  | .buffer i => m.buffer i

/-- `*output++ = v`, on entry `oc` of list `ovl`. -/
def push (ovl : Bool) (oc : Nat) (v : Pointer) : Memory :=
  { m with
    out := Function.update m.out ovl (Function.update (m.out ovl) oc v)
    listWrites := m.listWrites ++ [oc] }

/-- The new vertex `v` in the next entry of `buffer`, and `*output++ = buf++`. -/
def pushNew (ovl : Bool) (oc : Nat) (v : Vertex) : Memory :=
  { m with
    buffer := Function.update m.buffer m.used v
    used := m.used + 1
    bufferWrites := m.bufferWrites ++ [m.used] }.push ovl oc (.buffer m.used)

end Memory

/-- The polygon between two planes: `ivl`, which is `in` at first, `ic` and `outi`. -/
structure Polygon where
  memory : Memory
  ivl : Option Bool
  ic : Nat
  outi : Bool

/-- `ivl[i]` -/
def entry (m : Memory) (ivl : Option Bool) (i : Nat) : Pointer :=
  match ivl with
  | none => .corner (Fin.ofNat 3 i)
  | some list => m.out list i

/-- The locals of the loop over the vertices: `s` is the previous vertex, `sd` its distance. -/
structure Loop where
  memory : Memory
  oc : Nat
  sentinel : Nat
  s : Pointer
  sd : Int

section Function

variable (dist : Plane → Vertex → Int) (make : Plane → Vertex → Int → Vertex → Vertex → Vertex)
variable (plane : Plane)

/-- The new vertex between `inner` and `outer`, made from what its entry holds. -/
def crossing (m : Memory) (t : Int) (outer inner : Pointer) : Vertex :=
  make plane (m.buffer m.used) t (m.deref outer) (m.deref inner)

/-- One turn of the loop over the vertices; an error is a return of the function. -/
def turn (ovl : Bool) (l : Loop) (q : Pointer) : Except Memory Loop :=
  let m := l.memory
  let pd := dist plane (m.deref q)
  if l.sd ≥ 0 then
    if pd ≥ 0 then
      -- both inside
      .ok ⟨m.push ovl l.oc q, l.oc + 1, l.sentinel, q, pd⟩
    else
      -- s inside, q outside (exiting)
      let t := clipDivide l.sd (l.sd - pd)
      let m := m.pushNew ovl l.oc (crossing make plane m t q l.s)
      if l.sentinel + 1 ≥ 3 then .error m
      else .ok ⟨m, l.oc + 1, l.sentinel + 1, q, pd⟩
  else if pd ≥ 0 then
    -- s outside (entering)
    if pd ≠ 0 then
      let t := clipDivide pd (pd - l.sd)
      let m := m.pushNew ovl l.oc (crossing make plane m t l.s q)
      if l.sentinel + 1 ≥ 3 then .error m
      else .ok ⟨m.push ovl (l.oc + 1) q, l.oc + 1 + 1, l.sentinel + 1, q, pd⟩
    else .ok ⟨m.push ovl l.oc q, l.oc + 1, l.sentinel, q, pd⟩
  else .ok ⟨m, l.oc, l.sentinel, q, pd⟩

/-- The loop over the vertices, from vertex `i` on. -/
def turns (ivl : Option Bool) (ovl : Bool) : (n i : Nat) → Loop → Except Memory Loop
  | 0, _, l => .ok l
  | n + 1, i, l =>
    match turn dist make plane ovl l (entry l.memory ivl i) with
    | .error m => .error m
    | .ok l => turns ivl ovl n (i + 1) l

def started (g : Polygon) : Loop :=
  let s := entry g.memory g.ivl (g.ic - 1)
  ⟨g.memory, 0, 0, s, dist plane (g.memory.deref s)⟩

/-- The polygon against one plane. The output list becomes the new input list. -/
def clipPlane (g : Polygon) : Except Memory Polygon :=
  match turns dist make plane g.ivl g.outi g.ic 0 (started dist plane g) with
  | .error m => .error m
  | .ok l => if l.oc < 3 then .error l.memory else .ok ⟨l.memory, some g.outi, l.oc, !g.outi⟩

/-- The loops over the planes: the lengths of the lists after each of them, and the polygon that
is left. -/
def clipPlanes : List Plane → Polygon → List Nat × Except Memory Polygon
  | [], g => ([], .ok g)
  | plane :: planes, g =>
    match clipPlane dist make plane g with
    | .error m => ([], .error m)
    | .ok g =>
      let r := clipPlanes planes g
      (g.ic :: r.1, r.2)

end Function

/-- The planes that one of the vertices is outside of: the loops shift `cc` bit by bit. -/
def planesOf (v0 v1 v2 : Vertex) : List Plane :=
  allPlanes.filter fun plane => (v0.flags ||| v1.flags ||| v2.flags) &&& clipAll &&& plane.bit ≠ 0

/-- The local arrays at entry: `buffer` and the lists hold anything. -/
def entered (buffer : Nat → Vertex) (out : Bool → Nat → Pointer) (v0 v1 v2 : Vertex) : Polygon :=
  ⟨⟨![v0, v1, v2], buffer, out, 0, [], []⟩, none, 3, false⟩

/-- The arrays when `clip_triangle` is done with the planes, or returned before. -/
def memoryOf : Except Memory Polygon → Memory
  | .error m => m
  | .ok g => g.memory

/-- The first `n` vertices of a list. -/
def contents (m : Memory) (ivl : Option Bool) (n : Nat) : List Vertex :=
  (List.range n).map fun i => m.deref (entry m ivl i)

def triangles (p : Pipeline) : Except Memory Polygon → List (Vertex × Vertex × Vertex)
  | .error _ => []
  | .ok g =>
    match contents g.memory g.ivl g.ic with
    | p0 :: p1 :: rest => Arrays.Colors.fan p p0 p1 rest
    | _ => []

end RabbitRender.Clipping.Triangles
