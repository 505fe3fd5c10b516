/- RabbitRender/Arrays/Compile
   layer: model
   source: swrender/array.cpp, swrender/vertex.cpp, swrender/matrix.cpp
   digest: The vertex buffer and the compilation of array elements into it. -/

import RabbitRender.Matrix.Transforms
import RabbitRender.Vertices

set_option autoImplicit false

namespace RabbitRender.Arrays.Compile

open RabbitRender.GL (GLenum)
open Fixed
open RabbitRender.Matrix.Transforms (Matrixx Transform Perspective choosePerspective)
open Vertices

inductive Components where
  | two
  | three
  | four
deriving DecidableEq, Repr

def Components.size : Components → Int
  | two => 2
  | three => 3
  | four => 4

/-- The state a draw call reads and never writes, after `validate_arrays`. The arrays give what
their fetchers write for an element; `perspective` is the pointer before the first vertex. -/
structure Pipeline where
  components : Components
  /-- how many components the fetcher of the vertex array writes -/
  fetched : Components := components
  vertex : Nat → Vec4
  mvp : Transform
  modelview : Transform
  projection2D : Bool
  perspective : Perspective
  viewport : Matrixx
  clipEnable : Nat → Bool
  clipPlane : Nat → Vec4
  depthTest : Bool
  smooth : Bool
  tmus : Bool
  fogging : Bool
  lighting : Bool
  textureEnable : Fin 2 → Bool
  fetchTexture : Fin 2 → Nat → Vec4 → Vec4
  texTransform : Fin 2 → Vec4 → Vec4
  fetchColor : Nat → Vec4 → Vec4
  lightColor : Vertex → Vec4
  fog : Int → Int
  cullEnable : Bool
  cullFace : GLenum
  frontFace : GLenum

/-- `point2`, `point3` or `point4` of a transform. -/
def point (t : Transform) (size : Components) (o : Vec4) : Vec4 :=
  let m := t.matrix
  match t.points, size with
  | .nop, .two => ⟨o.x, o.y, 0, 0x10000⟩
  | .nop, .three => ⟨o.x, o.y, o.z, 0x10000⟩
  | .nop, .four => o
  | _, .two =>
    ⟨mla2a o.x (m 0) o.y (m 4) (m 12), mla2a o.x (m 1) o.y (m 5) (m 13),
      mla2a o.x (m 2) o.y (m 6) (m 14), mla2a o.x (m 3) o.y (m 7) (m 15)⟩
  | _, .three =>
    ⟨mla3a o.x (m 0) o.y (m 4) o.z (m 8) (m 12), mla3a o.x (m 1) o.y (m 5) o.z (m 9) (m 13),
      mla3a o.x (m 2) o.y (m 6) o.z (m 10) (m 14), mla3a o.x (m 3) o.y (m 7) o.z (m 11) (m 15)⟩
  | _, .four =>
    ⟨mla4 o.x (m 0) o.y (m 4) o.z (m 8) o.w (m 12), mla4 o.x (m 1) o.y (m 5) o.z (m 9) o.w (m 13),
      mla4 o.x (m 2) o.y (m 6) o.z (m 10) o.w (m 14),
      mla4 o.x (m 3) o.y (m 7) o.z (m 11) o.w (m 15)⟩

namespace Pipeline

def divider (p : Pipeline) : Perspective :=
  match p.perspective with
  | .validate =>
    choosePerspective ((List.range 6).any p.clipEnable) p.depthTest p.fogging p.components.size
      p.projection2D
  | resolved => resolved

def depth (p : Pipeline) : Bool :=
  p.depthTest && (p.divider matches .perspective2D | .perspective3DZ | .clipAllPerspective3DZ)

def seen (p : Pipeline) (v : Vertex) : Shape := Vertices.seen p.depth v

@[simp] theorem outside_seen (p : Pipeline) (v : Vertex) : (p.seen v).outside = v.outside :=
  Vertices.outside_seen p.depth v

theorem outside_congr {p : Pipeline} {v w : Vertex} (h : p.seen v = p.seen w) :
    v.outside = w.outside := by
  rw [← p.outside_seen, h, p.outside_seen]

/-- `arrays.vertex.fetch`: the coordinates of the element, over what the vertex holds. -/
def fetch (p : Pipeline) (element : Nat) (v : Vec4) : Vec4 :=
  let e := p.vertex element
  match p.fetched with
  | .two => { v with x := e.x, y := e.y }
  | .three => { v with x := e.x, y := e.y, z := e.z }
  | .four => e

/-- `perspective`: the division by `w`, with a window depth if `depth`. -/
def project (p : Pipeline) (depth : Bool) (v : Vertex) : Vertex :=
  let rw := gglRecip28 v.clip.w
  let m := p.viewport
  let x := triFromFixed (gglMulAddx (gglMulx v.clip.x rw 16) (m 0) (m 12) 28)
  let y := triFromFixed (gglMulAddx (gglMulx v.clip.y rw 16) (m 5) (m 13) 28)
  let z := if depth then gglMulAddx (gglMulx v.clip.z rw 16) (m 10) (m 14) 28 else v.window.z
  { v with window := ⟨x, y, z, rw⟩ }

/-- The view volume and the division; the mask is what `arrays.cull` is and-ed with. -/
def clipFrustumPerspective (p : Pipeline) (depth : Bool) (v : Vertex) : Flags × Vertex :=
  let clip := v.flags &&& clipAll ||| v.clip.frustumClip
  let v := { v with flags := v.flags ||| clip }
  -- a clipped vertex is not divided: its window coordinates stay what they were
  (clip, if clip = 0 then p.project depth v else v)

def userClip (p : Pipeline) (e : Vec4) : Flags :=
  [5, 4, 3, 2, 1, 0].foldl (fun clip i =>
    if p.clipEnable i && dot4 (p.clipPlane i) e < 0 then clip ||| 0x100 <<< i else clip) 0

def clipAllPerspective (p : Pipeline) (depth : Bool) (v : Vertex) : Flags × Vertex :=
  let e := point p.modelview p.components v.obj
  let v := { v with obj := e, flags := v.flags ||| eye }
  p.clipFrustumPerspective depth { v with flags := v.flags ||| p.userClip e }

/-- `ogles_vertex_perspective2D`; it clears `arrays.cull`. -/
def perspective2D (v : Vertex) : Flags × Vertex :=
  let window := ⟨triFromFixed v.clip.x, triFromFixed v.clip.y, v.clip.z, v.clip.w <<< (12 : Nat)⟩
  (0, { v with window := window })

/-- `arrays.perspective`. -/
def divide (p : Pipeline) (v : Vertex) : Flags × Vertex :=
  match p.divider with
  | .perspective2D => perspective2D v
  | .perspective3D => p.clipFrustumPerspective false v
  | .perspective3DZ => p.clipFrustumPerspective true v
  | .clipAllPerspective3D => p.clipAllPerspective false v
  | .clipAllPerspective3DZ => p.clipAllPerspective true v
  | .validate => (0, v)

/-- The body of `compileElement` and of the loop of `compileElements`. -/
def compileVertex (p : Pipeline) (v : Vertex) (element : Nat) (index : Int) (draw : Nat) :
    Flags × Vertex :=
  let obj := p.fetch element { v.obj with z := 0, w := 0x10000 }
  let clip := point p.mvp p.components obj
  p.divide { v with flags := 0, index := index, obj := obj, clip := clip, source := ⟨draw, element⟩ }

def compiled (p : Pipeline) (element : Nat) (index : Int) : Vertex :=
  (p.compileVertex Vertex.zero element index 0).2

theorem divider_ne_validate (p : Pipeline) : p.divider ≠ .validate := by
  unfold divider choosePerspective
  split
  · split_ifs <;> simp
  · assumption

theorem clipFrustumPerspective_outside (p : Pipeline) (depth : Bool) (v : Vertex) :
    (p.clipFrustumPerspective depth v).1 = v.outside ||| v.clip.frustumClip ∧
      (p.clipFrustumPerspective depth v).2.outside = v.outside ||| v.clip.frustumClip := by
  have mask : (v.flags ||| (v.flags &&& clipAll ||| v.clip.frustumClip)) &&& clipAll =
      v.flags &&& clipAll ||| v.clip.frustumClip := by
    rw [← v.clip.frustumClip_and]
    ext i
    simp only [BitVec.getElem_and, BitVec.getElem_or]
    cases v.flags[i] <;> cases clipAll[i] <;> simp
  simp only [clipFrustumPerspective]
  split_ifs <;> exact ⟨rfl, mask⟩

theorem clipFrustumPerspective_spec (p : Pipeline) (depth : Bool) (v : Vertex) :
    let r := (p.clipFrustumPerspective depth v).2
    r.obj = v.obj ∧ r.clip = v.clip ∧ r.index = v.index ∧ r.locked = v.locked ∧
      r.source = v.source ∧ r.flags = v.flags ||| (v.outside ||| v.clip.frustumClip) ∧
      (r.outside = 0 → r.window = (p.project depth v).window) := by
  have planes := (p.clipFrustumPerspective_outside depth v).2
  simp only [clipFrustumPerspective] at planes ⊢
  split_ifs at planes ⊢ with inside
  · simp [Vertex.outside, project]
  · refine ⟨rfl, rfl, rfl, rfl, rfl, rfl, ?_⟩
    rw [planes]
    exact fun h => absurd h inside

private theorem clipFrustumPerspective_seen (p : Pipeline) (depth : Bool) {v w : Vertex}
    (hdepth : p.depth = true → depth = true) (obj : v.obj = w.obj) (clip : v.clip = w.clip)
    (index : v.index = w.index) (flags : v.flags = w.flags) :
    p.seen (p.clipFrustumPerspective depth v).2 = p.seen (p.clipFrustumPerspective depth w).2 := by
  obtain ⟨vobj, vclip, vindex, -, -, vflags, vwindow⟩ := p.clipFrustumPerspective_spec depth v
  obtain ⟨wobj, wclip, windex, -, -, wflags, wwindow⟩ := p.clipFrustumPerspective_spec depth w
  have same : (p.clipFrustumPerspective depth v).2.flags =
      (p.clipFrustumPerspective depth w).2.flags := by
    rw [vflags, wflags, Vertex.outside, Vertex.outside, flags, clip]
  apply seen_eq_iff.mpr
  refine ⟨by rw [vobj, wobj, obj], by rw [vclip, wclip, clip], by rw [same],
    by rw [vindex, windex, index], ?_⟩
  intro inside
  have inside' : (p.clipFrustumPerspective depth w).2.outside = 0 := by
    rw [Vertex.outside, ← same]
    exact inside
  rw [vwindow inside, wwindow inside']
  simp only [project, clip, true_and]
  intro hd
  simp [hdepth hd]

theorem divide_spec (p : Pipeline) (v : Vertex) (flags : v.flags = 0) :
    let r := p.divide v
    r.1 = r.2.outside ∧ r.2.clip = v.clip ∧ r.2.index = v.index ∧ r.2.locked = v.locked ∧
      r.2.source = v.source := by
  have frustum (depth : Bool) (w : Vertex) :
      let r := p.clipFrustumPerspective depth w
      r.1 = r.2.outside ∧ r.2.clip = w.clip ∧ r.2.index = w.index ∧ r.2.locked = w.locked ∧
        r.2.source = w.source := by
    obtain ⟨mask, planes⟩ := p.clipFrustumPerspective_outside depth w
    obtain ⟨-, clip, index, locked, source, -⟩ := p.clipFrustumPerspective_spec depth w
    exact ⟨mask.trans planes.symm, clip, index, locked, source⟩
  unfold divide
  split
  · simp [perspective2D, Vertex.outside, flags]
  · exact frustum false v
  · exact frustum true v
  · exact frustum false _
  · exact frustum true _
  · simp [Vertex.outside, flags]

private theorem divide_seen (p : Pipeline) {v w : Vertex} (obj : v.obj = w.obj)
    (clip : v.clip = w.clip) (index : v.index = w.index) (flags : v.flags = w.flags) :
    p.seen (p.divide v).2 = p.seen (p.divide w).2 := by
  cases hdivider : p.divider with
  | validate => exact absurd hdivider p.divider_ne_validate
  | perspective2D =>
    simp only [divide, hdivider, perspective2D]
    apply seen_eq_iff.mpr
    simp [obj, clip, index, flags]
  | perspective3D =>
    simp only [divide, hdivider]
    apply clipFrustumPerspective_seen p _ _ obj clip index flags
    simp [depth, hdivider]
  | perspective3DZ =>
    simp only [divide, hdivider]
    exact clipFrustumPerspective_seen p _ (fun _ => rfl) obj clip index flags
  | clipAllPerspective3D =>
    simp only [divide, hdivider, clipAllPerspective]
    apply clipFrustumPerspective_seen <;> simp [depth, hdivider, obj, clip, index, flags]
  | clipAllPerspective3DZ =>
    simp only [divide, hdivider, clipAllPerspective]
    apply clipFrustumPerspective_seen <;> simp [obj, clip, index, flags]

private theorem fetch_eq (p : Pipeline) (element : Nat) (v w : Vec4) :
    p.fetch element { v with z := 0, w := 0x10000 } =
      p.fetch element { w with z := 0, w := 0x10000 } := by
  unfold fetch
  cases p.fetched <;> rfl

section Compiled

variable (p : Pipeline) (v : Vertex) (element : Nat) (index : Int) (draw : Nat)

@[simp] theorem compileVertex_index : (p.compileVertex v element index draw).2.index = index :=
  (p.divide_spec _ rfl).2.2.1

@[simp] theorem compileVertex_locked :
    (p.compileVertex v element index draw).2.locked = v.locked :=
  (p.divide_spec _ rfl).2.2.2.1

@[simp] theorem compileVertex_source :
    (p.compileVertex v element index draw).2.source = ⟨draw, element⟩ :=
  (p.divide_spec _ rfl).2.2.2.2

theorem compileVertex_mask :
    (p.compileVertex v element index draw).1 = (p.compileVertex v element index draw).2.outside :=
  (p.divide_spec _ rfl).1

theorem seen_compileVertex :
    p.seen (p.compileVertex v element index draw).2 = p.seen (p.compiled element index) := by
  unfold compiled compileVertex
  apply divide_seen
  · exact p.fetch_eq element v.obj Vertex.zero.obj
  · show point p.mvp p.components _ = point p.mvp p.components _
    rw [p.fetch_eq element v.obj Vertex.zero.obj]
  · rfl
  · rfl

theorem outside_compileVertex :
    (p.compileVertex v element index draw).2.outside = (p.compiled element index).outside :=
  outside_congr (p.seen_compileVertex v element index draw)

def objectPosition : Vec4 := p.fetch element ⟨0, 0, 0, 0x10000⟩

def eyePosition : Vec4 := point p.modelview p.components (p.objectPosition element)

/-- The perspective function writes eye coordinates over the object coordinates. -/
def computesEye : Bool := p.divider matches .clipAllPerspective3D | .clipAllPerspective3DZ

theorem compileVertex_obj : (p.compileVertex v element index draw).2.obj =
    if p.computesEye then p.eyePosition element else p.objectPosition element := by
  have object : p.fetch element { v.obj with z := 0, w := 0x10000 } = p.objectPosition element :=
    p.fetch_eq element v.obj ⟨0, 0, 0, 0⟩
  have frustum (depth : Bool) (w : Vertex) : (p.clipFrustumPerspective depth w).2.obj = w.obj :=
    (p.clipFrustumPerspective_spec depth w).1
  unfold compileVertex computesEye eyePosition
  rw [object]
  cases hdivider : p.divider with
  | validate => exact absurd hdivider p.divider_ne_validate
  | perspective2D => simp only [divide, hdivider, perspective2D, Bool.false_eq_true, if_false]
  | perspective3D | perspective3DZ =>
    simp only [divide, hdivider, frustum, Bool.false_eq_true, if_false]
  | clipAllPerspective3D | clipAllPerspective3DZ =>
    simp only [divide, hdivider, clipAllPerspective, frustum, if_true]

private theorem user_lit : ∀ a b c d e f : Bool,
    [(a, 5), (b, 4), (c, 3), (d, 2), (e, 1), (f, 0)].foldl
      (fun clip plane => if plane.1 then clip ||| 0x100 <<< plane.2 else clip) (0 : Flags) &&&
        lit = 0 := by
  decide

private theorem userClip_lit (e : Vec4) : p.userClip e &&& lit = 0 :=
  user_lit (p.clipEnable 5 && dot4 (p.clipPlane 5) e < 0)
    (p.clipEnable 4 && dot4 (p.clipPlane 4) e < 0) (p.clipEnable 3 && dot4 (p.clipPlane 3) e < 0)
    (p.clipEnable 2 && dot4 (p.clipPlane 2) e < 0) (p.clipEnable 1 && dot4 (p.clipPlane 1) e < 0)
    (p.clipEnable 0 && dot4 (p.clipPlane 0) e < 0)

private theorem or_and_lit {f g : Flags} (hf : f &&& lit = 0) (hg : g &&& lit = 0) :
    (f ||| g) &&& lit = 0 := by
  rw [BitVec.and_comm, BitVec.and_or_distrib_left, BitVec.and_comm lit, BitVec.and_comm lit, hf, hg]
  rfl

theorem compileVertex_lit : (p.compileVertex v element index draw).2.flags &&& lit = 0 := by
  have planes (f : Flags) : f &&& clipAll &&& lit = 0 := by
    rw [BitVec.and_assoc, show clipAll &&& lit = 0 by decide]
    exact BitVec.and_zero
  have frustum (depth : Bool) (w : Vertex) (dark : w.flags &&& lit = 0) :
      (p.clipFrustumPerspective depth w).2.flags &&& lit = 0 := by
    rw [(p.clipFrustumPerspective_spec depth w).2.2.2.2.2.1, Vertex.outside]
    refine or_and_lit dark (or_and_lit (planes _) ?_)
    rw [← w.clip.frustumClip_and]
    exact planes _
  have user (f : Flags) (e : Vec4) (dark : f &&& lit = 0) : (f ||| eye ||| p.userClip e) &&& lit = 0 :=
    or_and_lit (or_and_lit dark (by decide)) (p.userClip_lit e)
  unfold compileVertex
  cases hdivider : p.divider with
  | validate => exact absurd hdivider p.divider_ne_validate
  | perspective2D =>
    simp only [divide, hdivider, perspective2D]
    decide
  | perspective3D | perspective3DZ =>
    simp only [divide, hdivider]
    exact frustum _ _ BitVec.zero_and
  | clipAllPerspective3D | clipAllPerspective3DZ =>
    simp only [divide, hdivider, clipAllPerspective]
    exact frustum _ _ (user _ _ BitVec.zero_and)

end Compiled

@[simp] theorem compiled_index (p : Pipeline) (element : Nat) (index : Int) :
    (p.compiled element index).index = index := p.compileVertex_index _ _ _ _

end Pipeline

/-- White vertices of three coordinates, without lights, textures, fog or user planes. -/
def Pipeline.plain (projection2D : Bool) (mvp : Matrixx) (vertex : Nat → Vec4) : Pipeline :=
  { components := .three, vertex := vertex, mvp := ⟨mvp, projection2D, .generic⟩,
    modelview := .identity, projection2D := projection2D, perspective := .validate,
    viewport := Matrix.Transforms.gIdentityx, clipEnable := fun _ => false,
    clipPlane := fun _ => ⟨0, 0, 0, 0⟩, depthTest := false, smooth := false, tmus := false,
    fogging := false, lighting := false, textureEnable := fun _ => false,
    fetchTexture := fun _ _ v => v, texTransform := fun _ v => v,
    fetchColor := fun _ _ => ⟨0x10000, 0x10000, 0x10000, 0x10000⟩, lightColor := Vertex.color,
    fog := id, cullEnable := false, cullFace := GL.back, frontFace := GL.ccw }

def Pipeline.flat (vertex : Nat → Vec4) : Pipeline :=
  .plain true Matrix.Transforms.gIdentityx vertex

/-- `glFrustumx(-1, 1, -1, 1, 1, 3)` over an identity modelview matrix, in fixed point. -/
def frustumMatrix : Matrixx :=
  ![0x10000, 0, 0, 0, 0, 0x10000, 0, 0, 0, 0, -0x20000, -0x10000, 0, 0, -0x30000, 0]

def Pipeline.frustum (vertex : Nat → Vec4) : Pipeline := .plain false frustumMatrix vertex

private theorem Pipeline.flat_divider (vertex : Nat → Vec4) :
    (flat vertex).divider = .perspective2D := by
  simp [flat, plain, divider, choosePerspective, Components.size]

theorem Pipeline.flat_outside (vertex : Nat → Vec4) (element : Nat) (index : Int) :
    ((flat vertex).compiled element index).outside = 0 := by
  simp only [compiled, compileVertex, divide, flat_divider, perspective2D, Vertex.outside]
  rfl

theorem Pipeline.flat_clip (vertex : Nat → Vec4) (element : Nat) (index : Int) :
    ((flat vertex).compiled element index).clip =
      point (flat vertex).mvp .three { vertex element with w := 0x10000 } := by
  simp only [compiled, compileVertex, divide, flat_divider, perspective2D]
  rfl

/-- A call of `renderPoint`, `renderLine` or `renderTriangle`, with the vertices at that time. -/
inductive Call where
  | point (v : Vertex)
  | line (v0 v1 : Vertex)
  | triangle (v0 v1 v2 : Vertex)

/-- A cache hit: the tag looked for, the contents of the entry and the draw call. -/
structure Hit where
  index : Nat
  source : Source
  draw : Nat
deriving DecidableEq, Repr

/-- The vertex cache with `arrays.cull`, and what the draw calls did so far: the calls of the
renderers, the lines given to `linex`, and the cache hits. `verts` is the buffer, entries 0 to 7,
and the cache, entries 8 to 71; `draw` counts the draw calls. -/
structure Machine where
  verts : Nat → Vertex
  sequence : Nat
  cull : Flags
  calls : List Call
  lines : List (Vertex × Vertex)
  hits : List Hit
  draw : Nat

namespace Machine

/-- After `vertex_cache_t::init`. -/
def init : Machine := ⟨fun _ => .zero, 0, 0, [], [], [], 0⟩

def set (m : Machine) (slot : Nat) (v : Vertex) : Machine :=
  { m with verts := Function.update m.verts slot v }

section Set

variable (m : Machine) (slot : Nat) (v : Vertex)

@[simp] theorem set_same : (m.set slot v).verts slot = v := by
  simp only [set, Function.update_self]

@[simp] theorem set_other {i : Nat} (h : i ≠ slot) : (m.set slot v).verts i = m.verts i := by
  simp only [set, Function.update_of_ne h]

theorem set_verts (i : Nat) : (m.set slot v).verts i = if i = slot then v else m.verts i := by
  by_cases h : i = slot
  · subst h
    simp
  · simp [h]

@[simp] theorem set_sequence : (m.set slot v).sequence = m.sequence := rfl
@[simp] theorem set_cull : (m.set slot v).cull = m.cull := rfl
@[simp] theorem set_calls : (m.set slot v).calls = m.calls := rfl
@[simp] theorem set_lines : (m.set slot v).lines = m.lines := rfl
@[simp] theorem set_hits : (m.set slot v).hits = m.hits := rfl
@[simp] theorem set_draw : (m.set slot v).draw = m.draw := rfl

end Set

end Machine

variable (p : Pipeline)

/-- `first & INDEX_MASK`. -/
def elementOf (first : Int) : Nat := (first % 0x10000).toNat

def compileAt (m : Machine) (slot element : Nat) (index : Int) : Machine :=
  let (mask, v) := p.compileVertex (m.verts slot) element index m.draw
  { m.set slot v with cull := m.cull &&& mask }

def compileElement (m : Machine) (slot : Nat) (first : Int) : Machine :=
  compileAt p m slot (elementOf first) first

/-- The loop of `compileElements`. -/
def compileRun : Nat → Machine → (slot element : Nat) → (index : Int) → Machine
  | 0, m, _, _, _ => m
  | n + 1, m, slot, element, index =>
    compileRun n (compileAt p m slot element index) (slot + 1) (element + 1) (index + 1)

def compileElements (m : Machine) (slot : Nat) (first : Int) (count : Nat) : Machine :=
  compileRun p count m slot (elementOf first) first

section CompileAt

variable (m : Machine) (slot element : Nat) (index : Int)

@[simp] theorem compileAt_calls : (compileAt p m slot element index).calls = m.calls := rfl
@[simp] theorem compileAt_lines : (compileAt p m slot element index).lines = m.lines := rfl
@[simp] theorem compileAt_hits : (compileAt p m slot element index).hits = m.hits := rfl
@[simp] theorem compileAt_draw : (compileAt p m slot element index).draw = m.draw := rfl
@[simp] theorem compileAt_sequence :
    (compileAt p m slot element index).sequence = m.sequence := rfl

@[simp] theorem compileAt_same : (compileAt p m slot element index).verts slot =
    (p.compileVertex (m.verts slot) element index m.draw).2 :=
  m.set_same slot _

@[simp] theorem compileAt_other {i : Nat} (h : i ≠ slot) :
    (compileAt p m slot element index).verts i = m.verts i :=
  m.set_other slot _ h

theorem compileAt_cull : (compileAt p m slot element index).cull =
    m.cull &&& (p.compiled element index).outside := by
  show m.cull &&& (p.compileVertex (m.verts slot) element index m.draw).1 = _
  rw [p.compileVertex_mask, p.outside_compileVertex]

end CompileAt

/-- The mask `c` and-ed with the first `n` of `planes`. -/
def cullMask (c : Flags) (planes : Nat → Flags) : Nat → Flags
  | 0 => c
  | n + 1 => cullMask c planes n &&& planes n

theorem cullMask_succ (c : Flags) (planes : Nat → Flags) (n : Nat) :
    cullMask c planes (n + 1) = cullMask (c &&& planes 0) (fun j => planes (j + 1)) n := by
  induction n with
  | zero => rfl
  | succ n ih =>
    rw [cullMask, ih]
    rfl

theorem cullMask_congr {c : Flags} {f g : Nat → Flags} {n : Nat} (h : ∀ j < n, f j = g j) :
    cullMask c f n = cullMask c g n := by
  induction n with
  | zero => rfl
  | succ n ih => rw [cullMask, cullMask, ih fun j hj => h j (by omega), h n (by omega)]

theorem cullMask_and (c : Flags) (planes : Nat → Flags) (n : Nat) :
    cullMask c planes n &&& c = cullMask c planes n ∧
      ∀ j < n, cullMask c planes n &&& planes j = cullMask c planes n := by
  induction n with
  | zero => exact ⟨BitVec.and_self, by simp⟩
  | succ n ih =>
    rw [cullMask]
    refine ⟨?_, ?_⟩
    · rw [BitVec.and_assoc, BitVec.and_comm (planes n), ← BitVec.and_assoc, ih.1]
    · intro j hj
      rcases Nat.lt_succ_iff_lt_or_eq.mp hj with h | h
      · rw [BitVec.and_assoc, BitVec.and_comm (planes n), ← BitVec.and_assoc, ih.2 j h]
      · rw [h, BitVec.and_assoc, BitVec.and_self]

theorem compileRun_spec (n : Nat) (m : Machine) (slot element : Nat) (index : Int) :
    let r := compileRun p n m slot element index
    (∀ i, i < slot ∨ slot + n ≤ i → r.verts i = m.verts i) ∧
      (∀ j < n, r.verts (slot + j) =
        (p.compileVertex (m.verts (slot + j)) (element + j) (index + j) m.draw).2) ∧
      r.cull = cullMask m.cull (fun j => (p.compiled (element + j) (index + j)).outside) n ∧
      r.calls = m.calls ∧ r.lines = m.lines ∧ r.hits = m.hits ∧ r.draw = m.draw ∧
      r.sequence = m.sequence := by
  induction n generalizing m slot element index with
  | zero => simp [compileRun, cullMask]
  | succ n ih =>
    obtain ⟨outer, inner, cull, calls, lines, hits, draw, sequence⟩ :=
      ih (compileAt p m slot element index) (slot + 1) (element + 1) (index + 1)
    refine ⟨?_, ?_, ?_, calls, lines, hits, draw, sequence⟩
    · intro i hi
      rw [compileRun, outer i (by omega), compileAt_other]
      omega
    · intro j hj
      cases j with
      | zero =>
        rw [compileRun, outer _ (by omega)]
        simp
      | succ j =>
        have here := inner j (by omega)
        rw [compileAt_other _ _ _ _ _ (by omega)] at here
        rw [compileRun, show slot + (j + 1) = slot + 1 + j by omega, here,
          show element + (j + 1) = element + 1 + j by omega,
          show index + ((j + 1 : Nat) : Int) = index + 1 + j by omega]
        rfl
    · rw [compileRun, cull, cullMask_succ, compileAt_cull]
      simp only [Int.natCast_zero, Int.add_zero, Nat.add_zero]
      apply cullMask_congr
      intro j _
      rw [show element + (j + 1) = element + 1 + j by omega,
        show index + ((j + 1 : Nat) : Int) = index + 1 + j by omega]

/-- The vertex `compileElements` leaves `j` entries after the first one. -/
def arrayVertex (first : Int) (j : Nat) : Vertex := p.compiled (elementOf first + j) (first + j)

@[simp] theorem arrayVertex_index (first : Int) (j : Nat) :
    (arrayVertex p first j).index = first + j :=
  p.compiled_index _ _

section CompileElements

variable (m : Machine) (slot : Nat) (first : Int) (count : Nat)

theorem compileElements_other {i : Nat} (h : i < slot ∨ slot + count ≤ i) :
    (compileElements p m slot first count).verts i = m.verts i :=
  (compileRun_spec p count m slot (elementOf first) first).1 i h

theorem seen_compileElements {j : Nat} (h : j < count) :
    p.seen ((compileElements p m slot first count).verts (slot + j)) =
      p.seen (arrayVertex p first j) := by
  rw [compileElements, (compileRun_spec p count m slot (elementOf first) first).2.1 j h,
    p.seen_compileVertex, arrayVertex]

theorem compileElements_cull : (compileElements p m slot first count).cull =
    cullMask m.cull (fun j => (arrayVertex p first j).outside) count :=
  (compileRun_spec p count m slot (elementOf first) first).2.2.1

theorem compileElements_calls : (compileElements p m slot first count).calls = m.calls :=
  (compileRun_spec p count m slot (elementOf first) first).2.2.2.1

theorem compileElements_lines : (compileElements p m slot first count).lines = m.lines :=
  (compileRun_spec p count m slot (elementOf first) first).2.2.2.2.1

end CompileElements

theorem seen_compileElement (m : Machine) (slot : Nat) (first : Int) :
    p.seen ((compileElement p m slot first).verts slot) = p.seen (arrayVertex p first 0) := by
  rw [compileElement, compileAt_same, p.seen_compileVertex]
  simp [arrayVertex]

end RabbitRender.Arrays.Compile
