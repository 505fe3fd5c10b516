/- RabbitRender/Arrays/ElementFetch
   layer: result
   source: swrender/array.cpp
   digest: Both compilers make one vertex of an element, from the bytes of its components. -/

import RabbitRender.Arrays.VertexArrays

set_option autoImplicit false

namespace RabbitRender.Arrays.ElementFetch

open Arrays.Compile (Components Pipeline elementOf point)
open Arrays.VertexArrays
open Fixed (wrap32_natCast_le)
open Lib.ByteMemory (Memory)
open Vertices

section Pipelines

variable (gglFloatToFixed : Nat → Int) (memory : Memory) (a : VertexArray) (p : Pipeline)

private theorem fetch_pipeline (element : Nat) (v : Vec4) :
    (pipeline gglFloatToFixed memory a p).fetch element v =
      (vertexFct a.size a.type).fetch gglFloatToFixed memory v (a.element element) := by
  unfold Pipeline.fetch pipeline Fetcher.fetch
  cases (vertexFct a.size a.type).size <;> rfl

theorem compileAt_eq (ready : a.Ready) (draw : Nat) (v : Vertex) (element : Nat) (index : Int) :
    let r := compileAt gglFloatToFixed memory a p draw v (a.element element) element index
    let s := (pipeline gglFloatToFixed memory a p).compileVertex v element index draw
    r.mask = s.1 ∧ r.vertex = s.2 := by
  simp only [compileAt, Pipeline.compileVertex, fetch_pipeline, fetchVertex, if_pos ready, and_self]

theorem compileRun_get (draw : Nat) {slots : List Vertex} {j : Nat} {w : Vertex}
    (slot : slots[j]? = some w) (vp : Int) (element : Nat) (index : Int) :
    (compileRun gglFloatToFixed memory a p draw slots vp element index)[j]? =
      some (compileAt gglFloatToFixed memory a p draw w (vp + (j * a.stride : Nat)) (element + j)
        (index + j)) := by
  induction slots generalizing j vp element index with
  | nil => simp at slot
  | cons v slots ih =>
    cases j with
    | zero =>
      obtain rfl : v = w := by simpa using slot
      simp [compileRun]
    | succ j =>
      have rest := ih (by simpa using slot) (vp + a.stride) (element + 1) (index + 1)
      have place : vp + a.stride + (j * a.stride : Nat) = vp + ((j + 1) * a.stride : Nat) := by
        rw [Nat.succ_mul, Int.natCast_add]
        omega
      rw [place, Nat.add_assoc, Nat.add_comm 1 j, Int.add_assoc, Int.add_comm 1 (j : Int)] at rest
      exact rest

end Pipelines

def untagged (v : Vertex) : Vertex := { v with index := 0 }

theorem compileVertex_untagged (p : Pipeline) (v : Vertex) (element : Nat) (index : Int)
    (draw : Nat) : untagged (p.compileVertex v element index draw).2 =
      (p.compileVertex v element 0 draw).2 := by
  have frustum (depth : Bool) (u : Vertex) : untagged (p.clipFrustumPerspective depth u).2 =
      (p.clipFrustumPerspective depth (untagged u)).2 := by
    have planes : (untagged u).flags &&& clipAll ||| (untagged u).clip.frustumClip =
        u.flags &&& clipAll ||| u.clip.frustumClip := rfl
    simp only [Pipeline.clipFrustumPerspective, planes]
    split_ifs <;> rfl
  unfold Pipeline.compileVertex
  cases path : p.divider with
  | validate => exact absurd path p.divider_ne_validate
  | perspective2D => simp only [Pipeline.divide, path, Pipeline.perspective2D, untagged]
  | perspective3D | perspective3DZ =>
    simp only [Pipeline.divide, path, frustum]
    rfl
  | clipAllPerspective3D | clipAllPerspective3DZ =>
    simp only [Pipeline.divide, path, Pipeline.clipAllPerspective, frustum]
    rfl

private theorem compileVertex_planes (p : Pipeline) (v : Vertex) (element : Nat) (index : Int)
    (draw : Nat) : (p.compileVertex v element index draw).1 = (p.compiled element 0).outside := by
  have planes := congrArg Vertex.outside (compileVertex_untagged p v element index draw)
  rw [p.compileVertex_mask, ← p.outside_compileVertex v element 0 draw]
  exact planes

section Elements

variable (gglFloatToFixed : Nat → Int) (memory : Memory) (a : VertexArray) (p : Pipeline)

/-- The address of element `e`, of any size. -/
def place (e : Nat) : Int := a.physicalPointer + (e * a.stride : Nat)

/-- The bytes of the components of element `e`. -/
def bytesOf (e : Nat) : List Int :=
  (List.range (count a.size * a.type.bytes)).map fun i => place a e + (i : Nat)

/-- The components of element `e`, with 0 for a missing `z` and 1 for a missing `w`. -/
def coordsOf (e : Nat) : Vec4 :=
  let c (i : Nat) := component gglFloatToFixed memory a.type (place a e + (i * a.type.bytes : Nat))
  ⟨c 0, c 1, if count a.size < 3 then 0 else c 2, if count a.size < 4 then 0x10000 else c 3⟩

/-- A compiled vertex comes from element `e`. -/
structure Takes (e : Nat) (r : Compiled) : Prop where
  reads : r.reads = bytesOf a e
  coords : r.coords = coordsOf gglFloatToFixed memory a e
  clip : r.vertex.clip =
    point p.mvp a.size (coordsOf gglFloatToFixed memory a e)

/-- Two compiled vertices, over slots that held `v` and `w`, are one up to the tag. A vertex
keeps of its slot what the compilers do not write. -/
structure Agree (v w : Vertex) (r s : Compiled) : Prop where
  mask : r.mask = s.mask
  seen : (pipeline gglFloatToFixed memory a p).seen (untagged r.vertex) =
    (pipeline gglFloatToFixed memory a p).seen (untagged s.vertex)
  vertex : v = w → untagged r.vertex = untagged s.vertex

end Elements

private theorem vertexFct_type (size : Components) (type : ArrayType) :
    (vertexFct size type).type = type := by
  cases size <;> cases type <;> rfl

private theorem vertexFct_eq {size : Components} {type : ArrayType}
    (other : ¬(size = .two ∧ type = .fixed)) : vertexFct size type = ⟨size, type⟩ := by
  cases size <;> cases type <;> first | rfl | exact absurd ⟨rfl, rfl⟩ other

private theorem vertexFct_reads_iff (size : Components) (type : ArrayType) :
    count (vertexFct size type).size * type.bytes = count size * type.bytes ↔
      ¬(size = .two ∧ type = .fixed) := by
  cases size <;> cases type <;> decide

private theorem count_bytes_pos (size : Components) (type : ArrayType) :
    0 < count size * type.bytes := by
  cases size <;> cases type <;> decide

private theorem addresses_iff {p q : Int} {n m : Nat} (some : 0 < m) :
    ((List.range n).map fun i => p + (i : Nat)) = ((List.range m).map fun i => q + (i : Nat)) ↔
      n = m ∧ p = q := by
  constructor
  · intro same
    have long : n = m := by simpa using congrArg List.length same
    subst long
    refine ⟨rfl, ?_⟩
    have first := congrArg List.head? same
    simpa [List.head?_range, some.ne'] using first
  · rintro ⟨rfl, rfl⟩
    rfl

section Compilers

variable (gglFloatToFixed : Nat → Int) (memory : Memory) (a : VertexArray) (p : Pipeline)

private theorem fetchVertex_eq (ready : a.Ready) (other : ¬(a.size = .two ∧ a.type = .fixed))
    (v : Vec4) (e : Nat) :
    fetchVertex gglFloatToFixed memory a { v with z := 0, w := 0x10000 } (place a e) =
      coordsOf gglFloatToFixed memory a e := by
  rw [fetchVertex, if_pos ready, vertexFct_eq other]
  unfold Fetcher.fetch coordsOf
  cases a.size <;> rfl

theorem takes_iff (ready : a.Ready) (draw : Nat) (v : Vertex) (vp : Int) (e : Nat)
    (index : Int) :
    Takes gglFloatToFixed memory a p e (compileAt gglFloatToFixed memory a p draw v vp e index) ↔
      ¬(a.size = .two ∧ a.type = .fixed) ∧ vp = place a e := by
  have reads : (compileAt gglFloatToFixed memory a p draw v vp e index).reads = bytesOf a e ↔
      ¬(a.size = .two ∧ a.type = .fixed) ∧ vp = place a e := by
    show readsVertex a vp = bytesOf a e ↔ _
    rw [readsVertex, if_pos ready, Fetcher.reads, bytesOf, addresses_iff (count_bytes_pos _ _),
      vertexFct_type, vertexFct_reads_iff]
  constructor
  · intro takes
    exact reads.mp takes.reads
  · rintro ⟨other, rfl⟩
    have coords := fetchVertex_eq gglFloatToFixed memory a ready other v.obj e
    refine ⟨reads.mpr ⟨other, rfl⟩, coords, ?_⟩
    show (Pipeline.divide _ _).2.clip = _
    rw [(Pipeline.divide_spec _ _ rfl).2.1, ← coords]
    rfl

theorem element_eq_iff (e : Nat) : a.element e = place a e ↔ e * a.stride < 2 ^ 31 := by
  have fits := (wrap32_natCast_le (e * a.stride)).2
  rw [VertexArray.element, place, Int.add_right_inj]
  exact fits

theorem agree_of_place (ready : a.Ready) (draw : Nat) (v w : Vertex) (e : Nat)
    (index index' : Int) :
    Agree gglFloatToFixed memory a p v w
      (compileAt gglFloatToFixed memory a p draw v (a.element e) e index)
      (compileAt gglFloatToFixed memory a p draw w (a.element e) e index') := by
  obtain ⟨mask, vertex⟩ := compileAt_eq gglFloatToFixed memory a p ready draw v e index
  obtain ⟨mask', vertex'⟩ := compileAt_eq gglFloatToFixed memory a p ready draw w e index'
  refine ⟨?_, ?_, ?_⟩
  · rw [mask, mask', compileVertex_planes, compileVertex_planes]
  · rw [vertex, vertex', compileVertex_untagged, compileVertex_untagged,
      Pipeline.seen_compileVertex, Pipeline.seen_compileVertex]
  · rintro rfl
    rw [vertex, vertex', compileVertex_untagged, compileVertex_untagged]

end Compilers

/-- `compileElement` and `compileElements` leave the same vertex for an element up to its tag, and
both read the components of this element and no other byte. `v` and `w` are what the slots held. -/
def CompilersAgree (gglFloatToFixed : Nat → Int) (memory : Memory) (a : VertexArray) (p : Pipeline)
    (draw : Nat) (v w : Vertex) (slots : List Vertex) (first first' : Int) (j : Nat) : Prop :=
  ∃ r ∈ (compileElements gglFloatToFixed memory a p draw slots first')[j]?,
    let e := elementOf first
    let s := compileElement gglFloatToFixed memory a p draw v first
    Agree gglFloatToFixed memory a p v w s r ∧ Takes gglFloatToFixed memory a p e s ∧
      Takes gglFloatToFixed memory a p e r

/-- Over an array that is enabled and has data, the compilers agree exactly if the array is not one
of two fixed-point components and the offset of the element fits an `int`. -/
theorem compilersAgree_iff (gglFloatToFixed : Nat → Int) (memory : Memory) (a : VertexArray)
    (p : Pipeline) (ready : a.Ready) (draw : Nat) (v w : Vertex) (slots : List Vertex)
    (first first' : Int) (j : Nat) (slot : slots[j]? = some w)
    (same : elementOf first = elementOf first' + j) :
    CompilersAgree gglFloatToFixed memory a p draw v w slots first first' j ↔
      ¬(a.size = .two ∧ a.type = .fixed) ∧ elementOf first * a.stride < 2 ^ 31 := by
  have batch := compileRun_get gglFloatToFixed memory a p draw slot (a.element (elementOf first'))
    (elementOf first') first'
  have single := takes_iff gglFloatToFixed memory a p ready draw v (a.element (elementOf first))
    (elementOf first) first
  rw [element_eq_iff] at single
  constructor
  · rintro ⟨r, -, -, takes, -⟩
    exact single.mp takes
  · rintro ⟨other, fits⟩
    have here : a.element (elementOf first) = place a (elementOf first) :=
      (element_eq_iff a _).mpr fits
    have earlier : a.element (elementOf first') = place a (elementOf first') := by
      have below : elementOf first' * a.stride ≤ elementOf first * a.stride :=
        Nat.mul_le_mul_right _ (by omega)
      exact (element_eq_iff a _).mpr (by omega)
    have next : a.element (elementOf first') + (j * a.stride : Nat) = a.element (elementOf first) := by
      rw [earlier, here, place, place, same, Nat.add_mul, Int.natCast_add, Int.add_assoc]
    rw [next, ← same] at batch
    refine ⟨_, batch, ?_, single.mpr ⟨other, fits⟩, ?_⟩
    · exact agree_of_place gglFloatToFixed memory a p ready draw v w _ _ _
    · exact (takes_iff gglFloatToFixed memory a p ready draw w _ _ _).mpr ⟨other, here⟩

/-- Words at `0x1000`: word `k` is `k + 1` in fixed point. -/
def numbered : Memory := fun b =>
  if b % 4 = 2 then UInt8.ofNat ((b - 0x1000) / 4 + 1).toNat else 0

/-- Elements of three shorts; the tag of element 2 has a sequence above its index. -/
theorem compilersAgree_iff_shorts :
    CompilersAgree (fun _ => 0) numbered ⟨true, .three, .short, 6, 0x1000, none⟩
      (.flat fun _ => ⟨0, 0, 0, 0⟩) 0 .zero .zero [.zero, .zero] 0x50002 1 1 :=
  (compilersAgree_iff (fun _ => 0) numbered ⟨true, .three, .short, 6, 0x1000, none⟩
    (.flat fun _ => ⟨0, 0, 0, 0⟩) (by decide) 0 .zero .zero [.zero, .zero] 0x50002 1 1 rfl
    (by decide)).mpr ⟨by decide, by decide⟩

/-- Of two fixed-point components, the first one of the next element is read as `z`. -/
theorem fixedPairs_disagree :
    let a : VertexArray := ⟨true, .two, .fixed, 8, 0x1000, none⟩
    let p : Pipeline := .flat fun _ => ⟨0, 0, 0, 0⟩
    let r := compileElement (fun _ => 0) numbered a p 0 .zero 0
    r.coords = ⟨0x10000, 0x20000, 0x30000, 0x10000⟩ ∧ a.element 1 ∈ r.reads ∧
      ¬CompilersAgree (fun _ => 0) numbered a p 0 .zero .zero [.zero] 0 0 0 := by
  intro a p r
  refine ⟨by decide, by decide, ?_⟩
  rintro ⟨s, -, -, takes, -⟩
  exact ((takes_iff (fun _ => 0) numbered a p (by decide) 0 .zero _ _ _).mp takes).1 ⟨rfl, rfl⟩

end RabbitRender.Arrays.ElementFetch
