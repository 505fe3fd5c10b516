/- RabbitRender/Arrays/Fetches
   layer: result
   source: swrender/array.cpp
   digest: What a fetch from the vertex cache does, for renderers that leave the vertices alone. -/

import RabbitRender.Arrays.IndexedTriangles
import RabbitRender.Arrays.Locks

set_option autoImplicit false

namespace RabbitRender.Arrays.Fetches

open Vertices Arrays.Compile Arrays.Draw Arrays.CacheCoherence
open Arrays.IndexedTriangles (compiled_retag cacheSlot_sequence)
open Arrays.Locks Lib.GuardedRun

/-- The clip coordinates, the clip flags and the tag of a vertex, and its element. -/
structure Origin where
  clip : Vec4
  outside : Flags
  index : Int
  element : Nat
deriving DecidableEq, Repr

def origin (v : Vertex) : Origin := ⟨v.clip, v.outside, v.index, v.source.element⟩

def Origin.untagged (o : Origin) : Origin := { o with index := o.index % (indexSeq : Int) }

def vertexOf (p : Pipeline) (i : Index) : Origin := origin (p.compiled i (i : Nat))

abbrev Renderer := Machine → List Nat → Machine

/-- The renderer leaves the clip coordinates, the flags and the tags of the vertices alone. -/
structure Gentle (render : Renderer) : Prop where
  origin : ∀ m vs slot, origin ((render m vs).verts slot) = Fetches.origin (m.verts slot)
  locked : ∀ m vs slot, ((render m vs).verts slot).locked = (m.verts slot).locked
  sequence : ∀ m vs, (render m vs).sequence = m.sequence

theorem Gentle.ite {render : Renderer} (h : Gentle render) (c : Prop) [Decidable c] :
    Gentle fun m vs => if c then render m vs else m := by
  by_cases hc : c
  · simpa only [hc, if_true] using h
  · simp only [hc, if_false]
    exact ⟨fun _ _ _ => rfl, fun _ _ _ => rfl, fun _ _ => rfl⟩

def sharedFlags : List Vertex → Flags
  | [] => clipAll
  | v :: vs => v.flags &&& sharedFlags vs

def sharedOutside : List Origin → Flags
  | [] => clipAll
  | o :: os => o.outside &&& sharedOutside os

theorem sharedFlags_eq (vs : List Vertex) :
    sharedFlags vs = sharedOutside (vs.map fun v => (origin v).untagged) := by
  have planes (os : List Origin) : clipAll &&& sharedOutside os = sharedOutside os := by
    induction os with
    | nil => exact BitVec.and_self
    | cons o os ih =>
      rw [sharedOutside, ← BitVec.and_assoc, BitVec.and_comm clipAll, BitVec.and_assoc, ih]
  induction vs with
  | nil => rfl
  | cons v vs ih =>
    rw [sharedFlags, ih, List.map_cons, sharedOutside]
    show _ = v.flags &&& clipAll &&& _
    rw [BitVec.and_assoc, planes]

def rendered (vs : List Origin) : List (List Origin) := if sharedOutside vs = 0 then [vs] else []

section Compiled

variable (p : Pipeline)

theorem origin_compileVertex (v : Vertex) (element : Nat) (index : Int) (draw : Nat) :
    origin (p.compileVertex v element index draw).2 = origin (p.compiled element index) := by
  obtain ⟨-, clip, -⟩ := seen_eq_iff.mp (p.seen_compileVertex v element index draw)
  have source : (p.compiled element index).source = ⟨0, element⟩ := p.compileVertex_source _ _ _ _
  simp only [origin, Origin.mk.injEq]
  refine ⟨clip, p.outside_compileVertex v element index draw, ?_, ?_⟩
  · rw [p.compileVertex_index, p.compiled_index]
  · rw [p.compileVertex_source, source]

theorem untagged_compiled {i : Index} {t : Nat} (ht : t % indexSeq = i) :
    (origin (p.compiled i t)).untagged = vertexOf p i := by
  have same : ((t : Nat) : Int) % (indexSeq : Int) = ((i : Nat) : Int) := by
    have range := i.isLt
    simp only [indexSeq] at ht ⊢
    omega
  have index := p.compiled_index i (i : Nat)
  rw [compiled_retag p i t (i : Nat), vertexOf, Origin.untagged, origin, origin, Origin.mk.injEq]
  exact ⟨rfl, rfl, same.trans index.symm, rfl⟩

end Compiled

section Fetch

variable (p : Pipeline) {m r : Machine} {i : Index}

/-- The entry that `cache_vertex` compiles into, as it is before; nothing if the index hits. -/
def overwritten (m : Machine) (index : Nat) : List Vertex :=
  let index := index ||| m.sequence
  let slot := cacheSlot index
  if (m.verts slot).index = index then []
  else [m.verts (if (m.verts slot).locked then spareSlot m else slot)]

/-- Entry `v` has been fetched for index `i`. -/
structure Fetched (m r : Machine) (v : Nat) (i : Index) : Prop where
  others : ∀ slot, slot ≠ v → r.verts slot = m.verts slot
  locked : (r.verts v).locked = true
  index : (r.verts v).index = (m.sequence + i : Nat)
  sequence : r.sequence = m.sequence

structure Hit (m r : Machine) (v : Nat) (i : Index) : Prop where
  place : v = cacheSlot i
  tag : (m.verts (cacheSlot i)).index = (m.sequence + i : Nat)
  origin : origin (r.verts v) = Fetches.origin (m.verts v)

/-- The vertex of the index is compiled, in its entry of the cache or, if that is locked, in an entry
of the buffer. -/
structure Miss (m r : Machine) (v : Nat) (i : Index) : Prop where
  tag : (m.verts (cacheSlot i)).index ≠ (m.sequence + i : Nat)
  place : v = cacheSlot i ∧ (m.verts (cacheSlot i)).locked = false ∨
    v = spareSlot m ∧ (m.verts (cacheSlot i)).locked = true
  origin : (origin (r.verts v)).untagged = vertexOf p i

private theorem fetched_compiled (aligned : m.sequence % indexSeq = 0) (slot : Nat) :
    Fetched m (lock (compileElement p m slot (m.sequence + i : Nat)) slot) slot i ∧
      (origin ((lock (compileElement p m slot (m.sequence + i : Nat)) slot).verts slot)).untagged =
        vertexOf p i := by
  have low : (m.sequence + i) % indexSeq = i := by
    have range := i.isLt
    simp only [indexSeq] at aligned ⊢
    omega
  refine ⟨⟨?_, ?_, ?_, rfl⟩, ?_⟩
  · intro other h
    rw [lock, Machine.set_other _ _ _ h, compileElement, compileAt_other _ _ _ _ _ h]
  · rw [lock, Machine.set_same]
  · rw [lock, Machine.set_same, compileElement, compileAt_same]
    exact p.compileVertex_index _ _ _ _
  · rw [lock, Machine.set_same, compileElement, compileAt_same, elementOf_natCast, low]
    exact (congrArg Origin.untagged (origin_compileVertex p _ _ _ _)).trans (untagged_compiled p low)

theorem fetchVertex_cases (aligned : m.sequence % indexSeq = 0) (i : Index) :
    let r := fetchVertex p m i
    Fetched m r.1 r.2 i ∧ (Hit m r.1 r.2 i ∨ Miss p m r.1 r.2 i) := by
  have slot := cacheSlot_sequence aligned i
  simp only [fetchVertex, or_sequence aligned, slot]
  split_ifs with hit
  · refine ⟨⟨?_, ?_, ?_, rfl⟩, .inl ⟨rfl, hit, ?_⟩⟩
    · intro other h
      rw [lock, Machine.set_other _ _ _ h]
    · rw [lock, Machine.set_same]
    · rw [lock, Machine.set_same]
      exact hit
    · rw [lock, Machine.set_same]
      rfl
  · simp only [cacheVertex]
    split_ifs with locked
    · obtain ⟨fetched, fresh⟩ := @fetched_compiled p m i aligned (spareSlot m)
      exact ⟨fetched, .inr ⟨hit, .inr ⟨rfl, locked⟩, fresh⟩⟩
    · obtain ⟨fetched, fresh⟩ := @fetched_compiled p m i aligned (cacheSlot i)
      exact ⟨fetched, .inr ⟨hit, .inl ⟨rfl, by simpa using locked⟩, fresh⟩⟩

end Fetch

/-- The machine when a draw call reads its first index, after `calls`. -/
def begun (calls : List DrawCall) : Machine :=
  let m := run step Machine.init calls
  clear { m with draw := m.draw + 1 }

theorem quiet_begun (calls : List DrawCall) : Quiet (begun calls) := by
  obtain ⟨aligned, bounded, unlocked⟩ := quiet_after_run calls
  exact Quiet.clear ⟨aligned, bounded, unlocked⟩

/-- No index that is the first one in its entry of the cache finds its own tag there, left behind by
an earlier draw call. -/
def NoneStale (m : Machine) (indices : List Index) : Prop :=
  ∀ (pre : List Index) (i : Index), pre ++ [i] <+: indices → (∀ j ∈ pre, cacheSlot j ≠ cacheSlot i) →
    (m.verts (cacheSlot i)).index ≠ (m.sequence + i : Nat)

/-- What the entries hold after the indices in `used`: the vertices of the indices that hit them, and
what the draw call found in those not used yet. -/
structure Kept (p : Pipeline) (start m : Machine) (used : List Index) : Prop where
  sequence : m.sequence = start.sequence
  touched : ∀ i : Index, (∃ j ∈ used, cacheSlot j = cacheSlot i) →
    (m.verts (cacheSlot i)).index = (start.sequence + i : Nat) →
      (origin (m.verts (cacheSlot i))).untagged = vertexOf p i
  untouched : ∀ i : Index, (∀ j ∈ used, cacheSlot j ≠ cacheSlot i) →
    origin (m.verts (cacheSlot i)) = origin (start.verts (cacheSlot i))

section Stale

variable {p : Pipeline} {start m r : Machine} {used : List Index} {i : Index} {v : Nat}

theorem Kept.nil (m : Machine) : Kept p m m [] :=
  ⟨rfl, fun _ touched => absurd touched (by simp), fun _ _ => rfl⟩

/-- Index `i` is the first in its entry, and finds its own tag with another vertex there. -/
def Stale (p : Pipeline) (start : Machine) (used : List Index) (i : Index) : Prop :=
  (∀ j ∈ used, cacheSlot j ≠ cacheSlot i) ∧
    (start.verts (cacheSlot i)).index = (start.sequence + i : Nat) ∧
      (origin (start.verts (cacheSlot i))).untagged ≠ vertexOf p i

def Fresh (p : Pipeline) (start : Machine) : (used indices : List Index) → Prop
  | _, [] => True
  | used, i :: indices => ¬ Stale p start used i ∧ Fresh p start (used ++ [i]) indices

theorem fresh_append {used l l' : List Index} :
    Fresh p start used (l ++ l') ↔ Fresh p start used l ∧ Fresh p start (used ++ l) l' := by
  induction l generalizing used with
  | nil => simp [Fresh]
  | cons i l ih =>
    simp only [List.cons_append, Fresh, ih, List.append_assoc, and_assoc]
    rfl

theorem Kept.fetched (kept : Kept p start m used)
    (found : Hit m r v i ∨ Miss p m r v i) :
    (origin (r.verts v)).untagged = vertexOf p i ↔ ¬ Stale p start used i := by
  rcases found with ⟨place, tag, same⟩ | miss
  · by_cases touched : ∃ j ∈ used, cacheSlot j = cacheSlot i
    · rw [kept.sequence] at tag
      have right := kept.touched i touched tag
      rw [same, place]
      obtain ⟨j, hj, slot⟩ := touched
      exact ⟨fun _ stale => stale.1 j hj slot, fun _ => right⟩
    · have first : ∀ j ∈ used, cacheSlot j ≠ cacheSlot i := fun j hj slot => touched ⟨j, hj, slot⟩
      have old := kept.untouched i first
      have oldTag : (start.verts (cacheSlot i)).index = (start.sequence + i : Nat) := by
        rw [← kept.sequence, ← tag]
        exact (congrArg Origin.index old).symm
      rw [same, place, old]
      constructor
      · intro right stale
        exact stale.2.2 right
      · intro fresh
        by_contra wrong
        exact fresh ⟨first, oldTag, wrong⟩
  · refine ⟨fun _ stale => ?_, fun _ => miss.origin⟩
    obtain ⟨first, tag, -⟩ := stale
    have old := congrArg Origin.index (kept.untouched i first)
    apply miss.tag
    rw [kept.sequence, ← tag]
    exact old

theorem Kept.after (kept : Kept p start m used) (fetched : Fetched m r v i)
    (found : Hit m r v i ∨ Miss p m r v i)
    (right : (origin (r.verts v)).untagged = vertexOf p i)
    (locked : (m.verts (cacheSlot i)).locked = true → ∃ j ∈ used, cacheSlot j = cacheSlot i) :
    Kept p start r (used ++ [i]) := by
  have place : v = cacheSlot i ∨ v = spareSlot m ∧ (m.verts (cacheSlot i)).locked = true := by
    rcases found with hit | miss
    · exact .inl hit.place
    · exact miss.place.imp And.left id
  have spare := spareSlot_bounds m
  have elsewhere (k : Index) (h : cacheSlot k ≠ cacheSlot i) :
      r.verts (cacheSlot k) = m.verts (cacheSlot k) := by
    apply fetched.others
    have := cacheSlot_bounds k
    rcases place with place | ⟨place, -⟩ <;> omega
  refine ⟨fetched.sequence.trans kept.sequence, ?_, ?_⟩
  · rintro k ⟨j, hj, slot⟩ tag
    by_cases same : cacheSlot k = cacheSlot i
    · rcases place with here | ⟨spared, taken⟩
      · have equal : k = i := by
          rw [same, ← here, fetched.index, kept.sequence] at tag
          exact Fin.ext (by omega)
        rw [equal, ← here, right]
      · have unchanged : r.verts (cacheSlot k) = m.verts (cacheSlot k) := by
          apply fetched.others
          have := cacheSlot_bounds k
          omega
        rw [unchanged] at tag ⊢
        refine kept.touched k ?_ tag
        rw [same]
        exact locked taken
    · rw [elsewhere k same] at tag ⊢
      refine kept.touched k ⟨j, ?_, slot⟩ tag
      rcases List.mem_append.mp hj with old | new
      · exact old
      · rw [List.mem_singleton.mp new] at slot
        exact absurd slot.symm same
  · intro k untouched
    have different : cacheSlot k ≠ cacheSlot i := (untouched i (by simp)).symm
    rw [elsewhere k different]
    exact kept.untouched k fun j hj => untouched j (List.mem_append_left _ hj)

theorem Kept.same (kept : Kept p start m used) (sequence : r.sequence = m.sequence)
    (same : ∀ slot, origin (r.verts slot) = origin (m.verts slot)) : Kept p start r used := by
  have tags (slot : Nat) : (r.verts slot).index = (m.verts slot).index :=
    congrArg Origin.index (same slot)
  refine ⟨sequence.trans kept.sequence, ?_, ?_⟩
  · intro i touched tag
    rw [tags] at tag
    rw [same]
    exact kept.touched i touched tag
  · intro i untouched
    rw [same]
    exact kept.untouched i untouched

theorem fresh_of_noneStale {indices : List Index} (h : NoneStale start indices) :
    Fresh p start [] indices := by
  have from_used : ∀ (used l : List Index), used ++ l = indices → Fresh p start used l := by
    intro used l
    induction l generalizing used with
    | nil => exact fun _ => trivial
    | cons i l ih =>
      intro whole
      refine ⟨?_, ih (used ++ [i]) (by rw [← whole, List.append_assoc]; rfl)⟩
      rintro ⟨first, tag, -⟩
      exact h used i ⟨l, by rw [← whole, List.append_assoc]; rfl⟩ first tag
  exact from_used [] indices rfl

end Stale

def everywhere (x : Int) : Pipeline := .flat fun _ => ⟨x, 0, 0, 0⟩

theorem everywhere_outside (x : Int) (i : Index) : (vertexOf (everywhere x) i).outside = 0 :=
  Pipeline.flat_outside _ _ _

theorem everywhere_ne (i : Index) : vertexOf (everywhere 0) i ≠ vertexOf (everywhere 0x10000) i := by
  intro same
  have clip := congrArg (fun o => o.clip.x) same
  simp only [vertexOf, origin, everywhere, Pipeline.flat_clip] at clip
  revert clip
  decide

end RabbitRender.Arrays.Fetches
