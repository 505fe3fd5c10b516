/- RabbitRender/Arrays/IndexedPrimitives
   layer: result
   source: swrender/array.cpp
   digest: Points, lines and triangles from index lists, and the locks of their entries of the cache. -/

import RabbitRender.Arrays.Fetches

set_option autoImplicit false

namespace RabbitRender.Arrays.IndexedPrimitives

open Vertices Arrays.Compile Arrays.Draw Arrays.Trace Arrays.CacheCoherence
open Arrays.IndexedTriangles (cacheSlot_sequence)
open Arrays.Fetches
open Primitives (renderPoint renderLine renderTriangle)

variable (p : Pipeline)

/-- The entries of the vertices of a primitive, and those `cache_vertex` compiled into, as they were
before. -/
structure Fetches where
  machine : Machine
  entries : List Nat
  overwritten : List Vertex

def fetchAll (m : Machine) : List Index → Fetches
  | [] => ⟨m, [], []⟩
  | i :: indices =>
    let (r, v) := fetchVertex p m i
    let rest := fetchAll r indices
    ⟨rest.machine, v :: rest.entries, overwritten m i ++ rest.overwritten⟩

/-- What a draw call leaves, the vertices it has passed to the renderer, and the entries that
`cache_vertex` compiled into, as they were before. -/
structure Drawn where
  machine : Machine
  passed : List (List Vertex)
  overwritten : List Vertex

/-- The first `n` primitives of `size` vertices each. -/
def drawPrimitives (size : Nat) (render : Renderer) : Nat → Machine → List Index → Drawn
  | 0, m, _ => ⟨m, [], []⟩
  | n + 1, m, indices =>
    let f := fetchAll p m (indices.take size)
    let vs := f.entries.map f.machine.verts
    let m := if sharedFlags vs = 0 then render f.machine f.entries else f.machine
    let rest := drawPrimitives size render n (f.entries.foldl unlock m) (indices.drop size)
    ⟨rest.machine, (if sharedFlags vs = 0 then [vs] else []) ++ rest.passed,
      f.overwritten ++ rest.overwritten⟩

/-- The functions for points, lines and triangles, with a renderer of their own. -/
def drawIndexed (size : Nat) (render : Renderer) (m : Machine) (indices : List Index) : Drawn :=
  drawPrimitives p size render (indices.length / size) m indices

def pointRenderer : Renderer
  | m, [v] => renderPoint p m v
  | m, _ => m

def lineRenderer : Renderer
  | m, [v0, v1] => renderLine p m v0 v1
  | m, _ => m

def triangleRenderer : Renderer
  | m, [v0, v1, v2] => renderTriangle p m v0 v1 v2
  | m, _ => m

theorem drawIndexedPrimitivesPoints_eq : ∀ (m : Machine) (indices : List Index),
    drawIndexedPrimitivesPoints p m indices =
      (drawIndexed p 1 (pointRenderer p) m indices).machine
  | m, i :: indices => by
    rw [drawIndexed, List.length_cons, Nat.div_one]
    have rest := drawIndexedPrimitivesPoints_eq
      (unlock (if ((fetchVertex p m i).1.verts (fetchVertex p m i).2).flags &&& clipAll = 0 then
        renderPoint p (fetchVertex p m i).1 (fetchVertex p m i).2 else (fetchVertex p m i).1)
        (fetchVertex p m i).2) indices
    rw [drawIndexed, Nat.div_one] at rest
    exact rest
  | m, [] => rfl

theorem drawIndexedPrimitivesLines_eq : ∀ (m : Machine) (indices : List Index),
    drawIndexedPrimitivesLines p m indices =
      (drawIndexed p 2 (lineRenderer p) m indices).machine
  | m, i :: j :: indices => by
    have count : (i :: j :: indices).length / 2 = indices.length / 2 + 1 := by
      simp only [List.length_cons]
      omega
    simp only [drawIndexed, count, drawPrimitives, drawIndexedPrimitivesLines]
    rw [drawIndexedPrimitivesLines_eq, drawIndexed]
    simp only [List.take_succ_cons, List.take_zero, List.drop_succ_cons, List.drop_zero, fetchAll,
      List.map_cons, List.map_nil, sharedFlags, lineRenderer, List.foldl_cons, List.foldl_nil,
      BitVec.and_assoc]
  | m, [] => rfl
  | m, [_] => by simp [drawIndexedPrimitivesLines, drawIndexed, drawPrimitives]

theorem drawIndexedPrimitivesTriangles_eq : ∀ (m : Machine) (indices : List Index),
    drawIndexedPrimitivesTriangles p m indices =
      (drawIndexed p 3 (triangleRenderer p) m indices).machine
  | m, i :: j :: k :: indices => by
    have count : (i :: j :: k :: indices).length / 3 = indices.length / 3 + 1 := by
      simp only [List.length_cons]
      omega
    simp only [drawIndexed, count, drawPrimitives, drawIndexedPrimitivesTriangles]
    rw [drawIndexedPrimitivesTriangles_eq, drawIndexed]
    simp only [List.take_succ_cons, List.take_zero, List.drop_succ_cons, List.drop_zero, fetchAll,
      List.map_cons, List.map_nil, sharedFlags, triangleRenderer, List.foldl_cons, List.foldl_nil,
      BitVec.and_assoc]
  | m, [] => rfl
  | m, [_] => by simp [drawIndexedPrimitivesTriangles, drawIndexed, drawPrimitives]
  | m, [_, _] => by simp [drawIndexedPrimitivesTriangles, drawIndexed, drawPrimitives]

/-- The entries of the primitive so far are the locked ones; those in the cache are entries of
indices used. -/
structure Holding (m : Machine) (entries : List Nat) (used : List Index) : Prop where
  locks : ∀ slot, (m.verts slot).locked = true ↔ slot ∈ entries
  slots : ∀ slot ∈ entries, 8 ≤ slot → ∃ j ∈ used, cacheSlot j = slot

section Holding

variable {p} {start m r : Machine} {entries : List Nat} {used : List Index} {i : Index} {v : Nat}

theorem Holding.nil (unlocked : ∀ slot, (m.verts slot).locked = false) : Holding m [] used := by
  refine ⟨fun slot => ?_, fun slot h => absurd h List.not_mem_nil⟩
  rw [unlocked]
  simp

private theorem Holding.spareSlot (h : Holding m entries used) (few : entries.length ≤ 2)
    (locked : (m.verts (cacheSlot i)).locked = true) : spareSlot m ∉ entries := by
  have bounds := cacheSlot_bounds i
  have spare := spareSlot_bounds m
  have cached := (h.locks _).mp locked
  intro taken
  have only (slot : Nat) (small : slot < 8) (h' : (m.verts slot).locked = true) :
      slot = Draw.spareSlot m := by
    have member := (h.locks slot).mp h'
    match entries, few, cached, taken, member with
    | [a], _, cached, taken, _ =>
      rw [List.mem_singleton] at cached taken
      omega
    | [a, b], _, cached, taken, member =>
      simp only [List.mem_cons, List.not_mem_nil, or_false] at cached taken member
      omega
  have second := only 2 (by omega)
  have third := only 3 (by omega)
  have self := (h.locks _).mpr taken
  unfold Draw.spareSlot at second third self
  cases h2 : (m.verts 2).locked <;> cases h3 : (m.verts 3).locked <;>
    simp only [h2, h3] at second third self
  · exact absurd (self.symm.trans h2) (by decide)
  · exact absurd (third trivial) (by decide)
  · exact absurd (second trivial) (by decide)
  · exact absurd (second trivial) (by decide)

structure HoldingMore (p : Pipeline) (m r : Machine) (entries : List Nat) (used : List Index)
    (v : Nat) (i : Index) : Prop where
  holding : Holding r (v :: entries) (used ++ [i])
  stays : ∀ w ∈ entries, origin (r.verts w) = origin (m.verts w)
  free : ∀ w ∈ overwritten m i, w.locked = false

theorem Holding.fetch (h : Holding m entries used) (aligned : m.sequence % indexSeq = 0)
    (few : entries.length ≤ 2) (i : Index) :
    HoldingMore p m (fetchVertex p m i).1 entries used (fetchVertex p m i).2 i := by
  obtain ⟨fetched, found⟩ := fetchVertex_cases p aligned i
  set r := (fetchVertex p m i).1
  set v := (fetchVertex p m i).2
  have fresh (miss : Miss p m r v i) : v ∉ entries := by
    rcases miss.place with ⟨here, free⟩ | ⟨spare, taken⟩
    · intro member
      rw [here, ← h.locks, free] at member
      exact Bool.noConfusion member
    · rw [spare]
      exact h.spareSlot few taken
  refine ⟨⟨?_, ?_⟩, ?_, ?_⟩
  · intro slot
    by_cases one : slot = v
    · rw [one, fetched.locked]
      simp
    · rw [fetched.others slot one, h.locks, List.mem_cons]
      simp [one]
  · intro slot member cached
    rcases List.mem_cons.mp member with rfl | old
    · have here : v = cacheSlot i := by
        rcases found with hit | miss
        · exact hit.place
        · rcases miss.place with ⟨here, -⟩ | ⟨spare, -⟩
          · exact here
          · have := spareSlot_bounds m
            omega
      exact ⟨i, by simp, here.symm⟩
    · obtain ⟨j, hj, slot⟩ := h.slots slot old cached
      exact ⟨j, List.mem_append_left _ hj, slot⟩
  · intro w member
    by_cases one : w = v
    · rcases found with hit | miss
      · rw [one, hit.origin]
      · exact absurd (one ▸ member) (fresh miss)
    · rw [fetched.others w one]
  · intro w member
    simp only [overwritten, or_sequence aligned, cacheSlot_sequence aligned] at member
    split_ifs at member with hit locked
    · exact absurd member List.not_mem_nil
    · rw [List.mem_singleton.mp member, Bool.eq_false_iff]
      exact fun taken => h.spareSlot few locked ((h.locks _).mp taken)
    · rw [List.mem_singleton.mp member]
      simpa using locked

structure FetchesSafe (f : Fetches) (m : Machine) (entries : List Nat) : Prop where
  sequence : f.machine.sequence = m.sequence
  locks : ∀ slot, (f.machine.verts slot).locked = true ↔ slot ∈ f.entries ∨ slot ∈ entries
  stays : ∀ w ∈ entries, origin (f.machine.verts w) = origin (m.verts w)
  free : ∀ w ∈ f.overwritten, w.locked = false

theorem Holding.fetchAll (indices : List Index) : ∀ {m : Machine} {entries : List Nat}
    {used : List Index}, Holding m entries used → m.sequence % indexSeq = 0 →
    entries.length + indices.length ≤ 3 → FetchesSafe (fetchAll p m indices) m entries := by
  induction indices with
  | nil =>
    intro m entries used h _ _
    refine ⟨rfl, fun slot => ?_, fun _ _ => rfl, fun w member => absurd member List.not_mem_nil⟩
    simp only [IndexedPrimitives.fetchAll, List.not_mem_nil, false_or]
    exact h.locks slot
  | cons i indices ih =>
    intro m entries used h aligned few
    rw [List.length_cons] at few
    have sequence := (fetchVertex_cases p aligned i).1.sequence
    obtain ⟨holding, stays, free⟩ := @Holding.fetch p m entries used h aligned (by omega) i
    simp only [IndexedPrimitives.fetchAll]
    set r := (fetchVertex p m i).1
    set v := (fetchVertex p m i).2
    have rest := ih holding (by rw [sequence]; exact aligned) (by rw [List.length_cons]; omega)
    refine ⟨rest.sequence.trans sequence, ?_, ?_, ?_⟩
    · intro slot
      rw [rest.locks, List.mem_cons, List.mem_cons]
      tauto
    · intro w member
      exact (rest.stays w (List.mem_cons_of_mem v member)).trans (stays w member)
    · intro w member
      rcases List.mem_append.mp member with first | later
      · exact free w first
      · exact rest.free w later

def Fetches.origins (f : Fetches) : List Origin :=
  f.entries.map fun v => (origin (f.machine.verts v)).untagged

theorem fetchAll_kept (indices : List Index) : ∀ {m : Machine} {entries : List Nat}
    {used : List Index}, Kept p start m used → Holding m entries used →
    m.sequence % indexSeq = 0 → entries.length + indices.length ≤ 3 →
    ((fetchAll p m indices).origins = indices.map (vertexOf p) ↔ Fresh p start used indices) ∧
      (Fresh p start used indices → Kept p start (fetchAll p m indices).machine (used ++ indices)) := by
  induction indices with
  | nil =>
    intro m entries used kept _ _ _
    exact ⟨⟨fun _ => trivial, fun _ => rfl⟩, fun _ => by rw [List.append_nil]; exact kept⟩
  | cons i indices ih =>
    intro m entries used kept h aligned few
    rw [List.length_cons] at few
    obtain ⟨fetched, found⟩ := fetchVertex_cases p aligned i
    have right := kept.fetched found
    obtain ⟨holding, -, -⟩ := @Holding.fetch p m entries used h aligned (by omega) i
    have after := kept.after fetched found
    simp only [IndexedPrimitives.fetchAll, Fetches.origins, List.map_cons, List.cons.injEq, Fresh]
    set r := (fetchVertex p m i).1
    set v := (fetchVertex p m i).2
    have alignedNext : r.sequence % indexSeq = 0 := by
      rw [fetched.sequence]
      exact aligned
    have few' : (v :: entries).length + indices.length ≤ 3 := by
      rw [List.length_cons]
      omega
    have stays := (@Holding.fetchAll p indices r (v :: entries) _ holding alignedNext few').stays v
      List.mem_cons_self
    rw [stays, right]
    by_cases stale : Stale p start used i
    · exact ⟨⟨fun h => absurd stale h.1, fun h => absurd stale h.1⟩, fun h => absurd stale h.1⟩
    · have next := after (right.mpr stale) fun locked =>
        h.slots _ ((h.locks _).mp locked) (cacheSlot_bounds i).1
      obtain ⟨same, keeps⟩ := ih next holding alignedNext few'
      rw [List.append_assoc] at keeps
      exact ⟨and_congr_right fun _ => same, fun h => keeps h.2⟩

end Holding

section Primitives

variable {p} {start m r : Machine} {used : List Index} {size n : Nat} {render : Renderer}

private theorem unlockAll_verts (entries : List Nat) (m : Machine) (slot : Nat) :
    (entries.foldl unlock m).sequence = m.sequence ∧
      origin ((entries.foldl unlock m).verts slot) = origin (m.verts slot) ∧
      (((entries.foldl unlock m).verts slot).locked = true ↔
        (m.verts slot).locked = true ∧ slot ∉ entries) := by
  induction entries generalizing m with
  | nil => simp
  | cons v entries ih =>
    obtain ⟨sequence, same, locks⟩ := ih (unlock m v)
    rw [List.foldl_cons, sequence, same, locks]
    by_cases one : slot = v
    · subst one
      simp [unlock, origin, Vertex.outside]
    · simp [unlock, one]

private theorem released (gentle : Gentle render) {f : Fetches} (safe : FetchesSafe f m [])
    (c : Prop) [Decidable c] :
    let r := f.entries.foldl unlock (if c then render f.machine f.entries else f.machine)
    r.sequence = m.sequence ∧ (∀ slot, origin (r.verts slot) = origin (f.machine.verts slot)) ∧
      ∀ slot, (r.verts slot).locked = false := by
  intro r
  have drawn := gentle.ite c
  refine ⟨?_, ?_, ?_⟩
  · exact (unlockAll_verts f.entries _ 0).1.trans ((drawn.sequence _ _).trans safe.sequence)
  · intro slot
    exact (unlockAll_verts f.entries _ slot).2.1.trans (drawn.origin _ _ slot)
  · intro slot
    rw [Bool.eq_false_iff]
    intro locked
    obtain ⟨before, outside⟩ := (unlockAll_verts f.entries _ slot).2.2.mp locked
    rw [drawn.locked f.machine f.entries slot, safe.locks] at before
    rcases before with held | none
    · exact outside held
    · exact List.not_mem_nil none

private theorem locks_drawPrimitives (gentle : Gentle render) (hsize : size ≤ 3) (n : Nat) :
    ∀ (m : Machine) (indices : List Index), m.sequence % indexSeq = 0 →
    (∀ slot, (m.verts slot).locked = false) →
    (∀ v ∈ (drawPrimitives p size render n m indices).overwritten, v.locked = false) ∧
      ∀ slot, ((drawPrimitives p size render n m indices).machine.verts slot).locked = false := by
  induction n with
  | zero => exact fun m _ _ unlocked => ⟨fun v h => absurd h List.not_mem_nil, unlocked⟩
  | succ n ih =>
    intro m indices aligned unlocked
    have safe := @Holding.fetchAll p (indices.take size) m [] [] (.nil unlocked) aligned
      ((Nat.zero_add _).trans_le ((List.length_take_le ..).trans hsize))
    simp only [drawPrimitives]
    obtain ⟨sequence, -, free⟩ := released gentle safe
      (sharedFlags ((fetchAll p m (indices.take size)).entries.map
        (fetchAll p m (indices.take size)).machine.verts) = 0)
    obtain ⟨rest, last⟩ := ih _ (indices.drop size) (by rw [sequence]; exact aligned) free
    refine ⟨?_, last⟩
    intro v member
    rcases List.mem_append.mp member with first | later
    · exact safe.free v first
    · exact rest v later

/-- The vertices of primitive `k`. -/
def ownVertices (p : Pipeline) (size : Nat) (indices : List Index) (k : Nat) : List Origin :=
  ((indices.drop (size * k)).take size).map (vertexOf p)

def separatePrimitives (p : Pipeline) (size : Nat) (indices : List Index) (n : Nat) :
    List (List Origin) :=
  primitives (fun k => rendered (ownVertices p size indices k)) 0 n

private theorem separatePrimitives_succ (indices : List Index) (n : Nat) :
    separatePrimitives p size indices (n + 1) =
      rendered ((indices.take size).map (vertexOf p)) ++
        separatePrimitives p size (indices.drop size) n := by
  have first : ownVertices p size indices 0 = (indices.take size).map (vertexOf p) := rfl
  rw [separatePrimitives, primitives_succ, first]
  congr 1
  apply primitives_shift
  intro k _
  have own : ownVertices p size indices (0 + 1 + k) = ownVertices p size (indices.drop size) (0 + k) := by
    rw [ownVertices, ownVertices, List.drop_drop]
    congr 3
    rw [Nat.zero_add, Nat.mul_add, Nat.mul_one, Nat.zero_add]
  rw [own]

def Drawn.origins (d : Drawn) : List (List Origin) :=
  d.passed.map (List.map fun v => (origin v).untagged)

theorem rendered_length (vs : List Origin) : (rendered vs).length ≤ 1 := by
  rw [rendered]
  split_ifs <;> simp

/-- The machine between a primitive and the next one. -/
private def afterPrimitive (render : Renderer) (f : Fetches) : Machine :=
  f.entries.foldl unlock
    (if sharedFlags (f.entries.map f.machine.verts) = 0 then render f.machine f.entries
      else f.machine)

private theorem origins_succ (n : Nat) (m : Machine) (indices : List Index) :
    let f := fetchAll p m (indices.take size)
    (drawPrimitives p size render (n + 1) m indices).origins = rendered f.origins ++
      (drawPrimitives p size render n (afterPrimitive render f) (indices.drop size)).origins := by
  intro f
  have test : (f.entries.map f.machine.verts).map (fun v => (origin v).untagged) = f.origins := by
    rw [List.map_map]
    rfl
  simp only [drawPrimitives, Drawn.origins, List.map_append]
  congr 1
  rw [rendered, ← test, ← sharedFlags_eq]
  split_ifs <;> rfl

private theorem origins_length (n : Nat) : ∀ (m : Machine) (indices : List Index),
    (drawPrimitives p size render n m indices).origins.length ≤ n := by
  induction n with
  | zero => exact fun _ _ => Nat.le_refl 0
  | succ n ih =>
    intro m indices
    have first := rendered_length (fetchAll p m (indices.take size)).origins
    have rest := ih (afterPrimitive render (fetchAll p m (indices.take size))) (indices.drop size)
    rw [origins_succ, List.length_append]
    omega

private theorem primitive_kept (gentle : Gentle render) (hsize : size ≤ 3)
    (aligned : start.sequence % indexSeq = 0) (indices : List Index) (kept : Kept p start m used)
    (unlocked : ∀ slot, (m.verts slot).locked = false) :
    let f := fetchAll p m (indices.take size)
    (f.origins = (indices.take size).map (vertexOf p) ↔ Fresh p start used (indices.take size)) ∧
      (∀ slot, ((afterPrimitive render f).verts slot).locked = false) ∧
      (Fresh p start used (indices.take size) →
        Kept p start (afterPrimitive render f) (used ++ indices.take size)) := by
  have alignedHere : m.sequence % indexSeq = 0 := by
    rw [kept.sequence]
    exact aligned
  have few : ([] : List Nat).length + (indices.take size).length ≤ 3 :=
    (Nat.zero_add _).trans_le ((List.length_take_le ..).trans hsize)
  obtain ⟨same, keeps⟩ := fetchAll_kept (indices.take size) kept (.nil unlocked) alignedHere few
  have safe := @Holding.fetchAll p (indices.take size) m [] used (.nil unlocked) alignedHere few
  obtain ⟨sequence, origins, free⟩ := released gentle safe
    (sharedFlags ((fetchAll p m (indices.take size)).entries.map
      (fetchAll p m (indices.take size)).machine.verts) = 0)
  exact ⟨same, free, fun fresh =>
    (keeps fresh).same (sequence.trans safe.sequence.symm) origins⟩

private theorem origins_of_fresh (gentle : Gentle render) (hsize : size ≤ 3)
    (aligned : start.sequence % indexSeq = 0) (n : Nat) :
    ∀ (m : Machine) (used indices : List Index), Kept p start m used →
    (∀ slot, (m.verts slot).locked = false) → Fresh p start used (indices.take (size * n)) →
    (drawPrimitives p size render n m indices).origins = separatePrimitives p size indices n := by
  induction n with
  | zero => exact fun _ _ _ _ _ _ => rfl
  | succ n ih =>
    intro m used indices kept unlocked fresh
    rw [Nat.mul_add, Nat.mul_one, Nat.add_comm, List.take_add, fresh_append] at fresh
    obtain ⟨same, free, keeps⟩ := primitive_kept gentle hsize aligned indices kept unlocked
    rw [origins_succ, separatePrimitives_succ, same.mpr fresh.1]
    congr 1
    exact ih _ _ _ (keeps fresh.1) free fresh.2

theorem rendered_inside (inside : ∀ i, (vertexOf p i).outside = 0) {indices : List Index}
    (some : indices ≠ []) : rendered (indices.map (vertexOf p)) = [indices.map (vertexOf p)] := by
  rw [rendered, if_pos]
  cases indices with
  | nil => exact absurd rfl some
  | cons i indices =>
    rw [List.map_cons, sharedOutside, inside]
    exact BitVec.zero_and

private theorem separatePrimitives_length (inside : ∀ i, (vertexOf p i).outside = 0)
    (hpos : 0 < size) (n : Nat) : ∀ indices : List Index, size * n ≤ indices.length →
    (separatePrimitives p size indices n).length = n := by
  induction n with
  | zero => exact fun _ _ => rfl
  | succ n ih =>
    intro indices long
    rw [Nat.mul_add, Nat.mul_one] at long
    have some : indices.take size ≠ [] := by
      rw [← List.length_pos_iff, List.length_take]
      omega
    rw [separatePrimitives_succ, rendered_inside inside some, List.length_append,
      ih _ (by rw [List.length_drop]; omega), List.length_singleton, Nat.add_comm]

private theorem fresh_of_origins (gentle : Gentle render) (hpos : 0 < size) (hsize : size ≤ 3)
    (aligned : start.sequence % indexSeq = 0) (inside : ∀ i, (vertexOf p i).outside = 0) (n : Nat) :
    ∀ (m : Machine) (used indices : List Index), Kept p start m used →
    (∀ slot, (m.verts slot).locked = false) → size * n ≤ indices.length →
    (drawPrimitives p size render n m indices).origins = separatePrimitives p size indices n →
    Fresh p start used (indices.take (size * n)) := by
  induction n with
  | zero => exact fun _ _ _ _ _ _ _ => trivial
  | succ n ih =>
    intro m used indices kept unlocked long drawn
    obtain ⟨same, free, keeps⟩ := primitive_kept gentle hsize aligned indices kept unlocked
    rw [Nat.mul_add, Nat.mul_one] at long
    rw [Nat.mul_add, Nat.mul_one, Nat.add_comm, List.take_add, fresh_append]
    have some : indices.take size ≠ [] := by
      rw [← List.length_pos_iff, List.length_take]
      omega
    have longRest : size * n ≤ (indices.drop size).length := by
      rw [List.length_drop]
      omega
    rw [origins_succ, separatePrimitives_succ, rendered_inside inside some] at drawn
    -- each primitive is rendered, so the calls agree one by one
    have lengths := congrArg List.length drawn
    rw [List.length_append, List.length_append, List.length_singleton,
      separatePrimitives_length inside hpos n _ longRest] at lengths
    have one := rendered_length (fetchAll p m (indices.take size)).origins
    have others : (drawPrimitives p size render n
        (afterPrimitive render (fetchAll p m (indices.take size)))
        (indices.drop size)).origins.length ≤ n := origins_length n _ _
    obtain ⟨first, rest⟩ := List.append_inj drawn (by rw [List.length_singleton]; omega)
    have right : (fetchAll p m (indices.take size)).origins =
        (indices.take size).map (vertexOf p) := by
      rw [rendered] at first
      split_ifs at first
      exact List.head_eq_of_cons_eq first
    have fresh := same.mp right
    exact ⟨fresh, ih _ _ _ (keeps fresh) free longRest rest⟩

end Primitives

theorem noneStale_of_fresh {start : Machine} {indices : List Index}
    (fresh : ∀ x ∈ [0, 0x10000], Fresh (everywhere x) start [] indices) :
    NoneStale start indices := by
  intro pre i hpre first tag
  obtain ⟨post, rfl⟩ := hpre
  have right (x : Int) (hx : x ∈ [0, 0x10000]) :
      (origin (start.verts (cacheSlot i))).untagged = vertexOf (everywhere x) i := by
    have here := fresh x hx
    rw [List.append_assoc, fresh_append, List.nil_append] at here
    by_contra wrong
    exact here.2.1 ⟨first, tag, wrong⟩
  exact everywhere_ne i ((right 0 (by simp)).symm.trans (right 0x10000 (by simp)))

def wholePrimitives (size : Nat) (indices : List Index) : List Index :=
  indices.take (size * (indices.length / size))

/-- The renderer gets the vertices of each primitive's own indices, for all arrays, exactly if none
of the entries is stale. -/
theorem drawIndexed_iff (calls : List DrawCall) {size : Nat} (hpos : 0 < size) (hsize : size ≤ 3)
    {render : Renderer} (gentle : Gentle render) (indices : List Index) :
    (∀ p, (drawIndexed p size render (begun calls) indices).origins =
        separatePrimitives p size indices (indices.length / size)) ↔
      NoneStale (begun calls) (wholePrimitives size indices) := by
  obtain ⟨aligned, -, unlocked⟩ := quiet_begun calls
  constructor
  · intro drawn
    apply noneStale_of_fresh
    intro x _
    exact fresh_of_origins gentle hpos hsize aligned (everywhere_outside x) _ _ []
      indices (.nil _) unlocked (Nat.mul_div_le indices.length size) (drawn (everywhere x))
  · intro none p
    exact origins_of_fresh gentle hsize aligned _ _ [] indices (.nil _) unlocked
      (fresh_of_noneStale none)

/-- Points, lines and triangles of an index list, in the state that any run of draw calls leaves: no
entry is compiled into while it is locked, and none is locked in the end. The renderer gets the
vertices of each primitive's own indices, for all arrays, exactly if no index that is the first one
in its entry of the cache finds its tag there, left by an earlier draw call. -/
theorem indexed_primitives (calls : List DrawCall) {size : Nat} (hsize : size = 1 ∨ size = 2 ∨ size = 3)
    {render : Renderer} (gentle : Gentle render) (indices : List Index) :
    (∀ p, (∀ v ∈ (drawIndexed p size render (begun calls) indices).overwritten, v.locked = false) ∧
      ∀ slot, ((drawIndexed p size render (begun calls) indices).machine.verts slot).locked = false) ∧
    ((∀ p, (drawIndexed p size render (begun calls) indices).origins =
        separatePrimitives p size indices (indices.length / size)) ↔
      NoneStale (begun calls) (wholePrimitives size indices)) := by
  obtain ⟨aligned, -, unlocked⟩ := quiet_begun calls
  refine ⟨fun p => ?_, drawIndexed_iff calls (by omega) (by omega) gentle indices⟩
  exact locks_drawPrimitives gentle (by omega) _ _ indices aligned unlocked

theorem gentle_of_shaded {render : Renderer}
    (h : ∀ m vs, ∃ calls, Primitives.Shaded { m with calls := calls } (render m vs)) :
    Gentle render := by
  refine ⟨?_, ?_, ?_⟩
  · intro m vs slot
    obtain ⟨_, shaded⟩ := h m vs
    have same := shaded.verts slot
    rw [origin, origin, same.clip, same.outside, same.index, same.source]
  · intro m vs slot
    obtain ⟨_, shaded⟩ := h m vs
    exact (shaded.verts slot).locked
  · intro m vs
    obtain ⟨_, shaded⟩ := h m vs
    exact shaded.sequence

theorem gentle_pointRenderer (p : Pipeline) : Gentle (pointRenderer p) := by
  apply gentle_of_shaded
  intro m vs
  match vs with
  | [v] => exact ⟨_, Primitives.shaded_renderPoint p m v⟩
  | [] | _ :: _ :: _ => exact ⟨m.calls, .refl m⟩

theorem gentle_triangleRenderer (p : Pipeline) : Gentle (triangleRenderer p) := by
  apply gentle_of_shaded
  intro m vs
  match vs with
  | [v0, v1, v2] => exact ⟨_, Primitives.shaded_renderTriangle p m v0 v1 v2⟩
  | [] | [_] | [_, _] | _ :: _ :: _ :: _ :: _ => exact ⟨m.calls, .refl m⟩

/-- Two triangles whose indices all map to one entry of the cache. -/
theorem indexed_primitives_colliding :
    (drawIndexed (everywhere 0) 3 (triangleRenderer (everywhere 0)) (begun [])
        [0, 64, 128, 64, 64, 192]).origins =
      separatePrimitives (everywhere 0) 3 [0, 64, 128, 64, 64, 192] 2 := by
  have new : NoneStale (begun []) (wholePrimitives 3 [0, 64, 128, 64, 64, 192]) := by
    intro pre i _ _ tag
    have zero : (0 : Int) = (0x10000 + i : Nat) := tag
    omega
  exact (indexed_primitives [] (.inr (.inr rfl)) (gentle_triangleRenderer (everywhere 0))
    [0, 64, 128, 64, 64, 192]).2.mpr new (everywhere 0)

def Indexable : DrawCall → Prop
  | .arrays _ _ first count => first + count ≤ indexSeq
  | .elements _ _ _ => True

theorem tagsFit_of_indexable {call : DrawCall} (h : Indexable call) (m : Machine) :
    TagsFit m call := by
  cases call with
  | elements p mode indices => trivial
  | arrays p mode first count =>
    refine .inr fun k hk _ t ht _ => .inl ?_
    have named : first + count ≤ indexSeq := h
    have below : compiledCount mode count ≤ count := by
      unfold compiledCount batched
      grind
    omega

theorem ready_begun {calls : List DrawCall} (small : ∀ call ∈ calls, Indexable call) :
    IndexedTriangles.Ready (begun calls) := by
  have ready := IndexedTriangles.ready_after_run
    (Lib.GuardedRun.guarded_of_forall fun m call member =>
      tagsFit_of_indexable (small call member) m)
  obtain ⟨aligned, unlocked, fresh⟩ := ready
  refine ⟨?_, ?_, ?_⟩
  all_goals
    unfold begun clear
    unfold clear at aligned unlocked fresh
    dsimp only
    split_ifs at aligned unlocked fresh ⊢ <;> assumption

/-- In every run whose arrays have elements that an index can name, points and triangles of an index
list are drawn from the vertices of their own indices. -/
theorem indexed_after_run {calls : List DrawCall} (small : ∀ call ∈ calls, Indexable call)
    (p : Pipeline) (indices : List Index) :
    (drawIndexedPrimitivesPoints p (begun calls) indices =
        (drawIndexed p 1 (pointRenderer p) (begun calls) indices).machine ∧
      (drawIndexed p 1 (pointRenderer p) (begun calls) indices).origins =
        separatePrimitives p 1 indices (indices.length / 1)) ∧
    drawIndexedPrimitivesTriangles p (begun calls) indices =
        (drawIndexed p 3 (triangleRenderer p) (begun calls) indices).machine ∧
      (drawIndexed p 3 (triangleRenderer p) (begun calls) indices).origins =
        separatePrimitives p 3 indices (indices.length / 3) := by
  have fresh (indices : List Index) : NoneStale (begun calls) indices :=
    fun _ i _ _ => (ready_begun small).fresh i
  have points := drawIndexed_iff calls (show 0 < 1 by decide) (by decide) (gentle_pointRenderer p)
    indices
  have triangles := drawIndexed_iff calls (show 0 < 3 by decide) le_rfl (gentle_triangleRenderer p)
    indices
  exact ⟨⟨drawIndexedPrimitivesPoints_eq p (begun calls) indices, points.mpr (fresh _) p⟩,
    drawIndexedPrimitivesTriangles_eq p (begun calls) indices, triangles.mpr (fresh _) p⟩

theorem indexed_after_run_points :
    (drawIndexed (everywhere 0) 3 (triangleRenderer (everywhere 0))
        (begun [.arrays (everywhere 1) .points 5 10]) [7, 71, 8]).origins =
      separatePrimitives (everywhere 0) 3 [7, 71, 8] 1 := by
  have small : ∀ call ∈ [DrawCall.arrays (everywhere 1) .points 5 10], Indexable call := by
    simp [Indexable, indexSeq]
  exact (indexed_after_run small (everywhere 0) [7, 71, 8]).2.2

/-- In every such run, the strip of the indices from `first` on is drawn as the strip of the elements
from `first` on is. -/
theorem strip_after_run {calls : List DrawCall} (small : ∀ call ∈ calls, Indexable call)
    (p : Pipeline) {first count : Nat} (named : first + count ≤ 0x10000) :
    let m := Lib.GuardedRun.run step Machine.init calls
    IndexedTriangles.elementTrace p
        (glDrawElements p m .triangleStrip (IndexedTriangles.indicesFrom first count)) =
      IndexedTriangles.elementTrace p (glDrawArrays p m .triangleStrip first count) := by
  intro m
  have empty : (IndexedTriangles.indicesFrom first count).isEmpty = decide (count = 0) := by
    cases count <;> simp [IndexedTriangles.indicesFrom, List.range']
  have issued : (begun calls).calls = m.calls := by
    unfold begun clear
    dsimp only
    split_ifs <;> rfl
  have traced : IndexedTriangles.elementTrace p (begun calls) =
      IndexedTriangles.elementTrace p { m with draw := m.draw + 1 } := by
    simp only [IndexedTriangles.elementTrace, trace, issued]
  rw [glDrawElements, glDrawArrays, empty]
  split_ifs
  · rfl
  · have indexed := IndexedTriangles.elementTrace_elements p (ready_begun small) named
    rw [traced, ← IndexedTriangles.elementTrace_arrays p _ named] at indexed
    exact indexed

theorem strip_after_run_points :
    let m := Lib.GuardedRun.run step Machine.init [.arrays (everywhere 1) .points 5 10]
    IndexedTriangles.elementTrace (everywhere 0)
        (glDrawElements (everywhere 0) m .triangleStrip (IndexedTriangles.indicesFrom 3 5)) =
      IndexedTriangles.elementTrace (everywhere 0)
        (glDrawArrays (everywhere 0) m .triangleStrip (3 : Nat) 5) :=
  strip_after_run (by simp [Indexable, indexSeq]) (everywhere 0) (show 3 + 5 ≤ 0x10000 by decide)

/-- Nine points from element 65528 on, and then the point of index 0 from another array: the entry
of index 0 still holds the last one of the nine. -/
theorem array_vertex_passed : ¬ ∀ (calls : List DrawCall) (p : Pipeline) (indices : List Index),
    (drawIndexed p 1 (pointRenderer p) (begun calls) indices).origins =
      separatePrimitives p 1 indices (indices.length / 1) := by
  intro all
  have fit (p : Pipeline) (m : Machine) := drawPrimitivesPoints_fit p (show 0 < 9 by decide)
    (by decide) m 65528
  have drawn := all [.arrays (everywhere 0) .points 65528 9] (everywhere 0x10000) [0]
  obtain ⟨aligned, -, unlocked⟩ := quiet_begun [.arrays (everywhere 0) .points 65528 9]
  have fresh := fresh_of_origins (gentle_pointRenderer (everywhere 0x10000)) (by decide) (by decide)
    aligned (everywhere_outside 0x10000) 1 _ [] [0] (.nil _) unlocked (by decide) drawn
  apply fresh.1
  refine ⟨by simp, ?_, ?_⟩
  all_goals
    simp only [begun, Lib.GuardedRun.run_cons, Lib.GuardedRun.run_nil, step, glDrawArrays,
      drawArraysPrims, fit]
    decide +kernel

end RabbitRender.Arrays.IndexedPrimitives
