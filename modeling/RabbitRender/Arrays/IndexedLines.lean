/- RabbitRender/Arrays/IndexedLines
   layer: result
   source: swrender/array.cpp
   digest: The segments of indexed line strips and loops, and the entry that one shares with the next. -/

import RabbitRender.Arrays.IndexedPrimitives

set_option autoImplicit false

namespace RabbitRender.Arrays.IndexedLines

open Vertices Arrays.Compile Arrays.Draw Arrays.CacheCoherence
open Arrays.IndexedTriangles (Held)
open Arrays.Locks Arrays.Fetches Arrays.IndexedPrimitives

variable (p : Pipeline)

/-- What the loop over the indices leaves, its last entry, and what it has passed to the renderer. -/
structure LineRun where
  machine : Machine
  last : Nat
  passed : List (List Vertex)

def passedLine (m : Machine) (v0 v1 : Nat) : List (List Vertex) :=
  if sharedFlags [m.verts v0, m.verts v1] = 0 then [[m.verts v0, m.verts v1]] else []

def renderVisible (render : Renderer) (m : Machine) (v0 v1 : Nat) : Machine :=
  if sharedFlags [m.verts v0, m.verts v1] = 0 then render m [v0, v1] else m

def lineRun (render : Renderer) : Machine → Nat → List Index → LineRun
  | m, v0, [] => ⟨m, v0, []⟩
  | m, v0, i :: indices =>
    let (m, v1) := fetchVertex p m i
    let rest := lineRun render (unlock (renderVisible render m v0 v1) v0) v1 indices
    ⟨rest.machine, rest.last, passedLine m v0 v1 ++ rest.passed⟩

/-- `drawIndexedPrimitivesLineStrip`, with a renderer of its own. -/
def lineStrip (render : Renderer) (m : Machine) : List Index → Drawn
  | i :: j :: indices =>
    let r := lineRun p render (compileElement p m 0 (i : Nat)) 0 (j :: indices)
    ⟨unlock r.machine r.last, r.passed, []⟩
  | _ => ⟨m, [], []⟩

/-- `drawIndexedPrimitivesLineLoop`, with a renderer of its own. -/
def lineLoop (render : Renderer) (m : Machine) (indices : List Index) : Drawn :=
  match indices with
  | i :: j :: k :: indices =>
    let r := lineRun p render (compileElement p m 0 (i : Nat)) 0 (j :: k :: indices)
    let m := unlock r.machine r.last
    ⟨renderVisible render m r.last 0, r.passed ++ passedLine m r.last 0, []⟩
  | _ => drawIndexed p 2 render m indices

private theorem renderVisible_eq (m : Machine) (v0 v1 : Nat) :
    renderVisible (lineRenderer p) m v0 v1 =
      if (m.verts v0).flags &&& (m.verts v1).flags &&& clipAll = 0 then
        Primitives.renderLine p m v0 v1 else m := by
  have flags : sharedFlags [m.verts v0, m.verts v1] =
      (m.verts v0).flags &&& (m.verts v1).flags &&& clipAll := (BitVec.and_assoc ..).symm
  rw [renderVisible, flags]
  rfl

private theorem indexedLineRun_eq (m : Machine) (v0 : Nat) (indices : List Index) :
    indexedLineRun p m v0 indices = ((lineRun p (lineRenderer p) m v0 indices).machine,
      (lineRun p (lineRenderer p) m v0 indices).last) := by
  induction indices generalizing m v0 with
  | nil => rfl
  | cons i indices ih =>
    simp only [indexedLineRun, lineRun, renderVisible_eq, ih]

theorem drawIndexedPrimitivesLineStrip_eq (m : Machine) : ∀ indices : List Index,
    drawIndexedPrimitivesLineStrip p m indices = (lineStrip p (lineRenderer p) m indices).machine
  | i :: j :: indices => by
    simp only [drawIndexedPrimitivesLineStrip, lineStrip, indexedLineRun_eq]
  | [] => rfl
  | [_] => rfl

theorem drawIndexedPrimitivesLineLoop_eq (m : Machine) : ∀ indices : List Index,
    drawIndexedPrimitivesLineLoop p m indices = (lineLoop p (lineRenderer p) m indices).machine
  | i :: j :: k :: indices => by
    simp only [drawIndexedPrimitivesLineLoop, lineLoop, indexedLineRun_eq, renderVisible_eq]
  | [] => drawIndexedPrimitivesLines_eq p m []
  | [i] => drawIndexedPrimitivesLines_eq p m [i]
  | [i, j] => drawIndexedPrimitivesLines_eq p m [i, j]

/-- The entry held after index `i`: a hit of the held entry itself leaves it unlocked, and a locked
one of another index sends `i` to the buffer. -/
def nextHeld (h : Held) (i : Index) : Held :=
  if h.resident = some i then ⟨some i, false⟩
  else if h.contends i then ⟨none, true⟩
  else ⟨some i, true⟩

def LastKept : Held → List Index → Prop
  | _, [] => True
  | h, i :: indices => (h.contends i → h.locked) ∧ LastKept (nextHeld h i) indices

instance decidableLastKept : ∀ (h : Held) (indices : List Index), Decidable (LastKept h indices)
  | _, [] => .isTrue trivial
  | h, i :: indices =>
    have := decidableLastKept (nextHeld h i) indices
    inferInstanceAs (Decidable (_ ∧ _))

/-- Entry `slot` is held, with the vertex of index `x`; nothing else is locked. -/
structure Holds (m : Machine) (slot : Nat) (h : Held) (x : Index) (used : List Index) : Prop where
  aligned : m.sequence % indexSeq = 0
  buffer : h.resident = none → slot < 8
  cache : ∀ y, h.resident = some y → y = x ∧ slot = cacheSlot y ∧ y ∈ used ∧
    (m.verts slot).index = (m.sequence + y : Nat) ∧ (m.verts slot).locked = h.locked
  locks : ∀ other, (m.verts other).locked = true → other = slot

section Step

variable {p} {start m r : Machine} {slot v : Nat} {h : Held} {x i : Index} {used : List Index}
  {render : Renderer}

private theorem Holds.contends_iff (holds : Holds m slot h x used) :
    h.contends i = true ↔ h.resident = some x ∧ x ≠ i ∧ cacheSlot x = cacheSlot i := by
  rw [Held.contends_iff]
  constructor
  · rintro ⟨y, hy, different, same⟩
    obtain ⟨rfl, -⟩ := holds.cache y hy
    exact ⟨hy, different, same⟩
  · rintro ⟨hx, different, same⟩
    exact ⟨x, hx, different, same⟩

private theorem Holds.locked (holds : Holds m slot h x used)
    (locked : (m.verts (cacheSlot i)).locked = true) :
    h.resident = some x ∧ slot = cacheSlot i ∧ x ∈ used ∧ cacheSlot x = cacheSlot i := by
  have here := holds.locks _ locked
  have bounds := cacheSlot_bounds i
  cases resident : h.resident with
  | none =>
    have := holds.buffer resident
    omega
  | some y =>
    obtain ⟨rfl, place, member, -⟩ := holds.cache y resident
    exact ⟨rfl, here.symm, member, by rw [← place, here]⟩

private theorem Holds.fetched (holds : Holds m slot h x used) (kept : h.contends i → h.locked)
    (found : Hit m r v i ∨ Miss p m r v i) :
    (v = slot → h.resident = some i ∧ v = cacheSlot i ∧ origin (r.verts v) = origin (m.verts v)) ∧
      (h.resident = some i → v = slot) ∧
      (h.resident ≠ some i → (h.contends i = true → v < 8) ∧ (h.contends i = false → v = cacheSlot i)) := by
  have bounds := cacheSlot_bounds i
  have spare := spareSlot_bounds m
  refine ⟨?_, ?_, ?_⟩
  · intro one
    rcases found with hit | miss
    · have taken : (m.verts slot).index = (m.sequence + i : Nat) := by
        rw [← one, hit.place]
        exact hit.tag
      have resident : h.resident = some i := by
        cases res : h.resident with
        | none =>
          have := holds.buffer res
          have := hit.place
          omega
        | some y =>
          obtain ⟨-, -, -, tag, -⟩ := holds.cache y res
          rw [taken] at tag
          rw [Option.some.injEq]
          exact Fin.ext (by omega)
      exact ⟨resident, hit.place, hit.origin⟩
    · exfalso
      rcases miss.place with ⟨here, free⟩ | ⟨there, locked⟩
      · cases res : h.resident with
        | none =>
          have := holds.buffer res
          omega
        | some y =>
          obtain ⟨rfl, place, -, tag, lock⟩ := holds.cache y res
          by_cases same : y = i
          · apply miss.tag
            rw [← here, one, ← same]
            exact tag
          · have contends : h.contends i = true :=
              holds.contends_iff.mpr ⟨res, same, by rw [← place, ← one, here]⟩
            rw [← one, here, free] at lock
            exact absurd (kept contends) (by rw [← lock]; decide)
      · obtain ⟨-, place, -⟩ := holds.locked locked
        omega
  · intro resident
    obtain ⟨rfl, place, -, tag, -⟩ := holds.cache i resident
    rcases found with hit | miss
    · rw [hit.place, place]
    · exact absurd (place ▸ tag) miss.tag
  · intro other
    refine ⟨?_, ?_⟩
    · intro contends
      obtain ⟨resident, different, same⟩ := holds.contends_iff.mp contends
      obtain ⟨-, place, -, tag, lock⟩ := holds.cache x resident
      rcases found with hit | miss
      · have old := hit.tag
        rw [← same, ← place, tag] at old
        exact absurd (Fin.ext (by omega)) different
      · rcases miss.place with ⟨-, free⟩ | ⟨there, -⟩
        · rw [← same, ← place, lock, kept contends] at free
          exact absurd free (by decide)
        · omega
    · intro alone
      rcases found with hit | miss
      · exact hit.place
      · rcases miss.place with ⟨here, -⟩ | ⟨-, locked⟩
        · exact here
        · obtain ⟨resident, -, -, same⟩ := holds.locked locked
          have different : x ≠ i := fun equal => other (equal ▸ resident)
          rw [holds.contends_iff.mpr ⟨resident, different, same⟩] at alone
          exact absurd alone (by decide)

private theorem segment_kept (gentle : Gentle render) (m : Machine) (v0 v1 : Nat) :
    let r := unlock (renderVisible render m v0 v1) v0
    r.sequence = m.sequence ∧ (∀ slot, origin (r.verts slot) = origin (m.verts slot)) ∧
      ∀ slot, (r.verts slot).locked = true ↔ (m.verts slot).locked = true ∧ slot ≠ v0 := by
  have drawn := gentle.ite (sharedFlags [m.verts v0, m.verts v1] = 0)
  refine ⟨drawn.sequence m [v0, v1], ?_, ?_⟩
  · intro slot
    rw [← drawn.origin m [v0, v1] slot]
    by_cases one : slot = v0
    · rw [one, unlock, Machine.set_same]
      rfl
    · rw [unlock, Machine.set_other _ _ _ one]
      rfl
  · intro slot
    rw [← drawn.locked m [v0, v1] slot]
    by_cases one : slot = v0
    · rw [one, unlock, Machine.set_same]
      simp
    · rw [unlock, Machine.set_other _ _ _ one]
      simp only [ne_eq, one, not_false_eq_true, and_true]
      rfl

private theorem Holds.next (gentle : Gentle render) (holds : Holds m slot h x used)
    (kept : h.contends i → h.locked) (fetched : Fetched m r v i)
    (found : Hit m r v i ∨ Miss p m r v i) :
    Holds (unlock (renderVisible render r slot v) slot) v (nextHeld h i) i (used ++ [i]) := by
  obtain ⟨again, resident, others⟩ := holds.fetched kept found
  obtain ⟨sequence, origins, locks⟩ := segment_kept gentle r slot v
  set w := unlock (renderVisible render r slot v) slot
  have tag : (w.verts v).index = (w.sequence + i : Nat) := by
    rw [sequence, fetched.sequence]
    exact (congrArg Origin.index (origins v)).trans fetched.index
  have lock : (w.verts v).locked = true ↔ v ≠ slot := by
    rw [locks, fetched.locked]
    simp
  refine ⟨by rw [sequence, fetched.sequence]; exact holds.aligned, ?_, ?_, ?_⟩
  · intro none
    unfold nextHeld at none
    split_ifs at none with same contends
    exact (others same).1 contends
  · intro y hy
    unfold nextHeld at hy ⊢
    split_ifs at hy ⊢ with same contends
    · obtain rfl := Option.some.inj hy
      refine ⟨rfl, (again (resident same)).2.1, by simp, tag, ?_⟩
      rw [Bool.eq_false_iff]
      exact fun locked => lock.mp locked (resident same)
    · obtain rfl := Option.some.inj hy
      refine ⟨rfl, (others same).2 (by simpa using contends), by simp, tag, ?_⟩
      exact lock.mpr fun one => same (again one).1
  · intro other locked
    obtain ⟨before, different⟩ := (locks other).mp locked
    by_contra elsewhere
    rw [fetched.others other elsewhere] at before
    exact different (holds.locks other before)

/-- The segments from each vertex to the next as they are passed to the renderer. -/
def segments (p : Pipeline) (indices : List Index) : List (List Origin) :=
  (indices.zip indices.tail).flatMap fun ends => rendered [vertexOf p ends.1, vertexOf p ends.2]

private theorem segments_cons (x i : Index) (indices : List Index) :
    segments p (x :: i :: indices) =
      rendered [vertexOf p x, vertexOf p i] ++ segments p (i :: indices) := rfl

def origins (passed : List (List Vertex)) : List (List Origin) :=
  passed.map (List.map fun v => (origin v).untagged)

private theorem origins_passedLine (m : Machine) (v0 v1 : Nat) : origins (passedLine m v0 v1) =
    rendered [(origin (m.verts v0)).untagged, (origin (m.verts v1)).untagged] := by
  rw [passedLine, rendered, sharedFlags_eq, List.map_cons, List.map_cons, List.map_nil]
  split_ifs <;> rfl

private theorem origins_lineRun (m : Machine) (v0 : Nat) (i : Index) (indices : List Index) :
    let f := fetchVertex p m i
    origins (lineRun p render m v0 (i :: indices)).passed =
      rendered [(origin (f.1.verts v0)).untagged, (origin (f.1.verts f.2)).untagged] ++
        origins (lineRun p render (unlock (renderVisible render f.1 v0 f.2) v0) f.2 indices).passed := by
  intro f
  rw [← origins_passedLine]
  exact List.map_append

private theorem lineRun_first (gentle : Gentle render) (indices : List Index) :
    ∀ (m : Machine) (slot : Nat), m.sequence % indexSeq = 0 →
    origin ((lineRun p render m slot indices).machine.verts 0) = origin (m.verts 0) := by
  induction indices with
  | nil => exact fun _ _ _ => rfl
  | cons i indices ih =>
    intro m slot aligned
    obtain ⟨fetched, found⟩ := fetchVertex_cases p aligned i
    set f := fetchVertex p m i with hf
    obtain ⟨sequence, same, -⟩ := segment_kept gentle f.1 slot f.2
    have elsewhere : 0 ≠ f.2 := by
      have bounds := cacheSlot_bounds i
      have spare := spareSlot_bounds m
      rcases found with hit | miss
      · have := hit.place
        omega
      · rcases miss.place with ⟨here, -⟩ | ⟨there, -⟩ <;> omega
    have rest := ih (unlock (renderVisible render f.1 slot f.2) slot) f.2
      (by rw [sequence, fetched.sequence]; exact aligned)
    rw [same, fetched.others 0 elsewhere] at rest
    exact rest

private theorem Holds.ends (holds : Holds m slot h x used) (kept : h.contends i → h.locked)
    (fetched : Fetched m r v i) (found : Hit m r v i ∨ Miss p m r v i)
    (start : (origin (m.verts slot)).untagged = vertexOf p x) :
    (origin (r.verts slot)).untagged = vertexOf p x := by
  by_cases one : slot = v
  · obtain ⟨-, -, same⟩ := (holds.fetched kept found).1 one.symm
    rw [one, same, ← one, start]
  · rw [fetched.others slot one, start]

private theorem Kept.segment (gentle : Gentle render) (holds : Holds m slot h x used)
    (entries : Kept p start m used) (fetched : Fetched m r v i)
    (found : Hit m r v i ∨ Miss p m r v i)
    (right : (origin (r.verts v)).untagged = vertexOf p i) :
    let w := unlock (renderVisible render r slot v) slot
    Kept p start w (used ++ [i]) ∧ (origin (w.verts v)).untagged = vertexOf p i := by
  obtain ⟨sequence, same, -⟩ := segment_kept gentle r slot v
  have after := entries.after fetched found right fun locked => by
    obtain ⟨-, -, member, slots⟩ := holds.locked locked
    exact ⟨x, member, slots⟩
  exact ⟨after.same sequence same, by rw [same, right]⟩

private theorem lineRun_of_kept (gentle : Gentle render) (indices : List Index) :
    ∀ {m : Machine} {slot : Nat} {h : Held} {x : Index} {used : List Index},
    Kept p start m used → Holds m slot h x used →
    (origin (m.verts slot)).untagged = vertexOf p x → LastKept h indices →
    Fresh p start used indices →
    let r := lineRun p render m slot indices
    origins r.passed = segments p (x :: indices) ∧
      (origin (r.machine.verts r.last)).untagged =
        vertexOf p ((x :: indices).getLast (List.cons_ne_nil x indices)) := by
  induction indices with
  | nil => exact fun _ _ start _ _ => ⟨rfl, start⟩
  | cons i indices ih =>
    intro m slot h x used entries holds begins kept fresh
    obtain ⟨fetched, found⟩ := fetchVertex_cases p holds.aligned i
    have right := (entries.fetched found).mpr fresh.1
    have ends := holds.ends kept.1 fetched found begins
    obtain ⟨later, start⟩ := Kept.segment gentle holds entries fetched found right
    have next := holds.next gentle kept.1 fetched found
    obtain ⟨rest, last⟩ := ih later next start kept.2 fresh.2
    refine ⟨?_, ?_⟩
    · rw [origins_lineRun, segments_cons, ends, right, rest]
    · rw [List.getLast_cons (List.cons_ne_nil i indices)]
      exact last

private theorem vertexOf_injective {i j : Index} (h : vertexOf p i = vertexOf p j) : i = j := by
  have index := congrArg Origin.index h
  simp only [vertexOf, origin, p.compiled_index] at index
  exact Fin.ext (by omega)

private theorem Holds.disturbed (holds : Holds m slot h x used) (contends : h.contends i = true)
    (unlocked : h.locked = false) (found : Hit m r v i ∨ Miss p m r v i) :
    x ≠ i ∧ v = slot ∧ (origin (r.verts v)).untagged = vertexOf p i := by
  obtain ⟨resident, different, same⟩ := holds.contends_iff.mp contends
  obtain ⟨-, place, -, tag, lock⟩ := holds.cache x resident
  refine ⟨different, ?_⟩
  rcases found with hit | miss
  · have old := hit.tag
    rw [← same, ← place, tag] at old
    exact absurd (Fin.ext (by omega)) different
  · rcases miss.place with ⟨here, -⟩ | ⟨-, locked⟩
    · exact ⟨by rw [here, place, same], miss.origin⟩
    · rw [← same, ← place, lock, unlocked] at locked
      exact absurd locked (by decide)

private theorem rendered_two (inside : ∀ i, (vertexOf p i).outside = 0) (i j : Index) :
    rendered [vertexOf p i, vertexOf p j] = [[vertexOf p i, vertexOf p j]] :=
  rendered_inside inside (List.cons_ne_nil i [j])

private theorem segments_length (inside : ∀ i, (vertexOf p i).outside = 0) (x : Index)
    (indices : List Index) : (segments p (x :: indices)).length = indices.length := by
  induction indices generalizing x with
  | nil => rfl
  | cons i indices ih =>
    rw [segments_cons, rendered_two inside, List.length_append, ih, List.length_singleton,
      List.length_cons, Nat.add_comm]

private theorem lineRun_length (indices : List Index) : ∀ (m : Machine) (slot : Nat),
    (origins (lineRun p render m slot indices).passed).length ≤ indices.length := by
  induction indices with
  | nil => exact fun _ _ => Nat.le_refl 0
  | cons i indices ih =>
    intro m slot
    have rest := ih (unlock (renderVisible render (fetchVertex p m i).1 slot (fetchVertex p m i).2) slot)
      (fetchVertex p m i).2
    have one := rendered_length [(origin ((fetchVertex p m i).1.verts slot)).untagged,
      (origin ((fetchVertex p m i).1.verts (fetchVertex p m i).2)).untagged]
    rw [origins_lineRun, List.length_append, List.length_cons]
    omega

private theorem kept_of_lineRun (gentle : Gentle render) (inside : ∀ i, (vertexOf p i).outside = 0)
    (indices : List Index) : ∀ {m : Machine} {slot : Nat} {h : Held} {x : Index} {used : List Index},
    Kept p start m used → Holds m slot h x used →
    (origin (m.verts slot)).untagged = vertexOf p x →
    origins (lineRun p render m slot indices).passed = segments p (x :: indices) →
    LastKept h indices ∧ Fresh p start used indices := by
  induction indices with
  | nil => exact fun _ _ _ _ => ⟨trivial, trivial⟩
  | cons i indices ih =>
    intro m slot h x used entries holds begins drawn
    obtain ⟨fetched, found⟩ := fetchVertex_cases p holds.aligned i
    have one := rendered_length [(origin ((fetchVertex p m i).1.verts slot)).untagged,
      (origin ((fetchVertex p m i).1.verts (fetchVertex p m i).2)).untagged]
    have others : (origins (lineRun p render
        (unlock (renderVisible render (fetchVertex p m i).1 slot (fetchVertex p m i).2) slot)
        (fetchVertex p m i).2 indices).passed).length ≤ indices.length :=
      lineRun_length indices _ _
    rw [origins_lineRun, segments_cons, rendered_two inside] at drawn
    have lengths := congrArg List.length drawn
    rw [List.length_append, List.length_append, List.length_singleton,
      segments_length inside] at lengths
    obtain ⟨first, rest⟩ := List.append_inj drawn (by rw [List.length_singleton]; omega)
    have ends : (origin ((fetchVertex p m i).1.verts slot)).untagged = vertexOf p x ∧
        (origin ((fetchVertex p m i).1.verts (fetchVertex p m i).2)).untagged = vertexOf p i := by
      rw [rendered] at first
      split_ifs at first
      simp only [List.cons.injEq, and_true] at first
      exact first
    have kept : h.contends i → h.locked := by
      intro contends
      by_contra unlocked
      obtain ⟨different, same, taken⟩ := holds.disturbed contends (by simpa using unlocked) found
      rw [same] at taken
      exact different (vertexOf_injective (ends.1.symm.trans taken))
    have fresh := (entries.fetched found).mp ends.2
    obtain ⟨later, start⟩ := Kept.segment gentle holds entries fetched found ends.2
    obtain ⟨restKept, restFresh⟩ := ih later (holds.next gentle kept fetched found) start rest
    exact ⟨⟨kept, restKept⟩, ⟨fresh, restFresh⟩⟩

end Step

/-- No index after the first one takes the entry that the segment before it ends in, and none that
is the first in its entry of the cache finds its tag there. -/
def StripIntact (m : Machine) : List Index → Prop
  | _ :: j :: indices => LastKept .buffer (j :: indices) ∧ NoneStale m (j :: indices)
  | _ => True

def LoopIntact (m : Machine) : List Index → Prop
  | i :: j :: k :: indices => StripIntact m (i :: j :: k :: indices)
  | indices => NoneStale m (wholePrimitives 2 indices)

/-- The segments of a loop: from three vertices on, one goes back to the first vertex. -/
def loopSegments (p : Pipeline) : List Index → List (List Origin)
  | i :: j :: k :: indices => segments p (i :: j :: k :: indices) ++
      rendered [vertexOf p ((j :: k :: indices).getLast (List.cons_ne_nil _ _)), vertexOf p i]
  | indices => segments p indices

section Results

variable {p} {m : Machine} {render : Renderer} {i : Index}

private theorem first_compiled (quiet : Quiet m) (i : Index) :
    Kept p m (compileElement p m 0 (i : Nat)) [] ∧
      Holds (compileElement p m 0 (i : Nat)) 0 .buffer i [] ∧
      (origin ((compileElement p m 0 (i : Nat)).verts 0)).untagged = vertexOf p i := by
  have elsewhere (slot : Nat) (h : slot ≠ 0) :
      (compileElement p m 0 (i : Nat)).verts slot = m.verts slot := by
    rw [compileElement, compileAt_other _ _ _ _ _ h]
  have low : (i : Nat) % indexSeq = i := Nat.mod_eq_of_lt i.isLt
  refine ⟨⟨rfl, fun _ touched => absurd touched (by simp), ?_⟩, ⟨quiet.aligned, fun _ => ?_, ?_, ?_⟩, ?_⟩
  · intro k _
    have := cacheSlot_bounds k
    rw [elsewhere _ (by omega)]
  · decide
  · exact fun _ resident => absurd resident (by simp [Held.buffer])
  · intro other locked
    rw [compileElement_locked, quiet.unlocked] at locked
    exact absurd locked (by decide)
  · rw [compileElement, compileAt_same, elementOf_natCast, low, origin_compileVertex]
    exact untagged_compiled p low

private theorem strip_of_intact (gentle : Gentle render) (quiet : Quiet m) {j : Index}
    {indices : List Index} (intact : StripIntact m (i :: j :: indices)) :
    let r := lineRun p render (compileElement p m 0 (i : Nat)) 0 (j :: indices)
    origins r.passed = segments p (i :: j :: indices) ∧
      (origin (r.machine.verts r.last)).untagged =
        vertexOf p ((j :: indices).getLast (List.cons_ne_nil j indices)) ∧
      (origin (r.machine.verts 0)).untagged = vertexOf p i := by
  obtain ⟨entries, holds, begins⟩ := @first_compiled p m quiet i
  obtain ⟨drawn, last⟩ := lineRun_of_kept gentle (j :: indices) entries holds begins intact.1
    (fresh_of_noneStale intact.2)
  rw [List.getLast_cons (List.cons_ne_nil j indices)] at last
  refine ⟨drawn, last, ?_⟩
  rw [lineRun_first gentle (j :: indices) _ 0 holds.aligned, begins]

private theorem intact_of_strip (gentle : Gentle render) (quiet : Quiet m) {j : Index}
    {indices : List Index} (drawn : ∀ x, origins (lineRun (everywhere x) render
        (compileElement (everywhere x) m 0 (i : Nat)) 0 (j :: indices)).passed =
      segments (everywhere x) (i :: j :: indices)) : StripIntact m (i :: j :: indices) := by
  have both (x : Int) : LastKept .buffer (j :: indices) ∧
      Fresh (everywhere x) m [] (j :: indices) := by
    obtain ⟨entries, holds, begins⟩ := @first_compiled (everywhere x) m quiet i
    exact kept_of_lineRun gentle (everywhere_outside x) (j :: indices) entries holds begins
      (drawn x)
  exact ⟨(both 0).1, noneStale_of_fresh fun x _ => (both x).2⟩

private theorem origins_lineLoop (j k : Index) (indices : List Index) :
    let r := lineRun p render (compileElement p m 0 (i : Nat)) 0 (j :: k :: indices)
    (lineLoop p render m (i :: j :: k :: indices)).origins = origins r.passed ++
      rendered [(origin (r.machine.verts r.last)).untagged, (origin (r.machine.verts 0)).untagged] := by
  intro r
  have same (slot : Nat) : origin ((unlock r.machine r.last).verts slot) =
      origin (r.machine.verts slot) := by
    by_cases one : slot = r.last
    · rw [one, unlock, Machine.set_same]
      rfl
    · rw [unlock, Machine.set_other _ _ _ one]
  have closing := origins_passedLine (unlock r.machine r.last) r.last 0
  rw [same, same] at closing
  rw [← closing]
  exact List.map_append

/-- The renderer of lines gets the segments of an indexed strip or loop, for all arrays, exactly if
it is intact. -/
theorem indexed_segments (calls : List DrawCall) {render : Renderer} (gentle : Gentle render)
    (indices : List Index) :
    ((∀ p, (lineStrip p render (begun calls) indices).origins = segments p indices) ↔
      StripIntact (begun calls) indices) ∧
    ((∀ p, (lineLoop p render (begun calls) indices).origins = loopSegments p indices) ↔
      LoopIntact (begun calls) indices) := by
  have quiet := quiet_begun calls
  have separate (few : List Index) (closed : ∀ p, loopSegments p few =
      separatePrimitives p 2 few (few.length / 2)) (draw : ∀ p,
      lineLoop p render (begun calls) few = drawIndexed p 2 render (begun calls) few) :
      (∀ p, (lineLoop p render (begun calls) few).origins = loopSegments p few) ↔
        NoneStale (begun calls) (wholePrimitives 2 few) := by
    simp only [closed, draw]
    exact drawIndexed_iff calls (by decide) (by decide) gentle few
  refine ⟨?_, ?_⟩
  · match indices with
    | i :: j :: indices =>
      refine ⟨fun drawn => ?_, fun intact p => (strip_of_intact gentle quiet intact).1⟩
      exact intact_of_strip gentle quiet fun x => drawn (everywhere x)
    | [] | [_] => exact ⟨fun _ => trivial, fun _ _ => rfl⟩
  · match indices with
    | [] => exact separate [] (fun _ => rfl) fun _ => rfl
    | [i] =>
      refine separate [i] (fun p => ?_) fun _ => rfl
      simp [loopSegments, segments, separatePrimitives, Trace.primitives]
    | [i, j] =>
      refine separate [i, j] (fun p => ?_) fun _ => rfl
      simp [loopSegments, segments, separatePrimitives, Trace.primitives, ownVertices]
    | i :: j :: k :: indices =>
      constructor
      · intro drawn
        apply intact_of_strip gentle quiet
        intro x
        have whole := drawn (everywhere x)
        rw [origins_lineLoop, loopSegments, rendered_two (everywhere_outside x)] at whole
        set r := lineRun (everywhere x) render
          (compileElement (everywhere x) (begun calls) 0 (i : Nat)) 0 (j :: k :: indices) with hr
        have strip : (origins (lineRun (everywhere x) render
            (compileElement (everywhere x) (begun calls) 0 (i : Nat)) 0
            (j :: k :: indices)).passed).length ≤ (j :: k :: indices).length :=
          lineRun_length (j :: k :: indices) _ _
        have closing := rendered_length [(origin (r.machine.verts r.last)).untagged,
          (origin (r.machine.verts 0)).untagged]
        have lengths := congrArg List.length whole
        rw [← hr] at strip
        rw [List.length_append, List.length_append, List.length_singleton,
          segments_length (everywhere_outside x)] at lengths
        refine (List.append_inj whole ?_).1
        rw [segments_length (everywhere_outside x)]
        omega
      · intro intact p
        obtain ⟨strip, last, first⟩ := @strip_of_intact p _ _ i gentle quiet j (k :: indices) intact
        rw [origins_lineLoop, strip, last, first]
        rfl

end Results

theorem gentle_nop : Gentle fun m _ => m :=
  ⟨fun _ _ _ => rfl, fun _ _ _ => rfl, fun _ _ => rfl⟩

/-- A strip and a loop whose indices all map to one entry of the cache, with a repetition. -/
theorem indexed_segments_colliding :
    (lineStrip (everywhere 0) (fun m _ => m) (begun []) [0, 64, 128, 128, 64]).origins =
        segments (everywhere 0) [0, 64, 128, 128, 64] ∧
      (lineLoop (everywhere 0) (fun m _ => m) (begun []) [0, 64, 128, 128, 64]).origins =
        loopSegments (everywhere 0) [0, 64, 128, 128, 64] := by
  have new : NoneStale (begun []) [64, 128, 128, 64] := by
    intro pre i _ _ tag
    have zero : (0 : Int) = (0x10000 + i : Nat) := tag
    omega
  have intact : StripIntact (begun []) [0, 64, 128, 128, 64] := ⟨by decide, new⟩
  obtain ⟨strip, loop⟩ := indexed_segments [] gentle_nop [0, 64, 128, 128, 64]
  exact ⟨strip.mpr intact (everywhere 0), loop.mpr intact (everywhere 0)⟩

/-- The repetition of index 2 unlocks its entry, and index 66 takes it: the last segment goes from
66 to 66. -/
theorem strip_end_taken : ¬ ∀ (p : Pipeline) (indices : List Index),
    (lineStrip p (fun m _ => m) (begun []) indices).origins = segments p indices := by
  intro drawn
  have intact := @intact_of_strip (begun []) _ 0 gentle_nop (quiet_begun []) 2 [2, 66] fun x =>
    drawn (everywhere x) [0, 2, 2, 66]
  have kept := intact.1
  revert kept
  decide

end RabbitRender.Arrays.IndexedLines
