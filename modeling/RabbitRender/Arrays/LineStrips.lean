/- RabbitRender/Arrays/LineStrips
   layer: result
   source: swrender/array.cpp, swrender/primitives.cpp
   digest: The segments of line strips and loops drawn from arrays, and what clipping does to them. -/

import RabbitRender.Arrays.Draw
import RabbitRender.Arrays.SegmentEnds
import RabbitRender.Arrays.Trace
import RabbitRender.Lib.KeyedOptions

set_option autoImplicit false

namespace RabbitRender.Arrays.LineStrips

open Lib.KeyedOptions Vertices Arrays.Compile Arrays.Draw Arrays.SegmentEnds Arrays.Trace Primitives

variable (p : Pipeline)

def segment (u w : Vertex) : Option (Vertex × Vertex) :=
  if u.outside &&& w.outside = 0 then some (u, w) else none

/-- What the entry of `w` holds after the segment from `u`. -/
def afterSegment (u w : Vertex) : Vertex :=
  if u.outside &&& w.outside = 0 then (clipLine p u w).2.2 else w

def segmentShape : Option (Vertex × Vertex) → Option (Shape × Shape) :=
  Option.map (Prod.map p.seen p.seen)

variable {u u' w : Vertex} {s n : Nat}

theorem segment_congr (h : p.seen u = p.seen u') (w : Vertex) :
    segmentShape p (segment u w) = segmentShape p (segment u' w) := by
  simp only [segment, Pipeline.outside_congr h]
  split_ifs
  · simp [segmentShape, h]
  · rfl

theorem afterSegment_congr (h : p.seen u = p.seen u') (w : Vertex) :
    p.seen (afterSegment p u w) = p.seen (afterSegment p u' w) := by
  simp only [afterSegment, Pipeline.outside_congr h]
  split_ifs
  · exact (clipLine_congr p h rfl).stop
  · rfl

/-- The end of an issued segment stays what it is, unless the segment leaves the volume there:
then the end loses its flags. -/
private theorem afterSegment_compiled (element element' : Nat) (index index' : Int) :
    let u := p.compiled element index
    let w := p.compiled element' index'
    (¬(u.outside &&& w.outside = 0 ∧ ExitClipped p u w) → afterSegment p u w = w) ∧
      (u.outside &&& w.outside = 0 ∧ ExitClipped p u w →
        (afterSegment p u w).outside = 0 ∧ w.outside ≠ 0) := by
  intro u w
  have stop := @clipPlanes_stop p (clippingPlanes u w) u w
  refine ⟨?_, ?_⟩
  · intro h
    rw [afterSegment]
    split_ifs with issued
    · apply stop.1
      rw [Bool.eq_false_iff]
      exact fun exit => h ⟨issued, exit⟩
    · rfl
  · rintro ⟨issued, exit⟩
    obtain ⟨inside, plane, member, beyond⟩ := stop.2 exit
    rw [afterSegment, if_pos issued]
    exact ⟨inside, outside_of_distance p member beyond⟩

/-- The segments from `u` to `v (s + 1)`, from there to `v (s + 2)` and so on, and what the last
entry holds. -/
def walk (v : Nat → Vertex) : Nat → Vertex → Nat → List (Option (Vertex × Vertex)) × Vertex
  | 0, u, _ => ([], u)
  | n + 1, u, s =>
    let rest := walk v n (afterSegment p u (v (s + 1))) (s + 1)
    (segment u (v (s + 1)) :: rest.1, rest.2)

def separate (v : Nat → Vertex) (s n : Nat) : List (Option (Vertex × Vertex)) :=
  (List.range' s n).map fun k => segment (v k) (v (k + 1))

theorem separate_succ (v : Nat → Vertex) (s n : Nat) :
    separate v s (n + 1) = segment (v s) (v (s + 1)) :: separate v (s + 1) n := by
  rw [separate, List.range'_succ, List.map_cons]
  rfl

theorem separate_add (v : Nat → Vertex) (s n k : Nat) :
    separate v s (n + k) = separate v s n ++ separate v (s + n) k := by
  rw [separate, separate, separate, ← List.map_append]
  congr 1
  have split := @List.range'_append s n k 1
  rw [Nat.one_mul] at split
  exact split.symm

def SameSegments (a b : List (Option (Vertex × Vertex))) : Prop :=
  a.map (segmentShape p) = b.map (segmentShape p)

theorem walk_congr (v : Nat → Vertex) (h : p.seen u = p.seen u') (n s : Nat) :
    SameSegments p (walk p v n u s).1 (walk p v n u' s).1 ∧
      p.seen (walk p v n u s).2 = p.seen (walk p v n u' s).2 := by
  induction n generalizing u u' s with
  | zero => exact ⟨rfl, h⟩
  | succ n ih =>
    obtain ⟨segments, last⟩ := ih (afterSegment_congr p h (v (s + 1))) (s + 1)
    refine ⟨?_, last⟩
    simp only [SameSegments, walk, List.map_cons, segment_congr p h]
    exact congrArg _ segments

/-- Segment `k` leaves its second vertex as it was compiled. -/
def EndKept (v : Nat → Vertex) (k : Nat) : Prop :=
  (v k).outside &&& (v (k + 1)).outside = 0 → ¬ExitClipped p (v k) (v (k + 1))

/-- Every vertex of the line is compiled from the array, for its own position. -/
def FromArray (v : Nat → Vertex) (first : Int) : Prop :=
  ∀ k, ∃ element, v k = p.compiled element (first + k)

variable {p}
variable {v : Nat → Vertex} {first : Int}

private theorem afterSegment_fresh (hv : FromArray p v first) (k : Nat) :
    (EndKept p v k → afterSegment p (v k) (v (k + 1)) = v (k + 1)) ∧
      (¬EndKept p v k → (afterSegment p (v k) (v (k + 1))).outside = 0 ∧
        (v (k + 1)).outside ≠ 0) := by
  obtain ⟨e, he⟩ := hv k
  obtain ⟨e', he'⟩ := hv (k + 1)
  have compiled := afterSegment_compiled p e e' (first + k) (first + (k + 1 : Nat))
  simp only [← he, ← he'] at compiled
  refine ⟨fun kept => compiled.1 fun h => kept h.1 h.2, fun moved => compiled.2 ?_⟩
  simpa [EndKept] using moved

private theorem segment_ne (inside : u.outside = 0) (flagged : u'.outside ≠ 0) :
    segmentShape p (segment u w) ≠ segmentShape p (segment u' w) := by
  have issued : segment u w = some (u, w) := by
    rw [segment, if_pos]
    rw [inside]
    exact BitVec.zero_and
  rw [issued]
  intro same
  by_cases h : u'.outside &&& w.outside = 0
  · rw [segment, if_pos h] at same
    simp only [segmentShape, Option.map_some, Prod.map, Option.some.injEq, Prod.mk.injEq] at same
    exact flagged (by rw [← Pipeline.outside_congr same.1, inside])
  · rw [segment, if_neg h] at same
    simp [segmentShape] at same

/-- From a compiled vertex, the segments of a batch are the separate ones exactly if each end
that starts another segment is kept. -/
theorem walk_fresh (hv : FromArray p v first) (n s : Nat) :
    (SameSegments p (walk p v n (v s) s).1 (separate v s n) ↔
        ∀ k, s ≤ k → k + 1 < s + n → EndKept p v k) ∧
      ((∀ k, s ≤ k → k < s + n → EndKept p v k) →
        (walk p v n (v s) s).2 = v (s + n)) ∧
      ((∀ k, s ≤ k → k + 1 < s + n → EndKept p v k) → 0 < n → ¬EndKept p v (s + n - 1) →
        (walk p v n (v s) s).2.outside = 0 ∧ (v (s + n)).outside ≠ 0) := by
  induction n generalizing s with
  | zero => exact ⟨⟨fun _ k hk hk' => by omega, fun _ => rfl⟩, fun _ => rfl, fun _ h => by omega⟩
  | succ n ih =>
    obtain ⟨same, last, moved⟩ := ih (s + 1)
    obtain ⟨kept, lost⟩ := afterSegment_fresh hv s
    by_cases here : EndKept p v s
    · have step : walk p v (n + 1) (v s) s =
          (segment (v s) (v (s + 1)) :: (walk p v n (v (s + 1)) (s + 1)).1,
            (walk p v n (v (s + 1)) (s + 1)).2) := by
        rw [walk, kept here]
      have from_s {b : Nat → Prop} (h : ∀ k, s + 1 ≤ k → b k → EndKept p v k) :
          ∀ k, s ≤ k → b k → EndKept p v k := by
        intro k hk hb
        by_cases at_s : k = s
        · exact at_s ▸ here
        · exact h k (by omega) hb
      rw [step, separate_succ]
      refine ⟨?_, ?_, ?_⟩
      · simp only [SameSegments, List.map_cons, List.cons.injEq, true_and]
        rw [show (_ = _) ↔ _ from same]
        exact ⟨fun h => from_s fun k hk hk' => h k hk (by omega),
          fun h k hk hk' => h k (by omega) (by omega)⟩
      · intro h
        rw [last fun k hk hk' => h k (by omega) (by omega)]
        congr 1
        omega
      · intro h _ moved_end
        by_cases none : n = 0
        · subst none
          exact absurd here moved_end
        · have := moved (fun k hk hk' => h k (by omega) (by omega)) (by omega)
            (by rwa [show s + 1 + n - 1 = s + (n + 1) - 1 by omega])
          rwa [show s + 1 + n = s + (n + 1) by omega] at this
    · obtain ⟨inside, flagged⟩ := lost here
      have fails : n ≠ 0 → ¬∀ k, s ≤ k → k + 1 < s + (n + 1) → EndKept p v k :=
        fun hn h => here (h s (Nat.le_refl s) (by omega))
      refine ⟨?_, fun h => absurd (h s (Nat.le_refl s) (by omega)) here, ?_⟩
      · by_cases none : n = 0
        · subst none
          exact ⟨fun _ k hk hk' => by omega, fun _ => rfl⟩
        · refine ⟨?_, fun h => absurd h (fails none)⟩
          intro equal
          obtain ⟨j, rfl⟩ : ∃ j, n = j + 1 := ⟨n - 1, by omega⟩
          rw [separate_succ, separate_succ] at equal
          simp only [SameSegments, walk, List.map_cons, List.cons.injEq] at equal
          exact absurd equal.2.1 (segment_ne inside flagged)
      · intro h _ _
        by_cases none : n = 0
        · subst none
          exact ⟨inside, flagged⟩
        · exact absurd h (fails none)

/-- The planes that `n` vertices after position `s` share, and-ed with `c`. -/
def lineMask (v : Nat → Vertex) (c : Flags) (s n : Nat) : Flags :=
  cullMask c (fun j => (v (s + 1 + j)).outside) n

/-- The position of the vertex in entry 0 after `n` segments: batches of 71 vertices follow
position 0, and one that is rejected leaves the entry alone. -/
def held (v : Nat → Vertex) (n : Nat) : Nat :=
  if _h : n = 0 then 0
  else
    let t := 71 * ((n - 1) / 71)
    if lineMask v (v (held v t)).outside t (n - t) = 0 then n else held v t
termination_by n
decreasing_by all_goals omega

/-- The vertex in entry 0 is the one at `t`, or no segment to `w` is issued from either. -/
def StartHeld (v : Nat → Vertex) (t : Nat) (w : Vertex) : Prop :=
  held v t ≠ t → (v (held v t)).outside &&& w.outside ≠ 0 ∧ (v t).outside &&& w.outside ≠ 0

variable (p) in
/-- The segments of a batch of `n` vertices after position `s`, with `u` in entry 0. -/
def batchSegments (v : Nat → Vertex) (n : Nat) (u : Vertex) (s : Nat) :
    List (Option (Vertex × Vertex)) × Vertex :=
  if lineMask v u.outside s n = 0 then walk p v n u s else (List.replicate n none, u)

variable (p) in
/-- The segments of all batches from position `s` on. -/
def lineSegments (v : Nat → Vertex) (n : Nat) (u : Vertex) (s : Nat) :
    List (Option (Vertex × Vertex)) × Vertex :=
  if _h : n = 0 then ([], u)
  else
    let batch := batchSegments p v (min 71 n) u s
    let rest := lineSegments v (n - min 71 n) batch.2 (s + min 71 n)
    (batch.1 ++ rest.1, rest.2)
termination_by n
decreasing_by omega

private theorem held_batch {s n : Nat} (hs : s % 71 = 0) (hn : 0 < n) (hn71 : n ≤ 71) :
    held v (s + n) =
      if lineMask v (v (held v s)).outside s n = 0 then s + n else held v s := by
  have start : 71 * ((s + n - 1) / 71) = s := by omega
  rw [held, dif_neg (by omega)]
  simp only [start, show s + n - s = n by omega]

private theorem lineMask_segment {c : Flags} (h : lineMask v c s n ≠ 0) :
    (0 < n → c &&& (v (s + 1)).outside ≠ 0) ∧
      ∀ k, s < k → k < s + n → (v k).outside &&& (v (k + 1)).outside ≠ 0 := by
  obtain ⟨start, rest⟩ := cullMask_and c (fun j => (v (s + 1 + j)).outside) n
  have shared {a b : Flags} (ha : lineMask v c s n &&& a = lineMask v c s n)
      (hb : lineMask v c s n &&& b = lineMask v c s n) : a &&& b ≠ 0 := by
    intro none
    apply h
    rw [← ha, ← hb, BitVec.and_assoc, BitVec.and_comm b, none]
    exact BitVec.and_zero
  refine ⟨fun hn => shared start (rest 0 hn), ?_⟩
  intro k hk hkn
  have one := rest (k - s - 1) (by omega)
  have two := rest (k - s) (by omega)
  simp only [show s + 1 + (k - s - 1) = k by omega] at one
  simp only [show s + 1 + (k - s) = k + 1 by omega] at two
  exact shared one two

private theorem endKept_of_culled {k : Nat} (h : (v k).outside &&& (v (k + 1)).outside ≠ 0) :
    EndKept p v k :=
  fun issued => absurd issued h

private theorem segment_none (h : u.outside &&& w.outside ≠ 0) : segment u w = none := by
  rw [segment, if_neg h]

private theorem segmentShape_eq_none (h : segmentShape p (segment u w) = none) :
    u.outside &&& w.outside ≠ 0 := by
  intro issued
  rw [segment, if_pos issued] at h
  simp [segmentShape] at h

private theorem segment_positions (hv : FromArray p v first) {c s : Nat} (h : c ≠ s) {u w : Vertex}
    (hu : p.seen u = p.seen (v c)) :
    segmentShape p (segment u w) = segmentShape p (segment (v s) w) ↔
      (v c).outside &&& w.outside ≠ 0 ∧ (v s).outside &&& w.outside ≠ 0 := by
  rw [segment_congr p hu]
  constructor
  · intro same
    by_cases one : (v c).outside &&& w.outside = 0
    · rw [segment, if_pos one] at same
      by_cases two : (v s).outside &&& w.outside = 0
      · rw [segment, if_pos two] at same
        simp only [segmentShape, Option.map_some, Prod.map, Option.some.injEq, Prod.mk.injEq] at same
        obtain ⟨e, he⟩ := hv c
        obtain ⟨e', he'⟩ := hv s
        have index := (seen_eq_iff.mp same.1).2.2.2.1
        rw [he, he', Pipeline.compiled_index, Pipeline.compiled_index] at index
        omega
      · rw [segment, if_neg two] at same
        simp [segmentShape] at same
    · refine ⟨one, ?_⟩
      rw [segment_none one] at same
      exact segmentShape_eq_none same.symm
  · rintro ⟨one, two⟩
    rw [segment_none one, segment_none two]

def Holding (p : Pipeline) (v : Nat → Vertex) (u : Vertex) (s : Nat) : Prop :=
  p.seen u = p.seen (v (held v s))

def Moved (v : Nat → Vertex) (u : Vertex) (s : Nat) : Prop :=
  u.outside = 0 ∧ (v s).outside ≠ 0

/-- The segments `list` that are drawn from `s` on are the separate ones exactly under `ok`; then
entry 0 holds what it should or the last end was moved. -/
structure Drawn (p : Pipeline) (v : Nat → Vertex) (result : List (Option (Vertex × Vertex)) × Vertex)
    (s n : Nat) (starts : Prop) : Prop where
  same : SameSegments p result.1 (separate v s n) ↔
    starts ∧ ∀ k, s ≤ k → k + 1 < s + n → EndKept p v k
  holding : starts → (∀ k, s ≤ k → k < s + n → EndKept p v k) → Holding p v result.2 (s + n)
  moved : starts → (∀ k, s ≤ k → k + 1 < s + n → EndKept p v k) → ¬EndKept p v (s + n - 1) →
    Moved v result.2 (s + n)

private theorem drawn_rejected (hs : s % 71 = 0) (hn : 0 < n) (hn71 : n ≤ 71) (hu : Holding p v u s)
    (mask : lineMask v u.outside s n ≠ 0) :
    Drawn p v (batchSegments p v n u s) s n (StartHeld v s (v (s + 1))) := by
  have planes : u.outside = (v (held v s)).outside := Pipeline.outside_congr hu
  obtain ⟨first_culled, rest_culled⟩ := lineMask_segment mask
  rw [planes] at first_culled
  have start (h : StartHeld v s (v (s + 1))) : (v s).outside &&& (v (s + 1)).outside ≠ 0 := by
    by_cases same : held v s = s
    · have := first_culled hn
      rwa [same] at this
    · exact (h same).2
  have kept (h : StartHeld v s (v (s + 1))) (k : Nat) (hk : s ≤ k) (hkn : k < s + n) :
      EndKept p v k := by
    by_cases at_s : k = s
    · exact endKept_of_culled (at_s ▸ start h)
    · exact endKept_of_culled (rest_culled k (by omega) hkn)
  rw [batchSegments, if_neg mask]
  refine ⟨⟨?_, ?_⟩, ?_, ?_⟩
  · intro same
    have none (k : Nat) (hk : s ≤ k) (hkn : k < s + n) :
        segmentShape p (segment (v k) (v (k + 1))) = none := by
      simp only [SameSegments, separate, List.map_replicate, List.map_map] at same
      have member : segmentShape p (segment (v k) (v (k + 1))) ∈
          List.replicate n (segmentShape p none) := by
        rw [same]
        exact List.mem_map.mpr ⟨k, List.mem_range'_1.mpr ⟨hk, hkn⟩, rfl⟩
      exact (List.mem_replicate.mp member).2
    have held_start : StartHeld v s (v (s + 1)) :=
      fun _ => ⟨first_culled hn, segmentShape_eq_none (none s (Nat.le_refl s) (by omega))⟩
    exact ⟨held_start, fun k hk hkn => kept held_start k hk (by omega)⟩
  · rintro ⟨h, -⟩
    simp only [SameSegments, separate, List.map_replicate, List.map_map]
    symm
    apply List.eq_replicate_iff.mpr
    refine ⟨by simp, ?_⟩
    intro x hx
    obtain ⟨k, hk, rfl⟩ := List.mem_map.mp hx
    obtain ⟨hk, hkn⟩ := List.mem_range'_1.mp hk
    show segmentShape p (segment (v k) (v (k + 1))) = segmentShape p none
    by_cases at_s : k = s
    · rw [at_s, segment_none (start h)]
    · rw [segment_none (rest_culled k (by omega) hkn)]
  · intro _ _
    rw [Holding, held_batch hs hn hn71, if_neg (planes ▸ mask)]
    exact hu
  · intro h _ moved
    exact absurd (kept h (s + n - 1) (by omega) (by omega)) moved

private theorem drawn_walk (hv : FromArray p v first) (hs : s % 71 = 0) (hn : 0 < n) (hn71 : n ≤ 71)
    (hu : Holding p v u s) (mask : lineMask v u.outside s n = 0) :
    Drawn p v (batchSegments p v n u s) s n (StartHeld v s (v (s + 1))) := by
  have planes : u.outside = (v (held v s)).outside := Pipeline.outside_congr hu
  have now_held : held v (s + n) = s + n := by
    rw [held_batch hs hn hn71, if_pos (planes ▸ mask)]
  rw [batchSegments, if_pos mask]
  by_cases fresh : held v s = s
  · have started : StartHeld v s (v (s + 1)) := fun h => absurd fresh h
    obtain ⟨same, last, moved⟩ := walk_fresh hv n s
    rw [Holding, fresh] at hu
    obtain ⟨segments, final⟩ := walk_congr p v hu n s
    refine ⟨?_, ?_, ?_⟩
    · rw [SameSegments, segments, ← SameSegments, same]
      exact ⟨fun h => ⟨started, h⟩, fun h => h.2⟩
    · intro _ h
      rw [Holding, final, last h, now_held]
    · intro _ h end_moved
      obtain ⟨inside, flagged⟩ := moved h hn end_moved
      exact ⟨by rw [Pipeline.outside_congr final, inside], flagged⟩
  · -- the start is stale: only the segments from `s + 1` on can be right
    obtain ⟨j, rfl⟩ : ∃ j, n = j + 1 := ⟨n - 1, by omega⟩
    obtain ⟨same, last, moved⟩ := walk_fresh hv j (s + 1)
    have firstSegment := @segment_positions p v first hv (held v s) s fresh u (v (s + 1)) hu
    have next (h : StartHeld v s (v (s + 1))) :
        walk p v (j + 1) u s = (segment u (v (s + 1)) :: (walk p v j (v (s + 1)) (s + 1)).1,
          (walk p v j (v (s + 1)) (s + 1)).2) := by
      rw [walk, afterSegment, if_neg (planes ▸ (h fresh).1)]
    have from_s (h : StartHeld v s (v (s + 1))) : EndKept p v s := endKept_of_culled (h fresh).2
    refine ⟨⟨?_, ?_⟩, ?_, ?_⟩
    · intro equal
      have equal' := equal
      rw [separate_succ] at equal'
      simp only [SameSegments, walk, List.map_cons, List.cons.injEq] at equal'
      have started : StartHeld v s (v (s + 1)) := fun _ => firstSegment.mp equal'.1
      rw [next started, separate_succ] at equal
      simp only [SameSegments, List.map_cons, List.cons.injEq] at equal
      refine ⟨started, fun k hk hkn => ?_⟩
      by_cases at_s : k = s
      · exact at_s ▸ from_s started
      · exact same.mp equal.2 k (by omega) (by omega)
    · rintro ⟨started, kept⟩
      rw [next started, separate_succ]
      simp only [SameSegments, List.map_cons, List.cons.injEq]
      exact ⟨firstSegment.mpr (started fresh), same.mpr fun k hk hkn => kept k (by omega) (by omega)⟩
    · intro started h
      rw [next started, Holding, last fun k hk hkn => h k (by omega) (by omega), now_held]
      congr 2
      omega
    · intro started h end_moved
      by_cases only : j = 0
      · subst only
        exact absurd (from_s started) end_moved
      · have := moved (fun k hk hkn => h k (by omega) (by omega)) (by omega)
          (by rwa [show s + 1 + j - 1 = s + (j + 1) - 1 by omega])
        rw [next started]
        rwa [show s + 1 + j = s + (j + 1) by omega] at this

theorem drawn_batch (hv : FromArray p v first) (hs : s % 71 = 0) (hn : 0 < n) (hn71 : n ≤ 71)
    (hu : Holding p v u s) :
    Drawn p v (batchSegments p v n u s) s n (StartHeld v s (v (s + 1))) := by
  by_cases mask : lineMask v u.outside s n = 0
  · exact drawn_walk hv hs hn hn71 hu mask
  · exact drawn_rejected hs hn hn71 hu mask

private theorem walk_length (n s : Nat) (u : Vertex) : (walk p v n u s).1.length = n := by
  induction n generalizing u s with
  | zero => rfl
  | succ n ih => simp [walk, ih]

private theorem batchSegments_length (n s : Nat) (u : Vertex) :
    (batchSegments p v n u s).1.length = n := by
  rw [batchSegments]
  split_ifs
  · exact walk_length n s u
  · exact List.length_replicate

private theorem separate_length (s n : Nat) : (separate v s n).length = n := by
  simp [separate]

private theorem lineSegments_step (hn : 0 < n) (u : Vertex) (s : Nat) :
    lineSegments p v n u s =
      ((batchSegments p v (min 71 n) u s).1 ++
          (lineSegments p v (n - min 71 n) (batchSegments p v (min 71 n) u s).2 (s + min 71 n)).1,
        (lineSegments p v (n - min 71 n) (batchSegments p v (min 71 n) u s).2 (s + min 71 n)).2) := by
  rw [lineSegments, dif_neg (by omega)]

private theorem lineSegments_none (u : Vertex) (s : Nat) : lineSegments p v 0 u s = ([], u) := by
  rw [lineSegments, dif_pos rfl]

private theorem not_same_of_moved (hn : 0 < n) (hu : Moved v u s) :
    ¬SameSegments p (lineSegments p v n u s).1 (separate v s n) := by
  have mask : lineMask v u.outside s (min 71 n) = 0 := by
    have start := (cullMask_and u.outside (fun j => (v (s + 1 + j)).outside) (min 71 n)).1
    rw [lineMask, ← start, hu.1]
    exact BitVec.and_zero
  obtain ⟨j, hj⟩ : ∃ j, min 71 n = j + 1 := ⟨min 71 n - 1, by omega⟩
  obtain ⟨k, rfl⟩ : ∃ k, n = k + 1 := ⟨n - 1, by omega⟩
  intro same
  rw [lineSegments_step hn, batchSegments, if_pos mask, hj, walk, separate_succ] at same
  simp only [SameSegments, List.cons_append, List.map_cons, List.cons.injEq] at same
  exact segment_ne hu.1 hu.2 same.1

/-- Every batch from `s` on starts with the vertex it should. -/
def StartsHeld (v : Nat → Vertex) (s n : Nat) : Prop :=
  ∀ t, s ≤ t → t < s + n → t % 71 = 0 → StartHeld v t (v (t + 1))

theorem drawn_lineSegments (hv : FromArray p v first) (n : Nat) : ∀ {s : Nat} {u : Vertex},
    s % 71 = 0 → 0 < n → Holding p v u s →
      Drawn p v (lineSegments p v n u s) s n (StartsHeld v s n) := by
  induction n using Nat.strong_induction_on with
  | _ n ih =>
    intro s u hs hn hu
    have batch := drawn_batch hv hs (n := min 71 n) (by omega) (by omega) hu
    have start (h : StartsHeld v s n) : StartHeld v s (v (s + 1)) :=
      h s (Nat.le_refl s) (by omega) hs
    by_cases last : n ≤ 71
    · have all : min 71 n = n := by omega
      rw [lineSegments_step hn, all, Nat.sub_self, lineSegments_none]
      rw [all] at batch
      have starts : StartsHeld v s n ↔ StartHeld v s (v (s + 1)) := by
        refine ⟨start, fun h t ht htn ht71 => ?_⟩
        rwa [show t = s by omega]
      rw [List.append_nil]
      exact ⟨by rw [batch.same, starts], fun h => batch.holding (starts.mp h),
        fun h => batch.moved (starts.mp h)⟩
    · have full : min 71 n = 71 := by omega
      rw [full] at batch
      rw [lineSegments_step hn, full]
      set b := batchSegments p v 71 u s with hb
      have split : SameSegments p (b.1 ++ (lineSegments p v (n - 71) b.2 (s + 71)).1)
          (separate v s n) ↔ SameSegments p b.1 (separate v s 71) ∧
            SameSegments p (lineSegments p v (n - 71) b.2 (s + 71)).1
              (separate v (s + 71) (n - 71)) := by
        rw [show separate v s n = separate v s 71 ++ separate v (s + 71) (n - 71) by
          rw [← separate_add]; congr 1; omega]
        simp only [SameSegments, List.map_append]
        constructor
        · intro whole
          apply List.append_inj whole
          rw [List.length_map, List.length_map, batchSegments_length, separate_length]
        · rintro ⟨one, two⟩
          rw [one, two]
      have starts : StartsHeld v s n ↔
          StartHeld v s (v (s + 1)) ∧ StartsHeld v (s + 71) (n - 71) := by
        refine ⟨fun h => ⟨start h, fun t ht htn => h t (by omega) (by omega)⟩, ?_⟩
        rintro ⟨one, two⟩ t ht htn ht71
        by_cases at_s : t = s
        · rwa [at_s]
        · exact two t (by omega) (by omega) ht71
      have rest (h : StartHeld v s (v (s + 1))) (kept : ∀ k, s ≤ k → k < s + 71 → EndKept p v k) :=
        ih (n - 71) (by omega) (by omega) (by omega) (batch.holding h kept)
      have upto (h : ∀ k, s ≤ k → k + 1 < s + n → EndKept p v k) :
          ∀ k, s ≤ k → k < s + 71 → EndKept p v k := fun k hk hk' => h k hk (by omega)
      refine ⟨?_, ?_, ?_⟩
      · show SameSegments p (b.1 ++ _) _ ↔ _
        rw [split, batch.same]
        constructor
        · rintro ⟨⟨h, kept⟩, same⟩
          by_cases ends : EndKept p v (s + 71 - 1)
          · have kept' : ∀ k, s ≤ k → k < s + 71 → EndKept p v k := by
              intro k hk hk'
              by_cases at_end : k = s + 71 - 1
              · rwa [at_end]
              · exact kept k hk (by omega)
            obtain ⟨starts', after⟩ := (rest h kept').same.mp same
            refine ⟨starts.mpr ⟨h, starts'⟩, fun k hk hkn => ?_⟩
            by_cases here : k < s + 71
            · exact kept' k hk here
            · exact after k (by omega) (by omega)
          · exact absurd same (not_same_of_moved (by omega) (batch.moved h kept ends))
        · rintro ⟨h, kept⟩
          obtain ⟨one, two⟩ := starts.mp h
          refine ⟨⟨one, fun k hk hkn => kept k hk (by omega)⟩, ?_⟩
          exact (rest one (upto kept)).same.mpr ⟨two, fun k hk hkn => kept k (by omega) (by omega)⟩
      · intro h kept
        obtain ⟨one, two⟩ := starts.mp h
        have := (rest one fun k hk hk' => kept k hk (by omega)).holding two
          fun k hk hk' => kept k (by omega) (by omega)
        rwa [show s + 71 + (n - 71) = s + n by omega] at this
      · intro h kept end_moved
        obtain ⟨one, two⟩ := starts.mp h
        have := (rest one (upto kept)).moved two (fun k hk hk' => kept k (by omega) (by omega))
          (by rwa [show s + 71 + (n - 71) - 1 = s + n - 1 by omega])
        rwa [show s + 71 + (n - 71) = s + n by omega] at this

variable (p)

def issuedTrace (segments : List (Option (Vertex × Vertex))) : List (List Shape) :=
  (values segments).map fun x => [p.seen x.1, p.seen x.2]

/-- What `linex` gets for a segment: its ends after clipping, if something is left. -/
def clippedSegment (x : Vertex × Vertex) : List (Shape × Shape) :=
  let c := clipLine p x.1 x.2
  if c.1 then [(p.seen c.2.1, p.seen c.2.2)] else []

def clippedLines (segments : List (Option (Vertex × Vertex))) : List (Shape × Shape) :=
  (values segments).flatMap (clippedSegment p)

/-- The lines given to `linex`. -/
def linesShape (m : Machine) : List (Shape × Shape) := m.lines.map (Prod.map p.seen p.seen)

structure DrewSegments (m r : Machine) (segments : List (Option (Vertex × Vertex))) : Prop where
  trace : trace p r = trace p m ++ issuedTrace p segments
  lines : linesShape p r = linesShape p m ++ clippedLines p segments

variable {p}

theorem DrewSegments.refl (m : Machine) : DrewSegments p m m [] := ⟨by simp [issuedTrace],
  by simp [clippedLines]⟩

theorem DrewSegments.append {a b c : Machine} {x y : List (Option (Vertex × Vertex))}
    (h : DrewSegments p a b x) (h' : DrewSegments p b c y) : DrewSegments p a c (x ++ y) := by
  refine ⟨?_, ?_⟩
  · rw [h'.trace, h.trace, issuedTrace, issuedTrace, issuedTrace, List.append_assoc,
      values_append, List.map_append]
  · rw [h'.lines, h.lines, clippedLines, clippedLines, clippedLines, List.append_assoc,
      values_append, List.flatMap_append]

private theorem and_two (a b : Vertex) :
    a.flags &&& b.flags &&& clipAll = a.outside &&& b.outside := by
  simp only [Vertex.outside]
  ext i
  simp only [BitVec.getElem_and]
  cases a.flags[i] <;> cases b.flags[i] <;> cases clipAll[i] <;> rfl

private theorem drewSegments_step {m : Machine} {v0 v1 : Nat} (distinct : v0 ≠ v1)
    (hu : p.seen (m.verts v0) = p.seen u) (hw : p.seen (m.verts v1) = p.seen w) :
    let r := if (m.verts v0).flags &&& (m.verts v1).flags &&& clipAll = 0 then
      renderLine p m v0 v1 else m
    DrewSegments p m r [segment u w] ∧ p.seen (r.verts v1) = p.seen (afterSegment p u w) ∧
      ∀ i, i ≠ v0 → i ≠ v1 → r.verts i = m.verts i := by
  intro r
  have planes : (m.verts v0).flags &&& (m.verts v1).flags &&& clipAll = u.outside &&& w.outside := by
    rw [and_two, Pipeline.outside_congr hu, Pipeline.outside_congr hw]
  simp only [r, planes, segment, afterSegment]
  split_ifs
  · have drawn := lineDrawn_renderLine p m distinct
    have same := clipLine_congr p hu hw
    refine ⟨⟨?_, ?_⟩, drawn.stop.trans same.stop, drawn.others⟩
    · rw [trace, drawn.calls, List.map_append]
      simp [trace, issuedTrace, shapes, hu, hw]
    · rw [linesShape, drawn.lines, same.visible, same.start, same.stop]
      simp [linesShape, clippedLines, clippedSegment]
  · exact ⟨⟨by simp [issuedTrace], by simp [clippedLines]⟩, hw, fun _ _ _ => rfl⟩

theorem lineRun_spec (n : Nat) : ∀ {m : Machine} {slot v0 s : Nat} {u : Vertex}, v0 < slot →
    p.seen (m.verts v0) = p.seen u →
    (∀ j < n, p.seen (m.verts (slot + j)) = p.seen (v (s + 1 + j))) →
      let r := lineRun p n m slot v0
      DrewSegments p m r.1 (walk p v n u s).1 ∧
        p.seen (r.1.verts r.2) = p.seen (walk p v n u s).2 := by
  induction n with
  | zero => exact fun _ hu _ => ⟨.refl _, hu⟩
  | succ n ih =>
    intro m slot v0 s u below hu hw
    obtain ⟨drew, stop, others⟩ := drewSegments_step (by omega) hu (hw 0 (by omega))
    simp only [Nat.add_zero] at drew stop others
    have later (j : Nat) (hj : j < n) : p.seen ((if (m.verts v0).flags &&& (m.verts slot).flags &&&
        clipAll = 0 then renderLine p m v0 slot else m).verts (slot + 1 + j)) =
          p.seen (v (s + 1 + 1 + j)) := by
      rw [others _ (by omega) (by omega), show slot + 1 + j = slot + (j + 1) by omega,
        hw (j + 1) (by omega)]
      congr 2
      omega
    obtain ⟨drew', last⟩ := ih (Nat.lt_succ_self slot) stop later
    exact ⟨drew.append drew', last⟩

theorem lineBatch_spec {m : Machine} {start : Int} {s n rest : Nat} {u : Vertex}
    (hu : p.seen (m.verts 0) = p.seen u) (hcull : m.cull = u.outside)
    (hw : ∀ j < n, p.seen (arrayVertex p start j) = p.seen (v (s + 1 + j))) :
    let r := lineBatch p m start n rest
    DrewSegments p m r (batchSegments p v n u s).1 ∧
      p.seen (r.verts 0) = p.seen (batchSegments p v n u s).2 ∧
      r.cull = (batchSegments p v n u s).2.outside := by
  set c := compileElements p m 1 start n with hc
  have entry0 : p.seen (c.verts 0) = p.seen u := by
    rw [hc, compileElements_other p m 1 start n (by omega), hu]
  have entries (j : Nat) (hj : j < n) : p.seen (c.verts (1 + j)) = p.seen (v (s + 1 + j)) := by
    rw [hc, seen_compileElements p m 1 start n hj, hw j hj]
  have cull : c.cull = lineMask v u.outside s n := by
    rw [hc, compileElements_cull, hcull, lineMask]
    apply cullMask_congr
    intro j hj
    exact Pipeline.outside_congr (hw j hj)
  have compiled : DrewSegments p m c [] := by
    refine ⟨?_, ?_⟩
    · rw [trace, hc, compileElements_calls]
      simp [trace, issuedTrace]
    · rw [linesShape, hc, compileElements_lines]
      simp [linesShape, clippedLines]
  have copied {d : Machine × Nat} {result : List (Option (Vertex × Vertex)) × Vertex}
      (drew : DrewSegments p c d.1 result.1)
      (last : p.seen (d.1.verts d.2) = p.seen result.2) :
      let r : Machine := { d.1.set 0 (d.1.verts d.2) with
        cull := (d.1.verts d.2).flags &&& clipAll }
      DrewSegments p m r result.1 ∧ p.seen (r.verts 0) = p.seen result.2 ∧
        r.cull = result.2.outside := by
    intro r
    have all := compiled.append drew
    refine ⟨⟨all.trace, all.lines⟩, ?_, Pipeline.outside_congr last⟩
    rw [← last]
    exact congrArg p.seen (d.1.set_same 0 _)
  have unfolded : lineBatch p m start n rest =
      let d := if c.cull = 0 then lineRun p n c 1 0 else (c, 0)
      { d.1.set 0 (d.1.verts d.2) with cull := (d.1.verts d.2).flags &&& clipAll } := rfl
  rw [unfolded, batchSegments, ← cull]
  split_ifs
  · obtain ⟨drew, last⟩ := lineRun_spec n Nat.zero_lt_one entry0 entries
    exact copied drew last
  · apply copied ?_ entry0
    refine ⟨?_, ?_⟩ <;> simp [issuedTrace, clippedLines]

variable (p) in
/-- Vertex `k` of a line strip as it is compiled: the first one alone, the others in batches
of 71. -/
def lineVertex (first : Int) (k : Nat) : Vertex :=
  if k = 0 then arrayVertex p first 0
  else arrayVertex p (first + 1 + (71 * ((k - 1) / 71) : Nat)) ((k - 1) % 71)

theorem lineVertex_fromArray (first : Int) : FromArray p (lineVertex p first) first := by
  intro k
  rw [lineVertex]
  split_ifs with zero
  · exact ⟨elementOf first + 0, by rw [zero, arrayVertex]⟩
  · refine ⟨elementOf (first + 1 + (71 * ((k - 1) / 71) : Nat)) + (k - 1) % 71, ?_⟩
    rw [arrayVertex]
    congr 1
    omega

private theorem lineVertex_batch (first : Int) {j : Nat} (hs : s % 71 = 0) (hj : j < 71) :
    arrayVertex p (first + 1 + s) j = lineVertex p first (s + 1 + j) := by
  have block : 71 * ((s + 1 + j - 1) / 71) = s := by omega
  have offset : (s + 1 + j - 1) % 71 = j := by omega
  rw [lineVertex, if_neg (by omega), block, offset]

private theorem batches_lines (first : Int) (n : Nat) : ∀ {m : Machine} {s : Nat} {u : Vertex},
    s % 71 = 0 → p.seen (m.verts 0) = p.seen u → m.cull = u.outside →
      let r := batches 71 1 (lineBatch p) m (first + 1 + s) n
      let result := lineSegments p (lineVertex p first) n u s
      DrewSegments p m r result.1 ∧ p.seen (r.verts 0) = p.seen result.2 := by
  induction n using Nat.strong_induction_on with
  | _ n ih =>
    intro m s u hs hu hcull
    by_cases none : n = 0
    · subst none
      rw [batches_stop (by omega), lineSegments_none]
      exact ⟨.refl m, hu⟩
    · rw [batches_step (by omega) (by omega) (by omega), lineSegments_step (by omega)]
      obtain ⟨drew, entry0, cull⟩ := @lineBatch_spec p (lineVertex p first) m (first + 1 + s) s
        (min 71 n) (n - min 71 n) u hu hcull fun j hj => by
          rw [lineVertex_batch first hs (by omega)]
      by_cases last : n ≤ 71
      · have all : min 71 n = n := by omega
        rw [all, Nat.sub_self] at drew entry0 cull ⊢
        rw [batches_stop (by omega), lineSegments_none, List.append_nil]
        exact ⟨drew, entry0⟩
      · have full : min 71 n = 71 := by omega
        rw [full] at drew entry0 cull ⊢
        have rest := ih (n - 71) (by omega) (s := s + 71) (by omega) entry0 cull
        rw [show first + 1 + (s : Int) + (71 : Nat) = first + 1 + ((s + 71 : Nat) : Int) by omega]
        exact ⟨drew.append rest.1, rest.2⟩

theorem drew_lineStrip (m : Machine) (first : Int) {count : Nat} (hcount : 2 ≤ count) :
    let r := drawPrimitivesLineStrip p m first count
    let result := lineSegments p (lineVertex p first) (count - 1) (lineVertex p first 0) 0
    DrewSegments p m r result.1 ∧ p.seen (r.verts 0) = p.seen result.2 := by
  set c := compileElement p { m with cull := clipAll } 0 first with hc
  have entry0 : p.seen (c.verts 0) = p.seen (lineVertex p first 0) := by
    rw [hc, seen_compileElement]
    rfl
  have cull : c.cull = (lineVertex p first 0).outside := by
    rw [hc, compileElement, compileAt_cull]
    show clipAll &&& (p.compiled (elementOf first) first).outside = _
    rw [Vertex.clipAll_and_outside]
    simp [lineVertex, arrayVertex]
  obtain ⟨drew, last⟩ := @batches_lines p first (count - 1) c 0 (lineVertex p first 0) rfl entry0 cull
  simp only [Int.natCast_zero, Int.add_zero] at drew last
  rw [drawPrimitivesLineStrip, if_neg (by omega)]
  exact ⟨⟨drew.trace, drew.lines⟩, last⟩

def stopIndex (x : Shape × Shape) : Int := x.2.index

/-- The indices of the vertices that `n` segments from `s` on end in. -/
def stops (first : Int) (s n : Nat) : List Int :=
  (List.range' (s + 1) n).map fun k : Nat => first + (k : Int)

private theorem stops_succ (first : Int) (s n : Nat) :
    stops first s (n + 1) = (first + (s + 1 : Nat)) :: stops first (s + 1) n := by
  rw [stops, List.range'_succ, List.map_cons]
  rfl

private theorem stops_add (first : Int) (s n k : Nat) :
    stops first s (n + k) = stops first s n ++ stops first (s + n) k := by
  rw [stops, stops, stops, ← List.map_append]
  congr 1
  have split := @List.range'_append (s + 1) n k 1
  rw [Nat.one_mul, show s + 1 + n = s + n + 1 by omega] at split
  exact split.symm

private theorem stopIndex_segment (hv : FromArray p v first) (u : Vertex) (k : Nat) :
    ∀ x, segmentShape p (segment u (v k)) = some x → stopIndex x = first + k := by
  intro x hx
  obtain ⟨e, he⟩ := hv k
  rw [segment] at hx
  split_ifs at hx
  · simp only [segmentShape, Option.map_some, Option.some.injEq] at hx
    subst hx
    show (v k).index = _
    rw [he, Pipeline.compiled_index]
  · simp [segmentShape] at hx

private theorem keyed_walk (hv : FromArray p v first) (n : Nat) : ∀ (u : Vertex) (s : Nat),
    Keyed stopIndex (stops first s n) ((walk p v n u s).1.map (segmentShape p)) := by
  induction n with
  | zero => exact fun _ _ => .nil
  | succ n ih =>
    intro u s
    rw [stops_succ, walk, List.map_cons]
    exact .cons (stopIndex_segment hv u (s + 1)) (ih _ (s + 1))

private theorem keyed_separate (hv : FromArray p v first) (n : Nat) : ∀ s : Nat,
    Keyed stopIndex (stops first s n) ((separate v s n).map (segmentShape p)) := by
  induction n with
  | zero => exact fun _ => .nil
  | succ n ih =>
    intro s
    rw [stops_succ, separate_succ, List.map_cons]
    exact .cons (stopIndex_segment hv (v s) (s + 1)) (ih (s + 1))

private theorem keyed_lineSegments (hv : FromArray p v first) (n : Nat) :
    ∀ (u : Vertex) (s : Nat),
      Keyed stopIndex (stops first s n) ((lineSegments p v n u s).1.map (segmentShape p)) := by
  induction n using Nat.strong_induction_on with
  | _ n ih =>
    intro u s
    by_cases none : n = 0
    · subst none
      rw [lineSegments_none]
      exact .nil
    · have batch : Keyed stopIndex (stops first s (min 71 n))
          ((batchSegments p v (min 71 n) u s).1.map (segmentShape p)) := by
        rw [batchSegments]
        split_ifs
        · exact keyed_walk hv _ u s
        · have none := @keyed_replicate _ _ stopIndex (stops first s (min 71 n))
          rw [show (stops first s (min 71 n)).length = min 71 n by simp [stops]] at none
          rw [List.map_replicate]
          exact none
      have split : stops first s n =
          stops first s (min 71 n) ++ stops first (s + min 71 n) (n - min 71 n) := by
        rw [← stops_add]
        congr 1
        omega
      rw [lineSegments_step (by omega), split, List.map_append]
      exact batch.append (ih _ (by omega) _ _)

private theorem issuedTrace_eq (segments : List (Option (Vertex × Vertex))) :
    issuedTrace p segments =
      (values (segments.map (segmentShape p))).map fun x => [x.1, x.2] := by
  induction segments with
  | nil => rfl
  | cons x segments ih =>
    cases x with
    | none => exact ih
    | some x => exact congrArg (_ :: ·) ih

private theorem sameSegments_iff {ks : List Int} (distinct : ks.Nodup)
    {a b : List (Option (Vertex × Vertex))} (ha : Keyed stopIndex ks (a.map (segmentShape p)))
    (hb : Keyed stopIndex ks (b.map (segmentShape p))) :
    issuedTrace p a = issuedTrace p b ↔ SameSegments p a b := by
  rw [issuedTrace_eq, issuedTrace_eq]
  constructor
  · intro same
    have injective : Function.Injective fun x : Shape × Shape => [x.1, x.2] := by
      intro x y h
      simp only [List.cons.injEq, and_true] at h
      exact Prod.ext h.1 h.2
    exact Keyed.ext distinct ha hb (List.map_injective_iff.mpr injective same)
  · intro same
    rw [show a.map (segmentShape p) = b.map (segmentShape p) from same]

private theorem stops_nodup (first : Int) (s n : Nat) : (stops first s n).Nodup := by
  apply List.Nodup.map _ List.nodup_range'
  intro a b h
  have same : (a : Int) = b := Int.add_left_cancel h
  omega

private theorem clippedLines_congr {a b : List (Option (Vertex × Vertex))}
    (h : SameSegments p a b) : clippedLines p a = clippedLines p b := by
  induction a generalizing b with
  | nil =>
    cases b with
    | nil => rfl
    | cons y b => simp [SameSegments] at h
  | cons x a ih =>
    cases b with
    | nil => simp [SameSegments] at h
    | cons y b =>
      simp only [SameSegments, List.map_cons, List.cons.injEq] at h
      have rest := ih h.2
      cases x with
      | none =>
        cases y with
        | none => exact rest
        | some y => simp [segmentShape] at h
      | some x =>
        cases y with
        | none => simp [segmentShape] at h
        | some y =>
          have ends := h.1
          simp only [segmentShape, Option.map_some, Prod.map, Option.some.injEq,
            Prod.mk.injEq] at ends
          have same := clipLine_congr p ends.1 ends.2
          have here : clippedSegment p x = clippedSegment p y := by
            simp only [clippedSegment, same.visible, same.start, same.stop]
          rw [clippedLines, clippedLines, values_some, values_some, List.flatMap_cons,
            List.flatMap_cons, here]
          exact congrArg (_ ++ ·) rest

def issueLine (a b : Shape) : List (List Shape) :=
  if a.outside &&& b.outside = 0 then [[a, b]] else []

variable (p) in
def drawSeparately (u w : Vertex) : Machine :=
  let m := (Machine.init.set 0 u).set 1 w
  if u.flags &&& w.flags &&& clipAll = 0 then renderLine p m 0 1 else m

variable (p) in
/-- The segments of the strip `v`, one by one. -/
def stripTrace (v : Nat → Vertex) (n : Nat) : List (List Shape) :=
  primitives (fun k => issueLine (p.seen (v k)) (p.seen (v (k + 1)))) 0 n

variable (p) in
/-- The lines of the strip `v`, each drawn separately. -/
def stripLines (v : Nat → Vertex) (n : Nat) : List (Shape × Shape) :=
  primitives (fun k => linesShape p (drawSeparately p (v k) (v (k + 1)))) 0 n

private theorem issuedTrace_cons (x : Option (Vertex × Vertex))
    (xs : List (Option (Vertex × Vertex))) :
    issuedTrace p (x :: xs) = issuedTrace p [x] ++ issuedTrace p xs := by
  cases x <;> rfl

private theorem clippedLines_cons (x : Option (Vertex × Vertex))
    (xs : List (Option (Vertex × Vertex))) :
    clippedLines p (x :: xs) = clippedLines p [x] ++ clippedLines p xs := by
  cases x with
  | none => rfl
  | some x => simp [clippedLines]

private theorem issuedTrace_segment (u w : Vertex) :
    issuedTrace p [segment u w] = issueLine (p.seen u) (p.seen w) := by
  simp only [segment, issueLine, Pipeline.outside_seen]
  split_ifs <;> rfl

private theorem clippedLines_segment (u w : Vertex) :
    clippedLines p [segment u w] = linesShape p (drawSeparately p u w) := by
  have entry0 : p.seen (((Machine.init.set 0 u).set 1 w).verts 0) = p.seen u := by simp
  have entry1 : p.seen (((Machine.init.set 0 u).set 1 w).verts 1) = p.seen w := by simp
  have drew := (drewSegments_step (by omega) entry0 entry1).1.lines
  simp only [Machine.set_same, Machine.set_other _ _ _ Nat.zero_ne_one] at drew
  exact drew.symm

private theorem issuedTrace_separate (v : Nat → Vertex) (n : Nat) : ∀ s,
    issuedTrace p (separate v s n) =
      primitives (fun k => issueLine (p.seen (v k)) (p.seen (v (k + 1)))) s n := by
  induction n with
  | zero => exact fun _ => rfl
  | succ n ih =>
    intro s
    rw [separate_succ, issuedTrace_cons, issuedTrace_segment, ih, primitives_succ]

private theorem clippedLines_separate (v : Nat → Vertex) (n : Nat) : ∀ s,
    clippedLines p (separate v s n) =
      primitives (fun k => linesShape p (drawSeparately p (v k) (v (k + 1)))) s n := by
  induction n with
  | zero => exact fun _ => rfl
  | succ n ih =>
    intro s
    rw [separate_succ, clippedLines_cons, clippedLines_segment, ih, primitives_succ]

variable (p) in
/-- What keeps a strip of `n` segments intact: each batch starts with the vertex it should, and
no segment leaves the clipping volume in a vertex that starts another one. -/
def StripIntact (v : Nat → Vertex) (n : Nat) : Prop :=
  StartsHeld v 0 n ∧ ∀ k, k + 1 < n → EndKept p v k

variable (p) in
/-- The same for a loop of `count` vertices: with three or more, the last one starts the segment
back to vertex 0. -/
def LoopIntact (v : Nat → Vertex) (count : Nat) : Prop :=
  StripIntact p v (count - 1) ∧
    (count ≥ 3 → EndKept p v (count - 2) ∧ StartHeld v (count - 1) (v 0))

variable (p) in
/-- The segments of the loop `v` of `count` vertices, one by one. -/
def loopTrace (v : Nat → Vertex) (count : Nat) : List (List Shape) :=
  stripTrace p v (count - 1) ++
    if count ≥ 3 then issueLine (p.seen (v (count - 1))) (p.seen (v 0)) else []

variable (p) in
/-- The lines of the loop `v`, each drawn separately. -/
def loopLines (v : Nat → Vertex) (count : Nat) : List (Shape × Shape) :=
  stripLines p v (count - 1) ++
    if count ≥ 3 then linesShape p (drawSeparately p (v (count - 1)) (v 0)) else []

private theorem loopIntact_iff {count : Nat} (hcount : 3 ≤ count) :
    LoopIntact p v count ↔ StartsHeld v 0 (count - 1) ∧ (∀ k < count - 1, EndKept p v k) ∧
      StartHeld v (count - 1) (v 0) := by
  constructor
  · rintro ⟨⟨starts, kept⟩, closing⟩
    obtain ⟨last, closes⟩ := closing hcount
    refine ⟨starts, fun k hk => ?_, closes⟩
    by_cases at_end : k = count - 2
    · rwa [at_end]
    · exact kept k (by omega)
  · rintro ⟨starts, kept, closes⟩
    exact ⟨⟨starts, fun k hk => kept k (by omega)⟩, fun _ => ⟨kept _ (by omega), closes⟩⟩

section Results

variable (p) (m : Machine) (first : Int) (count : Nat)

private def drawnStrip : List (Option (Vertex × Vertex)) × Vertex :=
  lineSegments p (lineVertex p first) (count - 1) (lineVertex p first 0) 0

private theorem holding_start : Holding p (lineVertex p first) (lineVertex p first 0) 0 := by
  rw [Holding, held, dif_pos rfl]

private theorem drawnStrip_spec (hcount : 2 ≤ count) :
    Drawn p (lineVertex p first) (drawnStrip p first count) 0 (count - 1)
      (StartsHeld (lineVertex p first) 0 (count - 1)) :=
  drawn_lineSegments (lineVertex_fromArray first) (count - 1) rfl (by omega) (holding_start p first)

private theorem drawnStrip_same (hcount : 2 ≤ count) :
    SameSegments p (drawnStrip p first count).1 (separate (lineVertex p first) 0 (count - 1)) ↔
      StripIntact p (lineVertex p first) (count - 1) := by
  rw [(drawnStrip_spec p first count hcount).same, StripIntact]
  simp only [Nat.zero_le, Nat.zero_add, forall_const]

private def drawnLoop : List (Option (Vertex × Vertex)) :=
  (drawnStrip p first count).1 ++ [segment (drawnStrip p first count).2 (lineVertex p first 0)]

private def separateLoop : List (Option (Vertex × Vertex)) :=
  separate (lineVertex p first) 0 (count - 1) ++
    [segment (lineVertex p first (count - 1)) (lineVertex p first 0)]

private theorem drawnLoop_same (hcount : 3 ≤ count) :
    SameSegments p (drawnLoop p first count) (separateLoop p first count) ↔
      LoopIntact p (lineVertex p first) count := by
  have strip := drawnStrip_spec p first count (by omega)
  have stripSame := drawnStrip_same p first count (by omega)
  have hv := lineVertex_fromArray (p := p) first
  have split : SameSegments p (drawnLoop p first count) (separateLoop p first count) ↔
      SameSegments p (drawnStrip p first count).1 (separate (lineVertex p first) 0 (count - 1)) ∧
        segmentShape p (segment (drawnStrip p first count).2 (lineVertex p first 0)) =
          segmentShape p (segment (lineVertex p first (count - 1)) (lineVertex p first 0)) := by
    simp only [SameSegments, drawnLoop, separateLoop, List.map_append, List.map_cons, List.map_nil]
    constructor
    · intro whole
      obtain ⟨one, two⟩ := List.append_inj' whole rfl
      exact ⟨one, List.head_eq_of_cons_eq two⟩
    · rintro ⟨one, two⟩
      rw [one, two]
  rw [split, stripSame, loopIntact_iff hcount]
  constructor
  · rintro ⟨⟨starts, kept⟩, closing⟩
    have inner : ∀ k, 0 ≤ k → k + 1 < 0 + (count - 1) → EndKept p (lineVertex p first) k :=
      fun k _ hk => kept k (by omega)
    by_cases last : EndKept p (lineVertex p first) (0 + (count - 1) - 1)
    · have all : ∀ k < count - 1, EndKept p (lineVertex p first) k := by
        intro k hk
        by_cases at_end : k = 0 + (count - 1) - 1
        · rwa [at_end]
        · exact kept k (by omega)
      refine ⟨starts, all, fun stale => ?_⟩
      have holds := strip.holding starts fun k _ hk => all k (by omega)
      rw [Nat.zero_add] at holds
      exact (segment_positions hv stale holds).mp closing
    · obtain ⟨inside, flagged⟩ := strip.moved starts inner last
      rw [Nat.zero_add] at flagged
      exact absurd closing (segment_ne inside flagged)
  · rintro ⟨starts, kept, closes⟩
    refine ⟨⟨starts, fun k hk => kept k (by omega)⟩, ?_⟩
    have holds := strip.holding starts fun k _ hk => kept k (by omega)
    rw [Nat.zero_add] at holds
    by_cases stale : held (lineVertex p first) (count - 1) = count - 1
    · rw [Holding, stale] at holds
      exact segment_congr p holds _
    · exact (segment_positions hv stale holds).mpr (closes stale)

private theorem keyed_loops : (stops first 0 (count - 1) ++ [first]).Nodup ∧
    Keyed stopIndex (stops first 0 (count - 1) ++ [first])
      ((drawnLoop p first count).map (segmentShape p)) ∧
    Keyed stopIndex (stops first 0 (count - 1) ++ [first])
      ((separateLoop p first count).map (segmentShape p)) := by
  have hv := lineVertex_fromArray (p := p) first
  have closing (u : Vertex) : Keyed stopIndex [first]
      ([segment u (lineVertex p first 0)].map (segmentShape p)) := by
    have stop := stopIndex_segment hv u 0
    rw [Int.natCast_zero, Int.add_zero] at stop
    exact .cons stop .nil
  refine ⟨?_, ?_, ?_⟩
  · apply List.nodup_append.mpr
    refine ⟨stops_nodup first 0 (count - 1), List.nodup_singleton first, ?_⟩
    intro a ha b hb
    obtain ⟨k, hk, rfl⟩ := List.mem_map.mp ha
    rw [List.mem_singleton.mp hb]
    have := (List.mem_range'_1.mp hk).1
    omega
  · rw [drawnLoop, List.map_append]
    exact (keyed_lineSegments hv (count - 1) _ 0).append (closing _)
  · rw [separateLoop, List.map_append]
    exact (keyed_separate hv (count - 1) 0).append (closing _)

private theorem drew_lineLoop (hcount : 3 ≤ count) :
    DrewSegments p m (drawPrimitivesLineLoop p m first count) (drawnLoop p first count) := by
  obtain ⟨drew, entry0⟩ := drew_lineStrip (p := p) m first (show 2 ≤ count by omega)
  set r := drawPrimitivesLineStrip p m first count with hr
  set c := compileElement p r 1 first with hc
  have start : p.seen (c.verts 0) = p.seen (drawnStrip p first count).2 := by
    rw [hc, compileElement, compileAt_other _ _ _ _ _ Nat.zero_ne_one, entry0]
    rfl
  have stop : p.seen (c.verts 1) = p.seen (lineVertex p first 0) := by
    rw [hc, seen_compileElement]
    rfl
  have closing := (drewSegments_step Nat.zero_ne_one start stop).1
  have compiled : DrewSegments p m c (drawnStrip p first count).1 := ⟨drew.trace, drew.lines⟩
  rw [drawPrimitivesLineLoop, if_neg (by omega), ← hr]
  simp only [hcount, if_true]
  exact compiled.append closing

private theorem lineStrip_trace_iff :
    trace p (drawPrimitivesLineStrip p m first count) =
        trace p m ++ stripTrace p (lineVertex p first) (count - 1) ↔
      StripIntact p (lineVertex p first) (count - 1) := by
  by_cases hcount : 2 ≤ count
  · have hv := lineVertex_fromArray (p := p) first
    obtain ⟨drew, -⟩ := drew_lineStrip (p := p) m first hcount
    rw [drew.trace, List.append_cancel_left_eq, ← drawnStrip_same p first count hcount, stripTrace,
      ← issuedTrace_separate]
    exact sameSegments_iff (stops_nodup first 0 (count - 1))
      (keyed_lineSegments hv (count - 1) _ 0) (keyed_separate hv (count - 1) 0)
  · rw [drawPrimitivesLineStrip, if_pos (by omega), show count - 1 = 0 by omega]
    refine ⟨fun _ => ⟨fun t _ ht => by omega, fun k hk => by omega⟩, fun _ => ?_⟩
    exact (List.append_nil _).symm

private theorem lineLoop_few (hcount : ¬3 ≤ count) :
    drawPrimitivesLineLoop p m first count = drawPrimitivesLineStrip p m first count ∧
      loopTrace p (lineVertex p first) count = stripTrace p (lineVertex p first) (count - 1) ∧
      loopLines p (lineVertex p first) count = stripLines p (lineVertex p first) (count - 1) ∧
      (LoopIntact p (lineVertex p first) count ↔ StripIntact p (lineVertex p first) (count - 1)) := by
  refine ⟨?_, ?_, ?_, fun h => h.1, fun h => ⟨h, fun many => absurd many hcount⟩⟩
  · rw [drawPrimitivesLineLoop, if_neg hcount]
    split_ifs with few
    · rw [drawPrimitivesLineStrip, if_pos few]
    · rfl
  · rw [loopTrace, if_neg hcount, List.append_nil]
  · rw [loopLines, if_neg hcount, List.append_nil]

private theorem lineLoop_trace_iff :
    trace p (drawPrimitivesLineLoop p m first count) =
        trace p m ++ loopTrace p (lineVertex p first) count ↔
      LoopIntact p (lineVertex p first) count := by
  by_cases hcount : 3 ≤ count
  · obtain ⟨distinct, drawn, separated⟩ := keyed_loops p first count
    have expected : loopTrace p (lineVertex p first) count =
        issuedTrace p (separateLoop p first count) := by
      rw [loopTrace, if_pos hcount, stripTrace, ← issuedTrace_separate, ← issuedTrace_segment,
        separateLoop, issuedTrace, issuedTrace, issuedTrace, ← List.map_append, ← values_append]
    rw [(drew_lineLoop p m first count hcount).trace, List.append_cancel_left_eq, expected,
      ← drawnLoop_same p first count hcount]
    exact sameSegments_iff distinct drawn separated
  · obtain ⟨draw, calls, -, intact⟩ := lineLoop_few p m first count hcount
    rw [draw, calls, intact]
    exact lineStrip_trace_iff p m first count

/-- Everything up to vertex 71 to the right of the view volume, and the next vertex in view. -/
def farStart (element : Nat) : Vec4 :=
  ⟨if element < 72 then 0x30000 + element else 0, 0, -0x20000, 0⟩

private theorem lineStrip_lines (intact : StripIntact p (lineVertex p first) (count - 1)) :
    linesShape p (drawPrimitivesLineStrip p m first count) =
      linesShape p m ++ stripLines p (lineVertex p first) (count - 1) := by
  by_cases hcount : 2 ≤ count
  · obtain ⟨drew, -⟩ := drew_lineStrip (p := p) m first hcount
    have same := (drawnStrip_same p first count hcount).mpr intact
    rw [drew.lines, stripLines, ← clippedLines_separate]
    exact congrArg _ (clippedLines_congr same)
  · rw [drawPrimitivesLineStrip, if_pos (by omega), show count - 1 = 0 by omega]
    exact (List.append_nil _).symm

private theorem lineLoop_lines (intact : LoopIntact p (lineVertex p first) count) :
    linesShape p (drawPrimitivesLineLoop p m first count) =
      linesShape p m ++ loopLines p (lineVertex p first) count := by
  by_cases hcount : 3 ≤ count
  · have same := (drawnLoop_same p first count hcount).mpr intact
    rw [(drew_lineLoop p m first count hcount).lines, clippedLines_congr same, separateLoop,
      loopLines, if_pos hcount, stripLines, ← clippedLines_separate, ← clippedLines_segment,
      clippedLines, clippedLines, clippedLines, ← List.flatMap_append, ← values_append]
  · obtain ⟨draw, -, lines, -⟩ := lineLoop_few p m first count hcount
    rw [draw, lines]
    exact lineStrip_lines p m first count intact.1

def outAndBack (element : Nat) : Vec4 := ⟨if element = 1 then 0x30000 else 0, element, -0x20000, 0⟩

end Results

end RabbitRender.Arrays.LineStrips
