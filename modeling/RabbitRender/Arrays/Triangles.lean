/- RabbitRender/Arrays/Triangles
   layer: result
   source: swrender/array.cpp
   digest: The triangles of fans and strips drawn from arrays, across the batches of the buffer. -/

import RabbitRender.Arrays.Draw
import RabbitRender.Arrays.Trace

set_option autoImplicit false

namespace RabbitRender.Arrays.Triangles

open Vertices Arrays.Compile Arrays.Draw Arrays.Trace
open Primitives (renderTriangle shaded_renderTriangle)

def issue (a b c : Shape) : List (List Shape) :=
  if a.outside &&& b.outside &&& c.outside = 0 then [[a, b, c]] else []

/-- Triangle `k` of a strip. -/
def stripTriangle (v : Nat → Shape) (k : Nat) : List (List Shape) :=
  if k % 2 = 0 then issue (v k) (v (k + 1)) (v (k + 2)) else issue (v (k + 1)) (v k) (v (k + 2))

/-- Triangle `k` of a fan. -/
def fanTriangle (v : Nat → Shape) (k : Nat) : List (List Shape) :=
  issue (v 0) (v (k + 1)) (v (k + 2))

/-- What `fanOrStripRun` issues over entries of geometry `g`. -/
def runTrace (g : Nat → Shape) : Nat → (v v0 v1 winding : Nat) → List (List Shape)
  | 0, _, _, _, _ => []
  | num + 1, v, v0, v1, winding =>
    issue (g v0) (g v1) (g v) ++
      if winding ^^^ 1 ≠ 0 then runTrace g num (v + 1) v0 v (winding ^^^ 1)
      else runTrace g num (v + 1) v v1 (winding ^^^ 1)

variable (p : Pipeline)

/-- The second machine has the geometry of the first, and issued `x` more. -/
structure Issued (m r : Machine) (x : List (List Shape)) : Prop where
  geometry : ∀ i, p.seen (r.verts i) = p.seen (m.verts i)
  trace : trace p r = trace p m ++ x

theorem Issued.trans {a b c : Machine} {x y : List (List Shape)} (h : Issued p a b x)
    (h' : Issued p b c y) : Issued p a c (x ++ y) :=
  ⟨fun i => (h'.geometry i).trans (h.geometry i), by rw [h'.trace, h.trace, List.append_assoc]⟩

private theorem and_three (a b c : Vertex) :
    a.flags &&& b.flags &&& c.flags &&& clipAll = a.outside &&& b.outside &&& c.outside := by
  simp only [Vertex.outside]
  ext i
  simp only [BitVec.getElem_and]
  cases a.flags[i] <;> cases b.flags[i] <;> cases c.flags[i] <;> cases clipAll[i] <;> rfl

theorem issued_renderTriangle (m : Machine) (v0 v1 v : Nat) :
    Issued p m
      (if (m.verts v0).flags &&& (m.verts v1).flags &&& (m.verts v).flags &&& clipAll = 0 then
        renderTriangle p m v0 v1 v else m)
      (issue (p.seen (m.verts v0)) (p.seen (m.verts v1)) (p.seen (m.verts v))) := by
  rw [and_three]
  simp only [issue, Pipeline.outside_seen]
  split_ifs
  · have shaded := shaded_renderTriangle p m v0 v1 v
    refine ⟨fun i => (shaded.verts i).seen _, ?_⟩
    rw [trace, shaded.calls, List.map_append]
    rfl
  · exact ⟨fun _ => rfl, by simp⟩

theorem issued_fanOrStripRun (num : Nat) (m : Machine) (v v0 v1 winding : Nat) :
    Issued p m (fanOrStripRun p num m v v0 v1 winding).1
      (runTrace (fun i => p.seen (m.verts i)) num v v0 v1 winding) := by
  induction num generalizing m v v0 v1 winding with
  | zero => exact ⟨fun _ => rfl, by simp [fanOrStripRun, runTrace]⟩
  | succ num ih =>
    have first := issued_renderTriangle p m v0 v1 v
    simp only [fanOrStripRun, runTrace]
    set r := if (m.verts v0).flags &&& (m.verts v1).flags &&& (m.verts v).flags &&& clipAll = 0 then
      renderTriangle p m v0 v1 v else m
    have same : (fun i => p.seen (r.verts i)) = fun i => p.seen (m.verts i) :=
      funext first.geometry
    split_ifs
    · have rest := ih r (v + 1) v0 v (winding ^^^ 1)
      rw [same] at rest
      exact first.trans p rest
    · have rest := ih r (v + 1) v v1 (winding ^^^ 1)
      rw [same] at rest
      exact first.trans p rest

theorem winding_fanOrStripRun (num : Nat) (m : Machine) (v v0 v1 winding : Nat) :
    (fanOrStripRun p num m v v0 v1 winding).2 = if num % 2 = 0 then winding else winding ^^^ 1 := by
  induction num generalizing m v v0 v1 winding with
  | zero => rfl
  | succ num ih =>
    have twice : winding ^^^ 1 ^^^ 1 = winding := by rw [Nat.xor_assoc, Nat.xor_self, Nat.xor_zero]
    have flip : (if num % 2 = 0 then winding ^^^ 1 else winding ^^^ 1 ^^^ 1) =
        if (num + 1) % 2 = 0 then winding else winding ^^^ 1 := by
      by_cases parity : num % 2 = 0
      · rw [if_pos parity, if_neg (by omega)]
      · rw [if_neg parity, if_pos (by omega), twice]
    simp only [fanOrStripRun]
    by_cases h : winding ^^^ 1 ≠ 0
    · rw [if_pos h, ih, flip]
    · rw [if_neg h, ih, flip]

theorem runTrace_strip (g : Nat → Shape) (num j : Nat) :
    (j % 2 = 0 → runTrace g num (j + 2) j (j + 1) 1 = primitives (stripTriangle g) j num) ∧
      (j % 2 = 1 → runTrace g num (j + 2) (j + 1) j 0 = primitives (stripTriangle g) j num) := by
  induction num generalizing j with
  | zero => exact ⟨fun _ => rfl, fun _ => rfl⟩
  | succ num ih =>
    refine ⟨?_, ?_⟩
    · intro parity
      have rest := (ih (j + 1)).2 (by omega)
      rw [primitives_succ, ← rest, stripTriangle, if_pos parity]
      rfl
    · intro parity
      have rest := (ih (j + 1)).1 (by omega)
      rw [primitives_succ, ← rest, stripTriangle, if_neg (by omega)]
      rfl

theorem runTrace_fan (g : Nat → Shape) (num j winding : Nat) (h : winding = 2 ∨ winding = 3) :
    runTrace g num (j + 2) 0 (j + 1) winding = primitives (fanTriangle g) j num := by
  induction num generalizing j winding with
  | zero => rfl
  | succ num ih =>
    have next : winding ^^^ 1 = 2 ∨ winding ^^^ 1 = 3 := by
      rcases h with rfl | rfl
      · exact .inr rfl
      · exact .inl rfl
    rw [primitives_succ, ← ih (j + 1) (winding ^^^ 1) next, runTrace, if_pos (by omega)]
    rfl

/-- Vertex `k` of a fan or strip as it is compiled: the first two together, the others in batches
of 70. -/
def triangleVertex (first : Int) (k : Nat) : Vertex :=
  if k < 2 then arrayVertex p first k
  else arrayVertex p (first + 2 + (70 * ((k - 2) / 70) : Nat)) ((k - 2) % 70)

/-- The geometry of vertex `k`. -/
def vertexShape (first : Int) (k : Nat) : Shape := p.seen (triangleVertex p first k)

/-- Triangle `k` of a strip (`winding` 1) or of a fan (`winding` 2). -/
def triangle (winding : Nat) (v : Nat → Shape) (k : Nat) : List (List Shape) :=
  if winding = 1 then stripTriangle v k else fanTriangle v k

/-- The vertex in entry 0 for a batch of triangles from `s` on. -/
def pivot (winding s : Nat) : Nat := if winding = 1 then s else 0

/-- The planes that all vertices of the batch share, and the two that it starts with. -/
def batchMask (v : Nat → Shape) (c : Flags) (s num : Nat) : Flags :=
  cullMask c (fun j => (v (s + 2 + j)).outside) num

private theorem vertexShape_batch (first : Int) {s j : Nat} (hs : s % 70 = 0) (hj : j < 70) :
    p.seen (arrayVertex p (first + 2 + s) j) = vertexShape p first (s + 2 + j) := by
  have block : 70 * ((s + 2 + j - 2) / 70) = s := by omega
  have offset : (s + 2 + j - 2) % 70 = j := by omega
  rw [vertexShape, triangleVertex, if_neg (by omega), block, offset]

def fanOrStripDrawn (s : Machine × Nat) (first : Int) (num : Nat) : Machine × Nat :=
  let m := compileElements p s.1 2 first num
  if m.cull = 0 then fanOrStripRun p num m 2 0 1 s.2 else (m, s.2)

section Batch

variable {p}
variable {m : Machine} {first : Int} {s num winding : Nat}

structure Entries (m : Machine) (first : Int) (s num winding : Nat) : Prop where
  entry0 : p.seen (m.verts 0) = vertexShape p first (pivot winding s)
  rest : ∀ i, 1 ≤ i → i < num + 2 → p.seen (m.verts i) = vertexShape p first (s + i)

private theorem entries_compiled (hs : s % 70 = 0) (hnum : num ≤ 70)
    (h0 : p.seen (m.verts 0) = vertexShape p first (pivot winding s))
    (h1 : p.seen (m.verts 1) = vertexShape p first (s + 1)) :
    Entries (p := p) (compileElements p m 2 (first + 2 + s) num) first s num winding := by
  refine ⟨?_, ?_⟩
  · rw [compileElements_other p m 2 _ num (by omega), h0]
  · intro i low high
    by_cases hi : i = 1
    · rw [hi, compileElements_other p m 2 _ num (by omega), h1]
    · obtain ⟨j, rfl⟩ : ∃ j, i = 2 + j := ⟨i - 2, by omega⟩
      rw [seen_compileElements p m 2 _ num (by omega), vertexShape_batch p first hs (by omega)]
      congr 1
      omega

private theorem cull_compiled (hs : s % 70 = 0) (hnum : num ≤ 70) :
    (compileElements p m 2 (first + 2 + s) num).cull =
      batchMask (vertexShape p first) m.cull s num := by
  rw [compileElements_cull, batchMask]
  apply cullMask_congr
  intro j hj
  rw [← Pipeline.outside_seen, vertexShape_batch p first hs (by omega)]

private theorem runTrace_entries (hw : winding = 1 ∨ winding = 2) (hs : s % 70 = 0)
    (h : Entries (p := p) m first s num winding) :
    runTrace (fun i => p.seen (m.verts i)) num 2 0 1 winding =
      primitives (triangle winding (vertexShape p first)) s num := by
  rcases hw with rfl | rfl
  · rw [(runTrace_strip _ num 0).1 rfl]
    apply primitives_shift
    intro k hk
    have all (i : Nat) (hi : i < num + 2) : p.seen (m.verts i) = vertexShape p first (s + i) := by
      by_cases zero : i = 0
      · rw [zero, h.entry0]
        rfl
      · exact h.rest i (by omega) hi
    simp only [triangle, stripTriangle, if_true]
    rw [all _ (by omega), all _ (by omega), all _ (by omega)]
    simp only [Nat.zero_add, ← Nat.add_assoc]
    rw [show (s + k) % 2 = k % 2 by omega]
  · rw [runTrace_fan _ num 0 2 (.inl rfl)]
    apply primitives_shift
    intro k hk
    simp only [triangle, fanTriangle]
    rw [h.entry0, h.rest _ (by omega) (by omega), h.rest _ (by omega) (by omega)]
    simp only [Nat.zero_add, ← Nat.add_assoc]
    rfl

private theorem drawn_spec (hw : winding = 1 ∨ winding = 2) (hs : s % 70 = 0) (hnum : num ≤ 70)
    (h0 : p.seen (m.verts 0) = vertexShape p first (pivot winding s))
    (h1 : p.seen (m.verts 1) = vertexShape p first (s + 1)) :
    let r := fanOrStripDrawn p (m, winding) (first + 2 + s) num
    trace p r.1 = trace p m ++ (if batchMask (vertexShape p first) m.cull s num = 0 then
        primitives (triangle winding (vertexShape p first)) s num else []) ∧
      Entries (p := p) r.1 first s num winding ∧ (num % 2 = 0 → r.2 = winding) := by
  have entries := entries_compiled hs hnum h0 h1
  have cull := @cull_compiled p m first s num hs hnum
  have calls : trace p (compileElements p m 2 (first + 2 + s) num) = trace p m :=
    congrArg (List.map (shapes p)) (compileElements_calls p m 2 (first + 2 + s) num)
  simp only [fanOrStripDrawn, ← cull]
  split_ifs with inside
  · have issued := issued_fanOrStripRun p num
      (compileElements p m 2 (first + 2 + s) num) 2 0 1 winding
    refine ⟨?_, ⟨?_, ?_⟩, ?_⟩
    · rw [issued.trace, calls, runTrace_entries hw hs entries]
    · rw [issued.geometry, entries.entry0]
    · intro i low high
      rw [issued.geometry, entries.rest i low high]
    · intro even
      rw [winding_fanOrStripRun, if_pos even]
  · exact ⟨by rw [calls, List.append_nil], entries, fun _ => rfl⟩

structure Carried (r : Machine × Nat) (first : Int) (s winding : Nat) : Prop where
  winding_eq : r.2 = winding
  entry0 : p.seen (r.1.verts 0) = vertexShape p first (pivot winding s)
  entry1 : p.seen (r.1.verts 1) = vertexShape p first (s + 1)
  cull : r.1.cull = (vertexShape p first s).outside &&& (vertexShape p first (s + 1)).outside

theorem fanOrStripBatch_spec {rest : Nat} (hw : winding = 1 ∨ winding = 2) (hs : s % 70 = 0)
    (hnum : num ≤ 70) (hfull : rest ≠ 0 → num = 70)
    (h : Carried (p := p) (m, winding) first s winding) :
    let r := fanOrStripBatch p (m, winding) (first + 2 + s) num rest
    trace p r.1 = trace p m ++ (if batchMask (vertexShape p first)
        ((vertexShape p first s).outside &&& (vertexShape p first (s + 1)).outside) s num = 0 then
        primitives (triangle winding (vertexShape p first)) s num else []) ∧
      (rest ≠ 0 → Carried (p := p) r first (s + 70) winding) := by
  obtain ⟨drawn, entries, parity⟩ := drawn_spec hw hs hnum h.entry0 h.entry1
  rw [h.cull] at drawn
  set d := fanOrStripDrawn p (m, winding) (first + 2 + s) num with hd
  have eq : fanOrStripBatch p (m, winding) (first + 2 + s) num rest =
      if rest ≠ 0 then
        let copied := if d.2 &&& 2 = 0 then d.1.set 0 (d.1.verts 70) else d.1
        let cull := (d.1.verts 70).flags &&& (d.1.verts 71).flags &&& clipAll
        ({ copied.set 1 (d.1.verts 71) with cull := cull }, d.2)
      else d := rfl
  rw [eq]
  by_cases more : rest ≠ 0
  · have full := hfull more
    subst full
    have kept : d.2 = winding := parity rfl
    have v70 := entries.rest 70 (by omega) (by omega)
    have v71 := entries.rest 71 (by omega) (by omega)
    rw [if_pos more]
    refine ⟨?_, fun _ => ⟨kept, ?_, ?_, ?_⟩⟩
    · rw [← drawn]
      split_ifs <;> rfl
    · simp only [kept]
      rcases hw with rfl | rfl
      · simpa [Compile.Machine.set, pivot, Function.update] using v70
      · simpa [Compile.Machine.set, pivot, Function.update] using entries.entry0
    · simpa using v71
    · rw [← v70, ← v71, Pipeline.outside_seen, Pipeline.outside_seen]
      simp only [Vertex.outside]
      ext i
      simp only [BitVec.getElem_and]
      cases (d.1.verts 70).flags[i] <;> cases (d.1.verts 71).flags[i] <;> cases clipAll[i] <;> rfl
  · rw [if_neg more]
    exact ⟨drawn, fun h => absurd h more⟩

end Batch

private theorem carried_start (m : Machine) (first : Int) {winding : Nat}
    (hw : winding = 1 ∨ winding = 2) :
    Carried (p := p) (compileElements p { m with cull := clipAll } 0 first 2, winding) first 0
      winding := by
  have entry (j : Nat) (hj : j < 2) :
      p.seen ((compileElements p { m with cull := clipAll } 0 first 2).verts j) =
        vertexShape p first j := by
    have here := seen_compileElements p { m with cull := clipAll } 0 first 2 hj
    rw [Nat.zero_add] at here
    rw [here, vertexShape, triangleVertex, if_pos hj]
  refine ⟨rfl, ?_, entry 1 (by omega), ?_⟩
  · rw [show pivot winding 0 = 0 by rcases hw with rfl | rfl <;> rfl]
    exact entry 0 (by omega)
  · show (compileElements p { m with cull := clipAll } 0 first 2).cull = _
    rw [compileElements_cull, ← entry 0 (by omega), ← entry 1 (by omega)]
    have v0 := seen_compileElements p { m with cull := clipAll } 0 first 2 (show 0 < 2 by omega)
    have v1 := seen_compileElements p { m with cull := clipAll } 0 first 2 (show 1 < 2 by omega)
    rw [Nat.zero_add] at v0 v1
    rw [v0, v1, Pipeline.outside_seen, Pipeline.outside_seen]
    show clipAll &&& (arrayVertex p first 0).outside &&& (arrayVertex p first 1).outside = _
    rw [Vertex.clipAll_and_outside]

/-- What the batch of the triangles from `s` on issues, of `n` triangles in all. -/
def batchIssue (v : Nat → Shape) (winding s n : Nat) : List (List Shape) :=
  if batchMask v ((v s).outside &&& (v (s + 1)).outside) s (min 70 (n - s)) = 0 then
    primitives (triangle winding v) s (min 70 (n - s)) else []

/-- What the batches from `s` on issue. -/
def batchesIssue (v : Nat → Shape) (winding s n : Nat) : List (List Shape) :=
  if s < n then batchIssue v winding s n ++ batchesIssue v winding (s + 70) n else []
termination_by n - s

variable {v : Nat → Shape} {n : Nat}

private theorem batchesIssue_more {winding s : Nat} (h : s < n) :
    batchesIssue v winding s n = batchIssue v winding s n ++ batchesIssue v winding (s + 70) n := by
  rw [batchesIssue, if_pos h]

private theorem batchesIssue_done {winding s : Nat} (h : n ≤ s) :
    batchesIssue v winding s n = [] := by
  rw [batchesIssue, if_neg (by omega)]

private theorem trace_batches {winding : Nat} (hw : winding = 1 ∨ winding = 2) (first : Int)
    (k : Nat) : ∀ {m : Machine} {s : Nat}, s % 70 = 0 →
      (0 < k → Carried (p := p) (m, winding) first s winding) →
      trace p (batches 70 1 (fanOrStripBatch p) (m, winding) (first + 2 + s) k).1 =
        trace p m ++ batchesIssue (vertexShape p first) winding s (s + k) := by
  induction k using Nat.strong_induction_on with
  | _ k ih =>
    intro m s hs carried
    by_cases hk : k = 0
    · subst hk
      rw [batches_stop (by omega), batchesIssue_done (by omega), List.append_nil]
    · have step := @fanOrStripBatch_spec p m first s (min 70 k) winding (k - min 70 k) hw hs
        (by omega) (by omega) (carried (by omega))
      obtain ⟨issued, next⟩ := step
      rw [batches_step (by omega) (by omega) (by omega)]
      set r := fanOrStripBatch p (m, winding) (first + 2 + s) (min 70 k) (k - min 70 k)
      have here : min 70 (s + k - s) = min 70 k := by omega
      by_cases more : k - min 70 k = 0
      · rw [more, batches_stop (by omega), batchesIssue_more (by omega),
          batchesIssue_done (by omega), List.append_nil, issued, batchIssue, here]
      · have full : min 70 k = 70 := by omega
        have following := next more
        obtain ⟨m', w'⟩ := r
        have hw' : w' = winding := following.winding_eq
        subst hw'
        have rest := @ih (k - 70) (by omega) m' (s + 70) (by omega) fun _ => following
        rw [show s + 70 + (k - 70) = s + k by omega] at rest
        rw [batchesIssue_more (by omega), batchIssue, here, ← List.append_assoc, ← issued, ← rest,
          full]
        congr 3
        omega

theorem trace_fanOrStrip {winding : Nat} (hw : winding = 1 ∨ winding = 2) (m : Machine)
    (first : Int) (count : Nat) :
    trace p (drawPrimitivesTriangleFanOrStrip p m first count winding) =
      trace p m ++ batchesIssue (vertexShape p first) winding 0 (count - 2) := by
  rw [drawPrimitivesTriangleFanOrStrip]
  split_ifs with few
  · rw [batchesIssue_done (by omega), List.append_nil]
  · have start := carried_start p m first hw
    have all := trace_batches p hw first (count - 2) (s := 0) rfl fun _ => start
    simp only [Int.natCast_zero, Int.add_zero, Nat.zero_add] at all
    rw [all]
    exact congrArg (fun calls => List.map (shapes p) calls ++ _)
      (compileElements_calls p { m with cull := clipAll } 0 first 2)

private theorem batchMask_planes (v : Nat → Shape) (s num : Nat) {i : Nat} (h : i < num + 2) :
    let mask := batchMask v ((v s).outside &&& (v (s + 1)).outside) s num
    mask &&& (v (s + i)).outside = mask := by
  intro mask
  obtain ⟨start, rest⟩ := cullMask_and ((v s).outside &&& (v (s + 1)).outside)
    (fun j => (v (s + 2 + j)).outside) num
  by_cases small : i < 2
  · have both : mask &&& ((v s).outside &&& (v (s + 1)).outside) = mask := start
    rw [← both]
    obtain rfl | rfl : i = 0 ∨ i = 1 := by omega
    · ext j
      simp only [BitVec.getElem_and, Nat.add_zero]
      cases (v s).outside[j] <;> simp
    · ext j
      simp only [BitVec.getElem_and]
      cases (v (s + 1)).outside[j] <;> simp
  · have here := rest (i - 2) (by omega)
    simp only [show s + 2 + (i - 2) = s + i by omega] at here
    exact here

private theorem issue_nil {mask : Flags} {a b c : Shape} (hmask : mask ≠ 0)
    (ha : mask &&& a.outside = mask) (hb : mask &&& b.outside = mask)
    (hc : mask &&& c.outside = mask) : issue a b c = [] := by
  rw [issue, if_neg]
  intro none
  apply hmask
  calc mask = mask &&& (a.outside &&& b.outside &&& c.outside) := by
        rw [← BitVec.and_assoc, ← BitVec.and_assoc, ha, hb, hc]
    _ = 0 := by rw [none]; exact BitVec.and_zero

theorem issue_eq_nil_iff {a b c : Shape} :
    issue a b c = [] ↔ a.outside &&& b.outside &&& c.outside ≠ 0 := by
  rw [issue]
  split_ifs with h
  · exact ⟨fun h' => absurd h' (by simp), fun h' => absurd h h'⟩
  · exact ⟨fun _ => h, fun _ => rfl⟩

private theorem batchIssue_strip (v : Nat → Shape) {s : Nat} (hs : s % 70 = 0) :
    batchIssue v 1 s n = primitives (stripTriangle v) s (min 70 (n - s)) := by
  rw [batchIssue]
  split_ifs with mask
  · rfl
  · symm
    apply primitives_eq_nil_iff.mpr
    intro k hk hk'
    have planes (i : Nat) (hi : i ≤ 2) := @batchMask_planes v s (min 70 (n - s)) (k - s + i) (by omega)
    have a := planes 0 (by omega)
    have b := planes 1 (by omega)
    have c := planes 2 (by omega)
    rw [show s + (k - s + 0) = k by omega] at a
    rw [show s + (k - s + 1) = k + 1 by omega] at b
    rw [show s + (k - s + 2) = k + 2 by omega] at c
    rw [stripTriangle]
    split_ifs
    · exact issue_nil mask a b c
    · exact issue_nil mask b a c

private theorem batchesIssue_strip (v : Nat → Shape) (n k : Nat) : ∀ s, s % 70 = 0 → n - s = k →
    batchesIssue v 1 s n = primitives (stripTriangle v) s k := by
  induction k using Nat.strong_induction_on with
  | _ k ih =>
    intro s hs hk
    by_cases more : s < n
    · rw [batchesIssue_more more, batchIssue_strip v hs,
        ih (n - (s + 70)) (by omega) (s + 70) (by omega) rfl, hk]
      by_cases last : k ≤ 70
      · rw [show min 70 k = k by omega, show n - (s + 70) = 0 by omega]
        exact List.append_nil _
      · rw [show min 70 k = 70 by omega, ← primitives_add]
        congr 1
        omega
    · rw [batchesIssue_done (by omega), show k = 0 by omega]
      rfl

theorem trace_strip (m : Machine) (first : Int) (count : Nat) :
    trace p (drawPrimitivesTriangleStrip p m first count) =
      trace p m ++ primitives (stripTriangle (vertexShape p first)) 0 (count - 2) := by
  rw [drawPrimitivesTriangleStrip, trace_fanOrStrip p (.inl rfl),
    batchesIssue_strip _ (count - 2) (count - 2) 0 rfl (by omega)]

/-- In a fan of `n` triangles, each batch from `s` on that the mask rejects has no triangle to
issue. -/
def RejectsOnlyCulled (v : Nat → Shape) (n s : Nat) : Prop :=
  ∀ t, s ≤ t → t < n → t % 70 = 0 →
    batchMask v ((v t).outside &&& (v (t + 1)).outside) t (min 70 (n - t)) ≠ 0 →
    ∀ k, t ≤ k → k < t + 70 → k < n →
      (v 0).outside &&& (v (k + 1)).outside &&& (v (k + 2)).outside ≠ 0

private theorem rejectsOnlyCulled_step {s : Nat} (hs : s % 70 = 0) :
    RejectsOnlyCulled v n s ↔
      (s < n → batchMask v ((v s).outside &&& (v (s + 1)).outside) s (min 70 (n - s)) ≠ 0 →
        primitives (fanTriangle v) s (min 70 (n - s)) = []) ∧ RejectsOnlyCulled v n (s + 70) := by
  constructor
  · intro h
    refine ⟨?_, fun t ht => h t (by omega)⟩
    intro more mask
    apply primitives_eq_nil_iff.mpr
    intro k hk hk'
    exact issue_eq_nil_iff.mpr (h s (Nat.le_refl s) more hs mask k hk (by omega) (by omega))
  · rintro ⟨here, later⟩ t ht more ht70 mask k hk hk70 hkn
    by_cases at_s : t = s
    · subst at_s
      exact issue_eq_nil_iff.mp (primitives_eq_nil_iff.mp (here more mask) k hk (by omega))
    · exact later t (by omega) more ht70 mask k hk hk70 hkn

private theorem batchesIssue_fan (v : Nat → Shape) (n k : Nat) : ∀ s, s % 70 = 0 → n - s = k →
    (batchesIssue v 2 s n).length ≤ (primitives (fanTriangle v) s k).length ∧
      (batchesIssue v 2 s n = primitives (fanTriangle v) s k ↔ RejectsOnlyCulled v n s) := by
  induction k using Nat.strong_induction_on with
  | _ k ih =>
    intro s hs hk
    by_cases more : s < n
    · obtain ⟨short, exact_iff⟩ := ih (n - (s + 70)) (by omega) (s + 70) (by omega) rfl
      have split : primitives (fanTriangle v) s k =
          primitives (fanTriangle v) s (min 70 (n - s)) ++
            primitives (fanTriangle v) (s + 70) (n - (s + 70)) := by
        by_cases last : k ≤ 70
        · rw [show min 70 (n - s) = k by omega, show n - (s + 70) = 0 by omega]
          exact (List.append_nil _).symm
        · rw [show min 70 (n - s) = 70 by omega, ← primitives_add]
          congr 1
          omega
      have here : batchIssue v 2 s n = primitives (fanTriangle v) s (min 70 (n - s)) ∨
          batchIssue v 2 s n = [] := by
        rw [batchIssue]
        split_ifs
        · exact .inl rfl
        · exact .inr rfl
      have shortHere : (batchIssue v 2 s n).length ≤
          (primitives (fanTriangle v) s (min 70 (n - s))).length := by
        rcases here with h | h <;> simp [h]
      have hereIff : batchIssue v 2 s n = primitives (fanTriangle v) s (min 70 (n - s)) ↔
          (batchMask v ((v s).outside &&& (v (s + 1)).outside) s (min 70 (n - s)) ≠ 0 →
            primitives (fanTriangle v) s (min 70 (n - s)) = []) := by
        rw [batchIssue]
        split_ifs with mask
        · exact ⟨fun _ h => absurd mask h, fun _ => rfl⟩
        · exact ⟨fun h _ => h.symm, fun h => (h mask).symm⟩
      rw [batchesIssue_more more, split, List.length_append, List.length_append]
      refine ⟨Nat.add_le_add shortHere short, ?_⟩
      rw [rejectsOnlyCulled_step hs, ← exact_iff]
      constructor
      · intro whole
        have lengths := congrArg List.length whole
        rw [List.length_append, List.length_append] at lengths
        obtain ⟨left, right⟩ := List.append_inj whole (by omega)
        exact ⟨fun _ => hereIff.mp left, right⟩
      · rintro ⟨left, right⟩
        rw [hereIff.mpr (left more), right]
    · rw [batchesIssue_done (by omega), show k = 0 by omega]
      refine ⟨Nat.le_refl _, fun _ t ht more => by omega, fun _ => rfl⟩

/-- The batches of a draw call of `count` vertices all start at elements of 16 bits. -/
def BatchesInRange (first : Int) (count : Nat) : Prop :=
  ∀ b, 70 * b < count - 2 → elementOf first + 2 + 70 * b < 0x10000

theorem triangleVertex_inRange {first : Int} {count : Nat}
    (h : BatchesInRange first count) {k : Nat} (hk : k < count) :
    triangleVertex p first k = arrayVertex p first k := by
  rw [triangleVertex]
  split_ifs with small
  · rfl
  · have range := h ((k - 2) / 70) (by omega)
    have element : elementOf (first + 2 + (70 * ((k - 2) / 70) : Nat)) + (k - 2) % 70 =
        elementOf first + k := by
      simp only [elementOf] at range ⊢
      omega
    rw [arrayVertex, arrayVertex, element]
    congr 1
    omega

/-- Vertex `k` of a draw call from `first` on, in one unbounded buffer. -/
def arrayShape (first : Int) (k : Nat) : Shape := p.seen (arrayVertex p first k)

def spread (element : Nat) : Vec4 := ⟨element, 0, 0, 0⟩

private theorem stripTriangle_flat (h : ∀ k, (v k).outside = 0) (k : Nat) :
    stripTriangle v k =
      [if k % 2 = 0 then [v k, v (k + 1), v (k + 2)] else [v (k + 1), v k, v (k + 2)]] := by
  rw [stripTriangle]
  split_ifs <;> simp [issue, h]

private theorem inRange_of_third {first : Int} {count : Nat}
    (h : ∀ b, 70 * b < count - 2 → vertexShape (.flat spread) first (70 * b + 2) =
      (Pipeline.flat spread).seen (arrayVertex (.flat spread) first (70 * b + 2))) :
    BatchesInRange first count := by
  intro b hb
  have coordinate := congrArg (fun s => s.obj.x) (h b hb)
  rw [vertexShape, triangleVertex, if_neg (by omega)] at coordinate
  have element : ((elementOf (first + 2 + (70 * ((70 * b + 2 - 2) / 70) : Nat)) +
      (70 * b + 2 - 2) % 70 : Nat) : Int) = (elementOf first + (70 * b + 2) : Nat) := coordinate
  simp only [elementOf] at element ⊢
  omega

private theorem flat_inside (element : Nat) (index : Int) :
    ((Pipeline.flat spread).seen ((Pipeline.flat spread).compiled element index)).outside = 0 := by
  rw [Pipeline.outside_seen, Pipeline.flat_outside]

private theorem arrayShape_flat (first : Int) (k : Nat) :
    (arrayShape (.flat spread) first k).outside = 0 :=
  flat_inside _ _

private theorem vertexShape_flat (first : Int) (k : Nat) :
    (vertexShape (.flat spread) first k).outside = 0 := by
  rw [vertexShape, triangleVertex]
  split_ifs <;> exact flat_inside _ _

private theorem strip_flat {first : Int} {count : Nat} (m : Machine)
    (h : trace (.flat spread) (drawPrimitivesTriangleStrip (.flat spread) m first count) =
      trace (.flat spread) m ++
        primitives (stripTriangle (arrayShape (.flat spread) first)) 0 (count - 2)) :
    BatchesInRange first count := by
  rw [trace_strip, List.append_cancel_left_eq,
    primitives_map (stripTriangle_flat (vertexShape_flat first)),
    primitives_map (stripTriangle_flat (arrayShape_flat first)), List.map_inj_left] at h
  apply inRange_of_third
  intro b hb
  have here := h (70 * b) (List.mem_range'_1.mpr ⟨by omega, by omega⟩)
  split_ifs at here
  all_goals
    simp only [List.cons.injEq] at here
    exact here.2.2.1

/-- A strip drawn from arrays issues the triangles of one unbounded buffer, with their winding
and less those outside of one plane, for all arrays exactly if every batch starts at an element
of 16 bits: the first element of each batch is masked, and not that of the draw call alone. -/
theorem strip_triangles (first : Int) (count : Nat) :
    (∀ (p : Pipeline) (m : Machine), trace p (drawPrimitivesTriangleStrip p m first count) =
        trace p m ++
          primitives (stripTriangle fun k => p.seen (arrayVertex p first k)) 0 (count - 2)) ↔
      BatchesInRange first count := by
  constructor
  · intro h
    exact strip_flat Machine.init (h (.flat spread) Machine.init)
  · intro h p m
    rw [trace_strip]
    congr 1
    apply primitives_shift
    intro k hk
    have same (i : Nat) (hi : i ≤ 2) : vertexShape p first (0 + k + i) =
        p.seen (arrayVertex p first (0 + k + i)) := by
      rw [vertexShape, triangleVertex_inRange p h (by omega)]
    have zero := same 0 (by omega)
    rw [Nat.add_zero] at zero
    rw [stripTriangle, stripTriangle, zero, same 1 (by omega), same 2 (by omega)]

/-- The second batch of the strip of 73 vertices from element 65535 on starts at element 71. -/
theorem strip_wraps_elements : ¬ ∀ (p : Pipeline) (m : Machine),
    trace p (drawPrimitivesTriangleStrip p m 65535 73) =
      trace p m ++ primitives (stripTriangle fun k => p.seen (arrayVertex p 65535 k)) 0 71 := by
  intro h
  have range := @strip_flat 65535 73 Machine.init (h (.flat spread) Machine.init) 1 (by omega)
  revert range
  decide

/-- All vertices from `a` to `b` are outside of some plane. -/
def ShareOutside (o : Nat → Flags) (a b : Nat) : Prop :=
  ∃ planes ≠ 0, ∀ k, a ≤ k → k ≤ b → planes &&& o k = planes

/-- Wherever the rim vertices from a multiple of 70 on, but not from 0 on, and as far as 72 of them,
are all outside of one plane, the hub is outside of a plane with every two neighbours among them. -/
def HubOutside (o : Nat → Flags) (count : Nat) : Prop :=
  ∀ s, 0 < s → s % 70 = 0 → s + 2 < count → ShareOutside o s (min (s + 71) (count - 1)) →
    ∀ k, s ≤ k → k < s + 70 → k + 2 < count → o 0 &&& o (k + 1) &&& o (k + 2) ≠ 0

theorem HubOutside.congr {o o' : Nat → Flags} {count : Nat} (h : HubOutside o count)
    (same : ∀ k < count, o k = o' k) : HubOutside o' count := by
  intro s positive multiple more share k low high inside
  obtain ⟨planes, some, all⟩ := share
  rw [← same 0 (by omega), ← same (k + 1) (by omega), ← same (k + 2) (by omega)]
  refine h s positive multiple more ⟨planes, some, fun j left right => ?_⟩ k low high inside
  rw [same j (by omega)]
  exact all j left right

private theorem cullMask_contains {planes c : Flags} {f : Nat → Flags} (n : Nat)
    (start : planes &&& c = planes) (all : ∀ j < n, planes &&& f j = planes) :
    planes &&& cullMask c f n = planes := by
  induction n with
  | zero => exact start
  | succ n ih =>
    rw [cullMask, ← BitVec.and_assoc, ih fun j hj => all j (by omega), all n (by omega)]

private theorem batchMask_iff {v : Nat → Shape} {t count : Nat} (more : t + 2 < count) :
    batchMask v ((v t).outside &&& (v (t + 1)).outside) t (min 70 (count - 2 - t)) ≠ 0 ↔
      ShareOutside (fun k => (v k).outside) t (min (t + 71) (count - 1)) := by
  constructor
  · intro mask
    refine ⟨_, mask, fun k low high => ?_⟩
    have planes := batchMask_planes v t (min 70 (count - 2 - t)) (i := k - t) (by omega)
    rwa [show t + (k - t) = k by omega] at planes
  · rintro ⟨planes, some, all⟩ none
    have kept := cullMask_contains (f := fun j => (v (t + 2 + j)).outside) (min 70 (count - 2 - t))
      (show planes &&& ((v t).outside &&& (v (t + 1)).outside) = planes by
        rw [← BitVec.and_assoc, all t (by omega) (by omega), all (t + 1) (by omega) (by omega)])
      fun j hj => all (t + 2 + j) (by omega) (by omega)
    rw [batchMask] at none
    rw [none] at kept
    exact some (kept.symm.trans BitVec.and_zero)

private theorem rejectsOnlyCulled_iff (v : Nat → Shape) (count : Nat) :
    RejectsOnlyCulled v (count - 2) 0 ↔ HubOutside (fun k => (v k).outside) count := by
  constructor
  · intro h s _ multiple more share k low high inside
    exact h s (Nat.zero_le s) (by omega) multiple ((batchMask_iff more).mpr share) k low high
      (by omega)
  · intro h t _ more multiple mask k low high inside
    by_cases start : t = 0
    · -- the hub is one of the vertices that the first mask is made of
      subst start
      have planes (i : Nat) (hi : i ≤ k + 2) :
          batchMask v ((v 0).outside &&& (v (0 + 1)).outside) 0 (min 70 (count - 2 - 0)) &&&
              (v i).outside =
            batchMask v ((v 0).outside &&& (v (0 + 1)).outside) 0 (min 70 (count - 2 - 0)) := by
        have kept := batchMask_planes v 0 (min 70 (count - 2 - 0)) (i := i) (by omega)
        rwa [Nat.zero_add i] at kept
      exact issue_eq_nil_iff.mp (issue_nil mask (planes 0 (by omega)) (planes (k + 1) (by omega))
        (planes (k + 2) (by omega)))
    · exact h t (by omega) multiple (by omega) ((batchMask_iff (by omega)).mp mask) k low high
        (by omega)

/-- The fan issues the triangles `(v 0, v (k + 1), v (k + 2))` of one unbounded buffer in order,
less those outside of one plane. -/
def Fans (m : Machine) (first : Int) (count : Nat) : Prop :=
  trace p (drawPrimitivesTriangleFan p m first count) =
    trace p m ++ primitives (fanTriangle (arrayShape p first)) 0 (count - 2)

private theorem fan_flat {first : Int} {count : Nat} {m : Machine}
    (h : Fans (.flat spread) m first count)
    (seen : HubOutside (fun k => (vertexShape (.flat spread) first k).outside) count) :
    BatchesInRange first count := by
  have triangles {v : Nat → Shape} (inside : ∀ k, (v k).outside = 0) (k : Nat) :
      fanTriangle v k = [[v 0, v (k + 1), v (k + 2)]] := by
    simp [fanTriangle, issue, inside]
  have drawn := (batchesIssue_fan _ (count - 2) (count - 2) 0 rfl (by omega)).2.mpr
    ((rejectsOnlyCulled_iff _ count).mpr seen)
  rw [Fans, drawPrimitivesTriangleFan, trace_fanOrStrip _ (.inr rfl), List.append_cancel_left_eq,
    drawn, primitives_map (triangles (vertexShape_flat first)),
    primitives_map (triangles (arrayShape_flat first)), List.map_inj_left] at h
  apply inRange_of_third
  intro b hb
  have here := h (70 * b) (List.mem_range'_1.mpr ⟨by omega, by omega⟩)
  simp only [List.cons.injEq] at here
  exact here.2.2.1

private theorem hubOutside_flat (v : Nat → Shape) (count : Nat) (inside : ∀ k, (v k).outside = 0) :
    HubOutside (fun k => (v k).outside) count := by
  rintro s - - more ⟨planes, some, all⟩
  have shared : planes &&& (v s).outside = planes := all s (by omega) (by omega)
  rw [inside] at shared
  exact absurd (shared.symm.trans BitVec.and_zero) some

variable {p} in
private theorem fans_iff {first : Int} {count : Nat} (inRange : BatchesInRange first count)
    (m : Machine) :
    Fans p m first count ↔ HubOutside (fun k => (arrayShape p first k).outside) count := by
  have same (k : Nat) (hk : k < count) : vertexShape p first k = arrayShape p first k := by
    rw [vertexShape, triangleVertex_inRange p inRange hk, arrayShape]
  have triangles : primitives (fanTriangle (arrayShape p first)) 0 (count - 2) =
      primitives (fanTriangle (vertexShape p first)) 0 (count - 2) := by
    apply primitives_shift
    intro k hk
    rw [fanTriangle, fanTriangle, same 0 (by omega), same (0 + k + 1) (by omega),
      same (0 + k + 2) (by omega)]
  rw [Fans, triangles, drawPrimitivesTriangleFan, trace_fanOrStrip p (.inr rfl),
    List.append_cancel_left_eq, (batchesIssue_fan _ (count - 2) (count - 2) 0 rfl (by omega)).2,
    rejectsOnlyCulled_iff]
  have planes (k : Nat) (hk : k < count) :
      (vertexShape p first k).outside = (arrayShape p first k).outside :=
    congrArg Shape.outside (same k hk)
  exact ⟨fun h => h.congr planes, fun h => h.congr fun k hk => (planes k hk).symm⟩

/-- A fan drawn from arrays issues the triangles of one unbounded buffer, for all arrays whose hub is
outside wherever it has to be, exactly if every batch starts at an element of 16 bits; and then for
these arrays only. -/
theorem fan_triangles (first : Int) (count : Nat) :
    ((∀ (p : Pipeline) (m : Machine), HubOutside (fun k => (arrayShape p first k).outside) count →
        Fans p m first count) ↔ BatchesInRange first count) ∧
      (BatchesInRange first count → ∀ (p : Pipeline) (m : Machine),
        Fans p m first count ↔ HubOutside (fun k => (arrayShape p first k).outside) count) := by
  refine ⟨⟨fun h => ?_, fun inRange p m => (fans_iff inRange m).mpr⟩, fun inRange p => fans_iff inRange⟩
  have inside := hubOutside_flat (arrayShape (.flat spread) first) count (arrayShape_flat first)
  exact fan_flat (h (.flat spread) Machine.init inside)
    (hubOutside_flat (vertexShape (.flat spread) first) count (vertexShape_flat first))

/-- The hub and most of the rim in view, the rim from vertex 70 on to the right of it. -/
def farRim (element : Nat) : Vec4 :=
  ⟨if element < 70 then 0 else 0x30000, 0, -0x20000, 0⟩

/-- The fan of 73 vertices loses its last triangle. -/
theorem fan_triangle_lost : ¬Fans (.frustum farRim) Machine.init 0 73 := by
  have inRange : BatchesInRange 0 73 := by
    intro b hb
    have start : elementOf 0 = 0 := rfl
    omega
  rw [fans_iff inRange]
  intro seen
  have mask : batchMask (arrayShape (.frustum farRim) 0)
      ((arrayShape (.frustum farRim) 0 70).outside &&& (arrayShape (.frustum farRim) 0 71).outside) 70
        (min 70 (73 - 2 - 70)) ≠ 0 := by decide +kernel
  have lost := seen 70 (by omega) rfl (by omega) ((batchMask_iff (by omega)).mp mask) 70 (by omega)
    (by omega) (by omega)
  exact lost (by decide +kernel)

end RabbitRender.Arrays.Triangles
