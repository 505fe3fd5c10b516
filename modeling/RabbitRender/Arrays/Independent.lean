/- RabbitRender/Arrays/Independent
   layer: result
   source: swrender/array.cpp, swrender/vertex.cpp
   digest: Points, lines and triangles with vertices of their own, across the batches of the buffer. -/

import RabbitRender.Arrays.Triangles

set_option autoImplicit false

namespace RabbitRender.Arrays.Independent

open Vertices Arrays.Compile Arrays.Draw Arrays.Trace Arrays.Triangles
open Primitives (renderPoint renderLine shaded_renderPoint lineDrawn_renderLine)

def sharedPlanes : List Shape → Flags
  | [] => clipAll
  | v :: vs => v.outside &&& sharedPlanes vs

/-- The vertices of primitive `k`, of `size` vertices each. -/
def own (size : Nat) (v : Nat → Shape) (k : Nat) : List Shape :=
  (List.range size).map fun i => v (size * k + i)

/-- Primitive `k`: it is issued unless all its vertices are outside of one plane. -/
def separate (size : Nat) (v : Nat → Shape) (k : Nat) : List (List Shape) :=
  if sharedPlanes (own size v k) = 0 then [own size v k] else []

variable {j k : Nat} {f g : Nat → Shape}

theorem own_congr {size : Nat} (h : ∀ i < size, f (size * j + i) = g (size * k + i)) :
    own size f j = own size g k := by
  apply List.map_congr_left
  intro i hi
  exact h i (List.mem_range.mp hi)

theorem separate_congr {size : Nat} (h : ∀ i < size, f (size * j + i) = g (size * k + i)) :
    separate size f j = separate size g k := by
  rw [separate, separate, own_congr h]

private theorem sharedPlanes_and {mask : Flags} {vs : List Shape} (hmask : mask &&& clipAll = mask)
    (h : ∀ v ∈ vs, mask &&& v.outside = mask) : mask &&& sharedPlanes vs = mask := by
  induction vs with
  | nil => exact hmask
  | cons v vs ih =>
    rw [sharedPlanes, ← BitVec.and_assoc, h v List.mem_cons_self]
    exact ih fun w hw => h w (List.mem_cons_of_mem v hw)

private theorem separate_culled {mask : Flags} {size : Nat} {v : Nat → Shape} (hmask : mask ≠ 0)
    (hclip : mask &&& clipAll = mask) (h : ∀ i < size, mask &&& (v (size * k + i)).outside = mask) :
    separate size v k = [] := by
  have shared : mask &&& sharedPlanes (own size v k) = mask := by
    apply sharedPlanes_and hclip
    intro s hs
    obtain ⟨i, hi, rfl⟩ := List.mem_map.mp hs
    exact h i (List.mem_range.mp hi)
  rw [separate, if_neg]
  intro none
  rw [none] at shared
  exact hmask (shared.symm.trans BitVec.and_zero)

private theorem separate_first {size n : Nat} (h : ∀ i, g i = f (size + i)) :
    primitives (separate size f) 0 (n + 1) = separate size f 0 ++ primitives (separate size g) 0 n := by
  rw [primitives_succ]
  congr 1
  apply primitives_shift
  intro k _
  apply separate_congr
  intro i _
  rw [h, Nat.zero_add, Nat.zero_add, Nat.mul_add, Nat.mul_one, Nat.add_assoc]

variable (p : Pipeline)

/-- The geometry of the entries from `v` on. -/
def entriesFrom (m : Machine) (v : Nat) (i : Nat) : Shape := p.seen (m.verts (v + i))

private theorem entriesFrom_add (m : Machine) (v size i : Nat) :
    entriesFrom p m (v + size) i = entriesFrom p m v (size + i) := by
  rw [entriesFrom, entriesFrom, Nat.add_assoc]

structure Advanced (m r : Machine) (v size : Nat) : Prop where
  later : ∀ i, v + size ≤ i → p.seen (r.verts i) = p.seen (m.verts i)
  issued : trace p r = trace p m ++ separate size (entriesFrom p m v) 0

private theorem and_clipAll_two (a b : Vertex) :
    a.flags &&& b.flags &&& clipAll = a.outside &&& (b.outside &&& clipAll) := by
  simp only [Vertex.outside]
  ext i
  simp only [BitVec.getElem_and]
  cases a.flags[i] <;> cases b.flags[i] <;> cases clipAll[i] <;> rfl

private theorem advanced_point (m : Machine) (v : Nat) :
    Advanced p m (if (m.verts v).flags &&& clipAll = 0 then renderPoint p m v else m) v 1 := by
  have flags : sharedPlanes (own 1 (entriesFrom p m v) 0) = (m.verts v).flags &&& clipAll := by
    simp only [own, List.range_one, List.map_cons, List.map_nil, sharedPlanes, entriesFrom,
      Pipeline.outside_seen]
    exact (BitVec.and_comm ..).trans (Vertex.clipAll_and_outside _)
  rw [← flags]
  split_ifs with inside
  · have shaded := shaded_renderPoint p m v
    refine ⟨fun i _ => (shaded.verts i).seen _, ?_⟩
    rw [separate, if_pos inside, trace, shaded.calls, List.map_append]
    rfl
  · refine ⟨fun _ _ => rfl, ?_⟩
    rw [separate, if_neg inside, List.append_nil]

private theorem advanced_line (m : Machine) (v : Nat) :
    Advanced p m (if (m.verts v).flags &&& (m.verts (v + 1)).flags &&& clipAll = 0 then
      renderLine p m v (v + 1) else m) v 2 := by
  have flags : sharedPlanes (own 2 (entriesFrom p m v) 0) =
      (m.verts v).flags &&& (m.verts (v + 1)).flags &&& clipAll := by
    rw [and_clipAll_two]
    simp only [own, List.range_succ, List.range_zero, List.nil_append, List.cons_append,
      List.map_cons, List.map_nil, sharedPlanes, entriesFrom, Pipeline.outside_seen]
    rfl
  rw [← flags]
  split_ifs with inside
  · have drawn := lineDrawn_renderLine p m (show v ≠ v + 1 by omega)
    refine ⟨?_, ?_⟩
    · intro i hi
      rw [drawn.others i (by omega) (by omega)]
    · rw [separate, if_pos inside, trace, drawn.calls, List.map_append]
      rfl
  · refine ⟨fun _ _ => rfl, ?_⟩
    rw [separate, if_neg inside, List.append_nil]

private theorem separate_three (v : Nat → Shape) :
    separate 3 v 0 = issue (v 0) (v 1) (v 2) := by
  have planes : sharedPlanes [v 0, v 1, v 2] =
      (v 0).outside &&& (v 1).outside &&& (v 2).outside := by
    have last : (v 2).outside &&& clipAll = (v 2).outside := by
      rw [Shape.outside, BitVec.and_assoc, BitVec.and_self]
    simp only [sharedPlanes, last, BitVec.and_assoc]
  show (if sharedPlanes [v 0, v 1, v 2] = 0 then [[v 0, v 1, v 2]] else []) = _
  rw [planes]
  rfl

private theorem advanced_triangle (m : Machine) (v : Nat) :
    Advanced p m
      (if (m.verts v).flags &&& (m.verts (v + 1)).flags &&& (m.verts (v + 2)).flags &&& clipAll = 0 then
        Primitives.renderTriangle p m v (v + 1) (v + 2) else m) v 3 := by
  have issued := issued_renderTriangle p m v (v + 1) (v + 2)
  refine ⟨fun i _ => issued.geometry i, ?_⟩
  rw [separate_three]
  exact issued.trace

private theorem Advanced.then {m r w : Machine} {v size n : Nat} (first : Advanced p m r v size)
    (rest : trace p w = trace p r ++ primitives (separate size (entriesFrom p r (v + size))) 0 n) :
    trace p w = trace p m ++ primitives (separate size (entriesFrom p m v)) 0 (n + 1) := by
  have entries (i : Nat) : entriesFrom p r (v + size) i = entriesFrom p m v (size + i) := by
    rw [← entriesFrom_add]
    exact first.later _ (by omega)
  rw [rest, first.issued, separate_first entries, List.append_assoc]

private theorem trace_pointRun (num : Nat) (m : Machine) (v : Nat) : trace p (pointRun p num m v) =
    trace p m ++ primitives (separate 1 (entriesFrom p m v)) 0 (num / 1) := by
  rw [Nat.div_one]
  induction num generalizing m v with
  | zero => exact (List.append_nil _).symm
  | succ num ih =>
    exact (advanced_point p m v).then p (ih _ (v + 1))

private theorem trace_linesRun : ∀ (num : Nat) (m : Machine) (v : Nat),
    trace p (linesRun p num m v) =
      trace p m ++ primitives (separate 2 (entriesFrom p m v)) 0 (num / 2)
  | num + 2, m, v => by
    rw [show (num + 2) / 2 = num / 2 + 1 by omega]
    exact (advanced_line p m v).then p (trace_linesRun num _ (v + 2))
  | 0, _, _ => (List.append_nil _).symm
  | 1, _, _ => (List.append_nil _).symm

private theorem trace_trianglesRun : ∀ (num : Nat) (m : Machine) (v : Nat),
    trace p (trianglesRun p num m v) =
      trace p m ++ primitives (separate 3 (entriesFrom p m v)) 0 (num / 3)
  | num + 3, m, v => by
    rw [show (num + 3) / 3 = num / 3 + 1 by omega]
    exact (advanced_triangle p m v).then p (trace_trianglesRun num _ (v + 3))
  | 0, _, _ => (List.append_nil _).symm
  | 1, _, _ => (List.append_nil _).symm
  | 2, _, _ => (List.append_nil _).symm

/-- Vertex `k` of the draw call as it is compiled, in batches of 72. -/
def separateVertex (first : Int) (k : Nat) : Vertex :=
  arrayVertex p (first + (72 * (k / 72) : Nat)) (k % 72)

/-- The geometry of vertex `k`. -/
def separateShape (first : Int) (k : Nat) : Shape := p.seen (separateVertex p first k)

private theorem separateShape_batch (first : Int) {s : Nat} (hs : 72 ∣ s) (hj : j < 72) :
    p.seen (arrayVertex p (first + s) j) = separateShape p first (s + j) := by
  rw [separateShape, separateVertex, show 72 * ((s + j) / 72) = s by omega,
    show (s + j) % 72 = j by omega]

/-- The loop body of `drawPrimitivesPoints`, `drawPrimitivesLines` and `drawPrimitivesTriangles`. -/
def separateBatch (draw : Nat → Machine → Nat → Machine) (m : Machine) (first : Int)
    (num _rest : Nat) : Machine :=
  let m := compileElements p { m with cull := clipAll } 0 first num
  if m.cull = 0 then draw num m 0 else m

variable {p}
variable {size : Nat} {draw : Nat → Machine → Nat → Machine}

/-- What a loop over `size` entries at a time issues. -/
def Runs (p : Pipeline) (size : Nat) (draw : Nat → Machine → Nat → Machine) : Prop :=
  ∀ num m v, trace p (draw num m v) =
    trace p m ++ primitives (separate size (entriesFrom p m v)) 0 (num / size)

private theorem own_within {num i : Nat} (hk : k < num / size) (hi : i < size) :
    size * k + i < num := by
  have whole : size * (num / size) ≤ num := Nat.mul_div_le num size
  have next : size * (k + 1) ≤ size * (num / size) := Nat.mul_le_mul_left size hk
  rw [Nat.mul_add] at next
  omega

theorem trace_separateBatch (hdraw : Runs p size draw) (hsize : size ∣ 72) (m : Machine)
    (first : Int) {s num : Nat} (rest : Nat) (hs : 72 ∣ s) (hnum : num ≤ 72) :
    trace p (separateBatch p draw m (first + s) num rest) =
      trace p m ++ primitives (separate size (separateShape p first)) (s / size) (num / size) := by
  have start : size * (s / size) = s := Nat.mul_div_cancel' (Nat.dvd_trans hsize hs)
  set c := compileElements p { m with cull := clipAll } 0 (first + s) num with hc
  have calls : trace p c = trace p m :=
    congrArg (List.map (shapes p)) (compileElements_calls p _ 0 (first + s) num)
  have cull : c.cull = cullMask clipAll (fun j => (separateShape p first (s + j)).outside) num := by
    rw [hc, compileElements_cull]
    apply cullMask_congr
    intro j hj
    rw [← Pipeline.outside_seen, separateShape_batch p first hs (by omega)]
  rw [separateBatch]
  simp only [← hc]
  split_ifs with inside
  · rw [hdraw, calls]
    congr 1
    apply primitives_shift
    intro k hk
    apply separate_congr
    intro i hi
    have within := own_within hk hi
    rw [Nat.zero_add, Nat.mul_add, start, Nat.add_assoc, entriesFrom,
      seen_compileElements p _ 0 _ num within, separateShape_batch p first hs (by omega)]
  · obtain ⟨planes, shared⟩ :=
      cullMask_and clipAll (fun j => (separateShape p first (s + j)).outside) num
    rw [← cull] at planes shared
    rw [calls, primitives_eq_nil_iff.mpr, List.append_nil]
    intro k low high
    apply separate_culled inside planes
    intro i hi
    obtain ⟨j, rfl⟩ := Nat.exists_eq_add_of_le low
    rw [Nat.mul_add, start, Nat.add_assoc]
    exact shared _ (own_within (show j < num / size by omega) hi)

private theorem trace_separateBatches (hdraw : Runs p size draw) (hpos : 0 < size)
    (hsize : size ∣ 72) (first : Int) (n : Nat) : ∀ (m : Machine) (s : Nat), 72 ∣ s →
    trace p (batches 72 size (separateBatch p draw) m (first + s) n) =
      trace p m ++ primitives (separate size (separateShape p first)) (s / size) (n / size) := by
  induction n using Nat.strong_induction_on with
  | _ n ih =>
    intro m s hs
    by_cases few : n < size
    · rw [batches_stop (.inl few), Nat.div_eq_of_lt few]
      exact (List.append_nil _).symm
    · have batch := @trace_separateBatch p size draw hdraw hsize m first s (min 72 n)
        (n - min 72 n) hs (by omega)
      rw [batches_step (by omega) (by omega) (by omega)]
      by_cases last : n ≤ 72
      · rw [batches_stop (.inr (.inl (by omega))), batch, show min 72 n = n by omega]
      · have full : min 72 n = 72 := by omega
        have rest := ih (n - 72) (by omega) (separateBatch p draw m (first + s) 72 (n - 72)) (s + 72)
          (by omega)
        have whole (k : Nat) : (k + 72) / size = k / size + 72 / size := by
          obtain ⟨q, hq⟩ := hsize
          rw [hq, Nat.add_mul_div_left _ _ hpos, Nat.mul_div_cancel_left q hpos]
        have count : n / size = 72 / size + (n - 72) / size := by
          rw [Nat.add_comm, ← whole, show n - 72 + 72 = n by omega]
        rw [full] at batch ⊢
        rw [show first + (s : Int) + (72 : Nat) = first + (s + 72 : Nat) by omega, rest, batch, whole s,
          count, primitives_add, List.append_assoc]

private theorem trace_separate (hdraw : Runs p size draw) (hpos : 0 < size) (hsize : size ∣ 72)
    (m : Machine) (first : Int) (count : Nat) :
    trace p (if count < size then m else batches 72 size (separateBatch p draw) m first count) =
      trace p m ++ primitives (separate size (separateShape p first)) 0 (count / size) := by
  have all := trace_separateBatches hdraw hpos hsize first count m 0 (Nat.dvd_zero 72)
  rw [Nat.zero_div] at all
  simp only [Int.natCast_zero, Int.add_zero] at all
  split_ifs with few
  · rw [Nat.div_eq_of_lt few]
    exact (List.append_nil _).symm
  · exact all

/-- Points, lines and triangles drawn from arrays issue their primitives in order, each of its own
consecutive vertices as the batches of 72 compile them, less those with all vertices outside of one
plane. -/
theorem independent_primitives (p : Pipeline) (m : Machine) (first : Int) (count : Nat) :
    trace p (drawPrimitivesPoints p m first count) =
        trace p m ++ primitives (separate 1 (separateShape p first)) 0 (count / 1) ∧
      trace p (drawPrimitivesLines p m first count) =
        trace p m ++ primitives (separate 2 (separateShape p first)) 0 (count / 2) ∧
      trace p (drawPrimitivesTriangles p m first count) =
        trace p m ++ primitives (separate 3 (separateShape p first)) 0 (count / 3) :=
  ⟨trace_separate (trace_pointRun p) (by decide) (by decide) m first count,
    trace_separate (trace_linesRun p) (by decide) (by decide) m first count,
    trace_separate (trace_trianglesRun p) (by decide) (by decide) m first count⟩

end RabbitRender.Arrays.Independent
