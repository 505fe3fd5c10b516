/- RabbitRender/Raster/Passes
   layer: proof
   source: libpixelflinger/trap.cpp
   digest: Every scanline between the top and the bottom of a triangle is swept once, by the two
     edges that cross it. -/

import Mathlib.Data.Int.Range
import RabbitRender.Raster.Sweep

set_option autoImplicit false

namespace RabbitRender.Raster.Passes

open Fixed Raster.Edges Raster.Sweep Raster.Trap

/-- A pass of the loop of `triangle_sweep_edges`: its scanline, the places in `edges` of the two
records it steps, the span it hands to the rasterizer when that is not empty. -/
structure Pass where
  y : Int
  left : Nat
  right : Nat
  xl : Int
  xr : Int
deriving DecidableEq, Repr

/-- The loop of `triangle_sweep_edges`. -/
def sweepPasses (scissor : Scissor) (left right : Nat) (leftXi rightXi : Int) :
    (count : Nat) → (leftX rightX y : Int) → List Pass
  | 0, _, _, _ => []
  | count + 1, leftX, rightX, y =>
    ⟨y, left, right, max (leftX >>> (16 : Nat)) scissor.left,
      min (rightX >>> (16 : Nat)) scissor.right⟩ ::
      sweepPasses scissor left right leftXi rightXi count (wrap32 (leftX + leftXi))
        (wrap32 (rightX + rightXi)) (y + 1)

/-- `triangle_sweep_edges` from the scanline `y`: its passes, the records and the scanline after it.
None when a record is read that was not set up. -/
def sweepEdges (scissor : Scissor) (edges : List Edge) (left right : Nat) (ytop ybot y : Int) :
    Option (List Pass × List Edge × Int) :=
  let count := (ybot - ytop) >>> (4 : Nat) + 1
  if count ≤ 0 then some ([], edges, y)
  else do
    let l ← edges[left]?
    let r ← edges[right]?
    let passes :=
      if l.after r then sweepPasses scissor right left r.xIncr l.xIncr count.toNat r.x l.x y
      else sweepPasses scissor left right l.xIncr r.xIncr count.toNat l.x r.x y
    some (passes, (edges.set left (l.advance count)).set right (r.advance count), y + count)

/-- The places of the records that `left`, `right` and `other` point to, the first and the last
scanline. -/
def pointers (edges : List Edge) : Option (Nat × Nat × Nat × Int × Int) := do
  let edge0 ← edges[0]?
  let edge1 ← edges[1]?
  let yTop := min edge0.yTop edge1.yTop
  let yBot := max edge0.yBot edge1.yBot
  if edges.length = 3 then
    let edge2 ← edges[2]?
    let yTop := min yTop edge2.yTop
    let yBot := max yBot edge2.yBot
    if edge0.yTop > yTop then some (2, 1, 0, yTop, yBot)
    else if edge1.yTop > yTop then some (0, 2, 1, yTop, yBot)
    else some (0, 1, 2, yTop, yBot)
  else some (0, 1, 2, yTop, yBot)

/-- `trianglex_big` after the setup of its edges. -/
def edgePasses (scissor : Scissor) (edges : List Edge) : Option (List Pass) :=
  if edges.length < 2 then some []
  else do
    let (left, right, other, yTop, yBot) ← pointers edges
    let l ← edges[left]?
    let r ← edges[right]?
    let yMid := min l.yBot r.yBot
    let (upper, edges, y) ← sweepEdges scissor edges left right yTop yMid (yTop >>> (4 : Nat))
    let yMid := yMid + triOne
    if yMid ≤ yBot then
      let l ← edges[left]?
      let next ← edges[other]?
      let (left, right) := if l.yBot = yBot then (left, other) else (other, right)
      let edges := if next.yTop < yMid then edges.set other (next.advance 1) else edges
      let (lower, _, _) ← sweepEdges scissor edges left right yMid yBot y
      some (upper ++ lower)
    else some upper

/-- The records that `trianglex_big` sets up. -/
def setupEdges (scissor : Scissor) (v0 v1 v2 : Vertex) : List Edge :=
  let ymin := scissor.top * triOne + triHalf
  let ymax := scissor.bottom * triOne - triHalf
  [edgeSetup v0 v1 ymin ymax, edgeSetup v0 v2 ymin ymax, edgeSetup v1 v2 ymin ymax].filterMap id

/-- `trianglex_big` -/
def trianglexPasses (scissor : Scissor) (v0 v1 v2 : Vertex) : Option (List Pass) :=
  edgePasses scissor (setupEdges scissor v0 v1 v2)

/-- The calls of `c->scanline` in some passes. -/
def spans (passes : List Pass) : List Span :=
  passes.filterMap fun pass => if pass.xl < pass.xr then some ⟨pass.y, pass.xl, pass.xr⟩ else none

@[simp] theorem spans_append (passes more : List Pass) :
    spans (passes ++ more) = spans passes ++ spans more := List.filterMap_append

theorem spans_sweepPasses (scissor : Scissor) (left right : Nat) (leftXi rightXi : Int)
    (count : Nat) (leftX rightX y : Int) :
    spans (sweepPasses scissor left right leftXi rightXi count leftX rightX y) =
      sweepRows scissor leftXi rightXi count leftX rightX y := by
  induction count generalizing leftX rightX y with
  | zero => rfl
  | succ count ih =>
    rw [sweepPasses, sweepRows, spans, List.filterMap_cons, ← spans, ih]
    split_ifs <;> rfl

variable {edges : List Edge} {i left right other : Nat} {e l r u w : Edge} {s t : Int}
    {m a b v0 v1 v2 : Vertex}

theorem set_self (here : edges[i]? = some e) : edges.set i e = edges := by
  obtain ⟨inside, rfl⟩ := List.getElem?_eq_some_iff.mp here
  exact List.set_getElem_self inside

/-- A sweep of two records draws what the sweep of the edges in them draws, and leaves them where
that leaves the edges. -/
theorem sweepEdges_eq (scissor : Scissor) (hl : edges[left]? = some l) (hr : edges[right]? = some r)
    (ytop ybot y : Int) :
    ∃ passes, sweepEdges scissor edges left right ytop ybot y =
        some (passes, (edges.set left (triangleSweepEdges scissor l r ytop ybot y).2.1).set right
          (triangleSweepEdges scissor l r ytop ybot y).2.2.1,
          (triangleSweepEdges scissor l r ytop ybot y).2.2.2) ∧
      spans passes = (triangleSweepEdges scissor l r ytop ybot y).1 := by
  unfold sweepEdges triangleSweepEdges
  dsimp only
  split_ifs with none swapped
  · exact ⟨[], by rw [set_self hl, set_self hr], rfl⟩
  · rw [hl, hr]
    refine ⟨_, rfl, ?_⟩
    rw [if_pos swapped]
    exact spans_sweepPasses ..
  · rw [hl, hr]
    refine ⟨_, rfl, ?_⟩
    rw [if_neg swapped]
    exact spans_sweepPasses ..

theorem pointers_two (e0 e1 : Edge) :
    pointers [e0, e1] =
      some (0, 1, 2, min e0.yTop e1.yTop, max e0.yBot e1.yBot) := rfl

theorem pointers_three (e0 e1 e2 : Edge) :
    pointers [e0, e1, e2] =
      let yTop := min (min e0.yTop e1.yTop) e2.yTop
      let yBot := max (max e0.yBot e1.yBot) e2.yBot
      if e0.yTop > yTop then some (2, 1, 0, yTop, yBot)
      else if e1.yTop > yTop then some (0, 2, 1, yTop, yBot)
      else some (0, 1, 2, yTop, yBot) := rfl

/-- The pointers are to two different records, and not to the one that waits. -/
structure Apart (left right other : Nat) : Prop where
  sides : left ≠ right
  left : left ≠ other
  right : right ≠ other

theorem moved_record (late : Prop) [Decidable late] (here : edges[other]? = some e) :
    (if late then edges.set other (e.advance 1) else edges)[other]? =
        some (if late then e.advance 1 else e) ∧
      ∀ i, i ≠ other →
        (if late then edges.set other (e.advance 1) else edges)[i]? = edges[i]? := by
  split_ifs
  · have inside := (List.getElem?_eq_some_iff.mp here).1
    exact ⟨List.getElem?_set_self inside, fun i apart => List.getElem?_set_ne apart.symm⟩
  · exact ⟨here, fun _ _ => rfl⟩

theorem edgePasses_spans_of_pointers (scissor : Scissor) {yTop yBot : Int}
    (enough : 2 ≤ edges.length) (targets : pointers edges = some (left, right, other, yTop, yBot))
    (apart : Apart left right other) (hl : edges[left]? = some l) (hr : edges[right]? = some r) :
    (edgePasses scissor edges).map spans = sweeps scissor l r edges[other]? yTop yBot := by
  have many : ¬edges.length < 2 := by omega
  obtain ⟨sides, waitsLeft, waitsRight⟩ := apart
  obtain ⟨upper, first, drawn⟩ := sweepEdges_eq scissor hl hr yTop (min l.yBot r.yBot)
    (yTop >>> (4 : Nat))
  unfold edgePasses sweeps
  rw [if_neg many]
  simp only [targets, hl, hr, first, Option.bind_eq_bind, Option.bind_some]
  generalize triangleSweepEdges scissor l r yTop (min l.yBot r.yBot) (yTop >>> (4 : Nat)) = sweep
    at *
  obtain ⟨spansUpper, l', r', y⟩ := sweep
  have insideLeft : left < edges.length := (List.getElem?_eq_some_iff.mp hl).1
  have insideRight : right < edges.length := (List.getElem?_eq_some_iff.mp hr).1
  have hl' : ((edges.set left l').set right r')[left]? = some l' := by
    rw [List.getElem?_set_ne sides.symm, List.getElem?_set_self insideLeft]
  have hr' : ((edges.set left l').set right r')[right]? = some r' := by
    rw [List.getElem?_set_self (by simpa using insideRight)]
  have kept : ((edges.set left l').set right r')[other]? = edges[other]? := by
    rw [List.getElem?_set_ne waitsRight, List.getElem?_set_ne waitsLeft]
  dsimp only at drawn ⊢
  generalize (edges.set left l').set right r' = edges' at *
  by_cases more : min l.yBot r.yBot + triOne ≤ yBot
  · rw [if_pos more, if_pos more, hl', kept]
    cases waiting : edges[other]? with
    | none => rfl
    | some e =>
      rw [waiting] at kept
      obtain ⟨hw, others⟩ := moved_record (e.yTop < min l.yBot r.yBot + triOne) kept
      simp only [Option.bind_some, Option.map_some]
      generalize (if e.yTop < min l.yBot r.yBot + triOne then edges'.set other (e.advance 1)
        else edges') = moved at *
      rw [← others left waitsLeft] at hl'
      rw [← others right waitsRight] at hr'
      by_cases last : l'.yBot = yBot
      · obtain ⟨lower, second, drawn'⟩ := sweepEdges_eq scissor hl' hw
          (min l.yBot r.yBot + triOne) yBot y
        simp only [if_pos last, second, Option.bind_some, Option.map_some, spans_append, drawn,
          drawn']
      · obtain ⟨lower, second, drawn'⟩ := sweepEdges_eq scissor hw hr'
          (min l.yBot r.yBot + triOne) yBot y
        simp only [if_neg last, second, Option.bind_some, Option.map_some, spans_append, drawn,
          drawn']
  · rw [if_neg more, if_neg more, Option.map_some, drawn]

theorem edgePasses_spans (scissor : Scissor) (few : edges.length ≤ 3) :
    (edgePasses scissor edges).map spans = fillEdges scissor edges := by
  rcases edges with - | ⟨e0, - | ⟨e1, - | ⟨e2, - | ⟨e3, more⟩⟩⟩⟩
  · rfl
  · rfl
  · rw [edgePasses_spans_of_pointers scissor (by simp) (pointers_two e0 e1)
      ⟨by decide, by decide, by decide⟩ rfl rfl]
    rfl
  · have targets := pointers_three e0 e1 e2
    rw [fillEdges, sides]
    dsimp only at targets ⊢
    split_ifs at targets ⊢ with later0 later1
    all_goals
      exact edgePasses_spans_of_pointers scissor (by simp) targets
        ⟨by decide, by decide, by decide⟩ rfl rfl
  · simp only [List.length_cons] at few
    omega

theorem mem_range (s t y : Int) : y ∈ Int.range s t ↔ s ≤ y ∧ y < t := Int.mem_range_iff

theorem range_add_nat (s : Int) (n : Nat) :
    Int.range s (s + n) = (List.range n).map fun i : Nat => s + (i : Int) := by
  rw [Int.range, add_sub_cancel_left, Int.toNat_natCast]

theorem range_append {u : Int} (first : s ≤ t) (second : t ≤ u) :
    Int.range s t ++ Int.range t u = Int.range s u := by
  obtain ⟨n, rfl⟩ : ∃ n : Nat, t = s + n := ⟨(t - s).toNat, by omega⟩
  obtain ⟨k, rfl⟩ : ∃ k : Nat, u = s + n + k := ⟨(u - (s + n)).toNat, by omega⟩
  have whole := range_add_nat s (n + k)
  push_cast at whole
  rw [add_assoc s, whole, List.range_add, List.map_append, ← range_add_nat, ← add_assoc,
    range_add_nat (s + n), List.map_map]
  congr 1
  refine List.map_congr_left fun i _ => ?_
  simp only [Function.comp_apply]
  push_cast
  ring

theorem range_increasing (s t : Int) : (Int.range s t).Pairwise (· < ·) := by
  rw [Int.range, List.pairwise_map]
  exact List.pairwise_lt_range.imp fun before => by omega

/-- The passes sweep the scanlines from `s` up to `t`, each once, and step two records. -/
structure Swept (passes : List Pass) (i j : Nat) (s t : Int) : Prop where
  rows : passes.map Pass.y = Int.range s t
  records : ∀ pass ∈ passes, (pass.left = i ∧ pass.right = j) ∨ (pass.left = j ∧ pass.right = i)

theorem Swept.swap {passes : List Pass} {j : Nat} (swept : Swept passes i j s t) :
    Swept passes j i s t :=
  ⟨swept.rows, fun pass member => (swept.records pass member).symm⟩

theorem sweepPasses_swept (scissor : Scissor) (left right : Nat) (leftXi rightXi : Int)
    (count : Nat) (leftX rightX y : Int) :
    Swept (sweepPasses scissor left right leftXi rightXi count leftX rightX y) left right y
      (y + count) := by
  induction count generalizing leftX rightX y with
  | zero => exact ⟨by simp [sweepPasses, Int.range], by simp [sweepPasses]⟩
  | succ count ih =>
    obtain ⟨rows, records⟩ := ih (wrap32 (leftX + leftXi)) (wrap32 (rightX + rightXi)) (y + 1)
    refine ⟨?_, ?_⟩
    · have one : Int.range y (y + 1) = [y] := by simp [Int.range]
      rw [sweepPasses, List.map_cons, rows, ← List.singleton_append, ← one,
        range_append (by omega) (by omega)]
      congr 1
      push_cast
      ring
    · rw [sweepPasses, List.forall_mem_cons]
      exact ⟨.inl ⟨rfl, rfl⟩, records⟩

theorem sweepEdges_swept (scissor : Scissor) (hl : edges[left]? = some l)
    (hr : edges[right]? = some r) (nonempty : s < t) :
    ∃ passes, sweepEdges scissor edges left right (16 * s + 8) (16 * t - 8) s =
        some (passes, (edges.set left (l.advance (t - s))).set right (r.advance (t - s)), t) ∧
      Swept passes left right s t := by
  have count : (16 * t - 8 - (16 * s + 8)) >>> (4 : Nat) + 1 = t - s := by
    rw [Int.shiftRight_eq_div_pow]
    norm_num
    omega
  obtain ⟨n, hn⟩ : ∃ n : Nat, t - s = n := ⟨(t - s).toNat, by omega⟩
  have last : t = s + n := by omega
  subst last
  have some : ¬(n : Int) ≤ 0 := by omega
  rw [add_sub_cancel_left] at count ⊢
  unfold sweepEdges
  simp only [count, if_neg some, hl, hr, Option.bind_eq_bind, Option.bind_some, Int.toNat_natCast]
  refine ⟨_, rfl, ?_⟩
  split_ifs
  · exact (sweepPasses_swept ..).swap
  · exact sweepPasses_swept ..

theorem row_of_centre (s : Int) : (16 * s + 8) >>> (4 : Nat) = s := by
  rw [Int.shiftRight_eq_div_pow]
  norm_num
  omega

theorem edgePasses_one (scissor : Scissor) (nonempty : s < t) (enough : 2 ≤ edges.length)
    (targets : pointers edges = some (left, right, other, 16 * s + 8, 16 * t - 8))
    (hl : edges[left]? = some l) (hr : edges[right]? = some r)
    (ends : l.yBot = 16 * t - 8 ∧ r.yBot = 16 * t - 8) :
    ∃ passes, edgePasses scissor edges = some passes ∧ Swept passes left right s t := by
  obtain ⟨passes, run, swept⟩ := sweepEdges_swept scissor hl hr nonempty
  have many : ¬edges.length < 2 := by omega
  have past : ¬16 * t - 8 + triOne ≤ 16 * t - 8 := by
    unfold triOne
    omega
  refine ⟨passes, ?_, swept⟩
  unfold edgePasses
  rw [if_neg many]
  simp only [targets, hl, hr, ends.1, ends.2, min_self, row_of_centre, run, Option.bind_eq_bind,
    Option.bind_some, if_neg past]

theorem edgePasses_both (scissor : Scissor) {long : Nat} {m : Int} (upper : s < m) (lower : m < t)
    (enough : 2 ≤ edges.length)
    (targets : pointers edges = some (left, right, other, 16 * s + 8, 16 * t - 8))
    (apart : Apart left right other) (hl : edges[left]? = some l) (hr : edges[right]? = some r)
    (hw : edges[other]? = some w) (starts : w.yTop = 16 * m + 8)
    (ends : l.yBot = 16 * t - 8 ∧ r.yBot = 16 * m - 8 ∧ long = left ∨
      l.yBot = 16 * m - 8 ∧ r.yBot = 16 * t - 8 ∧ long = right) :
    ∃ first second, edgePasses scissor edges = some (first ++ second) ∧
      Swept first left right s m ∧ Swept second long other m t := by
  obtain ⟨sides, waitsLeft, waitsRight⟩ := apart
  obtain ⟨first, run, swept⟩ := sweepEdges_swept scissor hl hr upper
  have many : ¬edges.length < 2 := by omega
  have mid : min l.yBot r.yBot = 16 * m - 8 := by omega
  have next : 16 * m - 8 + triOne = 16 * m + 8 := by
    unfold triOne
    omega
  have more : 16 * m + 8 ≤ 16 * t - 8 := by omega
  have insideLeft : left < edges.length := (List.getElem?_eq_some_iff.mp hl).1
  have insideRight : right < edges.length := (List.getElem?_eq_some_iff.mp hr).1
  generalize hmoved : (edges.set left (l.advance (m - s))).set right (r.advance (m - s)) = moved
    at run
  have hl' : moved[left]? = some (l.advance (m - s)) := by
    rw [← hmoved, List.getElem?_set_ne sides.symm, List.getElem?_set_self insideLeft]
  have hr' : moved[right]? = some (r.advance (m - s)) := by
    rw [← hmoved, List.getElem?_set_self (by simpa using insideRight)]
  have hw' : moved[other]? = some w := by
    rw [← hmoved, List.getElem?_set_ne waitsRight, List.getElem?_set_ne waitsLeft, hw]
  rcases ends with ⟨leftEnd, rightEnd, rfl⟩ | ⟨leftEnd, rightEnd, rfl⟩
  · obtain ⟨second, run', swept'⟩ := sweepEdges_swept scissor hl' hw' lower
    refine ⟨first, second, ?_, swept, swept'⟩
    unfold edgePasses
    rw [if_neg many]
    simp only [targets, hl, hr, mid, next, row_of_centre, run, hl', hw', starts,
      lt_self_iff_false, if_pos more, if_false, Option.bind_eq_bind, Option.bind_some]
    simp only [advance_yBot, leftEnd, if_true, run', Option.bind_some]
  · obtain ⟨second, run', swept'⟩ := sweepEdges_swept scissor hw' hr' lower
    have short : ¬16 * m - 8 = 16 * t - 8 := by omega
    refine ⟨first, second, ?_, swept, swept'.swap⟩
    unfold edgePasses
    rw [if_neg many]
    simp only [targets, hl, hr, mid, next, row_of_centre, run, hl', hw', starts,
      lt_self_iff_false, if_pos more, if_false, Option.bind_eq_bind, Option.bind_some]
    simp only [advance_yBot, leftEnd, if_neg short, run', Option.bind_some]

def Active (e : Edge) (y : Int) : Prop := e.yTop ≤ 16 * y + 8 ∧ 16 * y + 8 ≤ e.yBot

instance (e : Edge) (y : Int) : Decidable (Active e y) := inferInstanceAs (Decidable (_ ∧ _))

/-- The records of the edges that cross the scanline are those at two places. -/
def ActiveAt (edges : List Edge) (i j : Nat) (y : Int) : Prop :=
  ∀ k, (∃ e, edges[k]? = some e ∧ Active e y) ↔ k = i ∨ k = j

/-- The passes sweep the scanlines from `s` up to `t`, each once, by the two records that are active
there. -/
structure SweptOnce (edges : List Edge) (passes : List Pass) (s t : Int) : Prop where
  rows : passes.map Pass.y = Int.range s t
  active : ∀ pass ∈ passes, pass.left ≠ pass.right ∧ ActiveAt edges pass.left pass.right pass.y

theorem active_record (scissor : Scissor) (p q : Vertex) (y : Int) :
    Active (record scissor p q) y ↔ top scissor p ≤ y ∧ y < bottom scissor q := by
  simp only [Active, record_yTop, record_yBot]
  omega

def Crosses (scissor : Scissor) (p q : Vertex) (y : Int) : Prop :=
  (scissor.top ≤ y ∧ y < scissor.bottom) ∧ min p.y q.y < 16 * y + 8 ∧ 16 * y + 8 ≤ max p.y q.y

theorem active_edgeSetup (scissor : Scissor) (p q : Vertex) (y : Int) :
    (∃ e, edgeSetup p q (scissor.top * triOne + triHalf) (scissor.bottom * triOne - triHalf) =
      some e ∧ Active e y) ↔ Crosses scissor p q y := by
  have ordered (p q : Vertex) (down : Down p q) : (∃ e, edgeSetup p q
      (scissor.top * triOne + triHalf) (scissor.bottom * triOne - triHalf) = some e ∧
      Active e y) ↔ Crosses scissor p q y := by
    have rows : Crosses scissor p q y ↔ top scissor p ≤ y ∧ y < bottom scissor q := by
      unfold Down oddRow at down
      unfold Crosses top bottom firstRow oddRow
      omega
    rw [edgeSetup_eq scissor down, rows, ← active_record]
    split_ifs with crossed
    · simp
    · rw [active_record]
      simp
      omega
  rcases le_total (oddRow p.y) (oddRow q.y) with down | up
  · exact ordered p q down
  · rw [edgeSetup_comm, ordered q p up, Crosses, Crosses, min_comm, max_comm]

theorem Swept.once {passes : List Pass} {j : Nat} (swept : Swept passes i j s t) (apart : i ≠ j)
    (active : ∀ y, s ≤ y → y < t → ActiveAt edges i j y) : SweptOnce edges passes s t := by
  refine ⟨swept.rows, fun pass member => ?_⟩
  have row : pass.y ∈ Int.range s t := swept.rows ▸ List.mem_map_of_mem member
  rw [mem_range] at row
  have here := active pass.y row.1 row.2
  rcases swept.records pass member with ⟨left, right⟩ | ⟨left, right⟩
  · rw [left, right]
    exact ⟨apart, here⟩
  · rw [left, right]
    exact ⟨apart.symm, fun k => (here k).trans or_comm⟩

theorem SweptOnce.append {first second : List Pass} {m : Int} (upper : SweptOnce edges first s m)
    (lower : SweptOnce edges second m t) (hsm : s ≤ m) (hmt : m ≤ t) :
    SweptOnce edges (first ++ second) s t := by
  refine ⟨?_, fun pass member => ?_⟩
  · rw [List.map_append, upper.rows, lower.rows, range_append hsm hmt]
  · rcases List.mem_append.mp member with above | below
    · exact upper.active pass above
    · exact lower.active pass below

theorem edgePasses_two (scissor : Scissor) {f : Edge} (nonempty : s < t)
    (starts : e.yTop = 16 * s + 8 ∧ f.yTop = 16 * s + 8)
    (ends : e.yBot = 16 * t - 8 ∧ f.yBot = 16 * t - 8) :
    ∃ passes, edgePasses scissor [e, f] = some passes ∧ SweptOnce [e, f] passes s t := by
  have targets := pointers_two e f
  rw [starts.1, starts.2, ends.1, ends.2, min_self, max_self] at targets
  obtain ⟨passes, run, swept⟩ := edgePasses_one scissor nonempty (by simp) targets rfl rfl ends
  refine ⟨passes, run, swept.once (by decide) fun y after before k => ?_⟩
  rcases k with - | - | k
  · simp [Active]
    omega
  · simp [Active]
    omega
  · simp

structure Placed (edges : List Edge) (u l w : Edge) (iu il iw : Nat) : Prop where
  upper : edges[iu]? = some u
  long : edges[il]? = some l
  lower : edges[iw]? = some w
  apart : Apart iu il iw
  others : ∀ k, k ≠ iu → k ≠ il → k ≠ iw → edges[k]? = none

theorem beyond_three (e0 e1 e2 : Edge) {k : Nat} (beyond : 3 ≤ k) :
    [e0, e1, e2][k]? = none := List.getElem?_eq_none beyond

theorem pointers_of_listed {e0 e1 e2 : Edge} (listed : Listed u l w e0 e1 e2)
    (starts : u.yTop = 16 * s + 8 ∧ l.yTop = 16 * s + 8 ∧ 16 * s + 8 < w.yTop)
    (ends : u.yBot ≤ 16 * t - 8 ∧ l.yBot = 16 * t - 8 ∧ w.yBot ≤ 16 * t - 8) :
    ∃ iu il iw, Placed [e0, e1, e2] u l w iu il iw ∧
      (pointers [e0, e1, e2] = some (iu, il, iw, 16 * s + 8, 16 * t - 8) ∨
        pointers [e0, e1, e2] = some (il, iu, iw, 16 * s + 8, 16 * t - 8)) := by
  have first : min (min e0.yTop e1.yTop) e2.yTop = 16 * s + 8 := by
    cases listed <;> omega
  have last : max (max e0.yBot e1.yBot) e2.yBot = 16 * t - 8 := by
    cases listed <;> omega
  obtain ⟨startU, startL, startW⟩ := starts
  have targets := pointers_three e0 e1 e2
  simp only [first, last] at targets
  have beyond (k : Nat) (k0 : k ≠ 0) (k1 : k ≠ 1) (k2 : k ≠ 2) : [e0, e1, e2][k]? = none :=
    beyond_three e0 e1 e2 (by omega)
  have now : ¬16 * s + 8 > 16 * s + 8 := lt_irrefl _
  cases listed with
  | abc =>
    rw [startU, startL, if_neg now, if_neg now] at targets
    exact ⟨0, 1, 2, ⟨rfl, rfl, rfl, by constructor <;> decide, fun k h0 h1 h2 => beyond k h0 h1 h2⟩,
      .inl targets⟩
  | acb =>
    rw [startU, if_neg now, if_pos startW] at targets
    exact ⟨0, 2, 1, ⟨rfl, rfl, rfl, by constructor <;> decide, fun k h0 h2 h1 => beyond k h0 h1 h2⟩,
      .inl targets⟩
  | bac =>
    rw [startU, startL, if_neg now, if_neg now] at targets
    exact ⟨1, 0, 2, ⟨rfl, rfl, rfl, by constructor <;> decide, fun k h1 h0 h2 => beyond k h0 h1 h2⟩,
      .inr targets⟩
  | bca =>
    rw [startL, if_neg now, if_pos startW] at targets
    exact ⟨2, 0, 1, ⟨rfl, rfl, rfl, by constructor <;> decide, fun k h2 h0 h1 => beyond k h0 h1 h2⟩,
      .inr targets⟩
  | cab =>
    rw [if_pos startW] at targets
    exact ⟨1, 2, 0, ⟨rfl, rfl, rfl, by constructor <;> decide, fun k h1 h2 h0 => beyond k h0 h1 h2⟩,
      .inr targets⟩
  | cba =>
    rw [if_pos startW] at targets
    exact ⟨2, 1, 0, ⟨rfl, rfl, rfl, by constructor <;> decide, fun k h2 h1 h0 => beyond k h0 h1 h2⟩,
      .inl targets⟩

theorem Placed.activeAt_upper {iu il iw : Nat} {y : Int} (placed : Placed edges u l w iu il iw)
    (hu : Active u y) (hl : Active l y) (hw : ¬Active w y) : ActiveAt edges iu il y := by
  intro k
  constructor
  · rintro ⟨e, here, active⟩
    by_contra neither
    rw [not_or] at neither
    by_cases waits : k = iw
    · rw [waits, placed.lower, Option.some_inj] at here
      exact hw (here ▸ active)
    · rw [placed.others k neither.1 neither.2 waits] at here
      exact (Option.some_ne_none e here.symm).elim
  · rintro (rfl | rfl)
    · exact ⟨u, placed.upper, hu⟩
    · exact ⟨l, placed.long, hl⟩

theorem Placed.rotate {iu il iw : Nat} (placed : Placed edges u l w iu il iw) :
    Placed edges l w u il iw iu :=
  ⟨placed.long, placed.lower, placed.upper,
    ⟨placed.apart.right, placed.apart.sides.symm, placed.apart.left.symm⟩,
    fun k hl hw hu => placed.others k hu hl hw⟩

theorem edgePasses_three {scissor : Scissor} (upper : top scissor a < bottom scissor m)
    (lower : top scissor m < bottom scissor b) {e0 e1 e2 : Edge}
    (listed : Listed (record scissor a m) (record scissor a b) (record scissor m b) e0 e1 e2) :
    ∃ passes, edgePasses scissor [e0, e1, e2] = some passes ∧
      SweptOnce [e0, e1, e2] passes (top scissor a) (bottom scissor b) := by
  have mid : bottom scissor m = top scissor m := by
    unfold top bottom at *
    omega
  rw [mid] at upper
  have starts : (record scissor a m).yTop = 16 * top scissor a + 8 ∧
      (record scissor a b).yTop = 16 * top scissor a + 8 ∧
      16 * top scissor a + 8 < (record scissor m b).yTop := by
    refine ⟨rfl, rfl, ?_⟩
    rw [record_yTop]
    omega
  have ends : (record scissor a m).yBot ≤ 16 * bottom scissor b - 8 ∧
      (record scissor a b).yBot = 16 * bottom scissor b - 8 ∧
      (record scissor m b).yBot ≤ 16 * bottom scissor b - 8 := by
    refine ⟨?_, rfl, le_rfl⟩
    rw [record_yBot]
    omega
  obtain ⟨iu, il, iw, placed, targets⟩ := pointers_of_listed listed starts ends
  have first (y : Int) (after : top scissor a ≤ y) (before : y < top scissor m) :
      ActiveAt [e0, e1, e2] iu il y := by
    refine placed.activeAt_upper ?_ ?_ ?_
    all_goals
      rw [active_record]
      omega
  have second (y : Int) (after : top scissor m ≤ y) (before : y < bottom scissor b) :
      ActiveAt [e0, e1, e2] il iw y := by
    refine placed.rotate.activeAt_upper ?_ ?_ ?_
    all_goals
      rw [active_record]
      omega
  obtain ⟨sides, waitsUpper, waitsLong⟩ := placed.apart
  rcases targets with targets | targets
  · obtain ⟨above, below, run, sweptAbove, sweptBelow⟩ := edgePasses_both scissor upper lower
      (by simp) targets placed.apart placed.upper placed.long placed.lower rfl
      (.inr ⟨congrArg (16 * · - 8) mid, rfl, rfl⟩)
    exact ⟨above ++ below, run, (sweptAbove.once sides first).append
      (sweptBelow.once waitsLong second) upper.le lower.le⟩
  · obtain ⟨above, below, run, sweptAbove, sweptBelow⟩ := edgePasses_both scissor upper lower
      (by simp) targets ⟨sides.symm, waitsLong, waitsUpper⟩ placed.long placed.upper placed.lower
      rfl (.inl ⟨rfl, congrArg (16 * · - 8) mid, rfl⟩)
    exact ⟨above ++ below, run, (sweptAbove.swap.once sides first).append
      (sweptBelow.once waitsLong second) upper.le lower.le⟩

theorem trianglexPasses_spec (scissor : Scissor) (listed : Listed a m b v0 v1 v2) (down : Down a m)
    (further : Down m b) :
    ∃ passes, trianglexPasses scissor v0 v1 v2 = some passes ∧
      SweptOnce (setupEdges scissor v0 v1 v2) passes (top scissor a) (bottom scissor b) := by
  have u := edgeSetup_eq scissor down
  have l := edgeSetup_eq scissor (down.trans further)
  have w := edgeSetup_eq scissor further
  have order := listed.edges (fun p q => edgeSetup p q (scissor.top * triOne + triHalf)
    (scissor.bottom * triOne - triHalf)) fun p q => edgeSetup_comm p q _ _
  have rows := firstRow_mono down
  have rows' := firstRow_mono further
  unfold trianglexPasses setupEdges
  dsimp only
  by_cases upper : top scissor a < bottom scissor m
  · have long : top scissor a < bottom scissor b := by
      unfold top bottom at *
      omega
    rw [u, l, w, if_pos upper, if_pos long] at order
    by_cases lower : top scissor m < bottom scissor b
    · rw [if_pos lower] at order
      obtain ⟨e0, e1, e2, counted, listed'⟩ := filterMap_three order
      rw [counted]
      exact edgePasses_three upper lower listed'
    · have ends : bottom scissor m = bottom scissor b := by
        unfold top bottom at *
        omega
      rw [if_neg lower] at order
      rcases filterMap_upper order with counted | counted
      · rw [counted]
        exact edgePasses_two scissor long ⟨rfl, rfl⟩ ⟨congrArg (16 * · - 8) ends, rfl⟩
      · rw [counted]
        exact edgePasses_two scissor long ⟨rfl, rfl⟩ ⟨rfl, congrArg (16 * · - 8) ends⟩
  · by_cases lower : top scissor m < bottom scissor b
    · have starts : top scissor m = top scissor a := by
        unfold top bottom at *
        omega
      have long : top scissor a < bottom scissor b := starts ▸ lower
      rw [u, l, w, if_neg upper, if_pos lower, if_pos long] at order
      rcases filterMap_lower order with counted | counted
      · rw [counted]
        exact edgePasses_two scissor long ⟨rfl, congrArg (16 * · + 8) starts⟩ ⟨rfl, rfl⟩
      · rw [counted]
        exact edgePasses_two scissor long ⟨congrArg (16 * · + 8) starts, rfl⟩ ⟨rfl, rfl⟩
    · have long : ¬top scissor a < bottom scissor b := by
        unfold top bottom at *
        omega
      rw [u, l, w, if_neg upper, if_neg lower, if_neg long] at order
      have none : Int.range (top scissor a) (bottom scissor b) = [] := by
        rw [Int.range, Int.toNat_eq_zero.mpr (by omega)]
        rfl
      rw [filterMap_none order]
      exact ⟨[], rfl, none.symm, by simp⟩

/-- The scanlines inside the scissor whose centre is below the topmost vertex and not below the
bottommost one. -/
def Scanline (scissor : Scissor) (v0 v1 v2 : Vertex) (y : Int) : Prop :=
  (scissor.top ≤ y ∧ y < scissor.bottom) ∧ min (min v0.y v1.y) v2.y < 16 * y + 8 ∧
    16 * y + 8 ≤ max (max v0.y v1.y) v2.y

theorem extremes_of_listed (listed : Listed a m b v0 v1 v2) :
    min (min v0.y v1.y) v2.y = min (min a.y m.y) b.y ∧
    max (max v0.y v1.y) v2.y = max (max a.y m.y) b.y := by
  cases listed <;> exact ⟨by omega, by omega⟩

theorem scanline_iff (scissor : Scissor) (listed : Listed a m b v0 v1 v2) (down : Down a m)
    (further : Down m b) (y : Int) :
    Scanline scissor v0 v1 v2 y ↔ top scissor a ≤ y ∧ y < bottom scissor b := by
  obtain ⟨highest, lowest⟩ := extremes_of_listed listed
  unfold Down oddRow at down further
  have first : min (min a.y m.y) b.y < 16 * y + 8 ↔ firstRow a ≤ y := by
    unfold firstRow oddRow
    omega
  have last : 16 * y + 8 ≤ max (max a.y m.y) b.y ↔ y < firstRow b := by
    unfold firstRow oddRow
    omega
  unfold Scanline top bottom
  rw [highest, lowest, first, last]
  omega

def Level (p q : Vertex) : Prop := oddRow p.y = oddRow q.y

theorem not_level_of_edgeSetup {p q : Vertex} {ymin ymax : Int}
    (counted : edgeSetup p q ymin ymax = some e) : ¬Level p q := by
  intro level
  have same : oddRow p.y = oddRow q.y := level
  by_cases above : p.y > q.y <;> simp [edgeSetup, above, same] at counted

theorem not_level_of_third (scissor : Scissor) (third : (setupEdges scissor v0 v1 v2)[2]? = some e) :
    ¬Level v0 v1 ∧ ¬Level v0 v2 ∧ ¬Level v1 v2 := by
  unfold setupEdges at third
  generalize scissor.top * triOne + triHalf = ymin at third
  generalize scissor.bottom * triOne - triHalf = ymax at third
  dsimp only at third
  cases h01 : edgeSetup v0 v1 ymin ymax <;> cases h02 : edgeSetup v0 v2 ymin ymax <;>
    cases h12 : edgeSetup v1 v2 ymin ymax <;> simp [h01, h02, h12] at third
  exact ⟨not_level_of_edgeSetup h01, not_level_of_edgeSetup h02, not_level_of_edgeSetup h12⟩

/-- Every scanline of a triangle inside the scissor is swept exactly once, from top to bottom, by
the two edge records that are active there, and no record is read that was not set up. -/
theorem scanlines_swept_once (scissor : Scissor) (v0 v1 v2 : Vertex) :
    ∃ passes, trianglexPasses scissor v0 v1 v2 = some passes ∧
      trianglexBig scissor v0 v1 v2 = some (spans passes) ∧
      (passes.map Pass.y).Pairwise (· < ·) ∧
      (∀ y, y ∈ passes.map Pass.y ↔ Scanline scissor v0 v1 v2 y) ∧
      (∀ pass ∈ passes, pass.left ≠ pass.right ∧
        ActiveAt (setupEdges scissor v0 v1 v2) pass.left pass.right pass.y) ∧
      (∀ p q y, (∃ e, edgeSetup p q (scissor.top * triOne + triHalf)
        (scissor.bottom * triOne - triHalf) = some e ∧ Active e y) ↔ Crosses scissor p q y) ∧
      ∀ e, (setupEdges scissor v0 v1 v2)[2]? = some e →
        ¬Level v0 v1 ∧ ¬Level v0 v2 ∧ ¬Level v1 v2 := by
  obtain ⟨a, m, b, listed, down, further⟩ := exists_listed v0 v1 v2
  obtain ⟨passes, run, rows, active⟩ := trianglexPasses_spec scissor listed down further
  have few : (setupEdges scissor v0 v1 v2).length ≤ 3 := List.length_filterMap_le _ _
  have drawn := edgePasses_spans scissor few
  rw [← trianglexPasses, run, Option.map_some] at drawn
  refine ⟨passes, run, drawn.symm, ?_, fun y => ?_, active, active_edgeSetup scissor,
    fun e third => not_level_of_third scissor third⟩
  · rw [rows]
    exact range_increasing _ _
  · rw [rows, mem_range, scanline_iff scissor listed down further]

end RabbitRender.Raster.Passes
