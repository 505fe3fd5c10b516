/- RabbitRender/Arrays/Elements
   layer: result
   source: swrender/array.cpp, swrender/primitives.cpp, swrender/light.cpp
   digest: The elements that the vertices of a draw call take from each of the arrays. -/

import RabbitRender.Arrays.CacheCoherence
import RabbitRender.Arrays.Steps

set_option autoImplicit false

namespace RabbitRender.Arrays.Elements

open Arrays.Compile Arrays.Draw
open Arrays.CacheCoherence (ahead batchSize batched batched_one batched_few batched_full
  batched_last compiledCount cullsAll)
open Arrays.Steps

/-- The element and the index of vertex `k` of batches of `vcs` vertices. -/
def batchVertex (vcs : Nat) (first : Int) (k : Nat) : Nat × Int :=
  (elementOf (first + (vcs * (k / vcs) : Nat)) + k % vcs, first + k)

variable {vcs k : Nat} {mode : Mode}

private theorem batchVertex_add (hvcs : 0 < vcs) (first : Int) (k : Nat) :
    batchVertex vcs first (vcs + k) = batchVertex vcs (first + vcs) k := by
  have block : vcs * ((vcs + k) / vcs) = vcs + vcs * (k / vcs) := by
    rw [Nat.add_div_left _ hvcs, Nat.mul_add, Nat.mul_one, Nat.add_comm]
  rw [batchVertex, batchVertex, block, Nat.add_mod_left]
  simp only [Int.natCast_add, Int.add_assoc]

private theorem consecutive_eq {num : Nat} (hnum : num ≤ vcs) (first : Int) :
    consecutive first num = (List.range num).map (batchVertex vcs first) := by
  apply List.map_congr_left
  intro k hk
  have small : k < vcs := by
    have := List.mem_range.mp hk
    omega
  rw [batchVertex, Nat.div_eq_of_lt small, Nat.mod_eq_of_lt small, Nat.mul_zero, Int.natCast_zero,
    Int.add_zero]

private theorem batches_consecutive {least : Nat} (hleast : 0 < least) (hvcs : least ≤ vcs)
    (count : Nat) : ∀ (vertices : List (Nat × Int)) (first : Int),
    batches vcs least (fun vertices first num _ => vertices ++ consecutive first num) vertices first
        count =
      vertices ++ (List.range (batched vcs least count)).map (batchVertex vcs first) := by
  induction count using Nat.strong_induction_on with
  | _ count ih =>
    intro vertices first
    by_cases stop : count < least
    · rw [batches_stop (.inl stop), batched_few hvcs stop]
      exact (List.append_nil _).symm
    · rw [batches_step (by omega) (by omega) (by omega), consecutive_eq (Nat.min_le_left ..)]
      by_cases full : vcs ≤ count
      · have later : (List.range (batched vcs least (count - vcs))).map
            (batchVertex vcs first ∘ (vcs + ·)) =
            (List.range (batched vcs least (count - vcs))).map (batchVertex vcs (first + vcs)) :=
          List.map_congr_left fun k _ => batchVertex_add (by omega) first k
        rw [Nat.min_eq_left full, ih (count - vcs) (by omega), batched_full full, List.range_add,
          List.map_append, List.map_map, later, List.append_assoc]
      · rw [Nat.min_eq_right (by omega), batches_stop (by omega),
          batched_last (by omega) (by omega)]

private theorem batchElements_eq {least : Nat} (hleast : 0 < least) (hvcs : least ≤ vcs)
    (first : Int) (count : Nat) : batchElements vcs least first count =
      (List.range (batched vcs least count)).map (batchVertex vcs first) := by
  rw [batchElements, batches_consecutive hleast hvcs, List.nil_append]

/-- The vertices a draw call compiles, in order. A line loop ends with its first vertex. -/
def positions (mode : Mode) (count : Nat) : List Nat :=
  List.range (compiledCount mode count) ++ if mode = .lineLoop ∧ 3 ≤ count then [0] else []

/-- The element and the index of vertex `k`. -/
def drawnVertex (mode : Mode) (first : Int) (k : Nat) : Nat × Int :=
  if k < ahead mode then (elementOf first + k, first + k)
  else batchVertex (batchSize mode) (first + ahead mode) (k - ahead mode)

theorem mem_positions {count : Nat} : k ∈ positions mode count ↔ k < compiledCount mode count := by
  rw [positions, List.mem_append, List.mem_range]
  constructor
  · rintro (earlier | last)
    · exact earlier
    · split_ifs at last with closed
      · obtain ⟨rfl, many⟩ := closed
        rw [List.mem_singleton.mp last]
        simp only [compiledCount]
        split_ifs <;> omega
      · simp at last
  · exact .inl

private theorem range_drawnVertex {n : Nat} (h : ahead mode ≤ n) (first : Int) :
    (List.range n).map (drawnVertex mode first) = consecutive first (ahead mode) ++
      (List.range (n - ahead mode)).map (batchVertex (batchSize mode) (first + ahead mode)) := by
  have split : n = ahead mode + (n - ahead mode) := by omega
  conv_lhs => rw [split]
  rw [List.range_add, List.map_append, List.map_map]
  congr 1
  · apply List.map_congr_left
    intro k hk
    rw [drawnVertex, if_pos (List.mem_range.mp hk)]
  · apply List.map_congr_left
    intro k _
    rw [Function.comp, drawnVertex, if_neg (by omega), Nat.add_sub_cancel_left]

theorem drawnElements_eq (mode : Mode) (first : Int) (count : Nat) :
    drawnElements mode first count = (positions mode count).map (drawnVertex mode first) := by
  have batch {least : Nat} (hleast : 0 < least) (hvcs : least ≤ 72) {mode : Mode}
      (none : ahead mode = 0) (size : batchSize mode = 72) :
      batchElements 72 least first count =
        (List.range (batched 72 least count)).map (drawnVertex mode first) := by
    rw [batchElements_eq hleast hvcs, range_drawnVertex (by omega), none, size]
    simp [consecutive]
  have strip : stripElements first count =
      (List.range (if count < 2 then 0 else count)).map (drawnVertex .lineStrip first) := by
    rw [stripElements]
    split_ifs with few
    · rfl
    · rw [range_drawnVertex (show ahead .lineStrip ≤ count by simp only [ahead]; omega),
        batchElements_eq (by decide) (by decide), batched_one]
      rfl
  have fan : fanElements first count =
      (List.range (if count < 3 then 0 else count)).map (drawnVertex .triangleFan first) := by
    rw [fanElements]
    split_ifs with few
    · rfl
    · rw [range_drawnVertex (show ahead .triangleFan ≤ count by simp only [ahead]; omega),
        batchElements_eq (by decide) (by decide), batched_one]
      rfl
  rw [positions, List.map_append]
  cases mode with
  | points =>
    have points := @batch 1 (by decide) (by decide) .points rfl rfl
    rw [batched_one] at points
    simpa [drawnElements, compiledCount] using points
  | lines => simpa [drawnElements, compiledCount] using @batch 2 (by decide) (by decide) .lines rfl rfl
  | triangles =>
    simpa [drawnElements, compiledCount] using @batch 3 (by decide) (by decide) .triangles rfl rfl
  | lineStrip => simpa [drawnElements, compiledCount] using strip
  | lineLoop =>
    have closing : consecutive first 1 = [drawnVertex .lineLoop first 0] := rfl
    simp only [drawnElements, compiledCount, true_and, strip, closing]
    congr 1
    split_ifs <;> rfl
  | triangleStrip =>
    have same : drawnVertex .triangleStrip first = drawnVertex .triangleFan first := rfl
    simpa [drawnElements, compiledCount, same] using fan
  | triangleFan => simpa [drawnElements, compiledCount] using fan

inductive Attribute where
  | color
  | normal
  | texture (unit : Fin 2)
deriving DecidableEq, Repr

def vertexElement (v : Nat × Int) : Nat := v.1

/-- The element of another array, which is fetched by the index of the vertex when the vertex is lit
or textured: `index & INDEX_MASK`, for each of them. -/
def attributeElement (_attribute : Attribute) (v : Nat × Int) : Nat := elementOf v.2

/-- What `glDrawArrays` compiles. -/
def processed (p : Pipeline) (mode : Mode) (first : Int) (count : Nat) : List (Nat × Int) :=
  if cullsAll p then [] else drawnElements mode first count

/-- The vertices `glDrawArrays` compiles. -/
def processedPositions (p : Pipeline) (mode : Mode) (count : Nat) : List Nat :=
  if cullsAll p then [] else positions mode count

/-- The vertices take consecutive elements of each enabled array, from `first` on. -/
structure Consecutive (p : Pipeline) (enabled : Attribute → Bool) (mode : Mode) (first count : Nat) :
    Prop where
  vertex : (processed p mode first count).map vertexElement =
    (processedPositions p mode count).map (first + ·)
  others : ∀ a, enabled a → (processed p mode first count).map (attributeElement a) =
    (processedPositions p mode count).map (first + ·)

/-- The element that the batch of vertex `k` starts at. -/
def batchStart (mode : Mode) (first k : Nat) : Nat :=
  if k < ahead mode then first
  else first + ahead mode + batchSize mode * ((k - ahead mode) / batchSize mode)

/-- Every batch starts at an element of 16 bits, and every vertex with another array to read is one
of 16 bits. -/
structure ElementsFit (enabled : Attribute → Bool) (mode : Mode) (first count : Nat) : Prop where
  batches : ∀ k < compiledCount mode count, batchStart mode first k < 0x10000
  attributes : ∀ k < compiledCount mode count, (∃ a, enabled a) → first + k < 0x10000

private theorem elementOf_eq {t : Nat} : elementOf t = t ↔ t < 0x10000 := by
  simp only [elementOf]
  omega

private theorem vertexElement_eq {first : Nat} :
    vertexElement (drawnVertex mode first k) = first + k ↔ batchStart mode first k < 0x10000 := by
  rw [vertexElement, drawnVertex, batchStart]
  split_ifs with start
  · rw [Nat.add_right_cancel_iff]
    exact elementOf_eq
  · have pos : 0 < batchSize mode := by cases mode <;> decide
    have split := Nat.div_add_mod (k - ahead mode) (batchSize mode)
    have cast : ((first : Int) + ahead mode +
        (batchSize mode * ((k - ahead mode) / batchSize mode) : Nat)) =
        ((first + ahead mode + batchSize mode * ((k - ahead mode) / batchSize mode) : Nat) : Int) := by
      omega
    rw [batchVertex, cast, ← elementOf_eq]
    omega

private theorem attributeElement_eq {a : Attribute} {first : Nat} :
    attributeElement a (drawnVertex mode first k) = first + k ↔ first + k < 0x10000 := by
  have index : (drawnVertex mode first k).2 = ((first + k : Nat) : Int) := by
    rw [drawnVertex]
    split_ifs with start
    · rfl
    · simp only [batchVertex]
      omega
  rw [attributeElement, index]
  exact elementOf_eq

/-- `glDrawArrays` is a sequence of steps whose compiled vertices are those of the call, in order.
They take consecutive elements of every enabled array exactly if nothing is drawn at all, or every
batch starts at an element of 16 bits and, where an array besides that of the positions is enabled,
every vertex is one. -/
theorem elements_consecutive (p : Pipeline) (m : Machine) (enabled : Attribute → Bool) (mode : Mode)
    (first count : Nat) :
    Compiles p { m with draw := m.draw + 1 } (glDrawArrays p m mode first count)
        (processed p mode first count) ∧
      (Consecutive p enabled mode first count ↔
        cullsAll p ∨ ElementsFit enabled mode first count) := by
  refine ⟨?_, ?_⟩
  · have drawn := compiles_drawArrays (p := p) mode { m with draw := m.draw + 1 } first count
    have culled : (p.cullEnable && decide (p.cullFace = GL.frontAndBack)) = cullsAll p := rfl
    rw [processed, glDrawArrays]
    simp only [culled]
    by_cases culls : cullsAll p = true
    · simp only [culls, Bool.or_true, if_true]
      exact .refl _
    · by_cases none : count = 0
      · have empty : drawnElements mode first count = [] := by
          rw [drawnElements_eq, List.map_eq_nil_iff, List.eq_nil_iff_forall_not_mem]
          intro k hk
          rw [mem_positions, none] at hk
          revert hk
          cases mode <;> exact Nat.not_lt_zero k
        simp only [none, decide_true, Bool.true_or, if_true, culls]
        rw [← none, empty]
        exact .refl _
      · simp only [none, culls, decide_false, Bool.false_or]
        exact drawn
  · by_cases culls : cullsAll p = true
    · refine ⟨fun _ => .inl culls, fun _ => ⟨?_, fun a _ => ?_⟩⟩
      all_goals
        rw [processed, processedPositions, if_pos culls, if_pos culls]
        rfl
    · have lists (f : Nat × Int → Nat) : (processed p mode first count).map f =
          (processedPositions p mode count).map (first + ·) ↔
            ∀ k < compiledCount mode count, f (drawnVertex mode first k) = first + k := by
        rw [processed, processedPositions, if_neg culls, if_neg culls, drawnElements_eq,
          List.map_map, List.map_inj_left]
        simp only [mem_positions, Function.comp]
      constructor
      · rintro ⟨vertex, others⟩
        refine .inr ⟨?_, ?_⟩
        · intro k hk
          exact vertexElement_eq.mp ((lists vertexElement).mp vertex k hk)
        · rintro k hk ⟨a, ha⟩
          exact attributeElement_eq.mp ((lists (attributeElement a)).mp (others a ha) k hk)
      · rintro (culled | ⟨batches, attributes⟩)
        · exact absurd culled culls
        · refine ⟨?_, ?_⟩
          · exact (lists vertexElement).mpr fun k hk => vertexElement_eq.mpr (batches k hk)
          · intro a ha
            exact (lists (attributeElement a)).mpr fun k hk =>
              attributeElement_eq.mpr (attributes k hk ⟨a, ha⟩)

/-- The second of two points from element 65535 on is at position 65536 and has colour 0. -/
theorem color_element_wraps : ¬ ∀ (p : Pipeline) (enabled : Attribute → Bool) (mode : Mode)
    (first count : Nat), Consecutive p enabled mode first count := by
  intro all
  obtain ⟨-, others⟩ := all (.flat fun _ => ⟨0, 0, 0, 0⟩) (· = .color) .points 65535 2
  have color := others .color rfl
  have seen : (processed (.flat fun _ => ⟨0, 0, 0, 0⟩) .points 65535 2).map
      (attributeElement .color) = [65535, 0] := by
    rw [processed, if_neg (by decide), drawnElements_eq]
    decide
  rw [show ((65535 : Nat) : Int) = 65535 from rfl, seen] at color
  revert color
  decide

end RabbitRender.Arrays.Elements
