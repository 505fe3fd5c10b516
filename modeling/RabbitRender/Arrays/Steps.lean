/- RabbitRender/Arrays/Steps
   layer: model
   source: swrender/array.cpp, swrender/primitives.cpp
   digest: A draw call as a sequence of steps: compiling, copying and locking vertices, and rendering. -/

import RabbitRender.Arrays.Draw
import RabbitRender.Lib.GuardedRun

set_option autoImplicit false

namespace RabbitRender.Arrays.Steps

open Vertices Arrays.Compile Arrays.Draw Primitives Lib.GuardedRun

/-- What the functions that assemble primitives do to the entries of the buffer and the cache. -/
inductive Step where
  | compile (slot element : Nat) (index : Int)
  | copy (dst src : Nat)
  | lock (slot : Nat)
  | unlock (slot : Nat)
  | cull (mask : Flags)
  | hit (h : Hit)
  | point (v : Nat)
  | line (v0 v1 : Nat)
  | triangle (v0 v1 v2 : Nat)

variable (p : Pipeline)

def step (m : Machine) : Step → Machine
  | .compile slot element index => compileAt p m slot element index
  | .copy dst src => m.set dst (m.verts src)
  | .lock slot => Draw.lock m slot
  | .unlock slot => Draw.unlock m slot
  | .cull mask => { m with cull := mask }
  | .hit h => { m with hits := m.hits ++ [h] }
  | .point v => renderPoint p m v
  | .line v0 v1 => renderLine p m v0 v1
  | .triangle v0 v1 v2 => renderTriangle p m v0 v1 v2

def Reaches (m r : Machine) : Prop := ∃ steps, run (step p) m steps = r

def compilation : Step → Option (Nat × Int)
  | .compile _ element index => some (element, index)
  | _ => none

/-- The second machine is the first one after steps that compile `vertices`, in this order. -/
def Compiles (m r : Machine) (vertices : List (Nat × Int)) : Prop :=
  ∃ steps, run (step p) m steps = r ∧ steps.filterMap compilation = vertices

/-- What `compileElements` compiles. -/
def consecutive (first : Int) (count : Nat) : List (Nat × Int) :=
  (List.range count).map fun j => (elementOf first + j, first + j)

variable {p}

theorem Reaches.refl (m : Machine) : Reaches p m m := ⟨[], rfl⟩

variable {a b c r : Machine} {vertices : List (Nat × Int)}

theorem Reaches.trans (h : Reaches p a b) (h' : Reaches p b c) : Reaches p a c := by
  obtain ⟨first, rfl⟩ := h
  obtain ⟨second, rfl⟩ := h'
  exact ⟨first ++ second, run_append a first second⟩

theorem Reaches.step (m : Machine) (s : Step) : Reaches p m (Steps.step p m s) := ⟨[s], rfl⟩

theorem Reaches.next {m : Machine} (h : Reaches p m r) (s : Step) :
    Reaches p m (Steps.step p r s) :=
  h.trans (.step r s)

theorem Compiles.reaches {m : Machine} (h : Compiles p m r vertices) : Reaches p m r := by
  obtain ⟨steps, ran, -⟩ := h
  exact ⟨steps, ran⟩

theorem Compiles.refl (m : Machine) : Compiles p m m [] := ⟨[], rfl, rfl⟩

theorem Compiles.trans {first second : List (Nat × Int)} (h : Compiles p a b first)
    (h' : Compiles p b c second) : Compiles p a c (first ++ second) := by
  obtain ⟨steps, rfl, rfl⟩ := h
  obtain ⟨steps', rfl, rfl⟩ := h'
  exact ⟨steps ++ steps', run_append a steps steps', List.filterMap_append⟩

theorem Compiles.after (h : Compiles p a b []) (h' : Compiles p b c vertices) :
    Compiles p a c vertices :=
  h.trans h'

theorem Compiles.before (h : Compiles p a b vertices) (h' : Compiles p b c []) :
    Compiles p a c vertices := by
  have both := h.trans h'
  rwa [List.append_nil] at both

theorem Compiles.next {m : Machine} (h : Compiles p m r vertices) (s : Step)
    (other : compilation s = none) : Compiles p m (Steps.step p r s) vertices := by
  refine h.before ⟨[s], rfl, ?_⟩
  rw [List.filterMap_cons_none other, List.filterMap_nil]

theorem Compiles.ite {m : Machine} {c : Prop} [Decidable c] (ha : Compiles p m a vertices)
    (hb : Compiles p m b vertices) : Compiles p m (if c then a else b) vertices := by
  split_ifs
  · exact ha
  · exact hb

theorem Compiles.render {m : Machine} (h : Compiles p m r vertices) (s : Step)
    (other : compilation s = none) (c : Prop) [Decidable c] :
    Compiles p m (if c then Steps.step p r s else r) vertices :=
  .ite (h.next s other) h

theorem reaches_compileElement (m : Machine) (slot : Nat) (first : Int) :
    Reaches p m (compileElement p m slot first) :=
  .step m (.compile slot (elementOf first) first)

theorem compiles_compileElement (m : Machine) (slot : Nat) (first : Int) :
    Compiles p m (compileElement p m slot first) (consecutive first 1) := by
  refine ⟨[.compile slot (elementOf first) first], rfl, ?_⟩
  simp [compilation, consecutive]

theorem compiles_compileRun (n : Nat) (m : Machine) (slot element : Nat) (index : Int) :
    Compiles p m (compileRun p n m slot element index)
      ((List.range n).map fun j => (element + j, index + j)) := by
  induction n generalizing m slot element index with
  | zero => exact .refl m
  | succ n ih =>
    have here : Compiles p m (compileAt p m slot element index) [(element, index)] :=
      ⟨[.compile slot element index], rfl, rfl⟩
    have all := here.trans (ih _ (slot + 1) (element + 1) (index + 1))
    have shift : (List.range n).map ((fun j : Nat => (element + j, index + (j : Int))) ∘ Nat.succ) =
        (List.range n).map fun j => (element + 1 + j, index + 1 + j) := by
      apply List.map_congr_left
      intro j _
      simp only [Function.comp, Prod.mk.injEq]
      omega
    rw [List.range_succ_eq_map, List.map_cons, List.map_map, shift, Nat.add_zero, Int.natCast_zero,
      Int.add_zero]
    exact all

theorem compiles_compileElements (m : Machine) (slot : Nat) (first : Int) (count : Nat) :
    Compiles p m (compileElements p m slot first count) (consecutive first count) :=
  compiles_compileRun count m slot (elementOf first) first

theorem compiles_batch (m : Machine) (mask : Flags) (slot : Nat) (first : Int) (count : Nat) :
    Compiles p m (compileElements p { m with cull := mask } slot first count)
      (consecutive first count) :=
  ((Compiles.refl m).next (.cull mask) rfl).after (compiles_compileElements _ slot first count)

theorem reaches_fetchVertex (m : Machine) (index : Nat) :
    Reaches p m (fetchVertex p m index).1 := by
  simp only [fetchVertex]
  split_ifs
  · exact (Reaches.step m (.hit _)).next (.lock _)
  · exact (reaches_compileElement m _ _).next (.lock _)

/-- A preorder of machines that goes up with every call of a renderer. -/
structure RenderPreorder (p : Pipeline) (R : Machine → Machine → Prop) : Prop where
  refl (m : Machine) : R m m
  trans {a b c : Machine} : R a b → R b c → R a c
  point (m : Machine) (v : Nat) : R m (renderPoint p m v)
  line (m : Machine) (v0 v1 : Nat) : R m (renderLine p m v0 v1)
  triangle (m : Machine) (v0 v1 v2 : Nat) : R m (renderTriangle p m v0 v1 v2)

namespace RenderPreorder

variable {R : Machine → Machine → Prop} (h : RenderPreorder p R)

include h

theorem ite {m : Machine} {c : Prop} [Decidable c] (drawn : R m r) : R m (if c then r else m) := by
  split_ifs
  · exact drawn
  · exact h.refl m

theorem pointRun (num : Nat) (m : Machine) (v : Nat) : R m (Draw.pointRun p num m v) := by
  induction num generalizing m v with
  | zero => exact h.refl m
  | succ num ih => exact h.trans (h.ite (h.point m v)) (ih _ _)

theorem lineRun (num : Nat) (m : Machine) (v v0 : Nat) : R m (Draw.lineRun p num m v v0).1 := by
  induction num generalizing m v v0 with
  | zero => exact h.refl m
  | succ num ih => exact h.trans (h.ite (h.line m v0 v)) (ih _ _ _)

theorem linesRun : ∀ (num : Nat) (m : Machine) (v : Nat), R m (Draw.linesRun p num m v)
  | num + 2, m, v => h.trans (h.ite (h.line m v (v + 1))) (linesRun num _ _)
  | 0, m, _ => h.refl m
  | 1, m, _ => h.refl m

theorem trianglesRun : ∀ (num : Nat) (m : Machine) (v : Nat), R m (Draw.trianglesRun p num m v)
  | num + 3, m, v => h.trans (h.ite (h.triangle m v (v + 1) (v + 2))) (trianglesRun num _ _)
  | 0, m, _ => h.refl m
  | 1, m, _ => h.refl m
  | 2, m, _ => h.refl m

theorem fanOrStripRun (num : Nat) (m : Machine) (v v0 v1 winding : Nat) :
    R m (Draw.fanOrStripRun p num m v v0 v1 winding).1 := by
  induction num generalizing m v v0 v1 winding with
  | zero => exact h.refl m
  | succ num ih =>
    have drawn := h.triangle m v0 v1 v
    simp only [Draw.fanOrStripRun]
    split_ifs
    · exact h.trans drawn (ih ..)
    · exact ih ..
    · exact h.trans drawn (ih ..)
    · exact ih ..

end RenderPreorder

theorem renderPreorder_compiles : RenderPreorder p fun m r => Compiles p m r [] where
  refl := .refl
  trans := .after
  point m v := (Compiles.refl m).next (.point v) rfl
  line m v0 v1 := (Compiles.refl m).next (.line v0 v1) rfl
  triangle m v0 v1 v2 := (Compiles.refl m).next (.triangle v0 v1 v2) rfl

def batchElements (vcs least : Nat) (first : Int) (count : Nat) : List (Nat × Int) :=
  batches vcs least (fun vertices first num _ => vertices ++ consecutive first num) [] first count

theorem compiles_batches {S : Type} (machine : S → Machine) {vcs least : Nat}
    {body : S → Int → Nat → Nat → S}
    (hbody : ∀ s first num rest,
      Compiles p (machine s) (machine (body s first num rest)) (consecutive first num))
    (s : S) (first : Int) (count : Nat) :
    Compiles p (machine s) (machine (batches vcs least body s first count))
      (batchElements vcs least first count) := by
  have from_start (m : Machine) (vertices : List (Nat × Int)) : ∀ s first,
      Compiles p m (machine s) vertices →
      Compiles p m (machine (batches vcs least body s first count))
        (batches vcs least (fun vertices first num _ => vertices ++ consecutive first num)
          vertices first count) := by
    induction count using Nat.strong_induction_on generalizing vertices with
    | _ count ih =>
      intro s first before
      by_cases stop : count < least ∨ count = 0 ∨ vcs = 0
      · rw [batches_stop stop, batches_stop stop]
        exact before
      · obtain ⟨enough, some, size⟩ : least ≤ count ∧ 0 < count ∧ 0 < vcs := by omega
        rw [batches_step enough some size, batches_step enough some size]
        exact ih _ (by omega) _ _ _ (before.trans (hbody s first _ _))
  exact from_start (machine s) [] s first (.refl _)

theorem compiles_separate {least : Nat} {draw : Nat → Machine → Nat → Machine}
    (hdraw : ∀ num m, Compiles p m (draw num m 0) []) (m : Machine) (first : Int) (count : Nat) :
    Compiles p m (batches 72 least (fun m first num _ =>
      let m := compileElements p { m with cull := clipAll } 0 first num
      if m.cull = 0 then draw num m 0 else m) m first count)
      (batchElements 72 least first count) := by
  refine compiles_batches id (fun m first num _ => ?_) m first count
  have compiled := compiles_batch (p := p) m clipAll 0 first num
  exact .ite (compiled.before (hdraw num _)) compiled

theorem compiles_lineBatch (m : Machine) (first : Int) (num rest : Nat) :
    Compiles p m (lineBatch p m first num rest) (consecutive first num) := by
  have compiled := compiles_compileElements (p := p) m 1 first num
  simp only [lineBatch]
  split_ifs
  · exact ((compiled.before (renderPreorder_compiles.lineRun num _ 1 0)).next (.copy 0 _) rfl).next (.cull _) rfl
  · exact (compiled.next (.copy 0 0) rfl).next (.cull _) rfl

def stripElements (first : Int) (count : Nat) : List (Nat × Int) :=
  if count < 2 then [] else consecutive first 1 ++ batchElements 71 1 (first + 1) (count - 1)

theorem compiles_lineStrip (m : Machine) (first : Int) (count : Nat) :
    Compiles p m (drawPrimitivesLineStrip p m first count) (stripElements first count) := by
  have start : Compiles p m (compileElement p { m with cull := clipAll } 0 first)
      (consecutive first 1) :=
    ((Compiles.refl m).next (.cull clipAll) rfl).after (compiles_compileElement _ 0 first)
  unfold drawPrimitivesLineStrip stripElements
  split_ifs
  · exact .refl m
  · exact start.trans (compiles_batches id compiles_lineBatch _ _ _)

theorem compiles_lineLoop (m : Machine) (first : Int) (count : Nat) :
    Compiles p m (drawPrimitivesLineLoop p m first count)
      (stripElements first count ++ if 3 ≤ count then consecutive first 1 else []) := by
  have strip := compiles_lineStrip (p := p) m first count
  have closed := strip.trans (compiles_compileElement _ 1 first)
  unfold drawPrimitivesLineLoop
  split_ifs with few many
  · omega
  · rw [stripElements, if_pos few]
    exact .refl m
  · exact closed.render (.line 0 1) rfl _
  · rw [List.append_nil]
    exact strip

theorem compiles_fanOrStripBatch (s : Machine × Nat) (first : Int) (num rest : Nat) :
    Compiles p s.1 (fanOrStripBatch p s first num rest).1 (consecutive first num) := by
  have compiled := compiles_compileElements (p := p) s.1 2 first num
  set r := compileElements p s.1 2 first num with hr
  have drawn : Compiles p s.1
      (if r.cull = 0 then fanOrStripRun p num r 2 0 1 s.2 else (r, s.2)).1
      (consecutive first num) := by
    split_ifs
    · exact compiled.before (renderPreorder_compiles.fanOrStripRun num r 2 0 1 s.2)
    · exact compiled
  simp only [fanOrStripBatch, ← hr]
  set d := if r.cull = 0 then fanOrStripRun p num r 2 0 1 s.2 else (r, s.2)
  have copied (e : Machine) (h : Compiles p s.1 e (consecutive first num))
      (same : e.verts 71 = d.1.verts 71) :
      Compiles p s.1 (e.set 1 (d.1.verts 71)) (consecutive first num) := by
    rw [← same]
    exact h.next (.copy 1 71) rfl
  split_ifs
  · have both := copied _ (drawn.next (.copy 0 70) rfl) (Machine.set_other _ _ _ (by decide))
    exact both.next (.cull _) rfl
  · exact (copied _ drawn rfl).next (.cull _) rfl
  · exact drawn

/-- The vertices of a fan or strip of triangles: the first two, and the batches after them. -/
def fanElements (first : Int) (count : Nat) : List (Nat × Int) :=
  if count < 3 then [] else consecutive first 2 ++ batchElements 70 1 (first + 2) (count - 2)

theorem compiles_fanOrStrip (m : Machine) (first : Int) (count winding : Nat) :
    Compiles p m (drawPrimitivesTriangleFanOrStrip p m first count winding)
      (fanElements first count) := by
  have start := compiles_batch (p := p) m clipAll 0 first 2
  set r := compileElements p { m with cull := clipAll } 0 first 2
  have run : Compiles p r
      (batches 70 1 (fanOrStripBatch p) (r, winding) (first + 2) (count - 2)).1
      (batchElements 70 1 (first + 2) (count - 2)) :=
    compiles_batches Prod.fst compiles_fanOrStripBatch (r, winding) _ _
  unfold drawPrimitivesTriangleFanOrStrip fanElements
  split_ifs
  · exact .refl m
  · exact start.trans run

/-- The elements and indices that `drawArraysPrims` compiles, in order. -/
def drawnElements (mode : Mode) (first : Int) (count : Nat) : List (Nat × Int) :=
  match mode with
  | .points => batchElements 72 1 first count
  | .lines => batchElements 72 2 first count
  | .lineStrip => stripElements first count
  | .lineLoop => stripElements first count ++ if 3 ≤ count then consecutive first 1 else []
  | .triangles => batchElements 72 3 first count
  | .triangleStrip | .triangleFan => fanElements first count

theorem compiles_drawArrays (mode : Mode) (m : Machine) (first : Int) (count : Nat) :
    Compiles p m (drawArraysPrims p mode m first count) (drawnElements mode first count) := by
  have none {least : Nat} (few : count < least) : batchElements 72 least first count = [] :=
    batches_stop (.inl few)
  cases mode <;> simp only [drawArraysPrims, drawnElements]
  case points =>
    unfold drawPrimitivesPoints
    split_ifs with few
    · rw [none few]
      exact .refl m
    · exact compiles_separate (fun num m => renderPreorder_compiles.pointRun num m 0) m first count
  case lines =>
    unfold drawPrimitivesLines
    split_ifs with few
    · rw [none few]
      exact .refl m
    · exact compiles_separate (fun num m => renderPreorder_compiles.linesRun num m 0) m first count
  case triangles =>
    unfold drawPrimitivesTriangles
    split_ifs with few
    · rw [none few]
      exact .refl m
    · exact compiles_separate (fun num m => renderPreorder_compiles.trianglesRun num m 0) m first count
  case lineLoop => exact compiles_lineLoop m first count
  case lineStrip => exact compiles_lineStrip m first count
  case triangleStrip => exact compiles_fanOrStrip m first count 1
  case triangleFan => exact compiles_fanOrStrip m first count 2

theorem reaches_drawArrays (mode : Mode) (m : Machine) (first : Int) (count : Nat) :
    Reaches p m (drawArraysPrims p mode m first count) :=
  (compiles_drawArrays mode m first count).reaches

/-- What the assembly of indexed primitives keeps of a machine and the entries held locked. -/
structure IndexInvariant (p : Pipeline) (I : Machine → List Nat → Prop) : Prop where
  point {m : Machine} {held : List Nat} (v : Nat) : I m held → I (renderPoint p m v) held
  line {m : Machine} {held : List Nat} (v0 v1 : Nat) : I m held → I (renderLine p m v0 v1) held
  triangle {m : Machine} {held : List Nat} (v0 v1 v2 : Nat) : I m held →
    I (renderTriangle p m v0 v1 v2) held
  unlock {m : Machine} (held : List Nat) (slot : Nat) {held' : List Nat} : I m held →
    (∀ i ∈ held, i ≠ slot → i ∈ held') → I (Draw.unlock m slot) held'
  compile {m : Machine} {held : List Nat} (slot : Nat) (buffer : slot < 8) (t : Nat) : I m held →
    I (compileElement p m slot t) held
  fetch {m : Machine} {held : List Nat} (i : Index) : I m held →
    I (fetchVertex p m i).1 ((fetchVertex p m i).2 :: held)
  weaken {m : Machine} (held : List Nat) : I m [] → I m held

namespace IndexInvariant

variable {I : Machine → List Nat → Prop} (kept : IndexInvariant p I) {m : Machine} {held : List Nat}

include kept

omit kept in
theorem drawn {c : Prop} [Decidable c] (h : I m held) (hr : I r held) :
    I (if c then r else m) held := by
  split_ifs
  · exact hr
  · exact h

theorem drawPoints (h : I m []) (indices : List Index) :
    I (drawIndexedPrimitivesPoints p m indices) [] := by
  induction indices generalizing m with
  | nil => exact h
  | cons i indices ih =>
    have fetched := kept.fetch i h
    simp only [drawIndexedPrimitivesPoints]
    apply ih
    refine kept.unlock [(fetchVertex p m i).2] _ ?_ (by simp)
    exact drawn fetched (kept.point _ fetched)

theorem lineRun {v0 : Nat} (h : I m [v0]) (indices : List Index) :
    I (indexedLineRun p m v0 indices).1 [(indexedLineRun p m v0 indices).2] := by
  induction indices generalizing m v0 with
  | nil => exact h
  | cons i indices ih =>
    have fetched := kept.fetch i h
    simp only [indexedLineRun]
    apply ih
    refine kept.unlock [(fetchVertex p m i).2, v0] _ ?_ (by simp)
    exact drawn fetched (kept.line _ _ fetched)

theorem firstLine (h : I m []) (i : Index) (indices : List Index) :
    let r := indexedLineRun p (compileElement p m 0 (i : Nat)) 0 indices
    I (Draw.unlock r.1 r.2) [] := by
  intro r
  have held := kept.weaken [0] (kept.compile 0 (by decide) i h)
  exact kept.unlock _ r.2 (kept.lineRun held indices) (by simp [r])

theorem drawLineStrip (h : I m []) : ∀ indices : List Index,
    I (drawIndexedPrimitivesLineStrip p m indices) []
  | i :: j :: indices => kept.firstLine h i (j :: indices)
  | [] => h
  | [_] => h

theorem drawLines {m : Machine} : ∀ indices : List Index, I m [] →
    I (drawIndexedPrimitivesLines p m indices) []
  | i :: j :: indices, h => by
    have fetched := kept.fetch j (kept.fetch i h)
    simp only [drawIndexedPrimitivesLines]
    set first := fetchVertex p m i
    set second := fetchVertex p first.1 j
    apply drawLines indices
    refine kept.unlock [second.2] _ ?_ (by simp)
    refine kept.unlock [second.2, first.2] _ ?_ (by simp)
    exact drawn fetched (kept.line _ _ fetched)
  | [], h => h
  | [_], h => h

theorem drawLineLoop (h : I m []) : ∀ indices : List Index,
    I (drawIndexedPrimitivesLineLoop p m indices) []
  | i :: j :: k :: indices => by
    have unlocked := kept.firstLine h i (j :: k :: indices)
    simp only [drawIndexedPrimitivesLineLoop]
    exact drawn unlocked (kept.line _ _ unlocked)
  | [] => h
  | [_] => h
  | [i, j] => kept.drawLines [i, j] h

theorem fanOrStripRun {v0 v1 : Nat} (h : I m [v0, v1]) (v2 winding : Nat)
    (indices : List Index) :
    let r := indexedFanOrStripRun p m v0 v1 v2 winding indices
    I r.1 [r.2.1, r.2.2.1] := by
  induction indices generalizing m v0 v1 v2 winding with
  | nil => exact h
  | cons i indices ih =>
    have fetched := kept.fetch i h
    simp only [indexedFanOrStripRun]
    split
    all_goals
      apply ih
      refine kept.unlock [(fetchVertex p m i).2, v0, v1] _ ?_ ?_
    · exact drawn fetched (kept.triangle _ _ _ fetched)
    · grind
    · exact drawn fetched (kept.triangle _ _ _ fetched)
    · grind

theorem drawFanOrStrip (h : I m []) (winding : Nat) : ∀ indices : List Index,
    I (drawIndexedPrimitivesTriangleFanOrStrip p m winding indices) []
  | i :: j :: k :: indices => by
    have held := kept.weaken [0, 1]
      (kept.compile 1 (by decide) j (kept.compile 0 (by decide) i h))
    simp only [drawIndexedPrimitivesTriangleFanOrStrip]
    have run := kept.fanOrStripRun held 0 winding (k :: indices)
    set r := indexedFanOrStripRun p
      (compileElement p (compileElement p m 0 (i : Nat)) 1 (j : Nat)) 0 1 0 winding (k :: indices)
    refine kept.unlock [] _ ?_ (by simp)
    refine kept.unlock [r.2.1] _ ?_ (by simp)
    exact kept.unlock _ _ run (by simp)
  | [] => h
  | [_] => h
  | [_, _] => h

theorem drawTriangles {m : Machine} : ∀ indices : List Index, I m [] →
    I (drawIndexedPrimitivesTriangles p m indices) []
  | i :: j :: k :: indices, h => by
    have fetched := kept.fetch k (kept.fetch j (kept.fetch i h))
    simp only [drawIndexedPrimitivesTriangles]
    set first := fetchVertex p m i
    set second := fetchVertex p first.1 j
    set third := fetchVertex p second.1 k
    apply drawTriangles indices
    refine kept.unlock [third.2] _ ?_ (by simp)
    refine kept.unlock [third.2, second.2] _ ?_ (by simp)
    refine kept.unlock [third.2, second.2, first.2] _ ?_ (by simp)
    exact drawn fetched (kept.triangle _ _ _ fetched)
  | [], h => h
  | [_], h => h
  | [_, _], h => h

theorem drawElements (h : I m []) (mode : Mode) (indices : List Index) :
    I (drawElementsPrims p mode m indices) [] := by
  cases mode with
  | points => exact kept.drawPoints h indices
  | lines => exact kept.drawLines indices h
  | lineLoop => exact kept.drawLineLoop h indices
  | lineStrip => exact kept.drawLineStrip h indices
  | triangles => exact kept.drawTriangles indices h
  | triangleStrip => exact kept.drawFanOrStrip h 1 indices
  | triangleFan => exact kept.drawFanOrStrip h 2 indices

end IndexInvariant

theorem indexInvariant_reaches (m : Machine) : IndexInvariant p fun r _ => Reaches p m r where
  point v h := h.next (.point v)
  line v0 v1 h := h.next (.line v0 v1)
  triangle v0 v1 v2 h := h.next (.triangle v0 v1 v2)
  unlock _ slot _ h _ := h.next (.unlock slot)
  compile slot _ t h := h.trans (reaches_compileElement _ slot t)
  fetch i h := h.trans (reaches_fetchVertex _ i)
  weaken _ h := h

theorem reaches_drawElements (mode : Mode) (m : Machine) (indices : List Index) :
    Reaches p m (drawElementsPrims p mode m indices) :=
  (indexInvariant_reaches m).drawElements (.refl m) mode indices

section Owned

variable {P : Vertex → Prop} {own : Nat → Bool} {m : Machine}

theorem owned_compile (h : ∀ i, own i = true → P (m.verts i)) {slot element : Nat} {index : Int}
    (new : P ((compileAt p m slot element index).verts slot)) :
    ∀ i, Function.update own slot true i = true →
      P ((compileAt p m slot element index).verts i) := by
  intro i owned
  by_cases here : i = slot
  · subst here
    exact new
  · rw [compileAt_other _ _ _ _ _ here]
    rw [Function.update_of_ne here] at owned
    exact h i owned

theorem owned_copy (h : ∀ i, own i = true → P (m.verts i)) (dst src : Nat) :
    ∀ i, Function.update own dst (own src) i = true →
      P ((m.set dst (m.verts src)).verts i) := by
  intro i owned
  by_cases here : i = dst
  · subst here
    rw [Function.update_self] at owned
    rw [Machine.set_same]
    exact h src owned
  · rw [Function.update_of_ne here] at owned
    rw [Machine.set_other _ _ _ here]
    exact h i owned

theorem verts_relock (m : Machine) (slot i : Nat) (locked : Bool) :
    (m.set slot { m.verts slot with locked := locked }).verts i =
      { m.verts i with locked := if i = slot then locked else (m.verts i).locked } := by
  rw [Machine.set_verts]
  split_ifs with here
  · rw [here]
  · rfl

end Owned

end RabbitRender.Arrays.Steps
