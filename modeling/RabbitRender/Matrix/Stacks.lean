/- RabbitRender/Matrix/Stacks
   layer: proof
   source: swrender/matrix.cpp
   digest: The matrix stacks over runs of matrix calls: depth bounds, refused calls, brackets. -/

import RabbitRender.Lib.Brackets
import RabbitRender.Matrix.Coherence

set_option autoImplicit false

namespace RabbitRender.Matrix.Stacks

open RabbitRender.GL (GLenum)
open Lib.Brackets Lib.GuardedRun RabbitRender.Matrix.Coherence RabbitRender.Matrix.Transforms

variable {F : Type}

def held (s : MatrixStack F) : List (Matrixf F × BitVec 8) :=
  (List.range (s.depth + 1)).reverse.map fun k => (s.stack k, s.ops k)

def below (s : MatrixStack F) : List (Matrixf F × BitVec 8) :=
  (List.range s.depth).reverse.map fun k => (s.stack k, s.ops k)

theorem held_eq (s : MatrixStack F) : held s = (s.top, s.topOps) :: below s := by
  simp [held, below, List.range_succ, MatrixStack.top, MatrixStack.topOps]

theorem held_length (s : MatrixStack F) : (held s).length = s.depth + 1 := by simp [held]

theorem below_congr {s s' : MatrixStack F} (depth : s'.depth = s.depth)
    (stack : ∀ k < s.depth, s'.stack k = s.stack k) (ops : ∀ k < s.depth, s'.ops k = s.ops k) :
    below s' = below s := by
  simp only [below, depth]
  apply List.map_congr_left
  intro k hk
  have inside : k < s.depth := by simpa using hk
  rw [stack k inside, ops k inside]

theorem below_setTop (s : MatrixStack F) (m : Matrixf F) (ops : BitVec 8) :
    below (s.setTop m ops) = below s := by
  refine below_congr rfl ?_ ?_
  all_goals
    intro k hk
    exact Function.update_of_ne (Nat.ne_of_lt hk) _ _

structure TopOnly (s s' : MatrixStack F) : Prop where
  maxDepth : s'.maxDepth = s.maxDepth
  rest : below s' = below s

theorem TopOnly.refl (s : MatrixStack F) : TopOnly s s := ⟨rfl, rfl⟩

theorem TopOnly.trans {s s' s'' : MatrixStack F} (h : TopOnly s s') (h' : TopOnly s' s'') :
    TopOnly s s'' :=
  ⟨h'.maxDepth.trans h.maxDepth, h'.rest.trans h.rest⟩

theorem topOnly_setTop (s : MatrixStack F) (m : Matrixf F) (ops : BitVec 8) :
    TopOnly s (s.setTop m ops) := ⟨rfl, below_setTop s m ops⟩

structure Moved (k : Kind) (s s' : MatrixStack F) : Prop where
  maxDepth : s'.maxDepth = s.maxDepth
  moves : Moves k (held s) (held s')

theorem TopOnly.moved {s s' : MatrixStack F} (h : TopOnly s s') : Moved .keep s s' := by
  refine ⟨h.maxDepth, (s.top, s.topOps), (s'.top, s'.topOps), below s, held_eq s, ?_⟩
  rw [held_eq, h.rest]

theorem moved_push {s s' : MatrixStack F} (h : s.push = some s') : Moved .push s s' := by
  unfold MatrixStack.push at h
  split_ifs at h
  obtain rfl := Option.some_inj.mp h
  refine ⟨rfl, (s.top, s.topOps), ?_⟩
  rw [held_eq]
  congr 1
  · simp [MatrixStack.top, MatrixStack.topOps]
  · simp only [below, held]
    apply List.map_congr_left
    intro k hk
    have inside : k ≠ s.depth + 1 := by
      have : k < s.depth + 1 := by simpa using hk
      exact Nat.ne_of_lt this
    rw [Function.update_of_ne inside, Function.update_of_ne inside]

theorem moved_pop {s s' : MatrixStack F} (h : s.pop = some s') : Moved .pop s s' := by
  unfold MatrixStack.pop at h
  split_ifs at h with bottom
  obtain rfl := Option.some_inj.mp h
  refine ⟨rfl, (s.top, s.topOps), ?_⟩
  rw [held_eq, below, held, show s.depth - 1 + 1 = s.depth by omega]

theorem push_eq_none (s : MatrixStack F) : s.push = none ↔ s.maxDepth - 1 ≤ s.depth := by
  unfold MatrixStack.push
  split_ifs with full <;> simpa using full

theorem pop_eq_none (s : MatrixStack F) : s.pop = none ↔ s.depth = 0 := by
  unfold MatrixStack.pop
  split_ifs with bottom <;> simpa using bottom

def stackOf (c : Context F) : Current → MatrixStack F
  | .modelview => c.modelview
  | .projection => c.projection
  | .texture i => c.texture i

/-- `OGLES_MODELVIEW_STACK_DEPTH`, `OGLES_PROJECTION_STACK_DEPTH`, `OGLES_TEXTURE_STACK_DEPTH`. -/
def stackDepth : Current → Nat
  | .modelview => 16
  | .projection => 2
  | .texture _ => 2

theorem stack_eq (c : Context F) : c.stack = stackOf c c.current := by
  unfold Context.stack
  cases c.current <;> rfl

theorem stackOf_setStack (c : Context F) (s : MatrixStack F) (i : Current) :
    stackOf (c.setStack s) i = if c.current = i then s else stackOf c i := by
  unfold Context.setStack
  cases c.current with
  | modelview => cases i <;> simp [stackOf]
  | projection => cases i <;> simp [stackOf]
  | texture u =>
    cases i with
    | modelview => simp [stackOf]
    | projection => simp [stackOf]
    | texture v =>
      by_cases same : u = v
      · subst same
        simp [stackOf]
      · simp [stackOf, same, Function.update_of_ne (Ne.symm same)]

theorem stackOf_oglesError (c : Context F) (error : GLenum) (i : Current) :
    stackOf (oglesError c error) i = stackOf c i := by
  cases i <;> rfl

theorem stackOf_invalidate (c : Context F) (i : Current) :
    stackOf (invalidate c) i = if c.current = i then
      { stackOf c i with doPicker := true, doFloatToFixed := true } else stackOf c i := by
  have dirty (d : Bits) (c : Context F) : stackOf { c with dirty := d } i = stackOf c i := by
    cases i <;> rfl
  simp only [invalidate, dirty, stackOf_setStack]
  split_ifs with current
  · rw [← current, ← stack_eq]
  · rfl

theorem moved_setStack {c : Context F} {s : MatrixStack F} {k : Kind} (i : Current)
    (moved : Moved k c.stack s) :
    Moved (if c.current = i then k else .keep) (stackOf c i)
      (stackOf (invalidate (c.setStack s)) i) := by
  have touched : Moved (if c.current = i then k else .keep) (stackOf c i)
      (stackOf (c.setStack s) i) := by
    rw [stackOf_setStack]
    split_ifs with current
    · rw [← current, ← stack_eq]
      exact moved
    · exact (TopOnly.refl _).moved
  rw [stackOf_invalidate]
  by_cases current : (c.setStack s).current = i
  · rw [if_pos current]
    exact ⟨touched.maxDepth, touched.moves⟩
  · rw [if_neg current]
    exact touched

theorem moved_refused {c c' : Context F} {i : Current} (h : stackOf c' i = stackOf c i) :
    Moved (if c.current = i then .refused else .keep) (stackOf c i) (stackOf c' i) := by
  rw [h]
  split_ifs
  · exact ⟨rfl, rfl⟩
  · exact (TopOnly.refl _).moved

def Kept (c c' : Context F) : Prop := ∀ i, TopOnly (stackOf c i) (stackOf c' i)

theorem Kept.refl (c : Context F) : Kept c c := fun _ => TopOnly.refl _

theorem Kept.trans {c c' c'' : Context F} (h : Kept c c') (h' : Kept c' c'') : Kept c c'' :=
  fun i => (h i).trans (h' i)

theorem Kept.ite {c c' : Context F} (h : Kept c c') (b : Bool) : Kept c (if b then c' else c) := by
  cases b
  · exact Kept.refl c
  · exact h

theorem Kept.of_eq {c c' : Context F} (h : ∀ i, stackOf c' i = stackOf c i) : Kept c c' := by
  intro i
  rw [h i]
  exact TopOnly.refl _

theorem kept_setStack {c : Context F} {s : MatrixStack F} (h : TopOnly c.stack s) :
    Kept c (c.setStack s) := by
  intro i
  rw [stackOf_setStack]
  split_ifs with current
  · rw [← current, ← stack_eq]
    exact h
  · exact TopOnly.refl _

theorem kept_invalidate (c : Context F) : Kept c (invalidate c) := by
  intro i
  rw [stackOf_invalidate]
  split_ifs
  · exact ⟨rfl, rfl⟩
  · exact TopOnly.refl _

theorem kept_modify {c : Context F} {f : MatrixStack F → MatrixStack F}
    (h : TopOnly c.stack (f c.stack)) : Kept c (modify c f) :=
  (kept_setStack h).trans (kept_invalidate _)

theorem kept_oglesError (c : Context F) (error : GLenum) : Kept c (oglesError c error) :=
  .of_eq (stackOf_oglesError c error)

theorem kept_resolvePerspective (c : Context F) (clipPlanes depthTest fog : Bool) :
    Kept c (resolvePerspective c clipPlanes depthTest fog) := by
  refine .of_eq ?_
  unfold resolvePerspective
  split
  all_goals rintro (_ | _ | _) <;> rfl

/-- What a call is to the stack with selector `i`. -/
def kindOf (i : Current) (c : Context F) : Op F → Kind
  | .pushMatrix => if c.current = i then (if c.stack.push.isSome then .push else .refused) else .keep
  | .popMatrix => if c.current = i then (if c.stack.pop.isSome then .pop else .refused) else .keep
  | _ => .keep

theorem room_of_push {c : Context F} {op : Op F} {i : Current} (h : kindOf i c op = .push) :
    (stackOf c i).depth + 1 < (stackOf c i).maxDepth := by
  cases op with
  | pushMatrix =>
    simp only [kindOf] at h
    split_ifs at h with current made
    rw [← current, ← stack_eq]
    have room := (push_eq_none c.stack).not.mp (Option.isSome_iff_ne_none.mp made)
    omega
  | popMatrix =>
    simp only [kindOf] at h
    split_ifs at h
  | _ => cases h

variable [GLfloat F]

theorem topOnly_loadIdentity (s : MatrixStack F) : TopOnly s s.loadIdentity :=
  ⟨rfl, below_setTop s _ _⟩

theorem topOnly_loadx (s : MatrixStack F) (rhs : Matrixx) : TopOnly s (s.loadx rhs) :=
  ⟨rfl, below_setTop s _ _⟩

theorem topOnly_validate (s : MatrixStack F) : TopOnly s s.validate := ⟨rfl, rfl⟩

theorem kept_validateStacks (c : Context F) (dirty : Bits) : Kept c (validateStacks c dirty) := by
  refine ((Kept.ite ?_ _).trans (Kept.ite ?_ _)).trans (Kept.ite ?_ _)
  · rintro (_ | _ | _)
    · exact topOnly_validate _
    all_goals exact TopOnly.refl _
  · rintro (_ | _ | _)
    · exact TopOnly.refl _
    · exact topOnly_validate _
    · exact TopOnly.refl _
  · exact .of_eq (by rintro (_ | _ | _) <;> rfl)

theorem kept_validateMvp (c : Context F) (dirty : Bits) : Kept c (validateMvp c dirty) :=
  Kept.ite (.of_eq (by rintro (_ | _ | _) <;> rfl)) _

theorem kept_validateDerived (c : Context F) (dirty : Bits) : Kept c (validateDerived c dirty) := by
  refine ((Kept.ite ?_ _).trans (Kept.ite ?_ _)).trans (Kept.ite ?_ _)
  · exact .of_eq (by rintro (_ | _ | _) <;> rfl)
  · rintro (_ | _ | _)
    · exact TopOnly.refl _
    · exact TopOnly.refl _
    · exact topOnly_validate _
  · exact .of_eq (by rintro (_ | _ | _) <;> rfl)

theorem kept_validateTransform (c : Context F) (want : Bits) :
    Kept c (validateTransform c want) := by
  have parts := ((kept_validateStacks c (c.dirty.inter want)).trans
    (kept_validateMvp _ (c.dirty.inter want))).trans (kept_validateDerived _ (c.dirty.inter want))
  simp only [validateTransform]
  refine Kept.ite (parts.trans (.of_eq ?_)) _
  rintro (_ | _ | _) <;> rfl

theorem step_moved (c : Context F) (op : Op F) (i : Current) :
    Moved (kindOf i c op) (stackOf c i) (stackOf (step c op) i) := by
  cases op with
  | pushMatrix =>
    simp only [step, glPushMatrix, kindOf]
    cases pushed : c.stack.push with
    | none => exact moved_refused (stackOf_oglesError _ _ _)
    | some s => exact moved_setStack i (moved_push pushed)
  | popMatrix =>
    simp only [step, glPopMatrix, kindOf]
    cases popped : c.stack.pop with
    | none => exact moved_refused (stackOf_oglesError _ _ _)
    | some s => exact moved_setStack i (moved_pop popped)
  | matrixMode mode =>
    refine TopOnly.moved (Kept.of_eq ?_ i)
    intro j
    simp only [step, glMatrixMode]
    split_ifs
    all_goals first | exact stackOf_oglesError _ _ _ | cases j <;> rfl
  | loadIdentity =>
    refine TopOnly.moved (((kept_modify (topOnly_loadIdentity _)).trans (kept_setStack ?_)) i)
    exact ⟨rfl, rfl⟩
  | loadMatrixf m | multMatrixf m | multMatrixx m | translatef x y z | scalef x y z
  | rotatef a x y z => exact (kept_modify (topOnly_setTop _ _ _) i).moved
  | loadMatrixx m =>
    refine TopOnly.moved (((kept_modify (topOnly_loadx _ m)).trans (kept_setStack ?_)) i)
    exact ⟨rfl, rfl⟩
  | frustumf left right bottom top zNear zFar =>
    simp only [step, glFrustumf]
    split
    · exact (kept_oglesError _ _ i).moved
    · exact (kept_modify (topOnly_setTop _ _ _) i).moved
  | orthof left right bottom top zNear zFar =>
    simp only [step, glOrthof]
    split
    · exact (kept_oglesError _ _ i).moved
    · exact (kept_modify (topOnly_setTop _ _ _) i).moved
  | viewport x y w h =>
    refine TopOnly.moved (Kept.of_eq ?_ i)
    intro j
    simp only [step, glViewport]
    split_ifs
    · exact stackOf_oglesError _ _ _
    · cases j <;> rfl
  | depthRangef zNear zFar => exact (Kept.of_eq (by rintro (_ | _ | _) <;> rfl) i).moved
  | vertexPointer size type stride =>
    refine TopOnly.moved (Kept.of_eq ?_ i)
    intro j
    simp only [step, glVertexPointer]
    split_ifs
    all_goals first | exact stackOf_oglesError _ _ _ | cases j <;> rfl
  | validate want => exact (kept_validateTransform _ _ i).moved
  | draw want clipPlanes depthTest fog vertices =>
    simp only [step]
    cases vertices
    · exact (kept_validateTransform _ _ i).moved
    · exact ((kept_validateTransform _ _).trans (kept_resolvePerspective _ _ _ _) i).moved

def Bounded (c : Context F) : Prop :=
  ∀ i, (stackOf c i).maxDepth = stackDepth i ∧ (stackOf c i).depth < stackDepth i

theorem init_bounded (activeUnit : Fin 2) (surface : Int × Int × Int)
    (inverse : Matrixf F → Matrixf F) : Bounded (init activeUnit surface inverse) := by
  rintro (_ | _ | _)
  all_goals exact ⟨rfl, Nat.zero_lt_succ _⟩

theorem step_bounded {c : Context F} (h : Bounded c) (op : Op F) : Bounded (step c op) := by
  intro i
  have moved := step_moved c op i
  obtain ⟨max, depth⟩ := h i
  refine ⟨moved.maxDepth.trans max, ?_⟩
  have length := moved.moves.length
  rw [held_length, held_length] at length
  rcases length with shorter | ⟨isPush, longer⟩
  · omega
  · have room := room_of_push isPush
    omega

theorem run_bounded {c : Context F} (h : Bounded c) (ops : List (Op F)) :
    Bounded (run step c ops) := by
  induction ops generalizing c with
  | nil => exact h
  | cons op ops ih => exact ih (step_bounded h op)

/-- In every state a run reaches the depths are within their bounds, a refused push or pop leaves
every stack alone, and a balanced bracket restores the matrix and its classification. -/
theorem stack_discipline (activeUnit : Fin 2) (surface : Int × Int × Int)
    (inverse : Matrixf F → Matrixf F) (ops : List (Op F)) :
    let c := run step (init activeUnit surface inverse) ops
    Bounded c ∧
    (c.stack.push = none → step c .pushMatrix = oglesError c GL.stackOverflow ∧
      ∀ i, stackOf (step c .pushMatrix) i = stackOf c i) ∧
    (c.stack.pop = none → step c .popMatrix = oglesError c GL.stackUnderflow ∧
      ∀ i, stackOf (step c .popMatrix) i = stackOf c i) ∧
    ∀ mid, c.stack.push ≠ none →
      nesting step (kindOf c.current) (step c .pushMatrix) 0 mid = some 0 →
      let d := run step (step c .pushMatrix) mid
      d.current = c.current → d.stack.pop ≠ none ∧
        (stackOf (step d .popMatrix) c.current).top = c.stack.top ∧
        (stackOf (step d .popMatrix) c.current).topOps = c.stack.topOps ∧
        (stackOf (step d .popMatrix) c.current).depth = c.stack.depth := by
  intro c
  refine ⟨run_bounded (init_bounded _ _ _) ops, ?_, ?_, ?_⟩
  · intro refused
    have same : step c .pushMatrix = oglesError c GL.stackOverflow := by
      simp only [step, glPushMatrix, refused]
    exact ⟨same, fun i => by rw [same, stackOf_oglesError]⟩
  · intro refused
    have same : step c .popMatrix = oglesError c GL.stackUnderflow := by
      simp only [step, glPopMatrix, refused]
    exact ⟨same, fun i => by rw [same, stackOf_oglesError]⟩
  · intro mid made balanced d current
    have moves (s : Context F) (o : Op F) : Moves (kindOf c.current s o)
        (held (stackOf s c.current)) (held (stackOf (step s o) c.current)) :=
      (step_moved s o c.current).moves
    have isPush : kindOf c.current c .pushMatrix = .push := by
      simp [kindOf, Option.isSome_iff_ne_none, made]
    have above : d.stack.pop ≠ none := by
      obtain ⟨a, inside⟩ := content_in_bracket moves isPush balanced
      have length : (held (stackOf d c.current)).length = (held (stackOf c c.current)).length + 1 :=
        congrArg List.length inside
      rw [held_length, held_length] at length
      rw [Ne, pop_eq_none, stack_eq, current]
      omega
    have isPop : kindOf c.current d .popMatrix = .pop := by
      simp [kindOf, current, Option.isSome_iff_ne_none, above]
    have restored := content_of_bracket moves isPush balanced isPop
    have depth := congrArg List.length restored
    rw [held_length, held_length] at depth
    rw [held_eq, held_eq] at restored
    obtain ⟨topEq, -⟩ := List.cons.inj restored
    obtain ⟨matrix, classification⟩ := Prod.mk.inj topEq
    rw [stack_eq c]
    exact ⟨above, matrix, classification, Nat.succ_inj.mp depth⟩

private abbrev start : Context ℚ := init 0 (0, 0, 240) id

private abbrev inside : List (Op ℚ) :=
  [.multMatrixf identityf, .pushMatrix, .scalef 2 3 4, .matrixMode GL.projection, .pushMatrix,
    .loadIdentity, .matrixMode GL.modelview, .popMatrix, .rotatef 90 0 0 1]

/-- A bracket on the modelview stack around another one and a push of the projection. -/
theorem stack_discipline_nested :
    let c := run step start [.translatef 1 2 3]
    let d := run step (step c .pushMatrix) inside
    (stackOf (step d .popMatrix) .modelview).top = c.stack.top ∧
      (stackOf (step d .popMatrix) .modelview).topOps = opTranslate := by
  obtain ⟨-, top, ops, -⟩ := (stack_discipline 0 (0, 0, 240) id [.translatef 1 2 3]).2.2.2 inside
    (by decide) (by decide +kernel) (by decide +kernel)
  exact ⟨top, ops.trans (by decide +kernel)⟩

end RabbitRender.Matrix.Stacks
