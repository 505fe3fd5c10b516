/- RabbitRender/Egl/GeometryCoherence
   layer: proof
   source: swrender/egl.cpp, swrender/matrix.cpp
   digest: In guarded runs a draw call finds the depth buffer of its surface, and the viewport and
     the scissor flipped against the height of the colour buffer. -/

import RabbitRender.Egl.BindingCoherence
import RabbitRender.Egl.Geometry

set_option autoImplicit false

namespace RabbitRender.Egl.GeometryCoherence

open Lib.GuardedRun Egl.Configs Egl.Machine Egl.Bindings Egl.Geometry
open Egl.BindingCoherence (Among accepted_surfaces claims_ctx parted_ctx)
open RabbitRender.Matrix.Transforms (GLfloat)

inductive PortOp (F : Type) where
  | egl (op : Op F)
  | viewport (r : Rect)
  | scissor (r : Rect)
  | draw

structure Tracked (F : Type) where
  thread : Thread F
  asked : ContextId → Asked

section Runs

variable {F : Type} [GLfloat F]

def onCurrent (m : Thread F) (f : OglesContext F → OglesContext F) : Thread F :=
  match m.current with
  | none => m
  | some x => m.withContext x fun c => { c with gl := f c.gl }

def colorHeight (m : Thread F) (x : ContextId) : Nat := (m.contexts x).gl.rasterizer.color.height

/-- What a context that becomes current for the first time is to have: the full surface. -/
def fullSurface (m m' : Thread F) (x : ContextId) : Asked where
  viewport := ⟨0, 0, (drawSize m' (m'.contexts x).draw).1, (drawSize m' (m'.contexts x).draw).2⟩
  scissor := ⟨0, 0, (drawSize m' (m'.contexts x).draw).1, (drawSize m' (m'.contexts x).draw).2⟩
  viewportHeight := colorHeight m x
  scissorHeight := colorHeight m x

def askedAfter (t : Tracked F) (m : Thread F) : ContextId → Asked := fun x =>
  if (t.thread.contexts x).neverCurrent = true ∧ (m.contexts x).neverCurrent = false then
    fullSurface t.thread m x
  else t.asked x

def track (t : Tracked F) : PortOp F → Tracked F
  | .egl op => ⟨step t.thread op, askedAfter t (step t.thread op)⟩
  | .viewport r =>
    { thread := onCurrent t.thread fun gl => oglesViewport gl r
      asked := fun x =>
        if t.thread.current = some x ∧ ¬(r.w < 0 ∨ r.h < 0) then
          { t.asked x with viewport := r, viewportHeight := colorHeight t.thread x }
        else t.asked x }
  | .scissor r =>
    { thread := onCurrent t.thread fun gl => oglesScissor gl r
      asked := fun x =>
        if t.thread.current = some x ∧ ¬(r.w < 0 ∨ r.h < 0) then
          { t.asked x with scissor := r, scissorHeight := colorHeight t.thread x }
        else t.asked x }
  | .draw => t

def start : Tracked F := ⟨init, fun _ => ⟨⟨0, 0, 0, 0⟩, ⟨0, 0, 0, 0⟩, 0, 0⟩⟩

/-- What a draw call finds in the rasterizer of a context with a draw surface. -/
structure Fitting (t : Tracked F) (x : ContextId) (d : SurfaceId) : Prop where
  depth : Holds (t.thread.contexts x).gl.rasterizer (t.thread.surfaces d).depth
  viewport : offsetOf (t.thread.contexts x).gl =
    viewportOffset (t.asked x).viewport (colorHeight t.thread x)
  scissor : scissorOf (t.thread.contexts x).gl.rasterizer =
    flipped (t.asked x).scissor (colorHeight t.thread x)

/-- The viewport and the scissor of the context are those asked for, and reached it while the colour
buffer had the height it has now. -/
def UpToDate (t : Tracked F) (x : ContextId) : Prop :=
  (t.thread.contexts x).gl.viewport.area = (t.asked x).viewport ∧
    (t.thread.contexts x).gl.viewport.scissor = (t.asked x).scissor ∧
    (t.asked x).viewportHeight = colorHeight t.thread x ∧
    (t.asked x).scissorHeight = colorHeight t.thread x

/-- The condition on a call. A draw surface that is connected, or that gets its next buffer, has a
depth buffer at another place than the one the rasterizer remembers, or else that very one; a
surface that is swapped is the draw surface of its context; a draw call comes after glViewport and
glScissor under the present height. -/
def Safe (t : Tracked F) : PortOp F → Prop
  | .egl (.makeCurrent dpy draw read (some x) o) =>
    refusal t.thread dpy draw read (some x) = none →
      ((t.thread.contexts x).isCurrent = true → t.thread.current = some x) →
        ∀ d, draw = some d →
          Answered (t.thread.surfaces d) o ∧
            Passes (t.thread.contexts x).gl.rasterizer (connectDepth (t.thread.surfaces d) o)
  | .egl (.swapBuffers dpy d o) =>
    surfaceRefusal t.thread dpy d = none →
      ∀ x, (t.thread.surfaces d).ctx = some x →
        (t.thread.contexts x).draw = some d ∧
          (Swappable (t.thread.surfaces d) o →
            Passes (t.thread.contexts x).gl.rasterizer (swapDepth (t.thread.surfaces d) o))
  | .egl (.destroySurface dpy (some s)) =>
    surfaceRefusal t.thread dpy s = none → (t.thread.surfaces s).ctx = none
  | .draw => ∀ x d, t.thread.current = some x → (t.thread.contexts x).draw = some d → UpToDate t x
  | _ => True

structure Inv (t : Tracked F) : Prop where
  draw : ∀ x d, (t.thread.contexts x).draw = some d →
    (t.thread.surfaces d).magic = true ∧ (t.thread.surfaces d).ctx = some x ∧
      (t.thread.contexts x).neverCurrent = false ∧
      Holds (t.thread.contexts x).gl.rasterizer (t.thread.surfaces d).depth
  read : ∀ x r, (t.thread.contexts x).read = some r →
    (t.thread.surfaces r).magic = true ∧ (t.thread.surfaces r).ctx = some x
  port : ∀ x, (t.thread.contexts x).neverCurrent = false →
    Ported (t.thread.contexts x).gl (t.asked x).viewportHeight (t.asked x).scissorHeight
  stride : ∀ s, 0 ≤ (t.thread.surfaces s).depth.stride

structure Kept (c c' : EglContext F) : Prop where
  draw : c'.draw = c.draw
  read : c'.read = c.read
  neverCurrent : c'.neverCurrent = c.neverCurrent
  gl : c'.gl = c.gl

omit [GLfloat F] in
theorem Kept.refl (c : EglContext F) : Kept c c := ⟨rfl, rfl, rfl, rfl⟩

theorem inv_frame {m m' : Thread F} {a a' : ContextId → Asked} (h : Inv ⟨m, a⟩) (x : ContextId)
    (others : ∀ y, y ≠ x → Kept (m.contexts y) (m'.contexts y) ∧ a' y = a y)
    (surfaces : ∀ s y, y ≠ x → (m.surfaces s).magic = true → (m.surfaces s).ctx = some y →
      (m'.surfaces s).magic = true ∧ (m'.surfaces s).ctx = some y ∧
        (m'.surfaces s).depth = (m.surfaces s).depth)
    (draw : ∀ d, (m'.contexts x).draw = some d →
      (m'.surfaces d).magic = true ∧ (m'.surfaces d).ctx = some x ∧
        (m'.contexts x).neverCurrent = false ∧
        Holds (m'.contexts x).gl.rasterizer (m'.surfaces d).depth)
    (read : ∀ r, (m'.contexts x).read = some r →
      (m'.surfaces r).magic = true ∧ (m'.surfaces r).ctx = some x)
    (port : (m'.contexts x).neverCurrent = false →
      Ported (m'.contexts x).gl (a' x).viewportHeight (a' x).scissorHeight)
    (stride : ∀ s, 0 ≤ (m'.surfaces s).depth.stride) : Inv ⟨m', a'⟩ := by
  constructor
  · intro y d drawn
    by_cases here : y = x
    · rw [here] at drawn ⊢
      exact draw d drawn
    · obtain ⟨kept, -⟩ := others y here
      rw [kept.draw] at drawn
      obtain ⟨magic, ctx, never, holds⟩ := h.draw y d drawn
      obtain ⟨magic', ctx', depth⟩ := surfaces d y here magic ctx
      refine ⟨magic', ctx', kept.neverCurrent.trans never, ?_⟩
      dsimp only
      rw [kept.gl, depth]
      exact holds
  · intro y r seen
    by_cases here : y = x
    · rw [here] at seen ⊢
      exact read r seen
    · obtain ⟨kept, -⟩ := others y here
      rw [kept.read] at seen
      obtain ⟨magic, ctx⟩ := h.read y r seen
      obtain ⟨magic', ctx', -⟩ := surfaces r y here magic ctx
      exact ⟨magic', ctx'⟩
  · intro y current
    by_cases here : y = x
    · rw [here] at current ⊢
      exact port current
    · obtain ⟨kept, same⟩ := others y here
      rw [kept.neverCurrent] at current
      dsimp only
      rw [kept.gl, same]
      exact h.port y current
  · exact stride

theorem assign_depth (m : Thread F) (x : ContextId) (draw read : Option SurfaceId) :
    ((assign m x draw read).contexts x).gl.rasterizer.depth =
      (m.contexts x).gl.rasterizer.depth := by
  unfold assign
  rw [Thread.withContext_self]
  dsimp only
  split_ifs
  · exact (ported_first _ _ _).2.2.2.1
  · rfl

/-- What attaching surfaces to a context leaves behind, when the draw surface is connected and its
depth buffer passed on. -/
theorem attach_spec {m : Thread F} {x : ContextId} {draw read : Option SurfaceId} {o : Outcome}
    (stride : ∀ s, 0 ≤ (m.surfaces s).depth.stride)
    (can : ∀ d, draw = some d → Answered (m.surfaces d) o ∧
      Passes (m.contexts x).gl.rasterizer (connectDepth (m.surfaces d) o)) :
    let m' := (attach m x draw read o).1
    (∀ y, y ≠ x → m'.contexts y = m.contexts y) ∧
      SameFields ((assign (release m x) x draw read).contexts x) (m'.contexts x) ∧
      (∀ s, (m'.surfaces s).depth =
        if draw = some s then connectDepth (m.surfaces s) o else (m.surfaces s).depth) ∧
      ∀ d, draw = some d →
        Holds (m'.contexts x).gl.rasterizer (connectDepth (m.surfaces d) o) := by
  have unassigned (y : ContextId) (other : y ≠ x) :
      (assign (release m x) x draw read).contexts y = m.contexts y := by
    unfold assign
    rw [Thread.withContext_of_ne other]
    exact congrFun (release_contexts m x).1 y
  cases draw with
  | none =>
    obtain ⟨surfaces, others, same, -⟩ :=
      attachRead_spec (assign (release m x) x none read) x read
    refine ⟨fun y other => (others y other).trans (unassigned y other), same, fun s => ?_,
      fun d none => by cases none⟩
    rw [if_neg (Option.some_ne_none s).symm]
    exact (surfaces s).trans (release_other s).1
  | some d =>
    obtain ⟨answered, passes⟩ := can d rfl
    have here : (assign (release m x) x (some d) read).surfaces d = (release m x).surfaces d := rfl
    have connects : (((assign (release m x) x (some d) read).surfaces d).connect o).2 = true := by
      rw [connect_ok, here, answered_release]
      exact answered
    have depth : (((assign (release m x) x (some d) read).surfaces d).connect o).1.depth =
        connectDepth (m.surfaces d) o := by
      rw [connect_depth, here, (release_other d).2]
    have pixels := connect_pixels connects
    unfold attach
    dsimp only
    rcases connection : ((assign (release m x) x (some d) read).surfaces d).connect o with
      ⟨connected, _ | _⟩
    · rw [connection] at connects
      cases connects
    rw [connection] at depth pixels
    dsimp only at depth pixels ⊢
    generalize bound : (assign (release m x) x (some d) read).withSurface d
      (fun _ => { connected with ctx := some x }) = m₂
    have contexts : m₂.contexts = (assign (release m x) x (some d) read).contexts := by
      rw [← bound]
      rfl
    have surface : m₂.surfaces d = { connected with ctx := some x } := by
      rw [← bound, Thread.withSurface_self]
    have apart (s : SurfaceId) (other : s ≠ d) : (m₂.surfaces s).depth = (m.surfaces s).depth := by
      rw [← bound, Thread.withSurface_of_ne other]
      exact (release_other s).1
    have raster : (m₂.contexts x).gl.rasterizer.depth = (m.contexts x).gl.rasterizer.depth := by
      rw [contexts, assign_depth, (release_contexts m x).1]
    obtain ⟨drawSurfaces, drawOthers, drawn⟩ := bindDraw_spec m₂ d x o.coverage
    obtain ⟨readSurfaces, readOthers, readSame, readDepth⟩ :=
      attachRead_spec (bindDraw m₂ d x o.coverage) x read
    rw [surface] at drawn
    have ready : Passes (m₂.contexts x).gl.rasterizer connected.depth := by
      unfold Passes Holds at passes ⊢
      rw [raster, depth]
      exact passes
    have long : 0 ≤ connected.depth.stride := by
      rw [depth]
      exact stride_connect (stride d) o
    obtain ⟨drawSame, holds⟩ := drawn long ready pixels
    refine ⟨fun y other => ?_, ?_, fun s => ?_, ?_⟩
    · rw [readOthers y other, drawOthers y other, contexts]
      exact unassigned y other
    · rw [← contexts]
      exact drawSame.trans readSame
    · rw [readSurfaces, drawSurfaces]
      by_cases same : s = d
      · rw [same, if_pos rfl, surface]
        exact depth
      · rw [if_neg fun h => same (Option.some_inj.mp h).symm]
        exact apart s same
    · rintro d' ⟨⟩
      unfold Holds at holds ⊢
      rw [readDepth, ← depth]
      exact holds

omit [GLfloat F] in
theorem kept_withContext {m : Thread F} {x : ContextId} {f : EglContext F → EglContext F}
    (h : Kept (m.contexts x) (f (m.contexts x))) (y : ContextId) :
    Kept (m.contexts y) ((m.withContext x f).contexts y) := by
  by_cases here : y = x
  · rw [here, Thread.withContext_self]
    exact h
  · rw [Thread.withContext_of_ne here]
    exact Kept.refl _

omit [GLfloat F] in
theorem kept_leave (m : Thread F) :
    (∀ y, Kept (m.contexts y) ((leave m).contexts y)) ∧ (leave m).surfaces = m.surfaces := by
  unfold leave
  cases m.current with
  | none => exact ⟨fun y => Kept.refl _, rfl⟩
  | some x => exact ⟨kept_withContext ⟨rfl, rfl, rfl, rfl⟩, rfl⟩

omit [GLfloat F] in
theorem kept_enter {m made : Thread F} {ctx : Option ContextId}
    (h : makeCurrent m ctx = some made) :
    (∀ y, Kept (m.contexts y) (made.contexts y)) ∧ made.surfaces = m.surfaces := by
  obtain ⟨left, surfaces⟩ := kept_leave m
  unfold makeCurrent at h
  cases ctx with
  | none =>
    dsimp only at h
    obtain rfl := Option.some_inj.mp h
    exact ⟨left, surfaces⟩
  | some x =>
    dsimp only at h
    split_ifs at h
    · obtain rfl := Option.some_inj.mp h
      exact ⟨fun y => Kept.refl _, rfl⟩
    · obtain rfl := Option.some_inj.mp h
      refine ⟨fun y => ?_, surfaces⟩
      have flag := kept_withContext (m := leave m) (x := x)
        (f := fun c => { c with isCurrent := true }) ⟨rfl, rfl, rfl, rfl⟩ y
      exact ⟨flag.draw.trans (left y).draw, flag.read.trans (left y).read,
        flag.neverCurrent.trans (left y).neverCurrent, flag.gl.trans (left y).gl⟩

omit [GLfloat F] in
theorem inv_kept [GLfloat F] {m m' : Thread F} {a : ContextId → Asked} (h : Inv ⟨m, a⟩)
    (contexts : ∀ y, Kept (m.contexts y) (m'.contexts y)) (surfaces : m'.surfaces = m.surfaces) :
    Inv ⟨m', a⟩ := by
  constructor
  · intro x d drawn
    dsimp only at drawn ⊢
    rw [(contexts x).draw] at drawn
    rw [surfaces, (contexts x).neverCurrent, (contexts x).gl]
    exact h.draw x d drawn
  · intro x r seen
    dsimp only at seen ⊢
    rw [(contexts x).read] at seen
    rw [surfaces]
    exact h.read x r seen
  · intro x current
    dsimp only at current ⊢
    rw [(contexts x).neverCurrent] at current
    rw [(contexts x).gl]
    exact h.port x current
  · intro s
    dsimp only
    rw [surfaces]
    exact h.stride s

omit [GLfloat F] in
theorem askedAfter_same {t : Tracked F} {m : Thread F} {x : ContextId}
    (h : (m.contexts x).neverCurrent = (t.thread.contexts x).neverCurrent) :
    askedAfter t m x = t.asked x := by
  unfold askedAfter
  rw [if_neg]
  rintro ⟨never, current⟩
  rw [h, never] at current
  cases current

theorem step_attach {t : Tracked F} (h : Inv t) {made : Thread F} {dpy : Display}
    {draw read : Option SurfaceId} {x : ContextId} {o : Outcome}
    (accepted : refusal t.thread dpy draw read (some x) = none)
    (entered : makeCurrent t.thread (some x) = some made)
    (safe : ∀ d, draw = some d → Answered (t.thread.surfaces d) o ∧
      Passes (t.thread.contexts x).gl.rasterizer (connectDepth (t.thread.surfaces d) o)) :
    Inv ⟨(attach made x draw read o).1, askedAfter t (attach made x draw read o).1⟩ := by
  obtain ⟨kept, surfaces⟩ := kept_enter entered
  have h' : Inv ⟨made, t.asked⟩ := inv_kept h kept surfaces
  have can : ∀ d, draw = some d → Answered (made.surfaces d) o ∧
      Passes (made.contexts x).gl.rasterizer (connectDepth (made.surfaces d) o) := by
    rw [surfaces, (kept x).gl]
    exact safe
  obtain ⟨others, same, depth, holds⟩ := @attach_spec _ _ made x draw read o h'.stride can
  have named := (links_attach made x draw read o).1 fun d here => (can d here).1
  have ctx (s : SurfaceId) : ((attach made x draw read o).1.surfaces s).ctx =
      if Among draw read s then some x else (made.surfaces s).ctx := by
    refine (congrFun (congrArg Links.ctx named) s).trans ?_
    exact claims_ctx x draw read s
  have magic (s : SurfaceId) : ((attach made x draw read o).1.surfaces s).magic =
      (made.surfaces s).magic := congrFun (congrArg Links.magic named) s
  have free {s : SurfaceId} {y : ContextId} (other : y ≠ x)
      (owner : (made.surfaces s).ctx = some y) : ¬Among draw read s := by
    intro among
    rw [surfaces] at owner
    exact (accepted_surfaces accepted among).2 y other owner
  have valid {s : SurfaceId} (among : Among draw read s) :
      ((attach made x draw read o).1.surfaces s).magic = true := by
    rw [magic, surfaces]
    exact (accepted_surfaces accepted among).1
  have assigned : (assign (release made x) x draw read).contexts x =
      { made.contexts x with
        draw := draw, read := read, neverCurrent := false
        gl :=
          if (made.contexts x).neverCurrent then
            firstPort (made.contexts x).gl (drawSize (release made x) draw).1
              (drawSize (release made x) draw).2
          else (made.contexts x).gl } := by
    unfold assign
    rw [Thread.withContext_self, (release_contexts made x).1]
  have current : ((attach made x draw read o).1.contexts x).neverCurrent = false := by
    rw [same.neverCurrent, assigned]
  refine inv_frame h' x (fun y other => ⟨?_, ?_⟩) (fun s y other exists' owner => ?_) (fun d drawn => ?_)
    (fun r seen => ?_) (fun _ => ?_) fun s => ?_
  · rw [others y other]
    exact Kept.refl _
  · refine askedAfter_same ?_
    rw [others y other]
    exact (kept y).neverCurrent
  · have apart := free other owner
    refine ⟨(magic s).trans exists', ?_, ?_⟩
    · rw [ctx, if_neg apart]
      exact owner
    · rw [depth, if_neg fun drawn => apart (.inl drawn)]
  · rw [same.draw, assigned] at drawn
    have among : Among draw read d := .inl drawn
    refine ⟨valid among, ?_, current, ?_⟩
    · rw [ctx, if_pos among]
    · rw [depth, if_pos drawn]
      exact holds d drawn
  · rw [same.read, assigned] at seen
    have among : Among draw read r := .inr seen
    refine ⟨valid among, ?_⟩
    rw [ctx, if_pos among]
  · refine same.ported ?_
    rw [assigned]
    dsimp only
    cases never : (made.contexts x).neverCurrent with
    | true =>
      have first : askedAfter t (attach made x draw read o).1 x =
          fullSurface t.thread (attach made x draw read o).1 x :=
        if_pos ⟨(kept x).neverCurrent.symm.trans never, current⟩
      rw [first, if_pos rfl]
      have height : colorHeight t.thread x = (made.contexts x).gl.rasterizer.color.height := by
        unfold colorHeight
        rw [(kept x).gl]
      unfold fullSurface
      rw [height]
      exact (ported_first _ _ _).1
    | false =>
      have later : askedAfter t (attach made x draw read o).1 x = t.asked x :=
        askedAfter_same (current.trans (never.symm.trans (kept x).neverCurrent))
      rw [later, if_neg Bool.false_ne_true]
      exact h'.port x never
  · rw [depth]
    split_ifs
    · exact stride_connect (h'.stride s) o
    · exact h'.stride s

theorem inv_surfaces {t : Tracked F} (h : Inv t) {m : Thread F}
    (contexts : ∀ y, Kept (t.thread.contexts y) (m.contexts y))
    (surfaces : ∀ s y, (t.thread.surfaces s).magic = true → (t.thread.surfaces s).ctx = some y →
      (m.surfaces s).magic = true ∧ (m.surfaces s).ctx = some y ∧
        (m.surfaces s).depth = (t.thread.surfaces s).depth)
    (stride : ∀ s, 0 ≤ (m.surfaces s).depth.stride) : Inv ⟨m, askedAfter t m⟩ := by
  have asked : askedAfter t m = t.asked :=
    funext fun y => askedAfter_same (contexts y).neverCurrent
  have others : Inv ⟨t.thread, t.asked⟩ := h
  rw [asked]
  refine inv_frame others 0 (fun y _ => ⟨contexts y, rfl⟩) (fun s y _ => surfaces s y) ?_ ?_ ?_ stride
  · intro d drawn
    rw [(contexts 0).draw] at drawn
    obtain ⟨magic, ctx, never, holds⟩ := h.draw 0 d drawn
    obtain ⟨magic', ctx', depth⟩ := surfaces d 0 magic ctx
    refine ⟨magic', ctx', (contexts 0).neverCurrent.trans never, ?_⟩
    rw [(contexts 0).gl, depth]
    exact holds
  · intro r seen
    rw [(contexts 0).read] at seen
    obtain ⟨magic, ctx⟩ := h.read 0 r seen
    obtain ⟨magic', ctx', -⟩ := surfaces r 0 magic ctx
    exact ⟨magic', ctx'⟩
  · intro current
    rw [(contexts 0).neverCurrent] at current
    rw [(contexts 0).gl]
    exact h.port 0 current

omit [GLfloat F] in
theorem detach_spec (m : Thread F) (x : ContextId) :
    let m' := detachRead (detachDraw m x) x
    (∀ y, y ≠ x → m'.contexts y = m.contexts y) ∧
      (m'.contexts x).neverCurrent = (m.contexts x).neverCurrent ∧
      (m'.contexts x).gl = (m.contexts x).gl ∧
      ∀ s, (m'.surfaces s).depth = (m.surfaces s).depth := by
  have drawn : (∀ y, y ≠ x → (detachDraw m x).contexts y = m.contexts y) ∧
      ((detachDraw m x).contexts x).neverCurrent = (m.contexts x).neverCurrent ∧
      ((detachDraw m x).contexts x).gl = (m.contexts x).gl ∧
      ∀ s, ((detachDraw m x).surfaces s).depth = (m.surfaces s).depth := by
    unfold detachDraw
    split
    · rename_i d _
      rw [Thread.withSurface_contexts, Thread.withContext_self]
      refine ⟨fun y other => Thread.withContext_of_ne other m _, rfl, rfl, fun s => ?_⟩
      by_cases here : s = d
      · rw [here, Thread.withSurface_self]
        exact disconnect_depth _
      · rw [Thread.withSurface_of_ne here, Thread.withContext_surfaces]
    · exact ⟨fun _ _ => rfl, rfl, rfl, fun _ => rfl⟩
  obtain ⟨others, never, gl, depth⟩ := drawn
  unfold detachRead
  dsimp only
  split
  · rename_i r _
    rw [Thread.withSurface_contexts, Thread.withContext_self]
    refine ⟨fun y other => ?_, never, gl, fun s => ?_⟩
    · rw [Thread.withContext_of_ne other]
      exact others y other
    · by_cases here : s = r
      · rw [here, Thread.withSurface_self]
        exact depth r
      · rw [Thread.withSurface_of_ne here]
        exact depth s
  · exact ⟨others, never, gl, depth⟩

theorem step_detach {t : Tracked F} (h : Inv t) {made : Thread F}
    (left : makeCurrent t.thread none = some made) (ctx : Option ContextId) :
    Inv ⟨detach made ctx, askedAfter t (detach made ctx)⟩ := by
  obtain ⟨kept, surfaces⟩ := kept_enter left
  cases ctx with
  | none =>
    refine inv_surfaces h kept (fun s y magic owner => ?_) fun s => ?_
    · change (made.surfaces s).magic = true ∧ (made.surfaces s).ctx = some y ∧
        (made.surfaces s).depth = _
      rw [surfaces]
      exact ⟨magic, owner, rfl⟩
    · change 0 ≤ (made.surfaces s).depth.stride
      rw [surfaces]
      exact h.stride s
  | some x =>
    have h' : Inv ⟨made, t.asked⟩ := inv_kept h kept surfaces
    obtain ⟨others, never, gl, depth⟩ := detach_spec made x
    have parted : links (detachRead (detachDraw made x) x) =
        ((links made).partDraw x).partRead x := by
      rw [links_detachRead, links_detachDraw]
    have draw : ((detachRead (detachDraw made x) x).contexts x).draw = none :=
      (congrFun (congrArg Links.draw parted) x).trans (Function.update_self _ _ _)
    have read : ((detachRead (detachDraw made x) x).contexts x).read = none :=
      (congrFun (congrArg Links.read parted) x).trans (Function.update_self _ _ _)
    have asked (y : ContextId) :
        askedAfter t (detachRead (detachDraw made x) x) y = t.asked y := by
      refine askedAfter_same ?_
      by_cases here : y = x
      · rw [here, never]
        exact (kept x).neverCurrent
      · rw [others y here]
        exact (kept y).neverCurrent
    refine inv_frame h' x (fun y other => ⟨?_, asked y⟩) (fun s y other magic owner => ?_)
      (fun d drawn => ?_) (fun r seen => ?_) (fun current => ?_) fun s => ?_
    · change Kept _ ((detachRead (detachDraw made x) x).contexts y)
      rw [others y other]
      exact Kept.refl _
    · refine ⟨(congrFun (congrArg Links.magic parted) s).trans magic, ?_, depth s⟩
      refine (congrFun (congrArg Links.ctx parted) s).trans ?_
      have apart : ¬Among (made.contexts x).draw (made.contexts x).read s := by
        rintro (drawn | seen)
        · have mine := (h'.draw x s drawn).2.1
          exact other (Option.some_inj.mp (owner.symm.trans mine))
        · have mine := (h'.read x s seen).2
          exact other (Option.some_inj.mp (owner.symm.trans mine))
      exact (parted_ctx (links made) x s).trans ((if_neg apart).trans owner)
    · cases draw.symm.trans drawn
    · cases read.symm.trans seen
    · change ((detachRead (detachDraw made x) x).contexts x).neverCurrent = false at current
      rw [never] at current
      change Ported ((detachRead (detachDraw made x) x).contexts x).gl
        (askedAfter t (detachRead (detachDraw made x) x) x).viewportHeight
        (askedAfter t (detachRead (detachDraw made x) x) x).scissorHeight
      rw [asked, gl]
      exact h'.port x current
    · change 0 ≤ ((detachRead (detachDraw made x) x).surfaces s).depth.stride
      rw [depth]
      exact h'.stride s

omit [GLfloat F] in
theorem post_spec {m : Thread F} {d : SurfaceId} {x : ContextId} {o : Outcome}
    (bound : (m.surfaces d).ctx = some x) (stride : 0 ≤ (m.surfaces d).depth.stride)
    (passes : Swappable (m.surfaces d) o →
      Passes (m.contexts x).gl.rasterizer (swapDepth (m.surfaces d) o))
    (holds : Holds (m.contexts x).gl.rasterizer (m.surfaces d).depth) :
    (post m d o).surfaces = (m.withSurface d fun _ => ((m.surfaces d).swapBuffers o).1).surfaces ∧
      (∀ y, y ≠ x → (post m d o).contexts y = m.contexts y) ∧
      SameFields (m.contexts x) ((post m d o).contexts x) ∧
      Holds ((post m d o).contexts x).gl.rasterizer ((m.surfaces d).swapBuffers o).1.depth := by
  obtain ⟨next, stays⟩ := swap_depth (m.surfaces d) o
  generalize swapped : (m.withSurface d fun _ => ((m.surfaces d).swapBuffers o).1).setError
    (((m.surfaces d).swapBuffers o).2.getD m.error) = m₁
  have contexts : m₁.contexts = m.contexts := by
    rw [← swapped]
    rfl
  have surfaces : m₁.surfaces =
      (m.withSurface d fun _ => ((m.surfaces d).swapBuffers o).1).surfaces := by
    rw [← swapped]
    rfl
  have surface : m₁.surfaces d = ((m.surfaces d).swapBuffers o).1 := by
    rw [surfaces, Thread.withSurface_self]
  obtain ⟨drawSurfaces, drawOthers, drawn⟩ := bindDraw_spec m₁ d x o.coverage
  have own : SameFields (m.contexts x) ((bindDraw m₁ d x o.coverage).contexts x) ∧
      Holds ((bindDraw m₁ d x o.coverage).contexts x).gl.rasterizer
        ((m.surfaces d).swapBuffers o).1.depth := by
    rw [surface, contexts] at drawn
    by_cases can : Swappable (m.surfaces d) o
    · refine drawn ?_ ?_ ((swap_pixels _ o).mpr can)
      · rw [next can]
        exact stride_swap stride o
      · rw [next can]
        exact passes can
    · have nothing : ((m.surfaces d).swapBuffers o).1.pixels = none :=
        Option.not_isSome_iff_eq_none.mp fun some => can ((swap_pixels _ o).mp some)
      have same : (bindDraw m₁ d x o.coverage).contexts = m.contexts := by
        unfold bindDraw bindDrawSurface
        rw [surface, nothing]
        exact contexts
      rw [same, stays can]
      exact ⟨SameFields.refl _, holds⟩
  obtain ⟨readSurfaces, readOthers, readSame, readDepth⟩ :=
    bindRead_spec (bindDraw m₁ d x o.coverage) d x
  have posted : post m d o =
      if ((bindDraw m₁ d x o.coverage).contexts x).read = some d then
        bindRead (bindDraw m₁ d x o.coverage) d x
      else bindDraw m₁ d x o.coverage := by
    unfold post
    dsimp only
    rw [(swap_links (m.surfaces d) o).2, bound, swapped]
  rw [posted]
  split_ifs
  · refine ⟨readSurfaces.trans (drawSurfaces.trans surfaces), fun y other => ?_,
      own.1.trans readSame, ?_⟩
    · rw [readOthers y other, drawOthers y other, contexts]
    · have same := own.2
      unfold Holds at same ⊢
      rw [readDepth]
      exact same
  · refine ⟨drawSurfaces.trans surfaces, fun y other => ?_, own.1, own.2⟩
    rw [drawOthers y other, contexts]

theorem step_post {t : Tracked F} (h : Inv t) {d : SurfaceId} {o : Outcome}
    (safe : ∀ x, (t.thread.surfaces d).ctx = some x →
      (t.thread.contexts x).draw = some d ∧
        (Swappable (t.thread.surfaces d) o →
          Passes (t.thread.contexts x).gl.rasterizer (swapDepth (t.thread.surfaces d) o))) :
    Inv ⟨post t.thread d o, askedAfter t (post t.thread d o)⟩ := by
  obtain ⟨magic, ctx⟩ := swap_links (t.thread.surfaces d) o
  have stride : 0 ≤ ((t.thread.surfaces d).swapBuffers o).1.depth.stride := by
    obtain ⟨next, stays⟩ := swap_depth (t.thread.surfaces d) o
    by_cases can : Swappable (t.thread.surfaces d) o
    · rw [next can]
      exact stride_swap (h.stride d) o
    · rw [stays can]
      exact h.stride d
  cases bound : (t.thread.surfaces d).ctx with
  | none =>
    have posted : (post t.thread d o).contexts = t.thread.contexts ∧ (post t.thread d o).surfaces =
        (t.thread.withSurface d fun _ => ((t.thread.surfaces d).swapBuffers o).1).surfaces := by
      unfold post
      dsimp only
      rw [ctx, bound]
      exact ⟨rfl, rfl⟩
    refine inv_surfaces h (fun y => ?_) (fun s y valid owner => ?_) fun s => ?_
    · rw [posted.1]
      exact Kept.refl _
    · have other : s ≠ d := by
        rintro rfl
        cases bound.symm.trans owner
      rw [posted.2, Thread.withSurface_of_ne other]
      exact ⟨valid, owner, rfl⟩
    · rw [posted.2]
      by_cases here : s = d
      · rw [here, Thread.withSurface_self]
        exact stride
      · rw [Thread.withSurface_of_ne here]
        exact h.stride s
  | some x =>
    obtain ⟨draws, passes⟩ := safe x bound
    obtain ⟨valid, -, never, holds⟩ := h.draw x d draws
    obtain ⟨surfaces, others, same, holds'⟩ := post_spec bound (h.stride d) passes holds
    have asked (y : ContextId) : askedAfter t (post t.thread d o) y = t.asked y := by
      refine askedAfter_same ?_
      by_cases here : y = x
      · rw [here]
        exact same.neverCurrent
      · rw [others y here]
    have surface : (post t.thread d o).surfaces d = ((t.thread.surfaces d).swapBuffers o).1 := by
      rw [surfaces, Thread.withSurface_self]
    have apart {s : SurfaceId} (other : s ≠ d) :
        (post t.thread d o).surfaces s = t.thread.surfaces s := by
      rw [surfaces, Thread.withSurface_of_ne other]
    have h' : Inv ⟨t.thread, t.asked⟩ := h
    refine inv_frame h' x (fun y other => ⟨?_, asked y⟩) (fun s y other valid owner => ?_)
      (fun e drawn => ?_) (fun r seen => ?_) (fun current => ?_) fun s => ?_
    · rw [others y other]
      exact Kept.refl _
    · have differs : s ≠ d := by
        rintro rfl
        exact other (Option.some_inj.mp (owner.symm.trans bound))
      rw [apart differs]
      exact ⟨valid, owner, rfl⟩
    · rw [same.draw, draws] at drawn
      obtain rfl := Option.some_inj.mp drawn
      rw [surface]
      exact ⟨magic.trans valid, ctx.trans bound, same.neverCurrent.trans never, holds'⟩
    · rw [same.read] at seen
      obtain ⟨valid', owner⟩ := h.read x r seen
      by_cases here : r = d
      · rw [here, surface]
        exact ⟨magic.trans valid, ctx.trans bound⟩
      · rw [apart here]
        exact ⟨valid', owner⟩
    · rw [asked]
      exact same.ported (h.port x never)
    · by_cases here : s = d
      · rw [here, surface]
        exact stride
      · rw [apart here]
        exact h.stride s

theorem step_place {t : Tracked F} (h : Inv t) {m : Thread F}
    (contexts : m.contexts = t.thread.contexts) (surfaces : m.surfaces = t.thread.surfaces)
    (s : SurfaceId) {surface : EglSurface} (stride : 0 ≤ surface.depth.stride) :
    Inv ⟨place m s surface, askedAfter t (place m s surface)⟩ := by
  have kept : (place m s surface).contexts = t.thread.contexts := by
    unfold place
    split_ifs
    · exact contexts
    · exact contexts
  have placed (r : SurfaceId) : (place m s surface).surfaces r =
      if r = s ∧ (t.thread.surfaces s).magic = false then surface else t.thread.surfaces r := by
    unfold place
    rw [surfaces]
    split_ifs with taken here here
    · rw [here.2] at taken
      cases taken
    · rw [surfaces]
    · rw [here.1, Thread.withSurface_self]
    · rw [Thread.withSurface_of_ne fun same =>
        here ⟨same, Bool.eq_false_of_not_eq_true taken⟩, surfaces]
  refine inv_surfaces h (fun y => ?_) (fun r y valid owner => ?_) fun r => ?_
  · rw [kept]
    exact Kept.refl _
  · have other : ¬(r = s ∧ (t.thread.surfaces s).magic = false) := by
      rintro ⟨rfl, free⟩
      cases free.symm.trans valid
    rw [placed, if_neg other]
    exact ⟨valid, owner, rfl⟩
  · rw [placed]
    split_ifs
    · exact stride
    · exact h.stride r

theorem inv_untouched {t : Tracked F} (h : Inv t) {m : Thread F}
    (contexts : m.contexts = t.thread.contexts) (surfaces : m.surfaces = t.thread.surfaces) :
    Inv ⟨m, askedAfter t m⟩ := by
  refine inv_surfaces h (fun y => ?_) (fun s y valid owner => ?_) fun s => ?_
  · rw [contexts]
    exact Kept.refl _
  · rw [surfaces]
    exact ⟨valid, owner, rfl⟩
  · rw [surfaces]
    exact h.stride s

theorem step_created {t : Tracked F} (h : Inv t) (x : ContextId) {c : EglContext F}
    (draw : c.draw = none) (read : c.read = none) (never : c.neverCurrent = true) :
    Inv ⟨t.thread.withContext x fun _ => c, askedAfter t (t.thread.withContext x fun _ => c)⟩ := by
  have h' : Inv ⟨t.thread, t.asked⟩ := h
  have own : (t.thread.withContext x fun _ => c).contexts x = c := Thread.withContext_self _ _ _
  refine inv_frame h' x (fun y other => ⟨?_, ?_⟩) (fun s y other valid owner => ⟨valid, owner, rfl⟩)
    (fun d drawn => ?_) (fun r seen => ?_) (fun current => ?_) h.stride
  · rw [Thread.withContext_of_ne other]
    exact Kept.refl _
  · refine askedAfter_same ?_
    rw [Thread.withContext_of_ne other]
  · rw [own, draw] at drawn
    cases drawn
  · rw [own, read] at seen
    cases seen
  · rw [own, never] at current
    cases current

theorem newDepth_stride (format : Pixelflinger.Format) (width height : Nat) (data : Int) :
    0 ≤ (newDepth format width height data).stride := by
  unfold newDepth
  split_ifs
  · exact Int.le_refl 0
  · exact Int.natCast_nonneg _

theorem step_egl {t : Tracked F} (h : Inv t) (op : Op F) (safe : Safe t (.egl op)) :
    Inv ⟨step t.thread op, askedAfter t (step t.thread op)⟩ := by
  cases op with
  | createContext dpy x made =>
    unfold step eglCreateContext
    dsimp only
    split_ifs
    · exact inv_untouched h rfl rfl
    · exact inv_untouched h rfl rfl
    · cases made with
      | none => exact inv_untouched h rfl rfl
      | some inverse => exact step_created h x rfl rfl rfl
  | createWindow dpy config s width height =>
    unfold step createWindowSurface
    dsimp only
    split_ifs
    · exact inv_untouched h rfl rfl
    · split
      · exact inv_untouched h rfl rfl
      · exact step_place h rfl rfl s (Int.le_refl 0)
  | createPixmap dpy config s pixmap depthData =>
    unfold step newPixmapSurface
    dsimp only
    split_ifs
    · exact inv_untouched h rfl rfl
    · split
      · exact inv_untouched h rfl rfl
      · split_ifs
        · exact inv_untouched h rfl rfl
        · exact step_place h rfl rfl s (newDepth_stride _ _ _ _)
  | createPbuffer dpy config s width height data depthData =>
    unfold step newPbufferSurface
    dsimp only
    have recorded (p : Prop) [Decidable p] :
        (if p then t.thread.setError EGL.badAlloc else t.thread).contexts = t.thread.contexts ∧
          (if p then t.thread.setError EGL.badAlloc else t.thread).surfaces = t.thread.surfaces := by
      split_ifs <;> exact ⟨rfl, rfl⟩
    cases formatsFor config EGL.pbufferBit with
    | none => split_ifs <;> exact inv_untouched h rfl rfl
    | some formats =>
      dsimp only
      by_cases invalid : validDisplay dpy = false
      · rw [if_pos invalid]
        exact inv_untouched h rfl rfl
      · rw [if_neg invalid]
        obtain ⟨contexts, surfaces⟩ :=
          recorded (formats.depth ≠ Pixelflinger.Format.none ∧ depthData = 0)
        by_cases absent : data = 0
        · rw [if_pos absent]
          exact inv_untouched h contexts surfaces
        · rw [if_neg absent]
          exact step_place h contexts surfaces s (newDepth_stride _ _ _ _)
  | makeCurrent dpy draw read ctx o =>
    unfold step eglMakeCurrent
    dsimp only
    cases accepted : refusal t.thread dpy draw read ctx with
    | some error => exact inv_untouched h rfl rfl
    | none =>
      dsimp only
      cases entered : makeCurrent t.thread ctx with
      | none => exact inv_untouched h rfl rfl
      | some made =>
        cases ctx with
        | none => exact step_detach h entered t.thread.current
        | some x =>
          refine step_attach h accepted entered (safe accepted fun flagged => ?_)
          by_contra elsewhere
          unfold makeCurrent at entered
          dsimp only at entered
          rw [if_pos flagged, if_pos elsewhere] at entered
          cases entered
  | swapBuffers dpy d o =>
    unfold step eglSwapBuffers
    dsimp only
    cases accepted : surfaceRefusal t.thread dpy d with
    | some error => exact inv_untouched h rfl rfl
    | none => exact step_post h (safe accepted)
  | destroySurface dpy s =>
    cases s with
    | none =>
      unfold step eglDestroySurface
      dsimp only
      split_ifs <;> exact inv_untouched h rfl rfl
    | some s =>
      unfold step eglDestroySurface
      dsimp only
      cases accepted : surfaceRefusal t.thread dpy s with
      | some error => exact inv_untouched h rfl rfl
      | none =>
        have free := safe accepted
        refine inv_surfaces h (fun y => Kept.refl _) (fun r y valid owner => ?_) fun r => ?_
        · have other : r ≠ s := by
            rintro rfl
            cases free.symm.trans owner
          dsimp only
          unfold destroySurface
          rw [Thread.withSurface_of_ne other]
          exact ⟨valid, owner, rfl⟩
        · dsimp only
          unfold destroySurface
          by_cases here : r = s
          · rw [here, Thread.withSurface_self, free]
            exact h.stride s
          · rw [Thread.withSurface_of_ne here]
            exact h.stride r
  | destroyContext dpy x =>
    unfold step eglDestroyContext
    dsimp only
    split_ifs
    · exact inv_untouched h rfl rfl
    · refine inv_surfaces h (fun y => ?_) (fun s y valid owner => ⟨valid, owner, rfl⟩) h.stride
      exact kept_withContext (f := fun c => { c with live := false }) ⟨rfl, rfl, rfl, rfl⟩ y

theorem step_onCurrent {t : Tracked F} (h : Inv t) {f : OglesContext F → OglesContext F}
    {asked : ContextId → Asked}
    (others : ∀ y, t.thread.current ≠ some y → asked y = t.asked y)
    (depth : ∀ gl, (f gl).rasterizer.depth = gl.rasterizer.depth)
    (port : ∀ x, t.thread.current = some x →
      Ported (t.thread.contexts x).gl (t.asked x).viewportHeight (t.asked x).scissorHeight →
        Ported (f (t.thread.contexts x).gl) (asked x).viewportHeight (asked x).scissorHeight) :
    Inv ⟨onCurrent t.thread f, asked⟩ := by
  have h' : Inv ⟨t.thread, t.asked⟩ := h
  unfold onCurrent
  cases current : t.thread.current with
  | none =>
    have same : asked = t.asked :=
      funext fun y => others y (by rw [current]; exact (Option.some_ne_none y).symm)
    rw [same]
    exact h
  | some x =>
    dsimp only
    refine inv_frame h' x (fun y other => ⟨?_, ?_⟩)
      (fun s y other valid owner => ⟨valid, owner, rfl⟩) (fun d drawn => ?_) (fun r seen => ?_)
      (fun first => ?_) h.stride
    · rw [Thread.withContext_of_ne other]
      exact Kept.refl _
    · refine others y fun same => other ?_
      rw [current] at same
      exact (Option.some_inj.mp same).symm
    · rw [Thread.withContext_self] at drawn ⊢
      obtain ⟨valid, owner, never, holds⟩ := h.draw x d drawn
      refine ⟨valid, owner, never, ?_⟩
      unfold Holds at holds ⊢
      rw [depth]
      exact holds
    · rw [Thread.withContext_self] at seen
      exact h.read x r seen
    · rw [Thread.withContext_self] at first ⊢
      exact port x current (h.port x first)

theorem step_inv {t : Tracked F} (h : Inv t) (op : PortOp F) (safe : Safe t op) :
    Inv (track t op) := by
  cases op with
  | egl op => exact step_egl h op safe
  | draw => exact h
  | viewport r =>
    refine step_onCurrent h (fun y other => if_neg fun both => other both.1)
      (fun gl => by rw [(oglesViewport_frame gl r).1]) fun x current ported => ?_
    dsimp only
    by_cases size : r.w < 0 ∨ r.h < 0
    · rw [if_neg fun both => both.2 size]
      exact (ported_viewport_refused ported size).1
    · rw [if_pos ⟨current, size⟩]
      exact ported_viewport ported size
  | scissor r =>
    refine step_onCurrent h (fun y other => if_neg fun both => other both.1)
      (fun gl => (oglesScissor_frame gl r).2.2) fun x current ported => ?_
    dsimp only
    by_cases size : r.w < 0 ∨ r.h < 0
    · rw [if_neg fun both => both.2 size]
      exact (ported_scissor_refused ported size).1
    · rw [if_pos ⟨current, size⟩]
      exact ported_scissor ported size

theorem start_inv : Inv (start : Tracked F) := by
  constructor
  · intro x d drawn
    cases drawn
  · intro x r seen
    cases seen
  · intro x current
    cases current
  · intro s
    exact Int.le_refl 0

end Runs

private def drawn : List (PortOp ℚ) :=
  [.egl (.createContext 1 0 (some id)), .egl (.createWindow 1 1 0 4 4),
    .egl (.makeCurrent 1 (some 0) (some 0) (some 0)
      ⟨some ⟨1, 4, 4, 4, Pixelflinger.Format.rgb565, 64⟩, 128, true⟩),
    .viewport ⟨0, 0, 4, 4⟩, .scissor ⟨0, 0, 4, 4⟩, .draw]

end RabbitRender.Egl.GeometryCoherence
