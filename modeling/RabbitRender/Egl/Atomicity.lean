/- RabbitRender/Egl/Atomicity
   layer: proof
   source: swrender/egl.cpp
   digest: A call that makes a context current and fails leaves everything as it was exactly when it
     fails in its checks, or renews a binding that holds nothing. -/

import RabbitRender.Egl.Bindings
import RabbitRender.Lib.GuardedRun
import RabbitRender.Matrix.Coherence

set_option autoImplicit false

namespace RabbitRender.Egl.Atomicity

open Egl.Configs Egl.Machine Egl.Bindings Pixelflinger Lib.GuardedRun
open Pixelflinger.State (GGLSurface)
open RabbitRender.Matrix.Transforms (GLfloat)

/-- The buffers a surface holds: the one that is dequeued, the one before, and the depth buffer. -/
def held (s : EglSurface) : Option Buffer × Option Buffer × GGLSurface :=
  match s.native with
  | .window w => (w.buffer, w.previousBuffer, s.depth)
  | .memory _ => (none, none, s.depth)

section Calls

variable {F : Type}

structure Unchanged (m m' : Thread F) : Prop where
  current : m'.current = m.current
  draw : ∀ x, (m'.contexts x).draw = (m.contexts x).draw
  read : ∀ x, (m'.contexts x).read = (m.contexts x).read
  isCurrent : ∀ x, (m'.contexts x).isCurrent = (m.contexts x).isCurrent
  neverCurrent : ∀ x, (m'.contexts x).neverCurrent = (m.contexts x).neverCurrent
  ctx : ∀ s, (m'.surfaces s).ctx = (m.surfaces s).ctx
  held : ∀ s, held (m'.surfaces s) = held (m.surfaces s)

theorem Unchanged.setError (m : Thread F) (error : EGLint) : Unchanged m (m.setError error) :=
  ⟨rfl, fun _ => rfl, fun _ => rfl, fun _ => rfl, fun _ => rfl, fun _ => rfl, fun _ => rfl⟩

/-- A window surface that holds nothing a failing connection would give up or overwrite: no buffer
when none can be dequeued; or else the very buffer that is dequeued, and a depth buffer of its size
that could not be had. -/
def Spent (s : EglSurface) (o : Outcome) : Prop :=
  ∀ w, s.native = .window w →
    w.previousBuffer = none ∧ w.buffer = o.dequeued ∧
      ∀ buffer, o.dequeued = some buffer →
        s.depth =
          { width := buffer.width, height := buffer.height, stride := buffer.width, data := 0,
            format := s.depth.format }

/-- The binding is one that the context has, and it has been current with it. -/
structure Renews (m : Thread F) (x : ContextId) (d : SurfaceId) (read : Option SurfaceId)
    (o : Outcome) : Prop where
  isCurrent : (m.contexts x).isCurrent = true
  neverCurrent : (m.contexts x).neverCurrent = false
  draw : (m.contexts x).draw = some d
  read : (m.contexts x).read = read
  spent : Spent (m.surfaces d) o

/-- The condition: a call that no check refuses connects its draw surface, or renews a binding. -/
def AtomicWhen (m : Thread F) (dpy : Display) (draw read : Option SurfaceId)
    (ctx : Option ContextId) (o : Outcome) : Prop :=
  ∀ x d, ctx = some x → draw = some d → refusal m dpy draw read ctx = none →
    ((m.contexts x).isCurrent = true → m.current = some x) →
      Answered (m.surfaces d) o ∨ Renews m x d read o

theorem disconnect_window {s : EglSurface} {w : Window} (native : s.native = .window w) :
    s.disconnect =
      { s with
        native := .window
          { w with
            buffer := none, previousBuffer := none
            bits := if w.buffer.isSome then 0 else w.bits } } := by
  unfold EglSurface.disconnect
  rw [native]

variable {o : Outcome} {x : ContextId} {d : SurfaceId} {read : Option SurfaceId}

theorem held_failed {s : EglSurface} (fails : ¬Answered s o) :
    held (s.disconnect.connect o).1 = held s ↔ Spent s o := by
  cases native : s.native with
  | memory pixels =>
    refine absurd (fun w window => ?_) fails
    cases native.symm.trans window
  | window w =>
    have before : held s = (w.buffer, w.previousBuffer, s.depth) := by
      unfold held
      rw [native]
    have spent : Spent s o ↔ w.previousBuffer = none ∧ w.buffer = o.dequeued ∧
        ∀ buffer, o.dequeued = some buffer →
          s.depth =
            { width := buffer.width, height := buffer.height, stride := buffer.width, data := 0,
              format := s.depth.format } :=
      ⟨fun h => h w native, fun h v window => by cases native.symm.trans window; exact h⟩
    rw [before, spent, disconnect_window native, connect_window rfl, EglSurface.connectWindow]
    cases dequeued : o.dequeued with
    | none =>
      change (none, none, s.depth) = (w.buffer, w.previousBuffer, s.depth) ↔ _
      rw [Prod.mk.injEq, Prod.mk.injEq]
      constructor
      · rintro ⟨buffer, previous, -⟩
        exact ⟨previous.symm, buffer.symm, fun _ absent => by cases absent⟩
      · rintro ⟨previous, buffer, -⟩
        exact ⟨buffer.symm, previous.symm, rfl⟩
    | some buffer =>
      have missing : s.depth.format ≠ Format.none ∧ o.depthData = 0 := by
        by_contra had
        rw [not_and_or, not_not] at had
        exact fails fun _ _ => ⟨by rw [dequeued]; rfl, had⟩
      dsimp only
      rw [connectedDepth_format, if_pos missing, EglSurface.connectedDepth, if_neg missing.1,
        missing.2]
      change (some buffer, none, _) = (w.buffer, w.previousBuffer, s.depth) ↔ _
      rw [Prod.mk.injEq, Prod.mk.injEq]
      constructor
      · rintro ⟨same, previous, depth⟩
        exact ⟨previous.symm, same.symm, fun _ here => by cases here; exact depth.symm⟩
      · rintro ⟨previous, same, depth⟩
        exact ⟨same.symm, previous.symm, (depth buffer rfl).symm⟩

theorem makeCurrent_cases {m made : Thread F} (h : makeCurrent m (some x) = some made) :
    ((m.contexts x).isCurrent = true ∧ made = m) ∨
      ((m.contexts x).isCurrent = false ∧ (made.contexts x).isCurrent = true) := by
  unfold makeCurrent at h
  dsimp only at h
  split_ifs at h with flagged
  · exact .inl ⟨flagged, (Option.some_inj.mp h).symm⟩
  · refine .inr ⟨Bool.eq_false_of_not_eq_true flagged, ?_⟩
    rw [← Option.some_inj.mp h]
    exact congrArg EglContext.isCurrent
      (Thread.withContext_self (leave m) x fun c => { c with isCurrent := true })

variable [GLfloat F]

def failed (m : Thread F) (x : ContextId) (d : SurfaceId) (read : Option SurfaceId) (o : Outcome) :
    Thread F :=
  ((assign (release m x) x (some d) read).withSurface d fun _ =>
    (((release m x).surfaces d).connect o).1).setError EGL.badAlloc

theorem attach_failed {m : Thread F} (fails : ¬Answered (m.surfaces d) o) :
    attach m x (some d) read o = (failed m x d read o, false) := by
  have lost : ¬(((release m x).surfaces d).connect o).2 = true := by
    rw [connect_ok, answered_release]
    exact fails
  have same : (assign (release m x) x (some d) read).surfaces d = (release m x).surfaces d := rfl
  unfold attach failed
  dsimp only
  rw [same]
  rcases connection : ((release m x).surfaces d).connect o with ⟨surface, _ | _⟩
  · rfl
  · rw [connection] at lost
    exact absurd rfl lost

theorem attach_connected {m : Thread F} (connects : Answered (m.surfaces d) o) :
    (attach m x (some d) read o).2 = true := by
  have had : (((release m x).surfaces d).connect o).2 = true := by
    rw [connect_ok, answered_release]
    exact connects
  have same : (assign (release m x) x (some d) read).surfaces d = (release m x).surfaces d := rfl
  unfold attach
  dsimp only
  rw [same]
  rcases connection : ((release m x).surfaces d).connect o with ⟨surface, _ | _⟩
  · rw [connection] at had
    cases had
  · rfl

theorem failed_context (m : Thread F) (x : ContextId) (d : SurfaceId) (read : Option SurfaceId)
    (o : Outcome) :
    let c := (failed m x d read o).contexts x
    c.draw = some d ∧ c.read = read ∧ c.neverCurrent = false ∧
      c.isCurrent = (m.contexts x).isCurrent := by
  have named : (failed m x d read o).contexts x = (assign (release m x) x (some d) read).contexts x :=
    rfl
  have same : (release m x).contexts x = m.contexts x := congrFun (release_contexts m x).1 x
  dsimp only
  rw [named, assign, Thread.withContext_self, same]
  exact ⟨rfl, rfl, rfl, rfl⟩

theorem failed_other {y : ContextId} (other : y ≠ x) (m : Thread F) (d : SurfaceId)
    (read : Option SurfaceId) (o : Outcome) : (failed m x d read o).contexts y = m.contexts y := by
  have named : (failed m x d read o).contexts y = (assign (release m x) x (some d) read).contexts y :=
    rfl
  rw [named, assign, Thread.withContext_of_ne other, (release_contexts m x).1]

theorem failed_surface {m : Thread F} (drawn : (m.contexts x).draw = some d) (s : SurfaceId) :
    (failed m x d read o).surfaces s =
      if s = d then ((m.surfaces d).disconnect.connect o).1 else m.surfaces s := by
  have named : (failed m x d read o).surfaces s =
      ((release m x).withSurface d fun _ => (((release m x).surfaces d).connect o).1).surfaces s :=
    rfl
  rw [named, release_drawn drawn]
  by_cases here : s = d
  · rw [here, Thread.withSurface_self, Thread.withSurface_self, if_pos rfl]
  · rw [Thread.withSurface_of_ne here, Thread.withSurface_of_ne here, if_neg here]

theorem failed_unchanged {m : Thread F} (fails : ¬Answered (m.surfaces d) o) :
    Unchanged m (failed m x d read o) ↔
      (m.contexts x).neverCurrent = false ∧ (m.contexts x).draw = some d ∧
        (m.contexts x).read = read ∧ Spent (m.surfaces d) o := by
  obtain ⟨draw, seen, never, flag⟩ := failed_context m x d read o
  constructor
  · intro same
    have drawn : (m.contexts x).draw = some d := (same.draw x).symm.trans draw
    refine ⟨(same.neverCurrent x).symm.trans never, drawn, (same.read x).symm.trans seen, ?_⟩
    have kept := same.held d
    rw [failed_surface drawn, if_pos rfl] at kept
    exact (held_failed fails).mp kept
  · rintro ⟨before, drawn, reads, spent⟩
    have context {α : Type} (g : EglContext F → α)
        (here : g ((failed m x d read o).contexts x) = g (m.contexts x)) (y : ContextId) :
        g ((failed m x d read o).contexts y) = g (m.contexts y) := by
      by_cases same : y = x
      · rw [same]
        exact here
      · rw [failed_other same]
    have surface {α : Type} (g : EglSurface → α)
        (here : g ((m.surfaces d).disconnect.connect o).1 = g (m.surfaces d)) (s : SurfaceId) :
        g ((failed m x d read o).surfaces s) = g (m.surfaces s) := by
      rw [failed_surface drawn]
      split_ifs with same
      · rw [same]
        exact here
      · rfl
    refine ⟨(release_contexts m x).2, ?_, ?_, ?_, ?_, ?_, ?_⟩
    · exact context EglContext.draw (draw.trans drawn.symm)
    · exact context EglContext.read (seen.trans reads.symm)
    · exact context EglContext.isCurrent flag
    · exact context EglContext.neverCurrent (never.trans before.symm)
    · exact surface EglSurface.ctx ((connect_links _ o).2.trans (disconnect_ctx _))
    · exact surface held ((held_failed fails).mpr spent)

/-- A call that returns `EGL_FALSE` leaves everything as it was exactly under the condition. -/
theorem make_current_atomic (m : Thread F) (dpy : Display) (draw read : Option SurfaceId)
    (ctx : Option ContextId) (o : Outcome) :
    ((eglMakeCurrent m dpy draw read ctx o).2 = false →
      Unchanged m (eglMakeCurrent m dpy draw read ctx o).1) ↔
      AtomicWhen m dpy draw read ctx o := by
  unfold eglMakeCurrent AtomicWhen
  cases accepted : refusal m dpy draw read ctx with
  | some error =>
    exact iff_of_true (fun _ => Unchanged.setError m error) fun _ _ _ _ none => by cases none
  | none =>
    dsimp only
    cases ctx with
    | none =>
      refine iff_of_true (fun failed => ?_) fun _ _ none => by cases none
      cases left : makeCurrent m none with
      | none => exact absurd left (Option.some_ne_none _)
      | some made =>
        rw [left] at failed
        cases failed
    | some x =>
      cases entered : makeCurrent m (some x) with
      | none =>
        refine iff_of_true (fun _ => Unchanged.setError m EGL.badAccess) fun y d here _ _ single => ?_
        cases here
        unfold makeCurrent at entered
        dsimp only at entered
        split_ifs at entered with flagged elsewhere
        exact absurd (single flagged) elsewhere
      | some made =>
        dsimp only
        cases draw with
        | none =>
          exact iff_of_true (fun failed => by cases failed) fun _ _ _ none => by cases none
        | some d =>
          have surfaces := makeCurrent_surfaces entered
          by_cases connects : Answered (m.surfaces d) o
          · refine iff_of_true (fun failed => ?_) fun _ _ _ same _ _ => by cases same; exact .inl connects
            have succeeds : (attach made x (some d) read o).2 = true :=
              attach_connected (by rw [surfaces]; exact connects)
            rw [succeeds] at failed
            cases failed
          · have fails : ¬Answered (made.surfaces d) o := by
              rw [surfaces]
              exact connects
            rw [attach_failed fails]
            rcases makeCurrent_cases entered with ⟨flagged, rfl⟩ | ⟨unflagged, flagged⟩
            · rw [forall_prop_of_true rfl, failed_unchanged fails]
              constructor
              · rintro ⟨before, drawn, reads, spent⟩ y d' here there _ _
                cases here
                cases there
                exact .inr ⟨flagged, before, drawn, reads, spent⟩
              · intro condition
                have single : made.current = some x := by
                  by_contra elsewhere
                  unfold makeCurrent at entered
                  dsimp only at entered
                  rw [if_pos flagged, if_pos elsewhere] at entered
                  cases entered
                have renews := (condition x d rfl rfl rfl fun _ => single).resolve_left fails
                exact ⟨renews.neverCurrent, renews.draw, renews.read, renews.spent⟩
            · refine iff_of_false (fun unchanged => ?_) fun condition => ?_
              · have now := (unchanged rfl).isCurrent x
                rw [(failed_context made x d read o).2.2.2, flagged, unflagged] at now
                cases now
              · have renews := (condition x d rfl rfl rfl fun set => by
                  cases unflagged.symm.trans set).resolve_left connects
                cases unflagged.symm.trans renews.isCurrent

end Calls

private def unbound : Thread ℚ :=
  run step init [.createContext 1 0 (some id), .createWindow 1 0 0 4 4]

/-- The window has no buffer to hand out: the call fails, and the thread has the context. -/
theorem failed_call_enters_context :
    (eglMakeCurrent unbound 1 (some 0) (some 0) (some 0) ⟨none, 0, true⟩).2 = false ∧
      ¬Unchanged unbound (eglMakeCurrent unbound 1 (some 0) (some 0) (some 0) ⟨none, 0, true⟩).1 := by
  refine ⟨by decide +kernel, fun unchanged => ?_⟩
  have current := unchanged.current
  revert current
  decide +kernel

end RabbitRender.Egl.Atomicity
