/- RabbitRender/Egl/Bindings
   layer: model
   source: swrender/egl.cpp
   digest: Who is bound to whom: the links between contexts, surfaces and the thread, and what each
     call does to them. -/

import RabbitRender.Egl.Machine

set_option autoImplicit false

namespace RabbitRender.Egl.Bindings

open Egl.Machine Pixelflinger
open RabbitRender.Matrix.Transforms (GLfloat)
open Pixelflinger.State (GGLSurface)

@[ext] structure Links where
  live : ContextId → Bool
  isCurrent : ContextId → Bool
  draw : ContextId → Option SurfaceId
  read : ContextId → Option SurfaceId
  magic : SurfaceId → Bool
  ctx : SurfaceId → Option ContextId
  current : Option ContextId
  nullDraw : Bool

namespace Links

def Names (l : Links) (x : ContextId) (s : SurfaceId) : Prop := l.draw x = some s ∨ l.read x = some s

structure Coherent (l : Links) : Prop where
  bound : ∀ s x, l.magic s = true → l.live x = true → (l.ctx s = some x ↔ l.Names x s)
  surfaces : ∀ x s, l.live x = true → l.Names x s → l.magic s = true
  contexts : ∀ s x, l.magic s = true → l.ctx s = some x → l.live x = true
  flagged : ∀ x, l.live x = true → (l.isCurrent x = true ↔ l.current = some x)
  current : ∀ x, l.current = some x → l.live x = true
  drawn : l.nullDraw = false

def leave (l : Links) : Links :=
  match l.current with
  | some x => { l with isCurrent := Function.update l.isCurrent x false }
  | none => l

def enter (l : Links) (x : ContextId) : Links :=
  { l.leave with isCurrent := Function.update l.leave.isCurrent x true, current := some x }

def name (l : Links) (x : ContextId) (draw read : Option SurfaceId) : Links :=
  { l with draw := Function.update l.draw x draw, read := Function.update l.read x read }

def claim (l : Links) (ctx : Option ContextId) (claimed : Option SurfaceId) : Links :=
  { l with ctx := fun s => if claimed = some s then ctx else l.ctx s }

@[simp] theorem claim_none (l : Links) (ctx : Option ContextId) : l.claim ctx none = l := by
  refine Links.ext rfl rfl rfl rfl rfl ?_ rfl rfl
  funext s
  simp [claim]

def partDraw (l : Links) (x : ContextId) : Links :=
  { l.claim none (l.draw x) with draw := Function.update l.draw x none }

def partRead (l : Links) (x : ContextId) : Links :=
  { l.claim none (l.read x) with read := Function.update l.read x none }

end Links

section Calls

variable {F : Type}

def links (m : Thread F) : Links where
  live := fun x => (m.contexts x).live
  isCurrent := fun x => (m.contexts x).isCurrent
  draw := fun x => (m.contexts x).draw
  read := fun x => (m.contexts x).read
  magic := fun s => (m.surfaces s).magic
  ctx := fun s => (m.surfaces s).ctx
  current := m.current
  nullDraw := m.nullDraw

theorem links_withContext (m : Thread F) (x : ContextId) (f : EglContext F → EglContext F) :
    links (m.withContext x f) =
      { links m with
        live := Function.update (links m).live x (f (m.contexts x)).live
        isCurrent := Function.update (links m).isCurrent x (f (m.contexts x)).isCurrent
        draw := Function.update (links m).draw x (f (m.contexts x)).draw
        read := Function.update (links m).read x (f (m.contexts x)).read } := by
  have field {α : Type} (g : EglContext F → α) := Function.comp_update g m.contexts x
  exact Links.ext (field EglContext.live _) (field EglContext.isCurrent _)
    (field EglContext.draw _) (field EglContext.read _) rfl rfl rfl rfl

theorem links_withSurface (m : Thread F) (s : SurfaceId) (f : EglSurface → EglSurface) :
    links (m.withSurface s f) =
      { links m with
        magic := Function.update (links m).magic s (f (m.surfaces s)).magic
        ctx := Function.update (links m).ctx s (f (m.surfaces s)).ctx } := by
  have field {α : Type} (g : EglSurface → α) := Function.comp_update g m.surfaces s
  exact Links.ext rfl rfl rfl rfl (field EglSurface.magic _) (field EglSurface.ctx _) rfl rfl

variable {x : ContextId} {s : EglSurface}

theorem links_context {m : Thread F} {f : EglContext F → EglContext F}
    (live : (f (m.contexts x)).live = (m.contexts x).live)
    (flag : (f (m.contexts x)).isCurrent = (m.contexts x).isCurrent)
    (draw : (f (m.contexts x)).draw = (m.contexts x).draw)
    (read : (f (m.contexts x)).read = (m.contexts x).read) :
    links (m.withContext x f) = links m := by
  rw [links_withContext, live, flag, draw, read]
  exact Links.ext (Function.update_eq_self _ _) (Function.update_eq_self _ _)
    (Function.update_eq_self _ _) (Function.update_eq_self _ _) rfl rfl rfl rfl

theorem links_surface {m : Thread F} {s : SurfaceId} {f : EglSurface → EglSurface}
    (magic : (f (m.surfaces s)).magic = (m.surfaces s).magic)
    (ctx : (f (m.surfaces s)).ctx = (m.surfaces s).ctx) :
    links (m.withSurface s f) = links m := by
  rw [links_withSurface, magic, ctx]
  exact Links.ext rfl rfl rfl rfl (Function.update_eq_self _ _) (Function.update_eq_self _ _)
    rfl rfl

theorem links_claim {m : Thread F} {s : SurfaceId} {f : EglSurface → EglSurface}
    {ctx : Option ContextId} (magic : (f (m.surfaces s)).magic = (m.surfaces s).magic)
    (owner : (f (m.surfaces s)).ctx = ctx) :
    links (m.withSurface s f) = (links m).claim ctx (some s) := by
  rw [links_withSurface, magic, owner]
  refine Links.ext rfl rfl rfl rfl (Function.update_eq_self _ _) ?_ rfl rfl
  funext t
  refine (Function.update_apply (links m).ctx s ctx t).trans ?_
  exact if_congr ⟨fun h => h ▸ rfl, fun h => (Option.some_inj.mp h).symm⟩ rfl rfl

@[simp] theorem disconnect_magic (s : EglSurface) : s.disconnect.magic = s.magic := by
  unfold EglSurface.disconnect
  split <;> rfl

@[simp] theorem disconnect_ctx (s : EglSurface) : s.disconnect.ctx = s.ctx := by
  unfold EglSurface.disconnect
  split <;> rfl

def Answered (s : EglSurface) (o : Outcome) : Prop :=
  ∀ w, s.native = .window w →
    o.dequeued.isSome = true ∧ (s.depth.format = Format.none ∨ o.depthData ≠ 0)

theorem connect_window {w : Window} (native : s.native = .window w) (o : Outcome) :
    s.connect o = s.connectWindow w o := by
  unfold EglSurface.connect
  rw [native]

theorem connect_memory {pixels : GGLSurface} (native : s.native = .memory pixels) (o : Outcome) :
    s.connect o = (s, true) := by
  unfold EglSurface.connect
  rw [native]

theorem connectedDepth_format (s : EglSurface) (buffer : Buffer) (o : Outcome) :
    (s.connectedDepth buffer o).format = s.depth.format := by
  unfold EglSurface.connectedDepth
  split <;> rfl

theorem connect_links (s : EglSurface) (o : Outcome) :
    (s.connect o).1.magic = s.magic ∧ (s.connect o).1.ctx = s.ctx := by
  cases native : s.native with
  | memory pixels => rw [connect_memory native]; exact ⟨rfl, rfl⟩
  | window w =>
    rw [connect_window native, EglSurface.connectWindow]
    cases o.dequeued with
    | none => exact ⟨rfl, rfl⟩
    | some buffer =>
      dsimp only
      split_ifs <;> exact ⟨rfl, rfl⟩

theorem connect_ok (s : EglSurface) (o : Outcome) :
    (s.connect o).2 = true ↔ Answered s o := by
  unfold Answered
  cases native : s.native with
  | memory pixels =>
    rw [connect_memory native]
    exact iff_of_true rfl fun w h => by cases h
  | window w =>
    rw [connect_window native, EglSurface.connectWindow]
    cases o.dequeued with
    | none => exact iff_of_false Bool.false_ne_true fun h => Bool.false_ne_true (h w rfl).1
    | some buffer =>
      dsimp only
      rw [connectedDepth_format]
      by_cases fails : s.depth.format ≠ Format.none ∧ o.depthData = 0
      · rw [if_pos fails]
        refine iff_of_false Bool.false_ne_true fun h => ?_
        rcases (h w rfl).2 with flat | had
        · exact fails.1 flat
        · exact had fails.2
      · rw [if_neg fails]
        refine iff_of_true rfl fun _ _ => ⟨rfl, ?_⟩
        by_contra neither
        rw [not_or, not_not] at neither
        exact fails neither

theorem connect_pixels {s : EglSurface} {o : Outcome} (h : (s.connect o).2 = true) :
    (s.connect o).1.pixels.isSome = true := by
  cases native : s.native with
  | memory pixels =>
    rw [connect_memory native, EglSurface.pixels, native]
    rfl
  | window w =>
    rw [connect_window native, EglSurface.connectWindow] at h ⊢
    cases dequeued : o.dequeued with
    | none =>
      rw [dequeued] at h
      cases h
    | some buffer =>
      rw [dequeued] at h
      dsimp only at h ⊢
      split_ifs at h ⊢
      rfl

theorem answered_disconnect {o : Outcome} : Answered s.disconnect o ↔ Answered s o := by
  unfold EglSurface.disconnect Answered
  cases native : s.native with
  | window w => exact ⟨fun h v _ => h _ rfl, fun h v _ => h w rfl⟩
  | memory pixels => rw [native]

theorem resize_links (s : EglSurface) (w : Window) (buffer : Buffer) (o : Outcome) :
    (s.resize w buffer o).1.magic = s.magic ∧ (s.resize w buffer o).1.ctx = s.ctx := by
  unfold EglSurface.resize
  dsimp only
  split_ifs <;> exact ⟨rfl, rfl⟩

theorem resize_pixels (s : EglSurface) (w : Window) (buffer : Buffer) (o : Outcome) :
    (s.resize w buffer o).1.pixels.isSome = w.buffer.isSome := by
  unfold EglSurface.resize
  dsimp only
  split_ifs <;> exact Option.isSome_map

theorem swap_window {w : Window} (native : s.native = .window w) (o : Outcome) :
    s.swapBuffers o = s.swapWindow w o := by
  unfold EglSurface.swapBuffers
  rw [native]

theorem swap_memory {pixels : GGLSurface} (native : s.native = .memory pixels) (o : Outcome) :
    s.swapBuffers o = (s, none) := by
  unfold EglSurface.swapBuffers
  rw [native]

theorem swap_links (s : EglSurface) (o : Outcome) :
    (s.swapBuffers o).1.magic = s.magic ∧ (s.swapBuffers o).1.ctx = s.ctx := by
  cases native : s.native with
  | memory pixels => rw [swap_memory native]; exact ⟨rfl, rfl⟩
  | window w =>
    rw [swap_window native, EglSurface.swapWindow]
    cases w.buffer with
    | none => exact ⟨rfl, rfl⟩
    | some posted =>
      cases o.dequeued with
      | none => exact ⟨rfl, rfl⟩
      | some buffer => exact resize_links s _ buffer o

/-- A window surface has a buffer after a swap when it had one before and the window has another. -/
def Swappable (s : EglSurface) (o : Outcome) : Prop :=
  ∀ w, s.native = .window w → w.buffer.isSome = true ∧ o.dequeued.isSome = true

theorem swap_pixels (s : EglSurface) (o : Outcome) :
    (s.swapBuffers o).1.pixels.isSome = true ↔ Swappable s o := by
  unfold Swappable
  cases native : s.native with
  | memory pixels =>
    rw [swap_memory native, EglSurface.pixels, native]
    exact iff_of_true rfl fun w h => by cases h
  | window w =>
    have all : (∀ v, Native.window w = .window v → v.buffer.isSome = true ∧
        o.dequeued.isSome = true) ↔ w.buffer.isSome = true ∧ o.dequeued.isSome = true :=
      ⟨fun h => h w rfl, fun h v same => by cases same; exact h⟩
    rw [all, swap_window native, EglSurface.swapWindow]
    cases held : w.buffer with
    | none =>
      refine iff_of_false (fun h => ?_) fun h => Bool.false_ne_true h.1
      rw [EglSurface.pixels, native] at h
      dsimp only at h
      rw [held] at h
      exact Bool.false_ne_true h
    | some posted =>
      cases o.dequeued with
      | none => exact iff_of_false Bool.false_ne_true fun h => Bool.false_ne_true h.2
      | some buffer => exact iff_of_true (resize_pixels s _ buffer o) ⟨rfl, rfl⟩

theorem links_bindDraw (m : Thread F) (d : SurfaceId) (x : ContextId) (coverage : Bool) :
    links (bindDraw m d x coverage) =
      { links m with nullDraw := m.nullDraw || !(m.surfaces d).pixels.isSome } := by
  unfold bindDraw bindDrawSurface
  cases (m.surfaces d).pixels with
  | none => exact Links.ext rfl rfl rfl rfl rfl rfl rfl (Bool.or_true m.nullDraw).symm
  | some pixels =>
    rw [Option.map_some]
    refine (links_context rfl rfl rfl rfl).trans ?_
    exact Links.ext rfl rfl rfl rfl rfl rfl rfl (Bool.or_false m.nullDraw).symm

theorem links_bindRead (m : Thread F) (r : SurfaceId) (x : ContextId) :
    links (bindRead m r x) = links m := by
  unfold bindRead
  split
  · exact links_context rfl rfl rfl rfl
  · rfl

theorem links_leave (m : Thread F) : links (leave m) = (links m).leave := by
  unfold leave Links.leave
  have seen : (links m).current = m.current := rfl
  rw [seen]
  cases current : m.current with
  | none => rfl
  | some x =>
    refine (links_withContext m x _).trans ?_
    exact Links.ext (Function.update_eq_self _ _) rfl (Function.update_eq_self _ _)
      (Function.update_eq_self _ _) rfl rfl current rfl

theorem links_makeCurrent {m made : Thread F} (h : makeCurrent m (some x) = some made) :
    links made = (links m).enter x := by
  unfold makeCurrent at h
  dsimp only at h
  split_ifs at h with flagged elsewhere
  · obtain rfl := Option.some_inj.mp h
    have here : (links m).current = some x := not_not.mp elsewhere
    unfold Links.enter Links.leave
    rw [here]
    have flag : (links m).isCurrent x = true := flagged
    refine Links.ext rfl ?_ rfl rfl rfl rfl here rfl
    dsimp only
    rw [Function.update_idem, ← flag, Function.update_eq_self]
  · obtain rfl := Option.some_inj.mp h
    have entered := links_withContext (leave m) x fun c => { c with isCurrent := true }
    have same := congrArg (fun l : Links => { l with current := some x }) entered
    refine same.trans ?_
    unfold Links.enter
    rw [← links_leave]
    exact Links.ext (Function.update_eq_self _ _) rfl (Function.update_eq_self _ _)
      (Function.update_eq_self _ _) rfl rfl rfl rfl

theorem makeCurrent_surfaces {m made : Thread F} (h : makeCurrent m (some x) = some made) :
    made.surfaces = m.surfaces := by
  unfold makeCurrent leave at h
  dsimp only at h
  split_ifs at h
  · rw [← Option.some_inj.mp h]
  · rw [← Option.some_inj.mp h]
    cases m.current <;> rfl

theorem links_makeCurrent_none {m made : Thread F} (h : makeCurrent m none = some made) :
    links made = { (links m).leave with current := none } := by
  rw [← Option.some_inj.mp h, ← links_leave]
  rfl

theorem release_contexts (m : Thread F) (x : ContextId) :
    (release m x).contexts = m.contexts ∧ (release m x).current = m.current := by
  unfold release
  split <;> exact ⟨rfl, rfl⟩

theorem release_drawn {m : Thread F} {d : SurfaceId} (drawn : (m.contexts x).draw = some d) :
    release m x = m.withSurface d EglSurface.disconnect := by
  unfold release
  rw [drawn]

theorem links_release (m : Thread F) (x : ContextId) : links (release m x) = links m := by
  unfold release
  split
  · exact links_surface (disconnect_magic _) (disconnect_ctx _)
  · rfl

theorem links_attachRead (m : Thread F) (x : ContextId) (read : Option SurfaceId) :
    links (attachRead m x read) = (links m).claim (some x) read := by
  cases read with
  | none => exact (Links.claim_none _ _).symm
  | some r => exact (links_bindRead _ r x).trans (links_claim rfl rfl)

theorem answered_release {m : Thread F} {d : SurfaceId} {o : Outcome} :
    Answered ((release m x).surfaces d) o ↔ Answered (m.surfaces d) o := by
  unfold release
  split
  · rename_i s _
    by_cases here : d = s
    · subst here
      rw [Thread.withSurface_self]
      exact answered_disconnect
    · rw [Thread.withSurface_of_ne here]
  · exact Iff.rfl

section Attach

variable [GLfloat F]

theorem links_assign (m : Thread F) (x : ContextId) (draw read : Option SurfaceId) :
    links (assign m x draw read) = (links m).name x draw read := by
  refine (links_withContext m x _).trans ?_
  exact Links.ext (Function.update_eq_self _ _) (Function.update_eq_self _ _) rfl rfl rfl rfl rfl
    rfl

def Connects (m : Thread F) (draw : Option SurfaceId) (o : Outcome) : Prop :=
  ∀ d, draw = some d → Answered (m.surfaces d) o

theorem links_attach (m : Thread F) (x : ContextId) (draw read : Option SurfaceId) (o : Outcome) :
    (Connects m draw o →
      links (attach m x draw read o).1 =
        (((links m).name x draw read).claim (some x) draw).claim (some x) read) ∧
    (¬Connects m draw o → links (attach m x draw read o).1 = (links m).name x draw read) := by
  have named : links (assign (release m x) x draw read) = (links m).name x draw read := by
    rw [links_assign, links_release]
  cases draw with
  | none =>
    refine ⟨fun _ => ?_, fun h => absurd (fun d h => by cases h) h⟩
    refine (links_attachRead _ x read).trans ?_
    rw [named, Links.claim_none]
  | some d =>
    have here : (assign (release m x) x (some d) read).surfaces d = (release m x).surfaces d := rfl
    have answered : Connects m (some d) o ↔
        ((((assign (release m x) x (some d) read).surfaces d).connect o).2 = true) := by
      rw [connect_ok, here, answered_release]
      exact ⟨fun h => h d rfl, fun h d' same => by cases same; exact h⟩
    obtain ⟨magic, ctx⟩ := connect_links ((assign (release m x) x (some d) read).surfaces d) o
    have pixels := @connect_pixels ((assign (release m x) x (some d) read).surfaces d) o
    rw [answered]
    unfold attach
    dsimp only
    rcases connection : ((assign (release m x) x (some d) read).surfaces d).connect o with
      ⟨connected, _ | _⟩
    · rw [connection] at magic ctx
      refine ⟨fun h => absurd h Bool.false_ne_true, fun _ => ?_⟩
      rw [← named]
      exact links_surface (f := fun _ => connected) magic ctx
    · rw [connection] at magic pixels
      refine ⟨fun _ => ?_, fun h => absurd rfl h⟩
      have claimed : links ((assign (release m x) x (some d) read).withSurface d
          fun _ => { connected with ctx := some x }) =
          ((links m).name x (some d) read).claim (some x) (some d) := by
        rw [← named]
        exact links_claim magic rfl
      refine (links_attachRead _ x read).trans ?_
      rw [links_bindDraw, Thread.withSurface_self, ← claimed]
      have there : ({ connected with ctx := some x } : EglSurface).pixels.isSome = true :=
        pixels rfl
      rw [there]
      congr 1
      exact Links.ext rfl rfl rfl rfl rfl rfl rfl (Bool.or_false _)

theorem links_eglMakeCurrent {m : Thread F} {dpy : Display} {draw read : Option SurfaceId}
    {x : ContextId} {o : Outcome} (accepted : refusal m dpy draw read (some x) = none)
    (single : (m.contexts x).isCurrent = true → m.current = some x) :
    (Connects m draw o →
      links (eglMakeCurrent m dpy draw read (some x) o).1 =
        ((((links m).enter x).name x draw read).claim (some x) draw).claim (some x) read) ∧
    (¬Connects m draw o →
      links (eglMakeCurrent m dpy draw read (some x) o).1 =
        ((links m).enter x).name x draw read) := by
  unfold eglMakeCurrent
  rw [accepted]
  dsimp only
  cases entered : makeCurrent m (some x) with
  | none =>
    unfold makeCurrent at entered
    dsimp only at entered
    split_ifs at entered with flagged elsewhere
    exact absurd (single flagged) elsewhere
  | some made =>
    have connects : Connects made draw o ↔ Connects m draw o := by
      unfold Connects
      rw [makeCurrent_surfaces entered]
    rw [← links_makeCurrent entered, ← connects]
    exact links_attach made x draw read o

end Attach

theorem links_detachDraw (m : Thread F) (x : ContextId) :
    links (detachDraw m x) = (links m).partDraw x := by
  have named : (links m).draw x = (m.contexts x).draw := rfl
  unfold detachDraw Links.partDraw
  rw [named]
  cases draw : (m.contexts x).draw with
  | none =>
    have same : Function.update (links m).draw x none = (links m).draw := by
      rw [← draw, ← named, Function.update_eq_self]
    rw [Links.claim_none]
    exact Links.ext rfl rfl same.symm rfl rfl rfl rfl rfl
  | some d =>
    have undrawn := links_withContext m x fun c => { c with draw := none }
    have unbound := links_claim (m := m.withContext x fun c => { c with draw := none }) (s := d)
      (f := fun s => { s with ctx := none }.disconnect) (disconnect_magic _) (disconnect_ctx _)
    refine unbound.trans ?_
    rw [undrawn]
    exact Links.ext (Function.update_eq_self _ _) (Function.update_eq_self _ _) rfl
      (Function.update_eq_self _ _) rfl rfl rfl rfl

theorem links_detachRead (m : Thread F) (x : ContextId) :
    links (detachRead m x) = (links m).partRead x := by
  have named : (links m).read x = (m.contexts x).read := rfl
  unfold detachRead Links.partRead
  rw [named]
  cases read : (m.contexts x).read with
  | none =>
    have same : Function.update (links m).read x none = (links m).read := by
      rw [← read, ← named, Function.update_eq_self]
    rw [Links.claim_none]
    exact Links.ext rfl rfl rfl same.symm rfl rfl rfl rfl
  | some r =>
    have unread := links_withContext m x fun c => { c with read := none }
    refine (links_claim rfl rfl).trans ?_
    rw [unread]
    exact Links.ext (Function.update_eq_self _ _) (Function.update_eq_self _ _)
      (Function.update_eq_self _ _) rfl rfl rfl rfl rfl

theorem links_post (m : Thread F) (d : SurfaceId) (o : Outcome) :
    links (post m d o) =
      { links m with
        nullDraw := m.nullDraw ||
          ((m.surfaces d).ctx.isSome && !((m.surfaces d).swapBuffers o).1.pixels.isSome) } := by
  obtain ⟨magic, ctx⟩ := swap_links (m.surfaces d) o
  have swapped : links ((m.withSurface d fun _ => ((m.surfaces d).swapBuffers o).1).setError
      (((m.surfaces d).swapBuffers o).2.getD m.error)) = links m :=
    links_surface (f := fun _ => ((m.surfaces d).swapBuffers o).1) magic ctx
  unfold post
  dsimp only
  rw [ctx]
  cases bound : (m.surfaces d).ctx with
  | none =>
    refine swapped.trans (Links.ext rfl rfl rfl rfl rfl rfl rfl ?_)
    exact (Bool.or_false m.nullDraw).symm
  | some x =>
    have drawn := links_bindDraw ((m.withSurface d fun _ =>
      ((m.surfaces d).swapBuffers o).1).setError (((m.surfaces d).swapBuffers o).2.getD m.error))
      d x o.coverage
    rw [swapped] at drawn
    have here : (((m.withSurface d fun _ => ((m.surfaces d).swapBuffers o).1).setError
        (((m.surfaces d).swapBuffers o).2.getD m.error)).surfaces d) =
        ((m.surfaces d).swapBuffers o).1 :=
      Thread.withSurface_self m d fun _ => ((m.surfaces d).swapBuffers o).1
    rw [here] at drawn
    dsimp only
    split_ifs
    · exact (links_bindRead _ d x).trans drawn
    · exact drawn

theorem links_destroySurface (m : Thread F) (s : SurfaceId) :
    links (destroySurface m s) =
      { (links m).claim none (some s) with magic := Function.update (links m).magic s false } := by
  have unbound : (if (m.surfaces s).ctx.isSome = true then
      { (m.surfaces s).disconnect with ctx := none } else m.surfaces s).ctx = none := by
    split_ifs with bound
    · rfl
    · exact Option.not_isSome_iff_eq_none.mp bound
  unfold destroySurface
  rw [links_withSurface, ← links_claim (f := fun s => { s with ctx := none }) rfl rfl,
    links_withSurface]
  exact Links.ext rfl rfl rfl rfl rfl
    (congrArg (Function.update (links m).ctx s) unbound) rfl rfl

theorem links_destroyContext (m : Thread F) (x : ContextId) :
    links (destroyContext m x) =
      { links m with
        live := Function.update (links m).live x false
        current := if (links m).isCurrent x = true then none else (links m).current } := by
  have gone := links_withContext m x fun c => { c with live := false }
  refine (congrArg (fun l : Links => { l with
    current := if (links m).isCurrent x = true then none else (links m).current }) gone).trans ?_
  exact Links.ext rfl (Function.update_eq_self _ _) (Function.update_eq_self _ _)
    (Function.update_eq_self _ _) rfl rfl rfl rfl

theorem links_created {m : Thread F} {x : ContextId} {c : EglContext F} (live : c.live = true)
    (flag : c.isCurrent = false) (draw : c.draw = none) (read : c.read = none) :
    links (m.withContext x fun _ => c) =
      { (links m).name x none none with
        live := Function.update (links m).live x true
        isCurrent := Function.update (links m).isCurrent x false } := by
  rw [links_withContext, live, flag, draw, read]
  rfl

theorem links_placed {m : Thread F} {s : SurfaceId} {surface : EglSurface}
    (magic : surface.magic = true) (ctx : surface.ctx = none) :
    links (m.withSurface s fun _ => surface) =
      { (links m).claim none (some s) with magic := Function.update (links m).magic s true } := by
  rw [links_withSurface, ← links_claim (f := fun s => { s with ctx := none }) rfl rfl,
    links_withSurface, magic, ctx]

end Calls

end RabbitRender.Egl.Bindings
