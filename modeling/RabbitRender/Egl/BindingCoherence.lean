/- RabbitRender/Egl/BindingCoherence
   layer: proof
   source: swrender/egl.cpp
   digest: Contexts and surfaces tell the same of each other exactly as long as a context keeps its
     surfaces until it is detached from them. -/

import RabbitRender.Egl.Bindings
import RabbitRender.Lib.GuardedRun
import RabbitRender.Matrix.Coherence

set_option autoImplicit false

namespace RabbitRender.Egl.BindingCoherence

open Lib.GuardedRun Egl.Configs Egl.Machine Egl.Bindings
open Egl.Bindings.Links (Coherent Names)
open RabbitRender.Matrix.Transforms (GLfloat)

variable {l : Links}

theorem leave_flag (h : l.Coherent) {y : ContextId} (live : l.live y = true) :
    l.leave.isCurrent y = false := by
  have flagged := h.flagged y live
  unfold Links.leave
  cases current : l.current with
  | none =>
    rw [current] at flagged
    refine Bool.eq_false_iff.mpr fun set => ?_
    cases flagged.mp set
  | some z =>
    change Function.update l.isCurrent z false y = false
    by_cases here : y = z
    · rw [here, Function.update_self]
    · rw [Function.update_of_ne here]
      rw [current] at flagged
      refine Bool.eq_false_iff.mpr fun set => here ?_
      exact (Option.some_inj.mp (flagged.mp set)).symm

theorem leave_others : l.leave.live = l.live ∧ l.leave.draw = l.draw ∧ l.leave.read = l.read ∧
    l.leave.magic = l.magic ∧ l.leave.ctx = l.ctx ∧ l.leave.nullDraw = l.nullDraw := by
  unfold Links.leave
  cases l.current <;> exact ⟨rfl, rfl, rfl, rfl, rfl, rfl⟩

theorem coherent_reflag (h : l.Coherent) {l' : Links} (live : l'.live = l.live)
    (draw : l'.draw = l.draw) (read : l'.read = l.read) (magic : l'.magic = l.magic)
    (ctx : l'.ctx = l.ctx) (drawn : l'.nullDraw = l.nullDraw)
    (flagged : ∀ y, l.live y = true → (l'.isCurrent y = true ↔ l'.current = some y))
    (current : ∀ y, l'.current = some y → l.live y = true) : l'.Coherent := by
  have names (y : ContextId) (s : SurfaceId) : l'.Names y s ↔ l.Names y s := by
    unfold Names
    rw [draw, read]
  constructor
  · intro s y
    rw [magic, live, ctx, names]
    exact h.bound s y
  · intro y s
    rw [live, names, magic]
    exact h.surfaces y s
  · intro s y
    rw [magic, ctx, live]
    exact h.contexts s y
  · intro y
    rw [live]
    exact flagged y
  · intro y
    rw [live]
    exact current y
  · exact drawn.trans h.drawn

variable {x : ContextId} {draw read : Option SurfaceId} {s : SurfaceId} {dpy : Display}

theorem coherent_enter (h : l.Coherent) (live : l.live x = true) : (l.enter x).Coherent := by
  obtain ⟨lives, draw, read, magic, ctx, drawn⟩ := @leave_others l
  refine coherent_reflag h lives draw read magic ctx drawn ?_ ?_
  · intro y alive
    change Function.update l.leave.isCurrent x true y = true ↔ some x = some y
    by_cases here : y = x
    · rw [here, Function.update_self]
      exact iff_of_true rfl rfl
    · rw [Function.update_of_ne here, leave_flag h alive]
      exact iff_of_false Bool.false_ne_true fun same => here (Option.some_inj.mp same).symm
  · intro y entered
    rw [← Option.some_inj.mp entered]
    exact live

theorem coherent_leave (h : l.Coherent) : Coherent { l.leave with current := none } := by
  obtain ⟨lives, draw, read, magic, ctx, drawn⟩ := @leave_others l
  refine coherent_reflag h lives draw read magic ctx drawn ?_ ?_
  · intro y alive
    change l.leave.isCurrent y = true ↔ none = some y
    rw [leave_flag h alive]
    exact iff_of_false Bool.false_ne_true fun same => by cases same
  · intro y entered
    cases entered

def Among (draw read : Option SurfaceId) (s : SurfaceId) : Prop := draw = some s ∨ read = some s

instance (draw read : Option SurfaceId) (s : SurfaceId) : Decidable (Among draw read s) :=
  inferInstanceAs (Decidable (_ ∨ _))

instance (l : Links) (x : ContextId) (s : SurfaceId) : Decidable (l.Names x s) :=
  inferInstanceAs (Decidable (_ ∨ _))

theorem names_name (x y : ContextId) (draw read : Option SurfaceId) (s : SurfaceId) :
    (l.name x draw read).Names y s ↔ if y = x then Among draw read s else l.Names y s := by
  change (Function.update l.draw x draw y = some s ∨ Function.update l.read x read y = some s) ↔ _
  by_cases here : y = x
  · subst here
    rw [Function.update_self, Function.update_self, if_pos rfl]
    exact Iff.rfl
  · rw [Function.update_of_ne here, Function.update_of_ne here, if_neg here]
    exact Iff.rfl

/-- The links `l'` differ from `l` in who is bound to a context. -/
structure Rebinds (l l' : Links) (x : ContextId) (draw read : Option SurfaceId) : Prop where
  live : l'.live = l.live
  isCurrent : l'.isCurrent = l.isCurrent
  magic : l'.magic = l.magic
  current : l'.current = l.current
  nullDraw : l'.nullDraw = l.nullDraw
  names : ∀ y s, l'.Names y s ↔ if y = x then Among draw read s else l.Names y s
  apart : ∀ s y, y ≠ x → (l'.ctx s = some y ↔ l.ctx s = some y)

theorem coherent_rebinds (h : l.Coherent) {l' : Links} (r : Rebinds l l' x draw read)
    (live : l.live x = true) (magic : ∀ s, Among draw read s → l.magic s = true) :
    l'.Coherent ↔ ∀ s, l.magic s = true → (l'.ctx s = some x ↔ Among draw read s) := by
  constructor
  · intro h' s valid
    have bound := h'.bound s x (by rw [r.magic]; exact valid) (by rw [r.live]; exact live)
    rwa [r.names, if_pos rfl] at bound
  · intro mine
    constructor
    · intro s y valid alive
      rw [r.magic] at valid
      rw [r.live] at alive
      rw [r.names]
      by_cases here : y = x
      · rw [here, if_pos rfl]
        exact mine s valid
      · rw [if_neg here, r.apart s y here]
        exact h.bound s y valid alive
    · intro y s alive named
      rw [r.live] at alive
      rw [r.names] at named
      rw [r.magic]
      by_cases here : y = x
      · rw [if_pos here] at named
        exact magic s named
      · rw [if_neg here] at named
        exact h.surfaces y s alive named
    · intro s y valid owned
      rw [r.magic] at valid
      rw [r.live]
      by_cases here : y = x
      · rw [here]
        exact live
      · exact h.contexts s y valid ((r.apart s y here).mp owned)
    · intro y
      rw [r.live, r.isCurrent, r.current]
      exact h.flagged y
    · intro y
      rw [r.live, r.current]
      exact h.current y
    · exact r.nullDraw.trans h.drawn

theorem claims_ctx (x : ContextId) (draw read : Option SurfaceId) (s : SurfaceId) :
    (((l.name x draw read).claim (some x) draw).claim (some x) read).ctx s =
      if Among draw read s then some x else l.ctx s := by
  change (if read = some s then some x else if draw = some s then some x else l.ctx s) = _
  by_cases drawn : draw = some s <;> by_cases seen : read = some s <;>
    simp only [Among, drawn, seen, if_true, if_false, true_or, or_true, or_self]

theorem coherent_attach (h : l.Coherent) (live : l.live x = true)
    (magic : ∀ s, Among draw read s → l.magic s = true)
    (free : ∀ s, Among draw read s → ∀ y, y ≠ x → l.ctx s ≠ some y) :
    (((l.name x draw read).claim (some x) draw).claim (some x) read).Coherent ↔
      ∀ s, l.Names x s → Among draw read s := by
  have ctx := @claims_ctx l x draw read
  have rebinds :
      Rebinds l (((l.name x draw read).claim (some x) draw).claim (some x) read) x draw read := by
    refine ⟨rfl, rfl, rfl, rfl, rfl, fun y s => names_name x y draw read s, fun s y other => ?_⟩
    rw [ctx]
    split_ifs with among
    · refine iff_of_false (fun same => other (Option.some_inj.mp same).symm) ?_
      exact free s among y other
    · exact Iff.rfl
  rw [coherent_rebinds h rebinds live magic]
  constructor
  · intro mine s named
    have valid := h.surfaces x s live named
    rw [← mine s valid, ctx]
    split_ifs
    · rfl
    · exact (h.bound s x valid live).mpr named
  · intro keeps s valid
    rw [ctx]
    split_ifs with among
    · exact iff_of_true rfl among
    · exact iff_of_false (fun own => among (keeps s ((h.bound s x valid live).mp own))) among

theorem coherent_name (h : l.Coherent) (live : l.live x = true)
    (magic : ∀ s, Among draw read s → l.magic s = true) :
    (l.name x draw read).Coherent ↔
      (∀ s, l.Names x s → Among draw read s) ∧ ∀ s, Among draw read s → l.ctx s = some x := by
  have rebinds : Rebinds l (l.name x draw read) x draw read :=
    ⟨rfl, rfl, rfl, rfl, rfl, fun y s => names_name x y draw read s, fun _ _ _ => Iff.rfl⟩
  rw [coherent_rebinds h rebinds live magic]
  constructor
  · intro mine
    refine ⟨fun s named => ?_, fun s among => (mine s (magic s among)).mpr among⟩
    have valid := h.surfaces x s live named
    exact (mine s valid).mp ((h.bound s x valid live).mpr named)
  · rintro ⟨keeps, owned⟩ s valid
    exact ⟨fun own => keeps s ((h.bound s x valid live).mp own), owned s⟩

theorem parted_ctx (l : Links) (x : ContextId) (s : SurfaceId) :
    ((l.partDraw x).partRead x).ctx s =
      if Among (l.draw x) (l.read x) s then none else l.ctx s := by
  change (if l.read x = some s then none else if l.draw x = some s then none else l.ctx s) = _
  by_cases drawn : l.draw x = some s <;> by_cases seen : l.read x = some s <;>
    simp only [Among, drawn, seen, if_true, if_false, true_or, or_true, or_self]

theorem coherent_part (h : l.Coherent) (live : l.live x = true) :
    ((l.partDraw x).partRead x).Coherent := by
  have ctx := parted_ctx l x
  have owned {s : SurfaceId} (valid : l.magic s = true) (among : Among (l.draw x) (l.read x) s) :
      l.ctx s = some x := (h.bound s x valid live).mpr among
  have valid {s : SurfaceId} (among : Among (l.draw x) (l.read x) s) : l.magic s = true :=
    h.surfaces x s live among
  have rebinds : Rebinds l ((l.partDraw x).partRead x) x none none := by
    refine ⟨rfl, rfl, rfl, rfl, rfl, fun y s => names_name x y none none s, fun s y other => ?_⟩
    rw [ctx]
    split_ifs with among
    · rw [owned (valid among) among]
      exact iff_of_false (fun same => by cases same) fun same =>
        other (Option.some_inj.mp same).symm
    · exact Iff.rfl
  have nothing (s : SurfaceId) : ¬Among none none s := by
    rintro (none | none) <;> cases none
  rw [coherent_rebinds h rebinds live fun s among => absurd among (nothing s)]
  intro s magic
  refine iff_of_false (fun own => ?_) (nothing s)
  rw [ctx] at own
  split_ifs at own with among
  exact among ((h.bound s x magic live).mp own)

theorem coherent_destroySurface (h : l.Coherent) (valid : l.magic s = true) :
    Coherent { l.claim none (some s) with magic := Function.update l.magic s false } ↔
      l.ctx s = none := by
  have magic (t : SurfaceId) : Function.update l.magic s false t = true ↔
      t ≠ s ∧ l.magic t = true := by
    by_cases here : t = s
    · rw [here, Function.update_self]
      exact iff_of_false Bool.false_ne_true fun h => h.1 rfl
    · rw [Function.update_of_ne here]
      exact (and_iff_right here).symm
  have ctx {t : SurfaceId} (other : t ≠ s) : (l.claim none (some s)).ctx t = l.ctx t :=
    if_neg fun same => other (Option.some_inj.mp same).symm
  constructor
  · intro h'
    by_contra bound
    obtain ⟨x, owner⟩ := Option.ne_none_iff_exists'.mp bound
    have live := h.contexts s x valid owner
    have named := (h.bound s x valid live).mp owner
    exact ((magic s).mp (h'.surfaces x s live named)).1 rfl
  · intro free
    constructor
    · intro t y stays alive
      obtain ⟨other, valid'⟩ := (magic t).mp stays
      change (l.claim none (some s)).ctx t = some y ↔ l.Names y t
      rw [ctx other]
      exact h.bound t y valid' alive
    · intro y t alive named
      have valid' := h.surfaces y t alive named
      refine (magic t).mpr ⟨fun here => ?_, valid'⟩
      rw [here] at named
      have owner := (h.bound s y valid alive).mpr named
      rw [free] at owner
      cases owner
    · intro t y stays owner
      obtain ⟨other, valid'⟩ := (magic t).mp stays
      change (l.claim none (some s)).ctx t = some y at owner
      rw [ctx other] at owner
      exact h.contexts t y valid' owner
    · exact h.flagged
    · exact h.current
    · exact h.drawn

theorem coherent_destroyContext (h : l.Coherent) (live : l.live x = true) :
    Coherent { l with
      live := Function.update l.live x false
      current := if l.isCurrent x = true then none else l.current } ↔
      ∀ s, ¬l.Names x s := by
  have lives (y : ContextId) : Function.update l.live x false y = true ↔
      y ≠ x ∧ l.live y = true := by
    by_cases here : y = x
    · rw [here, Function.update_self]
      exact iff_of_false Bool.false_ne_true fun h => h.1 rfl
    · rw [Function.update_of_ne here]
      exact (and_iff_right here).symm
  constructor
  · intro h' s named
    have valid := h.surfaces x s live named
    have owner := (h.bound s x valid live).mpr named
    exact ((lives x).mp (h'.contexts s x valid owner)).1 rfl
  · intro unnamed
    constructor
    · intro s y valid alive
      exact h.bound s y valid ((lives y).mp alive).2
    · intro y s alive named
      exact h.surfaces y s ((lives y).mp alive).2 named
    · intro s y valid owner
      have alive := h.contexts s y valid owner
      refine (lives y).mpr ⟨fun here => ?_, alive⟩
      rw [here] at owner
      exact unnamed s ((h.bound s x valid live).mp owner)
    · intro y alive
      obtain ⟨other, alive'⟩ := (lives y).mp alive
      dsimp only
      rw [h.flagged y alive']
      split_ifs with flag
      · rw [(h.flagged x live).mp flag]
        exact iff_of_false (fun same => other (Option.some_inj.mp same).symm) fun same => by
          cases same
      · exact Iff.rfl
    · intro y entered
      dsimp only at entered
      split_ifs at entered with flag
      refine (lives y).mpr ⟨fun here => ?_, h.current y entered⟩
      rw [here] at entered
      exact flag ((h.flagged x live).mpr entered)
    · exact h.drawn

theorem coherent_createContext (h : l.Coherent) (free : l.live x = false) :
    Coherent { l.name x none none with
      live := Function.update l.live x true
      isCurrent := Function.update l.isCurrent x false } := by
  have lives {y : ContextId} (other : y ≠ x) : Function.update l.live x true y = l.live y :=
    Function.update_of_ne other _ _
  have apart {y : ContextId} (alive : l.live y = true) : y ≠ x := by
    intro here
    rw [here, free] at alive
    cases alive
  have nothing (s : SurfaceId) : ¬(l.name x none none).Names x s := by
    rw [names_name, if_pos rfl]
    rintro (none | none) <;> cases none
  have names {y : ContextId} (other : y ≠ x) (s : SurfaceId) :
      (l.name x none none).Names y s ↔ l.Names y s := by
    rw [names_name, if_neg other]
  constructor
  · intro s y valid alive
    by_cases here : y = x
    · rw [here]
      refine iff_of_false (fun owner => ?_) (nothing s)
      exact apart (h.contexts s x valid owner) rfl
    · refine Iff.trans ?_ (names here s).symm
      exact h.bound s y valid ((lives here).symm.trans alive)
  · intro y s alive named
    by_cases here : y = x
    · rw [here] at named
      exact absurd named (nothing s)
    · exact h.surfaces y s ((lives here).symm.trans alive) ((names here s).mp named)
  · intro s y valid owner
    have alive := h.contexts s y valid owner
    exact (lives (apart alive)).trans alive
  · intro y alive
    change Function.update l.isCurrent x false y = true ↔ l.current = some y
    by_cases here : y = x
    · rw [here, Function.update_self]
      exact iff_of_false Bool.false_ne_true fun entered => apart (h.current x entered) rfl
    · rw [Function.update_of_ne here]
      exact h.flagged y ((lives here).symm.trans alive)
  · intro y entered
    have alive := h.current y entered
    exact (lives (apart alive)).trans alive
  · exact h.drawn

theorem coherent_place (h : l.Coherent) (free : l.magic s = false) :
    Coherent { l.claim none (some s) with magic := Function.update l.magic s true } := by
  have magic {t : SurfaceId} (other : t ≠ s) : Function.update l.magic s true t = l.magic t :=
    Function.update_of_ne other _ _
  have ctx {t : SurfaceId} (other : t ≠ s) : (l.claim none (some s)).ctx t = l.ctx t :=
    if_neg fun same => other (Option.some_inj.mp same).symm
  have unbound : (l.claim none (some s)).ctx s = none := if_pos rfl
  have apart {y : ContextId} {t : SurfaceId} (alive : l.live y = true) (named : l.Names y t) :
      t ≠ s := by
    intro here
    have valid := h.surfaces y t alive named
    rw [here, free] at valid
    cases valid
  constructor
  · intro t y valid alive
    change (l.claim none (some s)).ctx t = some y ↔ l.Names y t
    by_cases here : t = s
    · rw [here, unbound]
      exact iff_of_false (fun same => by cases same) fun named => apart alive named rfl
    · rw [ctx here]
      exact h.bound t y ((magic here).symm.trans valid) alive
  · intro y t alive named
    exact (magic (apart alive named)).trans (h.surfaces y t alive named)
  · intro t y valid owner
    change (l.claim none (some s)).ctx t = some y at owner
    by_cases here : t = s
    · rw [here, unbound] at owner
      cases owner
    · rw [ctx here] at owner
      exact h.contexts t y ((magic here).symm.trans valid) owner
  · exact h.flagged
  · exact h.current
  · exact h.drawn

variable {F : Type}

def Legal (m : Thread F) : Op F → Prop
  | .makeCurrent _ _ _ (some x) _ => (m.contexts x).live = true
  | .destroyContext _ x => (m.contexts x).live = true
  | _ => True

/-- The condition on a call. A context that is made current gets all the surfaces it had, and the
draw surface can be connected (or the surfaces are bound to the context already); a surface that is
bound is swapped only with a buffer and with another to come; what is bound is not destroyed. -/
def Safe (m : Thread F) : Op F → Prop
  | .makeCurrent dpy draw read (some x) o =>
    refusal m dpy draw read (some x) = none →
      (∀ s, Among (m.contexts x).draw (m.contexts x).read s → Among draw read s) ∧
        (Connects m draw o ∨ ∀ s, Among draw read s → (m.surfaces s).ctx = some x)
  | .swapBuffers dpy d o =>
    surfaceRefusal m dpy d = none → (m.surfaces d).ctx ≠ none → Swappable (m.surfaces d) o
  | .destroySurface dpy (some s) => surfaceRefusal m dpy s = none → (m.surfaces s).ctx = none
  | .destroyContext dpy x =>
    validDisplay dpy = true → (m.contexts x).draw = none ∧ (m.contexts x).read = none
  | _ => True

theorem surface_exists {m : Thread F} (h : surfaceError m dpy (some s) = none) :
    (m.surfaces s).magic = true := by
  unfold surfaceError at h
  dsimp only at h
  split_ifs at h with gone
  exact Bool.eq_true_of_not_eq_false gone

theorem surfaceRefusal_exists {m : Thread F} (h : surfaceRefusal m dpy s = none) :
    (m.surfaces s).magic = true := by
  unfold surfaceRefusal at h
  split_ifs at h
  exact surface_exists h

theorem accepted_surfaces {m : Thread F} (accepted : refusal m dpy draw read (some x) = none)
    (among : Among draw read s) :
    (m.surfaces s).magic = true ∧ ∀ y, y ≠ x → (m.surfaces s).ctx ≠ some y := by
  unfold refusal at accepted
  split_ifs at accepted
  all_goals
    rw [Option.or_eq_none_iff, Option.or_eq_none_iff] at accepted
    obtain ⟨draws, reads, rest⟩ := accepted
    try cases rest
  rw [Option.bind_some, ite_eq_right_iff] at rest
  have here : (boundElsewhere m x draw || boundElsewhere m x read) = false := by
    by_contra elsewhere
    cases rest (Bool.eq_true_of_not_eq_false elsewhere)
  rw [Bool.or_eq_false_iff] at here
  have free (bound : boundElsewhere m x (some s) = false) (y : ContextId) (other : y ≠ x) :
      (m.surfaces s).ctx ≠ some y := by
    intro owner
    simp only [boundElsewhere, owner, Option.isSome_some, Bool.true_and, decide_eq_false_iff_not,
      not_not, Option.some.injEq] at bound
    exact other bound
  rcases among with rfl | rfl
  · exact ⟨surface_exists draws, free here.1⟩
  · exact ⟨surface_exists reads, free here.2⟩

theorem step_swapBuffers {m : Thread F} (dpy : Display) (d : SurfaceId) (o : Outcome)
    (h : (links m).Coherent) :
    (links (eglSwapBuffers m dpy d o)).Coherent ↔ Safe m (.swapBuffers dpy d o) := by
  unfold eglSwapBuffers Safe
  dsimp only
  cases surfaceRefusal m dpy d with
  | some error => exact iff_of_true h fun none => by cases none
  | none =>
    dsimp only
    rw [links_post, ← swap_pixels]
    have unset : m.nullDraw = false := h.drawn
    constructor
    · intro h' _ bound
      have drawn := h'.drawn
      dsimp only at drawn
      rw [unset, Option.isSome_iff_ne_none.mpr bound] at drawn
      simpa using drawn
    · intro swappable
      refine ⟨h.bound, h.surfaces, h.contexts, h.flagged, h.current, ?_⟩
      dsimp only
      rw [unset]
      cases bound : (m.surfaces d).ctx with
      | none => rfl
      | some x =>
        rw [swappable rfl (by rw [bound]; exact Option.some_ne_none x)]
        rfl

theorem coherent_placed {m : Thread F} (h : (links m).Coherent) {surface : EglSurface}
    (magic : surface.magic = true) (ctx : surface.ctx = none) :
    (links (place m s surface)).Coherent := by
  unfold place
  split_ifs with taken
  · exact h
  · rw [links_placed magic ctx]
    exact coherent_place h (Bool.eq_false_of_not_eq_true taken)

section Run

variable [GLfloat F]

theorem step_makeCurrent {m : Thread F} {dpy : Display} {draw read : Option SurfaceId}
    {x : ContextId} {o : Outcome} (live : (m.contexts x).live = true) (h : (links m).Coherent) :
    (links (eglMakeCurrent m dpy draw read (some x) o).1).Coherent ↔
      Safe m (.makeCurrent dpy draw read (some x) o) := by
  unfold Safe
  dsimp only
  cases accepted : refusal m dpy draw read (some x) with
  | some error =>
    have refused : (eglMakeCurrent m dpy draw read (some x) o).1 = m.setError error := by
      unfold eglMakeCurrent
      rw [accepted]
    rw [refused]
    exact iff_of_true h fun none => by cases none
  | none =>
    have single : (m.contexts x).isCurrent = true → m.current = some x := (h.flagged x live).mp
    obtain ⟨connects, fails⟩ := links_eglMakeCurrent (o := o) accepted single
    have entered := coherent_enter h live
    obtain ⟨lives, draws, reads, magics, ctxs, -⟩ := @leave_others (links m)
    have live' : ((links m).enter x).live x = true := (congrFun lives x).trans live
    have magic (s : SurfaceId) (among : Among draw read s) :
        ((links m).enter x).magic s = true :=
      (congrFun magics s).trans (accepted_surfaces accepted among).1
    have ctx (s : SurfaceId) : ((links m).enter x).ctx s = (m.surfaces s).ctx := congrFun ctxs s
    have names (s : SurfaceId) : ((links m).enter x).Names x s ↔
        Among (m.contexts x).draw (m.contexts x).read s := by
      change (links m).leave.draw x = some s ∨ (links m).leave.read x = some s ↔ _
      rw [draws, reads]
      exact Iff.rfl
    have keeps : (∀ s, ((links m).enter x).Names x s → Among draw read s) ↔
        ∀ s, Among (m.contexts x).draw (m.contexts x).read s → Among draw read s :=
      forall_congr' fun s => imp_congr_left (names s)
    by_cases can : Connects m draw o
    · rw [connects can, coherent_attach entered live' magic fun s among y other => by
        rw [ctx]
        exact (accepted_surfaces accepted among).2 y other, keeps]
      exact ⟨fun kept _ => ⟨kept, .inl can⟩, fun safe => (safe rfl).1⟩
    · have owned : (∀ s, Among draw read s → ((links m).enter x).ctx s = some x) ↔
          ∀ s, Among draw read s → (m.surfaces s).ctx = some x :=
        forall₂_congr fun s _ => by rw [ctx]
      rw [fails can, coherent_name entered live' magic, keeps, owned]
      exact ⟨fun kept _ => ⟨kept.1, .inr kept.2⟩,
        fun safe => ⟨(safe rfl).1, (safe rfl).2.resolve_left can⟩⟩

theorem step_detach {m : Thread F} (dpy : Display) (draw read : Option SurfaceId) (o : Outcome)
    (h : (links m).Coherent) : (links (eglMakeCurrent m dpy draw read none o).1).Coherent := by
  unfold eglMakeCurrent
  cases refusal m dpy draw read none with
  | some error => exact h
  | none =>
    cases left : makeCurrent m none with
    | none => exact h
    | some made =>
      have coherent : (links made).Coherent := by
        rw [links_makeCurrent_none left]
        exact coherent_leave h
      dsimp only
      cases current : m.current with
      | none => exact coherent
      | some x =>
        have live : (links made).live x = true := by
          rw [links_makeCurrent_none left]
          exact (congrFun leave_others.1 x).trans (h.current x current)
        change (links (detachRead (detachDraw made x) x)).Coherent
        rw [links_detachRead, links_detachDraw]
        exact coherent_part coherent live

theorem step_coherent {m : Thread F} (op : Op F) (legal : Legal m op) (h : (links m).Coherent) :
    (links (step m op)).Coherent ↔ Safe m op := by
  cases op with
  | createContext dpy x made =>
    refine iff_of_true ?_ trivial
    unfold step eglCreateContext
    dsimp only
    split_ifs with refused taken
    · exact h
    · exact h
    · cases made with
      | none => exact h
      | some inverse =>
        dsimp only
        rw [links_created rfl rfl rfl rfl]
        exact coherent_createContext h (Bool.eq_false_of_not_eq_true taken)
  | createWindow dpy config s width height =>
    refine iff_of_true ?_ trivial
    unfold step createWindowSurface
    dsimp only
    split_ifs
    · exact h
    · split
      · exact h
      · exact coherent_placed h rfl rfl
  | createPixmap dpy config s pixmap depthData =>
    refine iff_of_true ?_ trivial
    unfold step newPixmapSurface
    dsimp only
    split_ifs
    · exact h
    · split
      · exact h
      · split_ifs
        · exact h
        · exact coherent_placed h rfl rfl
  | createPbuffer dpy config s width height data depthData =>
    refine iff_of_true ?_ trivial
    unfold step newPbufferSurface
    dsimp only
    have recorded (p : Prop) [Decidable p] :
        (links (if p then m.setError EGL.badAlloc else m)).Coherent := by
      split_ifs <;> exact h
    cases formatsFor config EGL.pbufferBit with
    | none => split_ifs <;> exact h
    | some formats =>
      dsimp only
      by_cases invalid : validDisplay dpy = false
      · rw [if_pos invalid]
        exact h
      · rw [if_neg invalid]
        by_cases none : data = 0
        · rw [if_pos none]
          exact recorded _
        · rw [if_neg none]
          exact coherent_placed (recorded _) rfl rfl
  | makeCurrent dpy draw read ctx o =>
    cases ctx with
    | none => exact iff_of_true (step_detach dpy draw read o h) trivial
    | some x => exact step_makeCurrent legal h
  | swapBuffers dpy d o => exact step_swapBuffers dpy d o h
  | destroySurface dpy s =>
    cases s with
    | none =>
      refine iff_of_true ?_ trivial
      unfold step eglDestroySurface
      dsimp only
      split_ifs <;> exact h
    | some s =>
      unfold step eglDestroySurface Safe
      dsimp only
      cases accepted : surfaceRefusal m dpy s with
      | some error => exact iff_of_true h fun none => by cases none
      | none =>
        dsimp only
        rw [links_destroySurface, coherent_destroySurface h (surfaceRefusal_exists accepted)]
        exact ⟨fun free _ => free, fun safe => safe rfl⟩
  | destroyContext dpy x =>
    unfold step eglDestroyContext Safe
    dsimp only
    cases validDisplay dpy with
    | false => exact iff_of_true h fun valid => by cases valid
    | true =>
      rw [if_neg (by decide), links_destroyContext, coherent_destroyContext h legal]
      constructor
      · intro unnamed _
        refine ⟨Option.eq_none_iff_forall_ne_some.mpr fun s drawn => unnamed s (.inl drawn),
          Option.eq_none_iff_forall_ne_some.mpr fun s seen => unnamed s (.inr seen)⟩
      · rintro safe s (drawn | seen)
        · cases (safe rfl).1.symm.trans drawn
        · cases (safe rfl).2.symm.trans seen

theorem init_coherent : (links (init : Thread F)).Coherent := by
  constructor
  · intro s x gone
    cases gone
  · intro x s gone
    cases gone
  · intro s x gone
    cases gone
  · intro x gone
    cases gone
  · intro x none
    cases none
  · rfl

/-- The links agree in every state of a run exactly when every call meets the condition. -/
theorem bindings_coherent (ops : List (Op F)) (legal : Guarded step Legal init ops) :
    (∀ pre, pre <+: ops → (links (run step init pre)).Coherent) ↔ Guarded step Safe init ops :=
  @guarded_iff_of_guarded _ _ step Safe (fun m => (links m).Coherent) Legal ops
    (fun _ op legal h => step_coherent op legal h) init init_coherent legal

end Run

private def firstBound : List (Op ℚ) :=
  [.createContext 1 0 (some id), .createPbuffer 1 0 0 4 4 1 0, .createPbuffer 1 0 1 4 4 2 0,
    .makeCurrent 1 (some 0) (some 0) (some 0) ⟨none, 0, true⟩]

theorem bindings_coherent_pbuffer : (links (run step init firstBound)).Coherent := by
  have live : ((run step init (firstBound.take 3)).contexts 0).live = true := by decide +kernel
  have drawn : ((run step init (firstBound.take 3)).contexts 0).draw = none := by decide +kernel
  have seen : ((run step init (firstBound.take 3)).contexts 0).read = none := by decide +kernel
  have memory : ((run step init (firstBound.take 3)).surfaces 0).native =
      .memory ⟨4, 4, 4, 1, Pixelflinger.Format.rgb565⟩ := by decide +kernel
  refine (bindings_coherent firstBound ⟨trivial, trivial, trivial, live, trivial⟩).mpr
    ⟨trivial, trivial, trivial, fun _ => ⟨?_, .inl ?_⟩, trivial⟩ firstBound (List.prefix_refl _)
  · rintro s (named | named)
    · cases drawn.symm.trans named
    · cases seen.symm.trans named
  · rintro d ⟨⟩ w window
    cases memory.symm.trans window

/-- The second pbuffer is bound in the place of the first, and that one keeps its context. -/
theorem rebound_surface_keeps_context :
    ¬(links (run step init
      (firstBound ++ [.makeCurrent 1 (some 1) (some 1) (some 0) ⟨none, 0, true⟩]))).Coherent := by
  intro coherent
  have bound := coherent.bound 0 0 (by decide +kernel) (by decide +kernel)
  have named := bound.mp (by decide +kernel)
  revert named
  decide +kernel

end RabbitRender.Egl.BindingCoherence
