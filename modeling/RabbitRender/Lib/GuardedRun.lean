/- RabbitRender/Lib/GuardedRun
   layer: library
   digest: Runs of a step function whose every step meets a guard, and what such runs keep. -/

import Mathlib.Data.List.Infix

set_option autoImplicit false

namespace RabbitRender.Lib.GuardedRun

universe u v

variable {S : Type u} {Op : Type v}

/-- The state after executing `ops` from `s`. -/
def run (step : S → Op → S) (s : S) (ops : List Op) : S := ops.foldl step s

/-- Every operation of the run meets the guard in the state it is executed in. -/
def Guarded (step : S → Op → S) (ok : S → Op → Prop) : S → List Op → Prop
  | _, [] => True
  | s, o :: ops => ok s o ∧ Guarded step ok (step s o) ops

variable {step : S → Op → S} {ok : S → Op → Prop}

@[simp] theorem run_nil (s : S) : run step s [] = s := rfl

@[simp] theorem run_cons (s : S) (o : Op) (ops : List Op) :
    run step s (o :: ops) = run step (step s o) ops := rfl

theorem run_append (s : S) (ops more : List Op) :
    run step s (ops ++ more) = run step (run step s ops) more :=
  List.foldl_append

@[simp] theorem guarded_nil (s : S) : Guarded step ok s [] := trivial

instance decidableGuarded [∀ s o, Decidable (ok s o)] :
    ∀ s ops, Decidable (Guarded step ok s ops)
  | _, [] => .isTrue trivial
  | s, o :: ops =>
    have := decidableGuarded (step s o) ops
    inferInstanceAs (Decidable (_ ∧ _))

theorem guarded_append {s : S} {ops more : List Op} :
    Guarded step ok s (ops ++ more) ↔
      Guarded step ok s ops ∧ Guarded step ok (run step s ops) more := by
  induction ops generalizing s with
  | nil => simp
  | cons o ops ih => simp only [List.cons_append, Guarded, run_cons, ih, and_assoc]

theorem Guarded.of_prefix {s : S} {pre ops : List Op} (h : Guarded step ok s ops)
    (hpre : pre <+: ops) : Guarded step ok s pre := by
  obtain ⟨more, rfl⟩ := hpre
  exact (guarded_append.mp h).1

theorem Guarded.next {s : S} {pre ops : List Op} {o : Op} (h : Guarded step ok s ops)
    (hpre : pre ++ [o] <+: ops) : ok (run step s pre) o := by
  have hlast := (guarded_append.mp (h.of_prefix hpre)).2
  exact hlast.1

theorem run_invariant {Inv : S → Prop}
    (hstep : ∀ s o, Inv s → ok s o → Inv (step s o))
    {s : S} {ops : List Op} (hs : Inv s) (h : Guarded step ok s ops) : Inv (run step s ops) := by
  induction ops generalizing s with
  | nil => exact hs
  | cons o ops ih => exact ih (hstep s o hs h.1) h.2

/-- A step that keeps the invariant does what `step'` does to the view of the state. -/
theorem run_view {T : Type*} {Inv : S → Prop} (view : S → T) {step' : T → Op → T}
    (hstep : ∀ s o, Inv s → ok s o → Inv (step s o) ∧ view (step s o) = step' (view s) o) {s : S}
    {ops : List Op} (hs : Inv s) (h : Guarded step ok s ops) :
    view (run step s ops) = run step' (view s) ops := by
  induction ops generalizing s with
  | nil => rfl
  | cons o ops ih =>
    obtain ⟨kept, same⟩ := hstep s o hs h.1
    rw [run_cons, run_cons, ← same]
    exact ih kept h.2

theorem run_invariant_prefix {Inv : S → Prop}
    (hstep : ∀ s o, Inv s → ok s o → Inv (step s o))
    {s : S} {pre ops : List Op} (hs : Inv s) (h : Guarded step ok s ops) (hpre : pre <+: ops) :
    Inv (run step s pre) :=
  run_invariant hstep hs (h.of_prefix hpre)

theorem run_keeps (Inv : S → Prop) (hstep : ∀ s o, Inv s → Inv (step s o)) {s : S} (ops : List Op)
    (hs : Inv s) : Inv (run step s ops) := by
  induction ops generalizing s with
  | nil => exact hs
  | cons o ops ih => exact ih (hstep s o hs)

theorem guarded_congr {Inv : S → Prop} {ok' : S → Op → Prop}
    (hstep : ∀ s o, Inv s → Inv (step s o)) (same : ∀ s o, Inv s → (ok s o ↔ ok' s o)) {s : S}
    {ops : List Op} (hs : Inv s) : Guarded step ok s ops ↔ Guarded step ok' s ops := by
  induction ops generalizing s with
  | nil => exact Iff.rfl
  | cons o ops ih => exact and_congr (same s o hs) (ih (hstep s o hs))

theorem guarded_of_forall {s : S} {ops : List Op} (h : ∀ s, ∀ o ∈ ops, ok s o) :
    Guarded step ok s ops := by
  induction ops generalizing s with
  | nil => trivial
  | cons o ops ih =>
    exact ⟨h s o List.mem_cons_self, ih fun s o ho => h s o (List.mem_cons_of_mem _ ho)⟩

theorem guarded_and {ok' : S → Op → Prop} {s : S} {ops : List Op} :
    Guarded step (fun s o => ok s o ∧ ok' s o) s ops ↔
      Guarded step ok s ops ∧ Guarded step ok' s ops := by
  induction ops generalizing s with
  | nil => exact (and_self_iff).symm
  | cons o ops ih =>
    simp only [Guarded, ih]
    exact and_and_and_comm

/-- In a run whose operations are legal, where a legal step keeps the invariant exactly when it
meets the guard: the run is guarded when it keeps the invariant throughout. -/
theorem guarded_iff_of_guarded {Inv : S → Prop} {legal : S → Op → Prop} {ops : List Op}
    (hstep : ∀ s o, legal s o → Inv s → (Inv (step s o) ↔ ok s o)) {s : S} (hs : Inv s)
    (hlegal : Guarded step legal s ops) :
    (∀ pre, pre <+: ops → Inv (run step s pre)) ↔ Guarded step ok s ops := by
  induction ops generalizing s with
  | nil =>
    refine ⟨fun _ => trivial, fun _ pre hpre => ?_⟩
    rw [List.prefix_nil.mp hpre]
    exact hs
  | cons o ops ih =>
    have first := hstep s o hlegal.1 hs
    have later (kept : Inv (step s o)) := ih kept hlegal.2
    constructor
    · intro h
      have kept : Inv (step s o) := h [o] ⟨ops, rfl⟩
      refine ⟨first.mp kept, (later kept).mp fun pre hpre => ?_⟩
      exact h (o :: pre) (List.cons_prefix_cons.mpr ⟨rfl, hpre⟩)
    · rintro ⟨meets, rest⟩ pre hpre
      have kept := first.mpr meets
      cases pre with
      | nil => exact hs
      | cons p pre =>
        obtain ⟨rfl, tail⟩ := List.cons_prefix_cons.mp hpre
        exact (later kept).mpr rest pre tail

/-- Where the steps of the run keep the invariant exactly when they meet the guard, it is guarded
when it keeps the invariant throughout. -/
theorem guarded_iff_of_forall {Inv : S → Prop} {ops : List Op}
    (hstep : ∀ s, ∀ o ∈ ops, Inv s → (Inv (step s o) ↔ ok s o)) {s : S} (hs : Inv s) :
    (∀ pre, pre <+: ops → Inv (run step s pre)) ↔ Guarded step ok s ops :=
  guarded_iff_of_guarded hstep hs (guarded_of_forall fun _ _ ho => ho)

/-- Where a step keeps the invariant exactly when it meets the guard, the guarded runs are those
that keep it throughout. -/
theorem guarded_iff {Inv : S → Prop} (hstep : ∀ s o, Inv s → (Inv (step s o) ↔ ok s o))
    {s : S} {ops : List Op} (hs : Inv s) :
    (∀ pre, pre <+: ops → Inv (run step s pre)) ↔ Guarded step ok s ops :=
  guarded_iff_of_forall (fun s o _ => hstep s o) hs

end RabbitRender.Lib.GuardedRun
