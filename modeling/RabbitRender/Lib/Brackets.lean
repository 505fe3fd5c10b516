/- RabbitRender/Lib/Brackets
   layer: library
   digest: Runs over a stack, their pushes and pops matched: what a balanced stretch leaves below it. -/

import RabbitRender.Lib.GuardedRun

set_option autoImplicit false

namespace RabbitRender.Lib.Brackets

open Lib.GuardedRun

universe u v w

variable {S : Type u} {Op : Type v} {α : Type w}

/-- What an operation does to the stack: `keep` may change its top, `refused` is a push or a pop
that was not made. -/
inductive Kind where
  | push
  | pop
  | refused
  | keep
deriving DecidableEq, Repr

def Moves : Kind → List α → List α → Prop
  | .push, before, after => ∃ a, after = a :: before
  | .pop, before, after => ∃ a, before = a :: after
  | .refused, before, after => after = before
  | .keep, before, after => ∃ a b below, before = a :: below ∧ after = b :: below

/-- How many pushes are open after the operations when `n` are before them; none when a pop has
no push to match or an operation is refused. -/
def nesting (step : S → Op → S) (kind : S → Op → Kind) : S → Nat → List Op → Option Nat
  | _, n, [] => some n
  | s, n, o :: ops =>
    match kind s o, n with
    | .push, n => nesting step kind (step s o) (n + 1) ops
    | .pop, n + 1 => nesting step kind (step s o) n ops
    | .pop, 0 => none
    | .refused, _ => none
    | .keep, n => nesting step kind (step s o) n ops

variable {step : S → Op → S} {kind : S → Op → Kind} {content : S → List α}

theorem Moves.length {before after : List α} {k : Kind} (h : Moves k before after) :
    after.length ≤ before.length ∨ k = .push ∧ after.length = before.length + 1 := by
  cases k with
  | push =>
    obtain ⟨a, rfl⟩ := h
    exact Or.inr ⟨rfl, rfl⟩
  | pop =>
    obtain ⟨a, rfl⟩ := h
    exact Or.inl (Nat.le_succ _)
  | refused => exact Or.inl (Nat.le_of_eq (congrArg List.length h))
  | keep =>
    obtain ⟨a, b, below, rfl, rfl⟩ := h
    exact Or.inl (Nat.le_refl _)

theorem Moves.above {before after rest opened : List α} {k : Kind} (h : Moves k before after)
    (parts : before = opened ++ rest) (nonempty : opened ≠ []) :
    ∃ opened', after = opened' ++ rest ∧
      (k = .push → opened'.length = opened.length + 1) ∧
      (k = .pop → opened'.length + 1 = opened.length) ∧
      (k = .refused ∨ k = .keep → opened'.length = opened.length) := by
  cases k with
  | push =>
    obtain ⟨a, rfl⟩ := h
    exact ⟨a :: opened, by simp [parts], by simp, by simp, by simp⟩
  | pop =>
    obtain ⟨a, rfl⟩ := h
    cases opened with
    | nil => exact absurd rfl nonempty
    | cons b opened =>
      obtain ⟨rfl, rfl⟩ := List.cons.inj parts
      exact ⟨opened, rfl, by simp, by simp, by simp⟩
  | refused =>
    obtain rfl : after = before := h
    exact ⟨opened, parts, by simp, by simp, by simp⟩
  | keep =>
    obtain ⟨a, b, below, rfl, rfl⟩ := h
    cases opened with
    | nil => exact absurd rfl nonempty
    | cons c opened =>
      obtain ⟨rfl, rfl⟩ := List.cons.inj parts
      exact ⟨b :: opened, rfl, by simp, by simp, by simp⟩

/-- A matched stretch that starts with `n` open pushes above `rest` and its own top entry, and
ends with `m`, leaves `rest` below `m` and the top entry. -/
theorem content_of_nesting (moves : ∀ s o, Moves (kind s o) (content s) (content (step s o)))
    {ops : List Op} {s : S} {n m : Nat} {opened rest : List α}
    (h : nesting step kind s n ops = some m) (parts : content s = opened ++ rest)
    (open_length : opened.length = n + 1) :
    ∃ opened', content (run step s ops) = opened' ++ rest ∧ opened'.length = m + 1 := by
  induction ops generalizing s n opened with
  | nil =>
    obtain rfl : n = m := Option.some_inj.mp h
    exact ⟨opened, parts, open_length⟩
  | cons o ops ih =>
    have nonempty : opened ≠ [] := by
      rintro rfl
      simp at open_length
    obtain ⟨opened', parts', pushed, popped, kept⟩ :=
      (moves s o).above parts nonempty
    rw [run_cons]
    cases isKind : kind s o with
    | push =>
      simp only [nesting, isKind] at h
      apply ih h parts'
      rw [pushed isKind, open_length]
    | pop =>
      cases n with
      | zero => simp [nesting, isKind] at h
      | succ n =>
        simp only [nesting, isKind] at h
        apply ih h parts'
        have := popped isKind
        omega
    | refused => simp [nesting, isKind] at h
    | keep =>
      simp only [nesting, isKind] at h
      apply ih h parts'
      rw [kept (Or.inr isKind), open_length]

theorem content_in_bracket (moves : ∀ s o, Moves (kind s o) (content s) (content (step s o)))
    {mid : List Op} {s : S} {o : Op} (isPush : kind s o = .push)
    (balanced : nesting step kind (step s o) 0 mid = some 0) :
    ∃ a, content (run step (step s o) mid) = a :: content s := by
  obtain ⟨a, pushed⟩ : ∃ a, content (step s o) = a :: content s := by
    simpa [isPush, Moves] using moves s o
  obtain ⟨opened, inside, length⟩ :=
    content_of_nesting moves balanced (pushed.trans (List.singleton_append).symm) rfl
  obtain ⟨b, rfl⟩ : ∃ b, opened = [b] := List.length_eq_one_iff.mp length
  exact ⟨b, inside⟩

theorem content_of_bracket (moves : ∀ s o, Moves (kind s o) (content s) (content (step s o)))
    {mid : List Op} {s : S} {o close : Op} (isPush : kind s o = .push)
    (balanced : nesting step kind (step s o) 0 mid = some 0)
    (isPop : kind (run step (step s o) mid) close = .pop) :
    content (step (run step (step s o) mid) close) = content s := by
  obtain ⟨a, inside⟩ := content_in_bracket moves isPush balanced
  obtain ⟨b, popped⟩ : ∃ b, content (run step (step s o) mid) =
      b :: content (step (run step (step s o) mid) close) := by
    simpa [isPop, Moves] using moves (run step (step s o) mid) close
  rw [inside] at popped
  exact (List.cons.inj popped).2.symm

end RabbitRender.Lib.Brackets
