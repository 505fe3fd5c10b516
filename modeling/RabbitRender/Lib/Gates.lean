/- RabbitRender/Lib/Gates
   layer: library
   digest: States along a list, and counters that only count once something has started them. -/

import Mathlib.Data.List.Basic

set_option autoImplicit false

namespace RabbitRender.Lib.Gates

universe u v

variable {α : Type u} {β : Type v}

/-- The state before position `q` of a list whose first element has the index `i`. -/
def before (f : Nat → α → β → β) : Nat → β → List α → Nat → β
  | _, b, _, 0 => b
  | _, b, [], _ + 1 => b
  | i, b, x :: rest, q + 1 => before f (i + 1) (f i x b) rest q

@[simp] theorem before_zero (f : Nat → α → β → β) (i : Nat) (b : β) (xs : List α) :
    before f i b xs 0 = b := by
  cases xs <;> rfl

theorem before_succ {f : Nat → α → β → β} {xs : List α} {x : α} : ∀ {i : Nat} {b : β} {q : Nat},
    xs[q]? = some x → before f i b xs (q + 1) = f (i + q) x (before f i b xs q) := by
  induction xs with
  | nil => simp
  | cons y rest ih =>
    intro i b q found
    cases q with
    | zero =>
      simp only [List.getElem?_cons_zero, Option.some_inj] at found
      subst found
      simp [before]
    | succ q =>
      rw [List.getElem?_cons_succ] at found
      have next := @ih (i + 1) (f i y b) q found
      rw [Nat.succ_add_eq_add_succ] at next
      exact next

theorem before_induct {f : Nat → α → β → β} {b : β} {xs : List α} {P : Nat → β → Prop}
    (base : P 0 b) (keeps : ∀ q x, xs[q]? = some x → P q (before f 0 b xs q) →
      P (q + 1) (f q x (before f 0 b xs q))) :
    ∀ q, q ≤ xs.length → P q (before f 0 b xs q) := by
  intro q
  induction q with
  | zero => exact fun _ => by simpa using base
  | succ q ih =>
    intro inside
    obtain ⟨x, found⟩ : ∃ x, xs[q]? = some x := ⟨xs[q], List.getElem?_eq_getElem inside⟩
    rw [before_succ found, Nat.zero_add]
    exact keeps q x found (ih (by omega))

section

variable (starts : α → Bool) (weight : α → Int)

def raised (d : Int) (x : α) : Int := if starts x then d + 1 else d

def gate (x : α) (d : Int) : Int :=
  if 0 < raised starts d x then raised starts d x + weight x else raised starts d x

def depth (xs : List α) (q : Nat) : Int := before (fun _ => gate starts weight) 0 0 xs q

def Open (xs : List α) (q : Nat) : Prop :=
  ∃ x, xs[q]? = some x ∧ 0 < raised starts (depth starts weight xs q) x

def gain (x : α) : Int := (if starts x then 1 else 0) + weight x

/-- What the `n` elements from a position on add. -/
def balance (xs : List α) (i : Nat) : Nat → Int
  | 0 => 0
  | n + 1 => balance xs i n + (xs[i + n]?).elim 0 (gain starts weight)

/-- The counter has been started at `i`, and what comes in between has kept it positive. -/
def Outlives (xs : List α) (i q : Nat) : Prop :=
  i ≤ q ∧ (∃ x, xs[i]? = some x ∧ starts x = true) ∧
    ∀ n, 0 < n → i + n ≤ q → 0 < balance starts weight xs i n

end

variable {starts : α → Bool} {weight : α → Int} {xs : List α}

variable {q : Nat} {d : Int}

theorem depth_succ (starts : α → Bool) (weight : α → Int) {x : α} (found : xs[q]? = some x) :
    depth starts weight xs (q + 1) = gate starts weight x (depth starts weight xs q) := by
  rw [depth, before_succ found]
  rfl

theorem gate_open {x : α} (open_ : 0 < raised starts d x) :
    gate starts weight x d = raised starts d x + weight x := if_pos open_

theorem gate_shut {x : α} (shut : ¬ 0 < raised starts d x) :
    gate starts weight x d = raised starts d x := if_neg shut

private theorem raised_open {x : α} (open_ : 0 < raised starts d x) :
    gate starts weight x d = d + gain starts weight x := by
  rw [gate_open open_, raised, gain]
  split_ifs <;> omega

theorem depth_nonneg (starts : α → Bool) (light : ∀ x, -1 ≤ weight x) (inside : q ≤ xs.length) :
    0 ≤ depth starts weight xs q := by
  refine before_induct (P := fun _ (d : Int) => 0 ≤ d) (Int.le_refl 0) (fun q x _ nonneg => ?_) q inside
  have := light x
  simp only [gate, raised]
  split_ifs <;> omega

private theorem depth_balance (light : ∀ x, -1 ≤ weight x) : ∀ {q : Nat}, q ≤ xs.length →
    0 < depth starts weight xs q → ∃ i < q, (∃ x, xs[i]? = some x ∧ starts x = true) ∧
      (∀ n, 0 < n → i + n ≤ q → 0 < balance starts weight xs i n) ∧
      balance starts weight xs i (q - i) = depth starts weight xs q := by
  intro q
  induction q with
  | zero => exact fun _ positive => absurd positive (by simp [depth])
  | succ q ih =>
    intro inside positive
    obtain ⟨x, found⟩ : ∃ x, xs[q]? = some x := ⟨xs[q], List.getElem?_eq_getElem inside⟩
    have next := depth_succ starts weight found
    have nonneg := depth_nonneg starts light (Nat.le_of_succ_le inside)
    by_cases already : 0 < depth starts weight xs q
    · obtain ⟨i, earlier, started, kept, same⟩ := ih (by omega) already
      have open_ : 0 < raised starts (depth starts weight xs q) x := by
        rw [raised]
        split_ifs <;> omega
      have last : balance starts weight xs i (q + 1 - i) = depth starts weight xs (q + 1) := by
        obtain ⟨n, rfl⟩ : ∃ n, q = i + n := ⟨q - i, by omega⟩
        rw [Nat.add_sub_cancel_left] at same
        rw [show i + n + 1 - i = n + 1 by omega, balance, found, same, next, raised_open open_]
        rfl
      refine ⟨i, by omega, started, fun n some upTo => ?_, last⟩
      by_cases end_ : i + n = q + 1
      · have : n = q + 1 - i := by omega
        rw [this, last]
        exact positive
      · exact kept n some (by omega)
    · -- the counter was zero, so this element has started it
      have zero : depth starts weight xs q = 0 := by omega
      have started : starts x = true := by
        by_contra other
        rw [next, gate, raised, if_neg other, if_neg (by omega), zero] at positive
        omega
      have open_ : 0 < raised starts (depth starts weight xs q) x := by
        rw [raised, if_pos started]
        omega
      have last : balance starts weight xs q 1 = depth starts weight xs (q + 1) := by
        rw [next, raised_open open_, zero, balance, balance, Nat.add_zero, found]
        rfl
      refine ⟨q, by omega, ⟨x, found, started⟩, fun n some upTo => ?_, ?_⟩
      · have : n = 1 := by omega
        rw [this, last]
        exact positive
      · rw [Nat.add_sub_cancel_left]
        exact last

private theorem balance_le (light : ∀ x, -1 ≤ weight x) {i : Nat}
    (outlives : Outlives starts weight xs i q) (inside : q ≤ xs.length) :
    ∀ {n : Nat}, 0 < n → i + n ≤ q → balance starts weight xs i n ≤ depth starts weight xs (i + n) := by
  obtain ⟨-, ⟨x, found, started⟩, kept⟩ := outlives
  intro n
  induction n with
  | zero => omega
  | succ n ih =>
    intro _ upTo
    obtain ⟨y, here⟩ : ∃ y, xs[i + n]? = some y := ⟨xs[i + n], List.getElem?_eq_getElem (by omega)⟩
    have nonneg := depth_nonneg starts light (show i + n ≤ xs.length by omega)
    have next := depth_succ starts weight here
    have more : balance starts weight xs i n ≤ depth starts weight xs (i + n) ∧
        0 < raised starts (depth starts weight xs (i + n)) y := by
      by_cases first : n = 0
      · subst first
        obtain rfl : x = y := Option.some_inj.mp (found.symm.trans here)
        rw [raised, if_pos started, balance]
        omega
      · have := ih (by omega) (by omega)
        have := kept n (by omega) (by omega)
        rw [raised]
        split_ifs <;> omega
    rw [← Nat.add_assoc, next, raised_open more.2, balance, here]
    have := more.1
    simp only [Option.elim_some]
    omega

theorem open_iff (light : ∀ x, -1 ≤ weight x) (inside : q < xs.length) :
    Open starts weight xs q ↔ ∃ i, Outlives starts weight xs i q := by
  obtain ⟨x, found⟩ : ∃ x, xs[q]? = some x := ⟨xs[q], List.getElem?_eq_getElem inside⟩
  have nonneg := depth_nonneg starts light (Nat.le_of_lt inside)
  constructor
  · rintro ⟨y, here, positive⟩
    by_cases already : 0 < depth starts weight xs q
    · obtain ⟨i, earlier, started, kept, -⟩ := depth_balance light (Nat.le_of_lt inside) already
      exact ⟨i, Nat.le_of_lt earlier, started, kept⟩
    · rw [raised] at positive
      split_ifs at positive with started
      · exact ⟨q, Nat.le_refl q, ⟨y, here, started⟩, fun n some upTo => by omega⟩
      · omega
  · rintro ⟨i, outlives⟩
    refine ⟨x, found, ?_⟩
    obtain ⟨earlier, ⟨y, here, started⟩, kept⟩ := id outlives
    rw [raised]
    by_cases same : i = q
    · subst same
      obtain rfl : y = x := Option.some_inj.mp (here.symm.trans found)
      rw [if_pos started]
      omega
    · have most := balance_le light outlives (Nat.le_of_lt inside) (n := q - i) (by omega) (by omega)
      have := kept (q - i) (by omega) (by omega)
      rw [show i + (q - i) = q by omega] at most
      split_ifs <;> omega

end RabbitRender.Lib.Gates
