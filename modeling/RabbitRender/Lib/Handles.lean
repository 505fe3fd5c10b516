/- RabbitRender/Lib/Handles
   layer: library
   digest: What was taken and given back, and that it balances with what is still held. -/

import Mathlib.Data.List.Perm.Basic

set_option autoImplicit false

namespace RabbitRender.Lib.Handles

universe u

variable {α : Type u}

structure Ledger (α : Type u) where
  taken : List α := []
  returned : List α := []
deriving DecidableEq, Repr

namespace Ledger

def take (l : Ledger α) (a : α) : Ledger α := { l with taken := a :: l.taken }

def giveBack (l : Ledger α) (a : α) : Ledger α := { l with returned := a :: l.returned }

def giveBackAll (l : Ledger α) (as : List α) : Ledger α := as.foldl giveBack l

@[simp] theorem take_taken (l : Ledger α) (a : α) : (l.take a).taken = a :: l.taken := rfl

@[simp] theorem giveBackAll_taken (l : Ledger α) (as : List α) :
    (l.giveBackAll as).taken = l.taken := by
  induction as generalizing l with
  | nil => rfl
  | cons a as ih => exact ih (l.giveBack a)

theorem giveBackAll_append (l : Ledger α) (as more : List α) :
    l.giveBackAll (as ++ more) = (l.giveBackAll as).giveBackAll more :=
  List.foldl_append

/-- Everything taken was given back or is held, and nothing is counted twice. -/
def Balanced (l : Ledger α) (held : List α) : Prop := (l.returned ++ held).Perm l.taken

theorem balanced_nil : Balanced ({} : Ledger α) [] := List.Perm.nil

theorem Balanced.of_perm {l : Ledger α} {held other : List α} (h : l.Balanced held)
    (hp : other.Perm held) : l.Balanced other :=
  (hp.append_left l.returned).trans h

theorem Balanced.take {l : Ledger α} {held : List α} (h : l.Balanced held) (a : α) :
    (l.take a).Balanced (a :: held) := by
  have moved : (l.returned ++ a :: held).Perm (a :: (l.returned ++ held)) := List.perm_middle
  exact moved.trans (List.Perm.cons a h)

theorem Balanced.giveBack {l : Ledger α} {held : List α} {a : α} (h : l.Balanced (a :: held)) :
    (l.giveBack a).Balanced held := by
  have moved : (l.returned ++ a :: held).Perm (a :: (l.returned ++ held)) := List.perm_middle
  exact moved.symm.trans h

theorem Balanced.giveBackAll {l : Ledger α} {as held : List α} (h : l.Balanced (as ++ held)) :
    (l.giveBackAll as).Balanced held := by
  induction as generalizing l with
  | nil => exact h
  | cons a as ih =>
    apply ih
    exact Balanced.giveBack h

theorem Balanced.returned_subset {l : Ledger α} {held : List α} (h : l.Balanced held) {a : α}
    (ha : a ∈ l.returned) : a ∈ l.taken :=
  h.subset (List.mem_append_left _ ha)

theorem Balanced.returned_once {l : Ledger α} {held : List α} (h : l.Balanced held)
    (once : l.taken.Nodup) : l.returned.Nodup ∧ ∀ a ∈ l.returned, a ∉ held := by
  have all : (l.returned ++ held).Nodup := h.nodup_iff.mpr once
  have parts := List.nodup_append.mp all
  refine ⟨parts.1, fun a ha hheld => ?_⟩
  exact parts.2.2 a ha a hheld rfl

end Ledger

theorem filterMap_set_perm {β : Type u} (f : α → Option β) (a : α) {l : List α} {i : Nat}
    (hi : i < l.length) :
    ((f l[i]).toList ++ (l.set i a).filterMap f).Perm ((f a).toList ++ l.filterMap f) := by
  induction l generalizing i with
  | nil => exact absurd hi (Nat.not_lt_zero i)
  | cons b l ih =>
    have split (c : α) : (c :: l).filterMap f = (f c).toList ++ l.filterMap f := by
      cases hc : f c with
      | none => simp [hc]
      | some d => simp [hc]
    cases i with
    | zero =>
      rw [List.getElem_cons_zero, List.set_cons_zero, split a, split b]
      rw [← List.append_assoc, ← List.append_assoc]
      exact List.perm_append_comm.append_right _
    | succ i =>
      have hi' : i < l.length := Nat.lt_of_succ_lt_succ hi
      have rest := ih hi'
      have head : (b :: l.set i a).filterMap f = (f b).toList ++ (l.set i a).filterMap f := by
        cases hb : f b with
        | none => simp [hb]
        | some d => simp [hb]
      rw [List.getElem_cons_succ, List.set_cons_succ, head, split b]
      calc ((f l[i]).toList ++ ((f b).toList ++ (l.set i a).filterMap f)).Perm
            ((f b).toList ++ ((f l[i]).toList ++ (l.set i a).filterMap f)) := by
              rw [← List.append_assoc, ← List.append_assoc]
              exact List.perm_append_comm.append_right _
        _ |>.Perm ((f b).toList ++ ((f a).toList ++ l.filterMap f)) := rest.append_left _
        _ |>.Perm ((f a).toList ++ ((f b).toList ++ l.filterMap f)) := by
              rw [← List.append_assoc, ← List.append_assoc]
              exact List.perm_append_comm.append_right _

end RabbitRender.Lib.Handles
