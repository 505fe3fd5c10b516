/- RabbitRender/Lib/KeyedOptions
   layer: library
   digest: Lists of optional values with a key for each place; the values that are there tell the
   whole list. -/

import Mathlib.Data.List.Forall2
import Mathlib.Data.List.Nodup

set_option autoImplicit false

namespace RabbitRender.Lib.KeyedOptions

universe u v

variable {α : Type u} {κ : Type v} {key : α → κ} {ks ks' : List κ} {os os' : List (Option α)}

def values (os : List (Option α)) : List α := os.filterMap id

@[simp] theorem values_nil : values ([] : List (Option α)) = [] := rfl

@[simp] theorem values_none (os : List (Option α)) : values (none :: os) = values os := rfl

@[simp] theorem values_some (a : α) (os : List (Option α)) :
    values (some a :: os) = a :: values os := rfl

@[simp] theorem values_append (os os' : List (Option α)) :
    values (os ++ os') = values os ++ values os' :=
  List.filterMap_append

@[simp] theorem values_replicate (n : Nat) : values (List.replicate n (none : Option α)) = [] := by
  induction n with
  | zero => rfl
  | succ n ih => rw [List.replicate_succ, values_none, ih]

def Keyed (key : α → κ) (ks : List κ) (os : List (Option α)) : Prop :=
  List.Forall₂ (fun k o => ∀ a, o = some a → key a = k) ks os

theorem Keyed.append (h : Keyed key ks os) (h' : Keyed key ks' os') :
    Keyed key (ks ++ ks') (os ++ os') :=
  List.rel_append h h'

theorem keyed_replicate (ks : List κ) : Keyed key ks (List.replicate ks.length none) := by
  induction ks with
  | nil => exact .nil
  | cons k ks ih => exact .cons (by simp) ih

theorem Keyed.key_mem (h : Keyed key ks os) {a : α} (ha : a ∈ values os) : key a ∈ ks := by
  induction h with
  | nil => simp at ha
  | @cons k o ks os hk _ ih =>
    cases o with
    | none => exact List.mem_cons_of_mem k (ih ha)
    | some b =>
      rcases List.mem_cons.mp ha with rfl | later
      · exact hk a rfl ▸ List.mem_cons_self
      · exact List.mem_cons_of_mem k (ih later)

theorem Keyed.ext (distinct : ks.Nodup) (h : Keyed key ks os) (h' : Keyed key ks os')
    (same : values os = values os') : os = os' := by
  induction h generalizing os' with
  | nil =>
    cases h'
    rfl
  | @cons k o ks os hk hs ih =>
    obtain ⟨fresh, distinct'⟩ := List.nodup_cons.mp distinct
    cases h' with
    | @cons _ o' _ os'' hk' hs' =>
      cases o with
      | none =>
        cases o' with
        | none => rw [ih distinct' hs' same]
        | some b =>
          have later : b ∈ values os := by
            rw [values_none, values_some] at same
            rw [same]
            exact List.mem_cons_self
          exact absurd (hk' b rfl ▸ Keyed.key_mem hs later) fresh
      | some a =>
        cases o' with
        | none =>
          have later : a ∈ values os'' := by
            rw [values_none, values_some] at same
            rw [← same]
            exact List.mem_cons_self
          exact absurd (hk a rfl ▸ Keyed.key_mem hs' later) fresh
        | some b =>
          rw [values_some, values_some, List.cons.injEq] at same
          rw [same.1, ih distinct' hs' same.2]

end RabbitRender.Lib.KeyedOptions
