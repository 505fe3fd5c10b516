/- RabbitRender/Arrays/Trace
   layer: result
   source: swrender/array.cpp
   digest: The calls of the renderers as a trace of shapes, and traces put together by primitives. -/

import RabbitRender.Arrays.Compile

set_option autoImplicit false

namespace RabbitRender.Arrays.Trace

open Vertices Arrays.Compile

def shapes (p : Pipeline) : Call → List Shape
  | .point v => [p.seen v]
  | .line v0 v1 => [p.seen v0, p.seen v1]
  | .triangle v0 v1 v2 => [p.seen v0, p.seen v1, p.seen v2]

def trace (p : Pipeline) (m : Machine) : List (List Shape) := m.calls.map (shapes p)

section Primitives

variable {α : Type}

/-- What the primitives from `s` on add. -/
def primitives (primitive : Nat → List α) (s n : Nat) : List α :=
  (List.range' s n).flatMap primitive

theorem primitives_add (primitive : Nat → List α) (s n k : Nat) :
    primitives primitive s (n + k) = primitives primitive s n ++ primitives primitive (s + n) k := by
  rw [primitives, primitives, primitives, ← List.flatMap_append]
  congr 1
  have split := @List.range'_append s n k 1
  rw [Nat.one_mul] at split
  exact split.symm

theorem primitives_succ (primitive : Nat → List α) (s n : Nat) :
    primitives primitive s (n + 1) = primitive s ++ primitives primitive (s + 1) n := by
  rw [primitives, List.range'_succ, List.flatMap_cons]
  rfl

theorem primitives_shift {f g : Nat → List α} {s t n : Nat}
    (h : ∀ k < n, f (s + k) = g (t + k)) : primitives f s n = primitives g t n := by
  induction n generalizing s t with
  | zero => rfl
  | succ n ih =>
    have rest : primitives f (s + 1) n = primitives g (t + 1) n := by
      apply ih
      intro k hk
      have here := h (k + 1) (by omega)
      rwa [show s + (k + 1) = s + 1 + k by omega, show t + (k + 1) = t + 1 + k by omega] at here
    rw [primitives_succ, primitives_succ, rest]
    exact congrArg (· ++ _) (h 0 (by omega))

theorem primitives_eq_nil_iff {f : Nat → List α} {s n : Nat} :
    primitives f s n = [] ↔ ∀ k, s ≤ k → k < s + n → f k = [] := by
  rw [primitives, List.flatMap_eq_nil_iff]
  constructor
  · intro none k hk hk'
    exact none k (List.mem_range'_1.mpr ⟨hk, hk'⟩)
  · intro none k hk
    obtain ⟨hk, hk'⟩ := List.mem_range'_1.mp hk
    exact none k hk hk'

theorem primitives_map {f : Nat → List α} {x : Nat → α}
    (h : ∀ k, f k = [x k]) (s n : Nat) : primitives f s n = (List.range' s n).map x := by
  rw [primitives, funext h, List.map_eq_flatMap]

end Primitives

end RabbitRender.Arrays.Trace
