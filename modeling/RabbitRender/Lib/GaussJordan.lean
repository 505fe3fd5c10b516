/- RabbitRender/Lib/GaussJordan
   layer: library
   digest: Gauss-Jordan elimination of a square matrix over a field: what holds after each column,
     and the inverse at the end. -/

import Mathlib.Algebra.BigOperators.Fin
import Mathlib.LinearAlgebra.Matrix.NonsingularInverse

set_option autoImplicit false

namespace RabbitRender.Lib.GaussJordan

variable {K : Type*} {n : ℕ}

/-- Swap the rows `i` and `j`. -/
def swapRows (m : Matrix (Fin n) (Fin n) K) (i j : Fin n) : Matrix (Fin n) (Fin n) K :=
  fun r => m (Equiv.swap i j r)

theorem swapRows_apply (m : Matrix (Fin n) (Fin n) K) (i j r c : Fin n) :
    swapRows m i j r c = m (Equiv.swap i j r) c := rfl

/-- Multiply row `i` by `t`. -/
def scaleRow [Mul K] (m : Matrix (Fin n) (Fin n) K) (i : Fin n) (t : K) :
    Matrix (Fin n) (Fin n) K :=
  fun r c => if r = i then m r c * t else m r c

/-- Subtract from every other row the multiple of row `i` that `t` has for it. -/
def clearRows [Mul K] [Sub K] (m : Matrix (Fin n) (Fin n) K) (i : Fin n) (t : Fin n → K) :
    Matrix (Fin n) (Fin n) K :=
  fun r c => if r = i then m r c else m r c - m i c * t r

theorem foldl_columns {κ : Type*} [DecidableEq κ] (g : (Fin n → K) → Fin n → K)
    {step : Matrix (Fin n) κ K → κ → Matrix (Fin n) κ K}
    (replaces : ∀ m k r c, step m k r c = if c = k then g (fun r => m r k) r else m r c)
    {columns : List κ} (nodup : columns.Nodup) (m : Matrix (Fin n) κ K) (r : Fin n) (c : κ) :
    columns.foldl step m r c = if c ∈ columns then g (fun r => m r c) r else m r c := by
  induction columns generalizing m with
  | nil => simp
  | cons k columns ih =>
    obtain ⟨fresh, nodup⟩ := List.nodup_cons.mp nodup
    rw [List.foldl_cons, ih nodup]
    by_cases here : c = k
    · subst here
      simp [fresh, replaces]
    · simp only [replaces, List.mem_cons, here, false_or, if_false]

section CommRing

variable [CommRing K]

theorem swapRows_mul (m a : Matrix (Fin n) (Fin n) K) (i j : Fin n) :
    swapRows m i j * a = swapRows (m * a) i j := rfl

theorem scaleRow_mul (m a : Matrix (Fin n) (Fin n) K) (i : Fin n) (t : K) :
    scaleRow m i t * a = scaleRow (m * a) i t := by
  ext r c
  simp only [scaleRow, Matrix.mul_apply]
  split_ifs
  · rw [Finset.sum_mul]
    exact Finset.sum_congr rfl fun k _ => by ring
  · rfl

theorem clearRows_mul (m a : Matrix (Fin n) (Fin n) K) (i : Fin n) (t : Fin n → K) :
    clearRows m i t * a = clearRows (m * a) i t := by
  ext r c
  simp only [clearRows, Matrix.mul_apply]
  split_ifs
  · rfl
  · rw [Finset.sum_mul, ← Finset.sum_sub_distrib]
    exact Finset.sum_congr rfl fun k _ => by ring

theorem swapRows_mulVec (m : Matrix (Fin n) (Fin n) K) (i j : Fin n) (v : Fin n → K) (r : Fin n) :
    (swapRows m i j).mulVec v r = m.mulVec v (Equiv.swap i j r) := rfl

theorem scaleRow_mulVec (m : Matrix (Fin n) (Fin n) K) (i : Fin n) (t : K) (v : Fin n → K)
    (r : Fin n) :
    (scaleRow m i t).mulVec v r = if r = i then m.mulVec v r * t else m.mulVec v r := by
  simp only [Matrix.mulVec, dotProduct, scaleRow]
  split_ifs
  · rw [Finset.sum_mul]
    exact Finset.sum_congr rfl fun k _ => by ring
  · rfl

theorem clearRows_mulVec (m : Matrix (Fin n) (Fin n) K) (i : Fin n) (t : Fin n → K)
    (v : Fin n → K) (r : Fin n) :
    (clearRows m i t).mulVec v r =
      if r = i then m.mulVec v r else m.mulVec v r - m.mulVec v i * t r := by
  simp only [Matrix.mulVec, dotProduct, clearRows]
  split_ifs
  · rfl
  · rw [Finset.sum_mul, ← Finset.sum_sub_distrib]
    exact Finset.sum_congr rfl fun k _ => by ring

end CommRing

variable [Field K]

def Nonsingular (m : Matrix (Fin n) (Fin n) K) : Prop := ∀ v, m.mulVec v = 0 → v = 0

theorem nonsingular_of_mul {m a : Matrix (Fin n) (Fin n) K} (left : m * a = 1) :
    Nonsingular a := by
  intro v zero
  rw [← Matrix.one_mulVec v, ← left, ← Matrix.mulVec_mulVec, zero, Matrix.mulVec_zero]

/-- After the first `i` columns: the accumulated operations take `a` to the working copy, which is
not singular, and those columns are the ones of the identity. -/
structure Stage (a working inverse : Matrix (Fin n) (Fin n) K) (i : ℕ) : Prop where
  product : inverse * a = working
  nonsingular : Nonsingular working
  unit : ∀ c : Fin n, c.val < i → ∀ r, working r c = if r = c then 1 else 0

variable {a working inverse : Matrix (Fin n) (Fin n) K}

theorem Stage.start (regular : Nonsingular a) : Stage a a 1 0 :=
  ⟨one_mul a, regular, fun _ before => absurd before (Nat.not_lt_zero _)⟩

theorem Stage.exists_pivot {i : Fin n} (stage : Stage a working inverse i) :
    ∃ j, i ≤ j ∧ working j i ≠ 0 := by
  by_contra none
  push Not at none
  -- the column is a combination of the unit columns before it
  let v : Fin n → K := fun c => if c = i then 1 else if c < i then -working c i else 0
  have zero : working.mulVec v = 0 := by
    funext r
    have term (c : Fin n) : working r c * v c = (if c = i then working r i else 0) +
        if c = r then (if r < i then -working r i else 0) else 0 := by
      simp only [v]
      by_cases pivot : c = i
      · subst pivot
        by_cases here : c = r
        · simp [here]
        · simp [here]
      · by_cases before : c < i
        · rw [stage.unit c before, if_neg pivot, if_pos before, if_neg pivot, zero_add]
          by_cases here : r = c
          · subst here
            simp [before]
          · simp [here, Ne.symm here]
        · by_cases here : c = r
          · subst here
            simp [pivot, before]
          · simp [pivot, before, here]
    simp only [Matrix.mulVec, dotProduct, term, Finset.sum_add_distrib, Finset.sum_ite_eq',
      Finset.mem_univ, if_true, Pi.zero_apply]
    split_ifs with before
    · exact add_neg_cancel _
    · rw [none r (not_lt.mp before), add_zero]
  have one : v i = 0 := congrFun (stage.nonsingular v zero) i
  simp [v] at one

theorem Stage.swap {i j : Fin n} (stage : Stage a working inverse i) (below : i ≤ j) :
    Stage a (swapRows working i j) (swapRows inverse i j) i := by
  refine ⟨?_, fun v zero => ?_, fun c before r => ?_⟩
  · rw [swapRows_mul, stage.product]
  · refine stage.nonsingular v (funext fun r => ?_)
    have row := congrFun zero (Equiv.swap i j r)
    rwa [swapRows_mulVec, Equiv.swap_apply_self] at row
  · have notI : c ≠ i := fun same => absurd before (same ▸ lt_irrefl _)
    have notJ : c ≠ j := fun same => absurd before (not_lt.mpr (same ▸ below))
    rw [swapRows, stage.unit c before]
    simp only [Equiv.swap_apply_eq_iff, Equiv.swap_apply_of_ne_of_ne notI notJ]

theorem Stage.scale {i : Fin n} {t : K} (stage : Stage a working inverse i) (nonzero : t ≠ 0) :
    Stage a (scaleRow working i t) (scaleRow inverse i t) i := by
  refine ⟨?_, fun v zero => ?_, fun c before r => ?_⟩
  · rw [scaleRow_mul, stage.product]
  · refine stage.nonsingular v (funext fun r => ?_)
    have row := congrFun zero r
    rw [scaleRow_mulVec] at row
    split_ifs at row
    · exact (mul_eq_zero.mp row).resolve_right nonzero
    · exact row
  · have apart : i ≠ c := fun same => absurd before (same ▸ lt_irrefl _)
    simp only [scaleRow, stage.unit c before]
    split_ifs with onRow onDiagonal
    · exact absurd (onRow.symm.trans onDiagonal) apart
    · exact zero_mul t
    · rfl
    · rfl

theorem Stage.clear {i : Fin n} (stage : Stage a working inverse i) (one : working i i = 1) :
    Stage a (clearRows working i fun r => working r i) (clearRows inverse i fun r => working r i)
      (i + 1) := by
  refine ⟨?_, fun v zero => ?_, fun c before r => ?_⟩
  · rw [clearRows_mul, stage.product]
  · have pivotRow : working.mulVec v i = 0 := by
      have row := congrFun zero i
      rwa [clearRows_mulVec, if_pos rfl] at row
    refine stage.nonsingular v (funext fun r => ?_)
    have row := congrFun zero r
    rw [clearRows_mulVec, pivotRow] at row
    split_ifs at row
    · exact row
    · simpa using row
  · simp only [clearRows]
    rcases Nat.lt_succ_iff_lt_or_eq.mp before with earlier | last
    · have apart : i ≠ c := fun same => absurd earlier (same ▸ lt_irrefl _)
      rw [stage.unit c earlier r, stage.unit c earlier i, if_neg apart, zero_mul, sub_zero,
        ite_self]
    · obtain rfl : c = i := Fin.ext last
      rw [one, one_mul, sub_self]
      split_ifs with diagonal
      · rw [diagonal, one]
      · rfl

theorem Stage.finish (stage : Stage a working inverse n) : inverse * a = 1 ∧ a * inverse = 1 := by
  have left : inverse * a = 1 := by
    rw [stage.product]
    ext r c
    rw [stage.unit c c.isLt, Matrix.one_apply]
  exact ⟨left, mul_eq_one_comm.mp left⟩

end RabbitRender.Lib.GaussJordan
