/- RabbitRender/Matrix/Inverse
   layer: proof
   source: swrender/matrix.cpp
   digest: The inversion behind the normal and the clip plane transform: it divides by no zero and
     gives the inverse of every matrix that has one. -/

import Mathlib.Algebra.Order.Ring.Rat
import RabbitRender.Lib.GaussJordan
import RabbitRender.Matrix.Coherence

set_option autoImplicit false

namespace RabbitRender.Matrix.Inverse

open Lib.GaussJordan RabbitRender.Matrix.Transforms

/-- `GLfloat tmp[4][4]`. The sixteen floats of `inverse` are taken as four rows, too. -/
abbrev Rows := Matrix (Fin 4) (Fin 4) ℚ

structure Work where
  tmp : Rows
  inverse : Rows

/-- `m[i][k] = v` -/
def set (m : Rows) (i k : Fin 4) (v : ℚ) : Rows := fun r c => if r = i ∧ c = k then v else m r c

/-- The search in column `i`. -/
def pivot (tmp : Rows) (i : Fin 4) : Fin 4 :=
  ((List.finRange 4).filter (i < ·)).foldl
    (fun swap j => if |tmp j i| > |tmp i i| then j else swap) i

/-- Swap two elements through `t`. -/
def swapElements (m : Rows) (i swap k : Fin 4) : Rows :=
  let t := m i k
  set (set m i k (m swap k)) swap k t

def swapLoop (w : Work) (i swap : Fin 4) : Work :=
  (List.finRange 4).foldl
    (fun w k => ⟨swapElements w.tmp i swap k, swapElements w.inverse i swap k⟩) w

def scaleLoop (w : Work) (i : Fin 4) (t : ℚ) : Work :=
  (List.finRange 4).foldl
    (fun w k => ⟨set w.tmp i k (w.tmp i k * t), set w.inverse i k (w.inverse i k * t)⟩) w

/-- The inner loop of the elimination, for row `j`. -/
def clearRow (w : Work) (i j : Fin 4) : Work :=
  let t := w.tmp j i
  (List.finRange 4).foldl
    (fun w k => ⟨set w.tmp j k (w.tmp j k - w.tmp i k * t),
      set w.inverse j k (w.inverse j k - w.inverse i k * t)⟩) w

def clearLoop (w : Work) (i : Fin 4) : Work :=
  (List.finRange 4).foldl (fun w j => if j ≠ i then clearRow w i j else w) w

def column (w : Work) (i : Fin 4) : Option Work :=
  let swap := pivot w.tmp i
  let w := if swap ≠ i then swapLoop w i swap else w
  if w.tmp i i = 0 then none else some (clearLoop (scaleLoop w i (1 / w.tmp i i)) i)

def rows (m : Matrixf ℚ) : Rows := fun i k => m (index i k)

theorem row_lt (n : Fin 16) : (n : Nat) / 4 < 4 := by omega

theorem column_lt (n : Fin 16) : (n : Nat) % 4 < 4 := by omega

def ofRows (m : Rows) : Matrixf ℚ := fun n => m ⟨n / 4, row_lt n⟩ ⟨n % 4, column_lt n⟩

def invert (src : Matrixf ℚ) : Option (Matrixf ℚ) :=
  ((List.finRange 4).foldlM column ⟨rows src, rows identityf⟩).map fun w => ofRows w.inverse

theorem foldl_all {step : Rows → Fin 4 → Rows} (g : (Fin 4 → ℚ) → Fin 4 → ℚ)
    (replaces : ∀ m k r c, step m k r c = if c = k then g (fun r => m r k) r else m r c)
    (m : Rows) : (List.finRange 4).foldl step m = fun r c => g (fun r => m r c) r := by
  funext r c
  rw [foldl_columns g replaces (List.nodup_finRange 4), if_pos (List.mem_finRange c)]

theorem foldl_both (step : Rows → Fin 4 → Rows) (l : List (Fin 4)) (w : Work) :
    l.foldl (fun w k => (⟨step w.tmp k, step w.inverse k⟩ : Work)) w =
      ⟨l.foldl step w.tmp, l.foldl step w.inverse⟩ := by
  induction l generalizing w with
  | nil => rfl
  | cons k l ih => rw [List.foldl_cons, ih, List.foldl_cons, List.foldl_cons]

theorem swapLoop_eq (w : Work) (i swap : Fin 4) :
    swapLoop w i swap = ⟨swapRows w.tmp i swap, swapRows w.inverse i swap⟩ := by
  have all (m : Rows) : (List.finRange 4).foldl (fun m k => swapElements m i swap k) m =
      swapRows m i swap := by
    refine foldl_all (fun col r => col (Equiv.swap i swap r)) (fun m k r c => ?_) m
    simp only [swapElements, set, Equiv.swap_apply_def]
    split_ifs <;> simp_all
  rw [swapLoop, foldl_both (swapElements · i swap ·), all, all]

theorem scaleLoop_eq (w : Work) (i : Fin 4) (t : ℚ) :
    scaleLoop w i t = ⟨scaleRow w.tmp i t, scaleRow w.inverse i t⟩ := by
  have all (m : Rows) : (List.finRange 4).foldl (fun m k => set m i k (m i k * t)) m =
      scaleRow m i t := by
    refine foldl_all (fun col r => if r = i then col r * t else col r) (fun m k r c => ?_) m
    simp only [set]
    split_ifs <;> simp_all
  rw [scaleLoop, foldl_both (fun m k => set m i k (m i k * t)), all, all]

/-- Subtract `t` times row `i` from row `j`. -/
def subtractRow (m : Rows) (i j : Fin 4) (t : ℚ) : Rows :=
  fun r c => if r = j then m r c - m i c * t else m r c

theorem clearRow_eq (w : Work) (i j : Fin 4) :
    clearRow w i j =
      ⟨subtractRow w.tmp i j (w.tmp j i), subtractRow w.inverse i j (w.tmp j i)⟩ := by
  have all (m : Rows) (t : ℚ) : (List.finRange 4).foldl
      (fun m k => set m j k (m j k - m i k * t)) m = subtractRow m i j t := by
    refine foldl_all (fun col r => if r = j then col r - col i * t else col r)
      (fun m k r c => ?_) m
    simp only [set]
    split_ifs <;> simp_all
  have both := foldl_both (fun m k => set m j k (m j k - m i k * w.tmp j i)) (List.finRange 4) w
  rw [all, all] at both
  exact both

def clearSome (m : Rows) (i : Fin 4) (t : Fin 4 → ℚ) (l : List (Fin 4)) : Rows :=
  fun r c => if r ∈ l then clearRows m i t r c else m r c

theorem clearSome_nil (m : Rows) (i : Fin 4) (t : Fin 4 → ℚ) : clearSome m i t [] = m := by
  funext r c
  exact if_neg List.not_mem_nil

theorem clearSome_self (m : Rows) (i : Fin 4) (t : Fin 4 → ℚ) (l : List (Fin 4)) :
    clearSome m i t (i :: l) = clearSome m i t l := by
  funext r c
  by_cases same : r = i
  · simp [clearSome, clearRows, same]
  · simp [clearSome, same]

theorem clearSome_subtractRow (m : Rows) {i j : Fin 4} (apart : j ≠ i) {l : List (Fin 4)}
    (fresh : j ∉ l) {t t' : Fin 4 → ℚ} (others : ∀ r, r ≠ j → t' r = t r) :
    clearSome (subtractRow m i j (t j)) i t' l = clearSome m i t (j :: l) := by
  funext r c
  by_cases here : r = j
  · subst here
    simp [clearSome, subtractRow, clearRows, fresh, apart]
  · simp [clearSome, subtractRow, clearRows, here, apart.symm, others r here]

theorem clearLoop_eq (w : Work) (i : Fin 4) :
    clearLoop w i = ⟨clearRows w.tmp i fun r => w.tmp r i,
      clearRows w.inverse i fun r => w.tmp r i⟩ := by
  have some (l : List (Fin 4)) (nodup : l.Nodup) (w : Work) :
      l.foldl (fun w j => if j ≠ i then clearRow w i j else w) w =
        ⟨clearSome w.tmp i (fun r => w.tmp r i) l,
          clearSome w.inverse i (fun r => w.tmp r i) l⟩ := by
    induction l generalizing w with
    | nil => rw [List.foldl_nil, clearSome_nil, clearSome_nil]
    | cons j l ih =>
      obtain ⟨fresh, nodup⟩ := List.nodup_cons.mp nodup
      rw [List.foldl_cons, ih nodup]
      by_cases same : j = i
      · subst same
        rw [if_neg (not_not.mpr rfl), clearSome_self, clearSome_self]
      · have others (r : Fin 4) (other : r ≠ j) :
            subtractRow w.tmp i j (w.tmp j i) r i = w.tmp r i := if_neg other
        rw [if_pos same, clearRow_eq, clearSome_subtractRow w.tmp same fresh others,
          clearSome_subtractRow w.inverse same fresh others]
  have all (m : Rows) (t : Fin 4 → ℚ) : clearSome m i t (List.finRange 4) = clearRows m i t := by
    funext r c
    exact if_pos (List.mem_finRange r)
  rw [clearLoop, some _ (List.nodup_finRange 4), all, all]

theorem foldl_last {P : Fin 4 → Prop} [DecidablePred P] (l : List (Fin 4)) (i : Fin 4) :
    let last := l.foldl (fun swap j => if P j then j else swap) i
    (last = i ∧ ∀ j ∈ l, ¬P j) ∨ (last ∈ l ∧ P last) := by
  induction l generalizing i with
  | nil => exact .inl ⟨rfl, by simp⟩
  | cons j l ih =>
    rw [List.foldl_cons]
    by_cases passes : P j
    · rw [if_pos passes]
      rcases ih j with ⟨last, -⟩ | ⟨member, passed⟩
      · rw [last]
        exact .inr ⟨List.mem_cons_self, passes⟩
      · exact .inr ⟨List.mem_cons_of_mem j member, passed⟩
    · rw [if_neg passes]
      rcases ih i with ⟨last, none⟩ | ⟨member, passed⟩
      · exact .inl ⟨last, List.forall_mem_cons.mpr ⟨passes, none⟩⟩
      · exact .inr ⟨List.mem_cons_of_mem j member, passed⟩

theorem pivot_spec (tmp : Rows) (i : Fin 4) (found : ∃ j, i ≤ j ∧ tmp j i ≠ 0) :
    i ≤ pivot tmp i ∧ tmp (pivot tmp i) i ≠ 0 := by
  have search := @foldl_last (fun j => |tmp j i| > |tmp i i|) _
    ((List.finRange 4).filter (i < ·)) i
  change (pivot tmp i = i ∧ _) ∨ (pivot tmp i ∈ _ ∧ |tmp (pivot tmp i) i| > |tmp i i|) at search
  rcases search with ⟨last, none⟩ | ⟨member, larger⟩
  · refine ⟨last.ge, fun zero => ?_⟩
    obtain ⟨j, below, nonzero⟩ := found
    rw [last] at zero
    rcases below.eq_or_lt with rfl | below
    · exact nonzero zero
    · have small := none j (List.mem_filter.mpr ⟨List.mem_finRange j, decide_eq_true below⟩)
      rw [zero, abs_zero, gt_iff_lt, abs_pos, not_not] at small
      exact nonzero small
  · have below := of_decide_eq_true (List.mem_filter.mp member).2
    exact ⟨below.le, abs_pos.mp ((abs_nonneg _).trans_lt larger)⟩

theorem column_stage {a : Rows} {w : Work} {i : Fin 4} (stage : Stage a w.tmp w.inverse i) :
    ∃ w', column w i = some w' ∧ Stage a w'.tmp w'.inverse (i + 1) := by
  obtain ⟨below, nonzero⟩ := pivot_spec w.tmp i stage.exists_pivot
  obtain ⟨w₁, swapped, stage₁, pivoted⟩ : ∃ w₁, (if pivot w.tmp i ≠ i then
      swapLoop w i (pivot w.tmp i) else w) = w₁ ∧ Stage a w₁.tmp w₁.inverse i ∧ w₁.tmp i i ≠ 0 := by
    by_cases moved : pivot w.tmp i ≠ i
    · rw [if_pos moved, swapLoop_eq]
      refine ⟨_, rfl, stage.swap below, ?_⟩
      change swapRows w.tmp i (pivot w.tmp i) i i ≠ 0
      rwa [swapRows_apply, Equiv.swap_apply_left]
    · rw [not_not.mp moved] at nonzero
      exact ⟨w, if_neg moved, stage, nonzero⟩
  have one : scaleRow w₁.tmp i (1 / w₁.tmp i i) i i = 1 := by
    rw [scaleRow, if_pos rfl, mul_one_div_cancel pivoted]
  refine ⟨clearLoop (scaleLoop w₁ i (1 / w₁.tmp i i)) i, ?_, ?_⟩
  · unfold column
    dsimp only
    rw [swapped, if_neg pivoted]
  · rw [clearLoop_eq, scaleLoop_eq]
    exact (stage₁.scale (one_div_ne_zero pivoted)).clear one

theorem rows_identityf : rows identityf = 1 := by
  ext i k
  fin_cases i <;> fin_cases k <;> rfl

theorem index_div (i k : Fin 4) (h : (index i k).val / 4 < 4) :
    (⟨(index i k).val / 4, h⟩ : Fin 4) = i := by
  simp only [index, Fin.ext_iff]
  omega

theorem index_mod (i k : Fin 4) (h : (index i k).val % 4 < 4) :
    (⟨(index i k).val % 4, h⟩ : Fin 4) = k := by
  simp only [index, Fin.ext_iff]
  omega

theorem rows_multiply (lhs rhs : Matrixf ℚ) :
    rows (multiply lhs rhs) = rows rhs * rows lhs := by
  ext i k
  rw [Matrix.mul_apply, Fin.sum_univ_four]
  simp only [rows, multiply, index_div, index_mod]
  ring

theorem rows_ofRows (m : Rows) : rows (ofRows m) = m := by
  ext i k
  simp only [rows, ofRows, index_div, index_mod]

theorem rows_injective {m m' : Matrixf ℚ} (same : rows m = rows m') : m = m' := by
  funext n
  have entry := congrFun (congrFun same ⟨n / 4, row_lt n⟩) ⟨n % 4, column_lt n⟩
  have here : index ⟨n / 4, row_lt n⟩ ⟨n % 4, column_lt n⟩ = n := by
    simp only [index, Fin.ext_iff]
    omega
  rwa [rows, rows, here] at entry

def Invertible (m : Matrixf ℚ) : Prop :=
  ∃ m', multiply m' m = identityf ∧ multiply m m' = identityf

theorem Invertible.nonsingular {m : Matrixf ℚ} (invertible : Invertible m) :
    Nonsingular (rows m) := by
  obtain ⟨m', -, right⟩ := invertible
  refine nonsingular_of_mul (m := rows m') ?_
  rw [← rows_multiply, right, rows_identityf]

/-- Every matrix that has an inverse is inverted, on both sides, and without a division by zero. -/
theorem invert_invertible (src : Matrixf ℚ) (invertible : Invertible src) :
    ∃ inverse, invert src = some inverse ∧ multiply inverse src = identityf ∧
      multiply src inverse = identityf := by
  have start : Stage (rows src) (rows src) (rows identityf) (0 : Fin 4) :=
    rows_identityf ▸ Stage.start invertible.nonsingular
  obtain ⟨w₁, run₁, stage₁⟩ := column_stage (w := ⟨rows src, rows identityf⟩) start
  obtain ⟨w₂, run₂, stage₂⟩ := column_stage (i := 1) stage₁
  obtain ⟨w₃, run₃, stage₃⟩ := column_stage (i := 2) stage₂
  obtain ⟨w₄, run₄, stage₄⟩ := column_stage (i := 3) stage₃
  obtain ⟨left, right⟩ := stage₄.finish
  refine ⟨ofRows w₄.inverse, ?_, rows_injective ?_, rows_injective ?_⟩
  · have columns : List.finRange 4 = [0, 1, 2, 3] := by decide
    rw [invert, columns]
    simp only [List.foldlM_cons, List.foldlM_nil, run₁, run₂, run₃, run₄, Option.bind_eq_bind,
      Option.bind_some, Option.pure_def, Option.map_some]
  · rw [rows_multiply, rows_ofRows, right, rows_identityf]
  · rw [rows_multiply, rows_ofRows, left, rows_identityf]

def cycle : Matrixf ℚ := ![0, 1, 0, 0, 0, 0, 1, 0, 0, 0, 0, 1, 1, 0, 0, 0]

theorem invert_invertible_cycle :
    ∃ inverse, invert cycle = some inverse ∧ multiply inverse cycle = identityf ∧
      multiply cycle inverse = identityf :=
  invert_invertible cycle ⟨![0, 0, 0, 1, 1, 0, 0, 0, 0, 1, 0, 0, 0, 0, 1, 0], by decide +kernel,
    by decide +kernel⟩

end RabbitRender.Matrix.Inverse
