/- RabbitRender/Lib/Bisect
   layer: library
   digest: Binary search with a three-way comparison over an index range. -/

import Mathlib.Order.Basic
import Mathlib.Tactic.Common

set_option autoImplicit false

namespace RabbitRender.Lib.Bisect

/-- Search `[l, hi)` for an index the comparison calls equal. `cmp i = .lt` says that entry `i`
comes before the key. The result is the index found, or the insertion point. -/
def bisect (cmp : Nat → Ordering) (l hi : Nat) : Option Nat × Nat :=
  if _ : l < hi then
    let mid := l + (hi - 1 - l) / 2
    match cmp mid with
    | .eq => (some mid, mid)
    | .lt => bisect cmp (mid + 1) hi
    | .gt => bisect cmp l mid
  else (none, l)
termination_by hi - l
decreasing_by all_goals omega

/-- The comparison is sorted on `[0, n)`: first entries before the key, then at most one equal
entry, then entries after it. -/
structure Sorted (cmp : Nat → Ordering) (n : Nat) : Prop where
  lt_of_le : ∀ i j, i < j → j < n → cmp j ≠ .gt → cmp i = .lt
  gt_of_le : ∀ i j, i < j → j < n → cmp i ≠ .lt → cmp j = .gt

structure Result (cmp : Nat → Ordering) (n : Nat) (r : Option Nat × Nat) : Prop where
  le : r.2 ≤ n
  before : ∀ i < r.2, cmp i = .lt
  after : r.1 = none → ∀ i, r.2 ≤ i → i < n → cmp i = .gt
  found : ∀ i, r.1 = some i → r.2 = i ∧ i < n ∧ cmp i = .eq

variable {cmp : Nat → Ordering} {n : Nat}

theorem bisect_result (sorted : Sorted cmp n) (l hi : Nat) (hl : l ≤ hi) (hhi : hi ≤ n)
    (below : ∀ i < l, cmp i = .lt) (above : ∀ i, hi ≤ i → i < n → cmp i = .gt) :
    Result cmp n (bisect cmp l hi) := by
  induction l, hi using bisect.induct cmp with
  | case1 l hi hlt mid heq =>
    rw [bisect, dif_pos hlt]
    simp only [mid] at heq
    simp only [heq]
    have hmid : l + (hi - 1 - l) / 2 < hi := by omega
    refine ⟨by omega, fun i hi' => ?_, by simp, by simpa using ⟨by omega, heq⟩⟩
    exact sorted.lt_of_le i _ hi' (by omega) (by simp [heq])
  | case2 l hi hlt mid hcmp ih =>
    rw [bisect, dif_pos hlt]
    simp only [mid] at hcmp ih ⊢
    simp only [hcmp]
    refine ih (by omega) hhi (fun i hi' => ?_) above
    rcases Nat.lt_succ_iff_lt_or_eq.mp hi' with h | rfl
    · exact sorted.lt_of_le i _ h (by omega) (by simp [hcmp])
    · exact hcmp
  | case3 l hi hlt mid hcmp ih =>
    rw [bisect, dif_pos hlt]
    simp only [mid] at hcmp ih ⊢
    simp only [hcmp]
    refine ih (by omega) (by omega) below (fun i hge hin => ?_)
    rcases Nat.lt_or_eq_of_le hge with h | rfl
    · exact sorted.gt_of_le _ i h hin (by simp [hcmp])
    · exact hcmp
  | case4 l hi hge =>
    rw [bisect, dif_neg hge]
    have heq : l = hi := by omega
    subst heq
    exact ⟨hhi, below, fun _ => above, by simp⟩

theorem bisect_spec (sorted : Sorted cmp n) : Result cmp n (bisect cmp 0 n) :=
  bisect_result sorted 0 n (Nat.zero_le n) (Nat.le_refl n) (by simp) (by omega)

theorem bisect_found_iff (sorted : Sorted cmp n) :
    (bisect cmp 0 n).1.isSome ↔ ∃ i < n, cmp i = .eq := by
  have r := bisect_spec sorted
  constructor
  · intro h
    obtain ⟨i, hi⟩ := Option.isSome_iff_exists.mp h
    exact ⟨i, (r.found i hi).2⟩
  · rintro ⟨i, hi, heq⟩
    by_contra h
    have hnone : (bisect cmp 0 n).1 = none := by simpa using h
    rcases Nat.lt_or_ge i (bisect cmp 0 n).2 with hlt | hge
    · simp [r.before i hlt] at heq
    · simp [r.after hnone i hge hi] at heq

theorem bisect_equal {l hi i : Nat} (h : (bisect cmp l hi).1 = some i) :
    l ≤ i ∧ i < hi ∧ cmp i = .eq := by
  induction l, hi using bisect.induct cmp with
  | case1 l hi hlt mid heq =>
    rw [bisect, dif_pos hlt] at h
    simp only [mid] at heq
    simp only [heq, Option.some.injEq] at h
    subst h
    exact ⟨by omega, by omega, heq⟩
  | case2 l hi hlt mid hcmp ih =>
    rw [bisect, dif_pos hlt] at h
    simp only [mid] at hcmp ih
    simp only [hcmp] at h
    obtain ⟨low, high, same⟩ := ih h
    exact ⟨by omega, high, same⟩
  | case3 l hi hlt mid hcmp ih =>
    rw [bisect, dif_pos hlt] at h
    simp only [mid] at hcmp ih
    simp only [hcmp] at h
    obtain ⟨low, high, same⟩ := ih h
    exact ⟨low, by omega, same⟩
  | case4 l hi hge =>
    rw [bisect, dif_neg hge] at h
    cases h

def probes (cmp : Nat → Ordering) (l hi : Nat) : List Nat :=
  if _ : l < hi then
    let mid := l + (hi - 1 - l) / 2
    match cmp mid with
    | .eq => [mid]
    | .lt => mid :: probes cmp (mid + 1) hi
    | .gt => mid :: probes cmp l mid
  else []
termination_by hi - l
decreasing_by all_goals omega

theorem mid_mem_probes {l hi : Nat} (some : l < hi) : l + (hi - 1 - l) / 2 ∈ probes cmp l hi := by
  rw [probes, dif_pos some]
  dsimp only
  split <;> exact List.mem_cons_self

theorem probes_first_iff (above : cmp 0 = .gt) : (∀ i ∈ probes cmp 0 n, i = 0) ↔ n ≤ 2 := by
  constructor
  · intro first
    by_contra many
    have mid := first _ (mid_mem_probes (by omega : 0 < n))
    omega
  · intro few i member
    rw [probes] at member
    split_ifs at member with some
    · have mid : 0 + (n - 1 - 0) / 2 = 0 := by omega
      simp only [mid, above] at member
      rw [probes, dif_neg (by omega), List.mem_singleton] at member
      exact member
    · cases member

end RabbitRender.Lib.Bisect
