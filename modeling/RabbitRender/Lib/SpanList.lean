/- RabbitRender/Lib/SpanList
   layer: library
   digest: Finite sets of naturals stored as sorted, separated, non-empty spans. -/

import Mathlib.Order.Interval.Finset.Nat
import Mathlib.Data.Finset.Insert
import Mathlib.Tactic.Common

set_option autoImplicit false

namespace RabbitRender.Lib.SpanList

/-- The naturals from `start` up to, and without, `start + len`. -/
structure Span where
  start : Nat
  len : Nat
deriving DecidableEq, Repr

def Span.stop (r : Span) : Nat := r.start + r.len

def members : List Span → Finset Nat
  | [] => ∅
  | r :: rs => Finset.Ico r.start r.stop ∪ members rs

@[simp] theorem members_nil : members [] = ∅ := rfl

/-- Sorted spans, none empty, with at least one missing number between any two. -/
structure WellFormed (rs : List Span) : Prop where
  nonempty : ∀ r ∈ rs, 0 < r.len
  separated : rs.Pairwise fun r r' => r.stop < r'.start

variable {rs as bs : List Span} {t : Nat} {r : Span}

theorem mem_members : t ∈ members rs ↔ ∃ r ∈ rs, r.start ≤ t ∧ t < r.stop := by
  induction rs with
  | nil => simp
  | cons r rs ih => simp [members, ih]

theorem mem_members_cons : t ∈ members (r :: rs) ↔ (r.start ≤ t ∧ t < r.stop) ∨ t ∈ members rs := by
  simp [members]

@[simp] theorem members_append (rs rs' : List Span) :
    members (rs ++ rs') = members rs ∪ members rs' := by
  induction rs with
  | nil => simp
  | cons r rs ih => simp [members, ih, Finset.union_assoc]

theorem wellFormed_nil : WellFormed [] := ⟨by simp, List.Pairwise.nil⟩

theorem wellFormed_append {rs' : List Span} :
    WellFormed (rs ++ rs') ↔
      WellFormed rs ∧ WellFormed rs' ∧ ∀ r ∈ rs, ∀ r' ∈ rs', r.stop < r'.start := by
  constructor
  · intro h
    have hsep := List.pairwise_append.mp h.separated
    exact ⟨⟨fun r hr => h.nonempty r (by simp [hr]), hsep.1⟩,
      ⟨fun r hr => h.nonempty r (by simp [hr]), hsep.2.1⟩, hsep.2.2⟩
  · rintro ⟨hl, hr, hcross⟩
    refine ⟨fun r hmem => ?_, List.pairwise_append.mpr ⟨hl.separated, hr.separated, hcross⟩⟩
    rcases List.mem_append.mp hmem with hmem | hmem
    · exact hl.nonempty r hmem
    · exact hr.nonempty r hmem

theorem wellFormed_cons :
    WellFormed (r :: rs) ↔ 0 < r.len ∧ WellFormed rs ∧ ∀ r' ∈ rs, r.stop < r'.start := by
  constructor
  · intro h
    have hsep := List.pairwise_cons.mp h.separated
    exact ⟨h.nonempty r (by simp), ⟨fun r' hr' => h.nonempty r' (by simp [hr']), hsep.2⟩, hsep.1⟩
  · rintro ⟨hlen, hrs, hcross⟩
    refine ⟨fun r' hmem => ?_, List.pairwise_cons.mpr ⟨hcross, hrs.separated⟩⟩
    rcases List.mem_cons.mp hmem with rfl | hmem
    · exact hlen
    · exact hrs.nonempty r' hmem

theorem not_mem_of_start_gt (h : ∀ r ∈ rs, t < r.start) : t ∉ members rs := by
  intro hmem
  obtain ⟨r, hr, hle, -⟩ := mem_members.mp hmem
  exact absurd (h r hr) (by omega)

theorem not_mem_of_stop_le (h : ∀ r ∈ rs, r.stop ≤ t) : t ∉ members rs := by
  intro hmem
  obtain ⟨r, hr, -, hlt⟩ := mem_members.mp hmem
  exact absurd (h r hr) (by omega)

-- The number inserted lies in the gap between a left part `as` and a right part `bs`. It may touch
-- the last span of `as`, the first span of `bs`, both or neither.
/-- `t` lies after every span of `as` and before every span of `bs`. -/
structure InGap (as : List Span) (t : Nat) (bs : List Span) : Prop where
  left : ∀ r ∈ as, r.stop ≤ t
  right : ∀ r ∈ bs, t < r.start

/-- A span `p` with `t` and the members of `rs` can take the place of `rs`. -/
theorem insert_span (rs : List Span) (p : Span) (wf : WellFormed as) (wf' : WellFormed bs)
    (cross : ∀ r ∈ as, ∀ r' ∈ bs, r.stop < r'.start) (hlen : 0 < p.len)
    (hl : ∀ r ∈ as, r.stop < p.start) (hr : ∀ r ∈ bs, p.stop < r.start)
    (more : ∀ x, (p.start ≤ x ∧ x < p.stop) ↔ x = t ∨ x ∈ members rs) :
    WellFormed (as ++ p :: bs) ∧
      members (as ++ p :: bs) = insert t (members (as ++ (rs ++ bs))) := by
  constructor
  · refine wellFormed_append.mpr ⟨wf, wellFormed_cons.mpr ⟨hlen, wf', hr⟩, ?_⟩
    intro r hmem r' hmem'
    rcases List.mem_cons.mp hmem' with rfl | hmem'
    · exact hl r hmem
    · exact cross r hmem r' hmem'
  · ext x
    simp only [members_append, Finset.mem_insert, Finset.mem_union, mem_members_cons, more]
    tauto

theorem insert_alone (wf : WellFormed (as ++ bs)) (gap : InGap as t bs) (hl : ∀ r ∈ as, r.stop ≠ t)
    (hr : ∀ r ∈ bs, t + 1 ≠ r.start) :
    WellFormed (as ++ ⟨t, 1⟩ :: bs) ∧
      members (as ++ ⟨t, 1⟩ :: bs) = insert t (members (as ++ bs)) := by
  obtain ⟨wfa, wfb, cross⟩ := wellFormed_append.mp wf
  refine insert_span [] ⟨t, 1⟩ wfa wfb cross Nat.one_pos
    (fun r hmem => lt_of_le_of_ne (gap.left r hmem) (hl r hmem))
    (fun r hmem => lt_of_le_of_ne (gap.right r hmem) (hr r hmem)) fun x => ?_
  simp only [members_nil, Span.stop, Finset.notMem_empty, or_false]
  omega

theorem insert_after {as bs : List Span} {p : Span} (wf : WellFormed (as ++ p :: bs))
    (hr : ∀ r ∈ bs, p.stop + 1 < r.start) :
    WellFormed (as ++ ⟨p.start, p.len + 1⟩ :: bs) ∧
      members (as ++ ⟨p.start, p.len + 1⟩ :: bs) = insert p.stop (members (as ++ p :: bs)) := by
  obtain ⟨wfa, wfb, cross⟩ := wellFormed_append.mp wf
  obtain ⟨hlen, wfbs, -⟩ := wellFormed_cons.mp wfb
  refine insert_span [p] ⟨p.start, p.len + 1⟩ wfa wfbs
    (fun r hmem r' hmem' => cross r hmem r' (by simp [hmem'])) (Nat.succ_pos _)
    (fun r hmem => cross r hmem p (by simp)) hr fun x => ?_
  simp only [mem_members_cons, members_nil, Span.stop, Finset.notMem_empty, or_false]
  omega

theorem insert_before {n : Span} (wf : WellFormed (as ++ n :: bs)) (ht : t + 1 = n.start)
    (hl : ∀ r ∈ as, r.stop < t) :
    WellFormed (as ++ ⟨t, n.len + 1⟩ :: bs) ∧
      members (as ++ ⟨t, n.len + 1⟩ :: bs) = insert t (members (as ++ n :: bs)) := by
  obtain ⟨wfa, wfb, cross⟩ := wellFormed_append.mp wf
  obtain ⟨hlen, wfbs, after⟩ := wellFormed_cons.mp wfb
  have same : (⟨t, n.len + 1⟩ : Span).stop = n.stop := by
    simp only [Span.stop]
    omega
  refine insert_span [n] ⟨t, n.len + 1⟩ wfa wfbs
    (fun r hmem r' hmem' => cross r hmem r' (by simp [hmem'])) (Nat.succ_pos _) hl
    (same ▸ after) fun x => ?_
  simp only [mem_members_cons, members_nil, Span.stop, Finset.notMem_empty, or_false]
  omega

theorem insert_between {as bs : List Span} {p n : Span} (wf : WellFormed (as ++ p :: n :: bs))
    (ht : p.stop + 1 = n.start) :
    WellFormed (as ++ ⟨p.start, p.len + 1 + n.len⟩ :: bs) ∧
      members (as ++ ⟨p.start, p.len + 1 + n.len⟩ :: bs) =
        insert p.stop (members (as ++ p :: n :: bs)) := by
  obtain ⟨wfa, wfb, cross⟩ := wellFormed_append.mp wf
  obtain ⟨hlen, wfn, -⟩ := wellFormed_cons.mp wfb
  obtain ⟨hlen', wfbs, after⟩ := wellFormed_cons.mp wfn
  have same : (⟨p.start, p.len + 1 + n.len⟩ : Span).stop = n.stop := by
    simp only [Span.stop] at ht ⊢
    omega
  refine insert_span [p, n] ⟨p.start, p.len + 1 + n.len⟩ wfa wfbs
    (fun r hmem r' hmem' => cross r hmem r' (by simp [hmem'])) (Nat.add_pos_right _ hlen')
    (fun r hmem => cross r hmem p (by simp)) (same ▸ after) fun x => ?_
  simp only [mem_members_cons, members_nil, Span.stop, Finset.notMem_empty, or_false] at ht ⊢
  omega

/-- What is left of one span when `t` is taken out of it. -/
def Span.without (r : Span) (t : Nat) : List Span :=
  (if r.start < t then [⟨r.start, t - r.start⟩] else []) ++
    (if t + 1 < r.stop then [⟨t + 1, r.stop - (t + 1)⟩] else [])

theorem Span.mem_without {s : Span} (hs : s ∈ r.without t) (hlt : t < r.stop) (hle : r.start ≤ t) :
    r.start ≤ s.start ∧ s.stop ≤ r.stop ∧ 0 < s.len := by
  simp only [Span.without, List.mem_append, List.mem_ite_nil_right, List.mem_singleton] at hs
  simp only [Span.stop] at hlt hs ⊢
  rcases hs with ⟨h, rfl⟩ | ⟨h, rfl⟩ <;> simp only <;> omega

theorem remove_inside (wf : WellFormed (as ++ r :: bs)) (hle : r.start ≤ t) (hlt : t < r.stop) :
    WellFormed (as ++ r.without t ++ bs) ∧
      members (as ++ r.without t ++ bs) = (members (as ++ r :: bs)).erase t := by
  obtain ⟨wfa, wfb, cross⟩ := wellFormed_append.mp wf
  obtain ⟨-, wfbs, after⟩ := wellFormed_cons.mp wfb
  have inner : ∀ s ∈ r.without t, r.start ≤ s.start ∧ s.stop ≤ r.stop ∧ 0 < s.len :=
    fun s hs => Span.mem_without hs hlt hle
  constructor
  · refine wellFormed_append.mpr ⟨wellFormed_append.mpr ⟨wfa, ⟨fun s hs => (inner s hs).2.2, ?_⟩,
      ?_⟩, wfbs, ?_⟩
    · by_cases hs : r.start < t <;> by_cases he : t + 1 < r.stop <;>
        simp [Span.without, hs, he]
      simp only [Span.stop]
      omega
    · intro a ha s hs
      exact Nat.lt_of_lt_of_le (cross a ha r (by simp)) (inner s hs).1
    · intro s hs b hb
      rcases List.mem_append.mp hs with hs | hs
      · exact cross s hs b (by simp [hb])
      · exact Nat.lt_of_le_of_lt (inner s hs).2.1 (after b hb)
  · have left : t ∉ members as := not_mem_of_stop_le fun a ha =>
      (Nat.le_of_lt (cross a ha r (by simp))).trans hle
    have right : t ∉ members bs := not_mem_of_start_gt fun b hb =>
      hlt.trans (after b hb)
    ext x
    have piece : x ∈ members (r.without t) ↔ x ≠ t ∧ r.start ≤ x ∧ x < r.stop := by
      by_cases hs : r.start < t <;> by_cases he : t + 1 < r.stop <;>
        simp [Span.without, hs, he, members] <;> simp only [Span.stop] at hlt he ⊢ <;> omega
    simp only [members_append, Finset.mem_union, Finset.mem_erase, piece, mem_members_cons]
    constructor
    · rintro ((h | h) | h)
      · exact ⟨fun heq => left (heq ▸ h), Or.inl h⟩
      · exact ⟨h.1, Or.inr (Or.inl h.2)⟩
      · exact ⟨fun heq => right (heq ▸ h), Or.inr (Or.inr h)⟩
    · rintro ⟨hne, h | h | h⟩
      · exact Or.inl (Or.inl h)
      · exact Or.inl (Or.inr ⟨hne, h⟩)
      · exact Or.inr h

theorem least_missing {r : Span} {rs : List Span} (wf : WellFormed (r :: rs)) (h0 : r.start = 0) :
    r.stop ∉ members (r :: rs) ∧ ∀ t < r.stop, t ∈ members (r :: rs) := by
  obtain ⟨-, -, after⟩ := wellFormed_cons.mp wf
  constructor
  · rw [mem_members_cons, not_or]
    exact ⟨by omega, not_mem_of_start_gt after⟩
  · intro t ht
    exact mem_members_cons.mpr (Or.inl ⟨by omega, ht⟩)

end RabbitRender.Lib.SpanList
