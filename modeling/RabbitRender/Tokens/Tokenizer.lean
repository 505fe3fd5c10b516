/- RabbitRender/Tokens/Tokenizer
   layer: model
   source: swrender/Tokenizer.cpp
   digest: The run list of acquired tokens refines a finite set of naturals until it is full. -/

import Mathlib.Order.Interval.Finset.Nat
import Mathlib.Data.Finset.Insert
import Mathlib.Data.Fintype.EquivFin
import Mathlib.Tactic.Common
import RabbitRender.Lib.Bisect
import RabbitRender.Lib.GuardedRun
import RabbitRender.Lib.SpanList

set_option autoImplicit false

namespace RabbitRender.Tokens.Tokenizer

open Lib.Bisect Lib.GuardedRun Lib.SpanList

/-- `run_t`: the tokens from `first` on, `length` of them. -/
structure Run where
  first : UInt32
  length : UInt32
deriving DecidableEq, Repr

/-- `first + length`, as the code computes it. -/
def Run.stop (r : Run) : UInt32 := r.first + r.length

/-- The contents of `mRanges`. -/
abbrev Ranges := List Run

/-- The members of `status_t` the operations return. -/
inductive Status where
  | noError
  | badValue
  | nameNotFound
  | badIndex
deriving DecidableEq, Repr

/-- The three-way test in the loop of `_indexOrderOf`. -/
def Run.order (token : UInt32) (r : Run) : Ordering :=
  if token < r.first then .gt else if token ≥ r.stop then .lt else .eq

def orderAt (ranges : Ranges) (token : UInt32) (i : Nat) : Ordering :=
  match ranges[i]? with
  | some r => r.order token
  | none => .gt

/-- `_indexOrderOf`: the index of the run with the token, and `*order`. -/
def indexOrderOf (ranges : Ranges) (token : UInt32) : Option Nat × Nat :=
  bisect (orderAt ranges token) 0 ranges.length

def isAcquired (ranges : Ranges) (token : UInt32) : Bool :=
  (indexOrderOf ranges token).1.isSome

/-- The second half of `_insertTokenAt`: no merge with the previous run. -/
def insertBeforeNext (ranges : Ranges) (token : UInt32) (index : Nat) : Ranges × Status :=
  match ranges[index]? with
  | some n =>
    if token + 1 = n.first then
      (ranges.set index ⟨n.first - 1, n.length + 1⟩, .noError)
    else (ranges.insertIdx index ⟨token, 1⟩, .noError)
  | none =>
    -- `Vector::insertAt` refuses an index beyond the size
    if index ≤ ranges.length then (ranges.insertIdx index ⟨token, 1⟩, .noError)
    else (ranges, .badIndex)

def insertTokenAt (ranges : Ranges) (token : UInt32) : Nat → Ranges × Status
  | 0 => insertBeforeNext ranges token 0
  | index + 1 =>
    match ranges[index]? with
    | some p =>
      if p.stop = token then
        match ranges[index + 1]? with
        | some n =>
          if token + 1 = n.first then
            ((ranges.set index ⟨p.first, p.length + 1 + n.length⟩).eraseIdx (index + 1), .noError)
          else (ranges.set index ⟨p.first, p.length + 1⟩, .noError)
        | none => (ranges.set index ⟨p.first, p.length + 1⟩, .noError)
      else insertBeforeNext ranges token (index + 1)
    | none => insertBeforeNext ranges token (index + 1)

def acquire (ranges : Ranges) : Ranges × UInt32 :=
  match ranges with
  | [] => ((insertTokenAt ranges 0 0).1, 0)
  | run :: _ =>
    if run.first ≠ 0 then ((insertTokenAt ranges 0 0).1, 0)
    else ((insertTokenAt ranges run.stop 1).1, run.stop)

def reserve (ranges : Ranges) (token : UInt32) : Ranges × Status :=
  match indexOrderOf ranges token with
  | (some _, _) => (ranges, .badValue)
  | (none, o) => insertTokenAt ranges token o

/-- The body of `release` once the run with the token is known. -/
def releaseFrom (ranges : Ranges) (i : Nat) (run : Run) (token : UInt32) : Ranges :=
  if token = run.first ∨ token = run.stop - 1 then
    let first := if token = run.first then run.first + 1 else run.first
    let length := run.length - 1
    if length = 0 then ranges.eraseIdx i else ranges.set i ⟨first, length⟩
  else
    let newRun : Run := ⟨token + 1, run.stop - (token + 1)⟩
    (ranges.set i ⟨run.first, token - run.first⟩).insertIdx (i + 1) newRun

def release (ranges : Ranges) (token : UInt32) : Ranges × Status :=
  match (indexOrderOf ranges token).1 with
  | none => (ranges, .nameNotFound)
  | some i =>
    match ranges[i]? with
    | none => (ranges, .nameNotFound)
    | some run =>
      if run.first ≤ token ∧ token < run.stop then (releaseFrom ranges i run token, .noError)
      else (ranges, .nameNotFound)

def Run.span (r : Run) : Span := ⟨r.first.toNat, r.length.toNat⟩

def tokens (ranges : Ranges) : Finset Nat := members (ranges.map Run.span)

/-- Sorted, separated, non-empty runs none of which reaches `2^32`. -/
structure Valid (ranges : Ranges) : Prop where
  wellFormed : WellFormed (ranges.map Run.span)
  bounded : ∀ r ∈ ranges, r.span.stop < 2 ^ 32

theorem valid_nil : Valid [] := ⟨wellFormed_nil, by simp⟩

variable {r : Run} {token : UInt32} {ranges : Ranges}

theorem Run.stop_toNat (h : r.span.stop < 2 ^ 32) : r.stop.toNat = r.span.stop := by
  simp only [Run.stop, UInt32.toNat_add, Run.span, Span.stop] at h ⊢
  exact Nat.mod_eq_of_lt h

theorem Run.order_eq (h : r.span.stop < 2 ^ 32) :
    r.order token =
      if token.toNat < r.span.start then .gt
      else if r.span.stop ≤ token.toNat then .lt else .eq := by
  simp only [Run.order, UInt32.lt_iff_toNat_lt, ge_iff_le, UInt32.le_iff_toNat_le,
    Run.stop_toNat h]
  rfl

theorem Valid.stop_lt (v : Valid ranges) {i j : Nat} (hij : i < j) (hj : j < ranges.length) :
    ranges[i].span.stop < ranges[j].span.start := by
  have := List.pairwise_iff_getElem.mp v.wellFormed.separated i j (by simp; omega) (by simpa) hij
  simpa using this

theorem Valid.start_lt_stop (v : Valid ranges) (hr : r ∈ ranges) : r.span.start < r.span.stop :=
  Nat.lt_add_of_pos_right (v.wellFormed.nonempty _ (List.mem_map_of_mem hr))

theorem orderAt_eq (v : Valid ranges) (token : UInt32) {i : Nat} (hi : i < ranges.length) :
    orderAt ranges token i =
      if token.toNat < ranges[i].span.start then .gt
      else if ranges[i].span.stop ≤ token.toNat then .lt else .eq := by
  simp only [orderAt, List.getElem?_eq_getElem hi]
  exact Run.order_eq (v.bounded _ (List.getElem_mem hi))

theorem orderAt_sorted (v : Valid ranges) (token : UInt32) :
    Sorted (orderAt ranges token) ranges.length := by
  constructor
  · intro i j hij hj hne
    have hi : i < ranges.length := hij.trans hj
    have apart := v.stop_lt hij hj
    have inner := v.start_lt_stop (List.getElem_mem hi)
    rw [orderAt_eq v token hj] at hne
    rw [orderAt_eq v token hi, if_neg, if_pos]
    all_goals
      by_contra hcon
      simp [show token.toNat < ranges[j].span.start by omega] at hne
  · intro i j hij hj hne
    have hi : i < ranges.length := hij.trans hj
    have apart := v.stop_lt hij hj
    have inner := v.start_lt_stop (List.getElem_mem hi)
    rw [orderAt_eq v token hi] at hne
    rw [orderAt_eq v token hj, if_pos]
    by_contra hcon
    rw [if_neg (by omega), if_pos (by omega)] at hne
    exact hne rfl

theorem isAcquired_iff (v : Valid ranges) (token : UInt32) :
    isAcquired ranges token = true ↔ token.toNat ∈ tokens ranges := by
  rw [isAcquired, indexOrderOf, bisect_found_iff (orderAt_sorted v token), tokens, mem_members]
  constructor
  · rintro ⟨i, hi, heq⟩
    rw [orderAt_eq v token hi] at heq
    refine ⟨ranges[i].span, List.mem_map_of_mem (List.getElem_mem hi), ?_⟩
    split_ifs at heq with hlt hle
    exact ⟨by omega, by omega⟩
  · rintro ⟨s, hs, hle, hlt⟩
    obtain ⟨r, hr, rfl⟩ := List.mem_map.mp hs
    obtain ⟨i, hi, rfl⟩ := List.mem_iff_getElem.mp hr
    refine ⟨i, hi, ?_⟩
    rw [orderAt_eq v token hi, if_neg (by omega), if_neg (by omega)]

theorem Valid.succ_lt (v : Valid ranges) {t : Nat} (h : t ∈ tokens ranges) : t + 1 < 2 ^ 32 := by
  obtain ⟨s, hs, -, hlt⟩ := mem_members.mp h
  obtain ⟨r, hr, rfl⟩ := List.mem_map.mp hs
  have := v.bounded r hr
  omega

theorem valid_of_tokens (wf : WellFormed (ranges.map Run.span))
    (h : ∀ t ∈ tokens ranges, t + 1 < 2 ^ 32) : Valid ranges := by
  refine ⟨wf, fun r hr => ?_⟩
  have pos : 0 < r.span.len := wf.nonempty _ (List.mem_map_of_mem hr)
  have last := h (r.span.stop - 1) (mem_members.mpr ⟨r.span, List.mem_map_of_mem hr, by
    simp only [Span.stop]
    omega⟩)
  omega

private theorem insertIdx_at_length {α : Type} (as bs : List α) (x : α) :
    (as ++ bs).insertIdx as.length x = as ++ x :: bs := by
  induction as with
  | nil => simp
  | cons a as ih => simp [ih]

def Adds (ranges : Ranges) (token : UInt32) (out : Ranges) : Prop :=
  Valid out ∧ tokens out = insert token.toNat (tokens ranges)

private theorem adds_of_spans {out : Ranges} (v : Valid ranges) (fits : token.toNat + 1 < 2 ^ 32)
    (wf : WellFormed (out.map Run.span)) (mem : tokens out = insert token.toNat (tokens ranges)) :
    Adds ranges token out := by
  refine ⟨valid_of_tokens wf fun t ht => ?_, mem⟩
  rcases Finset.mem_insert.mp (mem ▸ ht) with rfl | ht
  · exact fits
  · exact v.succ_lt ht

private theorem succ_toNat (ht : token.toNat + 1 < 2 ^ 32) :
    (token + 1).toNat = token.toNat + 1 := by
  rw [UInt32.toNat_add, UInt32.toNat_one]
  exact Nat.mod_eq_of_lt ht

private theorem touches_iff {n : Run} (ht : token.toNat + 1 < 2 ^ 32) :
    token + 1 = n.first ↔ token.toNat + 1 = n.span.start := by
  rw [← UInt32.toNat_inj, succ_toNat ht]
  rfl

private theorem apart_of_not_touching {n : Run} {bs : Ranges}
    (wf : WellFormed ((n :: bs).map Run.span)) (hlt : token.toNat < n.span.start)
    (ht : token.toNat + 1 < 2 ^ 32) (hne : token + 1 ≠ n.first) :
    ∀ r ∈ n :: bs, token.toNat + 1 < r.span.start := by
  rw [Ne, touches_iff ht] at hne
  intro r hr
  rcases List.mem_cons.mp hr with rfl | hr
  · omega
  · have later := (wellFormed_cons.mp wf).2.2 r.span (List.mem_map_of_mem hr)
    simp only [Span.stop] at later
    omega

structure Place (as : Ranges) (token : UInt32) (bs : Ranges) : Prop where
  valid : Valid (as ++ bs)
  gap : InGap (as.map Run.span) token.toNat (bs.map Run.span)
  fits : token.toNat + 1 < 2 ^ 32

theorem insertBeforeNext_adds {as bs : Ranges} (pl : Place as token bs)
    (alone : ∀ r ∈ as, r.span.stop ≠ token.toNat) :
    Adds (as ++ bs) token (insertBeforeNext (as ++ bs) token as.length).1 ∧
      (insertBeforeNext (as ++ bs) token as.length).2 = .noError := by
  obtain ⟨v, gap, fits⟩ := pl
  have wf := v.wellFormed
  rw [List.map_append] at wf
  have alone' : ∀ s ∈ as.map Run.span, s.stop ≠ token.toNat := by simpa using alone
  have single : Run.span ⟨token, 1⟩ = ⟨token.toNat, 1⟩ := rfl
  cases bs with
  | nil =>
    simp only [insertBeforeNext, List.append_nil, List.getElem?_length, Nat.le_refl, if_true,
      List.insertIdx_length_self, and_true]
    have key := insert_alone wf gap alone' (by simp)
    simp only [List.map_nil, List.append_nil] at key v
    exact adds_of_spans v fits (by simpa [single] using key.1) (by simpa [tokens, single] using key.2)
  | cons n bs =>
    have get : (as ++ n :: bs)[as.length]? = some n := by simp
    simp only [insertBeforeNext, get]
    by_cases touch : token + 1 = n.first
    · rw [if_pos touch]
      have touch' := (touches_iff fits).mp touch
      have stop := v.bounded n (by simp)
      have shape : Run.span ⟨n.first - 1, n.length + 1⟩ = ⟨token.toNat, n.span.len + 1⟩ := by
        simp only [Run.span, Span.stop] at touch' stop ⊢
        rw [← touch, UInt32.add_sub_cancel, succ_toNat (by omega)]
      have key := insert_before wf touch' fun s hs => by
        have := gap.left s hs
        have := alone' s hs
        omega
      simp only [List.set_append_right _ _ (Nat.le_refl _), Nat.sub_self, List.set_cons_zero,
        and_true]
      exact adds_of_spans v fits (by simpa [shape] using key.1)
        (by simpa [tokens, shape] using key.2)
    · rw [if_neg touch, insertIdx_at_length]
      have apart := apart_of_not_touching (wellFormed_append.mp wf).2.1
        (gap.right n.span (by simp)) fits touch
      have key := insert_alone wf gap alone' fun s hs => by
        obtain ⟨r, hr, rfl⟩ := List.mem_map.mp hs
        exact Nat.ne_of_lt (apart r hr)
      exact ⟨adds_of_spans v fits (by simpa [single] using key.1)
        (by simpa [tokens, single] using key.2), rfl⟩

theorem insertTokenAt_adds {as bs : Ranges} {token : UInt32} (pl : Place as token bs) :
    Adds (as ++ bs) token (insertTokenAt (as ++ bs) token as.length).1 ∧
      (insertTokenAt (as ++ bs) token as.length).2 = .noError := by
  rcases List.eq_nil_or_concat as with rfl | ⟨as, p, rfl⟩
  · exact insertBeforeNext_adds pl (by simp)
  rw [List.concat_eq_append] at pl ⊢
  obtain ⟨v, gap, fits⟩ := pl
  have wf := v.wellFormed
  have get : (as ++ [p] ++ bs)[as.length]? = some p := by simp
  have len : (as ++ [p]).length = as.length + 1 := by simp
  have pstop := v.bounded p (by simp)
  rw [len, insertTokenAt]
  simp only [get]
  by_cases touch : p.stop = token
  · rw [if_pos touch]
    have touch' : p.span.stop = token.toNat := by rw [← touch, Run.stop_toNat pstop]
    have grown : Run.span ⟨p.first, p.length + 1⟩ = ⟨p.span.start, p.span.len + 1⟩ := by
      simp only [Run.span, Span.stop] at pstop touch' ⊢
      rw [succ_toNat (by omega)]
    have after (hr : ∀ r ∈ bs, token.toNat + 1 < r.span.start) :
        Adds (as ++ [p] ++ bs) token (as ++ ⟨p.first, p.length + 1⟩ :: bs) := by
      have key := @insert_after (as.map Run.span) (bs.map Run.span) p.span
        (by simpa using wf) (by simpa [touch'] using hr)
      exact adds_of_spans v fits (by simpa [grown] using key.1)
        (by simpa [tokens, grown, touch'] using key.2)
    have setLast (x : Run) : (as ++ [p] ++ bs).set as.length x = as ++ x :: bs := by
      rw [List.append_assoc, List.set_append_right _ _ (Nat.le_refl _), Nat.sub_self]
      rfl
    cases bs with
    | nil =>
      simp only [List.append_nil, List.getElem?_eq_none (Nat.le_of_eq len), and_true] at setLast ⊢
      rw [setLast]
      simpa using after (by simp)
    | cons n bs =>
      have getNext : (as ++ [p] ++ n :: bs)[as.length + 1]? = some n := by
        rw [List.getElem?_append_right (by simp)]
        simp
      simp only [getNext, setLast]
      by_cases join : token + 1 = n.first
      · rw [if_pos join]
        have join' := (touches_iff fits).mp join
        have nstop := v.bounded n (by simp)
        have merged : Run.span ⟨p.first, p.length + 1 + n.length⟩ =
            ⟨p.span.start, p.span.len + 1 + n.span.len⟩ := by
          simp only [Run.span, Span.stop] at touch' join' nstop ⊢
          rw [UInt32.toNat_add, succ_toNat (by omega), Nat.mod_eq_of_lt (by omega)]
        have erased (x : Run) : (as ++ x :: n :: bs).eraseIdx (as.length + 1) = as ++ x :: bs := by
          rw [List.eraseIdx_append_of_length_le (by omega), Nat.add_sub_cancel_left]
          rfl
        have key := @insert_between (as.map Run.span) (bs.map Run.span) p.span n.span
          (by simpa using wf) (by rw [touch', join'])
        rw [erased]
        exact ⟨adds_of_spans v fits (by simpa [merged] using key.1)
          (by simpa [tokens, merged, touch'] using key.2), rfl⟩
      · rw [if_neg join]
        rw [List.map_append] at wf
        exact ⟨after (apart_of_not_touching (wellFormed_append.mp wf).2.1
          (gap.right n.span (by simp)) fits join), rfl⟩
  · rw [if_neg touch, ← len]
    refine insertBeforeNext_adds ⟨v, gap, fits⟩ fun r hr heq => ?_
    rcases List.mem_append.mp hr with hr | hr
    · have ppos := v.start_lt_stop (r := p) (by simp)
      have pgap := gap.left p.span (by simp)
      rw [List.append_assoc, List.map_append] at wf
      have before := (wellFormed_append.mp wf).2.2 r.span (List.mem_map_of_mem hr) p.span (by simp)
      omega
    · rw [List.mem_singleton.mp hr] at heq
      exact touch (UInt32.toNat_inj.mp (by rw [Run.stop_toNat pstop, heq]))

theorem place_of_not_found (v : Valid ranges) (fits : token.toNat + 1 < 2 ^ 32) {o : Nat}
    (h : indexOrderOf ranges token = (none, o)) :
    Place (ranges.take o) token (ranges.drop o) ∧ (ranges.take o).length = o := by
  have found := bisect_spec (orderAt_sorted v token)
  rw [show bisect (orderAt ranges token) 0 ranges.length = (none, o) from h] at found
  refine ⟨⟨by rwa [List.take_append_drop], ⟨?_, ?_⟩, fits⟩,
    by rw [List.length_take, Nat.min_eq_left found.le]⟩
  · intro s hs
    obtain ⟨r, hr, rfl⟩ := List.mem_map.mp hs
    obtain ⟨i, hi, rfl⟩ := List.mem_iff_getElem.mp hr
    rw [List.length_take] at hi
    have lt := found.before i (by omega)
    rw [orderAt_eq v token (by omega)] at lt
    rw [List.getElem_take]
    split_ifs at lt with h₁ h₂
    exact h₂
  · intro s hs
    obtain ⟨r, hr, rfl⟩ := List.mem_map.mp hs
    obtain ⟨i, hi, rfl⟩ := List.mem_iff_getElem.mp hr
    rw [List.length_drop] at hi
    have gt := found.after rfl (o + i) (by omega) (by omega)
    rw [orderAt_eq v token (by omega)] at gt
    rw [List.getElem_drop]
    split_ifs at gt with h₁ h₂
    exact h₁

theorem reserve_free (v : Valid ranges) (fits : token.toNat + 1 < 2 ^ 32)
    (free : token.toNat ∉ tokens ranges) :
    Adds ranges token (reserve ranges token).1 ∧ (reserve ranges token).2 = .noError := by
  rw [← isAcquired_iff v, isAcquired] at free
  rcases hsearch : indexOrderOf ranges token with ⟨hit, o⟩
  obtain rfl : hit = none := by simpa [hsearch] using free
  obtain ⟨place, len⟩ := place_of_not_found v fits hsearch
  have key := insertTokenAt_adds place
  rw [List.take_append_drop, len] at key
  simpa only [reserve, hsearch] using key

theorem reserve_taken (v : Valid ranges) (taken : token.toNat ∈ tokens ranges) :
    reserve ranges token = (ranges, .badValue) := by
  rw [← isAcquired_iff v, isAcquired] at taken
  rcases hsearch : indexOrderOf ranges token with ⟨hit, o⟩
  obtain ⟨i, rfl⟩ : ∃ i, hit = some i := by simpa [hsearch, Option.isSome_iff_exists] using taken
  simp only [reserve, hsearch]

def leastFree (s : Finset Nat) : Nat := Nat.find (Infinite.exists_notMem_finset s)

theorem leastFree_eq {s : Finset Nat} {t : Nat} (hfree : t ∉ s) (hbelow : ∀ u < t, u ∈ s) :
    leastFree s = t :=
  (Nat.find_eq_iff _).mpr ⟨hfree, fun u hu hcon => hcon (hbelow u hu)⟩

theorem acquire_spec (v : Valid ranges) (room : ∃ t, t + 1 < 2 ^ 32 ∧ t ∉ tokens ranges) :
    (acquire ranges).2.toNat = leastFree (tokens ranges) ∧
      Adds ranges (acquire ranges).2 (acquire ranges).1 := by
  cases ranges with
  | nil => exact ⟨(leastFree_eq (by simp [acquire, tokens]) (by simp [acquire])).symm,
      (@insertTokenAt_adds [] _ 0 ⟨v, ⟨by simp, by simp⟩, by simp⟩).1⟩
  | cons run rs =>
    by_cases first : run.first = 0
    · have zero : run.span.start = 0 := by simp [Run.span, first]
      have stop := v.bounded run (by simp)
      have least := @least_missing run.span (rs.map Run.span) v.wellFormed zero
      have value : (acquire (run :: rs)).2 = run.stop := by simp [acquire, first]
      have state : (acquire (run :: rs)).1 = (insertTokenAt (run :: rs) run.stop 1).1 := by
        simp [acquire, first]
      rw [value, state, Run.stop_toNat stop]
      refine ⟨(leastFree_eq least.1 least.2).symm, ?_⟩
      refine (@insertTokenAt_adds [run] rs run.stop ⟨v, ⟨?_, ?_⟩, ?_⟩).1
      · simp [Run.stop_toNat stop]
      · intro s hs
        rw [Run.stop_toNat stop]
        exact (wellFormed_cons.mp v.wellFormed).2.2 s hs
      · obtain ⟨t, ht, hfree⟩ := room
        rw [Run.stop_toNat stop]
        have := Nat.le_of_not_lt fun hlt => hfree (least.2 t hlt)
        omega
    · have value : (acquire (run :: rs)).2 = 0 := by simp [acquire, first]
      have state : (acquire (run :: rs)).1 = (insertTokenAt (run :: rs) 0 0).1 := by
        simp [acquire, first]
      have pos : 0 < run.span.start := by
        rw [← UInt32.toNat_inj] at first
        exact Nat.pos_of_ne_zero first
      have after := (wellFormed_cons.mp v.wellFormed).2.2
      have right : ∀ s ∈ (run :: rs).map Run.span, 0 < s.start := by
        intro s hs
        rcases List.mem_cons.mp hs with rfl | hs
        · exact pos
        · exact Nat.zero_lt_of_lt (after s hs)
      rw [value, state]
      refine ⟨(leastFree_eq (not_mem_of_start_gt right) (by simp)).symm, ?_⟩
      exact (@insertTokenAt_adds [] _ 0 ⟨v, ⟨by simp, right⟩, by simp⟩).1

private theorem sub_toNat {a b : UInt32} (h : b.toNat ≤ a.toNat) :
    (a - b).toNat = a.toNat - b.toNat :=
  UInt32.toNat_sub_of_le _ _ (UInt32.le_iff_toNat_le.mpr h)

private theorem releaseFrom_spans {as bs : Ranges} {run : Run} {token : UInt32}
    (stop : run.span.stop < 2 ^ 32) (hle : run.span.start ≤ token.toNat)
    (hlt : token.toNat < run.span.stop) :
    (releaseFrom (as ++ run :: bs) as.length run token).map Run.span =
      as.map Run.span ++ run.span.without token.toNat ++ bs.map Run.span := by
  have stopEq := Run.stop_toNat stop
  have atFirst : token = run.first ↔ token.toNat = run.span.start := by
    rw [← UInt32.toNat_inj]
    rfl
  have atLast : token = run.stop - 1 ↔ token.toNat + 1 = run.span.stop := by
    rw [← UInt32.toNat_inj, sub_toNat (by rw [stopEq, UInt32.toNat_one]; omega), stopEq,
      UInt32.toNat_one]
    omega
  have setAt (x : Run) : (as ++ run :: bs).set as.length x = as ++ x :: bs := by
    rw [List.set_append_right _ _ (Nat.le_refl _), Nat.sub_self, List.set_cons_zero]
  have less : (run.length - 1).toNat = run.span.len - 1 := by
    simp only [Span.stop] at hlt
    exact sub_toNat (by rw [UInt32.toNat_one]; change 1 ≤ run.span.len; omega)
  have empty : run.length - 1 = 0 ↔ run.span.len = 1 := by
    rw [← UInt32.toNat_inj, less, UInt32.toNat_zero]
    simp only [Span.stop] at hlt
    omega
  simp only [releaseFrom, setAt, atFirst, atLast, empty, Span.without]
  by_cases first : token.toNat = run.span.start
  · rw [if_pos (Or.inl first), if_pos first, if_neg (by omega : ¬run.span.start < token.toNat)]
    by_cases single : run.span.len = 1
    · rw [if_pos single, if_neg (by simp only [Span.stop]; omega),
        List.eraseIdx_append_of_length_le (Nat.le_refl _), Nat.sub_self]
      simp
    · have one : (run.first + 1).toNat = run.span.start + 1 := succ_toNat (by
        change run.span.start + 1 < _
        omega)
      have shape : Run.span ⟨run.first + 1, run.length - 1⟩ =
          ⟨token.toNat + 1, run.span.stop - (token.toNat + 1)⟩ := by
        simp only [Span.stop] at hlt
        rw [Run.span, one, less, first, Span.stop, Span.mk.injEq]
        omega
      rw [if_neg single, if_pos (by simp only [Span.stop] at hlt ⊢; omega)]
      simp [shape]
  · have below : run.span.start < token.toNat := by omega
    have left : Run.span ⟨run.first, token - run.first⟩ =
        ⟨run.span.start, token.toNat - run.span.start⟩ := by
      rw [Run.span, sub_toNat hle]
      rfl
    rw [if_pos below]
    by_cases last : token.toNat + 1 = run.span.stop
    · have shape : Run.span ⟨run.first, run.length - 1⟩ =
          ⟨run.span.start, token.toNat - run.span.start⟩ := by
        simp only [Span.stop] at last
        rw [Run.span, less, Span.mk.injEq]
        exact ⟨rfl, by omega⟩
      rw [if_pos (Or.inr last), if_neg first, if_neg (by simp only [Span.stop] at last ⊢; omega),
        if_neg (by omega)]
      simp [shape]
    · have above : token.toNat + 1 < run.span.stop := by omega
      have next : (token + 1).toNat = token.toNat + 1 := succ_toNat (by omega)
      have right : Run.span ⟨token + 1, run.stop - (token + 1)⟩ =
          ⟨token.toNat + 1, run.span.stop - (token.toNat + 1)⟩ := by
        rw [Run.span, sub_toNat (by rw [next, stopEq]; omega), next, stopEq]
      have len (x : Run) : as.length + 1 = (as ++ [x]).length := by simp
      rw [if_neg (by tauto), if_pos above, List.append_cons, len, insertIdx_at_length]
      simp [left, right]

theorem release_taken (v : Valid ranges) (taken : token.toNat ∈ tokens ranges) :
    Valid (release ranges token).1 ∧
      tokens (release ranges token).1 = (tokens ranges).erase token.toNat ∧
      (release ranges token).2 = .noError := by
  have sorted := orderAt_sorted v token
  rw [← isAcquired_iff v, isAcquired, Option.isSome_iff_exists] at taken
  obtain ⟨i, hit⟩ := taken
  obtain ⟨-, hi, eq⟩ := (bisect_spec sorted).found i hit
  have bounded := v.bounded _ (List.getElem_mem hi)
  have stop := Run.stop_toNat bounded
  rw [orderAt_eq v token hi] at eq
  split_ifs at eq with h₁ h₂
  have value : release ranges token = (releaseFrom ranges i ranges[i] token, .noError) := by
    simp only [release, hit, List.getElem?_eq_getElem hi]
    rw [if_pos]
    rw [UInt32.le_iff_toNat_le, UInt32.lt_iff_toNat_lt, stop]
    exact ⟨Nat.le_of_not_lt h₁, Nat.lt_of_not_le h₂⟩
  have split : ranges = ranges.take i ++ ranges[i] :: ranges.drop (i + 1) := by simp
  have spans := @releaseFrom_spans (ranges.take i) (ranges.drop (i + 1)) _ _
    bounded (Nat.le_of_not_lt h₁) (Nat.lt_of_not_le h₂)
  rw [← split, List.length_take, Nat.min_eq_left (Nat.le_of_lt hi)] at spans
  have wf := v.wellFormed
  rw [split, List.map_append, List.map_cons] at wf
  have key := remove_inside wf (Nat.le_of_not_lt h₁) (Nat.lt_of_not_le h₂)
  rw [← spans, ← List.map_cons, ← List.map_append, ← split] at key
  have mem : tokens (releaseFrom ranges i ranges[i] token) = (tokens ranges).erase token.toNat :=
    key.2
  rw [value]
  exact ⟨valid_of_tokens key.1 fun t ht => v.succ_lt (Finset.mem_of_mem_erase (mem ▸ ht)),
    mem, rfl⟩

theorem release_free (v : Valid ranges) (free : token.toNat ∉ tokens ranges) :
    release ranges token = (ranges, .nameNotFound) := by
  rw [← isAcquired_iff v, isAcquired, Bool.not_eq_true, Option.isSome_eq_false_iff,
    Option.isNone_iff_eq_none] at free
  simp only [release, free]

inductive Op where
  | acquire
  | reserve (token : UInt32)
  | release (token : UInt32)
deriving DecidableEq, Repr

inductive Answer where
  | token (t : Nat)
  | status (s : Status)
deriving DecidableEq, Repr

def call (ranges : Ranges) : Op → Ranges × Answer
  | .acquire => ((acquire ranges).1, .token (acquire ranges).2.toNat)
  | .reserve t => ((reserve ranges t).1, .status (reserve ranges t).2)
  | .release t => ((release ranges t).1, .status (release ranges t).2)

def step (ranges : Ranges) (op : Op) : Ranges := (call ranges op).1

/-- What the operations are for: a finite set, its least non-member, insertion and removal. -/
def setCall (s : Finset Nat) : Op → Finset Nat × Answer
  | .acquire => (insert (leastFree s) s, .token (leastFree s))
  | .reserve t =>
    if t.toNat ∈ s then (s, .status .badValue) else (insert t.toNat s, .status .noError)
  | .release t =>
    if t.toNat ∈ s then (s.erase t.toNat, .status .noError) else (s, .status .nameNotFound)

def setStep (s : Finset Nat) (op : Op) : Finset Nat := (setCall s op).1

def Op.InDomain : Op → Prop
  | .acquire => True
  | .reserve t => t.toNat + 1 < 2 ^ 32
  | .release t => t.toNat + 1 < 2 ^ 32

def Op.HasRoom (ranges : Ranges) : Op → Prop
  | .acquire => ∃ t : UInt32, t.toNat + 1 < 2 ^ 32 ∧ isAcquired ranges t = false
  | _ => True

def Op.Ok (ranges : Ranges) (op : Op) : Prop := op.InDomain ∧ op.HasRoom ranges

def FailsUnchanged (ranges : Ranges) (op : Op) : Prop :=
  ∀ s, (call ranges op).2 = .status s → s ≠ .noError → (call ranges op).1 = ranges

theorem call_refines (v : Valid ranges) {op : Op} (ok : op.Ok ranges) :
    Valid (call ranges op).1 ∧
      (tokens (call ranges op).1, (call ranges op).2) = setCall (tokens ranges) op ∧
      FailsUnchanged ranges op := by
  obtain ⟨domain, room⟩ := ok
  cases op with
  | acquire =>
    obtain ⟨t, ht, hfree⟩ := room
    have free : t.toNat ∉ tokens ranges := by
      rw [← isAcquired_iff v, hfree]
      simp
    obtain ⟨value, valid, mem⟩ := acquire_spec v ⟨t.toNat, ht, free⟩
    exact ⟨valid, by simp only [call, setCall, mem, value], by simp [FailsUnchanged, call]⟩
  | reserve t =>
    by_cases taken : t.toNat ∈ tokens ranges
    · have key := reserve_taken v taken
      refine ⟨by simpa [call, key] using v, by simp [call, setCall, key, taken], ?_⟩
      simp [FailsUnchanged, call, key]
    · obtain ⟨⟨valid, mem⟩, status⟩ := reserve_free v domain taken
      refine ⟨valid, by simp [call, setCall, mem, status, taken], ?_⟩
      simp [FailsUnchanged, call, status]
  | release t =>
    by_cases taken : t.toNat ∈ tokens ranges
    · obtain ⟨valid, mem, status⟩ := release_taken v taken
      refine ⟨valid, by simp [call, setCall, mem, status, taken], ?_⟩
      simp [FailsUnchanged, call, status]
    · have key := release_free v taken
      refine ⟨by simpa [call, key] using v, by simp [call, setCall, key, taken], ?_⟩
      simp [FailsUnchanged, call, key]

theorem run_refines {ops : List Op} (h : Guarded step (fun r op => op.Ok r) [] ops) :
    Valid (run step [] ops) ∧ tokens (run step [] ops) = run setStep ∅ ops := by
  induction ops using List.reverseRecOn with
  | nil => exact ⟨valid_nil, rfl⟩
  | append_singleton ops op ih =>
    obtain ⟨before, last⟩ := guarded_append.mp h
    obtain ⟨v, mem⟩ := ih before
    obtain ⟨valid, refines, -⟩ := call_refines v last.1
    rw [run_append, run_append, ← mem]
    exact ⟨valid, congrArg Prod.fst refines⟩

/-- Along every run whose acquisitions find a free token, the run list stands for the set the
abstract operations build, answers like it, and stays sorted and separated. -/
theorem tokenizer_refines_finite_set (ops : List Op)
    (h : Guarded step (fun r op => op.Ok r) [] ops) :
    WellFormed ((run step [] ops).map Run.span) ∧
      tokens (run step [] ops) = run setStep ∅ ops ∧
      (∀ t : UInt32, isAcquired (run step [] ops) t = true ↔ t.toNat ∈ run setStep ∅ ops) ∧
      ∀ op : Op, op.Ok (run step [] ops) →
        (call (run step [] ops) op).2 = (setCall (run setStep ∅ ops) op).2 ∧
          FailsUnchanged (run step [] ops) op := by
  obtain ⟨v, mem⟩ := run_refines h
  refine ⟨v.wellFormed, mem, fun t => by rw [isAcquired_iff v, mem], fun op ok => ?_⟩
  obtain ⟨-, refines, unchanged⟩ := call_refines v ok
  rw [← mem]
  exact ⟨congrArg Prod.snd refines, unchanged⟩

theorem tokenizer_refines_three_calls :
    tokens (run step [] [.acquire, .reserve 2, .release 0]) =
      run setStep ∅ [.acquire, .reserve 2, .release 0] :=
  (tokenizer_refines_finite_set [.acquire, .reserve 2, .release 0]
    ⟨⟨trivial, 0, by decide, by decide +kernel⟩, ⟨by simp [Op.InDomain], trivial⟩,
      ⟨by simp [Op.InDomain], trivial⟩, trivial⟩).2.1

theorem run_acquire (n : Nat) (pos : 0 < n) (h : n ≤ 2 ^ 32) :
    run step [] (List.replicate n Op.acquire) = [⟨0, UInt32.ofNat n⟩] := by
  induction n with
  | zero => omega
  | succ n ih =>
    rcases Nat.eq_zero_or_pos n with rfl | hn
    · rfl
    rw [List.replicate_succ', run_append, ih hn (by omega), run_cons, run_nil]
    have grown : UInt32.ofNat (n + 1) = UInt32.ofNat n + 1 := UInt32.ofNat_add n 1
    simp [step, call, acquire, insertTokenAt, Run.stop, grown]

/-- After `2^32` acquisitions the length of the only run has wrapped to zero. -/
theorem tokenizer_exhausted_not_wellFormed :
    (∀ op ∈ List.replicate (2 ^ 32) Op.acquire, op.InDomain) ∧
      ¬WellFormed ((run step [] (List.replicate (2 ^ 32) Op.acquire)).map Run.span) := by
  refine ⟨fun op hop => ?_, fun wf => ?_⟩
  · rw [(List.mem_replicate.mp hop).2]
    trivial
  rw [run_acquire _ (Nat.two_pow_pos 32) (Nat.le_refl _)] at wf
  have pos := wf.nonempty (Run.span ⟨0, UInt32.ofNat (2 ^ 32)⟩) (by simp)
  simp [Run.span] at pos

end RabbitRender.Tokens.Tokenizer
