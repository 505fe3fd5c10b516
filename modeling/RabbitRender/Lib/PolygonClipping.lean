/- RabbitRender/Lib/PolygonClipping
   layer: library
   digest: A polygon clipped by a half-plane keeps its direction and what is inside; where more than
     two sides cross the border it lies in a line. -/

import RabbitRender.Lib.ConvexPolygons
import Mathlib.LinearAlgebra.AffineSpace.AffineMap

set_option autoImplicit false

namespace RabbitRender.Lib.PolygonClipping

open Lib.ConvexPolygons

section Lists

variable {α K : Type} [Field K] [LinearOrder K] (d : α → K) (cut : α → α → α)

/-- What is left of a side: its second corner, where it is inside, and new corners, which are made
of an inner and an outer one. -/
def emit (s p : α) : List α :=
  if 0 ≤ d s then if 0 ≤ d p then [p] else [cut s p]
  else if 0 ≤ d p then if d p ≠ 0 then [cut p s, p] else [p]
  else []

/-- The sides of a list, the first of them from `s`. -/
def clipped (s : α) : List α → List α
  | [] => []
  | p :: rest => emit d cut s p ++ clipped p rest

/-- A corner on the border, where the ends of a side are on different sides of it. -/
def border (s p : α) : List α :=
  if 0 ≤ d s ∧ d p < 0 then [cut s p] else if d s < 0 ∧ 0 < d p then [cut p s] else []

def bordered (s : α) : List α → List α
  | [] => []
  | p :: rest => border d cut s p ++ p :: bordered p rest

def Alternate (a b : α) : Prop := ¬(0 ≤ d a ↔ 0 ≤ d b)

def crossings (s : α) : List α → Nat
  | [] => 0
  | p :: rest => (border d cut s p).length + crossings p rest

variable {d cut}

theorem Alternate.below {a b : α} (alternate : Alternate d a b) (inside : 0 ≤ d a) : d b < 0 :=
  not_le.mp fun other => alternate (iff_of_true inside other)

theorem Alternate.above {a b : α} (alternate : Alternate d a b) (below : d a < 0) : 0 ≤ d b := by
  by_contra other
  exact alternate (iff_of_false (not_le.mpr below) other)

theorem exists_alternating {s : α} {l : List α} {n : Nat} (many : n ≤ crossings d cut s l) :
    ∃ u rest, rest.length = n ∧ (u :: rest).IsChain (Alternate d) ∧
      (u :: rest).Sublist (s :: l) ∧ (0 ≤ d u ↔ 0 ≤ d s) := by
  induction l generalizing s n with
  | nil =>
    obtain rfl : n = 0 := Nat.le_zero.mp many
    exact ⟨s, [], rfl, List.isChain_singleton s, List.Sublist.refl _, Iff.rfl⟩
  | cons p l ih =>
    unfold crossings at many
    by_cases same : 0 ≤ d s ↔ 0 ≤ d p
    · have none : border d cut s p = [] := by
        unfold border
        rw [if_neg fun exits => absurd (same.mp exits.1) (not_le.mpr exits.2),
          if_neg fun enters => absurd (same.mpr enters.2.le) (not_le.mpr enters.1)]
      rw [none, List.length_nil, Nat.zero_add] at many
      obtain ⟨u, rest, length, chain, sub, sign⟩ := ih many
      exact ⟨u, rest, length, chain, sub.cons _, sign.trans same.symm⟩
    · have one : (border d cut s p).length ≤ 1 := by
        unfold border
        split_ifs <;> simp
      cases n with
      | zero =>
        exact ⟨s, [], rfl, List.isChain_singleton s, (List.nil_sublist _).cons_cons _, Iff.rfl⟩
      | succ n =>
        obtain ⟨u, rest, length, chain, sub, sign⟩ := ih (s := p) (n := n) (by omega)
        refine ⟨s, u :: rest, by rw [List.length_cons, length], ?_, sub.cons_cons _, Iff.rfl⟩
        refine List.isChain_cons_cons.mpr ⟨?_, chain⟩
        intro other
        exact same (other.trans sign)

theorem map_clipped {β : Type} {d' : β → K} {cut' : β → β → β} {g : α → β}
    (distance : ∀ a, d' (g a) = d a) (corner : ∀ a b, g (cut a b) = cut' (g a) (g b)) (s : α)
    (l : List α) : (clipped d cut s l).map g = clipped d' cut' (g s) (l.map g) := by
  induction l generalizing s with
  | nil => rfl
  | cons p l ih =>
    have side : (emit d cut s p).map g = emit d' cut' (g s) (g p) := by
      unfold emit
      rw [distance, distance]
      split_ifs <;> simp only [List.map_cons, List.map_nil, corner]
    rw [clipped, List.map_append, ih, side]
    rfl

theorem crossings_map {β : Type} {d' : β → K} {cut' : β → β → β} {g : α → β}
    (distance : ∀ a, d' (g a) = d a) (s : α) (l : List α) :
    crossings d' cut' (g s) (l.map g) = crossings d cut s l := by
  induction l generalizing s with
  | nil => rfl
  | cons p l ih =>
    have side : (border d' cut' (g s) (g p)).length = (border d cut s p).length := by
      unfold border
      rw [distance, distance]
      split_ifs <;> rfl
    rw [List.map_cons, crossings, ih, side]
    rfl

theorem exists_insert {l part : List α} {m : α} (sub : part.Sublist l) (member : m ∈ l) :
    m ∈ part ∨ ∃ l₁ l₂, part = l₁ ++ l₂ ∧ (l₁ ++ m :: l₂).Sublist l := by
  induction sub with
  | slnil => exact absurd member List.not_mem_nil
  | cons a sub ih =>
    rcases List.mem_cons.mp member with rfl | later
    · exact .inr ⟨[], _, rfl, sub.cons_cons _⟩
    · rcases ih later with inner | ⟨l₁, l₂, parts, whole⟩
      · exact .inl inner
      · exact .inr ⟨l₁, l₂, parts, whole.cons a⟩
  | cons_cons a sub ih =>
    rcases List.mem_cons.mp member with rfl | later
    · exact .inl List.mem_cons_self
    · rcases ih later with inner | ⟨l₁, l₂, parts, whole⟩
      · exact .inl (List.mem_cons_of_mem _ inner)
      · exact .inr ⟨a :: l₁, l₂, by rw [parts, List.cons_append], whole.cons_cons a⟩

end Lists

section Planes

variable {K : Type} [Field K] (f : K × K →ᵃ[K] K)

def cross (inner outer : K × K) : K × K :=
  inner + (f inner / (f inner - f outer)) • (outer - inner)

variable {f}

theorem map_between (t : K) (s p : K × K) : f (s + t • (p - s)) = f s + t * (f p - f s) := by
  rw [f.decomp]
  simp only [Pi.add_apply, map_add, map_smul, map_sub, smul_eq_mul]
  ring

theorem map_weights {α β γ : K} (sum : α + β + γ = 1) (a b c : K × K) :
    f (α • a + β • b + γ • c) = α * f a + β * f b + γ * f c := by
  have first : α = 1 - β - γ := by linear_combination sum
  rw [f.decomp]
  simp only [Pi.add_apply, map_add, map_smul, smul_eq_mul]
  rw [first]
  ring

theorem map_relation (a b c d : K × K) :
    turn b c d * f a + turn a b d * f c = turn a c d * f b + turn a b c * f d := by
  have points := congrArg f.linear (turn_relation a b c d)
  have turns := turn_sum a b c d
  simp only [map_add, map_smul, smul_eq_mul] at points
  rw [f.decomp]
  simp only [Pi.add_apply]
  linear_combination points + f 0 * turns

theorem map_cross {s p : K × K} (other : f s - f p ≠ 0) : f (cross f s p) = 0 := by
  have product : f s / (f s - f p) * (f s - f p) = f s := div_mul_cancel₀ _ other
  rw [cross, map_between]
  linear_combination -product

variable [LinearOrder K] [IsStrictOrderedRing K]

theorem cross_between {s p : K × K} (inside : 0 ≤ f s) (outside : f p < 0) :
    ∃ t : K, (0 ≤ t ∧ t ≤ 1) ∧ cross f s p = s + t • (p - s) := by
  have positive : 0 < f s - f p := by linarith
  exact ⟨_, ⟨div_nonneg inside positive.le, (div_le_one positive).mpr (by linarith)⟩, rfl⟩

theorem emit_eq_filter (s p : K × K) :
    emit f (cross f) s p = (border f (cross f) s p ++ [p]).filter (0 ≤ f ·) := by
  have corner {a b : K × K} (outside : f b < 0) (inside : 0 ≤ f a) : 0 ≤ f (cross f a b) := by
    rw [map_cross (by linarith)]
  have keep {a : K × K} (l : List (K × K)) (inside : 0 ≤ f a) :
      (a :: l).filter (0 ≤ f ·) = a :: l.filter (0 ≤ f ·) :=
    List.filter_cons_of_pos (decide_eq_true inside)
  have drop {a : K × K} (l : List (K × K)) (outside : ¬0 ≤ f a) :
      (a :: l).filter (0 ≤ f ·) = l.filter (0 ≤ f ·) :=
    List.filter_cons_of_neg fun inside => outside (of_decide_eq_true inside)
  unfold emit border
  by_cases first : 0 ≤ f s
  · by_cases last : 0 ≤ f p
    · rw [if_pos first, if_pos last, if_neg fun exits => absurd last (not_le.mpr exits.2),
        if_neg fun enters => absurd first (not_le.mpr enters.1), List.nil_append, keep _ last,
        List.filter_nil]
    · have outside := not_le.mp last
      rw [if_pos first, if_neg last, if_pos ⟨first, outside⟩, List.singleton_append,
        keep _ (corner outside first), drop _ last, List.filter_nil]
  · have outside := not_le.mp first
    rw [if_neg first, if_neg (c := 0 ≤ f s ∧ f p < 0) fun exits => first exits.1]
    by_cases last : 0 ≤ f p
    · by_cases zero : f p = 0
      · rw [if_pos last, if_neg (not_not.mpr zero), if_neg fun enters => absurd zero enters.2.ne',
          List.nil_append, keep _ last, List.filter_nil]
      · rw [if_pos last, if_pos zero, if_pos ⟨outside, lt_of_le_of_ne last (Ne.symm zero)⟩,
          List.singleton_append, keep _ (corner outside last), keep _ last, List.filter_nil]
    · rw [if_neg last, if_neg fun enters => last enters.2.le, List.nil_append, drop _ last,
        List.filter_nil]

theorem clipped_eq_filter (s : K × K) (l : List (K × K)) :
    clipped f (cross f) s l = (bordered f (cross f) s l).filter (0 ≤ f ·) := by
  induction l generalizing s with
  | nil => rfl
  | cons p l ih =>
    have side : bordered f (cross f) s (p :: l) =
        (border f (cross f) s p ++ [p]) ++ bordered f (cross f) p l := by
      rw [bordered, List.append_assoc, List.singleton_append]
    rw [clipped, side, List.filter_append, ih, emit_eq_filter]

theorem turning_insert {l l' : List (K × K)} {s p : K × K} (turning : Turning (l ++ s :: p :: l'))
    {t : K} (low : 0 ≤ t) (high : t ≤ 1) :
    Turning (l ++ s :: (s + t • (p - s)) :: p :: l') := by
  have mix {b c : K × K} (first : 0 ≤ turn s b c) (last : 0 ≤ turn p b c) :
      0 ≤ turn (s + t • (p - s)) b c := by
    rw [turn_between]
    exact add_nonneg (mul_nonneg (sub_nonneg.mpr high) first) (mul_nonneg low last)
  have split : l ++ s :: p :: l' = (l ++ [s]) ++ p :: l' := by
    rw [List.append_assoc, List.singleton_append]
  have three {a b c : K × K} {m m' : List (K × K)} (before : m.Sublist (l ++ [s]))
      (after : m'.Sublist (p :: l')) (all : [a, b, c] = m ++ m') : 0 ≤ turn a b c := by
    apply turning
    rw [split, all]
    exact before.append after
  intro a b c sub
  have place : l ++ s :: (s + t • (p - s)) :: p :: l' =
      (l ++ [s]) ++ (s + t • (p - s)) :: p :: l' := by
    rw [List.append_assoc, List.singleton_append]
  rw [place] at sub
  obtain ⟨m, m', all, before, after⟩ := List.sublist_append_iff.mp sub
  rcases List.sublist_cons_iff.mp after with later | ⟨rest, rfl, later⟩
  · exact three before later all
  · -- the new corner is one of the three
    match m, all, before with
    | [], all, before =>
      simp only [List.nil_append, List.cons.injEq] at all
      obtain ⟨rfl, rfl⟩ := all
      apply mix
      · exact three (List.singleton_sublist.mpr (List.mem_append_right _ List.mem_cons_self)) later
          rfl
      · rcases pair_cases later with rfl | pair
        · exact (turn_first _ _).ge
        · exact three (List.nil_sublist _) (pair.cons_cons p) rfl
    | [a'], all, before =>
      simp only [List.singleton_append, List.cons.injEq] at all
      obtain ⟨rfl, rfl, rfl⟩ := all
      have first : a ∈ l ++ [s] := List.singleton_sublist.mp before
      have last : c ∈ p :: l' := List.singleton_sublist.mp later
      rw [← turn_rotate a]
      apply mix
      · rw [turn_rotate a]
        rcases List.mem_append.mp first with inner | ends
        · exact three ((List.singleton_sublist.mpr inner).append (List.Sublist.refl [s])) later rfl
        · rw [List.mem_singleton.mp ends]
          exact (turn_first _ _).ge
      · rw [turn_rotate a]
        rcases List.mem_cons.mp last with rfl | inner
        · exact (turn_last _ _).ge
        · exact three before ((List.singleton_sublist.mpr inner).cons_cons p) rfl
    | [a', b'], all, before =>
      simp only [List.cons_append, List.nil_append, List.cons.injEq] at all
      obtain ⟨rfl, rfl, rfl, rfl⟩ := all
      rw [turn_rotate]
      apply mix
      · rw [← turn_rotate]
        rcases pair_cases_last before with rfl | pair
        · exact (turn_last _ _).ge
        · exact three (pair.append (List.Sublist.refl [s])) (List.nil_sublist _) rfl
      · rw [← turn_rotate]
        exact three before (List.singleton_sublist.mpr List.mem_cons_self) rfl
    | a' :: b' :: c' :: m, all, before =>
      have lengths := congrArg List.length all
      simp only [List.length_cons, List.length_nil, List.length_append] at lengths
      omega

theorem turning_bordered {l l' : List (K × K)} {s : K × K} (turning : Turning (l ++ s :: l')) :
    Turning (l ++ s :: bordered f (cross f) s l') := by
  induction l' generalizing l s with
  | nil => exact turning
  | cons p l' ih =>
    have next : Turning (l ++ s :: (border f (cross f) s p ++ p :: l')) := by
      unfold border
      split_ifs with exits enters
      · obtain ⟨t, ⟨low, high⟩, place⟩ := cross_between exits.1 exits.2
        rw [List.singleton_append, place]
        exact turning_insert turning low high
      · obtain ⟨t, ⟨low, high⟩, place⟩ := cross_between enters.2.le enters.1
        have back : p + t • (s - p) = s + (1 - t) • (p - s) := by module
        rw [List.singleton_append, place, back]
        exact turning_insert turning (sub_nonneg.mpr high) (sub_le_self _ low)
      · exact turning
    have moved : l ++ s :: (border f (cross f) s p ++ p :: l') =
        (l ++ s :: border f (cross f) s p) ++ p :: l' := by
      rw [List.append_assoc, List.cons_append]
    rw [moved] at next
    have rest := ih next
    rw [List.append_assoc, List.cons_append] at rest
    exact rest

variable (f) in
def Adjacent (u v : K × K) : Prop := ¬(0 < f u ∧ f v < 0) ∧ ¬(f u < 0 ∧ 0 < f v)

omit [IsStrictOrderedRing K] in
theorem adjacent_zero {u v : K × K} (border : f u = 0 ∨ f v = 0) : Adjacent f u v := by
  unfold Adjacent
  rcases border with zero | zero <;> rw [zero]
  · exact ⟨fun both => lt_irrefl _ both.1, fun both => lt_irrefl _ both.1⟩
  · exact ⟨fun both => lt_irrefl _ both.2, fun both => lt_irrefl _ both.2⟩

theorem chain_bordered (s : K × K) (l : List (K × K)) :
    (s :: bordered f (cross f) s l).IsChain (Adjacent f) := by
  induction l generalizing s with
  | nil => exact List.isChain_singleton s
  | cons p l ih =>
    rw [bordered]
    unfold border
    split_ifs with exits enters
    · have zero : f (cross f s p) = 0 := map_cross (by linarith)
      exact List.isChain_cons_cons.mpr ⟨adjacent_zero (.inr zero),
        List.isChain_cons_cons.mpr ⟨adjacent_zero (.inl zero), ih p⟩⟩
    · have zero : f (cross f p s) = 0 := map_cross (by linarith)
      exact List.isChain_cons_cons.mpr ⟨adjacent_zero (.inr zero),
        List.isChain_cons_cons.mpr ⟨adjacent_zero (.inl zero), ih p⟩⟩
    · refine List.isChain_cons_cons.mpr ⟨⟨?_, enters⟩, ih p⟩
      exact fun both => exits ⟨both.1.le, both.2⟩

omit [IsStrictOrderedRing K] in
theorem getLast_bordered {s p : K × K} {l : List (K × K)} (last : (p :: l).getLast? = some s)
    (first : K × K) : (bordered f (cross f) first (p :: l)).getLast? = some s := by
  induction l generalizing first p with
  | nil =>
    rw [bordered, List.getLast?_append_of_ne_nil _ (List.cons_ne_nil _ _)]
    exact last
  | cons q l ih =>
    rw [List.getLast?_cons_cons] at last
    have rest := ih last p
    rw [bordered, List.getLast?_append_of_ne_nil _ (List.cons_ne_nil _ _), List.getLast?_cons, rest]
    rfl

theorem triangle_inside {b q r x : K × K} {l : List (K × K)} (zero : f b = 0)
    (adjacent : Adjacent f q r) (base : b ∈ l) (first : q ∈ l) (last : r ∈ l)
    (here : x ∈ triangle (b, q, r)) (inside : 0 ≤ f x) : x ∈ hull (l.filter (0 ≤ f ·)) := by
  have keep {a : K × K} (member : a ∈ l) (side : 0 ≤ f a) : a ∈ l.filter (0 ≤ f ·) :=
    List.mem_filter.mpr ⟨member, decide_eq_true side⟩
  by_cases both : 0 ≤ f q ∧ 0 ≤ f r
  · exact triangle_subset (keep base zero.ge) (keep first both.1) (keep last both.2) here
  · -- none of the corners is strictly inside, so that only those on the border have weights
    obtain ⟨α, β, γ, ⟨α0, β0, γ0⟩, sum, rfl⟩ := mem_hull_three.mp here
    rw [map_weights sum, zero, mul_zero, zero_add] at inside
    have outside : f q ≤ 0 ∧ f r ≤ 0 := by
      rcases not_and_or.mp both with one | other
      · exact ⟨(not_le.mp one).le, not_lt.mp fun far => adjacent.2 ⟨not_le.mp one, far⟩⟩
      · exact ⟨not_lt.mp fun far => adjacent.1 ⟨far, not_le.mp other⟩, (not_le.mp other).le⟩
    have qw := mul_nonpos_of_nonneg_of_nonpos β0 outside.1
    have rw := mul_nonpos_of_nonneg_of_nonpos γ0 outside.2
    have swap {w : K} {a : K × K} (weight : w * f a = 0) (side : f a ≤ 0) (member : a ∈ l) :
        ∃ a' ∈ l.filter (0 ≤ f ·), w • a = w • a' := by
      rcases mul_eq_zero.mp weight with none | border
      · exact ⟨b, keep base zero.ge, by rw [none, zero_smul, zero_smul]⟩
      · exact ⟨a, keep member border.ge, rfl⟩
    obtain ⟨q', q'member, qsame⟩ := swap (by linarith : β * f q = 0) outside.1 first
    obtain ⟨r', r'member, rsame⟩ := swap (by linarith : γ * f r = 0) outside.2 last
    rw [qsame, rsame]
    exact triangle_subset (keep base zero.ge) q'member r'member
      (mem_hull_three.mpr ⟨α, β, γ, ⟨α0, β0, γ0⟩, sum, rfl⟩)

omit [IsStrictOrderedRing K] in
theorem one_side {s : K × K} {l : List (K × K)} (chain : (s :: l).IsChain (Adjacent f))
    (off : ∀ x ∈ s :: l, f x ≠ 0) : (∀ x ∈ s :: l, 0 < f x) ∨ ∀ x ∈ s :: l, f x < 0 := by
  induction l generalizing s with
  | nil =>
    have only {P : K × K → Prop} (first : P s) : ∀ x ∈ [s], P x := by
      intro x member
      rw [List.mem_singleton.mp member]
      exact first
    rcases lt_or_gt_of_ne (off s List.mem_cons_self) with outside | inside
    · exact .inr (only outside)
    · exact .inl (only inside)
  | cons p l ih =>
    obtain ⟨step, later⟩ := List.isChain_cons_cons.mp chain
    have first := lt_or_gt_of_ne (off s List.mem_cons_self)
    rcases ih later fun x member => off x (List.mem_cons_of_mem _ member) with inside | outside
    · refine .inl (List.forall_mem_cons.mpr ⟨?_, inside⟩)
      exact first.resolve_left fun other => step.2 ⟨other, inside p List.mem_cons_self⟩
    · refine .inr (List.forall_mem_cons.mpr ⟨?_, outside⟩)
      exact first.resolve_right fun other => step.1 ⟨other, outside p List.mem_cons_self⟩

theorem hull_outside {l : List (K × K)} (outside : ∀ x ∈ l, f x < 0) {x : K × K}
    (here : x ∈ hull l) : f x < 0 := by
  have convex : Convex K (Set.preimage f (Set.Iio 0)) := (convex_Iio (0 : K)).affine_preimage f
  exact convexHull_min (fun a member => outside a member) convex here

theorem hull_inside {l : List (K × K)} (inside : ∀ x ∈ l, 0 ≤ f x) {x : K × K}
    (here : x ∈ hull l) : 0 ≤ f x := by
  have convex : Convex K (Set.preimage f (Set.Ici 0)) := (convex_Ici (0 : K)).affine_preimage f
  exact convexHull_min (fun a member => inside a member) convex here

theorem mem_hull_filter {l : List (K × K)} {s x : K × K} (turning : Turning l)
    (chain : (s :: l).IsChain (Adjacent f)) (last : l.getLast? = some s) (three : 3 ≤ l.length)
    (here : x ∈ hull l) (inside : 0 ≤ f x) : x ∈ hull (l.filter (0 ≤ f ·)) := by
  by_cases border : ∃ b ∈ l, f b = 0
  · -- the fan is taken from a corner on the border
    obtain ⟨b, member, zero⟩ := border
    obtain ⟨l₁, l₂, rfl⟩ := List.append_of_mem member
    have rotated : Turning (b :: (l₂ ++ l₁)) := turning_rotate turning
    have length : 2 ≤ (l₂ ++ l₁).length := by
      simp only [List.length_append, List.length_cons] at three ⊢
      omega
    have same (a : K × K) : a ∈ b :: (l₂ ++ l₁) ↔ a ∈ l₁ ++ b :: l₂ := by
      simp only [List.mem_cons, List.mem_append]
      tauto
    have turned : (l₂ ++ l₁).IsChain (Adjacent f) := by
      have whole := chain.tail
      rw [List.tail_cons] at whole
      obtain ⟨first, later, _⟩ := List.isChain_append.mp whole
      refine List.isChain_append.mpr ⟨later.tail, first, ?_⟩
      intro u ends v begins
      have final : s = u := by
        have tail : l₂ ≠ [] := by
          rintro rfl
          exact absurd ends nofun
        rw [List.getLast?_append_of_ne_nil _ (List.cons_ne_nil _ _)] at last
        obtain ⟨c, l₂, rfl⟩ := List.exists_cons_of_ne_nil tail
        rw [List.getLast?_cons_cons] at last
        exact Option.some.inj (last.symm.trans ends)
      rw [← final]
      apply chain.rel_head?
      rw [List.head?_append, Option.mem_def.mp begins]
      rfl
    have here' := hull_mono (fun a member => (same a).mpr member) here
    match l₂ ++ l₁, length, rotated, turned, same, here' with
    | p1 :: p2 :: rest, _, rotated, turned, same, here' =>
      obtain ⟨t, member, drawn⟩ := exists_mem_fan rotated here'
      obtain ⟨base, sub⟩ := mem_fan member
      have corners := sub.subset
      obtain ⟨b', q, r⟩ := t
      obtain rfl : b' = b := base
      exact triangle_inside zero (fan_chain turned member) ((same _).mp List.mem_cons_self)
        ((same _).mp (List.mem_cons_of_mem _ (corners List.mem_cons_self)))
        ((same _).mp (List.mem_cons_of_mem _ (corners (List.mem_cons_of_mem _ List.mem_cons_self))))
        drawn inside
  · have ends : s ∈ l := List.mem_of_getLast? last
    have off : ∀ a ∈ s :: l, f a ≠ 0 := by
      intro a member zero
      rcases List.mem_cons.mp member with rfl | member
      · exact border ⟨a, ends, zero⟩
      · exact border ⟨a, member, zero⟩
    rcases one_side chain off with all | none
    · have whole : l.filter (0 ≤ f ·) = l :=
        List.filter_eq_self.mpr fun a member =>
          decide_eq_true (all a (List.mem_cons_of_mem _ member)).le
      rwa [whole]
    · exact absurd (hull_outside (fun a member => none a (List.mem_cons_of_mem _ member)) here)
        (not_lt.mpr inside)

omit [IsStrictOrderedRing K] in
theorem sublist_bordered (s : K × K) (l : List (K × K)) :
    l.Sublist (bordered f (cross f) s l) := by
  induction l generalizing s with
  | nil => exact List.Sublist.refl []
  | cons p l ih => exact ((ih p).cons_cons p).trans (List.sublist_append_right _ _)

theorem hull_bordered {s x : K × K} {l : List (K × K)} (member : x ∈ bordered f (cross f) s l) :
    x ∈ hull (s :: l) := by
  induction l generalizing s with
  | nil => exact absurd member List.not_mem_nil
  | cons p l ih =>
    have ends {t : K} (low : 0 ≤ t) (high : t ≤ 1) : s + t • (p - s) ∈ hull (s :: p :: l) := by
      apply (hull_cons (List.cons_ne_nil _ _)).mpr
      exact ⟨p, mem_hull List.mem_cons_self, t, ⟨low, high⟩, rfl⟩
    rw [bordered] at member
    rcases List.mem_append.mp member with new | old
    · unfold border at new
      split_ifs at new with exits enters
      · obtain ⟨t, ⟨low, high⟩, place⟩ := cross_between exits.1 exits.2
        rw [List.mem_singleton.mp new, place]
        exact ends low high
      · obtain ⟨t, ⟨low, high⟩, place⟩ := cross_between enters.2.le enters.1
        have back : p + t • (s - p) = s + (1 - t) • (p - s) := by module
        rw [List.mem_singleton.mp new, place, back]
        exact ends (sub_nonneg.mpr high) (sub_le_self _ low)
      · exact absurd new List.not_mem_nil
    · rcases List.mem_cons.mp old with rfl | later
      · exact mem_hull (List.mem_cons_of_mem _ List.mem_cons_self)
      · exact hull_mono (fun a member => List.mem_cons_of_mem _ member) (ih later)

theorem clipped_spec {l : List (K × K)} {s : K × K} (turning : Turning l)
    (last : l.getLast? = some s) (three : 3 ≤ l.length) :
    Turning (clipped f (cross f) s l) ∧
      ∀ x, x ∈ hull (clipped f (cross f) s l) ↔ x ∈ hull l ∧ 0 ≤ f x := by
  obtain ⟨l', rfl⟩ : ∃ l', l = l' ++ [s] := List.getLast?_eq_some_iff.mp last
  have closed := turning_closed turning
  have bordering : Turning (bordered f (cross f) s (l' ++ [s])) := by
    have whole : Turning ([] ++ s :: bordered f (cross f) s (l' ++ [s])) :=
      turning_bordered (l := []) closed
    exact whole.sublist (List.sublist_cons_self _ _)
  have ends : (bordered f (cross f) s (l' ++ [s])).getLast? = some s := by
    cases l' with
    | nil => exact getLast_bordered last s
    | cons p l' => exact getLast_bordered last s
  have within {x : K × K} (here : x ∈ hull (bordered f (cross f) s (l' ++ [s]))) :
      x ∈ hull (l' ++ [s]) := by
    refine convexHull_min (fun a member => ?_) (convex_convexHull K _) here
    apply hull_mono _ (hull_bordered member)
    intro c corner
    rcases List.mem_cons.mp corner with rfl | corner
    · exact List.mem_append_right _ List.mem_cons_self
    · exact corner
  rw [clipped_eq_filter]
  refine ⟨bordering.sublist List.filter_sublist, fun x => ⟨fun here => ⟨?_, ?_⟩, ?_⟩⟩
  · exact within (hull_mono (fun a member => List.mem_of_mem_filter member) here)
  · exact hull_inside (fun a member => of_decide_eq_true (List.mem_filter.mp member).2) here
  · rintro ⟨here, inside⟩
    have sub := sublist_bordered (f := f) s (l' ++ [s])
    exact mem_hull_filter bordering (chain_bordered s _) ends (three.trans sub.length_le)
      (hull_mono (fun a member => sub.subset member) here) inside

theorem line_of_alternating {a b c d : K × K} {l : List (K × K)} (turning : Turning l)
    (sub : [a, b, c, d].Sublist l) (chain : [a, b, c, d].IsChain (Alternate f)) :
    (turn b c d = 0 ∧ turn a c d = 0) ∧ turn a b d = 0 ∧ turn a b c = 0 := by
  obtain ⟨⟨bcd, acd⟩, abd, abc⟩ := turning.quadrangle sub
  have relation := map_relation (f := f) a b c d
  have turns := turn_sum a b c d
  simp only [List.isChain_cons_cons] at chain
  obtain ⟨ab, bc, cd, _⟩ := chain
  have split {w x y z s t : K} (w0 : 0 ≤ w) (x0 : 0 ≤ x) (s0 : s < 0) (t0 : t < 0)
      (sum : 0 ≤ w * s + x * t) (balance : y + z = w + x) (y0 : 0 ≤ y) (z0 : 0 ≤ z) :
      (w = 0 ∧ x = 0) ∧ y = 0 ∧ z = 0 := by
    have first := mul_nonpos_of_nonneg_of_nonpos w0 s0.le
    have second := mul_nonpos_of_nonneg_of_nonpos x0 t0.le
    have w1 := (mul_eq_zero.mp (by linarith : w * s = 0)).resolve_right s0.ne
    have x1 := (mul_eq_zero.mp (by linarith : x * t = 0)).resolve_right t0.ne
    exact ⟨⟨w1, x1⟩, by linarith, by linarith⟩
  by_cases inside : 0 ≤ f a
  · have fb := ab.below inside
    have fc := bc.above fb
    have fd := cd.below fc
    have left := add_nonneg (mul_nonneg bcd inside) (mul_nonneg abd fc)
    obtain ⟨⟨h1, h2⟩, h3, h4⟩ :=
      split acd abc fb fd (by linarith) turns bcd abd
    exact ⟨⟨h3, h1⟩, h4, h2⟩
  · have fa := not_le.mp inside
    have fb := ab.above fa
    have fc := bc.below fb
    have fd := cd.above fc
    have right := add_nonneg (mul_nonneg acd fb) (mul_nonneg abc fd)
    obtain ⟨⟨h1, h2⟩, h3, h4⟩ :=
      split bcd abd fa fc (by linarith) turns.symm acd abc
    exact ⟨⟨h1, h3⟩, h2, h4⟩

theorem line_of_three {a b c m : K × K} {l : List (K × K)} (turning : Turning l)
    (sub : [a, b, c, m].Sublist l) (ab : Alternate f a b) (bc : Alternate f b c)
    (line : turn a b c = 0) : turn a b m = 0 := by
  obtain ⟨⟨bcm, acm⟩, abm, _⟩ := turning.quadrangle sub
  have relation := map_relation (f := f) a b c m
  have turns := turn_sum a b c m
  rw [line, zero_mul, add_zero] at relation
  rw [line, add_zero] at turns
  by_cases inside : 0 ≤ f a
  · have fb := ab.below inside
    have fc := bc.above fb
    have left := add_nonneg (mul_nonneg bcm inside) (mul_nonneg abm fc)
    have right := mul_nonpos_of_nonneg_of_nonpos acm fb.le
    have none := (mul_eq_zero.mp (by linarith : turn a c m * f b = 0)).resolve_right fb.ne
    linarith
  · have fa := not_le.mp inside
    have fb := ab.above fa
    have fc := bc.below fb
    have right := mul_nonneg acm fb
    have first := mul_nonpos_of_nonneg_of_nonpos bcm fa.le
    have second := mul_nonpos_of_nonneg_of_nonpos abm fc.le
    exact (mul_eq_zero.mp (by linarith : turn a b m * f c = 0)).resolve_right fc.ne

theorem flat_of_alternating {a b c d : K × K} {l : List (K × K)} (turning : Turning l)
    (sub : [a, b, c, d].Sublist l) (chain : [a, b, c, d].IsChain (Alternate f)) :
    Flat (hull l) := by
  obtain ⟨⟨bcd, acd⟩, abd, abc⟩ := line_of_alternating turning sub chain
  simp only [List.isChain_cons_cons] at chain
  obtain ⟨ab, bc, cd, _⟩ := chain
  have da : Alternate f d a := by
    unfold Alternate at *
    tauto
  have other : b ≠ a := by
    rintro rfl
    exact ab Iff.rfl
  apply flat_of_line other
  apply line_hull
  -- the line of two corners is that of the first two
  have first {u v m : K × K} (hu : turn a b u = 0) (hv : turn a b v = 0)
      (uv : Alternate f u v) (line : turn u v m = 0) : turn a b m = 0 := by
    obtain ⟨r, rfl⟩ := eq_of_turn_zero other hu
    obtain ⟨w, rfl⟩ := eq_of_turn_zero other hv
    rw [turn_along, add_sub_cancel] at line
    refine (mul_eq_zero.mp line).resolve_left fun same => ?_
    rw [sub_eq_zero.mp same] at uv
    exact uv Iff.rfl
  have cyclic {x y z w m : K × K} {m₁ m₂ : List (K × K)} (whole : (m₁ ++ m :: m₂).Sublist l)
      (rotation : m₂ ++ m₁ = [x, y, z, w]) (hx : turn a b x = 0) (hy : turn a b y = 0)
      (xy : Alternate f x y) (yz : Alternate f y z) (line : turn x y z = 0) : turn a b m = 0 := by
    have part : Turning ((m₁ ++ [m]) ++ m₂) := by
      rw [List.append_assoc, List.singleton_append]
      exact turning.sublist whole
    have turned := turning_rotate part
    rw [← List.append_assoc, rotation] at turned
    have order : [x, y, z, m].Sublist ([x, y, z, w] ++ [m]) :=
      ((((List.sublist_cons_self w [m])).cons_cons z).cons_cons y).cons_cons x
    exact first hx hy xy (line_of_three turned order xy yz line)
  intro m member
  rcases exists_insert sub member with corner | ⟨m₁, m₂, parts, whole⟩
  · simp only [List.mem_cons, List.not_mem_nil, or_false] at corner
    rcases corner with rfl | rfl | rfl | rfl
    · exact turn_ends _ _
    · exact turn_last _ _
    · exact abc
    · exact abd
  · have aba : turn a b a = 0 := turn_ends a b
    have abb : turn a b b = 0 := turn_last a b
    match m₁, parts, whole with
    | [], parts, whole =>
      rw [List.nil_append] at parts
      exact cyclic whole (by rw [List.append_nil, parts]) aba abb ab bc abc
    | [a'], parts, whole =>
      simp only [List.singleton_append, List.cons.injEq] at parts
      obtain ⟨rfl, rfl⟩ := parts
      exact cyclic whole rfl abb abc bc cd bcd
    | [a', b'], parts, whole =>
      simp only [List.cons_append, List.nil_append, List.cons.injEq] at parts
      obtain ⟨rfl, rfl, rfl⟩ := parts
      exact cyclic whole rfl abc abd cd da (by rw [turn_rotate, acd])
    | [a', b', c'], parts, whole =>
      simp only [List.cons_append, List.nil_append, List.cons.injEq] at parts
      obtain ⟨rfl, rfl, rfl, rfl⟩ := parts
      exact cyclic whole rfl abd aba da ab (by rw [← turn_rotate, abd])
    | a' :: b' :: c' :: d' :: m₁, parts, whole =>
      simp only [List.cons_append, List.cons.injEq, List.nil_eq, List.append_eq_nil_iff] at parts
      obtain ⟨rfl, rfl, rfl, rfl, rfl, rfl⟩ := parts
      exact cyclic whole rfl aba abb ab bc abc

end Planes

end RabbitRender.Lib.PolygonClipping
