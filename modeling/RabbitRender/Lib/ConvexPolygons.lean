/- RabbitRender/Lib/ConvexPolygons
   layer: library
   digest: Polygons in a plane that turn in one direction: their fans of triangles, and the part of
     them that is left by a half-plane. -/

import Mathlib.Analysis.Convex.Join
import Mathlib.Data.List.Chain
import Mathlib.Tactic.FieldSimp
import Mathlib.Tactic.Linarith
import Mathlib.Tactic.Module

set_option autoImplicit false

namespace RabbitRender.Lib.ConvexPolygons

variable {K : Type} [Field K]

def turn (a b c : K × K) : K := (b.1 - a.1) * (c.2 - a.2) - (b.2 - a.2) * (c.1 - a.1)

theorem turn_rotate (a b c : K × K) : turn b c a = turn a b c := by
  unfold turn
  ring

@[simp] theorem turn_first (a b : K × K) : turn a a b = 0 := by
  unfold turn
  ring

@[simp] theorem turn_last (a b : K × K) : turn a b b = 0 := by
  unfold turn
  ring

@[simp] theorem turn_ends (a b : K × K) : turn a b a = 0 := by
  unfold turn
  ring

theorem turn_between (t : K) (s p b c : K × K) :
    turn (s + t • (p - s)) b c = (1 - t) * turn s b c + t * turn p b c := by
  unfold turn
  simp only [Prod.fst_add, Prod.snd_add, Prod.smul_fst, Prod.smul_snd, Prod.fst_sub, Prod.snd_sub,
    smul_eq_mul]
  ring

theorem turn_relation (a b c d : K × K) :
    turn b c d • a + turn a b d • c = turn a c d • b + turn a b c • d := by
  ext <;> simp only [turn, Prod.fst_add, Prod.snd_add, Prod.smul_fst, Prod.smul_snd, smul_eq_mul] <;>
    ring

theorem turn_sum (a b c d : K × K) :
    turn b c d + turn a b d = turn a c d + turn a b c := by
  unfold turn
  ring

theorem eq_of_turn_zero {a b c : K × K} (other : b ≠ a) (line : turn a b c = 0) :
    ∃ r : K, c = a + r • (b - a) := by
  unfold turn at line
  by_cases first : b.1 - a.1 = 0
  · have second : b.2 - a.2 ≠ 0 := by
      intro second
      exact other (Prod.ext (sub_eq_zero.mp first) (sub_eq_zero.mp second))
    rw [first, zero_mul, zero_sub, neg_eq_zero] at line
    have same : c.1 - a.1 = 0 := (mul_eq_zero.mp line).resolve_left second
    refine ⟨(c.2 - a.2) / (b.2 - a.2), Prod.ext ?_ ?_⟩
    · simp only [Prod.fst_add, Prod.smul_fst, Prod.fst_sub, smul_eq_mul]
      rw [first, mul_zero, add_zero]
      exact sub_eq_zero.mp same
    · simp only [Prod.snd_add, Prod.smul_snd, Prod.snd_sub, smul_eq_mul]
      rw [div_mul_cancel₀ _ second, add_sub_cancel]
  · refine ⟨(c.1 - a.1) / (b.1 - a.1), Prod.ext ?_ ?_⟩
    · simp only [Prod.fst_add, Prod.smul_fst, Prod.fst_sub, smul_eq_mul]
      rw [div_mul_cancel₀ _ first, add_sub_cancel]
    · simp only [Prod.snd_add, Prod.smul_snd, Prod.snd_sub, smul_eq_mul]
      have height : (c.1 - a.1) / (b.1 - a.1) * (b.2 - a.2) = c.2 - a.2 := by
        rw [div_mul_eq_mul_div, div_eq_iff first]
        linear_combination -line
      rw [height, add_sub_cancel]

theorem exists_direction {a b c d : K × K} (abc : turn a b c = 0) (abd : turn a b d = 0)
    (acd : turn a c d = 0) :
    ∃ (v : K × K) (β γ δ : K), b = a + β • v ∧ c = a + γ • v ∧ d = a + δ • v := by
  by_cases first : b = a
  · by_cases second : c = a
    · exact ⟨d - a, 0, 0, 1, by rw [first]; module, by rw [second]; module, by module⟩
    · obtain ⟨r, place⟩ := eq_of_turn_zero second acd
      exact ⟨c - a, 0, 1, r, by rw [first]; module, by module, place⟩
  · obtain ⟨r, place⟩ := eq_of_turn_zero first abc
    obtain ⟨u, other⟩ := eq_of_turn_zero first abd
    exact ⟨b - a, 1, r, u, by module, place, other⟩

variable [LinearOrder K]

def Turning (l : List (K × K)) : Prop := ∀ a b c, [a, b, c].Sublist l → 0 ≤ turn a b c

def hull (l : List (K × K)) : Set (K × K) := convexHull K {x | x ∈ l}

/-- The triangles between the first corner and every two others that follow one another. -/
def fan {α : Type} (p0 : α) : α → List α → List (α × α × α)
  | _, [] => []
  | p1, p2 :: rest => (p0, p1, p2) :: fan p0 p2 rest

def triangle (t : (K × K) × (K × K) × (K × K)) : Set (K × K) := convexHull K {t.1, t.2.1, t.2.2}

theorem Turning.sublist {l l' : List (K × K)} (turning : Turning l) (sub : l'.Sublist l) :
    Turning l' := fun a b c three => turning a b c (three.trans sub)

theorem Turning.quadrangle {l : List (K × K)} {a b c d : K × K} (turning : Turning l)
    (sub : [a, b, c, d].Sublist l) :
    (0 ≤ turn b c d ∧ 0 ≤ turn a c d) ∧ 0 ≤ turn a b d ∧ 0 ≤ turn a b c := by
  have four := turning.sublist sub
  refine ⟨⟨four b c d ?_, four a c d ?_⟩, four a b d ?_, four a b c ?_⟩
  · exact List.sublist_cons_self _ _
  · exact (List.sublist_cons_self _ _).cons_cons _
  · exact ((List.sublist_cons_self _ _).cons_cons _).cons_cons _
  · exact (((List.nil_sublist _).cons_cons _).cons_cons _).cons_cons _

theorem pair_cases {α : Type} {a b p : α} {l : List α} (sub : [a, b].Sublist (p :: l)) :
    a = p ∨ [a, b].Sublist l := by
  rcases List.sublist_cons_iff.mp sub with later | ⟨rest, place, _⟩
  · exact .inr later
  · exact .inl (List.cons.inj place).1

theorem pair_cases_last {α : Type} {a b s : α} {l : List α} (sub : [a, b].Sublist (l ++ [s])) :
    b = s ∨ [a, b].Sublist l := by
  have reversed : [b, a].Sublist (s :: l.reverse) := by
    have both := sub.reverse
    rwa [List.reverse_append] at both
  rcases pair_cases reversed with last | before
  · exact .inl last
  · right
    have both := before.reverse
    rwa [List.reverse_reverse] at both

theorem turning_closed {l : List (K × K)} {s : K × K} (turning : Turning (l ++ [s])) :
    Turning (s :: (l ++ [s])) := by
  intro a b c sub
  rcases List.sublist_cons_iff.mp sub with inner | ⟨rest, place, pair⟩
  · exact turning a b c inner
  · obtain ⟨rfl, rfl⟩ := List.cons.inj place
    rcases pair_cases_last pair with rfl | inner
    · exact (turn_ends _ _).ge
    · rw [← turn_rotate]
      exact turning b c a (inner.append (List.Sublist.refl [a]))

theorem turning_rotate {l l' : List (K × K)} (turning : Turning (l ++ l')) : Turning (l' ++ l) := by
  intro a b c sub
  obtain ⟨m, m', all, first, last⟩ := List.sublist_append_iff.mp sub
  have three (x y z : K × K) (order : [x, y, z] = m' ++ m) : 0 ≤ turn x y z := by
    apply turning
    rw [order]
    exact last.append first
  match m, all, three with
  | [], all, three =>
    rw [List.nil_append] at all
    exact three a b c (by rw [List.append_nil, all])
  | [a'], all, three =>
    simp only [List.singleton_append, List.cons.injEq] at all
    obtain ⟨rfl, rfl⟩ := all
    rw [← turn_rotate]
    exact three _ _ _ rfl
  | [a', b'], all, three =>
    simp only [List.cons_append, List.nil_append, List.cons.injEq] at all
    obtain ⟨rfl, rfl, rfl⟩ := all
    rw [turn_rotate]
    exact three _ _ _ rfl
  | a' :: b' :: c' :: m, all, three =>
    simp only [List.cons_append, List.cons.injEq, List.nil_eq, List.append_eq_nil_iff] at all
    obtain ⟨rfl, rfl, rfl, rfl, rfl⟩ := all
    exact three _ _ _ rfl

theorem hull_mono {l l' : List (K × K)} (sub : ∀ x ∈ l, x ∈ l') : hull l ⊆ hull l' :=
  convexHull_mono sub

theorem mem_hull {l : List (K × K)} {x : K × K} (member : x ∈ l) : x ∈ hull l :=
  subset_convexHull K _ member

theorem triangle_subset {l : List (K × K)} {a b c : K × K} (first : a ∈ l) (second : b ∈ l)
    (third : c ∈ l) : triangle (a, b, c) ⊆ hull l := by
  apply convexHull_mono
  rintro x (rfl | rfl | rfl)
  · exact first
  · exact second
  · exact third

theorem mem_fan {α : Type} {p0 p1 : α} {rest : List α} {t : α × α × α}
    (member : t ∈ fan p0 p1 rest) : t.1 = p0 ∧ [t.2.1, t.2.2].Sublist (p1 :: rest) := by
  induction rest generalizing p1 with
  | nil => exact absurd member List.not_mem_nil
  | cons p2 rest ih =>
    rcases List.mem_cons.mp member with rfl | later
    · exact ⟨rfl, ((List.nil_sublist _).cons_cons _).cons_cons _⟩
    · obtain ⟨base, sub⟩ := ih later
      exact ⟨base, sub.cons _⟩

theorem fan_chain {α : Type} {R : α → α → Prop} {p0 p1 : α} {rest : List α}
    (chain : (p1 :: rest).IsChain R) {t : α × α × α}
    (member : t ∈ fan p0 p1 rest) : R t.2.1 t.2.2 := by
  induction rest generalizing p1 with
  | nil => exact absurd member List.not_mem_nil
  | cons p2 rest ih =>
    obtain ⟨step, later⟩ := List.isChain_cons_cons.mp chain
    rcases List.mem_cons.mp member with rfl | inner
    · exact step
    · exact ih later inner

theorem map_fan {α β : Type} (g : α → β) (p0 p1 : α) (rest : List α) :
    (fan p0 p1 rest).map (fun t => (g t.1, g t.2.1, g t.2.2)) =
      fan (g p0) (g p1) (rest.map g) := by
  induction rest generalizing p1 with
  | nil => rfl
  | cons p2 rest ih =>
    rw [fan, List.map_cons, ih]
    rfl

variable [IsStrictOrderedRing K]

theorem mem_hull_insert {a x : K × K} {s : Set (K × K)} (nonempty : s.Nonempty) :
    x ∈ convexHull K (insert a s) ↔
      ∃ y ∈ convexHull K s, ∃ t : K, (0 ≤ t ∧ t ≤ 1) ∧ x = a + t • (y - a) := by
  rw [convexHull_insert nonempty, mem_convexJoin]
  constructor
  · rintro ⟨_, rfl, y, inside, between⟩
    rw [segment_eq_image'] at between
    obtain ⟨t, ⟨low, high⟩, rfl⟩ := between
    exact ⟨y, inside, t, ⟨low, high⟩, rfl⟩
  · rintro ⟨y, inside, t, ⟨low, high⟩, rfl⟩
    refine ⟨a, rfl, y, inside, ?_⟩
    rw [segment_eq_image']
    exact ⟨t, ⟨low, high⟩, rfl⟩

theorem mem_hull_pair {a b x : K × K} :
    x ∈ convexHull K {a, b} ↔ ∃ t : K, (0 ≤ t ∧ t ≤ 1) ∧ x = a + t • (b - a) := by
  rw [mem_hull_insert (Set.singleton_nonempty b), convexHull_singleton]
  constructor
  · rintro ⟨_, rfl, t, bounds, rfl⟩
    exact ⟨t, bounds, rfl⟩
  · rintro ⟨t, bounds, rfl⟩
    exact ⟨b, rfl, t, bounds, rfl⟩

theorem mem_hull_three {a b c x : K × K} :
    x ∈ convexHull K {a, b, c} ↔ ∃ α β γ : K, (0 ≤ α ∧ 0 ≤ β ∧ 0 ≤ γ) ∧ α + β + γ = 1 ∧
      x = α • a + β • b + γ • c := by
  rw [mem_hull_insert (Set.insert_nonempty b {c})]
  constructor
  · rintro ⟨y, inside, t, ⟨t0, t1⟩, rfl⟩
    obtain ⟨u, ⟨u0, u1⟩, rfl⟩ := mem_hull_pair.mp inside
    refine ⟨1 - t, t * (1 - u), t * u, ⟨sub_nonneg.mpr t1, mul_nonneg t0 (sub_nonneg.mpr u1),
      mul_nonneg t0 u0⟩, by ring, ?_⟩
    module
  · rintro ⟨α, β, γ, ⟨α0, β0, γ0⟩, sum, rfl⟩
    have rest : β + γ = 1 - α := by linarith
    by_cases vertex : β + γ = 0
    · have β1 : β = 0 := by linarith
      have γ1 : γ = 0 := by linarith
      have α1 : α = 1 := by linarith
      refine ⟨b, mem_hull_pair.mpr ⟨0, ⟨le_rfl, zero_le_one⟩, by module⟩, 0,
        ⟨le_rfl, zero_le_one⟩, ?_⟩
      rw [α1, β1, γ1]
      module
    · have positive : 0 < β + γ := lt_of_le_of_ne (add_nonneg β0 γ0) (Ne.symm vertex)
      refine ⟨b + (γ / (β + γ)) • (c - b), mem_hull_pair.mpr ⟨_, ⟨div_nonneg γ0 positive.le, ?_⟩,
        rfl⟩, β + γ, ⟨positive.le, by linarith⟩, ?_⟩
      · exact (div_le_one positive).mpr (by linarith)
      · have share : (β + γ) * (γ / (β + γ)) = γ := mul_div_cancel₀ _ vertex
        have first : α = 1 - (β + γ) := by linarith
        rw [add_sub_right_comm, smul_add, smul_smul, share, first]
        module

theorem mem_hull_of_between {o v : K × K} {s : Set (K × K)} {r u w : K} (low : u ≤ r) (high : r ≤ w)
    (first : o + u • v ∈ s) (last : o + w • v ∈ s) : o + r • v ∈ convexHull K s := by
  have ends : ({o + u • v, o + w • v} : Set (K × K)) ⊆ s :=
    Set.insert_subset first (Set.singleton_subset_iff.mpr last)
  apply convexHull_mono ends
  rcases eq_or_lt_of_le (low.trans high) with same | order
  · have place : r = u := le_antisymm (high.trans same.ge) low
    rw [place]
    exact subset_convexHull K _ (Set.mem_insert _ _)
  · have width : 0 < w - u := sub_pos.mpr order
    refine mem_hull_pair.mpr ⟨(r - u) / (w - u), ⟨div_nonneg (sub_nonneg.mpr low) width.le,
      (div_le_one width).mpr (by linarith)⟩, ?_⟩
    have step : (r - u) / (w - u) * (w - u) = r - u := div_mul_cancel₀ _ width.ne'
    have difference : o + w • v - (o + u • v) = (w - u) • v := by module
    rw [difference, smul_smul, step]
    module

theorem average_le {wa wb wc wd a b c d m : K} (wa0 : 0 ≤ wa) (wb0 : 0 ≤ wb) (wc0 : 0 ≤ wc)
    (wd0 : 0 ≤ wd) (sum : wa + wb + wc + wd = 1)
    (average : wa * a + wb * b + wc * c + wd * d = m) (first : a < m) (second : b < m)
    (third : c < m) : m ≤ d := by
  by_contra beyond
  have last := not_le.mp beyond
  have pa := mul_nonneg wa0 (sub_pos.mpr first).le
  have pb := mul_nonneg wb0 (sub_pos.mpr second).le
  have pc := mul_nonneg wc0 (sub_pos.mpr third).le
  have pd := mul_nonneg wd0 (sub_pos.mpr last).le
  have zero : wa * (m - a) + wb * (m - b) + wc * (m - c) + wd * (m - d) = 0 := by
    linear_combination m * sum - average
  have none (w x : K) (product : w * (m - x) = 0) (below : x < m) : w = 0 :=
    (mul_eq_zero.mp product).resolve_right (sub_pos.mpr below).ne'
  have wa1 := none wa a (by linarith) first
  have wb1 := none wb b (by linarith) second
  have wc1 := none wc c (by linarith) third
  have wd1 := none wd d (by linarith) last
  rw [wa1, wb1, wc1, wd1] at sum
  norm_num at sum

theorem hull_line {a v : K × K} {β γ δ wa wb wc wd : K} (wa0 : 0 ≤ wa) (wb0 : 0 ≤ wb)
    (wc0 : 0 ≤ wc) (wd0 : 0 ≤ wd) (sum : wa + wb + wc + wd = 1) :
    wa • a + wb • (a + β • v) + wc • (a + γ • v) + wd • (a + δ • v) ∈
      convexHull K {a, a + β • v, a + γ • v} ∪ convexHull K {a, a + γ • v, a + δ • v} := by
  have place : wa • a + wb • (a + β • v) + wc • (a + γ • v) + wd • (a + δ • v) =
      a + (wb * β + wc * γ + wd * δ) • v := by
    have first : wa = 1 - wb - wc - wd := by linarith
    rw [first]
    module
  rw [place]
  have origin : a = a + (0 : K) • v := by module
  by_cases below : 0 ≤ wb * β + wc * γ + wd * δ ∨ β ≤ wb * β + wc * γ + wd * δ ∨
      γ ≤ wb * β + wc * γ + wd * δ
  · by_cases above : wb * β + wc * γ + wd * δ ≤ 0 ∨ wb * β + wc * γ + wd * δ ≤ β ∨
        wb * β + wc * γ + wd * δ ≤ γ
    · -- between two of the first three
      left
      obtain ⟨u, low, first⟩ : ∃ u : K, u ≤ wb * β + wc * γ + wd * δ ∧
          a + u • v ∈ ({a, a + β • v, a + γ • v} : Set (K × K)) := by
        rcases below with low | low | low
        · exact ⟨0, low, .inl origin.symm⟩
        · exact ⟨β, low, .inr (.inl rfl)⟩
        · exact ⟨γ, low, .inr (.inr rfl)⟩
      obtain ⟨w, high, last⟩ : ∃ w : K, wb * β + wc * γ + wd * δ ≤ w ∧
          a + w • v ∈ ({a, a + β • v, a + γ • v} : Set (K × K)) := by
        rcases above with high | high | high
        · exact ⟨0, high, .inl origin.symm⟩
        · exact ⟨β, high, .inr (.inl rfl)⟩
        · exact ⟨γ, high, .inr (.inr rfl)⟩
      exact mem_hull_of_between low high first last
    · -- the fourth is the only one that is not before it
      right
      rw [not_or, not_or, not_le, not_le, not_le] at above
      refine mem_hull_of_between above.1.le ?_ (.inl origin.symm) (.inr (.inr rfl))
      exact average_le wa0 wb0 wc0 wd0 sum (by ring) above.1 above.2.1 above.2.2
  · right
    rw [not_or, not_or, not_le, not_le, not_le] at below
    refine mem_hull_of_between ?_ below.1.le (.inr (.inr rfl)) (.inl origin.symm)
    apply neg_le_neg_iff.mp
    exact average_le wa0 wb0 wc0 wd0 sum (by ring) (neg_pos.mpr below.1)
      (neg_lt_neg below.2.1) (neg_lt_neg below.2.2)

theorem hull_quadrangle {a b c d x : K × K} (bcd : 0 ≤ turn b c d) (acd : 0 ≤ turn a c d)
    (abd : 0 ≤ turn a b d) (abc : 0 ≤ turn a b c) {wa wb wc wd : K} (wa0 : 0 ≤ wa) (wb0 : 0 ≤ wb)
    (wc0 : 0 ≤ wc) (wd0 : 0 ≤ wd) (sum : wa + wb + wc + wd = 1)
    (place : x = wa • a + wb • b + wc • c + wd • d) :
    x ∈ convexHull K {a, b, c} ∪ convexHull K {a, c, d} := by
  have relation := turn_relation a b c d
  have turns := turn_sum a b c d
  -- the weights are moved along the relation until one of the outer corners has none
  have move (r : K) : x = (wa + r * turn b c d) • a + (wb - r * turn a c d) • b +
      (wc + r * turn a b d) • c + (wd - r * turn a b c) • d := by
    have zero : r • (turn b c d • a + turn a b d • c - (turn a c d • b + turn a b c • d)) = 0 := by
      rw [relation, sub_self, smul_zero]
    rw [place, ← sub_eq_zero, ← neg_eq_zero, ← zero]
    module
  rcases le_total (wb * turn a b c) (wd * turn a c d) with near | far
  · by_cases flat : turn a c d = 0
    · by_cases other : turn a b c = 0
      · -- all four are in line
        have third : turn a b d = 0 := by linarith
        obtain ⟨v, β, γ, δ, rfl, rfl, rfl⟩ := exists_direction other third flat
        rw [place]
        exact hull_line wa0 wb0 wc0 wd0 sum
      · have none : wb = 0 := by
          rw [flat, mul_zero] at near
          have product := le_antisymm near (mul_nonneg wb0 abc)
          exact (mul_eq_zero.mp product).resolve_right other
        right
        refine mem_hull_three.mpr ⟨wa, wc, wd, ⟨wa0, wc0, wd0⟩, by linarith, ?_⟩
        rw [place, none]
        module
    · have positive : 0 < turn a c d := lt_of_le_of_ne acd (Ne.symm flat)
      have r0 : 0 ≤ wb / turn a c d := div_nonneg wb0 positive.le
      have share : wb / turn a c d * turn a c d = wb := div_mul_cancel₀ _ flat
      have rest : wb / turn a c d * turn a b c ≤ wd := by
        rw [div_mul_eq_mul_div, div_le_iff₀ positive]
        exact near
      right
      refine mem_hull_three.mpr ⟨_, _, _, ⟨add_nonneg wa0 (mul_nonneg r0 bcd),
        add_nonneg wc0 (mul_nonneg r0 abd), sub_nonneg.mpr rest⟩, ?_, ?_⟩
      · linear_combination sum + wb / turn a c d * turns + share
      · rw [move (wb / turn a c d), share]
        module
  · by_cases flat : turn a b c = 0
    · by_cases other : turn a c d = 0
      · have third : turn a b d = 0 := by linarith
        obtain ⟨v, β, γ, δ, rfl, rfl, rfl⟩ := exists_direction flat third other
        rw [place]
        exact hull_line wa0 wb0 wc0 wd0 sum
      · have none : wd = 0 := by
          rw [flat, mul_zero] at far
          have product := le_antisymm far (mul_nonneg wd0 acd)
          exact (mul_eq_zero.mp product).resolve_right other
        left
        refine mem_hull_three.mpr ⟨wa, wb, wc, ⟨wa0, wb0, wc0⟩, by linarith, ?_⟩
        rw [place, none]
        module
    · have positive : 0 < turn a b c := lt_of_le_of_ne abc (Ne.symm flat)
      have r0 : 0 ≤ wd / turn a b c := div_nonneg wd0 positive.le
      have share : wd / turn a b c * turn a b c = wd := div_mul_cancel₀ _ flat
      have rest : wd / turn a b c * turn a c d ≤ wb := by
        rw [div_mul_eq_mul_div, div_le_iff₀ positive]
        exact far
      left
      refine mem_hull_three.mpr ⟨_, _, _, ⟨add_nonneg wa0 (mul_nonneg r0 bcd), sub_nonneg.mpr rest,
        add_nonneg wc0 (mul_nonneg r0 abd)⟩, ?_, ?_⟩
      · linear_combination sum + wd / turn a b c * turns + share
      · rw [move (wd / turn a b c), share]
        module

theorem hull_cons {a x : K × K} {l : List (K × K)} (nonempty : l ≠ []) :
    x ∈ hull (a :: l) ↔ ∃ y ∈ hull l, ∃ t : K, (0 ≤ t ∧ t ≤ 1) ∧ x = a + t • (y - a) := by
  have corners : {x | x ∈ a :: l} = insert a {x | x ∈ l} := by
    ext b
    exact List.mem_cons
  obtain ⟨b, member⟩ := List.exists_mem_of_ne_nil l nonempty
  unfold hull
  rw [corners]
  exact mem_hull_insert ⟨b, member⟩

theorem exists_mem_fan {p0 p1 p2 x : K × K} {rest : List (K × K)}
    (turning : Turning (p0 :: p1 :: p2 :: rest)) (inside : x ∈ hull (p0 :: p1 :: p2 :: rest)) :
    ∃ t ∈ fan p0 p1 (p2 :: rest), x ∈ triangle t := by
  induction rest generalizing p1 p2 x with
  | nil =>
    refine ⟨(p0, p1, p2), List.mem_cons_self, ?_⟩
    have corners : {x | x ∈ [p0, p1, p2]} = ({p0, p1, p2} : Set (K × K)) := by
      ext b
      simp only [List.mem_cons, List.not_mem_nil, or_false, Set.mem_insert_iff,
        Set.mem_singleton_iff, Set.mem_ofPred_eq]
    unfold hull at inside
    rwa [corners] at inside
  | cons p3 rest ih =>
    have tail : Turning (p0 :: p2 :: p3 :: rest) :=
      turning.sublist ((List.sublist_cons_self _ _).cons_cons _)
    have moved : x ∈ hull (p1 :: p0 :: p2 :: p3 :: rest) := by
      apply hull_mono _ inside
      intro b member
      rcases List.mem_cons.mp member with rfl | member
      · exact List.mem_cons_of_mem _ List.mem_cons_self
      · rcases List.mem_cons.mp member with rfl | member
        · exact List.mem_cons_self
        · exact List.mem_cons_of_mem _ (List.mem_cons_of_mem _ member)
    obtain ⟨y, rest0, t, ⟨t0, t1⟩, place⟩ := (hull_cons (List.cons_ne_nil _ _)).mp moved
    obtain ⟨⟨_, q, r⟩, member, here⟩ := ih tail rest0
    obtain ⟨rfl, sub⟩ := mem_fan member
    obtain ⟨α, β, γ, ⟨α0, β0, γ0⟩, sum, weights⟩ := mem_hull_three.mp here
    obtain ⟨⟨bcd, acd⟩, abd, abc⟩ := turning.quadrangle ((sub.cons_cons p1).cons_cons _)
    have split := hull_quadrangle bcd acd abd abc (mul_nonneg t0 α0) (sub_nonneg.mpr t1)
      (mul_nonneg t0 β0) (mul_nonneg t0 γ0) (by linear_combination t * sum)
      (x := x) (by rw [place, weights]; module)
    rcases split with near | far
    · -- in the triangle of the next corner, or cut off by it
      have corner : q ∈ p2 :: p3 :: rest := sub.subset List.mem_cons_self
      rcases List.mem_cons.mp corner with rfl | later
      · exact ⟨_, List.mem_cons_self, near⟩
      · obtain ⟨α, β, γ, ⟨α0, β0, γ0⟩, sum, weights⟩ := mem_hull_three.mp near
        have pair : [p2, q].Sublist (p2 :: p3 :: rest) :=
          (List.singleton_sublist.mpr later).cons_cons _
        obtain ⟨⟨bcd, acd⟩, abd, abc⟩ := turning.quadrangle ((pair.cons_cons p1).cons_cons _)
        have split := hull_quadrangle bcd acd abd abc α0 β0 le_rfl γ0 (by linear_combination sum)
          (x := x) (by rw [weights]; module)
        rcases split with first | other
        · exact ⟨_, List.mem_cons_self, first⟩
        · have inner : x ∈ hull (_ :: p2 :: p3 :: rest) :=
            triangle_subset List.mem_cons_self (List.mem_cons_of_mem _ List.mem_cons_self)
              (List.mem_cons_of_mem _ corner) other
          obtain ⟨t, member, inside⟩ := ih tail inner
          exact ⟨t, List.mem_cons_of_mem _ member, inside⟩
    · exact ⟨_, List.mem_cons_of_mem _ member, far⟩

def Flat (s : Set (K × K)) : Prop := ∀ a ∈ s, ∀ b ∈ s, ∀ c ∈ s, turn a b c = 0

omit [LinearOrder K] [IsStrictOrderedRing K] in
theorem turn_along (o v m : K × K) (r u : K) :
    turn (o + r • v) (o + u • v) m = (u - r) * turn o (o + v) m := by
  unfold turn
  simp only [Prod.fst_add, Prod.snd_add, Prod.smul_fst, Prod.smul_snd, smul_eq_mul]
  ring

omit [LinearOrder K] [IsStrictOrderedRing K] in
theorem flat_of_line {u v : K × K} {s : Set (K × K)} (other : v ≠ u)
    (line : ∀ x ∈ s, turn u v x = 0) : Flat s := by
  intro a ha b hb c hc
  obtain ⟨r, rfl⟩ := eq_of_turn_zero other (line a ha)
  obtain ⟨w, rfl⟩ := eq_of_turn_zero other (line b hb)
  rw [turn_along, add_sub_cancel, line c hc, mul_zero]

theorem line_hull {u v : K × K} {l : List (K × K)} (line : ∀ x ∈ l, turn u v x = 0) :
    ∀ x ∈ hull l, turn u v x = 0 := by
  have convex : Convex K {x | turn u v x = 0} := by
    intro x hx y hy a b _ _ sum
    have first : a = 1 - b := by linear_combination sum
    have mix : turn u v (a • x + b • y) = a * turn u v x + b * turn u v y := by
      rw [first]
      unfold turn
      simp only [Prod.fst_add, Prod.snd_add, Prod.smul_fst, Prod.smul_snd, smul_eq_mul]
      ring
    change turn u v (a • x + b • y) = 0
    rw [mix, hx, hy, mul_zero, mul_zero, add_zero]
  exact fun x here => convexHull_min (fun a member => line a member) convex here

theorem flat_hull_of_length {l : List (K × K)} (short : l.length < 3) : Flat (hull l) := by
  have along (u : K × K) {v : K × K} (line : ∀ x ∈ l, turn u v x = 0) (other : v ≠ u) :
      Flat (hull l) := flat_of_line other (line_hull line)
  match l, short, along with
  | [], _, _ =>
    intro a here
    unfold hull at here
    have none : {x | x ∈ ([] : List (K × K))} = ∅ := by
      ext x
      simp
    rw [none, convexHull_empty] at here
    exact absurd here (Set.notMem_empty a)
  | [u], _, along =>
    apply along u (v := (u.1 + 1, u.2))
    · intro x member
      rw [List.mem_singleton.mp member, turn_ends]
    · intro same
      have first := congrArg Prod.fst same
      simp only [add_eq_left] at first
      exact one_ne_zero first
  | [u, v], _, along =>
    by_cases same : v = u
    · apply along u (v := (u.1 + 1, u.2))
      · intro x member
        have place : x = u := by
          rcases List.mem_cons.mp member with first | last
          · exact first
          · rw [List.mem_singleton.mp last, same]
        rw [place, turn_ends]
      · intro same
        have first := congrArg Prod.fst same
        simp only [add_eq_left] at first
        exact one_ne_zero first
    · apply along u _ same
      intro x member
      rcases List.mem_cons.mp member with rfl | last
      · exact turn_ends _ _
      · rw [List.mem_singleton.mp last]
        exact turn_last _ _

end RabbitRender.Lib.ConvexPolygons
