/- RabbitRender/Clipping/ExactLines
   layer: theorem
   source: swrender/primitives.cpp
   digest: `clip_line` with exact quotients leaves what is inside of the view volume, unless the
     second vertex is on a plane the first one is outside of. -/

import RabbitRender.Clipping.Exact

set_option autoImplicit false

namespace RabbitRender.Clipping.ExactLines

open Clipping.Exact

/-- A point of the segment, from `s` to `p`. -/
def point (s p : Vec4) (u : ℚ) : Vec4 := clipVec4 u p s

/-- What `clip_line` promises of the vertices it leaves: the ends of what is inside, in the same
direction, with window coordinates. -/
structure Clipped (c : Viewport) (s p s' p' : Vertex) : Prop where
  first : Inside s'.clip ∧ Projected c s'
  last : Inside p'.clip ∧ Projected c p'
  ends : ∃ a b, (0 ≤ a ∧ a ≤ b ∧ b ≤ 1) ∧ s'.clip = point s.clip p.clip a ∧
    p'.clip = point s.clip p.clip b ∧
    ∀ u, 0 ≤ u → u ≤ 1 → (Inside (point s.clip p.clip u) ↔ a ≤ u ∧ u ≤ b)

/-- The property of a call: `none` is 0, and a segment is 2. -/
def Correct (c : Viewport) (s p : Vertex) : Option (Vertex × Vertex) → Prop
  | none => ∀ u, 0 ≤ u → u ≤ 1 → ¬StrictlyInside (point s.clip p.clip u)
  | some e => Clipped c s p e.1 e.2

def states (c : Viewport) : List (Fin 6) → Vertex × Vertex → List (Fin 6 × Vertex × Vertex)
  | [], _ => []
  | plane :: planes, e =>
    (plane, e) :: match clipLinePlane c plane e.1 e.2 with
      | none => []
      | some e' => states c planes e'

def Grazes (x : Fin 6 × Vertex × Vertex) : Prop :=
  frustumPlaneDist x.1 x.2.1.clip < 0 ∧ frustumPlaneDist x.1 x.2.2.clip = 0

def BothOutside (x : Fin 6 × Vertex × Vertex) : Prop :=
  frustumPlaneDist x.1 x.2.1.clip < 0 ∧ frustumPlaneDist x.1 x.2.2.clip < 0

def reached (c : Viewport) (s p : Vertex) : List (Fin 6 × Vertex × Vertex) :=
  states c (planesOf [s, p]) (s, p)

section Plane

variable {c : Viewport} {plane : Fin 6} {s p : Vertex}

theorem point_zero (s p : Vec4) : point s p 0 = s := by
  funext i
  unfold point clipVec4
  ring

theorem point_one (s p : Vec4) : point s p 1 = p := by
  funext i
  unfold point clipVec4
  ring

theorem clipLinePlane_cases (c : Viewport) (plane : Fin 6) (s p : Vertex) :
    (BothOutside (plane, s, p) ∧ clipLinePlane c plane s p = none) ∨
    (Grazes (plane, s, p) ∧ clipLinePlane c plane s p = some (s, p)) ∨
    ((0 ≤ frustumPlaneDist plane s.clip ∧ 0 ≤ frustumPlaneDist plane p.clip) ∧
      clipLinePlane c plane s p = some (s, p)) ∨
    ((0 ≤ frustumPlaneDist plane s.clip ∧ frustumPlaneDist plane p.clip < 0) ∧
      clipLinePlane c plane s p = some (s, clipVertex c p (clipDivide (frustumPlaneDist plane s.clip)
        (frustumPlaneDist plane s.clip - frustumPlaneDist plane p.clip)) p s)) ∨
    ((frustumPlaneDist plane s.clip < 0 ∧ 0 < frustumPlaneDist plane p.clip) ∧
      clipLinePlane c plane s p = some (clipVertex c s (clipDivide (frustumPlaneDist plane p.clip)
        (frustumPlaneDist plane p.clip - frustumPlaneDist plane s.clip)) s p, p)) := by
  unfold clipLinePlane Grazes BothOutside
  dsimp only
  by_cases first : frustumPlaneDist plane s.clip ≥ 0
  · rw [if_pos first]
    by_cases last : frustumPlaneDist plane p.clip ≥ 0
    · rw [if_pos last]
      exact .inr (.inr (.inl ⟨⟨first, last⟩, rfl⟩))
    · rw [if_neg last]
      exact .inr (.inr (.inr (.inl ⟨⟨first, not_le.mp last⟩, rfl⟩)))
  · rw [if_neg first]
    have outside := not_le.mp first
    by_cases last : frustumPlaneDist plane p.clip ≥ 0
    · rw [if_pos last]
      by_cases zero : frustumPlaneDist plane p.clip = 0
      · rw [if_neg (not_not.mpr zero)]
        exact .inr (.inl ⟨⟨outside, zero⟩, rfl⟩)
      · rw [if_pos zero]
        exact .inr (.inr (.inr (.inr ⟨⟨outside, lt_of_le_of_ne last (Ne.symm zero)⟩, rfl⟩)))
    · rw [if_neg last]
      exact .inl ⟨⟨outside, not_le.mp last⟩, rfl⟩

end Plane

section Crossing

variable {f m x y u z : ℚ}

theorem crossing_root (inside : 0 ≤ f + x * m) (outside : f + y * m < 0) :
    let t := clipDivide (f + x * m) (f + x * m - (f + y * m))
    (0 ≤ t ∧ t < 1) ∧ f + (x + t * (y - x)) * m = 0 := by
  intro t
  have positive : 0 < f + x * m - (f + y * m) := by linarith
  have product : t * (f + x * m - (f + y * m)) = f + x * m := div_mul_cancel₀ _ positive.ne'
  refine ⟨⟨div_nonneg inside positive.le, ?_⟩, by linarith⟩
  exact (div_lt_one positive).mpr (by linarith)

theorem inside_before (root : f + z * m = 0) (outside : f + y * m < 0) (inside : 0 ≤ f + u * m) :
    (z ≤ y → u ≤ z) ∧ (y ≤ z → z ≤ u) := by
  constructor
  · intro order
    by_contra beyond
    have falls : m < 0 := by
      by_contra rises
      have product : 0 ≤ (y - z) * m := mul_nonneg (by linarith) (not_lt.mp rises)
      linarith
    have product : (u - z) * m < 0 := mul_neg_of_pos_of_neg (by linarith) falls
    linarith
  · intro order
    by_contra beyond
    have rises : 0 < m := by
      by_contra falls
      have product : 0 ≤ (y - z) * m := mul_nonneg_of_nonpos_of_nonpos (by linarith) (not_lt.mp falls)
      linarith
    have product : (u - z) * m < 0 := mul_neg_of_neg_of_pos (by linarith) rises
    linarith

end Crossing

structure Part (s p : Vec4) (e : Vertex × Vertex) (a b : ℚ) : Prop where
  low : 0 ≤ a
  order : a ≤ b
  high : b ≤ 1
  first : e.1.clip = point s p a
  last : e.2.clip = point s p b

section Steps

variable {c : Viewport} {plane : Fin 6} {s p : Vec4} {e e' : Vertex × Vertex} {a b : ℚ}

theorem planeDist_point (k : Fin 6) (s p : Vec4) (u : ℚ) :
    frustumPlaneDist k (point s p u) =
      frustumPlaneDist k s + u * (frustumPlaneDist k p - frustumPlaneDist k s) := by
  rw [point, planeDist_clipVec4]
  ring

theorem clipVec4_point (t a b : ℚ) (s p : Vec4) :
    clipVec4 t (point s p b) (point s p a) = point s p (a + t * (b - a)) := by
  funext i
  unfold point clipVec4
  ring

/-- What one plane leaves: the points inside of it stay, and both ends are inside of it unless the
vertices graze it. -/
structure Cut (plane : Fin 6) (s p : Vec4) (a b a' b' : ℚ) (e : Vertex × Vertex) : Prop where
  shrinks : a ≤ a' ∧ b' ≤ b
  keeps : ∀ u, a ≤ u → u ≤ b → 0 ≤ frustumPlaneDist plane (point s p u) → a' ≤ u ∧ u ≤ b'
  inside : ¬Grazes (plane, e) →
    0 ≤ frustumPlaneDist plane (point s p a') ∧ 0 ≤ frustumPlaneDist plane (point s p b')

theorem part_step (part : Part s p e a b) (step : clipLinePlane c plane e.1 e.2 = some e') :
    ∃ a' b', Part s p e' a' b' ∧ Cut plane s p a b a' b' e := by
  have order := part.order
  have first : frustumPlaneDist plane e.1.clip = frustumPlaneDist plane s +
      a * (frustumPlaneDist plane p - frustumPlaneDist plane s) := by
    rw [part.first, planeDist_point]
  have last : frustumPlaneDist plane e.2.clip = frustumPlaneDist plane s +
      b * (frustumPlaneDist plane p - frustumPlaneDist plane s) := by
    rw [part.last, planeDist_point]
  rcases clipLinePlane_cases c plane e.1 e.2 with ⟨_, cut⟩ | ⟨graze, cut⟩ | ⟨⟨sd, pd⟩, cut⟩ |
    ⟨⟨sd, pd⟩, cut⟩ | ⟨⟨sd, pd⟩, cut⟩
  all_goals rw [cut] at step
  · exact absurd step nofun
  · obtain rfl := Option.some.inj step
    exact ⟨a, b, part, ⟨le_rfl, le_rfl⟩, fun u low high _ => ⟨low, high⟩,
      fun other => absurd graze other⟩
  · obtain rfl := Option.some.inj step
    rw [part.first] at sd
    rw [part.last] at pd
    exact ⟨a, b, part, ⟨le_rfl, le_rfl⟩, fun u low high _ => ⟨low, high⟩, fun _ => ⟨sd, pd⟩⟩
  · -- the segment leaves the volume: its end moves back
    obtain rfl := Option.some.inj step
    have inside := sd
    have outside := pd
    rw [first] at inside
    rw [last] at outside
    obtain ⟨⟨t0, t1⟩, root⟩ := crossing_root inside outside
    rw [← first, ← last] at t0 t1 root
    have back := mul_nonneg t0 (sub_nonneg.mpr order)
    have short := mul_le_mul_of_nonneg_right t1.le (sub_nonneg.mpr order)
    refine ⟨a, _, ⟨part.low, le_add_of_nonneg_right back, ?_, part.first, ?_⟩,
      ⟨le_rfl, ?_⟩, ?_, ?_⟩
    · linarith [part.high]
    · rw [clipVertex_clip, part.first, part.last, clipVec4_point]
    · linarith
    · intro u low _ stays
      rw [planeDist_point] at stays
      exact ⟨low, (inside_before root outside stays).1 (by linarith)⟩
    · intro _
      rw [part.first] at sd
      rw [planeDist_point plane s p (a + _), root]
      exact ⟨sd, le_rfl⟩
  · -- the segment enters the volume: its beginning moves forward
    obtain rfl := Option.some.inj step
    have outside := sd
    have inside := pd.le
    rw [first] at outside
    rw [last] at inside
    obtain ⟨⟨t0, t1⟩, root⟩ := crossing_root inside outside
    rw [← first, ← last] at t0 t1 root
    have back := mul_nonneg t0 (sub_nonneg.mpr order)
    have short := mul_le_mul_of_nonneg_right t1.le (sub_nonneg.mpr order)
    refine ⟨b + clipDivide (frustumPlaneDist plane e.2.clip)
        (frustumPlaneDist plane e.2.clip - frustumPlaneDist plane e.1.clip) * (a - b), b,
      ⟨?_, ?_, part.high, ?_, part.last⟩, ⟨?_, le_rfl⟩, ?_, ?_⟩
    · linarith [part.low]
    · linarith
    · rw [clipVertex_clip, part.first, part.last, clipVec4_point]
    · linarith
    · intro u _ high stays
      rw [planeDist_point] at stays
      exact ⟨(inside_before root outside stays).2 (by linarith), high⟩
    · intro _
      rw [part.last] at pd
      rw [planeDist_point plane s p (b + _), root]
      exact ⟨le_rfl, pd.le⟩

theorem planeDist_between {u : ℚ} (k : Fin 6) (low : a ≤ u) (high : u ≤ b) :
    (0 ≤ frustumPlaneDist k (point s p a) → 0 ≤ frustumPlaneDist k (point s p b) →
        0 ≤ frustumPlaneDist k (point s p u)) ∧
      (frustumPlaneDist k (point s p a) < 0 → frustumPlaneDist k (point s p b) < 0 →
        frustumPlaneDist k (point s p u) < 0) := by
  rw [planeDist_point, planeDist_point, planeDist_point]
  rcases le_total 0 (frustumPlaneDist k p - frustumPlaneDist k s) with rises | falls
  · have fromLow := mul_le_mul_of_nonneg_right low rises
    have toHigh := mul_le_mul_of_nonneg_right high rises
    constructor <;> intro _ _ <;> linarith
  · have fromLow := mul_le_mul_of_nonpos_right low falls
    have toHigh := mul_le_mul_of_nonpos_right high falls
    constructor <;> intro _ _ <;> linarith

structure Left (planes : List (Fin 6)) (s p : Vec4) (a b a' b' : ℚ) : Prop where
  shrinks : a ≤ a' ∧ b' ≤ b
  keeps : ∀ u, a ≤ u → u ≤ b → (∀ k ∈ planes, 0 ≤ frustumPlaneDist k (point s p u)) →
    a' ≤ u ∧ u ≤ b'

theorem part_run (planes : List (Fin 6)) (part : Part s p e a b) :
    (clipLinePlanes c planes e = none →
      ∀ u, a ≤ u → u ≤ b → ∃ k ∈ planes, frustumPlaneDist k (point s p u) < 0) ∧
    ∀ e', clipLinePlanes c planes e = some e' → ∃ a' b', Part s p e' a' b' ∧
      Left planes s p a b a' b' ∧ ((∀ x ∈ states c planes e, ¬Grazes x) →
        ∀ k ∈ planes, 0 ≤ frustumPlaneDist k (point s p a') ∧
          0 ≤ frustumPlaneDist k (point s p b')) := by
  induction planes generalizing e a b with
  | nil =>
    refine ⟨nofun, ?_⟩
    intro e' left
    obtain rfl := Option.some.inj left
    exact ⟨a, b, part, ⟨⟨le_rfl, le_rfl⟩, fun u low high _ => ⟨low, high⟩⟩, nofun⟩
  | cons plane planes ih =>
    cases cut : clipLinePlane c plane e.1 e.2 with
    | none =>
      have outside : BothOutside (plane, e.1, e.2) := by
        rcases clipLinePlane_cases c plane e.1 e.2 with ⟨both, _⟩ | ⟨_, other⟩ | ⟨_, other⟩ |
          ⟨_, other⟩ | ⟨_, other⟩
        · exact both
        all_goals exact absurd (cut.symm.trans other) nofun
      constructor
      · intro _ u low high
        refine ⟨plane, List.mem_cons_self, (planeDist_between plane low high).2 ?_ ?_⟩
        · rw [← part.first]
          exact outside.1
        · rw [← part.last]
          exact outside.2
      · intro e' left
        rw [clipLinePlanes, cut] at left
        exact absurd left nofun
    | some next =>
      obtain ⟨a1, b1, part1, cut1⟩ := part_step part cut
      obtain ⟨rejects, leaves⟩ := ih part1
      have run : clipLinePlanes c (plane :: planes) e = clipLinePlanes c planes next := by
        rw [clipLinePlanes, cut, Option.bind_some]
      have later : states c (plane :: planes) e = (plane, e) :: states c planes next := by
        rw [states, cut]
      rw [run, later]
      constructor
      · intro none u low high
        by_cases inside : 0 ≤ frustumPlaneDist plane (point s p u)
        · obtain ⟨low1, high1⟩ := cut1.keeps u low high inside
          obtain ⟨k, member, outside⟩ := rejects none u low1 high1
          exact ⟨k, List.mem_cons_of_mem _ member, outside⟩
        · exact ⟨plane, List.mem_cons_self, not_le.mp inside⟩
      · intro e' left
        obtain ⟨a', b', part', left', inside'⟩ := leaves e' left
        refine ⟨a', b', part', ⟨⟨?_, ?_⟩, ?_⟩, ?_⟩
        · exact cut1.shrinks.1.trans left'.shrinks.1
        · exact left'.shrinks.2.trans cut1.shrinks.2
        · intro u low high inside
          obtain ⟨low1, high1⟩ := cut1.keeps u low high (inside plane List.mem_cons_self)
          exact left'.keeps u low1 high1 fun k member => inside k (List.mem_cons_of_mem _ member)
        · intro ungrazed k member
          rcases List.mem_cons.mp member with rfl | member
          · obtain ⟨first, last⟩ := cut1.inside (ungrazed _ List.mem_cons_self)
            have shrinks := left'.shrinks
            have order := part'.order
            exact ⟨(planeDist_between k shrinks.1 (order.trans shrinks.2)).1 first last,
              (planeDist_between k (shrinks.1.trans order) shrinks.2).1 first last⟩
          · exact inside' (fun x reached => ungrazed x (List.mem_cons_of_mem _ reached)) k member

end Steps

section Grazed

variable {c : Viewport} {plane : Fin 6} {e e' : Vertex × Vertex}

def Beyond (k : Fin 6) (e : Vertex × Vertex) : Prop :=
  frustumPlaneDist k e.1.clip < 0 ∧ frustumPlaneDist k e.2.clip ≤ 0

theorem beyond_step {k : Fin 6} (beyond : Beyond k e)
    (step : clipLinePlane c plane e.1 e.2 = some e') : Beyond k e' := by
  obtain ⟨first, last⟩ := beyond
  rcases clipLinePlane_cases c plane e.1 e.2 with ⟨_, cut⟩ | ⟨_, cut⟩ | ⟨_, cut⟩ |
    ⟨⟨sd, pd⟩, cut⟩ | ⟨⟨sd, pd⟩, cut⟩
  all_goals rw [cut] at step
  · exact absurd step nofun
  · obtain rfl := Option.some.inj step
    exact ⟨first, last⟩
  · obtain rfl := Option.some.inj step
    exact ⟨first, last⟩
  · obtain rfl := Option.some.inj step
    refine ⟨first, ?_⟩
    have positive : 0 < frustumPlaneDist plane e.1.clip - frustumPlaneDist plane e.2.clip := by
      linarith
    have t0 := div_nonneg sd positive.le
    have t1 : frustumPlaneDist plane e.1.clip /
        (frustumPlaneDist plane e.1.clip - frustumPlaneDist plane e.2.clip) ≤ 1 :=
      (div_le_one positive).mpr (by linarith)
    rw [clipVertex_clip, planeDist_clipVec4]
    exact add_nonpos (mul_nonpos_of_nonneg_of_nonpos t0 last)
      (mul_nonpos_of_nonneg_of_nonpos (sub_nonneg.mpr t1) first.le)
  · obtain rfl := Option.some.inj step
    refine ⟨?_, last⟩
    have positive : 0 < frustumPlaneDist plane e.2.clip - frustumPlaneDist plane e.1.clip := by
      linarith
    have t0 := div_pos pd positive
    have t1 : frustumPlaneDist plane e.2.clip /
        (frustumPlaneDist plane e.2.clip - frustumPlaneDist plane e.1.clip) ≤ 1 :=
      (div_le_one positive).mpr (by linarith)
    rw [clipVertex_clip, planeDist_clipVec4]
    exact add_neg_of_neg_of_nonpos (mul_neg_of_pos_of_neg t0 first)
      (mul_nonpos_of_nonneg_of_nonpos (sub_nonneg.mpr t1) last)

variable {planes : List (Fin 6)}

theorem beyond_run {k : Fin 6} (beyond : Beyond k e) (run : clipLinePlanes c planes e = some e') :
    Beyond k e' := by
  induction planes generalizing e with
  | nil =>
    obtain rfl := Option.some.inj run
    exact beyond
  | cons plane planes ih =>
    obtain ⟨next, step, rest⟩ := Option.bind_eq_some_iff.mp run
    exact ih (beyond_step beyond step) rest

theorem beyond_of_grazed {x : Fin 6 × Vertex × Vertex} (reached : x ∈ states c planes e)
    (grazes : Grazes x) (run : clipLinePlanes c planes e = some e') : Beyond x.1 e' := by
  induction planes generalizing e with
  | nil => exact absurd reached List.not_mem_nil
  | cons plane planes ih =>
    rcases List.mem_cons.mp reached with rfl | later
    · exact beyond_run ⟨grazes.1, grazes.2.le⟩ run
    · obtain ⟨next, step, rest⟩ := Option.bind_eq_some_iff.mp run
      rw [step] at later
      exact ih later rest

theorem rejects_iff :
    clipLinePlanes c planes e = none ↔ ∃ x ∈ states c planes e, BothOutside x := by
  induction planes generalizing e with
  | nil => exact iff_of_false nofun fun ⟨x, reached, _⟩ => absurd reached List.not_mem_nil
  | cons plane planes ih =>
    rw [states, List.exists_mem_cons_iff]
    rcases clipLinePlane_cases c plane e.1 e.2 with ⟨outside, cut⟩ | ⟨grazes, cut⟩ |
      ⟨⟨sd, pd⟩, cut⟩ | ⟨⟨sd, pd⟩, cut⟩ | ⟨⟨sd, pd⟩, cut⟩
    · refine iff_of_true ?_ (.inl outside)
      rw [clipLinePlanes, cut, Option.bind_none]
    all_goals rw [clipLinePlanes, cut, Option.bind_some, ih]
    · exact (or_iff_right fun both => absurd grazes.2 both.2.ne).symm
    · exact (or_iff_right fun both => absurd both.1 (not_lt.mpr sd)).symm
    · exact (or_iff_right fun both => absurd both.1 (not_lt.mpr sd)).symm
    · exact (or_iff_right fun both => absurd both.2 (not_lt.mpr pd.le)).symm

end Grazed

/-- A vertex is projected, or one of the planes to come makes a new vertex of it. -/
def Settled (c : Viewport) (planes : List (Fin 6)) (v : Vertex) : Prop :=
  Projected c v ∨ ∃ k ∈ planes, frustumPlaneDist k v.clip < 0

theorem Settled.next {c : Viewport} {plane : Fin 6} {planes : List (Fin 6)} {v : Vertex}
    (settled : Settled c (plane :: planes) v) (inside : 0 ≤ frustumPlaneDist plane v.clip) :
    Settled c planes v := by
  rcases settled with projected | ⟨k, member, outside⟩
  · exact .inl projected
  · rcases List.mem_cons.mp member with rfl | member
    · exact absurd outside (not_lt.mpr inside)
    · exact .inr ⟨k, member, outside⟩

theorem settled_run {c : Viewport} {planes : List (Fin 6)} {e e' : Vertex × Vertex}
    (first : Settled c planes e.1) (last : Settled c planes e.2)
    (ungrazed : ∀ x ∈ states c planes e, ¬Grazes x)
    (run : clipLinePlanes c planes e = some e') : Projected c e'.1 ∧ Projected c e'.2 := by
  induction planes generalizing e with
  | nil =>
    obtain rfl := Option.some.inj run
    have projected {v : Vertex} (settled : Settled c [] v) : Projected c v := by
      rcases settled with projected | ⟨k, member, _⟩
      · exact projected
      · exact absurd member List.not_mem_nil
    exact ⟨projected first, projected last⟩
  | cons plane planes ih =>
    obtain ⟨next, step, rest⟩ := Option.bind_eq_some_iff.mp run
    have later (x : Fin 6 × Vertex × Vertex) (reached : x ∈ states c planes next) : ¬Grazes x := by
      apply ungrazed
      rw [states, step]
      exact List.mem_cons_of_mem _ reached
    rcases clipLinePlane_cases c plane e.1 e.2 with ⟨_, cut⟩ | ⟨grazes, cut⟩ | ⟨⟨sd, pd⟩, cut⟩ |
      ⟨⟨sd, pd⟩, cut⟩ | ⟨⟨sd, pd⟩, cut⟩
    all_goals rw [cut] at step
    · exact absurd step nofun
    · exact absurd grazes (ungrazed _ List.mem_cons_self)
    · obtain rfl := Option.some.inj step
      exact ih (first.next sd) (last.next pd) later rest
    · obtain rfl := Option.some.inj step
      refine ih ?_ ?_ later rest
      · exact first.next sd
      · exact .inl (clipVertex_projected c _ _ _ _)
    · obtain rfl := Option.some.inj step
      refine ih ?_ ?_ later rest
      · exact .inl (clipVertex_projected c _ _ _ _)
      · exact last.next pd.le

section Call

variable (c : Viewport) (v w : Vertex)

theorem settled_planesOf {v : Vertex} {vertices : List Vertex}
    (member : clipFrustumPerspective c v ∈ vertices) :
    Settled c (planesOf vertices) (clipFrustumPerspective c v) := by
  by_cases inside : ∀ k, (clipFrustumPerspective c v).flags k = false
  · exact .inl (clipFrustumPerspective_projected inside)
  · obtain ⟨k, flag⟩ := not_forall.mp inside
    have set := Bool.not_eq_false _ ▸ flag
    exact .inr ⟨k, mem_planesOf.mpr ⟨_, member, set⟩, clipFrustumPerspective_flag.mp set⟩

theorem inside_unflagged {k : Fin 6}
    (unflagged : k ∉ planesOf [clipFrustumPerspective c v, clipFrustumPerspective c w]) {u : ℚ}
    (low : 0 ≤ u) (high : u ≤ 1) :
    0 ≤ frustumPlaneDist k
      (point (clipFrustumPerspective c v).clip (clipFrustumPerspective c w).clip u) := by
  have inside {x : Vertex} (member : clipFrustumPerspective c x ∈
      [clipFrustumPerspective c v, clipFrustumPerspective c w]) :
      0 ≤ frustumPlaneDist k (clipFrustumPerspective c x).clip := by
    by_contra outside
    exact unflagged (mem_planesOf.mpr
      ⟨_, member, clipFrustumPerspective_flag.mpr (not_le.mp outside)⟩)
  apply (planeDist_between k low high).1
  · rw [point_zero]
    exact inside List.mem_cons_self
  · rw [point_one]
    exact inside (List.mem_cons_of_mem _ List.mem_cons_self)

theorem clipLine_correct_iff :
    let s := clipFrustumPerspective c v
    let p := clipFrustumPerspective c w
    Correct c s p (clipLine c s p) ↔
      (∃ x ∈ reached c s p, BothOutside x) ∨ ∀ x ∈ reached c s p, ¬Grazes x := by
  intro s p
  have whole : Part s.clip p.clip (s, p) 0 1 :=
    ⟨le_rfl, zero_le_one, le_rfl, (point_zero _ _).symm, (point_one _ _).symm⟩
  obtain ⟨rejects, leaves⟩ := part_run (c := c) (planesOf [s, p]) whole
  cases result : clipLine c s p with
  | none =>
    refine iff_of_true ?_ (.inl (rejects_iff.mp result))
    intro u low high inside
    obtain ⟨k, _, outside⟩ := rejects result u low high
    exact absurd outside (not_lt.mpr ((strictlyInside_iff _).mp inside k).le)
  | some e =>
    obtain ⟨a, b, part, left, within⟩ := leaves e result
    have kept : ¬∃ x ∈ reached c s p, BothOutside x := by
      intro both
      have none : clipLine c s p = none := rejects_iff.mpr both
      exact absurd (none.symm.trans result) nofun
    rw [or_iff_right kept]
    constructor
    · intro correct x reached grazes
      have outside := (beyond_of_grazed reached grazes result).1
      exact absurd outside (not_lt.mpr ((inside_iff _).mp correct.first.1 x.1))
    · intro ungrazed
      have inside (u : ℚ) (low : 0 ≤ u) (high : u ≤ 1) :
          Inside (point s.clip p.clip u) ↔ a ≤ u ∧ u ≤ b := by
        rw [inside_iff]
        constructor
        · intro all
          exact left.keeps u low high fun k _ => all k
        · rintro ⟨after, before⟩ k
          by_cases flagged : k ∈ planesOf [s, p]
          · have ends := within ungrazed k flagged
            exact (planeDist_between k after before).1 ends.1 ends.2
          · exact inside_unflagged c v w flagged low high
      have projected := settled_run (settled_planesOf c (v := v) List.mem_cons_self)
        (settled_planesOf c (v := w) (List.mem_cons_of_mem _ List.mem_cons_self)) ungrazed result
      have order := part.order
      refine ⟨⟨?_, projected.1⟩, ⟨?_, projected.2⟩, a, b, ⟨part.low, order, part.high⟩,
        part.first, part.last, inside⟩
      · rw [part.first]
        exact (inside a part.low (order.trans part.high)).mpr ⟨le_rfl, order⟩
      · rw [part.last]
        exact (inside b (part.low.trans order) part.high).mpr ⟨order, le_rfl⟩

end Call

/-- A vertex at `(x, 0, 0, 1)` that is not projected yet. -/
def onAxis (x : ℚ) : Vertex := ⟨![x, 0, 0, 1], 0, ⟨0, 0, 0, 0⟩, fun _ => false⟩

def unitViewport : Viewport := ⟨1, 1, 1, 0, 0, 0, true⟩

/-- The second vertex is on the left plane, and the first one to the left of it. -/
theorem clipLine_grazing :
    let s := clipFrustumPerspective unitViewport (onAxis (-2))
    let p := clipFrustumPerspective unitViewport (onAxis (-1))
    (∀ k, ¬(s.flags k = true ∧ p.flags k = true)) ∧
      ¬Correct unitViewport s p (clipLine unitViewport s p) := by
  intro s p
  have planes : planesOf [s, p] = [0] := by decide +kernel
  have kept : clipLine unitViewport s p = some (s, p) := by
    rw [clipLine, planes, clipLinePlanes]
    rcases clipLinePlane_cases unitViewport 0 s p with ⟨both, _⟩ | ⟨_, cut⟩ | ⟨_, cut⟩ |
      ⟨both, _⟩ | ⟨both, _⟩
    · exact absurd both.2 (by decide +kernel)
    · rw [cut, Option.bind_some, clipLinePlanes]
    · rw [cut, Option.bind_some, clipLinePlanes]
    · exact absurd both.1 (by decide +kernel)
    · exact absurd both.2 (by decide +kernel)
  refine ⟨by decide +kernel, ?_⟩
  rw [kept]
  intro correct
  exact absurd correct.first.1 (by decide +kernel)

end RabbitRender.Clipping.ExactLines
