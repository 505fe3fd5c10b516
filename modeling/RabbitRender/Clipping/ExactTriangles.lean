/- RabbitRender/Clipping/ExactTriangles
   layer: theorem
   source: swrender/primitives.cpp
   digest: `clip_triangle` with exact quotients renders what is inside of the view volume, in the
     direction of its triangle. -/

import Mathlib
import RabbitRender.Clipping.Exact
import RabbitRender.Lib.PolygonClipping

set_option autoImplicit false

namespace RabbitRender.Clipping.ExactTriangles

open Clipping.Exact Lib.ConvexPolygons Lib.PolygonClipping

def points (t : Vertex × Vertex × Vertex) : Set Vec4 :=
  convexHull ℚ {t.1.clip, t.2.1.clip, t.2.2.clip}

def minor (i j k : Fin 4) (p q r : Vec4) : ℚ :=
  p i * (q j * r k - q k * r j) - p j * (q i * r k - q k * r i) + p k * (q i * r j - q j * r i)

/-- The second triangle is in the plane of the first one, and in its direction. -/
def SameDirection (t u : Vertex × Vertex × Vertex) : Prop :=
  ∃ m : ℚ, 0 ≤ m ∧ ∀ i j k, minor i j k u.1.clip u.2.1.clip u.2.2.clip =
    m * minor i j k t.1.clip t.2.1.clip t.2.2.clip

/-- A copy of the triangle, shrunk towards one of its points, fits into the set. -/
def HasInterior (t : Vertex × Vertex × Vertex) (s : Set Vec4) : Prop :=
  ∃ x ∈ points t, ∃ ε : ℚ, (0 < ε ∧ ε ≤ 1) ∧ ∀ y ∈ points t, x + ε • (y - x) ∈ s

/-- A vertex `clipVertex` makes. -/
def Created (c : Viewport) (v : Vertex) : Prop := ∃ nv t s p, v = clipVertex c nv t s p

/-- The vertex is a corner of the triangle without a flag, or `clipVertex` made it. -/
def Rendered (c : Viewport) (t : Vertex × Vertex × Vertex) (v : Vertex) : Prop :=
  (v ∈ [t.1, t.2.1, t.2.2] ∧ ∀ k, v.flags k = false) ∨ Created c v

section Turns

variable {c : Viewport} {buffer : Nat → Vertex} {plane : Fin 6}

def crossVec (k : Fin 6) (inner outer : Vec4) : Vec4 :=
  clipVec4 (clipDivide (frustumPlaneDist k inner)
    (frustumPlaneDist k inner - frustumPlaneDist k outer)) outer inner

/-- A vertex of an output list: one of the input list that is inside, or a new one. -/
def Comes (c : Viewport) (plane : Fin 6) (l : List Vertex) (v : Vertex) : Prop :=
  (v ∈ l ∧ 0 ≤ frustumPlaneDist plane v.clip) ∨ Created c v

variable (c buffer plane) in
theorem turn_spec (l : Loop) (p : Vertex) :
    let crossed := (border (frustumPlaneDist plane) (crossVec plane) l.s.clip p.clip).length
    (turn c buffer plane l p = none → 3 ≤ l.sentinel + crossed) ∧
    ∀ r, turn c buffer plane l p = some r → r.sentinel = l.sentinel + crossed ∧ r.s = p ∧
      ∃ new, r.output = l.output ++ new ∧
        new.map Vertex.clip = emit (frustumPlaneDist plane) (crossVec plane) l.s.clip p.clip ∧
        ∀ v ∈ new, Comes c plane [p] v := by
  intro crossed
  have inside (last : 0 ≤ frustumPlaneDist plane p.clip) : Comes c plane [p] p :=
    .inl ⟨List.mem_cons_self, last⟩
  have created (nv : Vertex) (t : ℚ) (s q : Vertex) : Comes c plane [p] (clipVertex c nv t s q) :=
    .inr ⟨nv, t, s, q, rfl⟩
  have one {P : Vertex → Prop} {v : Vertex} (holds : P v) : ∀ w ∈ [v], P w := by
    intro w member
    rw [List.mem_singleton.mp member]
    exact holds
  unfold Exact.turn
  dsimp only
  by_cases first : frustumPlaneDist plane l.s.clip ≥ 0
  · rw [if_pos first]
    by_cases last : frustumPlaneDist plane p.clip ≥ 0
    · have none : crossed = 0 := by
        unfold crossed border
        rw [if_neg fun exits => absurd last (not_le.mpr exits.2),
          if_neg fun enters => absurd first (not_le.mpr enters.1), List.length_nil]
      rw [if_pos last, none]
      refine ⟨nofun, ?_⟩
      rintro r ⟨⟩
      refine ⟨rfl, rfl, [p], rfl, ?_, one (inside last)⟩
      unfold emit
      rw [if_pos first, if_pos last]
      rfl
    · have outside := not_le.mp last
      have single : crossed = 1 := by
        unfold crossed border
        rw [if_pos ⟨first, outside⟩, List.length_singleton]
      rw [if_neg last, single]
      split_ifs with many
      · exact ⟨fun _ => many, nofun⟩
      · refine ⟨nofun, ?_⟩
        rintro r ⟨⟩
        refine ⟨rfl, rfl, [_], rfl, ?_, one (created _ _ _ _)⟩
        unfold emit
        rw [if_pos first, if_neg last]
        rfl
  · have outside := not_le.mp first
    rw [if_neg first]
    by_cases last : frustumPlaneDist plane p.clip ≥ 0
    · rw [if_pos last]
      by_cases zero : frustumPlaneDist plane p.clip = 0
      · have none : crossed = 0 := by
          unfold crossed border
          rw [if_neg fun exits => first exits.1, if_neg fun enters => absurd zero enters.2.ne',
            List.length_nil]
        rw [if_neg (not_not.mpr zero), none]
        refine ⟨nofun, ?_⟩
        rintro r ⟨⟩
        refine ⟨rfl, rfl, [p], rfl, ?_, one (inside last)⟩
        unfold emit
        rw [if_neg first, if_pos last, if_neg (not_not.mpr zero)]
        rfl
      · have single : crossed = 1 := by
          unfold crossed border
          rw [if_neg fun exits => first exits.1,
            if_pos ⟨outside, lt_of_le_of_ne last (Ne.symm zero)⟩, List.length_singleton]
        rw [if_pos zero, single]
        split_ifs with many
        · exact ⟨fun _ => many, nofun⟩
        · refine ⟨nofun, ?_⟩
          rintro r ⟨⟩
          refine ⟨rfl, rfl, [_, p], List.append_assoc _ _ _, ?_, ?_⟩
          · unfold emit
            rw [if_neg first, if_pos last, if_pos zero]
            rfl
          · exact List.forall_mem_cons.mpr ⟨created _ _ _ _, one (inside last)⟩
    · have none : crossed = 0 := by
        unfold crossed border
        rw [if_neg fun exits => first exits.1, if_neg fun enters => last enters.2.le,
          List.length_nil]
      rw [if_neg last, none]
      refine ⟨nofun, ?_⟩
      rintro r ⟨⟩
      refine ⟨rfl, rfl, [], (List.append_nil _).symm, ?_, nofun⟩
      unfold emit
      rw [if_neg first, if_neg last]
      rfl

variable (c buffer plane) in
theorem turns_spec (ivl : List Vertex) (l : Loop) :
    let crossed :=
      crossings (frustumPlaneDist plane) (crossVec plane) l.s.clip (ivl.map Vertex.clip)
    (turns c buffer plane ivl l = none → 3 ≤ l.sentinel + crossed) ∧
    ∀ r, turns c buffer plane ivl l = some r → ∃ new, r.output = l.output ++ new ∧
      new.map Vertex.clip =
        clipped (frustumPlaneDist plane) (crossVec plane) l.s.clip (ivl.map Vertex.clip) ∧
      ∀ v ∈ new, Comes c plane ivl v := by
  induction ivl generalizing l with
  | nil =>
    refine ⟨nofun, ?_⟩
    rintro r ⟨⟩
    exact ⟨[], (List.append_nil _).symm, rfl, nofun⟩
  | cons p rest ih =>
    obtain ⟨returns, goes⟩ := turn_spec c buffer plane l p
    unfold turns
    cases step : Exact.turn c buffer plane l p with
    | none =>
      rw [Option.bind_none]
      refine ⟨fun _ => ?_, nofun⟩
      have many := returns step
      exact many.trans (Nat.add_le_add_left (Nat.le_add_right _ _) _)
    | some next =>
      rw [Option.bind_some]
      obtain ⟨sentinel, previous, new, output, clips, comes⟩ := goes next step
      obtain ⟨later, runs⟩ := ih next
      rw [sentinel, previous] at later
      rw [previous] at runs
      refine ⟨fun none => ?_, fun r run => ?_⟩
      · have many := later none
        rwa [Nat.add_assoc] at many
      · obtain ⟨rest', output', clips', comes'⟩ := runs r run
        refine ⟨new ++ rest', ?_, ?_, ?_⟩
        · rw [output', output, List.append_assoc]
        · rw [List.map_append, clips, clips']
          rfl
        · intro v member
          rcases List.mem_append.mp member with first | last
          · rcases comes v first with ⟨old, inside⟩ | created
            · rw [List.mem_singleton.mp old] at inside ⊢
              exact .inl ⟨List.mem_cons_self, inside⟩
            · exact .inr created
          · rcases comes' v last with ⟨old, inside⟩ | created
            · exact .inl ⟨List.mem_cons_of_mem _ old, inside⟩
            · exact .inr created

end Turns

def planeForm (k : Fin 6) : Vec4 →ₗ[ℚ] ℚ where
  toFun := frustumPlaneDist k
  map_add' := by
    intro x y
    unfold frustumPlaneDist
    dsimp only [Pi.add_apply]
    split_ifs <;> ring
  map_smul' := by
    intro r x
    unfold frustumPlaneDist
    dsimp only [Pi.smul_apply, RingHom.id_apply]
    split_ifs <;> simp only [smul_eq_mul] <;> ring

/-- The point of the triangle with the weights `x` and `y` at its second and third corner. -/
def place (v0 v1 v2 : Vec4) : ℚ × ℚ →ᵃ[ℚ] Vec4 :=
  ((LinearMap.toSpanSingleton ℚ Vec4 (v1 - v0)).coprod
    (LinearMap.toSpanSingleton ℚ Vec4 (v2 - v0))).toAffineMap + AffineMap.const ℚ _ v0

section Place

variable (v0 v1 v2 : Vec4)

theorem place_apply (w : ℚ × ℚ) :
    place v0 v1 v2 w = w.1 • (v1 - v0) + w.2 • (v2 - v0) + v0 := rfl

def height (k : Fin 6) : ℚ × ℚ →ᵃ[ℚ] ℚ := (planeForm k).toAffineMap.comp (place v0 v1 v2)

theorem height_apply (k : Fin 6) (w : ℚ × ℚ) :
    height v0 v1 v2 k w = frustumPlaneDist k (place v0 v1 v2 w) := rfl

theorem place_cross (k : Fin 6) (a b : ℚ × ℚ) :
    place v0 v1 v2 (cross (height v0 v1 v2 k) a b) =
      crossVec k (place v0 v1 v2 a) (place v0 v1 v2 b) := by
  rw [cross, crossVec, clipDivide, height_apply, height_apply]
  generalize frustumPlaneDist k (place v0 v1 v2 a) /
    (frustumPlaneDist k (place v0 v1 v2 a) - frustumPlaneDist k (place v0 v1 v2 b)) = t
  funext i
  rw [place_apply, place_apply, place_apply, clipVec4]
  simp only [Pi.add_apply, Pi.smul_apply, Pi.sub_apply, smul_eq_mul, Prod.fst_add, Prod.snd_add,
    Prod.smul_fst, Prod.smul_snd, Prod.fst_sub, Prod.snd_sub]
  ring

def corners : List (ℚ × ℚ) := [(0, 0), (1, 0), (0, 1)]

theorem map_corners : corners.map (place v0 v1 v2) = [v0, v1, v2] := by
  have first : place v0 v1 v2 (0, 0) = v0 := by
    rw [place_apply, zero_smul, zero_smul, zero_add, zero_add]
  have second : place v0 v1 v2 (1, 0) = v1 := by
    rw [place_apply, one_smul, zero_smul, add_zero, sub_add_cancel]
  have third : place v0 v1 v2 (0, 1) = v2 := by
    rw [place_apply, zero_smul, one_smul, zero_add, sub_add_cancel]
  rw [corners, List.map_cons, List.map_cons, List.map_cons, List.map_nil, first, second, third]

theorem turning_corners : Turning corners := by
  intro a b c sub
  obtain ⟨rfl, rfl, rfl⟩ : a = (0, 0) ∧ b = (1, 0) ∧ c = (0, 1) := by
    have whole := sub.eq_of_length rfl
    simp only [corners, List.cons.injEq, and_true] at whole
    exact whole
  decide +kernel

theorem minor_place (i j k : Fin 4) (a b c : ℚ × ℚ) :
    minor i j k (place v0 v1 v2 a) (place v0 v1 v2 b) (place v0 v1 v2 c) =
      Lib.ConvexPolygons.turn a b c * minor i j k v0 v1 v2 := by
  rw [place_apply, place_apply, place_apply]
  unfold minor Lib.ConvexPolygons.turn
  simp only [Pi.add_apply, Pi.smul_apply, Pi.sub_apply, smul_eq_mul]
  ring

theorem place_hull (l : List (ℚ × ℚ)) :
    place v0 v1 v2 '' hull l = convexHull ℚ {x | x ∈ l.map (place v0 v1 v2)} := by
  rw [hull, AffineMap.image_convexHull]
  congr 1
  ext x
  simp only [Set.mem_image, Set.mem_ofPred_eq, List.mem_map]

theorem place_triangle (t : (ℚ × ℚ) × (ℚ × ℚ) × (ℚ × ℚ)) :
    place v0 v1 v2 '' triangle t =
      convexHull ℚ {place v0 v1 v2 t.1, place v0 v1 v2 t.2.1, place v0 v1 v2 t.2.2} := by
  rw [triangle, AffineMap.image_convexHull, Set.image_insert_eq, Set.image_insert_eq,
    Set.image_singleton]

end Place

section Planes

variable {c : Viewport} {buffer : Nat → Vertex} {v0 v1 v2 : Vec4}

/-- The weights of a list of vertices: a polygon in the plane of the triangle. -/
structure Placed (v0 v1 v2 : Vec4) (ivl : List Vertex) (l : List (ℚ × ℚ)) : Prop where
  clips : ivl.map Vertex.clip = l.map (place v0 v1 v2)
  turning : Turning l
  three : 3 ≤ l.length

variable {ivl : List Vertex}

theorem Placed.exists_mem_fan {w0 w1 x : ℚ × ℚ} {weights : List (ℚ × ℚ)}
    (placed : Placed v0 v1 v2 ivl (w0 :: w1 :: weights)) (inside : x ∈ hull (w0 :: w1 :: weights)) :
    ∃ t ∈ fan w0 w1 weights, x ∈ triangle t := by
  match weights, placed with
  | w2 :: weights, placed =>
    exact Lib.ConvexPolygons.exists_mem_fan placed.turning inside
  | [], placed => exact absurd placed.three (by simp)

def above (v0 v1 v2 : Vec4) (planes : List (Fin 6)) (l : List (ℚ × ℚ)) : Set (ℚ × ℚ) :=
  {w | w ∈ hull l ∧ ∀ k ∈ planes, 0 ≤ height v0 v1 v2 k w}

theorem flat_mono {s s' : Set (ℚ × ℚ)} (flat : Flat s') (sub : s ⊆ s') : Flat s :=
  fun a ha b hb d hd => flat a (sub ha) b (sub hb) d (sub hd)

theorem exists_last {α : Type} {l : List α} (three : 3 ≤ l.length) :
    ∃ s, l.getLast? = some s := by
  have some : l ≠ [] := List.ne_nil_of_length_pos (by omega)
  exact ⟨l.getLast some, List.getLast?_eq_some_getLast some⟩

theorem exists_two {α : Type} {l : List α} (three : 3 ≤ l.length) :
    ∃ a b rest, l = a :: b :: rest := by
  match l, three with
  | a :: b :: rest, _ => exact ⟨a, b, rest, rfl⟩

theorem flat_of_crossings {l : List (ℚ × ℚ)} {plane : Fin 6} {w : ℚ × ℚ}
    (placed : Placed v0 v1 v2 ivl l) (last : l.getLast? = some w)
    (many : 3 ≤ crossings (frustumPlaneDist plane) (crossVec plane) (place v0 v1 v2 w)
      (ivl.map Vertex.clip)) : Flat (hull l) := by
  have weights : crossings (frustumPlaneDist plane) (crossVec plane) (place v0 v1 v2 w)
      (l.map (place v0 v1 v2)) =
      crossings (height v0 v1 v2 plane) (cross (height v0 v1 v2 plane)) w l :=
    crossings_map (fun _ => rfl) w l
  rw [placed.clips, weights] at many
  obtain ⟨u, rest, length, chain, sub, _⟩ := exists_alternating many
  obtain ⟨l', rfl⟩ : ∃ l', l = l' ++ [w] := List.getLast?_eq_some_iff.mp last
  have closed := turning_closed placed.turning
  match rest, length, chain, sub with
  | [x, y, z], _, chain, sub =>
    apply flat_mono (flat_of_alternating closed sub chain)
    exact hull_mono fun a member => List.mem_cons_of_mem _ member

variable (c buffer) in
theorem planes_spec (planes : List (Fin 6)) {l : List (ℚ × ℚ)} (used : Nat)
    (placed : Placed v0 v1 v2 ivl l) :
    (clipTrianglePlanes c buffer planes ivl used = none → Flat (above v0 v1 v2 planes l)) ∧
    ∀ r, clipTrianglePlanes c buffer planes ivl used = some r → ∃ l', Placed v0 v1 v2 r l' ∧
      hull l' = above v0 v1 v2 planes l ∧
      ∀ v ∈ r, (v ∈ ivl ∧ ∀ k ∈ planes, 0 ≤ frustumPlaneDist k v.clip) ∨ Created c v := by
  induction planes generalizing ivl l used with
  | nil =>
    refine ⟨nofun, ?_⟩
    rintro r ⟨⟩
    refine ⟨l, placed, ?_, fun v member => .inl ⟨member, nofun⟩⟩
    ext w
    exact ⟨fun here => ⟨here, nofun⟩, fun here => here.1⟩
  | cons plane planes ih =>
    have lengths := congrArg List.length placed.clips
    rw [List.length_map, List.length_map] at lengths
    have three := placed.three
    obtain ⟨w, last⟩ := exists_last three
    obtain ⟨s, final⟩ := exists_last (lengths ▸ three)
    have same : s.clip = place v0 v1 v2 w := by
      have ends := congrArg List.getLast? placed.clips
      rw [List.getLast?_map, List.getLast?_map, last, final] at ends
      exact Option.some.inj ends
    obtain ⟨returns, goes⟩ := turns_spec c buffer plane ivl ⟨[], used, 0, s⟩
    obtain ⟨turning, region⟩ := clipped_spec (f := height v0 v1 v2 plane) placed.turning last three
    have shrinks : above v0 v1 v2 (plane :: planes) l ⊆
        hull (clipped (height v0 v1 v2 plane) (cross (height v0 v1 v2 plane)) w l) :=
      fun x here => (region x).mpr ⟨here.1, here.2 plane List.mem_cons_self⟩
    unfold clipTrianglePlanes
    rw [final]
    dsimp only
    cases run : turns c buffer plane ivl ⟨[], used, 0, s⟩ with
    | none =>
      rw [Option.bind_none]
      refine ⟨fun _ => ?_, nofun⟩
      have many := returns run
      rw [Nat.zero_add] at many
      simp only [same] at many
      exact flat_mono (flat_of_crossings placed last many) fun x here => here.1
    | some next =>
      rw [Option.bind_some]
      obtain ⟨new, output, clips, comes⟩ := goes next run
      rw [List.nil_append] at output
      have moved : new.map Vertex.clip =
          (clipped (height v0 v1 v2 plane) (cross (height v0 v1 v2 plane)) w l).map
            (place v0 v1 v2) := by
        rw [clips, placed.clips, same]
        exact (map_clipped (fun _ => rfl) (place_cross v0 v1 v2 plane) w l).symm
      have count := congrArg List.length moved
      rw [List.length_map, List.length_map] at count
      rw [output]
      split_ifs with short
      · refine ⟨fun _ => ?_, nofun⟩
        rw [count] at short
        exact flat_mono (flat_hull_of_length short) shrinks
      · have placed' : Placed v0 v1 v2 new
            (clipped (height v0 v1 v2 plane) (cross (height v0 v1 v2 plane)) w l) :=
          ⟨moved, turning, by omega⟩
        have rest : above v0 v1 v2 planes
            (clipped (height v0 v1 v2 plane) (cross (height v0 v1 v2 plane)) w l) =
            above v0 v1 v2 (plane :: planes) l := by
          ext x
          constructor
          · rintro ⟨here, inside⟩
            obtain ⟨old, first⟩ := (region x).mp here
            exact ⟨old, List.forall_mem_cons.mpr ⟨first, inside⟩⟩
          · rintro ⟨here, inside⟩
            obtain ⟨first, later⟩ := List.forall_mem_cons.mp inside
            exact ⟨(region x).mpr ⟨here, first⟩, later⟩
        obtain ⟨stops, leaves⟩ := ih next.used placed'
        rw [rest] at stops leaves
        refine ⟨stops, fun r left => ?_⟩
        obtain ⟨l', final', regions, from'⟩ := leaves r left
        refine ⟨l', final', regions, fun v member => ?_⟩
        rcases from' v member with ⟨old, inside⟩ | created
        · rcases comes v old with ⟨older, first⟩ | created
          · exact .inl ⟨older, List.forall_mem_cons.mpr ⟨first, inside⟩⟩
          · exact .inr created
        · exact .inr created

end Planes

section Call

variable (c : Viewport) (buffer : Nat → Vertex) (a0 a1 a2 : Vertex)

/-- The vertices as `clip_triangle` is given them. -/
def given : Vertex × Vertex × Vertex :=
  (clipFrustumPerspective c a0, clipFrustumPerspective c a1, clipFrustumPerspective c a2)

def flagged (t : Vertex × Vertex × Vertex) : List (Fin 6) := planesOf [t.1, t.2.1, t.2.2]

variable {c a0 a1 a2}

theorem given_inside {v : Vertex} {k : Fin 6}
    (member : v ∈ [(given c a0 a1 a2).1, (given c a0 a1 a2).2.1, (given c a0 a1 a2).2.2])
    (unflagged : v.flags k = false) : 0 ≤ frustumPlaneDist k v.clip := by
  by_contra outside
  have flag : v.flags k = true := by
    simp only [List.mem_cons, List.not_mem_nil, or_false] at member
    rcases member with rfl | rfl | rfl <;>
      exact clipFrustumPerspective_flag.mpr (not_le.mp outside)
  rw [unflagged] at flag
  exact absurd flag (by decide)

theorem inside_place (w : ℚ × ℚ) (here : w ∈ hull corners) :
    Inside (place a0.clip a1.clip a2.clip w) ↔
      ∀ k ∈ flagged (given c a0 a1 a2), 0 ≤ height a0.clip a1.clip a2.clip k w := by
  rw [inside_iff]
  constructor
  · exact fun all k _ => all k
  · intro some k
    by_cases flag : k ∈ flagged (given c a0 a1 a2)
    · exact some k flag
    · rw [← height_apply]
      apply hull_inside _ here
      intro x member
      have corner : place a0.clip a1.clip a2.clip x ∈ [a0.clip, a1.clip, a2.clip] := by
        rw [← map_corners]
        exact List.mem_map_of_mem member
      rw [height_apply]
      have unflagged {v : Vertex}
          (given : v ∈ [(given c a0 a1 a2).1, (given c a0 a1 a2).2.1, (given c a0 a1 a2).2.2]) :
          0 ≤ frustumPlaneDist k v.clip := by
        apply given_inside given
        by_contra set
        exact flag (mem_planesOf.mpr ⟨v, given, Bool.eq_true_of_not_eq_false set⟩)
      simp only [List.mem_cons, List.not_mem_nil, or_false] at corner
      rcases corner with first | second | third
      · rw [first, ← clipFrustumPerspective_clip c a0]
        exact unflagged (v := (given c a0 a1 a2).1) List.mem_cons_self
      · rw [second, ← clipFrustumPerspective_clip c a1]
        exact unflagged (v := (given c a0 a1 a2).2.1) (List.mem_cons_of_mem _ List.mem_cons_self)
      · rw [third, ← clipFrustumPerspective_clip c a2]
        exact unflagged (v := (given c a0 a1 a2).2.2)
          (List.mem_cons_of_mem _ (List.mem_cons_of_mem _ List.mem_cons_self))

theorem points_given :
    points (given c a0 a1 a2) = place a0.clip a1.clip a2.clip '' hull corners := by
  rw [place_hull, map_corners]
  have set : {x | x ∈ [a0.clip, a1.clip, a2.clip]} =
      ({a0.clip, a1.clip, a2.clip} : Set Vec4) := by
    ext x
    simp only [List.mem_cons, List.not_mem_nil, or_false, Set.mem_insert_iff,
      Set.mem_singleton_iff, Set.mem_ofPred_eq]
  rw [set, points, given, clipFrustumPerspective_clip, clipFrustumPerspective_clip,
    clipFrustumPerspective_clip]

theorem points_inside :
    points (given c a0 a1 a2) ∩ {x | Inside x} = place a0.clip a1.clip a2.clip ''
      above a0.clip a1.clip a2.clip (flagged (given c a0 a1 a2)) corners := by
  rw [points_given]
  ext x
  constructor
  · rintro ⟨⟨w, here, rfl⟩, inside⟩
    exact ⟨w, ⟨here, (inside_place w here).mp inside⟩, rfl⟩
  · rintro ⟨w, ⟨here, inside⟩, rfl⟩
    exact ⟨⟨w, here, rfl⟩, (inside_place w here).mpr inside⟩

variable (c a0 a1 a2) in
theorem placed_given : Placed a0.clip a1.clip a2.clip
    [(given c a0 a1 a2).1, (given c a0 a1 a2).2.1, (given c a0 a1 a2).2.2] corners where
  clips := by
    rw [map_corners, List.map_cons, List.map_cons, List.map_cons, List.map_nil, given,
      clipFrustumPerspective_clip, clipFrustumPerspective_clip, clipFrustumPerspective_clip]
  turning := turning_corners
  three := le_rfl

theorem no_interior {s : Set (ℚ × ℚ)} (flat : Flat s)
    (fits : HasInterior (given c a0 a1 a2) (place a0.clip a1.clip a2.clip '' s))
    (inverse : ∀ w ∈ hull corners, place a0.clip a1.clip a2.clip w ∈
      place a0.clip a1.clip a2.clip '' s → w ∈ s) : False := by
  obtain ⟨x, point, ε, ⟨positive, small⟩, copy⟩ := fits
  rw [points_given] at point copy
  obtain ⟨w, here, rfl⟩ := point
  have shrunk (u : ℚ × ℚ) (corner : u ∈ corners) : w + ε • (u - w) ∈ s := by
    apply inverse
    · have convex : Convex ℚ (hull corners) := convex_convexHull ℚ _
      exact convex.add_smul_sub_mem here (mem_hull corner) ⟨positive.le, small⟩
    · have image := copy _ ⟨u, mem_hull corner, rfl⟩
      have same : place a0.clip a1.clip a2.clip (w + ε • (u - w)) =
          place a0.clip a1.clip a2.clip w +
            ε • (place a0.clip a1.clip a2.clip u - place a0.clip a1.clip a2.clip w) := by
        rw [place_apply, place_apply, place_apply]
        simp only [Prod.fst_add, Prod.snd_add, Prod.smul_fst, Prod.smul_snd, Prod.fst_sub,
          Prod.snd_sub, smul_eq_mul]
        module
      rwa [same]
  have area := flat _ (shrunk (0, 0) List.mem_cons_self) _
    (shrunk (1, 0) (List.mem_cons_of_mem _ List.mem_cons_self)) _
    (shrunk (0, 1) (List.mem_cons_of_mem _ (List.mem_cons_of_mem _ List.mem_cons_self)))
  unfold Lib.ConvexPolygons.turn at area
  simp only [Prod.fst_add, Prod.snd_add, Prod.smul_fst, Prod.smul_snd, Prod.fst_sub, Prod.snd_sub,
    smul_eq_mul] at area
  have square : ε * ε = 0 := by linear_combination area
  exact absurd (mul_self_eq_zero.mp square) positive.ne'

variable {w0 w1 : ℚ × ℚ}

theorem sameDirection_of_turning {t : Vertex × Vertex × Vertex} {w2 : ℚ × ℚ}
    (clips : [t.1.clip, t.2.1.clip, t.2.2.clip] = [w0, w1, w2].map (place a0.clip a1.clip a2.clip))
    (left : 0 ≤ Lib.ConvexPolygons.turn w0 w1 w2) : SameDirection (given c a0 a1 a2) t := by
  refine ⟨Lib.ConvexPolygons.turn w0 w1 w2, left, fun i j k => ?_⟩
  simp only [List.map_cons, List.map_nil, List.cons.injEq, and_true] at clips
  obtain ⟨first, second, third⟩ := clips
  rw [first, second, third, minor_place, given, clipFrustumPerspective_clip,
    clipFrustumPerspective_clip, clipFrustumPerspective_clip]

theorem points_of_clips {t : Vertex × Vertex × Vertex} {w2 : ℚ × ℚ}
    (clips : [t.1.clip, t.2.1.clip, t.2.2.clip] = [w0, w1, w2].map (place a0.clip a1.clip a2.clip)) :
    points t = place a0.clip a1.clip a2.clip '' triangle (w0, w1, w2) := by
  simp only [List.map_cons, List.map_nil, List.cons.injEq, and_true] at clips
  obtain ⟨first, second, third⟩ := clips
  rw [place_triangle, points, first, second, third]

theorem exists_weights {p0 p1 : Vertex} {rest : List Vertex} {weights : List (ℚ × ℚ)}
    (clips : (p0 :: p1 :: rest).map Vertex.clip =
      (w0 :: w1 :: weights).map (place a0.clip a1.clip a2.clip)) :
    (∀ t ∈ fan p0 p1 rest, ∃ u ∈ fan w0 w1 weights, [t.1.clip, t.2.1.clip, t.2.2.clip] =
      [u.1, u.2.1, u.2.2].map (place a0.clip a1.clip a2.clip)) ∧
    ∀ u ∈ fan w0 w1 weights, ∃ t ∈ fan p0 p1 rest, [t.1.clip, t.2.1.clip, t.2.2.clip] =
      [u.1, u.2.1, u.2.2].map (place a0.clip a1.clip a2.clip) := by
  simp only [List.map_cons, List.cons.injEq] at clips
  obtain ⟨first, second, others⟩ := clips
  have fans : (fan p0 p1 rest).map (fun t => (t.1.clip, t.2.1.clip, t.2.2.clip)) =
      (fan w0 w1 weights).map (fun u => (place a0.clip a1.clip a2.clip u.1,
        place a0.clip a1.clip a2.clip u.2.1, place a0.clip a1.clip a2.clip u.2.2)) := by
    rw [map_fan, map_fan, first, second, others]
  constructor
  · intro t member
    have image := List.mem_map_of_mem (f := fun t : Vertex × Vertex × Vertex =>
      (t.1.clip, t.2.1.clip, t.2.2.clip)) member
    rw [fans] at image
    obtain ⟨u, inner, same⟩ := List.mem_map.mp image
    obtain ⟨x, y, z⟩ := by simpa only [Prod.mk.injEq] using same
    refine ⟨u, inner, ?_⟩
    rw [List.map_cons, List.map_cons, List.map_cons, List.map_nil, x, y, z]
  · intro u member
    have image := List.mem_map_of_mem (f := fun u : (ℚ × ℚ) × (ℚ × ℚ) × (ℚ × ℚ) =>
      (place a0.clip a1.clip a2.clip u.1, place a0.clip a1.clip a2.clip u.2.1,
        place a0.clip a1.clip a2.clip u.2.2)) member
    rw [← fans] at image
    obtain ⟨t, inner, same⟩ := List.mem_map.mp image
    obtain ⟨x, y, z⟩ := by simpa only [Prod.mk.injEq] using same
    refine ⟨t, inner, ?_⟩
    rw [List.map_cons, List.map_cons, List.map_cons, List.map_nil, x, y, z]

theorem rendered_of_inside {v : Vertex}
    (from' : (v ∈ [(given c a0 a1 a2).1, (given c a0 a1 a2).2.1, (given c a0 a1 a2).2.2] ∧
      ∀ k ∈ flagged (given c a0 a1 a2), 0 ≤ frustumPlaneDist k v.clip) ∨ Created c v) :
    Rendered c (given c a0 a1 a2) v := by
  rcases from' with ⟨corner, inside⟩ | created
  · refine .inl ⟨corner, fun k => ?_⟩
    by_contra set
    have flag : v.flags k = true := Bool.eq_true_of_not_eq_false set
    have outside : frustumPlaneDist k v.clip < 0 := by
      simp only [List.mem_cons, List.not_mem_nil, or_false] at corner
      rcases corner with rfl | rfl | rfl <;> exact clipFrustumPerspective_flag.mp flag
    exact absurd (inside k (mem_planesOf.mpr ⟨v, corner, flag⟩)) (not_le.mpr outside)
  · exact .inr created

end Call

/-- `clip_triangle` renders the part of its triangle inside of the view volume, and returns early
only where that part is flat. -/
theorem clipTriangle_inside (c : Viewport) (buffer : Nat → Vertex) (a0 a1 a2 : Vertex) :
    let t := given c a0 a1 a2
    (∀ rendered, clipTriangle c buffer t.1 t.2.1 t.2.2 = some rendered →
      (⋃ u ∈ rendered, points u) = points t ∩ {x | Inside x} ∧
      ∀ u ∈ rendered, SameDirection t u ∧ ∀ v ∈ [u.1, u.2.1, u.2.2], Rendered c t v) ∧
    (clipTriangle c buffer t.1 t.2.1 t.2.2 = none →
      ¬HasInterior t (points t ∩ {x | Inside x})) := by
  intro t
  obtain ⟨stops, leaves⟩ := planes_spec c buffer (flagged (given c a0 a1 a2)) 0 (placed_given c a0 a1 a2)
  unfold clipTriangle
  constructor
  · intro rendered call
    obtain ⟨r, left, fans⟩ := Option.map_eq_some_iff.mp call
    obtain ⟨l, placed, region, comes⟩ := leaves r left
    have lengths := congrArg List.length placed.clips
    rw [List.length_map, List.length_map] at lengths
    obtain ⟨w0, w1, weights, rfl⟩ := exists_two placed.three
    obtain ⟨p0, p1, rest, rfl⟩ := exists_two (lengths ▸ placed.three)
    obtain rfl : fan p0 p1 rest = rendered := fans
    obtain ⟨forth, back⟩ := exists_weights placed.clips
    refine ⟨?_, fun u member => ⟨?_, ?_⟩⟩
    · rw [points_inside, ← region]
      ext x
      simp only [Set.mem_iUnion, exists_prop]
      constructor
      · rintro ⟨u, member, point⟩
        obtain ⟨w, inner, clips⟩ := forth u member
        rw [points_of_clips clips] at point
        obtain ⟨y, inside, rfl⟩ := point
        obtain ⟨base, sub⟩ := mem_fan inner
        refine ⟨y, triangle_subset ?_ ?_ ?_ inside, rfl⟩
        · rw [base]
          exact List.mem_cons_self
        · exact List.mem_cons_of_mem _ (sub.subset List.mem_cons_self)
        · exact List.mem_cons_of_mem _
            (sub.subset (List.mem_cons_of_mem _ List.mem_cons_self))
      · rintro ⟨y, inside, rfl⟩
        obtain ⟨w, inner, here⟩ := placed.exists_mem_fan inside
        obtain ⟨u, member, clips⟩ := back w inner
        refine ⟨u, member, ?_⟩
        rw [points_of_clips clips]
        exact ⟨y, here, rfl⟩
    · obtain ⟨w, inner, clips⟩ := forth u member
      obtain ⟨base, sub⟩ := mem_fan inner
      apply sameDirection_of_turning clips
      apply placed.turning
      rw [base]
      exact sub.cons_cons _
    · intro v corner
      apply rendered_of_inside
      apply comes
      obtain ⟨base, sub⟩ := mem_fan member
      simp only [List.mem_cons, List.not_mem_nil, or_false] at corner
      rcases corner with rfl | rfl | rfl
      · rw [base]
        exact List.mem_cons_self
      · exact List.mem_cons_of_mem _ (sub.subset List.mem_cons_self)
      · exact List.mem_cons_of_mem _ (sub.subset (List.mem_cons_of_mem _ List.mem_cons_self))
  · intro call fits
    have flat := stops (Option.map_eq_none_iff.mp call)
    rw [points_inside] at fits
    apply no_interior flat fits
    rintro w here image
    refine ⟨here, (inside_place w here).mp ?_⟩
    rw [← points_inside] at image
    exact image.2

end RabbitRender.Clipping.ExactTriangles
