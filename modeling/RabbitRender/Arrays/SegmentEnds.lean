/- RabbitRender/Arrays/SegmentEnds
   layer: result
   source: swrender/primitives.cpp, swrender/vertex.cpp
   digest: Flags and distances of compiled vertices, and the ends of segments that clipping moves. -/

import RabbitRender.Primitives

set_option autoImplicit false

namespace RabbitRender.Arrays.SegmentEnds

open Vertices Arrays.Compile Primitives

variable (p : Pipeline)

private theorem frustum_bits : ∀ l r b t n f : Bool,
    let clip : Flags := (if l then clipL else 0) ||| (if r then clipR else 0) |||
      (if b then clipB else 0) ||| (if t then clipT else 0) ||| (if n then clipN else 0) |||
      (if f then clipF else 0)
    (l → clip &&& 1 <<< 0 ≠ 0) ∧ (r → clip &&& 1 <<< 1 ≠ 0) ∧ (b → clip &&& 1 <<< 2 ≠ 0) ∧
      (t → clip &&& 1 <<< 3 ≠ 0) ∧ (n → clip &&& 1 <<< 4 ≠ 0) ∧ (f → clip &&& 1 <<< 5 ≠ 0) ∧
      clip &&& userClipAll = 0 := by
  decide

variable {i : Nat}

private theorem frustumClip_bit (c : Vec4) (hi : i < 6) (h : frustumPlaneDist i c < 0) :
    c.frustumClip &&& 1 <<< i ≠ 0 := by
  have bits := frustum_bits (decide (c.x < -c.w)) (decide (c.x > c.w)) (decide (c.y < -c.w))
    (decide (c.y > c.w)) (decide (c.z < -c.w)) (decide (c.z > c.w))
  simp only [decide_eq_true_eq] at bits
  obtain ⟨l, r, b, t, n, f, -⟩ := bits
  obtain rfl | rfl | rfl | rfl | rfl | rfl : i = 0 ∨ i = 1 ∨ i = 2 ∨ i = 3 ∨ i = 4 ∨ i = 5 := by
    omega
  all_goals simp [frustumPlaneDist, Vec4.get] at h
  · exact l (by omega)
  · exact r (by omega)
  · exact b (by omega)
  · exact t (by omega)
  · exact n (by omega)
  · exact f (by omega)

private theorem frustumClip_user (c : Vec4) (hi : i < 6) : c.frustumClip &&& 0x100 <<< i = 0 := by
  have bits := frustum_bits (decide (c.x < -c.w)) (decide (c.x > c.w)) (decide (c.y < -c.w))
    (decide (c.y > c.w)) (decide (c.z < -c.w)) (decide (c.z > c.w))
  simp only [decide_eq_true_eq] at bits
  have none : c.frustumClip &&& userClipAll = 0 := bits.2.2.2.2.2.2
  have sub : (0x100 <<< i : Flags) = userClipAll &&& 0x100 <<< i := by
    obtain rfl | rfl | rfl | rfl | rfl | rfl : i = 0 ∨ i = 1 ∨ i = 2 ∨ i = 3 ∨ i = 4 ∨ i = 5 := by
      omega
    all_goals decide
  rw [sub, ← BitVec.and_assoc, none]
  exact BitVec.zero_and

private theorem user_bits : ∀ a b c d e f : Bool,
    let clip : Flags := [(a, 5), (b, 4), (c, 3), (d, 2), (e, 1), (f, 0)].foldl
      (fun clip plane => if plane.1 then clip ||| 0x100 <<< plane.2 else clip) 0
    (a ↔ clip &&& 0x100 <<< 5 ≠ 0) ∧ (b ↔ clip &&& 0x100 <<< 4 ≠ 0) ∧
      (c ↔ clip &&& 0x100 <<< 3 ≠ 0) ∧ (d ↔ clip &&& 0x100 <<< 2 ≠ 0) ∧
      (e ↔ clip &&& 0x100 <<< 1 ≠ 0) ∧ (f ↔ clip &&& 0x100 <<< 0 ≠ 0) ∧ clip &&& clipAll = clip := by
  decide

/-- The user plane `i` is enabled and `e` is outside of it. -/
def userOutside (e : Vec4) (i : Nat) : Bool := p.clipEnable i && dot4 (p.clipPlane i) e < 0

private theorem userClip_bit (e : Vec4) (hi : i < 6) :
    userOutside p e i ↔ p.userClip e &&& 0x100 <<< i ≠ 0 := by
  have bits := user_bits (userOutside p e 5) (userOutside p e 4) (userOutside p e 3)
    (userOutside p e 2) (userOutside p e 1) (userOutside p e 0)
  obtain ⟨h5, h4, h3, h2, h1, h0, -⟩ := bits
  obtain rfl | rfl | rfl | rfl | rfl | rfl : i = 0 ∨ i = 1 ∨ i = 2 ∨ i = 3 ∨ i = 4 ∨ i = 5 := by
    omega
  · exact h0
  · exact h1
  · exact h2
  · exact h3
  · exact h4
  · exact h5

private theorem userClip_and (e : Vec4) : p.userClip e &&& clipAll = p.userClip e :=
  (user_bits (userOutside p e 5) (userOutside p e 4) (userOutside p e 3)
    (userOutside p e 2) (userOutside p e 1) (userOutside p e 0)).2.2.2.2.2.2

private theorem compiled_outside :
    (∀ element index, (p.compiled element index).outside = 0) ∨
      (∀ element index, (p.compiled element index).outside =
        (p.compiled element index).clip.frustumClip) ∨
      ∀ element index, (p.compiled element index).outside =
        p.userClip (p.compiled element index).obj ||| (p.compiled element index).clip.frustumClip := by
  have frustum (depth : Bool) (v : Vertex) (flags : v.flags = 0) :
      (p.clipFrustumPerspective depth v).2.outside =
        (p.clipFrustumPerspective depth v).2.clip.frustumClip := by
    obtain ⟨-, clip, -⟩ := p.clipFrustumPerspective_spec depth v
    rw [(p.clipFrustumPerspective_outside depth v).2, clip, Vertex.outside, flags]
    simp
  have all (depth : Bool) (v : Vertex) (flags : v.flags = 0) :
      (p.clipAllPerspective depth v).2.outside =
        p.userClip (p.clipAllPerspective depth v).2.obj |||
          (p.clipAllPerspective depth v).2.clip.frustumClip := by
    simp only [Pipeline.clipAllPerspective]
    set w : Vertex := { v with
      obj := point p.modelview p.components v.obj
      flags := v.flags ||| eye ||| p.userClip (point p.modelview p.components v.obj) } with hw
    obtain ⟨obj, clip, -⟩ := p.clipFrustumPerspective_spec depth w
    have planes : w.outside = p.userClip w.obj := by
      show (v.flags ||| eye ||| p.userClip w.obj) &&& clipAll = p.userClip w.obj
      rw [BitVec.and_comm, BitVec.and_or_distrib_left, BitVec.and_comm clipAll (p.userClip w.obj),
        userClip_and, flags, show clipAll &&& (0 ||| eye) = 0 by decide]
      simp
    rw [(p.clipFrustumPerspective_outside depth w).2, obj, clip, planes]
  cases hdivider : p.divider with
  | validate => exact absurd hdivider p.divider_ne_validate
  | perspective2D =>
    left
    intro element index
    simp only [Pipeline.compiled, Pipeline.compileVertex, Pipeline.divide, hdivider,
      Pipeline.perspective2D, Vertex.outside]
    exact BitVec.zero_and
  | perspective3D | perspective3DZ =>
    right
    left
    intro element index
    simp only [Pipeline.compiled, Pipeline.compileVertex, Pipeline.divide, hdivider]
    exact frustum _ _ rfl
  | clipAllPerspective3D | clipAllPerspective3DZ =>
    right
    right
    intro element index
    simp only [Pipeline.compiled, Pipeline.compileVertex, Pipeline.divide, hdivider]
    exact all _ _ rfl

/-- A vertex that is beyond a plane of the list, and the clipping planes of a segment that ends
in it: the vertex has the flag of the plane. -/
theorem outside_of_distance {element element' : Nat} {index index' : Int} {plane : Plane}
    (hplane : plane ∈ clippingPlanes (p.compiled element index) (p.compiled element' index'))
    (h : distance p plane (p.compiled element' index') < 0) :
    (p.compiled element' index').outside ≠ 0 := by
  set s := p.compiled element index with hs
  set q := p.compiled element' index' with hq
  obtain ⟨member, flagged⟩ := List.mem_filter.mp hplane
  have both : (s.flags ||| q.flags) &&& clipAll = s.outside ||| q.outside := by
    rw [BitVec.and_comm, BitVec.and_or_distrib_left, BitVec.and_comm clipAll,
      BitVec.and_comm clipAll]
    rfl
  simp only [both, ne_eq, decide_not, Bool.not_eq_true', decide_eq_false_iff_not] at flagged
  intro inside
  have flaggedStart : s.outside &&& plane.bit ≠ 0 := by
    rw [inside] at flagged
    simpa using flagged
  rcases compiled_outside p with none | view | all
  · rw [hs, none] at flaggedStart
    exact flaggedStart BitVec.zero_and
  · cases plane with
    | frustum i =>
      have small : i < 6 := by simpa [allPlanes] using member
      rw [hq, view] at inside
      apply frustumClip_bit _ small h
      rw [inside]
      exact BitVec.zero_and
    | user i =>
      have small : i < 6 := by simpa [allPlanes] using member
      apply flaggedStart
      rw [hs, view]
      exact frustumClip_user _ small
  · have parts : p.userClip q.obj = 0 ∧ q.clip.frustumClip = 0 := by
      rw [hq, all] at inside
      exact BitVec.or_eq_zero_iff.mp inside
    cases plane with
    | frustum i =>
      have small : i < 6 := by simpa [allPlanes] using member
      apply frustumClip_bit _ small h
      rw [parts.2]
      exact BitVec.zero_and
    | user i =>
      have small : i < 6 := by simpa [allPlanes] using member
      have enabled : p.clipEnable i = true := by
        have bit : p.userClip s.obj &&& 0x100 <<< i ≠ 0 := by
          intro clear
          apply flaggedStart
          rw [hs, all, ← hs, BitVec.and_comm, BitVec.and_or_distrib_left, BitVec.and_comm _ (p.userClip _),
            BitVec.and_comm _ (Vec4.frustumClip _)]
          show p.userClip s.obj &&& 0x100 <<< i ||| s.clip.frustumClip &&& 0x100 <<< i = 0
          rw [clear, frustumClip_user _ small]
          rfl
        have := (userClip_bit p s.obj small).mpr bit
        simp only [userOutside, Bool.and_eq_true] at this
        exact this.1
      have beyond : userOutside p q.obj i = true := by
        simp only [userOutside, enabled, Bool.true_and, decide_eq_true_eq]
        exact h
      apply (userClip_bit p q.obj small).mp beyond
      rw [parts.1]
      exact BitVec.zero_and

/-- `clip_line` meets a plane with the first vertex inside and the second one outside. -/
def exits : List Plane → Vertex → Vertex → Bool
  | [], _, _ => false
  | plane :: planes, s, q =>
    if distance p plane s ≥ 0 then
      if distance p plane q ≥ 0 then exits planes s q else true
    else if distance p plane q ≥ 0 then
      if distance p plane q ≠ 0 then
        let t := Fixed.clipDivide (distance p plane q) (distance p plane q - distance p plane s)
        exits planes (clipAgainst p plane s t s q) q
      else exits planes s q
    else false

/-- The segment leaves the clipping volume through one of the planes it is clipped against. -/
def ExitClipped (s q : Vertex) : Prop := exits p (clippingPlanes s q) s q = true

instance (s q : Vertex) : Decidable (ExitClipped p s q) := by
  unfold ExitClipped
  infer_instance

private theorem clipPlanes_outside (planes : List Plane) {s q : Vertex} (h : q.outside = 0) :
    (clipPlanes p planes s q).2.2.outside = 0 := by
  induction planes generalizing s q with
  | nil => exact h
  | cons plane planes ih =>
    simp only [clipPlanes]
    split_ifs
    · exact ih h
    · exact ih (clipAgainst_outside p plane _ _ _ _)
    · exact ih h
    · exact ih h
    · exact h

theorem clipPlanes_stop (planes : List Plane) {s q : Vertex} :
    (exits p planes s q = false → (clipPlanes p planes s q).2.2 = q) ∧
      (exits p planes s q = true → (clipPlanes p planes s q).2.2.outside = 0 ∧
        ∃ plane ∈ planes, distance p plane q < 0) := by
  induction planes generalizing s q with
  | nil => exact ⟨fun _ => rfl, fun h => absurd h Bool.false_ne_true⟩
  | cons plane planes ih =>
    have later {s' : Vertex} (h : exits p planes s' q = true) :
        (clipPlanes p planes s' q).2.2.outside = 0 ∧
          ∃ plane' ∈ plane :: planes, distance p plane' q < 0 := by
      obtain ⟨inside, plane', member, beyond⟩ := (@ih s' q).2 h
      exact ⟨inside, plane', List.mem_cons_of_mem plane member, beyond⟩
    simp only [exits, clipPlanes]
    split_ifs with hs hq hq
    · exact ⟨(@ih s q).1, later⟩
    · refine ⟨fun h => absurd h (by simp), fun _ => ⟨?_, plane, List.mem_cons_self, by omega⟩⟩
      exact clipPlanes_outside p planes (clipAgainst_outside p plane _ _ _ _)
    · exact ⟨(@ih _ q).1, later⟩
    · exact ⟨(@ih s q).1, later⟩
    · exact ⟨fun _ => rfl, fun h => absurd h (by simp)⟩

end RabbitRender.Arrays.SegmentEnds
