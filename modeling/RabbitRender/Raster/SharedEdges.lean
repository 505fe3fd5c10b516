/- RabbitRender/Raster/SharedEdges
   layer: proof
   source: libpixelflinger/trap.cpp
   digest: Two triangles on the two sides of a common edge meet on every scanline at the pixel
     where the edge crosses it, when rounding leaves their other edges on their sides. -/

import RabbitRender.Raster.Clipping

set_option autoImplicit false

namespace RabbitRender.Raster.SharedEdges

open Raster.Clipping Raster.Edges Raster.Sweep Raster.Trap

/-- Positive for `r` on the left of the line from `p` down to `q`. -/
def side (p q r : Vertex) : Int := (q.x - p.x) * (r.y - p.y) - (q.y - p.y) * (r.x - p.x)

/-- On the first scanline they share, the other edges of the triangle are on the side of `r` of the
edge from `p` to `q`. -/
def KeepsSide (p q r : Vertex) : Prop :=
  ∀ p' ∈ [p, q, r], ∀ q' ∈ [p, q, r], (p' = r ∨ q' = r) → Down p' q' →
    max (firstRow p) (firstRow p') < min (firstRow q) (firstRow q') →
    if 0 < side p q r then LeftOf p' q' p q (max (firstRow p) (firstRow p'))
    else LeftOf p q p' q' (max (firstRow p) (firstRow p'))

/-- The other edge of a triangle on a scanline that the edge from `p` to `q` crosses. -/
structure Opposite (p q r p' q' : Vertex) (y : Int) : Prop where
  start : p' ∈ [p, q, r]
  stop : q' ∈ [p, q, r]
  third : p' = r ∨ q' = r
  down : Down p' q'
  after : firstRow p' ≤ y
  before : y < firstRow q'

theorem drawn_between {scissor : Scissor} {p q r v0 v1 v2 : Vertex}
    (listed : Listed p q r v0 v1 v2) (covers : ∀ v ∈ [p, q, r], Covers scissor v) {y : Int}
    (after : firstRow p ≤ y) (before : y < firstRow q) :
    ∃ p' q', Opposite p q r p' q' y ∧ ∀ x, Drawn scissor v0 v1 v2 x y ↔
      Between (record scissor p' q') (record scissor p q) (max (firstRow p) (firstRow p')) x y ∧
        scissor.left ≤ x ∧ x < scissor.right := by
  have coversP := covers p (by simp)
  have coversQ := covers q (by simp)
  have coversR := covers r (by simp)
  obtain ⟨topP, bottomP⟩ := covers_rows coversP
  obtain ⟨topQ, bottomQ⟩ := covers_rows coversQ
  obtain ⟨topR, bottomR⟩ := covers_rows coversR
  have long : Down p q := by
    unfold firstRow at after before
    unfold Down
    omega
  rcases le_total (oddRow r.y) (oddRow p.y) with above | belowP
  · -- the third vertex is the highest
    have rows : firstRow r ≤ firstRow p := firstRow_mono above
    refine ⟨r, q, ⟨by simp, by simp, .inl rfl, above.trans long, rows.trans after, before⟩,
      fun x => ?_⟩
    rw [drawn_iff listed.rotate above long, Row, topR, bottomP, topP, bottomQ, max_eq_left rows]
    have : ¬y < firstRow p := not_lt.mpr after
    simp [this, after, before]
  rcases le_total (oddRow q.y) (oddRow r.y) with below | aboveQ
  · -- the third vertex is the lowest
    have rows : firstRow q ≤ firstRow r := firstRow_mono below
    refine ⟨p, r, ⟨by simp, by simp, .inr rfl, belowP, after, before.trans_le rows⟩, fun x => ?_⟩
    rw [drawn_iff listed long below, Row, topP, bottomQ, topQ, bottomR, max_self]
    have : ¬firstRow q ≤ y := not_le.mpr before
    simp [this, after, before]
  · -- the common edge is the long one
    have rows : firstRow p ≤ firstRow r := firstRow_mono belowP
    by_cases upper : y < firstRow r
    · refine ⟨p, r, ⟨by simp, by simp, .inr rfl, belowP, after, upper⟩, fun x => ?_⟩
      rw [drawn_iff listed.swap belowP aboveQ, Row, topP, bottomR, topR, bottomQ, max_self,
        between_comm]
      have : ¬firstRow r ≤ y := not_le.mpr upper
      simp [this, after, upper]
    · have lower : firstRow r ≤ y := not_lt.mp upper
      refine ⟨r, q, ⟨by simp, by simp, .inl rfl, aboveQ, lower, before⟩, fun x => ?_⟩
      rw [drawn_iff listed.swap belowP aboveQ, Row, topP, bottomR, topR, bottomQ,
        max_eq_right rows, between_comm _ (record scissor r q)]
      simp [upper, lower, before]

theorem drawn_betweenLines {scissor : Scissor} {p q r v0 v1 v2 : Vertex}
    (listed : Listed p q r v0 v1 v2) (inRange : ∀ v ∈ [p, q, r], InRange v)
    (covers : ∀ v ∈ [p, q, r], Covers scissor v) (fits : EdgesFit scissor p q r) {y : Int}
    (after : firstRow p ≤ y) (before : y < firstRow q) :
    ∃ p' q', Opposite p q r p' q' y ∧ ∀ x, Drawn scissor v0 v1 v2 x y ↔
      BetweenLines p' q' p q (max (firstRow p) (firstRow p')) x y := by
  obtain ⟨p', q', opposite, drawn⟩ := drawn_between listed covers after before
  have long : Down p q := by
    unfold firstRow at after before
    unfold Down
    omega
  have line {u v : Vertex} (hu : u ∈ [p, q, r]) (hv : v ∈ [p, q, r]) (down : Down u v) :
      IsLine scissor u v (firstRow u) (firstRow v) := by
    have rows := (isLine_of_fits (inRange u hu) (inRange v hv) (fits u hu v hv down) (covers u hu)
      (covers v hv)).1
    rwa [(covers_rows (covers u hu)).1, (covers_rows (covers v hv)).2] at rows
  have shared := line (u := p) (v := q) (by simp) (by simp) long
  have other := line opposite.start opposite.stop opposite.down
  refine ⟨p', q', opposite, fun x => ?_⟩
  rw [drawn, between_iff (other.mono (le_max_right _ _) (min_le_right _ _))
    (shared.mono (le_max_left _ _) (min_le_left _ _)) le_rfl (max_le after opposite.after)
    (lt_min before opposite.before)]
  refine and_iff_left_of_imp fun between => ?_
  exact betweenLines_inside
    (position_inside (inRange p' opposite.start) (inRange q' opposite.stop)
      (covers p' opposite.start) (covers q' opposite.stop) opposite.after opposite.before)
    (position_inside (inRange p (by simp)) (inRange q (by simp)) (covers p (by simp))
      (covers q (by simp)) after before) between

/-- Two triangles on the two sides of a common edge from `p` down to `q`: on every scanline that
the edge crosses, the one on the left ends at the pixel of the edge, and the other one begins
there. -/
theorem shared_edge_watertight (scissor : Scissor) (p q r r' : Vertex) {v0 v1 v2 w0 w1 w2 : Vertex}
    (listed : Listed p q r v0 v1 v2) (listed' : Listed p q r' w0 w1 w2)
    (inRange : ∀ v ∈ [p, q, r, r'], InRange v) (covers : ∀ v ∈ [p, q, r, r'], Covers scissor v)
    (left : 0 < side p q r) (right : side p q r' < 0) (fits : EdgesFit scissor p q r)
    (fits' : EdgesFit scissor p q r') (keeps : KeepsSide p q r) (keeps' : KeepsSide p q r') (y : Int)
    (after : firstRow p ≤ y) (before : y < firstRow q) :
    ∃ a b, a ≤ pixel (position p q y) ∧ pixel (position p q y) ≤ b ∧
      (∀ x, Drawn scissor v0 v1 v2 x y ↔ a ≤ x ∧ x < pixel (position p q y)) ∧
      ∀ x, Drawn scissor w0 w1 w2 x y ↔ pixel (position p q y) ≤ x ∧ x < b := by
  have ofLeft {P : Vertex → Prop} (all : ∀ v ∈ [p, q, r, r'], P v) : ∀ v ∈ [p, q, r], P v :=
    fun v member => all v (by simp only [List.mem_cons] at member ⊢; tauto)
  have ofRight {P : Vertex → Prop} (all : ∀ v ∈ [p, q, r, r'], P v) : ∀ v ∈ [p, q, r'], P v :=
    fun v member => all v (by simp only [List.mem_cons] at member ⊢; tauto)
  obtain ⟨u, v, opposite, drawn⟩ := drawn_betweenLines listed (ofLeft inRange) (ofLeft covers) fits
    after before
  obtain ⟨u', v', opposite', drawn'⟩ := drawn_betweenLines listed' (ofRight inRange)
    (ofRight covers) fits' after before
  have ordered := keeps u opposite.start v opposite.stop opposite.third opposite.down
    ((max_le after opposite.after).trans_lt (lt_min before opposite.before))
  have ordered' := keeps' u' opposite'.start v' opposite'.stop opposite'.third opposite'.down
    ((max_le after opposite'.after).trans_lt (lt_min before opposite'.before))
  rw [if_pos left] at ordered
  rw [if_neg right.not_gt] at ordered'
  refine ⟨min (pixel (position u v y)) (pixel (position p q y)),
    max (pixel (position u' v' y)) (pixel (position p q y)), min_le_right _ _, le_max_right _ _,
    fun x => ?_, fun x => ?_⟩
  · rw [drawn, BetweenLines, if_pos ordered]
    omega
  · rw [drawn', betweenLines_comm, BetweenLines, if_pos ordered']
    omega

theorem shared_edge_watertight_square :
    ∃ a b, a ≤ pixel (position ⟨32, 0⟩ ⟨32, 64⟩ 1) ∧ pixel (position ⟨32, 0⟩ ⟨32, 64⟩ 1) ≤ b ∧
      (∀ x, Drawn ⟨0, 0, 4, 4⟩ ⟨32, 0⟩ ⟨0, 64⟩ ⟨32, 64⟩ x 1 ↔
        a ≤ x ∧ x < pixel (position ⟨32, 0⟩ ⟨32, 64⟩ 1)) ∧
      ∀ x, Drawn ⟨0, 0, 4, 4⟩ ⟨64, 0⟩ ⟨32, 0⟩ ⟨32, 64⟩ x 1 ↔
        pixel (position ⟨32, 0⟩ ⟨32, 64⟩ 1) ≤ x ∧ x < b := by
  refine shared_edge_watertight ⟨0, 0, 4, 4⟩ ⟨32, 0⟩ ⟨32, 64⟩ ⟨0, 64⟩ ⟨64, 0⟩ .acb .cab
    (by decide) (by decide) (by decide) (by decide) ?_ ?_ ?_ ?_ 1 (by decide) (by decide)
  · unfold EdgesFit Down Fits
    decide +kernel
  · unfold EdgesFit Down Fits
    decide +kernel
  · unfold KeepsSide Down
    decide +kernel
  · unfold KeepsSide Down
    decide +kernel

/-- The rows of the vertices are rounded, and a sliver ends up on the other side of the edge. -/
theorem slivers_overlap :
    (∀ v ∈ [(⟨0, 13⟩ : Vertex), ⟨66, 31⟩, ⟨44, 122⟩, ⟨41, 24⟩],
      InRange v ∧ Covers ⟨0, 0, 8, 8⟩ v) ∧
    0 < side ⟨0, 13⟩ ⟨66, 31⟩ ⟨44, 122⟩ ∧ side ⟨0, 13⟩ ⟨66, 31⟩ ⟨41, 24⟩ < 0 ∧
    Drawn ⟨0, 0, 8, 8⟩ ⟨0, 13⟩ ⟨66, 31⟩ ⟨44, 122⟩ 2 1 ∧
    Drawn ⟨0, 0, 8, 8⟩ ⟨0, 13⟩ ⟨66, 31⟩ ⟨41, 24⟩ 2 1 := by
  refine ⟨by decide, by decide, by decide, ?_, ?_⟩
  · have spans : trianglexBig ⟨0, 0, 8, 8⟩ ⟨0, 13⟩ ⟨66, 31⟩ ⟨44, 122⟩ =
        some [⟨1, 0, 3⟩, ⟨2, 1, 4⟩, ⟨3, 1, 4⟩, ⟨4, 1, 4⟩, ⟨5, 2, 3⟩, ⟨6, 2, 3⟩] := by decide +kernel
    exact ⟨_, spans, ⟨1, 0, 3⟩, by simp, by decide⟩
  · have spans : trianglexBig ⟨0, 0, 8, 8⟩ ⟨0, 13⟩ ⟨66, 31⟩ ⟨41, 24⟩ = some [⟨1, 2, 3⟩] := by
      decide +kernel
    exact ⟨_, spans, ⟨1, 2, 3⟩, by simp, by decide⟩

end RabbitRender.Raster.SharedEdges
