/- RabbitRender/Arrays/ColorRange
   layer: theorem
   source: swrender/array.cpp, swrender/primitives.cpp, libpixelflinger/fixed.cpp
   digest: The colours of points, lines and triangles, clipped or not, and when they are in range. -/

import Mathlib.Tactic.Linarith
import Mathlib.Tactic.Ring
import RabbitRender.Arrays.Colors
import RabbitRender.Matrix.Coherence
import RabbitRender.Raster.ScaledQuotients

set_option autoImplicit false

namespace RabbitRender.Arrays.ColorRange

open Fixed Vertices Arrays.Colors Arrays.Compile Arrays.Draw Arrays.Steps Lib.GuardedRun
open RabbitRender.Matrix.Transforms (GLfloat)
open Primitives
open Raster.ScaledQuotients (quickMuldiv_spec)

theorem clipDivide_range {a b : Int} (ha : 0 ≤ a) (hab : a ≤ b) (hb : 0 < b) (word : b < 2 ^ 31) :
    0 ≤ clipDivide a b ∧ clipDivide a b ≤ 2 ^ 28 := by
  obtain ⟨a, rfl⟩ := Int.eq_ofNat_of_zero_le ha
  obtain ⟨b, rfl⟩ := Int.eq_ofNat_of_zero_le hb.le
  have quick : min (2 ^ 28) a ≤ b := by omega
  obtain ⟨q, le, value, -⟩ := quickMuldiv_spec quick (by omega : max (2 ^ 28) a < 2 ^ 31) (by omega)
    (by omega) (by omega)
  have magnitude (n : Nat) : MulDiv.magnitude n = n := if_neg (by omega)
  have positive : MulDiv.negative (2 ^ 28) a b = false := by
    rw [MulDiv.negative, decide_eq_false (by decide), decide_eq_false (by omega),
      decide_eq_false (by omega)]
    rfl
  have large : MulDiv.larger (2 ^ 28 : Nat) a = (max (2 ^ 28) a : Nat) := by
    rw [MulDiv.larger, magnitude, magnitude, Nat.cast_max]
  have small : MulDiv.smaller (2 ^ 28 : Nat) a = (min (2 ^ 28) a : Nat) := by
    rw [MulDiv.smaller, magnitude, magnitude, Nat.cast_min]
  have quotient : clipDivide a b = q := by
    rw [clipDivide, wrap32_of_bounds (by omega) (by omega), wrap32_of_bounds (by omega) (by omega),
      gglMulDivi, positive, if_neg Bool.false_ne_true, show (2 ^ 28 : Int) = (2 ^ 28 : Nat) from rfl, large,
      small, magnitude b, if_pos (by omega), value]
  have product : max (2 ^ 28) a * min (2 ^ 28) a = 2 ^ 28 * a := max_mul_min _ _
  have bound : 2 ^ 28 * a / b ≤ 2 ^ 28 := Nat.div_le_of_le_mul (by
    rw [Nat.mul_comm b]
    exact Nat.mul_le_mul_left _ (by omega))
  rw [product] at le
  rw [quotient]
  omega

/-- The interpolated number lies between any bounds of both ends. -/
theorem mulAdd_between {t s q low high : Int} (ht : 0 ≤ t ∧ t ≤ 2 ^ 28) (hs : low ≤ s ∧ s ≤ high)
    (hq : low ≤ q ∧ q ≤ high) (fits : high - low < 2 ^ 31) :
    low ≤ gglMulAddx t (s - q) q 28 ∧ gglMulAddx t (s - q) q 28 ≤ high := by
  have unit : ((2 ^ 28 : Nat) : Int) = 2 ^ 28 := by norm_num
  have positive : (0 : Int) < 2 ^ 28 := by norm_num
  have lower : min 0 (s - q) ≤ (t * (s - q)) >>> (28 : Nat) := by
    rw [Int.shiftRight_eq_div_pow, unit]
    apply (Int.le_ediv_iff_mul_le positive).mpr
    rcases le_total 0 (s - q) with up | down
    · rw [min_eq_left up, Int.zero_mul]
      exact Int.mul_nonneg ht.1 up
    · rw [min_eq_right down, Int.mul_comm]
      exact Int.mul_le_mul_of_nonpos_right ht.2 down
  have upper : (t * (s - q)) >>> (28 : Nat) ≤ max 0 (s - q) := by
    rw [Int.shiftRight_eq_div_pow, unit]
    apply Int.ediv_le_of_le_mul positive
    rcases le_total 0 (s - q) with up | down
    · rw [max_eq_right up, Int.mul_comm (s - q)]
      exact Int.mul_le_mul_of_nonneg_right ht.2 up
    · rw [max_eq_left down, Int.zero_mul]
      exact Int.mul_nonpos_of_nonneg_of_nonpos ht.1 down
  unfold gglMulAddx wrap32
  rw [Int.bmod_eq_of_le (by omega) (by omega)]
  omega

theorem inRange_clipVec4 {t : Int} {s q : Vec4} (ht : 0 ≤ t ∧ t ≤ 2 ^ 28) (hs : InRange s)
    (hq : InRange q) : InRange (clipVec4 t s q) :=
  ⟨mulAdd_between ht hs.x hq.x (by decide), mulAdd_between ht hs.y hq.y (by decide),
    mulAdd_between ht hs.z hq.z (by decide), mulAdd_between ht hs.w hq.w (by decide)⟩

section Near

variable (p : Pipeline)

/-- Where the plane cuts the edge, the distances of its ends differ by an `int32_t`. -/
def NearEdge (plane : Plane) (s q : Vertex) : Prop :=
  ¬(0 ≤ distance p plane s ↔ 0 ≤ distance p plane q) →
    |distance p plane s - distance p plane q| < 2 ^ 31

/-- The edges that `clip_line` comes to, plane by plane. -/
def NearLine : List Plane → Vertex → Vertex → Prop
  | [], _, _ => True
  | plane :: planes, s, q =>
    let clipped := clipPlanes p [plane] s q
    NearEdge p plane s q ∧ (clipped.1 = true → NearLine planes clipped.2.1 clipped.2.2)

/-- The edges of the polygons that `clip_triangle` comes to. -/
def NearPolygon : List Plane → List Vertex → Prop
  | [], _ => True
  | plane :: planes, polygon =>
    let last := polygon.getLastD .zero
    (∀ edge ∈ (last :: polygon).zip polygon, NearEdge p plane edge.1 edge.2) ∧
      ∀ clipped ∈ clipLoop p plane polygon last [] 0, NearPolygon planes clipped

/-- The planes `clip_triangle` visits. -/
def trianglePlanes (v0 v1 v2 : Vertex) : List Plane :=
  allPlanes.filter fun plane => (v0.flags ||| v1.flags ||| v2.flags) &&& clipAll &&& plane.bit ≠ 0

def NearStep (m : Machine) : Step → Prop
  | .line v0 v1 =>
    let r := lightTriangle p (fetchTexcoord p m v0 v1 v1) v0 v1 v1
    NearLine p (clippingPlanes (r.verts v0) (r.verts v1)) (r.verts v0) (r.verts v1)
  | .triangle v0 v1 v2 =>
    let r := lightTriangle p (fetchTexcoord p m v0 v1 v2) v0 v1 v2
    NearPolygon p (trianglePlanes (r.verts v0) (r.verts v1) (r.verts v2))
      [r.verts v0, r.verts v1, r.verts v2]
  | _ => True

end Near

structure Ranged (p : Pipeline) : Prop where
  fetch : p.lighting = false → ∀ element v, InRange (p.fetchColor element v)
  light : ∀ v, InRange (p.lightColor v)

def Tame (f : Vertex → Vertex) : Prop := ∀ v, InRange v.color → InRange (f v).color

private theorem tame_of_color {f : Vertex → Vertex} (same : ∀ v, (f v).color = v.color) :
    Tame f := by
  intro v h
  rw [same]
  exact h

section Shading

variable {p : Pipeline} (ranged : Ranged p)

include ranged

private theorem tame_darkSmooth (dark : p.lighting = false) : Tame (darkSmooth p) := by
  intro v h
  unfold darkSmooth
  split_ifs
  · exact h
  · exact ranged.fetch dark _ _

private theorem tame_darkSmoothFog (dark : p.lighting = false) : Tame (darkSmoothFog p) := by
  intro v h
  unfold darkSmoothFog
  split_ifs
  · exact h
  · exact ranged.fetch dark _ _

private theorem tame_lightSmooth : Tame (lightSmooth p) := by
  intro v h
  unfold lightSmooth
  split_ifs
  · exact h
  · exact ranged.light v

private theorem tame_lightSmoothFog : Tame (lightSmoothFog p) := by
  intro v h
  unfold lightSmoothFog
  split_ifs
  · exact h
  · exact ranged.light _

omit ranged in
private theorem tame_darkFlatFog : Tame (darkFlatFog p) := by
  apply tame_of_color
  intro v
  unfold darkFlatFog
  split_ifs <;> rfl

private theorem tame_lightPrimitive : Tame (lightPrimitive p).1 ∧ Tame (lightPrimitive p).2.1 ∧
    Tame (lightPrimitive p).2.2 := by
  have none : Tame id := fun _ h => h
  have flatFog := tame_darkFlatFog (p := p)
  have light := tame_lightSmooth ranged
  have lightFog := tame_lightSmoothFog ranged
  unfold lightPrimitive
  cases lighting : p.lighting with
  | false =>
    have dark := tame_darkSmooth ranged lighting
    have darkFog := tame_darkSmoothFog ranged lighting
    cases p.fogging <;> cases p.smooth
    · exact ⟨none, none, dark⟩
    · exact ⟨dark, dark, dark⟩
    · exact ⟨flatFog, flatFog, darkFog⟩
    · exact ⟨darkFog, darkFog, darkFog⟩
  | true =>
    cases p.fogging <;> cases p.smooth
    · exact ⟨none, none, light⟩
    · exact ⟨light, light, light⟩
    · exact ⟨flatFog, flatFog, lightFog⟩
    · exact ⟨lightFog, lightFog, lightFog⟩

private theorem tame_lightPoint : Tame (lightPoint p) := by
  intro v h
  unfold lightPoint
  by_cases lighted : v.flags &&& lit ≠ 0
  · rw [if_pos lighted]
    exact h
  · rw [if_neg lighted]
    cases lighting : p.lighting with
    | false =>
      simp only [Bool.false_eq_true, if_false]
      split_ifs
      all_goals exact ranged.fetch lighting _ _
    | true =>
      simp only [if_true]
      split_ifs
      all_goals exact ranged.light v

end Shading

def Sound (m : Machine) : Prop := ∀ i, InRange (m.verts i).color

theorem sound_init : Sound .init := fun _ => by
  show InRange ⟨0, 0, 0, 0⟩
  decide

private theorem sound_set {m : Machine} (h : Sound m) (slot : Nat) {v : Vertex}
    (hv : InRange v.color) : Sound (m.set slot v) := by
  intro i
  rw [Machine.set_verts]
  split_ifs
  · exact hv
  · exact h i

private theorem sound_shade {m : Machine} (h : Sound m) (slot : Nat) {f : Vertex → Vertex}
    (hf : Tame f) : Sound (shade m slot f) :=
  sound_set h slot (hf _ (h slot))

private theorem tame_texturize (p : Pipeline) (i : Fin 2) : Tame (texturize p i) := by
  apply tame_of_color
  intro v
  unfold texturize
  split_ifs <;> rfl

private theorem sound_fetchTexcoord (p : Pipeline) {m : Machine} (h : Sound m) (v0 v1 v2 : Nat) :
    Sound (fetchTexcoord p m v0 v1 v2) := by
  have three (f : Vertex → Vertex) (hf : Tame f) (m : Machine) (h : Sound m) :
      Sound (shade (shade (shade m v0 f) v1 f) v2 f) :=
    sound_shade (sound_shade (sound_shade h v0 hf) v1 hf) v2 hf
  have unit (i : Fin 2) (m : Machine) (h : Sound m) : Sound (if p.textureEnable i then
      shade (shade (shade m v0 (texturize p i)) v1 (texturize p i)) v2 (texturize p i) else m) := by
    split_ifs
    · exact three _ (tame_texturize p i) m h
    · exact h
  unfold fetchTexcoord
  split_ifs
  · exact h
  · exact h
  · exact three markTT (tame_of_color fun _ => rfl) _ (unit 1 _ (unit 0 m h))

section Buffer

variable {p : Pipeline} (ranged : Ranged p) {m : Machine} (h : Sound m)

include ranged h

private theorem sound_lightTriangle (v0 v1 v2 : Nat) : Sound (lightTriangle p m v0 v1 v2) := by
  obtain ⟨h0, h1, h2⟩ := tame_lightPrimitive ranged
  exact sound_shade (sound_shade (sound_shade h v0 h0) v1 h1) v2 h2

private theorem sound_primitivePoint (v : Nat) : Sound (primitivePoint p m v) := by
  have lighted := sound_shade h v (tame_lightPoint ranged)
  unfold primitivePoint
  split_ifs
  · exact sound_fetchTexcoord p lighted v v v
  · exact lighted

private theorem sound_primitiveClipTriangle (v0 v1 v2 : Nat) :
    Sound (primitiveClipTriangle p m v0 v1 v2) := by
  simp only [primitiveClipTriangle]
  split_ifs
  · exact h
  · exact sound_lightTriangle ranged (sound_fetchTexcoord p h v0 v1 v2) v0 v1 v2

end Buffer

theorem inRange_clipAgainst (p : Pipeline) (plane : Plane) {nv s q : Vertex} {t : Int}
    (ht : p.smooth = true → 0 ≤ t ∧ t ≤ 2 ^ 28) (hnv : InRange nv.color) (hs : InRange s.color)
    (hq : InRange q.color) : InRange (clipAgainst p plane nv t s q).color := by
  cases plane with
  | user i =>
    show InRange (if p.smooth then clipVec4 t q.color s.color else nv.color)
    split_ifs with smooth
    · exact inRange_clipVec4 (ht smooth) hq hs
    · exact hnv
  | frustum i =>
    show InRange (if p.smooth then clipVec4 t s.color q.color else nv.color)
    split_ifs with smooth
    · exact inRange_clipVec4 (ht smooth) hs hq
    · exact hnv

/-- The parameter of an edge from an inner vertex to an outer one. -/
theorem NearEdge.parameter {p : Pipeline} {plane : Plane} {s q : Vertex}
    (near : NearEdge p plane s q) (inside : 0 ≤ distance p plane s)
    (outside : ¬0 ≤ distance p plane q) :
    0 ≤ clipDivide (distance p plane s) (distance p plane s - distance p plane q) ∧
      clipDivide (distance p plane s) (distance p plane s - distance p plane q) ≤ 2 ^ 28 := by
  have fits := near fun same => outside (same.mp inside)
  rw [abs_lt] at fits
  exact clipDivide_range inside (by omega) (by omega) (by omega)

theorem NearEdge.symm {p : Pipeline} {plane : Plane} {s q : Vertex} (near : NearEdge p plane s q) :
    NearEdge p plane q s := by
  intro sides
  rw [abs_sub_comm]
  exact near fun same => sides same.symm

theorem inRange_clipPlanes (p : Pipeline) (planes : List Plane) {s q : Vertex}
    (near : p.smooth = true → NearLine p planes s q) (hs : InRange s.color) (hq : InRange q.color) :
    InRange (clipPlanes p planes s q).2.1.color ∧ InRange (clipPlanes p planes s q).2.2.color := by
  induction planes generalizing s q with
  | nil => exact ⟨hs, hq⟩
  | cons plane planes ih =>
    have edge : p.smooth = true → NearEdge p plane s q := fun smooth => (near smooth).1
    have next : p.smooth = true → (clipPlanes p [plane] s q).1 = true →
        NearLine p planes (clipPlanes p [plane] s q).2.1 (clipPlanes p [plane] s q).2.2 :=
      fun smooth => (near smooth).2
    simp only [clipPlanes] at next ⊢
    split_ifs at next ⊢ with inside inside' outside on
    · exact ih (fun smooth => next smooth rfl) hs hq
    · have t := fun smooth => (edge smooth).parameter inside inside'
      exact ih (fun smooth => next smooth rfl) hs (inRange_clipAgainst p plane t hq hq hs)
    · have t := fun smooth => (edge smooth).symm.parameter outside inside
      exact ih (fun smooth => next smooth rfl) (inRange_clipAgainst p plane t hs hs hq) hq
    · exact ih (fun smooth => next smooth rfl) hs hq
    · exact ⟨hs, hq⟩

theorem clipLoop_ne_nil (p : Pipeline) (plane : Plane) {polygon : List Vertex} {s : Vertex}
    {output clipped : List Vertex} {sentinel : Nat}
    (h : clipLoop p plane polygon s output sentinel = some clipped) : clipped ≠ [] := by
  induction polygon generalizing s output sentinel with
  | nil =>
    rw [clipLoop] at h
    split_ifs at h with few
    obtain rfl := Option.some_inj.mp h
    exact List.ne_nil_of_length_pos (by omega)
  | cons v rest ih =>
    simp only [clipLoop] at h
    split_ifs at h <;> exact ih h

private theorem all_fan (p : Pipeline) {P : Vertex → Prop} {p0 p1 : Vertex} {rest : List Vertex}
    (h0 : P p0) (h1 : P p1) (hrest : ∀ v ∈ rest, P v) :
    ∀ t ∈ fan p p0 p1 rest, P t.1 ∧ P t.2.1 ∧ P t.2.2 := by
  induction rest generalizing p1 with
  | nil => exact fun _ h => absurd h List.not_mem_nil
  | cons p2 rest ih =>
    obtain ⟨h2, others⟩ := List.forall_mem_cons.mp hrest
    have later := ih h2 others
    rw [fan]
    split_ifs
    · exact later
    · exact List.forall_mem_cons.mpr ⟨⟨h0, h1, h2⟩, later⟩

/-- A new vertex has what both ends of its edge have. -/
def Keeps (p : Pipeline) (c : Prop) (P : Vertex → Prop) : Prop :=
  ∀ plane t s q, (c → 0 ≤ t ∧ t ≤ 2 ^ 28) → P s → P q → P (clipAgainst p plane .zero t s q)

section Polygons

variable {p : Pipeline} {c : Prop} {P : Vertex → Prop} (keeps : Keeps p c P)

include keeps

theorem all_clipLoop {plane : Plane} {polygon : List Vertex} {s : Vertex} {output : List Vertex}
    {sentinel : Nat} (near : c → ∀ edge ∈ (s :: polygon).zip polygon, NearEdge p plane edge.1 edge.2)
    (hpolygon : ∀ v ∈ polygon, P v) (hs : P s) (houtput : ∀ v ∈ output, P v) :
    ∀ clipped ∈ clipLoop p plane polygon s output sentinel, ∀ v ∈ clipped, P v := by
  induction polygon generalizing s output sentinel with
  | nil =>
    intro clipped here
    rw [clipLoop] at here
    split_ifs at here
    · cases here
    · obtain rfl := Option.some_inj.mp here
      exact houtput
  | cons v rest ih =>
    obtain ⟨hv, hrest⟩ := List.forall_mem_cons.mp hpolygon
    have edge : c → NearEdge p plane s v := fun h => near h (s, v) List.mem_cons_self
    have later : c → ∀ edge ∈ (v :: rest).zip rest, NearEdge p plane edge.1 edge.2 :=
      fun h edge here => near h edge (List.mem_cons_of_mem (s, v) here)
    have more {a b : List Vertex} (ha : ∀ v ∈ a, P v) (hb : ∀ v ∈ b, P v) : ∀ v ∈ a ++ b, P v :=
      List.forall_mem_append.mpr ⟨ha, hb⟩
    have one {v : Vertex} (hv : P v) : ∀ w ∈ [v], P w := List.forall_mem_singleton.mpr hv
    simp only [clipLoop]
    split_ifs with inside inside' stop outside on stop
    · exact ih later hrest hv (more houtput (one hv))
    · exact fun _ h => absurd h (by simp)
    · have new := keeps plane _ v s (fun h => (edge h).parameter inside inside') hv hs
      exact ih later hrest hv (more houtput (one new))
    · exact fun _ h => absurd h (by simp)
    · have new := keeps plane _ s v (fun h => (edge h).symm.parameter outside inside) hs hv
      exact ih later hrest hv (more houtput (List.forall_mem_cons.mpr ⟨new, one hv⟩))
    · exact ih later hrest hv (more houtput (one hv))
    · exact ih later hrest hv houtput

theorem all_clipPolygon {planes : List Plane} {polygon : List Vertex} (some : polygon ≠ [])
    (near : c → NearPolygon p planes polygon) (h : ∀ v ∈ polygon, P v) :
    ∀ clipped ∈ clipPolygon p planes polygon, ∀ v ∈ clipped, P v := by
  induction planes generalizing polygon with
  | nil =>
    intro clipped here
    obtain rfl := Option.some_inj.mp here
    exact h
  | cons plane planes ih =>
    intro clipped here
    obtain ⟨next, first, later⟩ := Option.bind_eq_some_iff.mp here
    have last : P (polygon.getLastD .zero) := by
      rw [List.getLastD_eq_getLast?, List.getLast?_eq_some_getLast some]
      exact h _ (List.getLast_mem some)
    have kept : ∀ v ∈ next, P v := all_clipLoop keeps (fun h => (near h).1) h last
      (fun v none => absurd none List.not_mem_nil) next first
    exact ih (clipLoop_ne_nil p plane first) (fun h => (near h).2 next first) kept clipped later

/-- The vertices of the triangles that `clip_triangle` draws have what its three vertices have. -/
theorem all_clipTriangle {v0 v1 v2 : Vertex}
    (near : c → NearPolygon p (trianglePlanes v0 v1 v2) [v0, v1, v2]) (h0 : P v0) (h1 : P v1)
    (h2 : P v2) : ∀ t ∈ clipTriangle p v0 v1 v2, P t.1 ∧ P t.2.1 ∧ P t.2.2 := by
  have clipped := all_clipPolygon keeps (List.cons_ne_nil v0 _) near
    (List.forall_mem_cons.mpr ⟨h0, List.forall_mem_cons.mpr ⟨h1, List.forall_mem_singleton.mpr h2⟩⟩)
  simp only [clipTriangle]
  split
  · rename_i p0 p1 rest polygon
    obtain ⟨first, others⟩ := List.forall_mem_cons.mp (clipped _ polygon)
    obtain ⟨second, others⟩ := List.forall_mem_cons.mp others
    exact all_fan p first second others
  · exact fun _ h => absurd h List.not_mem_nil

end Polygons

theorem keeps_inRange (p : Pipeline) : Keeps p (p.smooth = true) fun v => InRange v.color :=
  fun plane _ _ _ ht hs hq => inRange_clipAgainst p plane ht (by decide) hs hq

def CornersRanged (triangles : List (Vertex × Vertex × Vertex)) : Prop :=
  ∀ t ∈ triangles, InRange t.1.color ∧ InRange t.2.1.color ∧ InRange t.2.2.color

private theorem inRange_gradientColors {triangles : List (Vertex × Vertex × Vertex)}
    (h : CornersRanged triangles) : ∀ color ∈ gradientColors triangles, InRange color := by
  intro color here
  obtain ⟨t, ht, corner⟩ := List.mem_flatMap.mp here
  obtain ⟨h0, h1, h2⟩ := h t ht
  simp only [List.mem_cons, List.not_mem_nil, or_false] at corner
  rcases corner with rfl | rfl | rfl
  · exact h0
  · exact h1
  · exact h2

private theorem compileVertex_color (p : Pipeline) (v : Vertex) (element : Nat) (index : Int)
    (draw : Nat) : (p.compileVertex v element index draw).2.color = v.color := by
  have frustum (depth : Bool) (w : Vertex) :
      (p.clipFrustumPerspective depth w).2.color = w.color := by
    simp only [Pipeline.clipFrustumPerspective]
    split_ifs <;> rfl
  unfold Pipeline.compileVertex
  cases hdivider : p.divider with
  | validate => exact absurd hdivider p.divider_ne_validate
  | perspective2D => simp only [Pipeline.divide, hdivider, Pipeline.perspective2D]
  | perspective3D | perspective3DZ => simp only [Pipeline.divide, hdivider, frustum]
  | clipAllPerspective3D | clipAllPerspective3DZ =>
    simp only [Pipeline.divide, hdivider, Pipeline.clipAllPerspective, frustum]

section Steps

variable {p : Pipeline} (ranged : Ranged p) {m : Machine} (h : Sound m)

include ranged h

private theorem inRange_clipLine {v0 v1 : Nat}
    (near : p.smooth = true → NearStep p m (.line v0 v1)) :
    let r := lightTriangle p (fetchTexcoord p m v0 v1 v1) v0 v1 v1
    InRange (clipLine p (r.verts v0) (r.verts v1)).2.1.color ∧
      InRange (clipLine p (r.verts v0) (r.verts v1)).2.2.color := by
  have lighted := sound_lightTriangle ranged (sound_fetchTexcoord p h v0 v1 v1) v0 v1 v1
  exact inRange_clipPlanes p _ near (lighted v0) (lighted v1)

private theorem sound_primitiveLine {v0 v1 : Nat}
    (near : p.smooth = true → NearStep p m (.line v0 v1)) : Sound (primitiveLine p m v0 v1) := by
  have lighted := sound_lightTriangle ranged (sound_fetchTexcoord p h v0 v1 v1) v0 v1 v1
  have clipped := inRange_clipLine ranged h near
  simp only [primitiveLine]
  split_ifs
  · exact sound_set (sound_set lighted v0 clipped.1) v1 clipped.2
  · exact sound_set (sound_set lighted v0 clipped.1) v1 clipped.2
  · exact lighted

omit ranged h in
/-- What is recorded of the calls shows in no vertex. -/
private theorem nearStep_calls (calls : List Call) (s : Step) :
    NearStep p { m with calls := calls } s ↔ NearStep p m s := by
  have fetched (v0 v1 v2 : Nat) : fetchTexcoord p { m with calls := calls } v0 v1 v2 =
      { fetchTexcoord p m v0 v1 v2 with calls := calls } := by
    simp only [fetchTexcoord]
    split_ifs <;> rfl
  cases s <;> simp only [NearStep, fetched] <;> rfl

theorem sound_step {s : Step} (near : p.smooth = true → NearStep p m s) : Sound (step p m s) := by
  cases s with
  | compile slot element index =>
    have kept := compileVertex_color p (m.verts slot) element index m.draw
    have color : InRange (p.compileVertex (m.verts slot) element index m.draw).2.color := by
      rw [kept]
      exact h slot
    exact sound_set h slot color
  | copy dst src => exact sound_set h dst (h src)
  | lock slot | unlock slot => exact sound_set h slot (h slot)
  | cull mask | hit hit => exact h
  | point v =>
    have called : Sound { m with calls := m.calls ++ [.point (m.verts v)] } := h
    exact sound_primitivePoint ranged called v
  | line v0 v1 =>
    have called : Sound { m with calls := m.calls ++ [.line (m.verts v0) (m.verts v1)] } := h
    exact sound_primitiveLine ranged called fun smooth => (nearStep_calls _ _).mpr (near smooth)
  | triangle v0 v1 v2 =>
    have called : Sound { m with
        calls := m.calls ++ [.triangle (m.verts v0) (m.verts v1) (m.verts v2)] } := h
    exact sound_primitiveClipTriangle ranged called v0 v1 v2

theorem inRange_passed {s : Step} (near : p.smooth = true → NearStep p m s) :
    ∀ color ∈ passed p m s, InRange color := by
  have nothing : ∀ color ∈ ([] : List Vec4), InRange color :=
    fun _ here => absurd here List.not_mem_nil
  have single {v : Vec4} (hv : InRange v) : ∀ color ∈ [v], InRange color := by
    intro color here
    rw [List.mem_singleton.mp here]
    exact hv
  cases s with
  | point v => exact single (tame_lightPoint ranged _ (h v))
  | line v0 v1 =>
    have lighted := sound_lightTriangle ranged (sound_fetchTexcoord p h v0 v1 v1) v0 v1 v1
    obtain ⟨start, stop⟩ := inRange_clipLine ranged h near
    simp only [passed]
    split_ifs
    · exact single (lighted v1)
    · apply inRange_gradientColors
      intro t here
      obtain rfl := List.mem_singleton.mp here
      exact ⟨start, stop, start⟩
    · exact nothing
  | triangle v0 v1 v2 =>
    have lighted := sound_lightTriangle ranged (sound_fetchTexcoord p h v0 v1 v2) v0 v1 v2
    simp only [passed]
    split_ifs
    · exact nothing
    · exact single (lighted v2)
    · apply inRange_gradientColors
      intro t here
      obtain rfl := List.mem_singleton.mp here
      exact ⟨lighted v0, lighted v1, lighted v2⟩
    · exact inRange_gradientColors
        (all_clipTriangle (keeps_inRange p) near (lighted v0) (lighted v1) (lighted v2))
  | compile slot element index | copy dst src | lock slot | unlock slot | cull mask | hit hit =>
    exact nothing

end Steps

variable {F : Type} [GLfloat F]

/-- Vertices are lit, or coloured by the array, or by a current colour that is in range. -/
def Clamped (c : ColorState F) : Prop :=
  c.lighting = true ∨ (c.arrayEnable = true ∧ c.source.isSome = true) ∨ InRange c.current

private theorem ubToX_range (b : Fin 256) : 0 ≤ ubToX b ∧ ubToX b ≤ 0x10000 := by
  unfold ubToX
  omega

private theorem colorClampFct_range (source : ColorArray F) (i : Nat) :
    InRange (colorClampFct source i) := by
  cases source with
  | unsignedByte element =>
    exact ⟨ubToX_range _, ubToX_range _, ubToX_range _, ubToX_range _⟩
  | float element => exact inRange_clampColor _
  | fixed element => exact inRange_clampColor _

theorem ranged_coloured {c : ColorState F} (clamped : Clamped c) (equation : Vertex → Vec4)
    (p : Pipeline) : Ranged (coloured c equation p) := by
  refine ⟨fun dark element _ => ?_, fun v => inRange_clampColor (equation v)⟩
  have unlit : c.lighting = false := dark
  show InRange (fetcher c element)
  cases enabled : c.arrayEnable with
  | false =>
    have current : InRange c.current := by
      rcases clamped with lighting | ⟨on, -⟩ | current
      · exact absurd (unlit.symm.trans lighting) Bool.noConfusion
      · exact absurd (enabled.symm.trans on) Bool.noConfusion
      · exact current
    simp only [fetcher, enabled]
    exact current
  | true =>
    cases given : c.source with
    | none =>
      have current : InRange c.current := by
        rcases clamped with lighting | ⟨-, some⟩ | current
        · exact absurd (unlit.symm.trans lighting) Bool.noConfusion
        · rw [given] at some
          exact absurd some Bool.noConfusion
        · exact current
      simp only [fetcher, enabled, given]
      exact current
    | some source =>
      simp only [fetcher, enabled, given, unlit, Bool.false_eq_true, if_false]
      exact colorClampFct_range source element

/-- A smooth draw call cuts no edge whose ends are 32768.0 or more apart. -/
def Near (m : Machine) : Op F → Prop
  | .draw c equation p s => p.smooth = true → NearStep (coloured c equation p) m s
  | .drawTex _ => True

theorem sound_act {m : Machine} (h : Sound m) {op : Op F} (clamped : Clamped op.colors)
    (near : Near m op) : Sound (act m op) := by
  cases op with
  | draw c equation p s => exact sound_step (ranged_coloured clamped equation p) h near
  | drawTex c => exact h

theorem inRange_colorsOf {m : Machine} (h : Sound m) {op : Op F} (clamped : Clamped op.colors)
    (near : Near m op) : ∀ color ∈ colorsOf m op, InRange color := by
  cases op with
  | draw c equation p s => exact inRange_passed (ranged_coloured clamped equation p) h near
  | drawTex c =>
    intro color here
    rw [List.mem_singleton.mp here]
    exact c.clamped_range

private def scene : Pipeline := .flat fun _ => ⟨0, 0, 0, 0⟩

/-- `glDrawArrays` of one point, in a colour state. -/
private def onePoint (c : ColorState F) : List (Op F) :=
  [.cull clipAll, .compile 0 0 0, .point 0].map (.draw c Vertex.color scene)

private theorem passed_onePoint {c : ColorState F} (loose : ¬Clamped c) :
    colorsOf (run act .init ((onePoint c).take 2)) (.draw c Vertex.color scene (.point 0)) =
      [c.current] := by
  have unlit : c.lighting = false := by
    cases lighting : c.lighting with
    | false => rfl
    | true => exact absurd (.inl lighting) loose
  have current : fetcher c = fun _ => c.current := by
    unfold fetcher
    split
    · rename_i source enabled given
      exact absurd (.inr (.inl ⟨enabled, by rw [given]; rfl⟩)) loose
    · rfl
  set q := coloured c Vertex.color scene with hq
  have dark := q.compileVertex_lit Vertex.zero 0 0 0
  show [(lightPoint q (q.compileVertex Vertex.zero 0 0 0).2).color] = _
  generalize (q.compileVertex Vertex.zero 0 0 0).2 = v at dark
  have lighting : q.lighting = false := unlit
  have fetched : q.fetchColor (elementOf v.index) v.color = c.current := by
    show fetcher c _ = _
    rw [current]
  have fogging : q.fogging = false := rfl
  simp only [lightPoint, dark, lighting, fogging, fetched, ne_eq, not_true_eq_false, if_false,
    Bool.false_eq_true]

/-- A vertex at `x`, in the middle of the view volume otherwise. -/
private def shiny (x red : Int) : Vertex :=
  { Vertex.zero with clip := ⟨x * 0x10000, 0, 0, 0x10000⟩, color := ⟨red, 0, 0, 0⟩ }

-- The difference of the distances, 40000.0, is no `int32_t`.
example : (clipPlanes { scene with smooth := true } [.frustum 1] (shiny 20000 0)
    (shiny (-20000) 0x10000)).2.1.color.x = 73728 := by
  decide +kernel

private def bright : ColorState ℚ := ColorState.glColor4x .init ⟨0x20000, 0, 0, 0x10000⟩

end RabbitRender.Arrays.ColorRange
