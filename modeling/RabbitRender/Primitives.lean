/- RabbitRender/Primitives
   layer: model
   source: swrender/primitives.cpp, swrender/array.cpp, swrender/light.cpp
   digest: The primitive renderers as they act on the vertices they are given. -/

import RabbitRender.Arrays.Compile

set_option autoImplicit false

namespace RabbitRender.Primitives

open Fixed Vertices Arrays.Compile

variable (p : Pipeline)

/-- The coordinates `fetch_texcoord_impl` computes for one unit. -/
def texCoord (i : Fin 2) (v : Vertex) : Vec4 :=
  let coords := p.fetchTexture i (elementOf v.index) (v.texture i)
  let coords := p.texTransform i { coords with w := 0x10000 }
  if coords.w ≠ 0x10000 then
    let qinv := gglRecip28 coords.w
    { coords with x := gglMulx coords.x qinv 28, y := gglMulx coords.y qinv 28 }
  else coords

/-- The inner loop body of `fetch_texcoord_impl`. -/
def texturize (i : Fin 2) (v : Vertex) : Vertex :=
  if v.flags &&& tt ≠ 0 then v
  else { v with texture := Function.update v.texture i (texCoord p i v) }

def markTT (v : Vertex) : Vertex := { v with flags := v.flags ||| tt }

-- One function for each way `lightTriangle` treats a vertex.
def darkSmooth (v : Vertex) : Vertex :=
  if v.flags &&& lit ≠ 0 then v
  else { v with flags := v.flags ||| lit, color := p.fetchColor (elementOf v.index) v.color }

/-- `lightVertex`: the colour is that of the lighting equation. -/
def lightVertex (v : Vertex) : Vertex := { v with color := p.lightColor v, flags := v.flags ||| lit }

def lightSmooth (v : Vertex) : Vertex := if v.flags &&& lit ≠ 0 then v else lightVertex p v

def darkSmoothFog (v : Vertex) : Vertex :=
  if v.flags &&& lit ≠ 0 then v
  else
    let color := p.fetchColor (elementOf v.index) v.color
    { v with flags := v.flags ||| lit, fog := p.fog v.obj.z, color := color }

def darkFlatFog (v : Vertex) : Vertex :=
  if v.flags &&& lit ≠ 0 then v else { v with flags := v.flags ||| lit, fog := p.fog v.obj.z }

def lightSmoothFog (v : Vertex) : Vertex :=
  if v.flags &&& lit ≠ 0 then v else lightVertex p { v with fog := p.fog v.obj.z }

/-- `lightPrimitive`: what is done to the first, the second and the third vertex. -/
def lightPrimitive : (Vertex → Vertex) × (Vertex → Vertex) × (Vertex → Vertex) :=
  match p.fogging, p.lighting, p.smooth with
  | false, false, false => (id, id, darkSmooth p)
  | false, false, true => (darkSmooth p, darkSmooth p, darkSmooth p)
  | false, true, false => (id, id, lightSmooth p)
  | false, true, true => (lightSmooth p, lightSmooth p, lightSmooth p)
  | true, false, false => (darkFlatFog p, darkFlatFog p, darkSmoothFog p)
  | true, false, true => (darkSmoothFog p, darkSmoothFog p, darkSmoothFog p)
  | true, true, false => (darkFlatFog p, darkFlatFog p, lightSmoothFog p)
  | true, true, true => (lightSmoothFog p, lightSmoothFog p, lightSmoothFog p)

/-- How `primitive_point` lights its vertex. -/
def lightPoint (v : Vertex) : Vertex :=
  if v.flags &&& lit ≠ 0 then v
  else
    let v := if p.lighting then lightVertex p v
      else { v with flags := v.flags ||| lit, color := p.fetchColor (elementOf v.index) v.color }
    if p.fogging then { v with fog := p.fog v.obj.z } else v

-- A shading function keeps the geometry of its vertex.
def Shader (f : Vertex → Vertex) : Prop := ∀ v, SameGeometry (f v) v

private theorem or_flags (f g : Flags) (h : g ||| (lit ||| tt) = lit ||| tt) :
    f ||| g ||| (lit ||| tt) = f ||| (lit ||| tt) := by
  rw [BitVec.or_assoc, h]

private theorem or_lit (f : Flags) : f ||| lit ||| (lit ||| tt) = f ||| (lit ||| tt) :=
  or_flags f lit (by decide)

private theorem or_tt (f : Flags) : f ||| tt ||| (lit ||| tt) = f ||| (lit ||| tt) :=
  or_flags f tt (by decide)

private theorem shader_id : Shader id := SameGeometry.refl

private theorem shader_texturize (i : Fin 2) : Shader (texturize p i) := by
  intro v
  unfold texturize
  split_ifs <;> exact ⟨rfl, rfl, rfl, rfl, rfl, rfl, rfl⟩

private theorem shader_markTT : Shader markTT := fun v =>
  ⟨rfl, rfl, or_tt v.flags, rfl, rfl, rfl, rfl⟩

private theorem shader_lightVertex : Shader (lightVertex p) := fun v =>
  ⟨rfl, rfl, or_lit v.flags, rfl, rfl, rfl, rfl⟩

private theorem shader_darkSmooth : Shader (darkSmooth p) := by
  intro v
  unfold darkSmooth
  split_ifs
  · exact .refl v
  · exact ⟨rfl, rfl, or_lit v.flags, rfl, rfl, rfl, rfl⟩

private theorem shader_lightSmooth : Shader (lightSmooth p) := by
  intro v
  unfold lightSmooth
  split_ifs
  · exact .refl v
  · exact shader_lightVertex p v

private theorem shader_darkSmoothFog : Shader (darkSmoothFog p) := by
  intro v
  unfold darkSmoothFog
  split_ifs
  · exact .refl v
  · exact ⟨rfl, rfl, or_lit v.flags, rfl, rfl, rfl, rfl⟩

private theorem shader_darkFlatFog : Shader (darkFlatFog p) := by
  intro v
  unfold darkFlatFog
  split_ifs
  · exact .refl v
  · exact ⟨rfl, rfl, or_lit v.flags, rfl, rfl, rfl, rfl⟩

private theorem shader_lightSmoothFog : Shader (lightSmoothFog p) := by
  intro v
  unfold lightSmoothFog
  split_ifs
  · exact .refl v
  · exact ⟨rfl, rfl, or_lit v.flags, rfl, rfl, rfl, rfl⟩

theorem shader_lightPrimitive : Shader (lightPrimitive p).1 ∧ Shader (lightPrimitive p).2.1 ∧
    Shader (lightPrimitive p).2.2 := by
  have dark := shader_darkSmooth p
  have darkFog := shader_darkSmoothFog p
  have flatFog := shader_darkFlatFog p
  have light := shader_lightSmooth p
  have lightFog := shader_lightSmoothFog p
  unfold lightPrimitive
  cases p.fogging <;> cases p.lighting <;> cases p.smooth <;>
    first
      | exact ⟨shader_id, shader_id, ‹_›⟩
      | exact ⟨‹_›, ‹_›, ‹_›⟩

theorem shader_lightPoint : Shader (lightPoint p) := by
  intro v
  unfold lightPoint
  split_ifs
  · exact .refl v
  all_goals exact ⟨rfl, rfl, or_lit v.flags, rfl, rfl, rfl, rfl⟩

/-- `f` applied to the vertex at `slot`. -/
def shade (m : Machine) (slot : Nat) (f : Vertex → Vertex) : Machine :=
  m.set slot (f (m.verts slot))

structure Shaded (m r : Machine) : Prop where
  verts : ∀ i, SameGeometry (r.verts i) (m.verts i)
  sequence : r.sequence = m.sequence
  cull : r.cull = m.cull
  calls : r.calls = m.calls
  lines : r.lines = m.lines
  hits : r.hits = m.hits
  draw : r.draw = m.draw

theorem Shaded.refl (m : Machine) : Shaded m m :=
  ⟨fun i => .refl (m.verts i), rfl, rfl, rfl, rfl, rfl, rfl⟩

theorem Shaded.trans {a b c : Machine} (h : Shaded a b) (h' : Shaded b c) : Shaded a c :=
  ⟨fun i => (h'.verts i).trans (h.verts i), h'.sequence.trans h.sequence, h'.cull.trans h.cull,
    h'.calls.trans h.calls, h'.lines.trans h.lines, h'.hits.trans h.hits, h'.draw.trans h.draw⟩

theorem shaded_shade (m : Machine) (slot : Nat) {f : Vertex → Vertex} (hf : Shader f) :
    Shaded m (shade m slot f) := by
  refine ⟨?_, rfl, rfl, rfl, rfl, rfl, rfl⟩
  intro i
  by_cases h : i = slot
  · subst h
    rw [shade, Machine.set_same]
    exact hf _
  · rw [shade, Machine.set_other _ _ _ h]
    exact .refl _

theorem shade_other (m : Machine) {slot i : Nat} (f : Vertex → Vertex) (h : i ≠ slot) :
    (shade m slot f).verts i = m.verts i :=
  Machine.set_other _ _ _ h

def fetchTexcoord (m : Machine) (v0 v1 v2 : Nat) : Machine :=
  if !p.tmus then m
  else if (m.verts v0).flags &&& (m.verts v1).flags &&& (m.verts v2).flags &&& tt ≠ 0 then m
  else
    let unit (m : Machine) (i : Fin 2) : Machine :=
      if p.textureEnable i then
        shade (shade (shade m v0 (texturize p i)) v1 (texturize p i)) v2 (texturize p i)
      else m
    let m := unit (unit m 0) 1
    shade (shade (shade m v0 markTT) v1 markTT) v2 markTT

/-- `lighting.lightTriangle`, less the colour it gives the rasterizer. -/
def lightTriangle (m : Machine) (v0 v1 v2 : Nat) : Machine :=
  let (f0, f1, f2) := lightPrimitive p
  shade (shade (shade m v0 f0) v1 f1) v2 f2

private theorem shaded_three (m : Machine) (v0 v1 v2 : Nat) {f0 f1 f2 : Vertex → Vertex}
    (h0 : Shader f0) (h1 : Shader f1) (h2 : Shader f2) :
    Shaded m (shade (shade (shade m v0 f0) v1 f1) v2 f2) :=
  ((shaded_shade m v0 h0).trans (shaded_shade _ v1 h1)).trans (shaded_shade _ v2 h2)

theorem shaded_fetchTexcoord (m : Machine) (v0 v1 v2 : Nat) :
    Shaded m (fetchTexcoord p m v0 v1 v2) := by
  have unit (i : Fin 2) (m : Machine) : Shaded m (if p.textureEnable i then
      shade (shade (shade m v0 (texturize p i)) v1 (texturize p i)) v2 (texturize p i) else m) := by
    have f := shader_texturize p i
    split_ifs
    · exact shaded_three m v0 v1 v2 f f f
    · exact .refl m
  unfold fetchTexcoord
  split_ifs
  · exact .refl m
  · exact .refl m
  · refine .trans ((unit 0 m).trans (unit 1 _)) ?_
    exact shaded_three _ v0 v1 v2 shader_markTT shader_markTT shader_markTT

theorem shaded_lightTriangle (m : Machine) (v0 v1 v2 : Nat) :
    Shaded m (lightTriangle p m v0 v1 v2) := by
  obtain ⟨h0, h1, h2⟩ := shader_lightPrimitive p
  exact shaded_three m v0 v1 v2 h0 h1 h2

/-- `primitive_point`, on the buffer. -/
def primitivePoint (m : Machine) (v : Nat) : Machine :=
  let m := shade m v (lightPoint p)
  if p.tmus then fetchTexcoord p m v v v else m

/-- `lerp.initTriangle`, `lerp.area`. -/
def area (v0 v1 v2 : Vertex) : Int :=
  let dx01 := v1.window.x - v0.window.x
  let dy10 := v0.window.y - v1.window.y
  let dx20 := v0.window.x - v2.window.x
  let dy02 := v2.window.y - v0.window.y
  dx01 * dy02 + -dy10 * dx20

def cullTriangle (v0 v1 v2 : Vertex) : Bool :=
  let winding := if area v0 v1 v2 > 0 then GL.cw else GL.ccw
  let face := if winding = p.frontFace then GL.front else GL.back
  p.cullEnable && face = p.cullFace

/-- `primitive_clip_triangle`, on the buffer: the vertices `clip_triangle` makes are its own. -/
def primitiveClipTriangle (m : Machine) (v0 v1 v2 : Nat) : Machine :=
  let cc := ((m.verts v0).flags ||| (m.verts v1).flags ||| (m.verts v2).flags) &&& clipAll
  if cc = 0 && cullTriangle p (m.verts v0) (m.verts v1) (m.verts v2) then m
  else lightTriangle p (fetchTexcoord p m v0 v1 v2) v0 v1 v2

theorem shaded_primitivePoint (m : Machine) (v : Nat) : Shaded m (primitivePoint p m v) := by
  have lighted := shaded_shade m v (shader_lightPoint p)
  unfold primitivePoint
  split_ifs
  · exact lighted.trans (shaded_fetchTexcoord p _ v v v)
  · exact lighted

theorem shaded_primitiveClipTriangle (m : Machine) (v0 v1 v2 : Nat) :
    Shaded m (primitiveClipTriangle p m v0 v1 v2) := by
  simp only [primitiveClipTriangle]
  split_ifs
  · exact .refl m
  · exact (shaded_fetchTexcoord p m v0 v1 v2).trans (shaded_lightTriangle p _ v0 v1 v2)

inductive Plane where
  | user (i : Nat)
  | frustum (i : Nat)
deriving DecidableEq, Repr

/-- In the order `clip_line` goes through them. -/
def allPlanes : List Plane := (List.range 6).map .user ++ (List.range 6).map .frustum

def Plane.bit : Plane → Flags
  | user i => 0x100 <<< i
  | frustum i => 1 <<< i

def frustumPlaneDist (plane : Nat) (s : Vec4) : Int :=
  let d := s.get (plane / 2)
  if plane % 2 = 1 then s.w - d else s.w + d

/-- The distance `clip_line` compares with 0. -/
def distance (plane : Plane) (v : Vertex) : Int :=
  match plane with
  | .user i => dot4 (p.clipPlane i) v.obj
  | .frustum i => frustumPlaneDist i v.clip

def clipVec4 (t : Int) (s q : Vec4) : Vec4 :=
  ⟨gglMulAddx t (s.x - q.x) q.x 28, gglMulAddx t (s.y - q.y) q.y 28,
    gglMulAddx t (s.z - q.z) q.z 28, gglMulAddx t (s.w - q.w) q.w 28⟩

/-- `arrays.clipVertex`: `clipVertex` with the colours and the texture coordinates in use. -/
def clipVertex (nv : Vertex) (t : Int) (s q : Vertex) : Vertex :=
  let color := if p.smooth then clipVec4 t s.color q.color else nv.color
  let texture := fun i =>
    if p.tmus && p.textureEnable i then clipVec4 t (s.texture i) (q.texture i) else nv.texture i
  let clip := clipVec4 t s.clip q.clip
  let fog := gglMulAddx t (s.fog - q.fog) q.fog 28
  let nv := p.project p.depthTest { nv with color := color, texture := texture, clip := clip, fog := fog }
  { nv with flags := (nv.flags ||| (lit ||| eye ||| tt)) &&& ~~~clipAll }

/-- `arrays.clipEye`; it hands `q` and `s` on to `clipVertex` the other way round. -/
def clipEye (nv : Vertex) (t : Int) (s q : Vertex) : Vertex :=
  let nv := clipVertex p nv.clear t q s
  { nv with obj := clipVec4 t s.obj q.obj }

def clipAgainst (plane : Plane) : Vertex → Int → Vertex → Vertex → Vertex :=
  match plane with
  | .user _ => clipEye p
  | .frustum _ => clipVertex p

/-- The loops of `clip_line` over the planes that either vertex is outside of: whether something
is left of the line, and both vertices. -/
def clipPlanes : List Plane → Vertex → Vertex → Bool × Vertex × Vertex
  | [], s, q => (true, s, q)
  | plane :: planes, s, q =>
    let sd := distance p plane s
    let qd := distance p plane q
    if sd ≥ 0 then
      if qd ≥ 0 then clipPlanes planes s q
      -- s inside, q outside
      else clipPlanes planes s (clipAgainst p plane q (clipDivide sd (sd - qd)) q s)
    else if qd ≥ 0 then
      -- s outside, q inside; a `q` on the plane leaves `s` alone
      if qd ≠ 0 then clipPlanes planes (clipAgainst p plane s (clipDivide qd (qd - sd)) s q) q
      else clipPlanes planes s q
    else (false, s, q)

/-- The planes `clip_line` visits. -/
def clippingPlanes (s q : Vertex) : List Plane :=
  allPlanes.filter fun plane => (s.flags ||| q.flags) &&& clipAll &&& plane.bit ≠ 0

def clipLine (s q : Vertex) : Bool × Vertex × Vertex :=
  clipPlanes p (clippingPlanes s q) s q

/-- `primitive_line`. `lines` records what `linex` is given. -/
def primitiveLine (m : Machine) (v0 v1 : Nat) : Machine :=
  let m := lightTriangle p (fetchTexcoord p m v0 v1 v1) v0 v1 v1
  let drawn (m : Machine) : Machine :=
    { m with lines := m.lines ++ [(m.verts v0, m.verts v1)] }
  if ((m.verts v0).flags ||| (m.verts v1).flags) &&& clipAll ≠ 0 then
    let (visible, s, q) := clipLine p (m.verts v0) (m.verts v1)
    let m := (m.set v0 s).set v1 q
    if visible then drawn m else m
  else drawn m

def renderPoint (m : Machine) (v : Nat) : Machine :=
  primitivePoint p { m with calls := m.calls ++ [.point (m.verts v)] } v

def renderLine (m : Machine) (v0 v1 : Nat) : Machine :=
  primitiveLine p { m with calls := m.calls ++ [.line (m.verts v0) (m.verts v1)] } v0 v1

def renderTriangle (m : Machine) (v0 v1 v2 : Nat) : Machine :=
  let call := .triangle (m.verts v0) (m.verts v1) (m.verts v2)
  primitiveClipTriangle p { m with calls := m.calls ++ [call] } v0 v1 v2

theorem shaded_renderPoint (m : Machine) (v : Nat) :
    Shaded { m with calls := m.calls ++ [.point (m.verts v)] } (renderPoint p m v) :=
  shaded_primitivePoint p _ v

theorem shaded_renderTriangle (m : Machine) (v0 v1 v2 : Nat) :
    Shaded { m with calls := m.calls ++ [.triangle (m.verts v0) (m.verts v1) (m.verts v2)] }
      (renderTriangle p m v0 v1 v2) :=
  shaded_primitiveClipTriangle p _ v0 v1 v2

private theorem clipVertex_outside (nv : Vertex) (t : Int) (s q : Vertex) :
    (clipVertex p nv t s q).outside = 0 := by
  simp only [clipVertex, Vertex.outside, BitVec.and_assoc]
  rw [show ~~~clipAll &&& clipAll = 0 by decide]
  exact BitVec.and_zero

theorem clipAgainst_outside (plane : Plane) (nv : Vertex) (t : Int) (s q : Vertex) :
    (clipAgainst p plane nv t s q).outside = 0 := by
  cases plane with
  | user i => exact clipVertex_outside p nv.clear t q s
  | frustum i => exact clipVertex_outside p nv t s q

theorem distance_congr {plane : Plane} {v w : Vertex} (h : p.seen v = p.seen w) :
    distance p plane v = distance p plane w := by
  obtain ⟨obj, clip, -⟩ := seen_eq_iff.mp h
  cases plane with
  | user i => rw [distance, distance, obj]
  | frustum i => rw [distance, distance, clip]

private theorem clipVertex_flags (nv : Vertex) (t : Int) (s q : Vertex) :
    (clipVertex p nv t s q).flags &&& geometryFlags = eye := by
  show (nv.flags ||| (lit ||| eye ||| tt)) &&& ~~~clipAll &&& geometryFlags = eye
  rw [BitVec.and_assoc, show ~~~clipAll &&& geometryFlags = eye by decide]
  ext i
  simp only [BitVec.getElem_and, BitVec.getElem_or]
  cases nv.flags[i] <;> cases lit[i] <;> cases eye[i] <;> simp

private theorem clipVertex_congr {nv nv' s s' q q' : Vertex} {t : Int} (obj : nv.obj = nv'.obj)
    (index : nv.index = nv'.index) (hs : s.clip = s'.clip) (hq : q.clip = q'.clip) :
    p.seen (clipVertex p nv t s q) = p.seen (clipVertex p nv' t s' q') := by
  apply seen_eq_iff.mpr
  refine ⟨obj, ?_, by rw [clipVertex_flags, clipVertex_flags], index, ?_⟩
  · show clipVec4 t s.clip q.clip = clipVec4 t s'.clip q'.clip
    rw [hs, hq]
  · intro _
    simp only [clipVertex, Pipeline.project, hs, hq, true_and]
    intro hdepth
    have : p.depthTest = true := by
      simp only [Pipeline.depth, Bool.and_eq_true] at hdepth
      exact hdepth.1
    simp [this]

variable {s s' q q' : Vertex}

theorem clipAgainst_congr {plane : Plane} {nv nv' : Vertex} {t : Int} (hnv : p.seen nv = p.seen nv')
    (hs : p.seen s = p.seen s') (hq : p.seen q = p.seen q') :
    p.seen (clipAgainst p plane nv t s q) = p.seen (clipAgainst p plane nv' t s' q') := by
  obtain ⟨nobj, -, -, nindex, -⟩ := seen_eq_iff.mp hnv
  obtain ⟨sobj, sclip, -⟩ := seen_eq_iff.mp hs
  obtain ⟨qobj, qclip, -⟩ := seen_eq_iff.mp hq
  cases plane with
  | frustum i => exact clipVertex_congr p nobj nindex sclip qclip
  | user i =>
    have base := @clipVertex_congr p nv.clear nv'.clear q q' s s' t nobj rfl qclip sclip
    obtain ⟨-, clip, flags, index, window⟩ := seen_eq_iff.mp base
    apply seen_eq_iff.mpr
    refine ⟨?_, clip, flags, index, window⟩
    show clipVec4 t s.obj q.obj = clipVec4 t s'.obj q'.obj
    rw [sobj, qobj]

structure SameLine (a b : Bool × Vertex × Vertex) : Prop where
  visible : a.1 = b.1
  start : p.seen a.2.1 = p.seen b.2.1
  stop : p.seen a.2.2 = p.seen b.2.2

theorem clipPlanes_congr {planes : List Plane} (hs : p.seen s = p.seen s')
    (hq : p.seen q = p.seen q') :
    SameLine p (clipPlanes p planes s q) (clipPlanes p planes s' q') := by
  induction planes generalizing s s' q q' with
  | nil => exact ⟨rfl, hs, hq⟩
  | cons plane planes ih =>
    have sd : distance p plane s = distance p plane s' := distance_congr p hs
    have qd : distance p plane q = distance p plane q' := distance_congr p hq
    simp only [clipPlanes, sd, qd]
    split_ifs
    · exact ih hs hq
    · exact ih hs (clipAgainst_congr p hq hq hs)
    · exact ih (clipAgainst_congr p hs hs hq) hq
    · exact ih hs hq
    · exact ⟨rfl, hs, hq⟩

theorem clipLine_congr (hs : p.seen s = p.seen s') (hq : p.seen q = p.seen q') :
    SameLine p (clipLine p s q) (clipLine p s' q') := by
  have planes : clippingPlanes s q = clippingPlanes s' q' := by
    have outs : s.outside = s'.outside := Pipeline.outside_congr hs
    have outq : q.outside = q'.outside := Pipeline.outside_congr hq
    have both (v w : Vertex) : (v.flags ||| w.flags) &&& clipAll = v.outside ||| w.outside := by
      rw [BitVec.and_comm, BitVec.and_or_distrib_left, BitVec.and_comm clipAll,
        BitVec.and_comm clipAll]
      rfl
    simp only [clippingPlanes, both, outs, outq]
  rw [clipLine, clipLine, planes]
  exact clipPlanes_congr p hs hq

private theorem clippingPlanes_nil (h : (s.flags ||| q.flags) &&& clipAll = 0) :
    clippingPlanes s q = [] := by
  simp only [clippingPlanes, h]
  simp

private theorem primitiveLine_eq (m : Machine) (v0 v1 : Nat) :
    let r := lightTriangle p (fetchTexcoord p m v0 v1 v1) v0 v1 v1
    let c := clipLine p (r.verts v0) (r.verts v1)
    let w := (r.set v0 c.2.1).set v1 c.2.2
    (v0 ≠ v1 → primitiveLine p m v0 v1 =
      if c.1 then { w with lines := w.lines ++ [(c.2.1, c.2.2)] } else w) := by
  intro r c w distinct
  have start : w.verts v0 = c.2.1 := by simp [w, distinct]
  have stop : w.verts v1 = c.2.2 := by simp [w]
  by_cases h : ((r.verts v0).flags ||| (r.verts v1).flags) &&& clipAll = 0
  · have unclipped : c = (true, r.verts v0, r.verts v1) := by
      simp only [c, clipLine, clippingPlanes_nil h, clipPlanes]
    have same : w = r := by
      simp only [w, unclipped, Machine.set, Function.update_eq_self]
    simp only [primitiveLine, if_true, unclipped, same]
    rw [if_neg]
    simpa [r] using h
  · simp only [primitiveLine]
    rw [if_pos h]
    show (if c.1 then _ else w) = _
    rw [start, stop]

/-- A line changes its two vertices as `clip_line` does, up to shading. -/
structure LineDrawn (m r : Machine) (v0 v1 : Nat) : Prop where
  others : ∀ i, i ≠ v0 → i ≠ v1 → r.verts i = m.verts i
  start : p.seen (r.verts v0) = p.seen (clipLine p (m.verts v0) (m.verts v1)).2.1
  stop : p.seen (r.verts v1) = p.seen (clipLine p (m.verts v0) (m.verts v1)).2.2
  calls : r.calls = m.calls ++ [.line (m.verts v0) (m.verts v1)]
  lines : r.lines.map (Prod.map p.seen p.seen) = m.lines.map (Prod.map p.seen p.seen) ++
    (if (clipLine p (m.verts v0) (m.verts v1)).1 then
      [(p.seen (clipLine p (m.verts v0) (m.verts v1)).2.1,
        p.seen (clipLine p (m.verts v0) (m.verts v1)).2.2)] else [])

private theorem lighted_others (m : Machine) {v0 v1 i : Nat} (h0 : i ≠ v0) (h1 : i ≠ v1) :
    (lightTriangle p (fetchTexcoord p m v0 v1 v1) v0 v1 v1).verts i = m.verts i := by
  have three (f0 f1 f2 : Vertex → Vertex) (m : Machine) :
      (shade (shade (shade m v0 f0) v1 f1) v1 f2).verts i = m.verts i := by
    rw [shade_other _ _ h1, shade_other _ _ h1, shade_other _ _ h0]
  have unit (j : Fin 2) (m : Machine) : (if p.textureEnable j then
      shade (shade (shade m v0 (texturize p j)) v1 (texturize p j)) v1 (texturize p j)
      else m).verts i = m.verts i := by
    split_ifs
    · exact three _ _ _ m
    · rfl
  rw [lightTriangle, three]
  unfold fetchTexcoord
  split_ifs
  · rfl
  · rfl
  · exact (three _ _ _ _).trans ((unit 1 _).trans (unit 0 m))

theorem lineDrawn_renderLine (m : Machine) {v0 v1 : Nat} (distinct : v0 ≠ v1) :
    LineDrawn p m (renderLine p m v0 v1) v0 v1 := by
  set called : Machine := { m with calls := m.calls ++ [.line (m.verts v0) (m.verts v1)] }
    with hcalled
  have eq := primitiveLine_eq p called v0 v1 distinct
  set r := lightTriangle p (fetchTexcoord p called v0 v1 v1) v0 v1 v1 with hr
  have shaded : Shaded called r :=
    (shaded_fetchTexcoord p called v0 v1 v1).trans (shaded_lightTriangle p _ v0 v1 v1)
  have same : SameLine p (clipLine p (r.verts v0) (r.verts v1))
      (clipLine p (m.verts v0) (m.verts v1)) :=
    clipLine_congr p ((shaded.verts v0).seen _) ((shaded.verts v1).seen _)
  set c := clipLine p (r.verts v0) (r.verts v1)
  have others (i : Nat) (h0 : i ≠ v0) (h1 : i ≠ v1) : r.verts i = m.verts i :=
    lighted_others p called h0 h1
  have lines : r.lines = m.lines := shaded.lines
  have calls : r.calls = m.calls ++ [.line (m.verts v0) (m.verts v1)] := shaded.calls
  rw [show renderLine p m v0 v1 = _ from eq]
  by_cases visible : c.1
  · rw [if_pos visible]
    refine ⟨?_, ?_, ?_, calls, ?_⟩
    · intro i h0 h1
      simp [h0, h1, others i h0 h1]
    · simpa [distinct] using same.start
    · simpa using same.stop
    · rw [← same.visible, if_pos visible, ← same.start, ← same.stop]
      simp [lines, Prod.map]
  · rw [if_neg visible]
    refine ⟨?_, ?_, ?_, calls, ?_⟩
    · intro i h0 h1
      simp [h0, h1, others i h0 h1]
    · simpa [distinct] using same.start
    · simpa using same.stop
    · rw [← same.visible, if_neg visible]
      simp [lines]

end RabbitRender.Primitives
