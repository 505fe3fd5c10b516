/- RabbitRender/Arrays/FlatShading
   layer: result
   source: swrender/primitives.cpp, swrender/light.cpp, swrender/array.cpp
   digest: The colour a line or triangle is drawn with under flat shading, and the vertex it is of. -/

import RabbitRender.Arrays.Steps

set_option autoImplicit false

namespace RabbitRender.Arrays.FlatShading

open Vertices Arrays.Compile Arrays.Draw Arrays.Steps Primitives Lib.GuardedRun

/-- Where colours come from. The fetchers of the colour array write all four components, and
`lightVertex` reads the position of the vertex and, by its element, the normal and the colour. -/
structure Colouring where
  array : Nat → Vec4
  light : Vec4 → Nat → Vec4

def flatShaded (p : Pipeline) (c : Colouring) : Pipeline :=
  { p with
    smooth := false
    fetchColor := fun element _ => c.array element
    lightColor := fun v => c.light v.obj (elementOf v.index) }

/-- The colour of an element that is compiled and coloured for one primitive alone. -/
def ownColor (p : Pipeline) (element : Nat) : Vec4 :=
  ((lightPrimitive p).2.2 (p.compiled element element)).color

/-- The colour `lightTriangle` gives the rasterizer. -/
def givenColor (p : Pipeline) (m : Machine) (v0 v1 v2 : Nat) : Vec4 :=
  ((lightTriangle p (fetchTexcoord p m v0 v1 v2) v0 v1 v2).verts v2).color

/-- A primitive that reaches the rasterizer. Clipped triangles count as drawn. -/
def drawn (p : Pipeline) (m : Machine) : Step → Bool
  | .line v0 v1 =>
    let r := lightTriangle p (fetchTexcoord p m v0 v1 v1) v0 v1 v1
    let cc := ((r.verts v0).flags ||| (r.verts v1).flags) &&& clipAll
    cc = 0 || (clipLine p (r.verts v0) (r.verts v1)).1
  | .triangle v0 v1 v2 =>
    let cc := ((m.verts v0).flags ||| (m.verts v1).flags ||| (m.verts v2).flags) &&& clipAll
    !(cc = 0 && cullTriangle p (m.verts v0) (m.verts v1) (m.verts v2))
  | _ => false

/-- The three vertices of a primitive, as `lightTriangle` gets them. -/
def vertices : Step → Option (Nat × Nat × Nat)
  | .line v0 v1 => some (v0, v1, v1)
  | .triangle v0 v1 v2 => some (v0, v1, v2)
  | _ => none

def Right (p : Pipeline) (m : Machine) (s : Step) : Prop :=
  drawn p m s → ∀ v0 v1 v2, vertices s = some (v0, v1, v2) →
    givenColor p m v0 v1 v2 = ownColor p (m.verts v2).source.element

/-- The machine, and the entries that this draw call compiled and has not marked as lit but in
the place of the last vertex. -/
structure Tracked where
  machine : Machine
  own : Nat → Bool

def isLit (v : Vertex) : Bool := v.flags &&& lit ≠ 0

/-- The entry a primitive colours. Fog marks the first two vertices before the last one. -/
def coloured (p : Pipeline) (v0 v1 v2 : Nat) : Option Nat :=
  if p.fogging ∧ (v2 = v0 ∨ v2 = v1) then none else some v2

def giveUp (own : Nat → Bool) (m r : Machine) (colours : Option Nat) : Nat → Bool := fun slot =>
  own slot && (isLit (m.verts slot) || !isLit (r.verts slot) || colours = some slot)

def track (p : Pipeline) (t : Tracked) (s : Step) : Tracked where
  machine := step p t.machine s
  own := match s with
    | .compile slot _ _ => Function.update t.own slot true
    | .copy dst src => Function.update t.own dst (t.own src)
    | .point v => giveUp t.own t.machine (step p t.machine s) (some v)
    | .line v0 v1 => giveUp t.own t.machine (step p t.machine s) (coloured p v0 v1 v1)
    | .triangle v0 v1 v2 => giveUp t.own t.machine (step p t.machine s) (coloured p v0 v1 v2)
    | _ => t.own

/-- The last vertex is coloured by this primitive, or was coloured as the last one before. -/
def Provoking (p : Pipeline) (t : Tracked) (v0 v1 v2 : Nat) : Prop :=
  t.own v2 = true ∧ (isLit (t.machine.verts v2) = true ∨ coloured p v0 v1 v2 = some v2)

/-- An element is compiled under its own index, and what is drawn has a provoking vertex. -/
def Ok (p : Pipeline) (t : Tracked) (s : Step) : Prop :=
  (∀ slot element index, s = .compile slot element index → elementOf index = element) ∧
    (drawn p t.machine s → ∀ v0 v1 v2, vertices s = some (v0, v1, v2) → Provoking p t v0 v1 v2)

section Vertex

variable (q : Pipeline) (c : Colouring)

def colorOf (v : Vertex) : Vec4 :=
  if q.lighting then c.light v.obj (elementOf v.index) else c.array (elementOf v.index)

/-- The two vertices are alike, but for the texture, the fog and the marks of both. -/
structure Alike (v w : Vertex) : Prop where
  obj : v.obj = w.obj
  index : v.index = w.index
  source : v.source = w.source

theorem Alike.refl (v : Vertex) : Alike v v := ⟨rfl, rfl, rfl⟩

variable {v : Vertex}

theorem Alike.trans {u w : Vertex} (h : Alike u v) (h' : Alike v w) : Alike u w :=
  ⟨h.obj.trans h'.obj, h.index.trans h'.index, h.source.trans h'.source⟩

/-- The first vertex is the second one, perhaps marked as lit, with the same colour. -/
structure Marked (v w : Vertex) : Prop extends Alike v w where
  color : v.color = w.color
  lit : isLit w = true → isLit v = true

theorem Marked.refl (v : Vertex) : Marked v v := ⟨.refl v, rfl, id⟩

theorem Marked.trans {u w : Vertex} (h : Marked u v) (h' : Marked v w) : Marked u w :=
  ⟨h.toAlike.trans h'.toAlike, h.color.trans h'.color, h.lit ∘ h'.lit⟩

theorem isLit_or (v : Vertex) : isLit { v with flags := v.flags ||| lit } = true := by
  have bit : (v.flags ||| lit) &&& lit = lit := by
    rw [BitVec.and_comm, BitVec.or_comm]
    ext i
    simp only [BitVec.getElem_and, BitVec.getElem_or]
    cases lit[i] <;> simp
  simp only [isLit, bit]
  decide

theorem isLit_iff (v : Vertex) : isLit v = true ↔ v.flags &&& lit ≠ 0 := by
  simp only [isLit, decide_eq_true_eq]

theorem isLit_markTT (v : Vertex) : isLit (markTT v) = isLit v := by
  have apart : tt &&& lit = 0 := by decide
  have bit : (v.flags ||| tt) &&& lit = v.flags &&& lit := by
    rw [BitVec.and_comm, BitVec.and_or_distrib_left, BitVec.and_comm lit tt, apart,
      BitVec.and_comm]
    simp
  simp only [isLit, markTT, bit]

def first : Vertex → Vertex := (lightPrimitive (flatShaded q c)).1

def last : Vertex → Vertex := (lightPrimitive (flatShaded q c)).2.2

theorem lightPrimitive_flat : lightPrimitive (flatShaded q c) = (first q c, first q c, last q c) := by
  unfold first last lightPrimitive flatShaded
  cases q.fogging <;> cases q.lighting <;> rfl

theorem first_of_no_fog (clear : q.fogging = false) (v : Vertex) : first q c v = v := by
  unfold first lightPrimitive flatShaded
  simp only [clear]
  cases q.lighting <;> rfl

theorem marked_first (v : Vertex) : Marked (first q c v) v := by
  cases fogging : q.fogging with
  | false => rw [first_of_no_fog q c fogging]; exact .refl v
  | true =>
    have fog : first q c v = darkFlatFog (flatShaded q c) v := by
      unfold first lightPrimitive flatShaded
      simp only [fogging]
      cases q.lighting <;> rfl
    rw [fog]
    unfold darkFlatFog
    split_ifs
    · exact .refl v
    · exact ⟨⟨rfl, rfl, rfl⟩, rfl, fun _ => isLit_or v⟩

theorem last_of_lit (lighted : isLit v = true) : last q c v = v := by
  have flag := (isLit_iff v).mp lighted
  unfold last lightPrimitive flatShaded
  cases q.fogging <;> cases q.lighting <;> exact if_pos flag

theorem last_of_unlit (dark : isLit v = false) :
    Alike (last q c v) v ∧ isLit (last q c v) = true ∧ (last q c v).color = colorOf q c v := by
  have flag : ¬v.flags &&& lit ≠ 0 := by
    rw [← isLit_iff, dark]
    exact Bool.false_ne_true
  unfold last lightPrimitive flatShaded colorOf
  cases q.fogging <;> cases q.lighting <;>
    simp only [darkSmooth, lightSmooth, darkSmoothFog, lightSmoothFog, lightVertex, if_neg flag,
      Bool.false_eq_true, if_false, if_true, and_true]
  all_goals exact ⟨⟨rfl, rfl, rfl⟩, isLit_or v⟩

end Vertex

structure Same (v w : Vertex) : Prop extends Alike v w where
  color : v.color = w.color
  lit : isLit v = isLit w

theorem Same.refl (v : Vertex) : Same v v := ⟨.refl v, rfl, rfl⟩

theorem Same.trans {u v w : Vertex} (h : Same u v) (h' : Same v w) : Same u w :=
  ⟨h.toAlike.trans h'.toAlike, h.color.trans h'.color, h.lit.trans h'.lit⟩

theorem shade_verts (m : Machine) (slot i : Nat) (f : Vertex → Vertex) :
    (shade m slot f).verts i = if i = slot then f (m.verts i) else m.verts i := by
  rw [shade, Machine.set_verts]
  split_ifs with h
  · rw [h]
  · rfl

theorem same_shade {f : Vertex → Vertex} (hf : ∀ v, Same (f v) v) (m : Machine) (slot i : Nat) :
    Same ((shade m slot f).verts i) (m.verts i) := by
  rw [shade_verts]
  split_ifs
  · exact hf _
  · exact .refl _

theorem same_three {f : Vertex → Vertex} (hf : ∀ v, Same (f v) v) (m : Machine)
    (v0 v1 v2 i : Nat) :
    Same ((shade (shade (shade m v0 f) v1 f) v2 f).verts i) (m.verts i) :=
  ((same_shade hf _ v2 i).trans (same_shade hf _ v1 i)).trans (same_shade hf m v0 i)

theorem same_fetchTexcoord (p : Pipeline) (m : Machine) (v0 v1 v2 i : Nat) :
    Same ((fetchTexcoord p m v0 v1 v2).verts i) (m.verts i) := by
  have textured (k : Fin 2) (v : Vertex) : Same (texturize p k v) v := by
    unfold texturize
    split_ifs
    · exact .refl v
    · exact ⟨⟨rfl, rfl, rfl⟩, rfl, rfl⟩
  have unit (k : Fin 2) (m : Machine) : Same ((if p.textureEnable k then
      shade (shade (shade m v0 (texturize p k)) v1 (texturize p k)) v2 (texturize p k)
        else m).verts i) (m.verts i) := by
    split_ifs
    · exact same_three (textured k) m v0 v1 v2 i
    · exact .refl _
  unfold fetchTexcoord
  split_ifs
  · exact .refl _
  · exact .refl _
  · have marked (v : Vertex) : Same (markTT v) v := ⟨⟨rfl, rfl, rfl⟩, rfl, isLit_markTT v⟩
    exact (same_three marked _ v0 v1 v2 i).trans ((unit 1 _).trans (unit 0 m))

/-- What a primitive does to the entries: `colours` is the entry it colours. -/
structure Painted (q : Pipeline) (c : Colouring) (colours : Option Nat) (v w : Nat → Vertex) :
    Prop where
  source : ∀ i, (w i).source = (v i).source
  lit : ∀ i, isLit (v i) = true → isLit (w i) = true ∧ (w i).color = (v i).color
  unlit : ∀ i, isLit (w i) = false → Alike (w i) (v i)
  painted : ∀ i, isLit (v i) = false → isLit (w i) = true → colours = some i →
    (w i).color = colorOf q c (v i)

section Primitive

variable (q : Pipeline) (c : Colouring) (m : Machine) (v0 v1 v2 : Nat)

theorem marked_two (i : Nat) :
    Marked ((shade (shade m v0 (first q c)) v1 (first q c)).verts i) (m.verts i) := by
  have one (m : Machine) (slot : Nat) : Marked ((shade m slot (first q c)).verts i) (m.verts i) := by
    rw [shade_verts]
    split_ifs
    · exact marked_first q c _
    · exact .refl _
  exact (one _ v1).trans (one m v0)

theorem two_of_coloured {i : Nat} (colours : coloured q v0 v1 i = some i) :
    (shade (shade m v0 (first q c)) v1 (first q c)).verts i = m.verts i := by
  unfold coloured at colours
  split_ifs at colours with fog
  rw [shade_verts, shade_verts]
  cases fogging : q.fogging with
  | false => simp only [first_of_no_fog q c fogging, ite_self]
  | true =>
    have apart : ¬(i = v0 ∨ i = v1) := fun h => fog ⟨fogging, h⟩
    rw [if_neg fun h => apart (.inr h), if_neg fun h => apart (.inl h)]

theorem painted_light :
    Painted q c (coloured q v0 v1 v2) m.verts
      (lightTriangle (flatShaded q c) m v0 v1 v2).verts := by
  have two := marked_two q c m v0 v1
  have result (i : Nat) : (lightTriangle (flatShaded q c) m v0 v1 v2).verts i =
      if i = v2 then last q c ((shade (shade m v0 (first q c)) v1 (first q c)).verts i)
      else (shade (shade m v0 (first q c)) v1 (first q c)).verts i := by
    unfold lightTriangle
    rw [lightPrimitive_flat]
    exact shade_verts _ v2 i _
  have only {i : Nat} (h : coloured q v0 v1 v2 = some i) : v2 = i := by
    unfold coloured at h
    split_ifs at h
    exact Option.some_inj.mp h
  refine ⟨fun i => ?_, fun i lighted => ?_, fun i dark => ?_, fun i dark _ h => ?_⟩
  · rw [result]
    split_ifs
    · cases lighted : isLit ((shade (shade m v0 (first q c)) v1 (first q c)).verts i) with
      | true => rw [last_of_lit q c lighted, (two i).source]
      | false => rw [(last_of_unlit q c lighted).1.source, (two i).source]
    · exact (two i).source
  · rw [result]
    have still := (two i).lit lighted
    split_ifs
    · rw [last_of_lit q c still]
      exact ⟨still, (two i).color⟩
    · exact ⟨still, (two i).color⟩
  · rw [result] at dark ⊢
    split_ifs at dark ⊢
    · cases lighted : isLit ((shade (shade m v0 (first q c)) v1 (first q c)).verts i) with
      | true =>
        rw [last_of_lit q c lighted, lighted] at dark
        exact absurd dark Bool.noConfusion
      | false =>
        rw [(last_of_unlit q c lighted).2.1] at dark
        exact absurd dark Bool.noConfusion
    · exact (two i).toAlike
  · obtain rfl := only h
    rw [result, if_pos rfl, two_of_coloured q c m v0 v1 h]
    exact (last_of_unlit q c dark).2.2

theorem lit_lightTriangle :
    isLit ((lightTriangle (flatShaded q c) m v0 v1 v2).verts v2) = true := by
  unfold lightTriangle
  rw [lightPrimitive_flat]
  dsimp only
  rw [shade_verts, if_pos rfl]
  cases lighted : isLit ((shade (shade m v0 (first q c)) v1 (first q c)).verts v2) with
  | true => rw [last_of_lit q c lighted, lighted]
  | false => exact (last_of_unlit q c lighted).2.1

theorem painted_shading :
    Painted q c (coloured q v0 v1 v2) m.verts (lightTriangle (flatShaded q c)
      (fetchTexcoord (flatShaded q c) m v0 v1 v2) v0 v1 v2).verts := by
  have textured := same_fetchTexcoord (flatShaded q c) m v0 v1 v2
  obtain ⟨source, lighted, unlit, painted⟩ :=
    painted_light q c (fetchTexcoord (flatShaded q c) m v0 v1 v2) v0 v1 v2
  refine ⟨fun i => ?_, fun i h => ?_, fun i h => ?_,
    fun i h lighted' colours => ?_⟩
  · rw [source, (textured i).source]
  · rw [← (textured i).color]
    exact lighted i ((textured i).lit.trans h)
  · exact (unlit i h).trans (textured i).toAlike
  · have color : colorOf q c ((fetchTexcoord (flatShaded q c) m v0 v1 v2).verts i) =
        colorOf q c (m.verts i) := by
      unfold colorOf
      rw [(textured i).obj, (textured i).index]
    rw [← color]
    exact painted i ((textured i).lit.trans h) lighted' colours

end Primitive

def Clipped (v w : Vertex) : Prop :=
  v = w ∨ isLit v = true ∧ v.color = w.color ∧ v.source = w.source

theorem Clipped.trans {u v w : Vertex} (h : Clipped u v) (h' : Clipped v w) : Clipped u w := by
  rcases h with rfl | ⟨lighted, color, source⟩
  · exact h'
  · rcases h' with rfl | ⟨_, color', source'⟩
    · exact .inr ⟨lighted, color, source⟩
    · exact .inr ⟨lighted, color.trans color', source.trans source'⟩

theorem isLit_clipped (v : Vertex) (f : Flags)
    (h : v.flags = (f ||| (lit ||| eye ||| tt)) &&& ~~~clipAll) : isLit v = true := by
  have bit : lit &&& v.flags = lit := by
    have marks : lit &&& (lit ||| eye ||| tt) = lit := by decide
    have inside : lit &&& ~~~clipAll = lit := by decide
    rw [h, ← BitVec.and_assoc, BitVec.and_or_distrib_left, marks]
    have absorb : lit &&& f ||| lit = lit := by
      ext i
      simp only [BitVec.getElem_and, BitVec.getElem_or]
      cases lit[i] <;> simp
    rw [absorb, inside]
  unfold isLit
  rw [BitVec.and_comm, bit]
  decide

section Clip

variable (q : Pipeline) (c : Colouring)

theorem clipped_clipAgainst (plane : Plane) (nv : Vertex) (t : Int) (s r : Vertex) :
    Clipped (clipAgainst (flatShaded q c) plane nv t s r) nv := by
  cases plane with
  | user i | frustum i => exact .inr ⟨isLit_clipped _ _ rfl, rfl, rfl⟩

theorem clipped_clipPlanes (planes : List Plane) (s r : Vertex) :
    Clipped (clipPlanes (flatShaded q c) planes s r).2.1 s ∧
      Clipped (clipPlanes (flatShaded q c) planes s r).2.2 r := by
  induction planes generalizing s r with
  | nil => exact ⟨.inl rfl, .inl rfl⟩
  | cons plane planes ih =>
    simp only [clipPlanes]
    split_ifs
    · exact ih s r
    · obtain ⟨start, stop⟩ := ih s (clipAgainst (flatShaded q c) plane r _ r s)
      exact ⟨start, stop.trans (clipped_clipAgainst q c plane r _ r s)⟩
    · obtain ⟨start, stop⟩ := ih (clipAgainst (flatShaded q c) plane s _ s r) r
      exact ⟨start.trans (clipped_clipAgainst q c plane s _ s r), stop⟩
    · exact ih s r
    · exact ⟨.inl rfl, .inl rfl⟩

theorem Painted.clip {colours : Option Nat} {v w x : Nat → Vertex}
    (h : Painted q c colours v w) (shaded : ∀ i, colours = some i → isLit (w i) = true)
    (clip : ∀ i, Clipped (x i) (w i)) : Painted q c colours v x := by
  refine ⟨fun i => ?_, fun i lighted => ?_, fun i dark => ?_, fun i dark lighted colour => ?_⟩
  · rcases clip i with same | ⟨_, _, source⟩
    · rw [same, h.source]
    · rw [source, h.source]
  · obtain ⟨still, color⟩ := h.lit i lighted
    rcases clip i with same | ⟨marked, kept, _⟩
    · rw [same]
      exact ⟨still, color⟩
    · exact ⟨marked, kept.trans color⟩
  · rcases clip i with same | ⟨marked, _⟩
    · rw [same] at dark ⊢
      exact h.unlit i dark
    · rw [marked] at dark
      exact absurd dark Bool.noConfusion
  · have color := h.painted i dark (shaded i colour) colour
    rcases clip i with same | ⟨_, kept, _⟩
    · rw [same, color]
    · exact kept.trans color

end Clip

section Steps

variable (q : Pipeline) (c : Colouring)

theorem Painted.refl (colours : Option Nat) (v : Nat → Vertex) : Painted q c colours v v :=
  ⟨fun _ => rfl, fun _ lighted => ⟨lighted, rfl⟩, fun i _ => .refl (v i), fun i dark lighted _ => by
    rw [dark] at lighted
    exact absurd lighted Bool.noConfusion⟩

theorem painted_triangle (m : Machine) (v0 v1 v2 : Nat) :
    Painted q c (coloured q v0 v1 v2) m.verts (renderTriangle (flatShaded q c) m v0 v1 v2).verts := by
  have shaded := painted_shading q c
    { m with calls := m.calls ++ [.triangle (m.verts v0) (m.verts v1) (m.verts v2)] } v0 v1 v2
  simp only [renderTriangle, primitiveClipTriangle]
  split_ifs
  · exact .refl q c _ _
  · exact shaded

theorem coloured_eq {v0 v1 v2 i : Nat} (h : coloured q v0 v1 v2 = some i) : v2 = i := by
  unfold coloured at h
  split_ifs at h
  exact Option.some_inj.mp h

theorem painted_line (m : Machine) (v0 v1 : Nat) :
    Painted q c (coloured q v0 v1 v1) m.verts (renderLine (flatShaded q c) m v0 v1).verts := by
  have shaded := painted_shading q c
    { m with calls := m.calls ++ [.line (m.verts v0) (m.verts v1)] } v0 v1 v1
  simp only [renderLine, primitiveLine]
  set r := lightTriangle (flatShaded q c) (fetchTexcoord (flatShaded q c)
    { m with calls := m.calls ++ [.line (m.verts v0) (m.verts v1)] } v0 v1 v1) v0 v1 v1 with hr
  have clipped : Painted q c (coloured q v0 v1 v1) m.verts
      ((r.set v0 (clipLine (flatShaded q c) (r.verts v0) (r.verts v1)).2.1).set v1
        (clipLine (flatShaded q c) (r.verts v0) (r.verts v1)).2.2).verts := by
    obtain ⟨start, stop⟩ := clipped_clipPlanes q c
      (clippingPlanes (r.verts v0) (r.verts v1)) (r.verts v0) (r.verts v1)
    refine shaded.clip q c (fun i h => ?_) fun i => ?_
    · obtain rfl := coloured_eq q h
      exact lit_lightTriangle q c _ v0 v1 v1
    · rw [Machine.set_verts, Machine.set_verts]
      split_ifs with second first
      · subst second
        exact stop
      · subst first
        exact start
      · exact .inl rfl
  split_ifs
  · exact clipped
  · exact clipped
  · exact shaded

theorem lightPoint_of_lit {v : Vertex} (lighted : isLit v = true) :
    lightPoint (flatShaded q c) v = v :=
  if_pos ((isLit_iff v).mp lighted)

theorem lightPoint_of_unlit {v : Vertex} (dark : isLit v = false) :
    (lightPoint (flatShaded q c) v).source = v.source ∧
      isLit (lightPoint (flatShaded q c) v) = true ∧
      (lightPoint (flatShaded q c) v).color = colorOf q c v := by
  have flag : ¬v.flags &&& lit ≠ 0 := by
    rw [← isLit_iff, dark]
    exact Bool.false_ne_true
  unfold lightPoint flatShaded colorOf
  cases q.fogging <;> cases q.lighting <;>
    simp only [lightVertex, if_neg flag, Bool.false_eq_true, if_false, if_true, and_true,
      true_and]
  all_goals exact isLit_or v

theorem painted_point (m : Machine) (v : Nat) :
    Painted q c (some v) m.verts (renderPoint (flatShaded q c) m v).verts := by
  set r := shade { m with calls := m.calls ++ [.point (m.verts v)] } v (lightPoint (flatShaded q c))
    with hr
  have result (i : Nat) : r.verts i =
      if i = v then lightPoint (flatShaded q c) (m.verts i) else m.verts i :=
    shade_verts _ v i _
  have lighted : Painted q c (some v) m.verts r.verts := by
    refine ⟨fun i => ?_, fun i h => ?_, fun i h => ?_, fun i h _ colours => ?_⟩
    · rw [result]
      split_ifs
      · cases light : isLit (m.verts i) with
        | true => rw [lightPoint_of_lit q c light]
        | false => exact (lightPoint_of_unlit q c light).1
      · rfl
    · rw [result, lightPoint_of_lit q c h, ite_self]
      exact ⟨h, rfl⟩
    · rw [result] at h ⊢
      split_ifs at h ⊢
      · cases light : isLit (m.verts i) with
        | true =>
          rw [lightPoint_of_lit q c light]
          exact .refl _
        | false =>
          rw [(lightPoint_of_unlit q c light).2.1] at h
          exact absurd h Bool.noConfusion
      · exact .refl _
    · rw [result, if_pos (Option.some_inj.mp colours).symm]
      exact (lightPoint_of_unlit q c h).2.2
  have textured (i : Nat) := same_fetchTexcoord (flatShaded q c) r v v v i
  simp only [renderPoint, primitivePoint, ← hr]
  split_ifs
  · refine ⟨fun i => ?_, fun i h => ?_, fun i h => ?_, fun i h h' colours => ?_⟩
    · rw [(textured i).source, lighted.source]
    · rw [(textured i).lit, (textured i).color]
      exact lighted.lit i h
    · exact (textured i).toAlike.trans (lighted.unlit i ((textured i).lit.symm.trans h))
    · rw [(textured i).color]
      exact lighted.painted i h ((textured i).lit.symm.trans h') colours
  · exact lighted

end Steps

section Run

variable (q : Pipeline) (c : Colouring)

structure OwnEntry (v : Vertex) : Prop where
  unlit : isLit v = false → elementOf v.index = v.source.element ∧
    v.obj = ((flatShaded q c).compiled v.source.element v.source.element).obj
  lit : isLit v = true → v.color = ownColor (flatShaded q c) v.source.element

def Inv (t : Tracked) : Prop :=
  ∀ slot, t.own slot = true → OwnEntry q c (t.machine.verts slot)

theorem isLit_compileVertex (p : Pipeline) (v : Vertex) (element : Nat) (index : Int)
    (draw : Nat) : isLit (p.compileVertex v element index draw).2 = false := by
  unfold isLit
  rw [p.compileVertex_lit]
  decide

theorem OwnEntry.colorOf {v : Vertex} (h : OwnEntry q c v) (dark : isLit v = false) :
    colorOf q c v = ownColor (flatShaded q c) v.source.element := by
  obtain ⟨element, obj⟩ := h.unlit dark
  set e := v.source.element
  have alone := last_of_unlit q c (isLit_compileVertex (flatShaded q c) .zero e e 0)
  have range : elementOf (e : Int) = e := by
    rw [← element]
    unfold elementOf
    omega
  change FlatShading.colorOf q c v = (last q c ((flatShaded q c).compiled e e)).color
  rw [Pipeline.compiled, alone.2.2]
  unfold FlatShading.colorOf
  rw [element, obj, Pipeline.compileVertex_index, range]
  rfl

theorem OwnEntry.painted {colours : Option Nat} {v w : Nat → Vertex} {i : Nat}
    (h : OwnEntry q c (v i)) (step : Painted q c colours v w)
    (kept : isLit (v i) = true ∨ isLit (w i) = false ∨ colours = some i) :
    OwnEntry q c (w i) := by
  have source := step.source i
  cases lighted : isLit (v i) with
  | true =>
    obtain ⟨still, color⟩ := step.lit i lighted
    refine ⟨fun dark => absurd (still.symm.trans dark) Bool.noConfusion, fun _ => ?_⟩
    rw [color, source]
    exact h.lit lighted
  | false =>
    refine ⟨fun dark => ?_, fun light => ?_⟩
    · have same := step.unlit i dark
      rw [same.index, same.obj, source]
      exact h.unlit lighted
    · have colour : colours = some i := by
        rcases kept with before | after | colour
        · exact absurd (lighted.symm.trans before) Bool.noConfusion
        · exact absurd (light.symm.trans after) Bool.noConfusion
        · exact colour
      rw [step.painted i lighted light colour, source]
      exact h.colorOf q c lighted

variable {t : Tracked}

theorem inv_giveUp {r : Machine} {colours : Option Nat} (h : Inv q c t)
    (step : Painted q c colours t.machine.verts r.verts) :
    Inv q c ⟨r, giveUp t.own t.machine r colours⟩ := by
  intro slot own
  simp only [giveUp, Bool.and_eq_true, Bool.or_eq_true, Bool.not_eq_true', decide_eq_true_eq]
    at own
  refine (h slot own.1).painted q c step ?_
  rcases own.2 with (lit | dark) | colour
  · exact .inl lit
  · exact .inr (.inl dark)
  · exact .inr (.inr colour)

theorem inv_of_same {r : Machine} (h : Inv q c t) (same : ∀ i, Same (r.verts i) (t.machine.verts i)) :
    Inv q c ⟨r, t.own⟩ := by
  intro slot own
  obtain ⟨⟨obj, index, source⟩, color, lit⟩ := same slot
  have entry := h slot own
  change OwnEntry q c (r.verts slot)
  exact ⟨fun dark => by rw [index, obj, source]; exact entry.unlit (lit.symm.trans dark),
    fun light => by rw [color, source]; exact entry.lit (lit.symm.trans light)⟩

theorem inv_track {s : Step} (h : Inv q c t) (ok : Ok (flatShaded q c) t s) :
    Inv q c (track (flatShaded q c) t s) := by
  have relocked (slot i : Nat) (locked : Bool) : Same ((t.machine.set slot
      { t.machine.verts slot with locked := locked }).verts i) (t.machine.verts i) := by
    rw [verts_relock]
    exact ⟨⟨rfl, rfl, rfl⟩, rfl, rfl⟩
  cases s with
  | compile slot element index =>
    have index_eq := ok.1 slot element index rfl
    refine owned_compile (P := OwnEntry q c) h ?_
    rw [compileAt_same]
    refine ⟨fun _ => ?_, fun light => ?_⟩
    · rw [Pipeline.compileVertex_index, Pipeline.compileVertex_source, Pipeline.compileVertex_obj,
        Pipeline.compiled, Pipeline.compileVertex_obj]
      exact ⟨index_eq, rfl⟩
    · rw [isLit_compileVertex] at light
      exact absurd light Bool.noConfusion
  | copy dst src => exact owned_copy (P := OwnEntry q c) h dst src
  | lock slot => exact inv_of_same q c h fun i => relocked slot i true
  | unlock slot => exact inv_of_same q c h fun i => relocked slot i false
  | cull mask | hit found => exact inv_of_same q c h fun i => .refl _
  | point v => exact inv_giveUp q c h (painted_point q c t.machine v)
  | line v0 v1 => exact inv_giveUp q c h (painted_line q c t.machine v0 v1)
  | triangle v0 v1 v2 => exact inv_giveUp q c h (painted_triangle q c t.machine v0 v1 v2)

theorem right_of_ok {s : Step} (h : Inv q c t) (ok : Ok (flatShaded q c) t s) :
    Right (flatShaded q c) t.machine s := by
  intro draws v0 v1 v2 shape
  obtain ⟨own, colours⟩ := ok.2 draws v0 v1 v2 shape
  have shaded := painted_shading q c t.machine v0 v1 v2
  have entry := h v2 own
  change ((lightTriangle _ _ v0 v1 v2).verts v2).color = _
  cases lighted : isLit (t.machine.verts v2) with
  | true => rw [(shaded.lit v2 lighted).2, entry.lit lighted]
  | false =>
    have colour : coloured q v0 v1 v2 = some v2 :=
      colours.resolve_left fun light => absurd (lighted.symm.trans light) Bool.noConfusion
    rw [shaded.painted v2 lighted (lit_lightTriangle q c _ v0 v1 v2) colour]
    exact entry.colorOf q c lighted

def begin (m : Machine) : Tracked := ⟨m, fun _ => false⟩

theorem machine_run (p : Pipeline) (t : Tracked) (steps : List Step) :
    (run (track p) t steps).machine = run (step p) t.machine steps := by
  induction steps generalizing t with
  | nil => rfl
  | cons s steps ih => exact ih (track p t s)

end Run

private abbrev scene (fogging : Bool) : Pipeline :=
  { Pipeline.flat fun _ => ⟨0, 0, 0, 0⟩ with fogging := fogging }

private abbrev green : Colouring := ⟨fun _ => ⟨0, 0x10000, 0, 0x10000⟩, fun _ _ => ⟨0, 0, 0, 0⟩⟩

private abbrev oneLine : List Step := [.cull clipAll, .compile 0 0 0, .compile 1 1 1, .line 0 1]

instance (p : Pipeline) (t : Tracked) (v0 v1 v2 : Nat) : Decidable (Provoking p t v0 v1 v2) :=
  inferInstanceAs (Decidable (_ ∧ _))

theorem run_oneLine (p : Pipeline) (m : Machine)
    (kept : (compileElements p { m with cull := clipAll } 0 0 2).cull = 0)
    (inside : ((compileElements p { m with cull := clipAll } 0 0 2).verts 0).flags &&&
      ((compileElements p { m with cull := clipAll } 0 0 2).verts 1).flags &&& clipAll = 0) :
    run (step p) m oneLine = drawArraysPrims p .lines m 0 2 := by
  change _ = drawPrimitivesLines p m 0 2
  rw [drawPrimitivesLines, if_neg (by decide), batches_step (by decide) (by decide) (by decide),
    batches_stop (by decide)]
  change _ = if (compileElements p { m with cull := clipAll } 0 0 2).cull = 0 then
    linesRun p 2 (compileElements p { m with cull := clipAll } 0 0 2) 0 else _
  rw [if_pos kept, linesRun, linesRun]
  · rw [if_pos inside]
    rfl
  · simp

end RabbitRender.Arrays.FlatShading
