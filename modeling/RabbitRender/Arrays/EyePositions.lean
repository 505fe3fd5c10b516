/- RabbitRender/Arrays/EyePositions
   layer: result
   source: swrender/vertex.cpp, swrender/light.cpp, swrender/primitives.cpp, include/gl_context.h
   digest: What the field that object and eye coordinates share holds when eye coordinates are read. -/

import RabbitRender.Arrays.Steps
import RabbitRender.Lighting.Lights

set_option autoImplicit false

namespace RabbitRender.Arrays.EyePositions

open Fixed (clipDivide)
open Vertices
open Lighting.Lights (Light vss3)
open Arrays.Compile Arrays.Draw Arrays.Steps Primitives Lib.GuardedRun

/-- The enabled lights, and what `lightVertex` makes of the vectors from a vertex to them and of
the normal and the colour of its element. -/
structure Lamps where
  enabled : List Light
  equation : List Vec4 → Nat → Vec4

/-- The vector from a vertex to a light; a light at infinity has one for all vertices. -/
def toLight (l : Light) (v : Vec4) : Vec4 :=
  if l.position.w ≠ 0 then vss3 ⟨0, 0, 0, 0⟩ l.objPosition v.w v else l.normalizedObjPosition

def Lamps.positional (l : Lamps) : Bool := l.enabled.any fun light => light.position.w ≠ 0

def Lamps.color (l : Lamps) (v : Vertex) : Vec4 :=
  l.equation (l.enabled.map (toLight · v.obj)) (elementOf v.index)

def lighted (p : Pipeline) (l : Lamps) : Pipeline := { p with lightColor := l.color }

theorem color_unread {l : Lamps} (distant : l.positional = false) (v : Vertex) (o : Vec4) :
    l.color { v with obj := o } = l.color v := by
  have vectors : l.enabled.map (toLight · o) = l.enabled.map (toLight · v.obj) := by
    refine List.map_congr_left fun light member => ?_
    have infinite : ¬light.position.w ≠ 0 := fun near => by
      have := List.any_eq_false.mp distant light member
      exact this (decide_eq_true near)
    simp only [toLight, if_neg infinite]
  simp only [Lamps.color, vectors]

structure Read where
  vector : Vec4
  eye : Vec4
deriving DecidableEq, Repr

def Read.Right (r : Read) : Prop := r.vector = r.eye

instance (r : Read) : Decidable r.Right := inferInstanceAs (Decidable (_ = _))

section Reads

variable (p : Pipeline) (l : Lamps)

def entry (m : Machine) (i : Nat) : Read :=
  ⟨(m.verts i).obj, p.eyePosition (m.verts i).source.element⟩

/-- One plane of `clipAllPerspective` for each user plane that is enabled. -/
def compileReads (m : Machine) (slot element : Nat) : List Read :=
  let obj := p.fetch element { (m.verts slot).obj with z := 0, w := 0x10000 }
  if p.computesEye then
    ([5, 4, 3, 2, 1, 0].filter p.clipEnable).map fun _ =>
      ⟨point p.modelview p.components obj, p.eyePosition element⟩
  else []

def neverReads (_ : Vertex) : Bool := false

def fogReads (v : Vertex) : Bool := v.flags &&& lit = 0

def lightReads (v : Vertex) : Bool := v.flags &&& lit = 0 && l.positional

/-- Whether the functions of `lightPrimitive` read the eye coordinates of their vertex. -/
def lightPrimitiveReads : (Vertex → Bool) × (Vertex → Bool) × (Vertex → Bool) :=
  match p.fogging, p.lighting, p.smooth with
  | false, false, _ => (neverReads, neverReads, neverReads)
  | false, true, false => (neverReads, neverReads, lightReads l)
  | false, true, true => (lightReads l, lightReads l, lightReads l)
  | true, _, _ => (fogReads, fogReads, fogReads)

def lightPointReads (v : Vertex) : Bool :=
  v.flags &&& lit = 0 && (p.lighting && l.positional || p.fogging)

/-- The entries whose eye coordinates `lightTriangle` reads. -/
def shadingUses (m : Machine) (v0 v1 v2 : Nat) : List Nat :=
  let (f0, f1, _) := lightPrimitive p
  let (r0, r1, r2) := lightPrimitiveReads p l
  let m0 := fetchTexcoord p m v0 v1 v2
  let m1 := shade m0 v0 f0
  let m2 := shade m1 v1 f1
  (if r0 (m0.verts v0) then [v0] else []) ++ (if r1 (m1.verts v1) then [v1] else []) ++
    (if r2 (m2.verts v2) then [v2] else [])

/-- The machine after shading, as `clip_line` and `clip_triangle` find it. -/
def shaded (m : Machine) (v0 v1 v2 : Nat) : Machine :=
  lightTriangle p (fetchTexcoord p m v0 v1 v2) v0 v1 v2

def movedEye (plane : Plane) (t : Int) (s q : Vec4) : Vec4 :=
  match plane with
  | .user _ => clipVec4 t s q
  | .frustum _ => s

/-- The reads of the loops of `clip_line`; `es` and `eq` are the eye coordinates of the ends. -/
def lineReads : List Plane → Vertex → Vertex → Vec4 → Vec4 → List Read
  | [], _, _, _, _ => []
  | plane :: planes, s, q, es, eq =>
    let sd := distance p plane s
    let qd := distance p plane q
    let here : List Read := match plane with
      | .user _ => [⟨s.obj, es⟩, ⟨q.obj, eq⟩]
      | .frustum _ => []
    here ++
      if sd ≥ 0 then
        if qd ≥ 0 then lineReads planes s q es eq
        else
          let t := clipDivide sd (sd - qd)
          lineReads planes s (clipAgainst p plane q t q s) es (movedEye plane t eq es)
      else if qd ≥ 0 then
        if qd ≠ 0 then
          let t := clipDivide qd (qd - sd)
          lineReads planes (clipAgainst p plane s t s q) q (movedEye plane t es eq) eq
        else lineReads planes s q es eq
      else []

/-- `clipEye` on the corners of a polygon, of which user planes look at nothing else. -/
def clipCorner (t : Int) (s q : Read) : Read :=
  ⟨clipVec4 t s.vector q.vector, clipVec4 t s.eye q.eye⟩

/-- The loop of `clip_triangle` over the corners, after corner `s`: what it reads, and the output
list; a third new corner ends it. -/
def clipCorners (plane : Vec4) : Read → List Read → Nat → List Read × Option (List Read)
  | _, [], _ => ([], some [])
  | s, q :: corners, sentinel =>
    let sd := dot4 plane s.vector
    let qd := dot4 plane q.vector
    let next (new : List Read) (sentinel : Nat) : List Read × Option (List Read) :=
      let r := clipCorners plane q corners sentinel
      (q :: r.1, r.2.map (new ++ ·))
    if sd ≥ 0 then
      if qd ≥ 0 then next [q] sentinel
      else if sentinel + 1 ≥ 3 then ([q], none)
      else next [clipCorner (clipDivide sd (sd - qd)) q s] (sentinel + 1)
    else if qd ≥ 0 then
      if qd ≠ 0 then
        if sentinel + 1 ≥ 3 then ([q], none)
        else next [clipCorner (clipDivide qd (qd - sd)) s q, q] (sentinel + 1)
      else next [q] sentinel
    else next [] sentinel

/-- The user planes of `clip_triangle`, on a polygon. -/
def polygonReads : List Nat → List Read → List Read
  | [], _ => []
  | i :: planes, corners =>
    match corners.getLast? with
    | none => []
    | some s =>
      let r := clipCorners (p.clipPlane i) s corners 0
      s :: r.1 ++ match r.2 with
        | none => []
        | some corners => if corners.length < 3 then [] else polygonReads planes corners

def userPlanes (flags : Flags) : List Nat :=
  (List.range 6).filter fun i => flags &&& clipAll &&& 0x100 <<< i ≠ 0

def culled (m : Machine) (v0 v1 v2 : Nat) : Bool :=
  ((m.verts v0).flags ||| (m.verts v1).flags ||| (m.verts v2).flags) &&& clipAll = 0 &&
    cullTriangle p (m.verts v0) (m.verts v1) (m.verts v2)

def uses (m : Machine) : Step → List Nat
  | .point v => if lightPointReads p l (m.verts v) then [v] else []
  | .line v0 v1 =>
    let r := shaded p m v0 v1 v1
    shadingUses p l m v0 v1 v1 ++
      (if (clippingPlanes (r.verts v0) (r.verts v1)).any (· matches .user _) then [v0, v1] else [])
  | .triangle v0 v1 v2 =>
    let r := shaded p m v0 v1 v2
    let flags := (r.verts v0).flags ||| (r.verts v1).flags ||| (r.verts v2).flags
    if culled p m v0 v1 v2 then []
    else shadingUses p l m v0 v1 v2 ++ (if userPlanes flags = [] then [] else [v0, v1, v2])
  | _ => []

def reads (m : Machine) : Step → List Read
  | .compile slot element _ => compileReads p m slot element
  | .point v => if lightPointReads p l (m.verts v) then [entry p m v] else []
  | .line v0 v1 =>
    let r := shaded p m v0 v1 v1
    (shadingUses p l m v0 v1 v1).map (entry p m) ++
      lineReads p (clippingPlanes (r.verts v0) (r.verts v1)) (r.verts v0) (r.verts v1)
        (entry p r v0).eye (entry p r v1).eye
  | .triangle v0 v1 v2 =>
    let r := shaded p m v0 v1 v2
    let flags := (r.verts v0).flags ||| (r.verts v1).flags ||| (r.verts v2).flags
    if culled p m v0 v1 v2 then []
    else (shadingUses p l m v0 v1 v2).map (entry p m) ++
      polygonReads p (userPlanes flags) [entry p r v0, entry p r v1, entry p r v2]
  | _ => []

def Right (m : Machine) (s : Step) : Prop := ∀ r ∈ reads p l m s, r.Right

instance (m : Machine) (s : Step) : Decidable (Right p l m s) :=
  inferInstanceAs (Decidable (∀ r ∈ reads p l m s, r.Right))

end Reads

section Right

variable (p : Pipeline) (l : Lamps)

theorem fetch_objectPosition (element : Nat) (v : Vec4) :
    p.fetch element { v with z := 0, w := 0x10000 } = p.objectPosition element := by
  unfold Pipeline.objectPosition Pipeline.fetch
  cases p.fetched <;> rfl

theorem compileReads_right (m : Machine) (slot element : Nat) :
    ∀ r ∈ compileReads p m slot element, r.Right := by
  intro r member
  unfold compileReads at member
  split_ifs at member
  · obtain ⟨_, _, rfl⟩ := List.mem_map.mp member
    exact congrArg (point p.modelview p.components) (fetch_objectPosition p element _)
  · exact absurd member List.not_mem_nil

theorem clipAgainst_obj (plane : Plane) (t : Int) (s q : Vertex) :
    (clipAgainst p plane s t s q).obj = movedEye plane t s.obj q.obj := by
  cases plane <;> rfl

theorem lineReads_right (planes : List Plane) {s q : Vertex} {es eq : Vec4} (hs : s.obj = es)
    (hq : q.obj = eq) : ∀ r ∈ lineReads p planes s q es eq, r.Right := by
  induction planes generalizing s q es eq with
  | nil => exact fun r member => absurd member List.not_mem_nil
  | cons plane planes ih =>
    intro r member
    simp only [lineReads] at member
    rcases List.mem_append.mp member with here | later
    · cases plane with
      | user i =>
        rcases List.mem_cons.mp here with rfl | second
        · exact hs
        · rw [List.mem_singleton.mp second]
          exact hq
      | frustum i => exact absurd here List.not_mem_nil
    · split_ifs at later
      · exact ih hs hq r later
      · refine ih hs ?_ r later
        rw [clipAgainst_obj, hs, hq]
      · refine ih ?_ hq r later
        rw [clipAgainst_obj, hs, hq]
      · exact ih hs hq r later
      · exact absurd later List.not_mem_nil

theorem clipCorner_right {s q : Read} (hs : s.Right) (hq : q.Right) (t : Int) :
    (clipCorner t s q).Right := by
  unfold Read.Right at *
  simp only [clipCorner, hs, hq]

theorem clipCorners_right (plane : Vec4) {s : Read} {corners : List Read} (sentinel : Nat)
    (hs : s.Right) (hcorners : ∀ r ∈ corners, r.Right) :
    (∀ r ∈ (clipCorners plane s corners sentinel).1, r.Right) ∧
      ∀ output, (clipCorners plane s corners sentinel).2 = some output →
        ∀ r ∈ output, r.Right := by
  induction corners generalizing s sentinel with
  | nil =>
    refine ⟨fun r member => absurd member List.not_mem_nil, fun output h r member => ?_⟩
    rw [← Option.some_inj.mp h] at member
    exact absurd member List.not_mem_nil
  | cons q corners ih =>
    have hq : q.Right := hcorners q List.mem_cons_self
    have rest : ∀ r ∈ corners, r.Right := fun r member => hcorners r (List.mem_cons_of_mem q member)
    have stop : (∀ r ∈ [q], r.Right) ∧ ∀ output : List Read, False → ∀ r ∈ output, r.Right :=
      ⟨fun r member => List.mem_singleton.mp member ▸ hq, fun _ h => h.elim⟩
    have next (new : List Read) (sentinel : Nat) (hnew : ∀ r ∈ new, r.Right) :
        let c := clipCorners plane q corners sentinel
        (∀ r ∈ q :: c.1, r.Right) ∧
          ∀ output, c.2.map (new ++ ·) = some output → ∀ r ∈ output, r.Right := by
      obtain ⟨reads, outputs⟩ := ih sentinel hq rest
      refine ⟨fun r member => ?_, fun output h r member => ?_⟩
      · rcases List.mem_cons.mp member with rfl | later
        · exact hq
        · exact reads r later
      · obtain ⟨tail, some, rfl⟩ := Option.map_eq_some_iff.mp h
        rcases List.mem_append.mp member with first | later
        · exact hnew r first
        · exact outputs tail some r later
    simp only [clipCorners]
    split_ifs
    · exact next [q] sentinel fun r member => List.mem_singleton.mp member ▸ hq
    · exact stop
    · refine next _ _ fun r member => ?_
      rw [List.mem_singleton.mp member]
      exact clipCorner_right hq hs _
    · exact stop
    · refine next _ _ fun r member => ?_
      rcases List.mem_cons.mp member with rfl | later
      · exact clipCorner_right hs hq _
      · exact List.mem_singleton.mp later ▸ hq
    · exact next [q] sentinel fun r member => List.mem_singleton.mp member ▸ hq
    · exact next [] sentinel fun r member => absurd member List.not_mem_nil

theorem polygonReads_right (planes : List Nat) {corners : List Read}
    (hcorners : ∀ r ∈ corners, r.Right) : ∀ r ∈ polygonReads p planes corners, r.Right := by
  induction planes generalizing corners with
  | nil => exact fun r member => absurd member List.not_mem_nil
  | cons i planes ih =>
    intro r member
    unfold polygonReads at member
    split at member
    · exact absurd member List.not_mem_nil
    · rename_i s last
      have hs : s.Right := hcorners s (List.mem_of_getLast? last)
      obtain ⟨reads, outputs⟩ := clipCorners_right (p.clipPlane i) 0 hs hcorners
      rcases List.mem_cons.mp member with rfl | member
      · exact hs
      rcases List.mem_append.mp member with here | later
      · exact reads r here
      · split at later
        · exact absurd later List.not_mem_nil
        · rename_i output some
          split_ifs at later
          · exact absurd later List.not_mem_nil
          · exact ih (outputs output some) r later

theorem entry_shaded {m r : Machine} (h : Shaded m r) (i : Nat) : entry p r i = entry p m i := by
  unfold entry
  rw [(h.verts i).obj, (h.verts i).source]

theorem shaded_shaded (m : Machine) (v0 v1 v2 : Nat) : Shaded m (shaded p m v0 v1 v2) :=
  (shaded_fetchTexcoord p m v0 v1 v2).trans (shaded_lightTriangle p _ v0 v1 v2)

theorem lineReads_nil {planes : List Plane} (none : planes.any (· matches .user _) = false)
    (s q : Vertex) (es eq : Vec4) : lineReads p planes s q es eq = [] := by
  induction planes generalizing s q es eq with
  | nil => rfl
  | cons plane planes ih =>
    rw [List.any_cons, Bool.or_eq_false_iff] at none
    cases plane with
    | user i => exact absurd none.1 Bool.noConfusion
    | frustum i =>
      have later := ih none.2
      simp only [lineReads, List.nil_append, later, ite_self]

theorem right_of_uses {m : Machine} {s : Step} (h : ∀ i ∈ uses p l m s, (entry p m i).Right) :
    Right p l m s := by
  intro r member
  cases s with
  | compile slot element index => exact compileReads_right p m slot element r member
  | point v =>
    simp only [uses, reads] at h member
    split_ifs at h member
    · rw [List.mem_singleton.mp member]
      exact h v List.mem_cons_self
    · exact absurd member List.not_mem_nil
  | line v0 v1 =>
    simp only [uses, reads] at h member
    rcases List.mem_append.mp member with shading | clipping
    · obtain ⟨i, used, rfl⟩ := List.mem_map.mp shading
      exact h i (List.mem_append_left _ used)
    · cases user : (clippingPlanes ((shaded p m v0 v1 v1).verts v0)
          ((shaded p m v0 v1 v1).verts v1)).any (· matches .user _) with
      | false =>
        rw [lineReads_nil p user] at clipping
        exact absurd clipping List.not_mem_nil
      | true =>
        rw [user, if_pos rfl] at h
        have here (i : Nat) (hi : i ∈ [v0, v1]) : (entry p (shaded p m v0 v1 v1) i).Right := by
          rw [entry_shaded p (shaded_shaded p m v0 v1 v1)]
          exact h i (List.mem_append_right _ hi)
        exact lineReads_right p _ (here v0 (by simp)) (here v1 (by simp)) r clipping
  | triangle v0 v1 v2 =>
    simp only [uses, reads] at h member
    split_ifs at h member with cull none
    · exact absurd member List.not_mem_nil
    · rcases List.mem_append.mp member with shading | clipping
      · obtain ⟨i, used, rfl⟩ := List.mem_map.mp shading
        exact h i (List.mem_append_left _ used)
      · rw [none] at clipping
        exact absurd clipping List.not_mem_nil
    · rcases List.mem_append.mp member with shading | clipping
      · obtain ⟨i, used, rfl⟩ := List.mem_map.mp shading
        exact h i (List.mem_append_left _ used)
      · refine polygonReads_right p _ (fun c corner => ?_) r clipping
        have here (i : Nat) (hi : i ∈ [v0, v1, v2]) :
            (entry p (shaded p m v0 v1 v2) i).Right := by
          rw [entry_shaded p (shaded_shaded p m v0 v1 v2)]
          exact h i (List.mem_append_right _ hi)
        simp only [List.mem_cons, List.not_mem_nil, or_false] at corner
        rcases corner with rfl | rfl | rfl
        · exact here v0 (by simp)
        · exact here v1 (by simp)
        · exact here v2 (by simp)
  | copy | lock | unlock | cull | hit => exact absurd member List.not_mem_nil

end Right

/-- The vertices of the element hold their eye coordinates, computed or equal to what they hold. -/
def EyeHeld (p : Pipeline) (element : Nat) : Prop :=
  p.computesEye = true ∨ p.eyePosition element = p.objectPosition element

instance (p : Pipeline) (element : Nat) : Decidable (EyeHeld p element) :=
  inferInstanceAs (Decidable (_ ∨ _))

/-- The machine, and the entries that this draw call compiled and no user plane has moved. -/
structure Tracked where
  machine : Machine
  own : Nat → Bool

def track (p : Pipeline) (t : Tracked) (s : Step) : Tracked where
  machine := step p t.machine s
  own := match s with
    | .compile slot _ _ => Function.update t.own slot true
    | .copy dst src => Function.update t.own dst (t.own src)
    | _ => fun i => t.own i && ((step p t.machine s).verts i).obj = (t.machine.verts i).obj

def Ok (p : Pipeline) (l : Lamps) (t : Tracked) (s : Step) : Prop :=
  ∀ i ∈ uses p l t.machine s, t.own i = true ∧ EyeHeld p (t.machine.verts i).source.element

instance (p : Pipeline) (l : Lamps) (t : Tracked) (s : Step) : Decidable (Ok p l t s) :=
  inferInstanceAs (Decidable (∀ i ∈ uses p l t.machine s, _))

section Run

variable (p : Pipeline) (l : Lamps)

/-- What `arrays.perspective` leaves in the field. -/
def Holds (v : Vertex) : Prop := v.obj =
  if p.computesEye then p.eyePosition v.source.element else p.objectPosition v.source.element

def Inv (t : Tracked) : Prop := ∀ i, t.own i = true → Holds p (t.machine.verts i)

theorem entry_compileAt_right_iff (m : Machine) (slot element : Nat) (index : Int) :
    (entry p (compileAt p m slot element index) slot).Right ↔ EyeHeld p element := by
  unfold Read.Right entry EyeHeld
  rw [compileAt_same, Pipeline.compileVertex_source, Pipeline.compileVertex_obj]
  cases p.computesEye with
  | true => simp
  | false => simp [eq_comm]

variable {t : Tracked}

theorem entry_right {i : Nat} (h : Inv p t) (own : t.own i = true)
    (held : EyeHeld p (t.machine.verts i).source.element) : (entry p t.machine i).Right := by
  have holds := h i own
  unfold Read.Right entry
  rw [holds]
  split_ifs with computes
  · rfl
  · exact (held.resolve_left computes).symm

theorem clipPlanes_source (planes : List Plane) (s q : Vertex) :
    (clipPlanes p planes s q).2.1.source = s.source ∧
      (clipPlanes p planes s q).2.2.source = q.source := by
  have moved (plane : Plane) (nv : Vertex) (t : Int) (v w : Vertex) :
      (clipAgainst p plane nv t v w).source = nv.source := by
    cases plane <;> rfl
  induction planes generalizing s q with
  | nil => exact ⟨rfl, rfl⟩
  | cons plane planes ih =>
    simp only [clipPlanes]
    split_ifs
    · exact ih s q
    · exact ⟨(ih s _).1, (ih s _).2.trans (moved plane q _ q s)⟩
    · exact ⟨(ih _ q).1.trans (moved plane s _ s q), (ih _ q).2⟩
    · exact ih s q
    · exact ⟨rfl, rfl⟩

theorem source_renderLine (m : Machine) (v0 v1 i : Nat) :
    ((renderLine p m v0 v1).verts i).source = (m.verts i).source := by
  have shading := shaded_shaded p
    { m with calls := m.calls ++ [.line (m.verts v0) (m.verts v1)] } v0 v1 v1
  simp only [renderLine, primitiveLine]
  set r := lightTriangle p (fetchTexcoord p
    { m with calls := m.calls ++ [.line (m.verts v0) (m.verts v1)] } v0 v1 v1) v0 v1 v1
  have clipped : (((r.set v0 (clipLine p (r.verts v0) (r.verts v1)).2.1).set v1
      (clipLine p (r.verts v0) (r.verts v1)).2.2).verts i).source = (m.verts i).source := by
    obtain ⟨start, stop⟩ := clipPlanes_source p (clippingPlanes (r.verts v0) (r.verts v1))
      (r.verts v0) (r.verts v1)
    rw [Machine.set_verts, Machine.set_verts]
    split_ifs with second first
    · subst second
      exact stop.trans (shading.verts i).source
    · subst first
      exact start.trans (shading.verts i).source
    · exact (shading.verts i).source
  split_ifs
  · exact clipped
  · exact clipped
  · exact (shading.verts i).source

theorem inv_of_source {r : Machine} (h : Inv p t)
    (source : ∀ i, (r.verts i).source = (t.machine.verts i).source) :
    Inv p ⟨r, fun i => t.own i && (r.verts i).obj = (t.machine.verts i).obj⟩ := by
  intro i own
  simp only [Bool.and_eq_true, decide_eq_true_eq] at own
  have holds := h i own.1
  unfold Holds at *
  change (r.verts i).obj = _
  rw [own.2, source]
  exact holds

theorem inv_track (h : Inv p t) (s : Step) : Inv p (track p t s) := by
  have relocked (slot i : Nat) (locked : Bool) : ((t.machine.set slot
      { t.machine.verts slot with locked := locked }).verts i).source =
        (t.machine.verts i).source := by
    rw [verts_relock]
  cases s with
  | compile slot element index =>
    refine owned_compile (P := Holds p) h ?_
    rw [compileAt_same]
    unfold Holds
    rw [Pipeline.compileVertex_source, Pipeline.compileVertex_obj]
  | copy dst src => exact owned_copy (P := Holds p) h dst src
  | lock slot => exact inv_of_source p h fun i => relocked slot i true
  | unlock slot => exact inv_of_source p h fun i => relocked slot i false
  | cull mask => exact inv_of_source p h fun i => rfl
  | hit found => exact inv_of_source p h fun i => rfl
  | point v => exact inv_of_source p h fun i => ((shaded_renderPoint p t.machine v).verts i).source
  | line v0 v1 => exact inv_of_source p h (source_renderLine p t.machine v0 v1)
  | triangle v0 v1 v2 =>
    exact inv_of_source p h fun i => ((shaded_renderTriangle p t.machine v0 v1 v2).verts i).source

def begin (m : Machine) : Tracked := ⟨m, fun _ => false⟩

theorem machine_run (t : Tracked) (steps : List Step) :
    (run (track p) t steps).machine = run (step p) t.machine steps := by
  induction steps generalizing t with
  | nil => rfl
  | cons s steps ih => exact ih (track p t s)

theorem run_right (m : Machine) {steps pre : List Step} {s : Step}
    (guarded : Guarded (track p) (Ok p l) (begin m) steps) (hpre : pre ++ [s] <+: steps) :
    Right p l (run (step p) m pre) s := by
  have start : Inv p (begin m) := fun i own => absurd own Bool.noConfusion
  have kept (t : Tracked) (s : Step) (inv : Inv p t) (_ : Ok p l t s) : Inv p (track p t s) :=
    inv_track p inv s
  have inv : Inv p (run (track p) (begin m) pre) :=
    run_invariant_prefix kept start guarded ((List.prefix_append pre [s]).trans hpre)
  have ok := guarded.next hpre
  have right : Right p l (run (track p) (begin m) pre).machine s :=
    right_of_uses p l fun i used => entry_right p inv (ok i used).1 (ok i used).2
  rwa [machine_run] at right

end Run

structure Change where
  fogging : Bool
  fog : Int → Int
  clipEnable : Nat → Bool
  clipPlane : Nat → Vec4
  perspective : Matrix.Transforms.Perspective

def Change.apply (c : Change) (p : Pipeline) : Pipeline :=
  { p with
    fogging := c.fogging
    fog := c.fog
    clipEnable := c.clipEnable
    clipPlane := c.clipPlane
    perspective := c.perspective }

/-- The colour `lightVertex` gives a vertex of the element. -/
def lightedColor (p : Pipeline) (element : Nat) (index : Int) : Vec4 :=
  (lightVertex p (p.compiled element index)).color

section Lighting

variable (p : Pipeline) (l : Lamps)

theorem obj_of_held {element : Nat} (index : Int) (held : EyeHeld p element) :
    (p.compiled element index).obj = p.eyePosition element := by
  rw [Pipeline.compiled, Pipeline.compileVertex_obj]
  split_ifs with computes
  · rfl
  · exact (held.resolve_left computes).symm

theorem lightedColor_change (c : Change) (element : Nat) (index : Int)
    (held : l.positional = true →
      EyeHeld (lighted p l) element ∧ EyeHeld (lighted (c.apply p) l) element) :
    lightedColor (lighted (c.apply p) l) element index = lightedColor (lighted p l) element index := by
  set v := (lighted p l).compiled element index with hv
  set w := (lighted (c.apply p) l).compiled element index with hw
  have index_eq : w.index = v.index :=
    (Pipeline.compileVertex_index _ _ _ _ _).trans (Pipeline.compileVertex_index _ _ _ _ _).symm
  change l.color w = l.color v
  have positions : l.color { v with obj := w.obj } = l.color v := by
    cases near : l.positional with
    | false => exact color_unread near v w.obj
    | true =>
      obtain ⟨before, after⟩ := held near
      have same : w.obj = v.obj :=
        (obj_of_held _ index after).trans (obj_of_held _ index before).symm
      rw [same]
  rw [← positions]
  simp only [Lamps.color, index_eq]

end Lighting

private def lamp : Lamps where
  enabled := [{ Lighting.Lights.Light.init Lighting.Lights.white with
    position := ⟨0, 0, 0, 0x10000⟩, objPosition := ⟨0, 0, 0, 0x10000⟩ }]
  equation vectors _ := vectors.headD ⟨0, 0, 0, 0⟩

/-- `glTranslatex(0, 0, -0x20000)` under `glFrustumx(-1, 1, -1, 1, 1, 3)`. -/
private def away : Pipeline :=
  { Pipeline.plain false ![0x10000, 0, 0, 0, 0, 0x10000, 0, 0, 0, 0, -0x20000, -0x10000, 0, 0,
      0x10000, 0x20000] fun _ => ⟨0, 0, 0, 0⟩ with
    modelview := ⟨![0x10000, 0, 0, 0, 0, 0x10000, 0, 0, 0, 0, 0x10000, 0, 0, 0, -0x20000, 0x10000],
      false, .generic⟩
    lighting := true }

private abbrev onePoint : List Step := [.cull clipAll, .compile 0 0 0, .point 0]

theorem run_onePoint (p : Pipeline) (m : Machine)
    (kept : (compileElements p { m with cull := clipAll } 0 0 1).cull = 0)
    (inside : ((compileElements p { m with cull := clipAll } 0 0 1).verts 0).flags &&& clipAll = 0) :
    run (step p) m onePoint = drawArraysPrims p .points m 0 1 := by
  change _ = drawPrimitivesPoints p m 0 1
  rw [drawPrimitivesPoints_fit p Nat.one_pos (by decide)]
  change _ = if (compileElements p { m with cull := clipAll } 0 0 1).cull = 0 then
    pointRun p 1 (compileElements p { m with cull := clipAll } 0 0 1) 0 else _
  rw [if_pos kept, pointRun, pointRun, if_pos inside]
  rfl

end RabbitRender.Arrays.EyePositions
