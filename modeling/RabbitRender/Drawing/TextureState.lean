/- RabbitRender/Drawing/TextureState
   layer: proof
   source: swrender/texture.cpp, swrender/primitives.cpp, libpixelflinger/pixelflinger.cpp
   digest: What the rasterizer holds for a unit is what the object of the unit and the kind of the
     primitive ask for, as long as no call leaves a unit behind unmarked. -/

import RabbitRender.Drawing.Soundness

set_option autoImplicit false

namespace RabbitRender.Drawing.TextureState

open RabbitRender.GL (GLenum)
open Lib.GuardedRun Pixelflinger
open Pixelflinger.State (GGLSurface Texture)
open Textures
open Textures.Units (ObjectId TextureObject unitIndex)
open Drawing.Machine Drawing.Effects Drawing.Calls Drawing.Soundness

def placed (s : GGLSurface) : GGLSurface := (State.setSurface {} s).toGGLSurface

def wrapMode (wrap : GLenum) : GLenum := if wrap = GL.clampToEdge then GGL.clamp else wrap

def minMode (filter : GLenum) : GLenum :=
  if filter ∈ [GL.nearest, GL.nearestMipmapNearest, GL.nearestMipmapLinear] then GGL.nearest
  else GGL.linear

/-- The surface of a unit for a primitive of a kind: the first level, or the one chosen for it. -/
def surfaceFor (c : Context) (i : Fin 2) : Kind → GGLSurface
  | .lerp lod => if mipmapped (object c i) then (unitImage c i).mip (lod i) else (unitImage c i).surface
  | _ => (unitImage c i).surface

def coordFor : Kind → GLenum
  | .copied => GGL.oneToOne
  | _ => GGL.automatic

/-- The wrap mode a primitive of a kind reads; coordinates that are taken 1:1 are not wrapped. -/
def wrapFor (wrap : GLenum) : Kind → GLenum
  | .scaled => GGL.clamp
  | .copied => GGL.oneToOne
  | _ => wrapMode wrap

def applied (coord wrap : GLenum) : GLenum := if coord = GGL.oneToOne then GGL.oneToOne else wrap

/-- A unit of the rasterizer holds what its object and the kind of primitive ask for. -/
structure UnitCoherent (kind : Kind) (c : Context) (i : Fin 2) : Prop where
  surface : (c.rasterizer.texture i).surface.toGGLSurface = placed (surfaceFor c i kind)
  minFilter : (c.rasterizer.texture i).minFilter = minMode (object c i).minFilter
  magFilter : (c.rasterizer.texture i).magFilter = (object c i).magFilter
  sCoord : (c.rasterizer.texture i).sCoord = coordFor kind
  tCoord : (c.rasterizer.texture i).tCoord = coordFor kind
  sWrap : applied (c.rasterizer.texture i).sCoord (c.rasterizer.texture i).sWrap =
    wrapFor (object c i).wraps kind
  tWrap : applied (c.rasterizer.texture i).tCoord (c.rasterizer.texture i).tWrap =
    wrapFor (object c i).wrapt kind

def Coherent (kind : Kind) (c : Context) : Prop :=
  ∀ i, (c.rasterizer.texture i).enable = true → UnitCoherent kind c i

/-- The modes of a unit are those of an object, and so is the surface when no level is chosen. -/
structure Matches (t : Texture) (o : TextureObject) (s : GGLSurface) : Prop where
  surface : mipmapped o = false → t.surface.toGGLSurface = placed s
  minFilter : t.minFilter = minMode o.minFilter
  magFilter : t.magFilter = o.magFilter
  sCoord : t.sCoord = GGL.automatic
  tCoord : t.tCoord = GGL.automatic
  sWrap : t.sWrap = wrapMode o.wraps
  tWrap : t.tWrap = wrapMode o.wrapt

def LevelZero (c : Context) (i : Fin 2) : Prop :=
  (c.rasterizer.texture i).surface.toGGLSurface = placed (unitImage c i).surface

instance (c : Context) (i : Fin 2) : Decidable (LevelZero c i) :=
  inferInstanceAs (Decidable (_ = _))

structure Inv (c : Context) : Prop where
  sound : Sound c
  clean : ∀ i, dirty c i = false →
    Matches (c.rasterizer.texture i) (object c i) (unitImage c i).surface

theorem object_live {c : Context} (held : Frames.Held c.textures) (i : Fin 2) :
    ∃ x, (c.textures.tmu i).texture = some x ∧ c.textures.heap x = some (object c i) := by
  obtain ⟨x, bound, live⟩ := held.bound i
  obtain ⟨o, ho⟩ := Option.isSome_iff_exists.mp live
  refine ⟨x, bound, ?_⟩
  unfold object
  rw [bound, Option.bind_some, ho]
  rfl

theorem object_valid {c : Context} (held : Frames.Held c.textures) (i : Fin 2) :
    Frames.Valid (object c i) := by
  obtain ⟨x, -, ho⟩ := object_live held i
  exact held.valid x _ ho

theorem rasterWrap_valid (old : GLenum) {wrap : GLenum}
    (valid : wrap ∈ [GL.repeatWrap, GL.clampToEdge]) : rasterWrap old wrap = wrapMode wrap := by
  simp only [List.mem_cons, List.not_mem_nil, or_false] at valid
  rcases valid with rfl | rfl <;> rfl

theorem rasterMin_valid (old : GLenum) {filter : GLenum}
    (valid : filter ∈ [GL.nearest, GL.linear, GL.nearestMipmapNearest, GL.linearMipmapNearest,
      GL.nearestMipmapLinear, GL.linearMipmapLinear]) : rasterMin old filter = minMode filter := by
  simp only [List.mem_cons, List.not_mem_nil, or_false] at valid
  rcases valid with rfl | rfl | rfl | rfl | rfl | rfl <;> rfl

theorem rasterMag_valid (old : GLenum) {filter : GLenum}
    (valid : filter ∈ [GL.nearest, GL.linear]) : rasterMag old filter = filter := by
  simp only [List.mem_cons, List.not_mem_nil, or_false] at valid
  rcases valid with rfl | rfl <;> rfl

theorem matches_validated {o : TextureObject} (valid : Frames.Valid o) (t : Texture) (im : Image) :
    Matches (validatedTexture t o im) o im.surface where
  surface _ := rfl
  minFilter := rasterMin_valid t.minFilter valid.minFilter
  magFilter := rasterMag_valid t.magFilter valid.magFilter
  sCoord := rfl
  tCoord := rfl
  sWrap := rasterWrap_valid t.sWrap valid.wraps
  tWrap := rasterWrap_valid t.tWrap valid.wrapt

theorem validated_matches {c : Context} (inv : Inv c) {i : Fin 2}
    (on : (c.rasterizer.texture i).enable = true) :
    Matches (validated c i) (object c i) (unitImage c i).surface := by
  unfold validated
  rw [on, Bool.true_and]
  cases changed : dirty c i with
  | false =>
    rw [if_neg Bool.false_ne_true]
    exact inv.clean i changed
  | true =>
    rw [if_pos rfl]
    exact matches_validated (object_valid inv.sound.held i) _ _

theorem validated_levelZero {c : Context} {i : Fin 2} (on : (c.rasterizer.texture i).enable = true)
    (reset : dirty c i = true ∨ LevelZero c i) :
    (validated c i).surface.toGGLSurface = placed (unitImage c i).surface := by
  unfold validated
  rw [on, Bool.true_and]
  cases changed : dirty c i with
  | false =>
    rw [if_neg Bool.false_ne_true]
    exact reset.resolve_left (Bool.eq_false_iff.mp changed)
  | true =>
    rw [if_pos rfl]
    rfl

theorem Matches.clamped {t : Texture} {o : TextureObject} {s : GGLSurface} (h : Matches t o s)
    {c : Context} {i : Fin 2} (texture : c.rasterizer.texture i = clamped t) (same : object c i = o)
    (surface : t.surface.toGGLSurface = placed (unitImage c i).surface) :
    UnitCoherent .scaled c i := by
  constructor
  · rw [texture]
    exact surface
  · rw [texture, same]
    exact h.minFilter
  · rw [texture, same]
    exact h.magFilter
  · rw [texture]
    exact h.sCoord
  · rw [texture]
    exact h.tCoord
  · rw [texture]
    change applied t.sCoord GGL.clamp = GGL.clamp
    rw [h.sCoord]
    rfl
  · rw [texture]
    change applied t.tCoord GGL.clamp = GGL.clamp
    rw [h.tCoord]
    rfl

theorem Matches.coherent {t : Texture} {o : TextureObject} {s : GGLSurface} (h : Matches t o s)
    {c : Context} {i : Fin 2} {kind : Kind} (plain : kind = .point ∨ ∃ lod, kind = .lerp lod)
    (modes : ∃ surface, c.rasterizer.texture i = { t with surface := surface })
    (same : object c i = o)
    (surface : (c.rasterizer.texture i).surface.toGGLSurface = placed (surfaceFor c i kind)) :
    UnitCoherent kind c i := by
  obtain ⟨new, texture⟩ := modes
  have coord : coordFor kind = GGL.automatic := by
    rcases plain with rfl | ⟨lod, rfl⟩ <;> rfl
  have wrap (w : GLenum) : wrapFor w kind = wrapMode w := by
    rcases plain with rfl | ⟨lod, rfl⟩ <;> rfl
  refine ⟨surface, ?_, ?_, ?_, ?_, ?_, ?_⟩
  · rw [texture, same]
    exact h.minFilter
  · rw [texture, same]
    exact h.magFilter
  · rw [texture, coord]
    exact h.sCoord
  · rw [texture, coord]
    exact h.tCoord
  · rw [texture, wrap, same]
    change applied t.sCoord t.sWrap = _
    rw [h.sCoord, h.sWrap]
    rfl
  · rw [texture, wrap, same]
    change applied t.tCoord t.tWrap = _
    rw [h.tCoord, h.tWrap]
    rfl

/-- Between two primitives of a draw call: the enabled units have been validated, and hold the
first level if no level is chosen for a primitive. -/
structure Ready (mode : GLenum) (c : Context) : Prop where
  inv : Inv c
  validated : ∀ i, (c.rasterizer.texture i).enable = true → dirty c i = false
  points : mode = GL.points → ∀ i, (c.rasterizer.texture i).enable = true → LevelZero c i

def LevelsReset (c : Context) : Prop :=
  ∀ i, (c.rasterizer.texture i).enable = true → dirty c i = true ∨ LevelZero c i

instance (c : Context) : Decidable (LevelsReset c) := inferInstanceAs (Decidable (∀ _, _))

theorem enabled_of_validated {c : Context} {i : Fin 2} (on : (validated c i).enable = true) :
    (c.rasterizer.texture i).enable = true := by
  rcases validated_enable c i with same | ⟨off, -⟩
  · exact same.symm.trans on
  · exact nomatch off.symm.trans on

theorem ready_validateArrays {c : Context} (inv : Inv c) (mode : GLenum) :
    Inv (validateArrays c mode) ∧
      ((mode = GL.points → LevelsReset c) → Ready mode (validateArrays c mode)) := by
  have sound := sound_validateArrays inv.sound mode
  obtain ⟨r, redrawn, eq⟩ := validateArrays_spec inv.sound mode
  have texture (i : Fin 2) : (validateArrays c mode).rasterizer.texture i = validated c i := by
    rw [eq]
    exact congrFun redrawn.texture_eq i
  have storage (i : Fin 2) : object (validateArrays c mode) i = object c i ∧
      unitImage (validateArrays c mode) i = unitImage c i := by
    rw [eq]
    exact object_withUnits c r (cleaned_texture c i)
  have unit (i : Fin 2) : (validateArrays c mode).textures.tmu i = cleaned c i := by
    rw [eq]
    rfl
  have inv' : Inv (validateArrays c mode) := by
    refine ⟨sound, fun i clean => ?_⟩
    rw [texture i, (storage i).1, (storage i).2]
    cases on : (c.rasterizer.texture i).enable with
    | true => exact validated_matches inv on
    | false =>
      have skipped : validated c i = c.rasterizer.texture i := by
        rw [validated, on, Bool.false_and, if_neg Bool.false_ne_true]
      have kept : dirty c i = false := by
        unfold dirty at clean ⊢
        rwa [unit i, cleaned, on, if_neg Bool.false_ne_true] at clean
      rw [skipped]
      exact inv.clean i kept
  refine ⟨inv', fun reset => ⟨inv', fun i on => ?_, fun points i on => ?_⟩⟩
  · rw [texture i] at on
    unfold dirty
    rw [unit i, cleaned, if_pos (enabled_of_validated on)]
    rfl
  · rw [texture i] at on
    have enabled := enabled_of_validated on
    unfold LevelZero
    rw [texture i, (storage i).2]
    exact validated_levelZero enabled (reset points i enabled)

theorem chosen_modes (c : Context) (mode : GLenum) (lod : Fin 2 → Int) (i : Fin 2) :
    ∃ surface, chosen c mode lod i = { c.rasterizer.texture i with surface := surface } := by
  unfold chosen
  dsimp only
  split_ifs
  · exact ⟨_, rfl⟩
  · exact ⟨_, rfl⟩

theorem chosen_points (c : Context) {mode : GLenum} (points : mode = GL.points)
    (lod : Fin 2 → Int) : chosen c mode lod = c.rasterizer.texture := by
  funext i
  exact if_neg fun h => h.1 points

theorem setPrim_frame {c : Context} (masked : Calls.Masked c.rasterizer) (mode : GLenum) (p : Prim) :
    (setPrim c mode p).rasterizer.texture = chosen c mode p.lod ∧
      (setPrim c mode p).textures = c.textures ∧ (setPrim c mode p).image = c.image := by
  rw [setPrim_eq masked]
  exact ⟨rfl, rfl, rfl⟩

theorem ready_setPrim {c : Context} {mode : GLenum} (h : Ready mode c) (p : Prim) :
    Ready mode (setPrim c mode p) ∧ Coherent (kind mode p) (setPrim c mode p) := by
  obtain ⟨texture, textures, image⟩ := setPrim_frame h.inv.sound.masked mode p
  have object_eq (i : Fin 2) : object (setPrim c mode p) i = object c i := by
    unfold object
    rw [textures]
  have image_eq (i : Fin 2) : unitImage (setPrim c mode p) i = unitImage c i := by
    unfold unitImage
    rw [textures, image]
  have dirty_eq (i : Fin 2) : dirty (setPrim c mode p) i = dirty c i := by
    unfold dirty
    rw [textures]
  have enabled {i : Fin 2} (on : (chosen c mode p.lod i).enable = true) :
      (c.rasterizer.texture i).enable = true := (chosen_enable c mode p.lod i).symm.trans on
  refine ⟨⟨⟨sound_setPrim h.inv.sound mode p, fun i clean => ?_⟩, fun i on => ?_, fun points i on => ?_⟩,
    fun i on => ?_⟩
  · rw [dirty_eq] at clean
    rw [texture, object_eq, image_eq]
    have old := h.inv.clean i clean
    obtain ⟨surface, modes⟩ := chosen_modes c mode p.lod i
    refine ⟨fun plain => ?_, ?_, ?_, ?_, ?_, ?_, ?_⟩
    · have kept : chosen c mode p.lod i = c.rasterizer.texture i :=
        if_neg fun wants => Bool.false_ne_true (plain.symm.trans wants.2.2)
      rw [kept]
      exact old.surface plain
    · rw [modes]
      exact old.minFilter
    · rw [modes]
      exact old.magFilter
    · rw [modes]
      exact old.sCoord
    · rw [modes]
      exact old.tCoord
    · rw [modes]
      exact old.sWrap
    · rw [modes]
      exact old.tWrap
  · rw [texture] at on
    rw [dirty_eq]
    exact h.validated i (enabled on)
  · rw [texture] at on
    unfold LevelZero
    rw [texture, image_eq, chosen_points c points]
    exact h.points points i (enabled on)
  · rw [texture] at on
    have old := h.inv.clean i (h.validated i (enabled on))
    have modes := chosen_modes c mode p.lod i
    rw [← texture] at modes
    unfold kind
    by_cases points : mode = GL.points
    · rw [if_pos points]
      refine old.coherent (.inl rfl) modes (object_eq i) ?_
      rw [texture, chosen_points c points]
      change _ = placed (unitImage (setPrim c mode p) i).surface
      rw [image_eq]
      exact h.points points i (enabled on)
    · rw [if_neg points]
      refine old.coherent (.inr ⟨p.lod, rfl⟩) modes (object_eq i) ?_
      rw [texture]
      unfold surfaceFor chosen
      rw [object_eq, image_eq]
      dsimp only
      cases wants : mipmapped (object c i) with
      | true =>
        rw [if_pos ⟨points, enabled on, rfl⟩, if_pos rfl]
        rfl
      | false =>
        have skipped : ¬(mode ≠ GL.points ∧ (c.rasterizer.texture i).enable = true ∧
            false = true) := fun choose => Bool.false_ne_true choose.2.2
        rw [if_neg skipped, if_neg Bool.false_ne_true]
        exact old.surface wants

/-- The condition on a draw call: points do not find a level that was chosen earlier. -/
def DrawSafe (c : Context) (mode : GLenum) (count : Int) (prims : List Prim) : Prop :=
  Draws c mode count → mode = GL.points → prims ≠ [] → LevelsReset c

instance (c : Context) (mode : GLenum) (count : Int) (prims : List Prim) :
    Decidable (DrawSafe c mode count prims) := by
  have : Decidable (prims ≠ []) := decidable_of_iff (prims.isEmpty = false) (by cases prims <;> simp)
  unfold DrawSafe
  infer_instance

structure Good (r : List Invocation × Context) : Prop where
  inv : Inv r.2
  coherent : ∀ x ∈ r.1, Coherent x.1 x.2

theorem good_draw {c : Context} (inv : Inv c) {mode : GLenum} {count : Int} {prims : List Prim}
    (safe : DrawSafe c mode count prims) : Good (draw c mode count prims) := by
  rcases draw_cases c mode count prims with ⟨draws, eq⟩ | ⟨-, error, eq⟩
  · rw [eq]
    obtain ⟨inv', ready⟩ := ready_validateArrays inv mode
    cases prims with
    | nil => exact ⟨inv', fun x hx => absurd hx List.not_mem_nil⟩
    | cons p prims =>
      obtain ⟨last, each⟩ := @drawPrims_keeps mode (Ready mode)
        (fun _ p here => (ready_setPrim here p).1) (p :: prims) _
        (ready fun points => safe draws points (List.cons_ne_nil p prims))
      refine ⟨last.inv, fun x hx => ?_⟩
      obtain ⟨d, p, here, rfl⟩ := each x hx
      exact (ready_setPrim here p).2
  · rw [eq]
    refine ⟨⟨?_, inv.clean⟩, fun x hx => absurd hx List.not_mem_nil⟩
    exact ⟨inv.sound.masked, inv.sound.active, (Frames.rebinds_frame inv.sound.held _ error).held,
      inv.sound.shade⟩

theorem storage_rect (c : Context) (r : State.Context) {tmu : Fin 2 → Units.TextureUnit}
    (units : ∀ i, (tmu i).texture = (c.textures.tmu i).texture) (iterators : Iterators) (i : Fin 2) :
    object (rectContext c r tmu iterators) i = object c i ∧
      unitImage (rectContext c r tmu iterators) i = unitImage c i :=
  object_withUnits c r (units i)

theorem dirty_spent {c : Context} {i : Fin 2} (r : State.Context) (iterators : Iterators)
    (clean : dirty (rectContext c r (spent c) iterators) i = false) :
    (c.rasterizer.texture i).enable = false ∧ dirty c i = false := by
  have unit : (rectContext c r (spent c) iterators).textures.tmu i = spent c i := rfl
  unfold dirty at clean ⊢
  rw [unit, spent] at clean
  cases on : (c.rasterizer.texture i).enable with
  | true =>
    rw [on, if_pos rfl] at clean
    have marked : decide ((0xFF : UInt8) ≠ 0) = true := rfl
    exact absurd (marked.symm.trans clean) (by decide)
  | false =>
    rw [on, if_neg Bool.false_ne_true] at clean
    exact ⟨rfl, clean⟩

theorem good_drawTexxOESImp {c : Context} (inv : Inv c) (aimed : Aimed c) (reset : LevelsReset c)
    (new : Iterators) : Good (drawTexxOESImp c new) := by
  have sound := sound_drawTexxOESImp inv.sound new
  obtain ⟨r, texture, redrawn, -, target, eq⟩ := drawTexxOESImp_spec inv.sound new
  rw [eq] at sound ⊢
  have texture_eq (i : Fin 2) :
      (rectContext c r (spent c) (scaledIterators c new)).rasterizer.texture i = scaled c i := by
    have held : r.texture = scaled c := redrawn.texture_eq.trans (target aimed)
    exact congrFun held i
  have storage := storage_rect c r (spent_texture c) (scaledIterators c new)
  refine ⟨⟨sound, fun i clean => ?_⟩, fun x hx => ?_⟩
  · obtain ⟨off, kept⟩ := dirty_spent r _ clean
    rw [texture_eq, (storage i).1, (storage i).2, scaled, off, if_neg Bool.false_ne_true]
    exact inv.clean i kept
  · obtain rfl := List.mem_singleton.mp hx
    intro i on
    have enabled : (c.rasterizer.texture i).enable = true := by
      rw [texture_eq, scaled] at on
      split_ifs at on with enabled
      · exact enabled
      · exact on
    have clamp : scaled c i = clamped (validated c i) := if_pos enabled
    refine (validated_matches inv enabled).clamped ((texture_eq i).trans clamp) (storage i).1 ?_
    rw [(storage i).2]
    exact validated_levelZero enabled (reset i enabled)

theorem second_disabled {c : Context} (masked : Calls.Masked c.rasterizer)
    (one : c.rasterizer.enabledTmu = 1) : (c.rasterizer.texture 1).enable = false := by
  have mask := masked.mask
  rw [one] at mask
  unfold Calls.unitMask at mask
  cases second : Calls.enabledUnits c.rasterizer 1 with
  | false => exact second
  | true =>
    rw [second] at mask
    cases first : Calls.enabledUnits c.rasterizer 0 <;> rw [first] at mask <;>
      exact absurd mask (by decide)

theorem copied_filters {c : Context} (inv : Inv c) :
    (copied c).minFilter = minMode (object c 0).minFilter ∧
      (copied c).magFilter = (object c 0).magFilter := by
  have valid := object_valid inv.sound.held 0
  unfold copied
  cases changed : dirty c 0 with
  | true => exact ⟨rasterMin_valid _ valid.minFilter, rasterMag_valid _ valid.magFilter⟩
  | false =>
    have clean := inv.clean 0 changed
    exact ⟨clean.minFilter, clean.magFilter⟩

theorem copied_surface {c : Context} (reset : dirty c 0 = true ∨ LevelZero c 0) :
    (copied c).surface.toGGLSurface = placed (unitImage c 0).surface := by
  unfold copied
  cases changed : dirty c 0 with
  | true => rfl
  | false => exact reset.resolve_left (Bool.eq_false_iff.mp changed)

theorem inv_first {c : Context} (inv : Inv c) {r : State.Context} {iterators : Iterators}
    (sound : Sound (rectContext c r (spentFirst c) iterators))
    (texture : r.texture = Function.update c.rasterizer.texture 0 (copied c)) :
    Inv (rectContext c r (spentFirst c) iterators) := by
  have storage := storage_rect c r (spentFirst_texture c) iterators
  refine ⟨sound, Fin.forall_fin_two.mpr ⟨fun clean => ?_, fun clean => ?_⟩⟩
  · have marked : dirty (rectContext c r (spentFirst c) iterators) 0 = true := rfl
    exact absurd (marked.symm.trans clean) (by decide)
  · rw [(storage 1).1, (storage 1).2]
    have kept : (rectContext c r (spentFirst c) iterators).rasterizer.texture 1 =
        c.rasterizer.texture 1 := congrFun texture 1
    rw [kept]
    exact inv.clean 1 clean

theorem good_copyTexture {c : Context} (inv : Inv c) (aimed : CopyAimed c)
    (reset : dirty c 0 = true ∨ LevelZero c 0) (one : c.rasterizer.enabledTmu = 1)
    (new : Iterators) : Good (copyTexture (prepareCopy c) new) := by
  have sound := sound_copyTexture inv.sound new
  obtain ⟨r, texture, redrawn, enable, target, eq⟩ := copyTexture_spec inv.sound new
  rw [eq] at sound ⊢
  have texture_eq : r.texture = Function.update c.rasterizer.texture 0 (copied c) :=
    redrawn.texture_eq.trans (target aimed)
  refine ⟨inv_first inv sound texture_eq, fun x hx => ?_⟩
  obtain rfl := List.mem_singleton.mp hx
  have storage := storage_rect c r (spentFirst_texture c) (copiedIterators c new) 0
  obtain ⟨minFilter, magFilter⟩ := copied_filters inv
  have first : (rectContext c r (spentFirst c) (copiedIterators c new)).rasterizer.texture 0 =
      copied c := congrFun texture_eq 0
  refine Fin.forall_fin_two.mpr ⟨fun _ => ?_, fun on => ?_⟩
  · constructor
    · rw [first]
      change _ = placed (unitImage (rectContext c r (spentFirst c) (copiedIterators c new)) 0).surface
      rw [storage.2]
      exact copied_surface reset
    · rw [first, storage.1]
      exact minFilter
    · rw [first, storage.1]
      exact magFilter
    · rw [first]
      rfl
    · rw [first]
      rfl
    · rw [first]
      rfl
    · rw [first]
      rfl
  · have second : (rectContext c r (spentFirst c) (copiedIterators c new)).rasterizer.texture 1 =
        c.rasterizer.texture 1 := congrFun texture_eq 1
    rw [second, second_disabled inv.sound.masked one] at on
    exact nomatch on

theorem safe_of_first {c : Context} (marked : dirty c 0 = true)
    (second : (c.rasterizer.texture 1).enable = false) : Aimed c ∧ LevelsReset c := by
  refine ⟨⟨fun _ => .inl marked, fun on => ?_⟩,
    Fin.forall_fin_two.mpr ⟨fun _ => .inl marked, fun on => ?_⟩⟩
  all_goals exact absurd on (Bool.eq_false_iff.mp second)

theorem inv_prepareCopy {c : Context} (inv : Inv c) (aimed : CopyAimed c)
    (one : c.rasterizer.enabledTmu = 1) :
    Inv (prepareCopy c) ∧ dirty (prepareCopy c) 0 = true ∧
      ((prepareCopy c).rasterizer.texture 1).enable = false := by
  have sound := sound_prepareCopy inv.sound
  obtain ⟨r, texture, prepared, enable, target, eq⟩ := prepareCopy_spec inv.sound
  have context : prepareCopy c = rectContext c r (spentFirst c) c.iterators := eq
  have texture_eq : r.texture = Function.update c.rasterizer.texture 0 (copied c) :=
    prepared.texture_eq.trans (target aimed)
  have second : (r.texture 1).enable = false := by
    rw [texture_eq]
    exact second_disabled inv.sound.masked one
  rw [context] at sound ⊢
  exact ⟨inv_first inv sound texture_eq, rfl, second⟩

theorem good_slow {c : Context} (inv : Inv c) (aimed : CopyAimed c)
    (one : c.rasterizer.enabledTmu = 1) (new : Iterators) :
    Good (drawTexxOESImp (prepareCopy c) new) := by
  obtain ⟨inv', marked, second⟩ := inv_prepareCopy inv aimed one
  obtain ⟨aimed', reset⟩ := safe_of_first marked second
  exact good_drawTexxOESImp inv' aimed' reset new

/-- The condition on `glDrawTex`: the wrap modes and the coordinate modes it sets reach the units
they are meant for, and no unit is left at a level chosen earlier. -/
def RectSafe (c : Context) : Path → Prop
  | .nothing => True
  | .copy => CopyAimed c ∧ (dirty c 0 = true ∨ LevelZero c 0)
  | .slow => CopyAimed c
  | .scale => Aimed c ∧ LevelsReset c

instance (c : Context) : DecidablePred (RectSafe c) := fun path => by
  cases path <;> unfold RectSafe <;> infer_instance

theorem oneToOne_of_path {c : Context} {w h : Int} (fast : path c w h = .copy ∨ path c w h = .slow) :
    c.rasterizer.enabledTmu = 1 := by
  unfold path at fast
  split_ifs at fast with one
  all_goals first
    | exact one.1
    | exact absurd fast (by decide)

theorem good_drawTexiOES {c : Context} (inv : Inv c) (w h : Int) (new : Iterators)
    (safe : RectSafe c (path c w h)) : Good (drawTexiOES c w h new) := by
  rw [drawTexiOES_eq]
  cases taken : path c w h with
  | nothing => exact ⟨inv, fun x hx => absurd hx List.not_mem_nil⟩
  | copy =>
    rw [taken] at safe
    exact good_copyTexture inv safe.1 safe.2 (oneToOne_of_path (.inl taken)) new
  | slow =>
    rw [taken] at safe
    exact good_slow inv safe (oneToOne_of_path (.inr taken)) new
  | scale =>
    rw [taken] at safe
    exact good_drawTexxOESImp inv safe.1 safe.2 new

/-- A level above the first one has a place of its own: there is a table, or the texture is large
enough to get one, or it has no image yet. -/
def HasLevels (im : Image) : Prop := im.mipmaps ≠ [] ∨ im.numLods ≠ 0 ∨ im.surface.data = 0

instance (im : Image) : Decidable (HasLevels im) := inferInstanceAs (Decidable (_ ∨ _))

theorem allocate_spec {im im' : Image} {table : Bool} (levels : HasLevels im)
    (h : im.allocateMipmaps table = some im') : im'.surface = im.surface ∧ im'.mipmaps ≠ [] := by
  unfold Image.allocateMipmaps at h
  split_ifs at h with has empty small fits
  · obtain rfl := Option.some_inj.mp h
    exact ⟨rfl, has⟩
  · rcases levels with some | large | none
    · exact absurd some has
    · exact absurd small large
    · exact absurd none empty
  · obtain rfl := Option.some_inj.mp h
    refine ⟨rfl, fun nil => small ?_⟩
    exact (List.replicate_eq_nil_iff _).mp nil

theorem editMip_spec {im : Image} {lod : Nat} (above : lod ≠ 0) (table : im.mipmaps ≠ [])
    (s : GGLSurface) : (im.editMip lod s).surface = im.surface ∧ (im.editMip lod s).mipmaps ≠ [] := by
  unfold Image.editMip
  rw [if_neg (not_or.mpr ⟨above, table⟩)]
  exact ⟨rfl, fun nil => table ((List.set_eq_nil_iff _ _).mp nil)⟩

theorem reallocate_spec {im : Image} (levels : HasLevels im) {w : Image.Write} (above : w.level ≠ 0) :
    (im.reallocate w).surface = im.surface ∧ HasLevels (im.reallocate w) := by
  unfold Image.reallocate
  rw [if_neg above]
  cases table : im.allocateMipmaps w.table with
  | none => exact ⟨rfl, levels⟩
  | some im' =>
    obtain ⟨surface, has⟩ := allocate_spec levels table
    dsimp only
    split_ifs
    · obtain ⟨kept, still⟩ := editMip_spec above has w.surface
      exact ⟨kept.trans surface, .inl still⟩
    · obtain ⟨kept, still⟩ := editMip_spec above has {}
      exact ⟨kept.trans surface, .inl still⟩

theorem reallocates_surface (writes : List Image.Write) {im : Image} (levels : HasLevels im)
    (above : ∀ w ∈ writes, w.level ≠ 0) :
    (writes.foldl Image.reallocate im).surface = im.surface := by
  induction writes generalizing im with
  | nil => rfl
  | cons w writes ih =>
    obtain ⟨surface, still⟩ := reallocate_spec levels (above w List.mem_cons_self)
    rw [List.foldl_cons, ih still fun w' h' => above w' (List.mem_cons_of_mem w h')]
    exact surface

theorem Matches.of_modes {t : Texture} {o o' : TextureObject} {s : GGLSurface} (h : Matches t o s)
    (same : Frames.modes o' = Frames.modes o) : Matches t o' s := by
  simp only [Frames.modes, Prod.mk.injEq] at same
  obtain ⟨wraps, wrapt, minFilter, magFilter⟩ := same
  have levels : mipmapped o' = mipmapped o := by
    unfold mipmapped
    rw [minFilter]
  refine ⟨fun plain => h.surface (levels.symm.trans plain), ?_, ?_, h.sCoord, h.tCoord, ?_, ?_⟩
  · rw [minFilter]
    exact h.minFilter
  · rw [magFilter]
    exact h.magFilter
  · rw [wraps]
    exact h.sWrap
  · rw [wrapt]
    exact h.tWrap

theorem inv_stored {c : Context} (inv : Inv c) {t : Units.Context} {image : ObjectId → Image}
    (sound : Sound { c with textures := t, image := image })
    (unseen : ∀ i, (t.tmu i).dirty = 0 → t.tmu i = c.textures.tmu i ∧
      Frames.modes (object { c with textures := t, image := image } i) = Frames.modes (object c i) ∧
      (unitImage { c with textures := t, image := image } i).surface = (unitImage c i).surface) :
    Inv { c with textures := t, image := image } := by
  refine ⟨sound, fun i clean => ?_⟩
  have zero : (t.tmu i).dirty = 0 := not_not.mp (of_decide_eq_false clean)
  obtain ⟨unit, modes, surface⟩ := unseen i zero
  have kept : dirty c i = false := by
    unfold dirty at clean ⊢
    rwa [← unit]
  rw [surface]
  exact (inv.clean i kept).of_modes modes

theorem modes_rebinds {c c' : Context} (held : Frames.Held c.textures)
    (rebinds : Frames.Rebinds c.textures c'.textures) {i : Fin 2}
    (unit : c'.textures.tmu i = c.textures.tmu i) :
    Frames.modes (object c' i) = Frames.modes (object c i) := by
  obtain ⟨x, bound, ho⟩ := object_live held i
  obtain ⟨o', ho', same⟩ := rebinds.kept x _ ho
  have object_eq : object c' i = o' := by
    unfold object
    rw [unit, bound, Option.bind_some, ho']
    rfl
  rw [object_eq]
  exact same

theorem unit_of_clean {t t' : Units.Context} (rebinds : Frames.Rebinds t t') {i : Fin 2}
    (clean : (t'.tmu i).dirty = 0) : t'.tmu i = t.tmu i := by
  refine (rebinds.unit i).resolve_right fun marked => ?_
  rw [clean] at marked
  exact absurd marked (by decide)

def uploadLevel : Coherence.Op → Nat
  | .texImage2D a _ => a.level.toNat
  | .copyTexImage2D a _ => a.level.toNat
  | _ => 0

theorem uploads_marked {t t' : Units.Context} (held : Frames.Held t) {op : Coherence.Op}
    (up : uploads op = true) (first : uploadLevel op = 0) (h : Coherence.call t op = some t') :
    Frames.ActiveMarked t' := by
  cases op with
  | texImage2D a mem =>
    simp only [uploads, Bool.and_eq_true, decide_eq_true_eq] at up
    exact (Frames.texImage_spec held a mem h).2.1 up.1 up.2 first
  | copyTexImage2D a mem =>
    simp only [uploads, Bool.and_eq_true, decide_eq_true_eq] at up
    exact (Frames.copyTexImage_spec held a mem h).2.1 up.1 up.2 first
  | compressedTexImage2D a mem =>
    simp only [uploads, Bool.and_eq_true, decide_eq_true_eq, Bool.not_eq_true',
      decide_eq_false_iff_not] at up
    exact (Frames.compressedTexImage_spec held a mem h).2 up.1 up.2
  | activeTexture _ => cases up
  | bindTexture _ _ => cases up
  | genTextures _ => cases up
  | deleteTextures _ _ => cases up

theorem uploads_above {t t' : Units.Context} (held : Frames.Held t) {op : Coherence.Op}
    (above : uploadLevel op ≠ 0) (h : Coherence.call t op = some t') : t'.tmu = t.tmu := by
  cases op with
  | texImage2D a mem => exact (Frames.texImage_spec held a mem h).2.2 above
  | copyTexImage2D a mem => exact (Frames.copyTexImage_spec held a mem h).2.2 above
  | _ => exact absurd rfl above

/-- Levels above the first are written to the texture of the active unit, and have a place there,
unless every unit with this texture is marked. -/
def LevelsSafe (c : Context) (writes : List Image.Write) : Prop :=
  ∀ a, unitIndex c.textures.active = some a →
    ∀ i, (c.textures.tmu i).texture = (c.textures.tmu a).texture →
      dirty c i = true ∨ (∀ w ∈ writes, w.level ≠ 0) ∧ HasLevels (unitImage c i)

instance (c : Context) (writes : List Image.Write) : Decidable (LevelsSafe c writes) :=
  inferInstanceAs (Decidable (∀ _, _))

theorem written_surface {c : Context} {writes : List Image.Write} (safe : LevelsSafe c writes)
    {a i : Fin 2} {x : ObjectId} (index : unitIndex c.textures.active = some a)
    (bound : (c.textures.tmu a).texture = some x) (clean : dirty c i = false)
    (d : Context) (textures : (d.textures.tmu i).texture = (c.textures.tmu i).texture)
    (image : d.image = Function.update c.image x (writes.foldl Image.reallocate (c.image x))) :
    (unitImage d i).surface = (unitImage c i).surface := by
  unfold unitImage
  rw [textures, image]
  cases here : (c.textures.tmu i).texture with
  | none => rfl
  | some y =>
    by_cases same : y = x
    · subst same
      have shared : (c.textures.tmu i).texture = (c.textures.tmu a).texture := here.trans bound.symm
      obtain ⟨above, levels⟩ := (safe a index i shared).resolve_left (Bool.eq_false_iff.mp clean)
      have im : unitImage c i = c.image y := by
        unfold unitImage
        rw [here]
      simp only [Function.update_self]
      exact reallocates_surface writes (im ▸ levels) above
    · simp only [Function.update_of_ne same]

theorem replaced_surface {c : Context} {t : Units.Context} (marked : Frames.ActiveMarked t)
    {a i : Fin 2} {x : ObjectId} (index : unitIndex t.active = some a)
    (bound : (t.tmu a).texture = some x) (clean : (t.tmu i).dirty = 0)
    (unit : t.tmu i = c.textures.tmu i) (im : Image) :
    (unitImage { c with textures := t, image := Function.update c.image x im } i).surface =
      (unitImage c i).surface := by
  have apart : (t.tmu i).texture ≠ some x := by
    intro shared
    rw [marked a index i (shared.trans bound.symm)] at clean
    exact absurd clean (by decide)
  unfold unitImage
  simp only [← unit]
  cases here : (t.tmu i).texture with
  | none => rfl
  | some y =>
    have differs : y ≠ x := fun same => apart (same ▸ here)
    simp only [Function.update_of_ne differs]

theorem inv_texture {c c' : Context} (inv : Inv c) {op : Coherence.Op} {writes : List Image.Write}
    (other : ¬Frames.Selects op)
    (safe : uploads op = true → uploadLevel op ≠ 0 → LevelsSafe c writes)
    (h : textureCall c op writes = some c') : Inv c' := by
  have sound := sound_stored inv.sound (stored_texture inv.sound.held other h)
  obtain ⟨t, image, called, written, rfl⟩ := textureCall_spec other h
  have rebinds := Frames.call_rebinds inv.sound.held other called
  refine inv_stored inv sound fun i clean => ?_
  have unit := unit_of_clean rebinds clean
  refine ⟨unit, ?_, ?_⟩
  · exact @modes_rebinds c { c with textures := t, image := image } inv.sound.held rebinds i unit
  have old : dirty c i = false := by
    unfold dirty
    rw [← unit, clean]
    rfl
  have texture : (t.tmu i).texture = (c.textures.tmu i).texture := congrArg _ unit
  generalize up : uploads op = uploaded at written
  cases written with
  | kept =>
    unfold unitImage
    simp only [texture]
  | @written a x index bound =>
    by_cases first : uploadLevel op = 0
    · exact replaced_surface (uploads_marked inv.sound.held up first called) index bound clean unit _
    · have units := uploads_above inv.sound.held first called
      rw [rebinds.active] at index
      rw [units] at bound
      exact written_surface (safe up first) index bound old _ texture rfl

theorem inv_subImage {c c' : Context} (inv : Inv c) {writes : List Image.Write}
    (safe : LevelsSafe c writes) (h : upload c writes = some c') : Inv c' := by
  obtain ⟨a, x, index, bound, rfl⟩ := upload_spec h
  refine @inv_stored c inv c.textures _ ⟨inv.sound.masked, inv.sound.active, inv.sound.held,
    inv.sound.shade⟩ fun i clean => ⟨rfl, rfl, ?_⟩
  have old : dirty c i = false := by
    unfold dirty
    rw [clean]
    rfl
  exact written_surface safe index bound old _ rfl rfl

theorem inv_eglImage {c c' : Context} (inv : Inv c) {surface : GGLSurface}
    (h : eglImage c surface = some c') : Inv c' := by
  have sound := sound_stored inv.sound (stored_eglImage inv.sound.held h)
  obtain ⟨t, a, x, rebinds, marked, index, bound, rfl⟩ := eglImage_spec inv.sound.held h
  refine inv_stored inv sound fun i clean => ?_
  have unit := unit_of_clean rebinds clean
  refine ⟨unit, ?_, replaced_surface marked index bound clean unit _⟩
  exact @modes_rebinds c { c with textures := t, image := Function.update c.image x _ }
    inv.sound.held rebinds i unit

/-- The condition on `glTexParameter`: another unit that has the object of the active one is marked,
or sees no other mode. -/
def ParameterSafe (c : Context) (target pname param : GLenum) : Prop :=
  target = GL.texture2D ∨ target = GL.textureExternalOes →
    ∀ a, unitIndex c.textures.active = some a → ∀ i, i ≠ a →
      (c.textures.tmu i).texture = (c.textures.tmu a).texture →
        dirty c i = true ∨
          Frames.modes (withParameter pname param (object c i)) = Frames.modes (object c i)

instance (c : Context) (target pname param : GLenum) :
    Decidable (ParameterSafe c target pname param) :=
  inferInstanceAs (Decidable (_ → ∀ _, _))

theorem inv_texParameter {c c' : Context} (inv : Inv c) {target pname param : GLenum}
    (safe : ParameterSafe c target pname param) (h : texParameterx c target pname param = some c') :
    Inv c' := by
  have sound := sound_stored inv.sound (stored_texParameter inv.sound.held h)
  have reported : Inv (oglesError c GL.invalidEnum) :=
    @inv_stored c inv _ c.image ⟨inv.sound.masked, inv.sound.active,
      (Frames.rebinds_error inv.sound.held _).held, inv.sound.shade⟩ fun i _ => ⟨rfl, rfl, rfl⟩
  by_cases accepted : target = GL.texture2D ∨ target = GL.textureExternalOes
  case neg =>
    unfold texParameterx at h
    rw [if_pos (not_or.mp accepted)] at h
    rw [← Option.some_inj.mp h]
    exact reported
  rcases texParameterx_spec h with rfl | ⟨a, x, index, bound, rfl⟩
  · exact reported
  · refine inv_stored inv sound fun i clean => ?_
    have other : i ≠ a := by
      rintro rfl
      have marked : ((parameterContext c i x pname param).textures.tmu i).dirty = 0xFF := by
        change (Function.update c.textures.tmu i _ i).dirty = 0xFF
        rw [Function.update_self]
      exact absurd (marked.symm.trans clean) (by decide)
    have unit : (parameterContext c a x pname param).textures.tmu i = c.textures.tmu i :=
      Function.update_of_ne other _ _
    have old : dirty c i = false := by
      unfold dirty
      rw [← unit]
      exact decide_eq_false (not_not.mpr clean)
    refine ⟨unit, ?_, ?_⟩
    · obtain ⟨y, here, ho⟩ := object_live inv.sound.held i
      have changed : object (parameterContext c a x pname param) i =
          if y = x then withParameter pname param (object c i) else object c i := by
        have found : object (parameterContext c a x pname param) i =
            (Function.update c.textures.heap x
              ((c.textures.heap x).map (withParameter pname param)) y).getD {} := by
          unfold object
          rw [unit, here]
          rfl
        rw [found, Function.update_apply]
        split_ifs with same
        · rw [← same, ho]
          rfl
        · rw [ho]
          rfl
      change Frames.modes (object (parameterContext c a x pname param) i) = _
      rw [changed]
      split_ifs with same
      · have shared : (c.textures.tmu i).texture = (c.textures.tmu a).texture := by
          rw [here, bound, same]
        exact (safe accepted a index i other shared).resolve_left (Bool.eq_false_iff.mp old)
      · rfl
    · change (unitImage (parameterContext c a x pname param) i).surface = _
      unfold unitImage
      rw [unit]
      rfl

theorem inv_cropRect {c c' : Context} (inv : Inv c) {target : GLenum} {rect : Int × Int × Int × Int}
    (h : cropRect c target rect = some c') : Inv c' := by
  obtain ⟨t, rebinds, tmu, rfl⟩ := cropRect_spec inv.sound.held h
  have unit (i : Fin 2) : t.tmu i = c.textures.tmu i := congrFun tmu i
  have sound : Sound { c with textures := t } :=
    ⟨inv.sound.masked, inv.sound.active.trans rebinds.active.symm, rebinds.held, inv.sound.shade⟩
  refine inv_stored inv sound fun i _ => ⟨unit i, ?_, ?_⟩
  · exact @modes_rebinds c { c with textures := t } inv.sound.held rebinds i (unit i)
  · unfold unitImage
    simp only [unit]

theorem Matches.of_unit {t t' : Texture} {o : TextureObject} {s : GGLSurface} (h : Matches t o s)
    (unit : t' = { t with
      enable := t'.enable
      env := t'.env
      envColor := t'.envColor }) : Matches t' o s := by
  rw [unit]
  exact ⟨h.surface, h.minFilter, h.magFilter, h.sCoord, h.tCoord, h.sWrap, h.tWrap⟩

theorem inv_units {c c' : Context} (inv : Inv c) (sound : Sound c')
    (heap : c'.textures.heap = c.textures.heap) (tmu : c'.textures.tmu = c.textures.tmu)
    (image : c'.image = c.image)
    (unit : ∀ i, c'.rasterizer.texture i = { c.rasterizer.texture i with
      enable := (c'.rasterizer.texture i).enable
      env := (c'.rasterizer.texture i).env
      envColor := (c'.rasterizer.texture i).envColor }) : Inv c' := by
  refine ⟨sound, fun i clean => ?_⟩
  have object_eq : object c' i = object c i := by
    unfold object
    rw [heap, tmu]
  have image_eq : unitImage c' i = unitImage c i := by
    unfold unitImage
    rw [tmu, image]
  have kept : dirty c i = false := by
    unfold dirty at clean ⊢
    rwa [tmu] at clean
  rw [object_eq, image_eq]
  exact (inv.clean i kept).of_unit (unit i)

/-- The condition on a call: what it changes reaches every unit it is about, and no unit is left
behind with a level, a mode or a surface of before. -/
def Safe (c : Context) : Op → Prop
  | .texture op writes =>
    Inside (.texture op writes) ∧
      (uploads op = true → uploadLevel op ≠ 0 → LevelsSafe c writes)
  | .subImage writes => LevelsSafe c (writes.map fun w => { w with level := w.level + 1 })
  | .texParameter target pname param => ParameterSafe c target pname param
  | .draw mode count prims => DrawSafe c mode count prims
  | .drawTexx w h _ => isEmpty w h = false → Aimed c ∧ LevelsReset c
  | .drawTexi w h _ => RectSafe c (path c w h)
  | _ => True

instance (c : Context) : DecidablePred (Safe c)
  | .enable _ | .disable _ | .texture .. | .subImage _ | .eglImage _ | .texParameter .. | .cropRect ..
  | .fragment _ | .shadeModel _ | .perspectiveHint _ | .cullFace _ | .vertexArray _ | .draw ..
  | .drawTexx .. | .drawTexi .. | .bindDrawSurface .. => by unfold Safe; infer_instance

theorem call_good {c : Context} (inv : Inv c) {op : Op} (safe : Safe c op)
    {result : List Invocation × Context} (h : call c op = some result) : Good result := by
  have silent {d : Option Context} (h : quiet d = some result) :
      d = some result.2 ∧ (Inv result.2 → Good result) := by
    obtain ⟨e, he, rfl⟩ := Option.map_eq_some_iff.mp h
    exact ⟨he, fun inv' => ⟨inv', fun x hx => absurd hx List.not_mem_nil⟩⟩
  have inside : Inside op := by
    cases op with
    | texture op writes => exact safe.1
    | _ => trivial
  have sound := call_sound inv.sound inside h
  have switched (cap : GLenum) (enabled : Bool)
      (h : enableDisable c cap enabled = result.2) : Inv result.2 := by
    obtain ⟨only, unit⟩ := enableDisable_only c cap enabled
    rw [h] at only unit
    refine inv_units inv sound (by rw [only.textures]) (by rw [only.textures]) only.image fun i => ?_
    rw [unit.unit i]
  cases op with
  | enable cap =>
    obtain ⟨eq, good⟩ := silent h
    exact good (switched cap true (Option.some_inj.mp eq))
  | disable cap =>
    obtain ⟨eq, good⟩ := silent h
    exact good (switched cap false (Option.some_inj.mp eq))
  | texture op writes =>
    obtain ⟨eq, good⟩ := silent h
    refine good ?_
    by_cases selects : Frames.Selects op
    · cases op with
      | activeTexture texture =>
        rcases activeTexture_spec safe.1 eq with ⟨eq, -⟩ | ⟨i, -, eq⟩
        · exact inv_units inv sound (by rw [eq]; rfl) (by rw [eq]; rfl) (by rw [eq]; rfl) fun i => by
            rw [eq]
            rfl
        · exact inv_units inv sound (by rw [eq]) (by rw [eq]) (by rw [eq]) fun i => by rw [eq]
      | _ => exact absurd selects id
    · exact inv_texture inv selects safe.2 eq
  | subImage writes =>
    obtain ⟨eq, good⟩ := silent h
    exact good (inv_subImage inv safe eq)
  | eglImage surface =>
    obtain ⟨eq, good⟩ := silent h
    exact good (inv_eglImage inv eq)
  | texParameter target pname param =>
    obtain ⟨eq, good⟩ := silent h
    exact good (inv_texParameter inv safe eq)
  | cropRect target rect =>
    obtain ⟨eq, good⟩ := silent h
    exact good (inv_cropRect inv eq)
  | fragment f =>
    obtain ⟨eq, good⟩ := silent h
    have fragmented := fragmented_apply c.rasterizer f
    have eq := Option.some_inj.mp eq
    refine good (inv_units inv sound (by rw [← eq]) (by rw [← eq]) (by rw [← eq]) fun i => ?_)
    rw [← eq]
    dsimp only
    rw [fragmented.unit i]
  | shadeModel mode | cullFace mode =>
    obtain ⟨eq, good⟩ := silent h
    have eq := Option.some_inj.mp eq
    dsimp only [shadeModel, cullFace] at eq
    refine good ?_
    split_ifs at eq
    · exact inv_units inv sound (by rw [← eq]; rfl) (by rw [← eq]; rfl) (by rw [← eq]; rfl)
        fun i => by rw [← eq]; rfl
    · exact inv_units inv sound (by rw [← eq]) (by rw [← eq]) (by rw [← eq]) fun i => by rw [← eq]
  | perspectiveHint nicest | vertexArray enabled =>
    obtain ⟨eq, good⟩ := silent h
    have eq := Option.some_inj.mp eq
    exact good (inv_units inv sound (by rw [← eq]) (by rw [← eq]) (by rw [← eq]) fun i => by
      rw [← eq])
  | draw mode count prims =>
    rw [← Option.some_inj.mp h]
    exact good_draw inv safe
  | drawTexx w h' new =>
    rw [← Option.some_inj.mp h]
    unfold drawTexxOES
    cases empty : isEmpty w h' with
    | true =>
      rw [if_pos rfl]
      exact ⟨inv, fun x hx => absurd hx List.not_mem_nil⟩
    | false =>
      rw [if_neg Bool.false_ne_true]
      obtain ⟨aimed, reset⟩ := safe empty
      exact good_drawTexxOESImp inv aimed reset new
  | drawTexi w h' new =>
    rw [← Option.some_inj.mp h]
    exact good_drawTexiOES inv w h' new safe
  | bindDrawSurface color depth allocated =>
    obtain ⟨eq, good⟩ := silent h
    have eq := Option.some_inj.mp eq
    have surfaced := surfaced_bind c color depth allocated
    refine good (inv_units inv sound (by rw [← eq]; rfl) (by rw [← eq]; rfl) (by rw [← eq]; rfl)
      fun i => ?_)
    rw [← eq, surfaced.texture]

def SafeIn (c : Option Context) (op : Op) : Prop := ∀ d ∈ c, Safe d op

instance (c : Option Context) (op : Op) : Decidable (SafeIn c op) :=
  inferInstanceAs (Decidable (∀ _ ∈ _, _))

theorem step_inv {c : Option Context} {op : Op} (inv : ∀ d ∈ c, Inv d) (safe : SafeIn c op) :
    ∀ d ∈ step c op, Inv d := by
  intro d reached
  obtain ⟨b, here, stepped⟩ := Option.bind_eq_some_iff.mp reached
  obtain ⟨result, called, rfl⟩ := Option.map_eq_some_iff.mp stepped
  exact (call_good (inv b here) (safe b here) called).inv

theorem init_inv : ∀ c ∈ init, Inv c := by
  intro c here
  obtain ⟨d, made, sound, -, -, marked⟩ := init_sound
  obtain rfl := Option.some_inj.mp (made.symm.trans here)
  exact ⟨sound, fun i clean => absurd ((marked i).symm.trans clean) (by decide)⟩

theorem run_inv {ops pre : List Op} (safe : Guarded step SafeIn init ops) (hpre : pre <+: ops) :
    ∀ c ∈ run step init pre, Inv c := by
  have keeps (c : Option Context) (op : Op) (inv : ∀ d ∈ c, Inv d) (ok : SafeIn c op) :
      ∀ d ∈ step c op, Inv d := step_inv inv ok
  exact run_invariant_prefix keeps init_inv safe hpre

/-- In every run whose calls meet the condition, each invocation of the rasterizer finds in every
enabled unit the surface and the modes of the bound object and of the kind of the primitive. -/
theorem textures_coherent (ops pre : List Op) (op : Op) (safe : Guarded step SafeIn init ops)
    (hpre : pre ++ [op] <+: ops) :
    ∀ c ∈ run step init pre, ∀ r ∈ call c op, ∀ x ∈ r.1, Coherent x.1 x.2 := by
  intro c here r called
  have inv := run_inv safe ((List.prefix_append pre [op]).trans hpre) c here
  exact (call_good inv (safe.next hpre c here) called).coherent

private def texel : Units.TexImage :=
  { target := GL.texture2D, level := 0, internalformat := GL.rgba, width := 1, height := 1,
    border := 0, format := GL.rgba, type := GL.unsignedByte }

private def texelWrite : Image.Write :=
  { level := 0, surface := { width := 1, height := 1, stride := 1, data := 0x1000, format := 1 }
    allocated := true, table := true }

private def texelRun : List Op :=
  [.texture (.texImage2D texel ⟨fun _ => true, true⟩) [texelWrite], .enable GL.texture2D,
    .vertexArray true, .draw GL.triangleFan 3 [{ lod := fun _ => 0, iterators := {} }]]

/-- A triangle, and then a rectangle with the wrap modes of its own. -/
theorem textures_coherent_rect : ∃ c r, run step init texelRun = some c ∧
    call c (.drawTexx 1 1 {}) = some r ∧ r.1.length = 1 ∧ ∀ x ∈ r.1, Coherent x.1 x.2 := by
  have defined : ((run step init texelRun).bind fun c =>
      (call c (.drawTexx 1 1 {})).map fun r => r.1.length) = some 1 := by decide +kernel
  obtain ⟨c, hc, h⟩ := Option.bind_eq_some_iff.mp defined
  obtain ⟨r, hr, one⟩ := Option.map_eq_some_iff.mp h
  exact ⟨c, r, hc, hr, one, textures_coherent (texelRun ++ [.drawTexx 1 1 {}]) texelRun
    (.drawTexx 1 1 {}) (by decide +kernel) (List.prefix_refl _) c hc r hr⟩

/-- The wrap mode of a unit that an invocation for a scaled rectangle finds enabled. -/
private def scaledWrap (x : Invocation) : Option GLenum :=
  match x.1 with
  | .scaled =>
    if (x.2.rasterizer.texture 0).enable then
      some (applied (x.2.rasterizer.texture 0).sCoord (x.2.rasterizer.texture 0).sWrap)
    else none
  | _ => none

/-- Another unit is active when the rectangle is drawn: it gets the wrap modes, and the unit that is
drawn with keeps those of the triangle. -/
theorem rect_wrap_misses : ∃ c r, ∃ x ∈ r.1,
    run step init (texelRun ++ [.texture (.activeTexture (GL.texture0 + 1)) []]) = some c ∧
      call c (.drawTexx 1 1 {}) = some r ∧ ¬Coherent x.1 x.2 := by
  have found : ((run step init (texelRun ++ [.texture (.activeTexture (GL.texture0 + 1)) []])).bind
      fun c => (call c (.drawTexx 1 1 {})).map fun r => r.1.map scaledWrap) =
        some [some GL.repeatWrap] := by decide +kernel
  obtain ⟨c, hc, h⟩ := Option.bind_eq_some_iff.mp found
  obtain ⟨r, hr, one⟩ := Option.map_eq_some_iff.mp h
  obtain ⟨x, only, wrap⟩ := List.map_eq_singleton_iff.mp one
  refine ⟨c, r, x, only ▸ List.mem_singleton_self x, hc, hr, fun coherent => ?_⟩
  unfold scaledWrap at wrap
  split at wrap
  case h_2 => cases wrap
  case h_1 scaled =>
    split_ifs at wrap with on
    have clamp := (coherent 0 on).sWrap
    rw [scaled, Option.some_inj.mp wrap] at clamp
    change GL.repeatWrap = GGL.clamp at clamp
    exact absurd clamp (by decide)

end RabbitRender.Drawing.TextureState
