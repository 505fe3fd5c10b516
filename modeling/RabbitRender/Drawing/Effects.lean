/- RabbitRender/Drawing/Effects
   layer: proof
   source: libpixelflinger/pixelflinger.cpp, swrender/texture.cpp, swrender/array.cpp
   digest: What the calls of the rasterizer leave in its texture units and in its enables. -/

import RabbitRender.Drawing.Machine
import RabbitRender.Pixelflinger.Calls

set_option autoImplicit false

namespace RabbitRender.Drawing.Effects

open RabbitRender.GL (GLenum)
open Pixelflinger
open Pixelflinger.State (GGLSurface Texture)
open Textures.Units (TextureObject)
open Drawing.Machine

structure Flagged (r r' : State.Context) (enables : State.Enable → Bool) : Prop where
  eq : r' = { r with enables := enables, dirty := r'.dirty, error := r'.error }

variable {e : State.Enable → Bool} {i : Fin 2} {t : Texture}

theorem Flagged.trans {r r' r'' : State.Context} {e' : State.Enable → Bool} (h : Flagged r r' e)
    (h' : Flagged r' r'' e') : Flagged r r'' e' := by
  constructor
  rw [h'.eq, h.eq]

theorem Flagged.enables {r r' : State.Context} (h : Flagged r r' e) : r'.enables = e := by
  rw [h.eq]

theorem Flagged.texture {r r' : State.Context} (h : Flagged r r' e) : r'.texture = r.texture := by
  rw [h.eq]

theorem flagged_enableFlag (r : State.Context) (flag : State.Enable) (enable : Bool) :
    Flagged r (State.enableFlag r flag enable) (Function.update r.enables flag enable) := by
  constructor
  unfold State.enableFlag
  split_ifs with changed
  · rfl
  · rw [← not_not.mp changed, Function.update_eq_self]

theorem flagged_shadeModel (r : State.Context) {mode : GLenum}
    (valid : mode = GL.smooth ∨ mode = GL.flat) :
    Flagged r (State.gglShadeModel r mode)
      (Function.update r.enables .smooth (decide (mode = GL.smooth))) := by
  rcases valid with rfl | rfl
  · exact flagged_enableFlag r .smooth true
  · exact flagged_enableFlag r .smooth false

def rectFlags (e : State.Enable → Bool) : State.Enable → Bool :=
  Function.update (Function.update (Function.update e .w false) .aa false) .smooth false

theorem flagged_setRect (r : State.Context) : Flagged r (setRect r) (rectFlags r.enables) := by
  have w : Flagged r (State.enableDisable r GGL.wLerp false) _ := flagged_enableFlag r .w false
  have aa : Flagged _ (State.enableDisable (State.enableDisable r GGL.wLerp false) GGL.aa false) _ :=
    flagged_enableFlag (State.enableDisable r GGL.wLerp false) .aa false
  have flat := @flagged_shadeModel
    (State.enableDisable (State.enableDisable r GGL.wLerp false) GGL.aa false) GL.flat (.inr rfl)
  have all := (w.trans aa).trans flat
  rw [aa.enables, w.enables] at all
  exact all

/-- Unit `i` has become `t`, and the textures may be marked. -/
structure Loads (r r' : State.Context) (i : Fin 2) (t : Texture) : Prop where
  eq : r' = { r with texture := Function.update r.texture i t, dirty := r'.dirty, error := r'.error }

theorem Loads.texture {r r' : State.Context} (h : Loads r r' i t) :
    r'.texture = Function.update r.texture i t := by
  rw [h.eq]

theorem Loads.same {r r' : State.Context} (h : Loads r r' i t) : r'.texture i = t := by
  rw [h.texture, Function.update_self]

theorem Loads.active {r r' : State.Context} (h : Loads r r' i t) : r'.activeTMU = r.activeTMU := by
  rw [h.eq]

theorem Loads.refl (r : State.Context) (i : Fin 2) : Loads r r i (r.texture i) := by
  constructor
  rw [Function.update_eq_self]

theorem Loads.trans {r r' r'' : State.Context} {t' : Texture} (h : Loads r r' i t)
    (h' : Loads r' r'' i t') : Loads r r'' i t' := by
  constructor
  rw [h'.eq, h.eq, Function.update_idem]

private theorem loads_setField (r : State.Context) (differs : Bool)
    (same : differs = false → t = State.activeTexture r) :
    Loads r (State.setField r differs t) r.activeTMU t := by
  cases differs with
  | true => exact ⟨rfl⟩
  | false =>
    rw [same rfl]
    exact .refl r r.activeTMU

theorem loads_bindTexture (r : State.Context) (s : GGLSurface) :
    Loads r (State.gglBindTexture r s) r.activeTMU
      { State.activeTexture r with
        surface := State.setSurface (State.activeTexture r).surface s } := by
  unfold State.gglBindTexture
  constructor
  split_ifs <;> rfl

theorem loads_error (r : State.Context) (error : GLenum) :
    Loads r (State.gglError r error) r.activeTMU (State.activeTexture r) := by
  constructor
  rw [State.activeTexture, Function.update_eq_self]
  rfl

def rasterWrap (old wrap : GLenum) : GLenum :=
  let wrap := if wrap = GGL.clampToEdge then GGL.clamp else wrap
  if wrap ∈ [GGL.clamp, GGL.repeatWrap] then wrap else old

def rasterMin (old filter : GLenum) : GLenum :=
  let filter := if filter = GGL.clampToEdge then GGL.clamp else filter
  if filter ∈ [GGL.nearest, GGL.nearestMipmapNearest, GGL.nearestMipmapLinear] then GGL.nearest
  else if filter ∈ [GGL.linear, GGL.linearMipmapNearest, GGL.linearMipmapLinear] then GGL.linear
  else old

def rasterMag (old filter : GLenum) : GLenum :=
  let filter := if filter = GGL.clampToEdge then GGL.clamp else filter
  if filter ∈ [GGL.nearest, GGL.linear] then filter else old

private theorem differs_false {a b : GLenum} (h : decide (a ≠ b) = false) : b = a :=
  (not_not.mp (of_decide_eq_false h)).symm

/-- One value that a setter accepts, before what it does with the others. -/
private theorem loads_ite {r rest : State.Context} {c : Prop} [Decidable c] {old new other : GLenum}
    (change : GLenum → Texture) (kept : change old = State.activeTexture r)
    (h : Loads r rest r.activeTMU (change other)) :
    Loads r (if c then State.setField r (old ≠ new) (change new) else rest) r.activeTMU
      (change (if c then new else other)) := by
  split_ifs
  · refine loads_setField r _ fun same => ?_
    rw [differs_false same, kept]
  · exact h

theorem loads_wrapS (r : State.Context) (wrap : GLenum) :
    Loads r (State.gglTexParameteri r GGL.texture2D GGL.textureWrapS wrap) r.activeTMU
      { State.activeTexture r with sWrap := rasterWrap (State.activeTexture r).sWrap wrap } := by
  unfold State.gglTexParameteri rasterWrap
  simp +decide only [true_and, false_and, if_false]
  exact loads_ite (fun w => { State.activeTexture r with sWrap := w }) rfl (loads_error r _)

theorem loads_wrapT (r : State.Context) (wrap : GLenum) :
    Loads r (State.gglTexParameteri r GGL.texture2D GGL.textureWrapT wrap) r.activeTMU
      { State.activeTexture r with tWrap := rasterWrap (State.activeTexture r).tWrap wrap } := by
  unfold State.gglTexParameteri rasterWrap
  simp +decide only [true_and, false_and, if_false]
  exact loads_ite (fun w => { State.activeTexture r with tWrap := w }) rfl (loads_error r _)

theorem loads_minFilter (r : State.Context) (filter : GLenum) :
    Loads r (State.gglTexParameteri r GGL.texture2D GGL.textureMinFilter filter) r.activeTMU
      { State.activeTexture r with
        minFilter := rasterMin (State.activeTexture r).minFilter filter } := by
  unfold State.gglTexParameteri rasterMin
  simp +decide only [true_and, false_and, if_false]
  let change := fun f => { State.activeTexture r with minFilter := f }
  exact loads_ite change rfl (loads_ite change rfl (loads_error r _))

theorem loads_magFilter (r : State.Context) (filter : GLenum) :
    Loads r (State.gglTexParameteri r GGL.texture2D GGL.textureMagFilter filter) r.activeTMU
      { State.activeTexture r with
        magFilter := rasterMag (State.activeTexture r).magFilter filter } := by
  unfold State.gglTexParameteri rasterMag
  simp +decide only [true_and, false_and, if_false]
  exact loads_ite (fun f => { State.activeTexture r with magFilter := f }) rfl (loads_error r _)

private theorem loads_texGen (r : State.Context) (mode : GLenum) :
    Loads r (State.gglTexGeni r GGL.s GGL.textureGenMode mode) r.activeTMU
      { State.activeTexture r with sCoord := mode } ∧
    Loads r (State.gglTexGeni r GGL.t GGL.textureGenMode mode) r.activeTMU
      { State.activeTexture r with tCoord := mode } := by
  unfold State.gglTexGeni
  constructor
  · rw [if_neg (by decide), if_pos rfl]
    refine loads_setField r _ fun same => ?_
    rw [differs_false same]
  · rw [if_neg (by decide), if_neg (by decide), if_pos rfl]
    refine loads_setField r _ fun same => ?_
    rw [differs_false same]

theorem Loads.next {r r' r'' : State.Context} {f : Texture → Texture} (h : Loads r r' r.activeTMU t)
    (h' : Loads r' r'' r'.activeTMU (f (State.activeTexture r'))) :
    Loads r r'' r.activeTMU (f t) := by
  have found : State.activeTexture r' = t := by
    rw [State.activeTexture, h.active, h.same]
  rw [found, h.active] at h'
  exact h.trans h'

theorem loads_coords (r : State.Context) (mode : GLenum) :
    Loads r (loadCoords r mode) r.activeTMU
      { State.activeTexture r with sCoord := mode, tCoord := mode } :=
  (loads_texGen r mode).1.next (f := fun t => { t with tCoord := mode }) (loads_texGen _ mode).2

theorem loads_wraps (r : State.Context) (wraps wrapt : GLenum) :
    Loads r (loadWraps r wraps wrapt) r.activeTMU
      { State.activeTexture r with
        sWrap := rasterWrap (State.activeTexture r).sWrap wraps
        tWrap := rasterWrap (State.activeTexture r).tWrap wrapt } :=
  (loads_wrapS r wraps).next (f := fun t => { t with tWrap := rasterWrap t.tWrap wrapt })
    (loads_wrapT _ wrapt)

theorem loads_filters (r : State.Context) (o : TextureObject) :
    Loads r (loadFilters r o) r.activeTMU
      { State.activeTexture r with
        minFilter := rasterMin (State.activeTexture r).minFilter o.minFilter
        magFilter := rasterMag (State.activeTexture r).magFilter o.magFilter } :=
  (loads_minFilter r o.minFilter).next
    (f := fun t => { t with magFilter := rasterMag t.magFilter o.magFilter })
    (loads_magFilter _ o.magFilter)

/-- A unit as `validate_tmu` leaves it, but for its enable. -/
def loaded (t : Texture) (o : TextureObject) (im : Image) : Texture :=
  { t with
    surface := State.setSurface t.surface im.surface
    sCoord := GGL.automatic
    tCoord := GGL.automatic
    sWrap := rasterWrap t.sWrap o.wraps
    tWrap := rasterWrap t.tWrap o.wrapt
    minFilter := rasterMin t.minFilter o.minFilter
    magFilter := rasterMag t.magFilter o.magFilter }

theorem activeTexture_fin (r : State.Context) (i : Fin 2) :
    State.gglActiveTexture r i.val = { r with activeTMU := i } := by
  unfold State.gglActiveTexture
  rw [dif_pos i.isLt]

theorem loads_unit (r : State.Context) (i : Fin 2) (o : TextureObject) (im : Image) :
    Loads { r with activeTMU := i }
      (loadFilters (loadWraps (loadCoords (State.gglBindTexture (State.gglActiveTexture r i.val)
        im.surface) GGL.automatic) o.wraps o.wrapt) o) i (loaded (r.texture i) o im) := by
  rw [activeTexture_fin]
  have bound := loads_bindTexture { r with activeTMU := i } im.surface
  have coords := bound.next
    (f := fun t => { t with sCoord := GGL.automatic, tCoord := GGL.automatic })
    (loads_coords _ GGL.automatic)
  have wraps := coords.next
    (f := fun t => { t with sWrap := rasterWrap t.sWrap o.wraps, tWrap := rasterWrap t.tWrap o.wrapt })
    (loads_wraps _ o.wraps o.wrapt)
  exact wraps.next
    (f := fun t => { t with
      minFilter := rasterMin t.minFilter o.minFilter
      magFilter := rasterMag t.magFilter o.magFilter })
    (loads_filters _ o)

/-- The texture units are these, this one is active, and the mask of the enabled units follows. -/
structure Retextured (r r' : State.Context) (texture : Fin 2 → Texture) (active : Fin 2) :
    Prop where
  eq : r' = { r with
    texture := texture
    activeTMU := active
    enables := Function.update r.enables .tmus (r'.enables .tmus)
    enabledTmu := r'.enabledTmu
    dirty := r'.dirty
    error := r'.error }
  masked : Calls.Masked r → Calls.Masked r'

namespace Retextured

variable {r r' r'' : State.Context} {texture texture' : Fin 2 → Texture} {active active' : Fin 2}

theorem refl (r : State.Context) : Retextured r r r.texture r.activeTMU :=
  ⟨by rw [Function.update_eq_self], id⟩

theorem trans (h : Retextured r r' texture active) (h' : Retextured r' r'' texture' active') :
    Retextured r r'' texture' active' := by
  refine ⟨?_, fun masked => h'.masked (h.masked masked)⟩
  rw [h'.eq, h.eq]
  simp only [Function.update_idem, Function.update_self]

theorem texture_eq (h : Retextured r r' texture active) : r'.texture = texture := by
  rw [h.eq]

theorem active_eq (h : Retextured r r' texture active) : r'.activeTMU = active := by
  rw [h.eq]

theorem flag (h : Retextured r r' texture active) {flag : State.Enable} (other : flag ≠ .tmus) :
    r'.enables flag = r.enables flag := by
  rw [h.eq]
  exact Function.update_of_ne other _ _

end Retextured

theorem retextured_active (r : State.Context) (i : Fin 2) :
    Retextured r (State.gglActiveTexture r i.val) r.texture i := by
  refine ⟨?_, (Calls.changes_activeTexture r i.val).masked⟩
  rw [activeTexture_fin, Function.update_eq_self]

variable {i : Fin 2}

theorem Loads.retextured {r r' : State.Context} {t : Texture} (h : Loads r r' i t)
    (masked : Calls.Masked r → Calls.Masked r') :
    Retextured r r' (Function.update r.texture i t) r.activeTMU := by
  refine ⟨?_, masked⟩
  rw [h.eq]
  simp only [Function.update_eq_self]

theorem retextured_enable (r : State.Context) (enable : Bool) :
    Retextured r (State.gglEnableTexture2d r enable)
      (Function.update r.texture r.activeTMU { r.texture r.activeTMU with enable := enable })
      r.activeTMU := by
  refine ⟨?_, (Calls.changes_enableTexture2d r enable).masked⟩
  unfold State.gglEnableTexture2d
  split_ifs with changed
  · simp only [State.stateChanged, State.setActive, Function.update_self, State.activeTexture]
  · have same : (r.texture r.activeTMU) = { r.texture r.activeTMU with enable := enable } := by
      have kept : (r.texture r.activeTMU).enable = enable := not_not.mp changed
      rw [← kept]
    rw [← same, Function.update_eq_self, Function.update_eq_self]

theorem retextured_disable (r : State.Context) :
    Retextured r (State.enableDisable r GGL.texture2D false)
      (Function.update r.texture r.activeTMU { r.texture r.activeTMU with enable := false })
      r.activeTMU :=
  retextured_enable r false

theorem masked_texParameteri (r : State.Context) (target pname param : GLenum) :
    Calls.Masked r → Calls.Masked (State.gglTexParameteri r target pname param) :=
  (Calls.changes_texParameteri r target pname param).masked

/-- A unit as `validate_tmu` leaves it. -/
def validatedTexture (t : Texture) (o : TextureObject) (im : Image) : Texture :=
  { loaded t o im with enable := t.enable && im.isComplete }

theorem retextured_loadUnit (r : State.Context) (i : Fin 2) (o : TextureObject) (im : Image) :
    Retextured r (loadUnit r i o im)
      (Function.update r.texture i (validatedTexture (r.texture i) o im)) i := by
  have selected := retextured_active r i
  rw [activeTexture_fin] at selected
  have loading := (loads_unit r i o im).retextured fun masked => by
    rw [activeTexture_fin]
    exact masked_texParameteri _ _ _ _ (masked_texParameteri _ _ _ _
      (masked_texParameteri _ _ _ _ (masked_texParameteri _ _ _ _
        ((Calls.changes_texGeni _ _ _ _).masked ((Calls.changes_texGeni _ _ _ _).masked
          ((Calls.changes_bindTexture _ _).masked masked))))))
  have up := selected.trans loading
  unfold loadUnit validatedTexture
  dsimp only
  split_ifs with complete
  · rw [complete, Bool.and_true]
    exact up
  · have off : im.isComplete = false := Bool.eq_false_iff.mpr complete
    have down := up.trans (retextured_disable _)
    rw [up.texture_eq, up.active_eq, Function.update_self, Function.update_idem] at down
    rw [off, Bool.and_false]
    exact down

/-- Unit `i` after `validate_tmu`, when it is enabled. -/
def validated (c : Context) (i : Fin 2) : Texture :=
  if (c.rasterizer.texture i).enable && dirty c i then
    validatedTexture (c.rasterizer.texture i) (object c i) (unitImage c i)
  else c.rasterizer.texture i

/-- Other units and other texture units of the rasterizer; the rest is as before. -/
def withUnits (c : Context) (r : State.Context) (tmu : Fin 2 → Textures.Units.TextureUnit) :
    Context :=
  { c with rasterizer := r, textures := { c.textures with tmu := tmu } }

def cleaned (c : Context) (i : Fin 2) : Textures.Units.TextureUnit :=
  if (c.rasterizer.texture i).enable then { c.textures.tmu i with dirty := 0 } else c.textures.tmu i

theorem clean_unit {c : Context} (clean : dirty c i = false) :
    { c.textures.tmu i with dirty := 0 } = c.textures.tmu i := by
  have zero : (c.textures.tmu i).dirty = 0 := by simpa [dirty] using clean
  rw [← zero]

theorem validateTmu_spec {c : Context} (on : (c.rasterizer.texture i).enable = true) :
    ∃ r, Retextured c.rasterizer r (Function.update c.rasterizer.texture i (validated c i))
        (if dirty c i then i else c.rasterizer.activeTMU) ∧
      validateTmu c i = withUnits c r (Function.update c.textures.tmu i (cleaned c i)) := by
  unfold validateTmu validated cleaned
  rw [on, Bool.true_and, if_pos rfl]
  cases changed : dirty c i with
  | false =>
    refine ⟨c.rasterizer, ?_, ?_⟩
    · rw [if_neg Bool.false_ne_true, if_neg Bool.false_ne_true, Function.update_eq_self]
      exact .refl _
    · rw [if_neg Bool.false_ne_true, clean_unit changed, Function.update_eq_self]
      rfl
  | true =>
    refine ⟨loadUnit c.rasterizer i (object c i) (unitImage c i), ?_, ?_⟩
    · rw [if_pos rfl, if_pos rfl]
      exact retextured_loadUnit _ _ _ _
    · rw [if_pos rfl]
      rfl

theorem validateEnabled_spec (c : Context) (i : Fin 2) :
    ∃ r active, Retextured c.rasterizer r
        (Function.update c.rasterizer.texture i (validated c i)) active ∧
      validateEnabled c i = withUnits c r (Function.update c.textures.tmu i (cleaned c i)) := by
  unfold validateEnabled
  cases on : (c.rasterizer.texture i).enable with
  | false =>
    refine ⟨c.rasterizer, c.rasterizer.activeTMU, ?_, ?_⟩
    · rw [validated, on, Bool.false_and, if_neg Bool.false_ne_true, Function.update_eq_self]
      exact .refl _
    · rw [cleaned, on, if_neg Bool.false_ne_true, if_neg Bool.false_ne_true,
        Function.update_eq_self]
      rfl
  | true =>
    rw [if_pos rfl]
    obtain ⟨r, retextured, eq⟩ := validateTmu_spec on
    exact ⟨r, _, retextured, eq⟩

theorem object_withUnits (c : Context) (r : State.Context) {tmu : Fin 2 → Textures.Units.TextureUnit}
    {i : Fin 2} (texture : (tmu i).texture = (c.textures.tmu i).texture) :
    object (withUnits c r tmu) i = object c i ∧ unitImage (withUnits c r tmu) i = unitImage c i := by
  unfold object unitImage withUnits
  simp only [texture, and_self]

theorem cleaned_texture (c : Context) (i : Fin 2) :
    (cleaned c i).texture = (c.textures.tmu i).texture := by
  unfold cleaned
  split_ifs <;> rfl

theorem validateTexture_spec {c : Context} {a : Fin 2} (active : c.textures.active = a.val) :
    ∃ r, Retextured c.rasterizer r (validated c) a ∧
      validateTexture c = withUnits c r (cleaned c) := by
  obtain ⟨r, b, first, eq⟩ := validateEnabled_spec c 0
  obtain ⟨r', b', second, eq'⟩ := validateEnabled_spec (validateEnabled c 0) 1
  have unit : (validateEnabled c 0).textures.tmu = Function.update c.textures.tmu 0 (cleaned c 0) := by
    rw [eq]
    rfl
  have texture : (validateEnabled c 0).rasterizer.texture =
      Function.update c.rasterizer.texture 0 (validated c 0) := by
    rw [eq]
    exact first.texture_eq
  have other : validated (validateEnabled c 0) 1 = validated c 1 := by
    have dirty_eq : dirty (validateEnabled c 0) 1 = dirty c 1 := by
      unfold dirty
      rw [unit]
      rfl
    obtain ⟨object_eq, image_eq⟩ :=
      @object_withUnits c r (Function.update c.textures.tmu 0 (cleaned c 0)) 1 rfl
    rw [← eq] at object_eq image_eq
    unfold validated
    rw [texture, dirty_eq, object_eq, image_eq]
    rfl
  have other' : cleaned (validateEnabled c 0) 1 = cleaned c 1 := by
    unfold cleaned
    rw [texture, unit]
    rfl
  have both {β : Fin 2 → Type} (f g : (i : Fin 2) → β i) :
      Function.update (Function.update f 0 (g 0)) 1 (g 1) = g := by
    funext i
    fin_cases i <;> rfl
  have selected := retextured_active r' a
  rw [second.texture_eq, texture, other, both] at selected
  have rasterizer : (validateEnabled c 0).rasterizer = r := by
    rw [eq]
    rfl
  rw [rasterizer] at second
  refine ⟨State.gglActiveTexture r' a.val, (first.trans second).trans selected, ?_⟩
  unfold validateTexture selectActive
  rw [eq', other', unit, both, eq]
  change { withUnits c r' (cleaned c) with
    rasterizer := State.gglActiveTexture r' c.textures.active } = _
  rw [active]
  rfl

end RabbitRender.Drawing.Effects
