/- RabbitRender/Drawing/Calls
   layer: proof
   source: swrender/texture.cpp, swrender/array.cpp, swrender/primitives.cpp
   digest: What the drawing calls leave in the rasterizer, and which marks they leave on the units. -/

import RabbitRender.Drawing.Effects
import RabbitRender.Textures.Frames

set_option autoImplicit false

namespace RabbitRender.Drawing.Calls

open RabbitRender.GL (GLenum)
open Pixelflinger
open Pixelflinger.Calls (Masked)
open Pixelflinger.State (GGLSurface Texture)
open Textures
open Textures.Units (TextureObject TextureUnit)
open Drawing.Machine Drawing.Effects

/-- The two contexts agree on the active unit, and the masks of the rasterizer are right. -/
structure Sound (c : Context) : Prop where
  masked : Masked c.rasterizer
  active : c.rasterizer.activeTMU.val = c.textures.active
  held : Frames.Held c.textures
  shade : c.shadeModel = GL.smooth ∨ c.shadeModel = GL.flat

theorem disabled_of_tmus {r : State.Context} (masked : Masked r) (off : r.enables .tmus = false)
    (i : Fin 2) : (r.texture i).enable = false := by
  have none : Calls.unitMask (Calls.enabledUnits r) = 0 := by
    have flag := masked.tmus
    rw [off, eq_comm, decide_eq_false_iff_not, not_not] at flag
    exact masked.mask.symm.trans flag
  have both : Calls.enabledUnits r 0 = false ∧ Calls.enabledUnits r 1 = false := by
    unfold Calls.unitMask at none
    cases first : Calls.enabledUnits r 0 <;> cases second : Calls.enabledUnits r 1 <;>
      simp [first, second] at none ⊢
  have all : ∀ i, Calls.enabledUnits r i = false := Fin.forall_fin_two.mpr both
  exact all i

/-- `Retextured`, with other flags. -/
structure Redrawn (r r' : State.Context) (texture : Fin 2 → Texture) (active : Fin 2)
    (flags : State.Enable → Bool) : Prop where
  eq : r' = { r with
    texture := texture
    activeTMU := active
    enables := Function.update flags .tmus (r'.enables .tmus)
    enabledTmu := r'.enabledTmu
    dirty := r'.dirty
    error := r'.error }
  masked : Masked r → Masked r'

variable {r r' r'' : State.Context} {texture texture' : Fin 2 → Texture} {active active' : Fin 2}
  {flags : State.Enable → Bool}

theorem Flagged.redrawn (h : Flagged r r' flags) (tmus : flags .tmus = r.enables .tmus) :
    Redrawn r r' r.texture r.activeTMU flags := by
  refine ⟨?_, fun masked => ?_⟩
  · have mask : r'.enabledTmu = r.enabledTmu := by rw [h.eq]
    rw [h.enables, Function.update_eq_self, mask]
    exact h.eq
  · rw [h.eq]
    exact ⟨masked.mask, tmus.trans masked.tmus⟩

theorem Retextured.redrawn (h : Retextured r r' texture active) :
    Redrawn r r' texture active r.enables :=
  ⟨h.eq, h.masked⟩

namespace Redrawn

theorem texture_eq (h : Redrawn r r' texture active flags) : r'.texture = texture := by
  rw [h.eq]

theorem active_eq (h : Redrawn r r' texture active flags) : r'.activeTMU = active := by
  rw [h.eq]

theorem flag (h : Redrawn r r' texture active flags) {flag : State.Enable} (other : flag ≠ .tmus) :
    r'.enables flag = flags flag := by
  rw [h.eq]
  exact Function.update_of_ne other _ _

theorem retextured (h : Redrawn r r' texture active flags)
    (h' : Retextured r' r'' texture' active') : Redrawn r r'' texture' active' flags := by
  refine ⟨?_, fun masked => h'.masked (h.masked masked)⟩
  rw [h'.eq, h.eq]
  simp only [Function.update_idem, Function.update_self]

end Redrawn

theorem rectFlags_update (e : State.Enable → Bool) (tmus : Bool) :
    rectFlags (Function.update e .tmus tmus) = Function.update (rectFlags e) .tmus tmus := by
  funext flag
  cases flag <;> rfl

theorem rectFlags_tmus (e : State.Enable → Bool) : rectFlags e .tmus = e .tmus := rfl

theorem redrawn_setRect (h : Retextured r r' texture active) :
    Redrawn r (setRect r') texture active (rectFlags r.enables) := by
  have set := flagged_setRect r'
  have tmus : (setRect r').enables .tmus = r'.enables .tmus := by
    rw [set.enables, rectFlags_tmus]
  refine ⟨?_, fun masked => ((Flagged.redrawn set (rectFlags_tmus _)).masked (h.masked masked))⟩
  rw [tmus, ← rectFlags_update, set.eq, h.eq]
  simp only [Function.update_self]

theorem validated_enable (c : Context) (i : Fin 2) :
    (validated c i).enable = (c.rasterizer.texture i).enable ∨
      (validated c i).enable = false ∧ (unitImage c i).isComplete = false := by
  unfold validated
  split_ifs
  · cases complete : (unitImage c i).isComplete with
    | true =>
      refine .inl ?_
      change ((c.rasterizer.texture i).enable && (unitImage c i).isComplete) = _
      rw [complete, Bool.and_true]
    | false =>
      refine .inr ⟨?_, rfl⟩
      change ((c.rasterizer.texture i).enable && (unitImage c i).isComplete) = _
      rw [complete, Bool.and_false]
  · exact .inl rfl

def antialiased (c : Context) (mode : GLenum) : Bool :=
  if mode = GL.points then c.pointSmooth
  else if mode = GL.lines ∨ mode = GL.lineLoop ∨ mode = GL.lineStrip then c.lineSmooth
  else false

/-- The flags `validate_arrays` sets. -/
def drawFlags (c : Context) (mode : GLenum) : State.Enable → Bool :=
  Function.update
    (Function.update
      (Function.update c.rasterizer.enables .w
        (c.perspective && mode ≠ GL.points && c.rasterizer.enables .tmus))
      .aa (antialiased c mode))
    .smooth (decide ((if mode = GL.points then GL.flat else c.shadeModel) = GL.smooth))

theorem drawFlags_tmus (c : Context) (mode : GLenum) :
    drawFlags c mode .tmus = c.rasterizer.enables .tmus := rfl

private def flagArrays (c : Context) (mode : GLenum) : State.Context :=
  let r := State.enableDisable c.rasterizer GGL.wLerp
    (c.perspective && mode ≠ GL.points && c.rasterizer.enables .tmus)
  let r := if c.rasterizer.enables .aa ≠ antialiased c mode then
      State.enableDisable r GGL.aa (antialiased c mode)
    else r
  State.gglShadeModel r (if mode = GL.points then GL.flat else c.shadeModel)

variable {c : Context} {tmu : Fin 2 → TextureUnit}

private theorem flagged_arrays (sound : Sound c) (mode : GLenum) :
    Flagged c.rasterizer (flagArrays c mode) (drawFlags c mode) := by
  have w : Flagged c.rasterizer (State.enableDisable c.rasterizer GGL.wLerp
      (c.perspective && mode ≠ GL.points && c.rasterizer.enables .tmus)) _ :=
    flagged_enableFlag c.rasterizer .w _
  unfold flagArrays drawFlags
  extract_lets r₁ r₂
  have aa : Flagged r₁ r₂ (Function.update r₁.enables .aa (antialiased c mode)) := by
    by_cases changed : c.rasterizer.enables .aa ≠ antialiased c mode
    · have set : r₂ = State.enableDisable r₁ GGL.aa (antialiased c mode) := if_pos changed
      rw [set]
      exact flagged_enableFlag r₁ .aa (antialiased c mode)
    · have kept : r₂ = r₁ := if_neg changed
      have same : r₁.enables .aa = antialiased c mode := by
        rw [w.enables]
        exact not_not.mp changed
      rw [kept, ← same, Function.update_eq_self]
      exact ⟨rfl⟩
  have valid : (if mode = GL.points then GL.flat else c.shadeModel) = GL.smooth ∨
      (if mode = GL.points then GL.flat else c.shadeModel) = GL.flat := by
    split_ifs
    · exact .inr rfl
    · exact sound.shade
  have all := (w.trans aa).trans (flagged_shadeModel r₂ valid)
  rw [aa.enables, w.enables] at all
  exact all

private theorem validated_of_tmus (masked : Masked c.rasterizer)
    (off : c.rasterizer.enables .tmus = false) :
    validated c = c.rasterizer.texture ∧ cleaned c = c.textures.tmu := by
  constructor
  · funext i
    rw [validated, disabled_of_tmus masked off i, Bool.false_and, if_neg Bool.false_ne_true]
  · funext i
    rw [cleaned, disabled_of_tmus masked off i, if_neg Bool.false_ne_true]

theorem validateArrays_spec (sound : Sound c) (mode : GLenum) :
    ∃ r, Redrawn c.rasterizer r (validated c) c.rasterizer.activeTMU (drawFlags c mode) ∧
      validateArrays c mode = withUnits c r (cleaned c) := by
  have flagged := flagged_arrays sound mode
  have redrawn := Flagged.redrawn flagged (drawFlags_tmus c mode)
  have unfolded : validateArrays c mode =
      if c.rasterizer.enables .tmus then
        validateTexture { c with rasterizer := flagArrays c mode }
      else { c with rasterizer := flagArrays c mode } := rfl
  rw [unfolded]
  cases tmus : c.rasterizer.enables .tmus with
  | false =>
    obtain ⟨textures, units⟩ := validated_of_tmus sound.masked tmus
    rw [if_neg Bool.false_ne_true, textures, units]
    exact ⟨flagArrays c mode, redrawn, rfl⟩
  | true =>
    rw [if_pos rfl]
    have same : validated { c with rasterizer := flagArrays c mode } = validated c ∧
        cleaned { c with rasterizer := flagArrays c mode } = cleaned c := by
      constructor
      · funext i
        unfold validated
        rw [redrawn.texture_eq]
        rfl
      · funext i
        unfold cleaned
        rw [redrawn.texture_eq]
    obtain ⟨r, retextured, eq⟩ := @validateTexture_spec { c with rasterizer := flagArrays c mode }
      c.rasterizer.activeTMU sound.active.symm
    rw [same.1] at retextured
    rw [same.2] at eq
    exact ⟨r, redrawn.retextured retextured, eq⟩

def chosen (c : Context) (mode : GLenum) (lod : Fin 2 → Int) (i : Fin 2) : Texture :=
  let t := c.rasterizer.texture i
  if mode ≠ GL.points ∧ t.enable = true ∧ mipmapped (object c i) = true then
    { t with surface := State.setSurface t.surface ((unitImage c i).mip (lod i)) }
  else t

theorem chosen_enable (c : Context) (mode : GLenum) (lod : Fin 2 → Int) (i : Fin 2) :
    (chosen c mode lod i).enable = (c.rasterizer.texture i).enable := by
  unfold chosen
  dsimp only
  split_ifs <;> rfl

private theorem chooseLevel_eq (c : Context) {mode : GLenum} (lerp : mode ≠ GL.points)
    (lod : Fin 2 → Int) (i : Fin 2) :
    chooseLevel c lod i = { c with
      rasterizer := { c.rasterizer with
        texture := Function.update c.rasterizer.texture i (chosen c mode lod i) } } := by
  unfold chooseLevel chosen
  dsimp only
  cases on : (c.rasterizer.texture i).enable && mipmapped (object c i) with
  | true =>
    rw [Bool.and_eq_true] at on
    rw [if_pos rfl, if_pos ⟨lerp, on.1, on.2⟩]
    rfl
  | false =>
    have not : ¬(mode ≠ GL.points ∧ (c.rasterizer.texture i).enable = true ∧
        mipmapped (object c i) = true) := by
      rintro ⟨-, enabled, wants⟩
      rw [enabled, wants] at on
      cases on
    rw [if_neg Bool.false_ne_true, if_neg not, Function.update_eq_self]

theorem setPrim_eq (masked : Masked c.rasterizer) (mode : GLenum) (p : Prim) :
    setPrim c mode p = { c with
      rasterizer := { c.rasterizer with texture := chosen c mode p.lod }
      iterators := setIterators c.rasterizer c.iterators p.iterators } := by
  have both : (if mode ≠ GL.points ∧ c.rasterizer.enables .tmus = true then
      chooseLevel (chooseLevel c p.lod 0) p.lod 1 else c) =
      { c with rasterizer := { c.rasterizer with texture := chosen c mode p.lod } } := by
    split_ifs with lerp
    · have other : chosen (chooseLevel c p.lod 0) mode p.lod 1 = chosen c mode p.lod 1 := by
        rw [chooseLevel_eq c lerp.1]
        rfl
      have all : Function.update (Function.update c.rasterizer.texture 0 (chosen c mode p.lod 0)) 1
          (chosen c mode p.lod 1) = chosen c mode p.lod := by
        funext i
        fin_cases i <;> rfl
      rw [chooseLevel_eq _ lerp.1, other, chooseLevel_eq c lerp.1]
      simp only [all]
    · have same : chosen c mode p.lod = c.rasterizer.texture := by
        funext i
        refine if_neg ?_
        rintro ⟨triangles, enabled, -⟩
        cases tmus : c.rasterizer.enables .tmus with
        | true => exact lerp ⟨triangles, tmus⟩
        | false =>
          rw [disabled_of_tmus masked tmus i] at enabled
          cases enabled
      rw [same]
  unfold setPrim
  rw [both]
  simp only [setIterators, chosen_enable]

theorem drawPrims_keeps {mode : GLenum} {Inv : Context → Prop}
    (keeps : ∀ c p, Inv c → Inv (setPrim c mode p)) (prims : List Prim) {c : Context} (inv : Inv c) :
    Inv (drawPrims mode c prims).2 ∧
      ∀ x ∈ (drawPrims mode c prims).1, ∃ d p, Inv d ∧ x = (kind mode p, setPrim d mode p) := by
  induction prims generalizing c with
  | nil =>
    rw [drawPrims]
    exact ⟨inv, fun x hx => absurd hx List.not_mem_nil⟩
  | cons p prims ih =>
    obtain ⟨last, each⟩ := ih (keeps c p inv)
    rw [drawPrims]
    refine ⟨last, fun x hx => ?_⟩
    rcases List.mem_cons.mp hx with rfl | later
    · exact ⟨c, p, inv, rfl⟩
    · exact each x later

theorem validated_withUnits {r : State.Context} {i : Fin 2} (unit : tmu i = c.textures.tmu i)
    (texture : r.texture i = c.rasterizer.texture i) :
    validated (withUnits c r tmu) i = validated c i := by
  obtain ⟨object_eq, image_eq⟩ := object_withUnits c r (congrArg TextureUnit.texture unit)
  have dirty_eq : dirty (withUnits c r tmu) i = dirty c i := by
    unfold dirty withUnits
    simp only [unit]
  have texture_eq : (withUnits c r tmu).rasterizer.texture i = c.rasterizer.texture i := texture
  unfold validated
  rw [object_eq, image_eq, dirty_eq, texture_eq]

theorem validated_enable_withUnits {r : State.Context} {i : Fin 2} (unit : tmu i = c.textures.tmu i)
    (enable : (r.texture i).enable = (c.rasterizer.texture i).enable) :
    (validated (withUnits c r tmu) i).enable = (validated c i).enable := by
  obtain ⟨-, image_eq⟩ := object_withUnits c r (congrArg TextureUnit.texture unit)
  have dirty_eq : dirty (withUnits c r tmu) i = dirty c i := by
    unfold dirty withUnits
    simp only [unit]
  have enable_eq : ((withUnits c r tmu).rasterizer.texture i).enable =
      (c.rasterizer.texture i).enable := enable
  have split (c : Context) : (validated c i).enable = (if
      (c.rasterizer.texture i).enable && dirty c i then
        (c.rasterizer.texture i).enable && (unitImage c i).isComplete
      else (c.rasterizer.texture i).enable) := by
    unfold validated
    split_ifs <;> rfl
  rw [split, split, image_eq, dirty_eq, enable_eq]

def clamped (t : Texture) : Texture := { t with sWrap := GGL.clamp, tWrap := GGL.clamp }

def scaled (c : Context) (i : Fin 2) : Texture :=
  if (c.rasterizer.texture i).enable then clamped (validated c i) else c.rasterizer.texture i

def spent (c : Context) (i : Fin 2) : TextureUnit :=
  if (c.rasterizer.texture i).enable then { c.textures.tmu i with dirty := 0xFF }
  else c.textures.tmu i

theorem retextured_clamp (r : State.Context) :
    Retextured r (loadWraps r GGL.clamp GGL.clamp)
      (Function.update r.texture r.activeTMU (clamped (r.texture r.activeTMU))) r.activeTMU :=
  (loads_wraps r GGL.clamp GGL.clamp).retextured fun masked =>
    masked_texParameteri _ _ _ _ (masked_texParameteri _ _ _ _ masked)

structure Prepared (c : Context) (i : Fin 2) (r : State.Context) (texture : Fin 2 → Texture)
    (active : Fin 2) : Prop where
  retextured : Retextured c.rasterizer r texture active
  enable : ∀ j, (texture j).enable =
    (Function.update c.rasterizer.texture i (validated c i) j).enable
  aimed : ((c.rasterizer.texture i).enable = true → dirty c i = true ∨ c.rasterizer.activeTMU = i) →
    texture = Function.update c.rasterizer.texture i (scaled c i) ∧
      active = if (c.rasterizer.texture i).enable then i else c.rasterizer.activeTMU

theorem prepareUnit_spec (c : Context) (i : Fin 2) :
    ∃ r texture active, Prepared c i r texture active ∧
      prepareUnit c i = withUnits c r (Function.update c.textures.tmu i (spent c i)) := by
  unfold prepareUnit
  cases on : (c.rasterizer.texture i).enable with
  | false =>
    refine ⟨c.rasterizer, _, _, ⟨.refl _, fun j => ?_, fun _ => ?_⟩, ?_⟩
    · rw [validated, on, Bool.false_and, if_neg Bool.false_ne_true, Function.update_eq_self]
    · rw [scaled, on, if_neg Bool.false_ne_true, Function.update_eq_self, if_neg Bool.false_ne_true]
      exact ⟨rfl, rfl⟩
    · rw [spent, on, if_neg Bool.false_ne_true, if_neg Bool.false_ne_true, Function.update_eq_self]
      rfl
  | true =>
    obtain ⟨r, retextured, eq⟩ := validateTmu_spec on
    have clamp := retextured.trans (retextured_clamp r)
    rw [retextured.texture_eq, retextured.active_eq] at clamp
    refine ⟨loadWraps r GGL.clamp GGL.clamp, _, _, ⟨clamp, fun j => ?_, fun aimed => ?_⟩, ?_⟩
    · have plain (t : Texture) : (clamped t).enable = t.enable := rfl
      by_cases here : j = if dirty c i then i else c.rasterizer.activeTMU
      · rw [← here, Function.update_self, plain]
      · rw [Function.update_of_ne here]
    · have target : (if dirty c i then i else c.rasterizer.activeTMU) = i := by
        split_ifs with changed
        · rfl
        · exact (aimed on).resolve_left changed
      rw [target, Function.update_self, Function.update_idem, scaled, on, if_pos rfl, if_pos rfl]
      exact ⟨rfl, rfl⟩
    · rw [if_pos rfl, eq, spent, on, if_pos rfl]
      unfold withUnits setDirty
      simp only [Function.update_self, Function.update_idem, cleaned, on, if_pos]

/-- The wrap modes of every enabled unit reach it: it is marked, or it is active when its turn
comes. -/
def Aimed (c : Context) : Prop :=
  ((c.rasterizer.texture 0).enable = true → dirty c 0 = true ∨ c.rasterizer.activeTMU = 0) ∧
    ((c.rasterizer.texture 1).enable = true →
      dirty c 1 = true ∨ c.rasterizer.activeTMU = 1 ∧ (c.rasterizer.texture 0).enable = false)

instance (c : Context) : Decidable (Aimed c) := inferInstanceAs (Decidable (_ ∧ _))

theorem prepareUnits_spec (c : Context) :
    ∃ r texture active, Retextured c.rasterizer r texture active ∧
      (∀ i, (texture i).enable = (validated c i).enable) ∧ (Aimed c → texture = scaled c) ∧
      prepareUnit (prepareUnit c 0) 1 = withUnits c r (spent c) := by
  obtain ⟨r, texture, active, first, eq⟩ := prepareUnit_spec c 0
  obtain ⟨r', texture', active', second, eq'⟩ := prepareUnit_spec (prepareUnit c 0) 1
  have unit : Function.update c.textures.tmu 0 (spent c 0) 1 = c.textures.tmu 1 := rfl
  have enable : (r.texture 1).enable = (c.rasterizer.texture 1).enable := by
    rw [first.retextured.texture_eq, first.enable 1]
    rfl
  rw [eq] at second eq'
  refine ⟨r', texture', active', first.retextured.trans second.retextured, ?_, ?_, ?_⟩
  · refine Fin.forall_fin_two.mpr ⟨?_, ?_⟩
    · have kept := second.enable 0
      rw [Function.update_of_ne (by decide)] at kept
      change _ = (r.texture 0).enable at kept
      rw [kept, first.retextured.texture_eq, first.enable 0, Function.update_self]
    · rw [second.enable 1, Function.update_self, validated_enable_withUnits unit enable]
  · rintro ⟨zero, one⟩
    obtain ⟨loaded, target⟩ := first.aimed zero
    have texture_eq : r.texture 1 = c.rasterizer.texture 1 := by
      rw [first.retextured.texture_eq, loaded]
      rfl
    have same := validated_withUnits unit texture_eq
    have scaled_eq :
        scaled (withUnits c r (Function.update c.textures.tmu 0 (spent c 0))) 1 = scaled c 1 := by
      unfold scaled
      rw [same]
      change (if (r.texture 1).enable = true then _ else r.texture 1) = _
      rw [texture_eq]
    obtain ⟨loaded', -⟩ := second.aimed fun on => by
      have on' : (c.rasterizer.texture 1).enable = true := enable.symm.trans on
      rcases one on' with marked | ⟨here, off⟩
      · exact .inl marked
      · refine .inr ?_
        change r.activeTMU = 1
        rw [first.retextured.active_eq, target, off, if_neg Bool.false_ne_true, here]
    rw [loaded', scaled_eq]
    change Function.update r.texture 1 (scaled c 1) = scaled c
    rw [first.retextured.texture_eq, loaded]
    funext i
    fin_cases i <;> rfl
  · have spent_eq :
        spent (withUnits c r (Function.update c.textures.tmu 0 (spent c 0))) 1 = spent c 1 := by
      unfold spent
      change (if (r.texture 1).enable = true then _ else _) = _
      rw [enable]
      rfl
    have both : Function.update (Function.update c.textures.tmu 0 (spent c 0)) 1 (spent c 1) =
        spent c := by
      funext i
      fin_cases i <;> rfl
    rw [eq, eq', spent_eq]
    change withUnits c r' (Function.update (Function.update c.textures.tmu 0 (spent c 0)) 1
      (spent c 1)) = _
    rw [both]

def scaledIterators (c : Context) (new : Iterators) : Iterators :=
  { rectIterators c.rasterizer c.iterators new with
    coords := fun i =>
      if (c.rasterizer.texture i).enable then new.coords i else c.iterators.coords i }

def rectContext (c : Context) (r : State.Context) (tmu : Fin 2 → TextureUnit)
    (iterators : Iterators) : Context :=
  { withUnits c r tmu with iterators := iterators }

theorem rectIterators_congr (h : Retextured r r' texture active) (old new : Iterators)
    (coords : Fin 2 → Coords) :
    { rectIterators r' old new with coords := coords } =
      { rectIterators r old new with coords := coords } := by
  have depth : r'.enables .depthTest = r.enables .depthTest := h.flag nofun
  have fog : r'.enables .fog = r.enables .fog := h.flag nofun
  simp only [rectIterators, setIterators, depth, fog]

theorem selectActive_spec {c d : Context} (sound : Sound c) {tmu : Fin 2 → TextureUnit}
    (h : Retextured c.rasterizer r texture active) (eq : d = withUnits c r tmu) :
    ∃ r', Retextured c.rasterizer r' texture c.rasterizer.activeTMU ∧
      selectActive d = withUnits c r' tmu := by
  have selected := h.trans (retextured_active r c.rasterizer.activeTMU)
  rw [h.texture_eq] at selected
  refine ⟨_, selected, ?_⟩
  rw [eq, sound.active]
  rfl

theorem drawTexxOESImp_spec (sound : Sound c) (new : Iterators) :
    ∃ r texture,
      Redrawn c.rasterizer r texture c.rasterizer.activeTMU (rectFlags c.rasterizer.enables) ∧
      (∀ i, (texture i).enable = (validated c i).enable) ∧ (Aimed c → texture = scaled c) ∧
      drawTexxOESImp c new =
        ([(.scaled, rectContext c r (spent c) (scaledIterators c new))],
          rectContext c r (spent c) (scaledIterators c new)) := by
  obtain ⟨r, texture, active, prepared, enable, aimed, eq⟩ := prepareUnits_spec c
  obtain ⟨r', selected, eq'⟩ := selectActive_spec sound prepared eq
  refine ⟨setRect r', texture, redrawn_setRect selected, enable, aimed, ?_⟩
  have iterators := rectIterators_congr prepared c.iterators new fun i =>
    if (c.rasterizer.texture i).enable then new.coords i else c.iterators.coords i
  unfold drawTexxOESImp
  dsimp only
  rw [eq', eq]
  have context : rectContext c (setRect r') (spent c)
      { rectIterators r c.iterators new with
        coords := fun i =>
          if (c.rasterizer.texture i).enable then new.coords i else c.iterators.coords i } =
      rectContext c (setRect r') (spent c) (scaledIterators c new) := by
    rw [iterators]
    rfl
  rw [← context]
  rfl

def copied (c : Context) : Texture :=
  let t := c.rasterizer.texture 0
  let t := if dirty c 0 then
      { t with
        surface := State.setSurface t.surface (unitImage c 0).surface
        minFilter := rasterMin t.minFilter (object c 0).minFilter
        magFilter := rasterMag t.magFilter (object c 0).magFilter }
    else t
  { t with sCoord := GGL.oneToOne, tCoord := GGL.oneToOne }

theorem retextured_coords (r : State.Context) (mode : GLenum) :
    Retextured r (loadCoords r mode)
      (Function.update r.texture r.activeTMU
        { r.texture r.activeTMU with sCoord := mode, tCoord := mode }) r.activeTMU :=
  (loads_coords r mode).retextured fun masked =>
    (Calls.changes_texGeni _ _ _ _).masked ((Calls.changes_texGeni _ _ _ _).masked masked)

private theorem retextured_bind (r : State.Context) (i : Fin 2) (o : TextureObject)
    (s : GGLSurface) :
    Retextured r (loadFilters (State.gglBindTexture (State.gglActiveTexture r i.val) s) o)
      (Function.update r.texture i
        { r.texture i with
          surface := State.setSurface (r.texture i).surface s
          minFilter := rasterMin (r.texture i).minFilter o.minFilter
          magFilter := rasterMag (r.texture i).magFilter o.magFilter }) i := by
  have selected := retextured_active r i
  rw [activeTexture_fin] at selected ⊢
  have bound := loads_bindTexture { r with activeTMU := i } s
  have filters := bound.next
    (f := fun t => { t with
      minFilter := rasterMin t.minFilter o.minFilter
      magFilter := rasterMag t.magFilter o.magFilter })
    (loads_filters _ o)
  refine selected.trans (filters.retextured fun masked => ?_)
  exact masked_texParameteri _ _ _ _ (masked_texParameteri _ _ _ _
    ((Calls.changes_bindTexture _ _).masked masked))

def CopyAimed (c : Context) : Prop := dirty c 0 = true ∨ c.rasterizer.activeTMU = 0

instance (c : Context) : Decidable (CopyAimed c) := inferInstanceAs (Decidable (_ ∨ _))

def spentFirst (c : Context) : Fin 2 → TextureUnit :=
  Function.update c.textures.tmu 0 { c.textures.tmu 0 with dirty := 0xFF }

theorem prepareCopy_spec (sound : Sound c) :
    ∃ r texture, Retextured c.rasterizer r texture c.rasterizer.activeTMU ∧
      (∀ i, (texture i).enable = (c.rasterizer.texture i).enable) ∧
      (CopyAimed c → texture = Function.update c.rasterizer.texture 0 (copied c)) ∧
      prepareCopy c = withUnits c r (spentFirst c) := by
  let r := if dirty c 0 then
      loadFilters (State.gglBindTexture (State.gglActiveTexture c.rasterizer 0)
        (unitImage c 0).surface) (object c 0)
    else c.rasterizer
  obtain ⟨texture, active, loaded, enable, aimed⟩ : ∃ texture active,
      Retextured c.rasterizer r texture active ∧
      (∀ i, (texture i).enable = (c.rasterizer.texture i).enable) ∧
      (CopyAimed c → active = 0 ∧ Function.update texture 0
        { texture 0 with sCoord := GGL.oneToOne, tCoord := GGL.oneToOne } =
          Function.update c.rasterizer.texture 0 (copied c)) := by
    unfold CopyAimed copied
    cases changed : dirty c 0 with
    | false =>
      have same : r = c.rasterizer := if_neg (Bool.eq_false_iff.mp changed)
      rw [same]
      exact ⟨_, _, .refl _, fun _ => rfl, fun here => ⟨here.resolve_left Bool.false_ne_true, rfl⟩⟩
    | true =>
      have set : r = _ := if_pos changed
      rw [set]
      refine ⟨_, _, retextured_bind c.rasterizer 0 (object c 0) (unitImage c 0).surface, ?_, ?_⟩
      · intro i
        rw [Function.update_apply]
        split_ifs with here
        · rw [here]
        · rfl
      · refine fun _ => ⟨rfl, ?_⟩
        rw [Function.update_idem, Function.update_self]
        rfl
  have mapped := loaded.trans (retextured_coords r GGL.oneToOne)
  rw [loaded.texture_eq, loaded.active_eq] at mapped
  obtain ⟨r', selected, eq⟩ := @selectActive_spec _ _ _ c _ sound (spentFirst c) mapped rfl
  refine ⟨r', _, selected, fun i => ?_, fun copy => ?_, eq⟩
  · rw [Function.update_apply]
    split_ifs with here
    · rw [here]
      exact enable active
    · exact enable i
  · obtain ⟨zero, same⟩ := aimed copy
    rw [zero]
    exact same

def copiedIterators (c : Context) (new : Iterators) : Iterators :=
  let active := c.rasterizer.activeTMU
  { rectIterators c.rasterizer c.iterators new with
    coords := Function.update c.iterators.coords active
      { c.iterators.coords active with start := (new.coords 0).start, scale := [0, 0] } }

theorem copyTexture_spec (sound : Sound c) (new : Iterators) :
    ∃ r texture,
      Redrawn c.rasterizer r texture c.rasterizer.activeTMU (rectFlags c.rasterizer.enables) ∧
      (∀ i, (texture i).enable = (c.rasterizer.texture i).enable) ∧
      (CopyAimed c → texture = Function.update c.rasterizer.texture 0 (copied c)) ∧
      copyTexture (prepareCopy c) new =
        ([(.copied, rectContext c r (spentFirst c) (copiedIterators c new))],
          rectContext c r (spentFirst c) (copiedIterators c new)) := by
  obtain ⟨r, texture, prepared, enable, aimed, eq⟩ := prepareCopy_spec sound
  refine ⟨setRect r, texture, redrawn_setRect prepared, enable, aimed, ?_⟩
  have iterators := rectIterators_congr prepared c.iterators new (copiedIterators c new).coords
  have context : rectContext c (setRect r) (spentFirst c)
      { rectIterators r c.iterators new with coords := (copiedIterators c new).coords } =
      rectContext c (setRect r) (spentFirst c) (copiedIterators c new) := by
    rw [iterators]
    rfl
  have coords : (copiedIterators c new).coords = Function.update c.iterators.coords r.activeTMU
      { c.iterators.coords r.activeTMU with start := (new.coords 0).start, scale := [0, 0] } := by
    rw [prepared.active_eq]
    rfl
  unfold copyTexture
  rw [eq, ← context, coords]
  rfl

theorem Sound.redrawn (sound : Sound c)
    (h : Redrawn c.rasterizer r texture c.rasterizer.activeTMU flags)
    (units : ∀ i, (tmu i).texture = (c.textures.tmu i).texture) (iterators : Iterators) :
    Sound (rectContext c r tmu iterators) where
  masked := h.masked sound.masked
  active := (congrArg Fin.val h.active_eq).trans sound.active
  held := ⟨sound.held.counts, sound.held.valid, sound.held.named, sound.held.fresh, fun i => by
    obtain ⟨object, bound, live⟩ := sound.held.bound i
    exact ⟨object, (units i).trans bound, live⟩⟩
  shade := sound.shade

theorem spent_texture (c : Context) (i : Fin 2) :
    (spent c i).texture = (c.textures.tmu i).texture := by
  unfold spent
  split_ifs <;> rfl

theorem spentFirst_texture (c : Context) (i : Fin 2) :
    (spentFirst c i).texture = (c.textures.tmu i).texture := by
  fin_cases i <;> rfl

end RabbitRender.Drawing.Calls
