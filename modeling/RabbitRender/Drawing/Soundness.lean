/- RabbitRender/Drawing/Soundness
   layer: proof
   source: swrender/state.cpp, swrender/texture.cpp, libpixelflinger/pixelflinger.cpp
   digest: What the other calls leave, and that every call keeps the invariant of every run. -/

import RabbitRender.Drawing.Calls

set_option autoImplicit false

namespace RabbitRender.Drawing.Soundness

open RabbitRender.GL (GLenum)
open Pixelflinger
open Pixelflinger.Calls (Masked)
open Pixelflinger.State (GGLSurface Texture)
open Textures
open Textures.Units (ObjectId TextureObject unitIndex)
open Drawing.Machine Drawing.Effects Drawing.Calls

structure Fragmented (r r' : State.Context) : Prop where
  unit : ∀ i, r'.texture i =
    { r.texture i with env := (r'.texture i).env, envColor := (r'.texture i).envColor }
  active : r'.activeTMU = r.activeTMU
  flag : ∀ flag, flag ≠ .pointAaNice → r'.enables flag = r.enables flag
  depth : r'.depth = r.depth
  masked : Masked r → Masked r'

variable {r : State.Context} {c c' : Context} {writes : List Image.Write}
    {pname param target : GLenum}

private theorem fragmented_frame {r' : State.Context} (texture : r'.texture = r.texture)
    (active : r'.activeTMU = r.activeTMU) (enables : r'.enables = r.enables)
    (depth : r'.depth = r.depth) (masked : Masked r → Masked r') : Fragmented r r' :=
  ⟨fun i => by rw [texture], active, fun _ _ => by rw [enables], depth, masked⟩

private theorem fragmented_loads {r' : State.Context} {t : Texture} (h : Loads r r' r.activeTMU t)
    (unit : t = { State.activeTexture r with env := t.env, envColor := t.envColor })
    (masked : Masked r → Masked r') : Fragmented r r' := by
  refine ⟨fun i => ?_, h.active, fun _ _ => by rw [h.eq], by rw [h.eq], masked⟩
  by_cases here : i = r.activeTMU
  · rw [here, h.same]
    exact unit
  · rw [h.texture, Function.update_of_ne here]

theorem fragmented_apply (r : State.Context) (f : FragmentCall) : Fragmented r (f.apply r) := by
  cases f with
  | scissor x y width height =>
    exact fragmented_frame rfl rfl rfl rfl (Calls.changes_scissor r x y width height).masked
  | blendFunc src dst =>
    have masked := (Calls.changes_setBlend r
      { src := src, dst := dst, srcAlpha := src, dstAlpha := dst, alphaSeparate := false }).masked
    simp only [FragmentCall.apply, State.gglBlendFunc, State.setBlend] at masked ⊢
    split_ifs at masked ⊢ <;> exact fragmented_frame rfl rfl rfl rfl masked
  | alphaFunc func ref =>
    have masked := (Calls.changes_alphaFuncx r func ref).masked
    simp only [FragmentCall.apply, State.gglAlphaFuncx] at masked ⊢
    split_ifs at masked ⊢ <;> exact fragmented_frame rfl rfl rfl rfl masked
  | depthFunc func =>
    have masked := (Calls.changes_depthFunc r func).masked
    simp only [FragmentCall.apply, State.gglDepthFunc] at masked ⊢
    split_ifs at masked ⊢ <;> exact fragmented_frame rfl rfl rfl rfl masked
  | logicOp opcode =>
    have masked := (Calls.changes_logicOp r opcode).masked
    simp only [FragmentCall.apply, State.gglLogicOp] at masked ⊢
    split_ifs at masked ⊢ <;> exact fragmented_frame rfl rfl rfl rfl masked
  | colorMask red green blue alpha =>
    have masked := (Calls.changes_colorMask r red green blue alpha).masked
    simp only [FragmentCall.apply, State.gglColorMask] at masked ⊢
    split_ifs at masked ⊢ <;> exact fragmented_frame rfl rfl rfl rfl masked
  | depthMask flag =>
    have masked := (Calls.changes_depthMask r flag).masked
    simp only [FragmentCall.apply, State.gglDepthMask] at masked ⊢
    split_ifs at masked ⊢ <;> exact fragmented_frame rfl rfl rfl rfl masked
  | stencilMask mask =>
    have masked := (Calls.changes_stencilMask r mask).masked
    simp only [FragmentCall.apply, State.gglStencilMask] at masked ⊢
    split_ifs at masked ⊢ <;> exact fragmented_frame rfl rfl rfl rfl masked
  | pointSmoothHint nicest =>
    have flagged := flagged_enableFlag r .pointAaNice nicest
    have masked := (Calls.changes_enableDisable r GGL.pointSmoothNice nicest).masked
    have call : FragmentCall.apply r (.pointSmoothHint nicest) =
        State.enableFlag r .pointAaNice nicest := rfl
    rw [call]
    refine ⟨fun i => by rw [flagged.texture], by rw [flagged.eq], fun flag other => ?_,
      by rw [flagged.eq], masked⟩
    rw [flagged.enables, Function.update_of_ne other]
  | texEnv target pname param =>
    have masked := (Calls.changes_texEnvi r target pname param).masked
    simp only [FragmentCall.apply, State.gglTexEnvi] at masked ⊢
    split_ifs at masked ⊢
    · exact fragmented_frame rfl rfl rfl rfl masked
    · refine fragmented_loads (t := { State.activeTexture r with env := param }) ?_ rfl masked
      unfold State.setField
      split_ifs with differs
      · exact ⟨rfl⟩
      · have same : (State.activeTexture r).env = param :=
          not_not.mp (of_decide_eq_false (Bool.eq_false_iff.mpr differs))
        rw [← same]
        exact .refl r r.activeTMU
    · exact fragmented_frame rfl rfl rfl rfl masked
  | texEnvColor red green blue alpha =>
    exact fragmented_loads ⟨rfl⟩ rfl (Calls.changes_texEnvColor r red green blue alpha).masked

def depthTest (r : State.Context) (depth : GGLSurface) : Bool :=
  if depth.data ≠ r.depth.data ∧ depth.format ≠ Format.z16 then false else r.enables .depthTest

structure Surfaced (r r' : State.Context) (depth : GGLSurface) : Prop where
  texture : r'.texture = r.texture
  active : r'.activeTMU = r.activeTMU
  enables : r'.enables = Function.update r.enables .depthTest (depthTest r depth)
  masked : Masked r → Masked r'

theorem surfaced_bind (c : Context) (color depth : GGLSurface) (allocated : Bool) :
    Surfaced c.rasterizer (bindDrawSurface c color depth allocated).rasterizer depth := by
  have color_enables : (State.gglColorBuffer c.rasterizer color allocated).enables =
      c.rasterizer.enables := by
    unfold State.gglColorBuffer
    dsimp only
    split_ifs <;> rfl
  have color_texture : (State.gglColorBuffer c.rasterizer color allocated).texture =
      c.rasterizer.texture := by
    unfold State.gglColorBuffer
    dsimp only
    split_ifs <;> rfl
  have color_active : (State.gglColorBuffer c.rasterizer color allocated).activeTMU =
      c.rasterizer.activeTMU := by
    unfold State.gglColorBuffer
    dsimp only
    split_ifs <;> rfl
  have color_depth : (State.gglColorBuffer c.rasterizer color allocated).depth =
      c.rasterizer.depth := by
    unfold State.gglColorBuffer
    dsimp only
    split_ifs <;> rfl
  have color_masked := (Calls.changes_colorBuffer c.rasterizer color allocated).masked
  have unfolded : (bindDrawSurface c color depth allocated).rasterizer =
      if depth.data ≠ (State.gglColorBuffer c.rasterizer color allocated).depth.data then
        State.gglDepthBuffer (State.gglColorBuffer c.rasterizer color allocated) depth
      else State.gglColorBuffer c.rasterizer color allocated := rfl
  rw [unfolded, color_depth]
  generalize State.gglColorBuffer c.rasterizer color allocated = r at *
  by_cases changed : depth.data ≠ c.rasterizer.depth.data
  · rw [if_pos changed]
    have masked := (Calls.changes_depthBuffer r depth).masked
    unfold State.gglDepthBuffer at masked ⊢
    by_cases has : depth.format = Format.z16
    · rw [if_pos has] at masked ⊢
      refine ⟨color_texture, color_active, ?_, fun ok => masked (color_masked ok)⟩
      have kept : depthTest c.rasterizer depth = c.rasterizer.enables .depthTest :=
        if_neg fun h => h.2 has
      rw [kept, Function.update_eq_self]
      exact color_enables
    · rw [if_neg has] at masked ⊢
      have cleared : depthTest c.rasterizer depth = false := if_pos ⟨changed, has⟩
      have off : State.gglEnableDepthTest
          { r with depth := { r.depth with format := Format.none } } false =
          State.enableFlag { r with depth := { r.depth with format := Format.none } } .depthTest
            false := rfl
      have flagged := flagged_enableFlag
        { r with depth := { r.depth with format := Format.none } } .depthTest false
      refine ⟨?_, ?_, ?_, fun ok => masked (color_masked ok)⟩
      · rw [off, flagged.texture]
        exact color_texture
      · rw [off, flagged.eq]
        exact color_active
      · rw [off, flagged.enables, cleared, ← color_enables]
  · rw [if_neg changed]
    refine ⟨color_texture, color_active, ?_, color_masked⟩
    have kept : depthTest c.rasterizer depth = c.rasterizer.enables .depthTest :=
      if_neg fun h => changed h.1
    rw [kept, Function.update_eq_self]
    exact color_enables

structure Stored (c c' : Context) : Prop where
  eq : c' = { c with textures := c'.textures, image := c'.image }
  held : Frames.Held c'.textures
  active : c'.textures.active = c.textures.active

theorem stored_error (held : Frames.Held c.textures) (error : GLenum) :
    Stored c (oglesError c error) :=
  ⟨rfl, (Frames.rebinds_error held error).held, rfl⟩

theorem editObject_spec {f : TextureObject → TextureObject} (h : editObject c f = some c') :
    ∃ i object, unitIndex c.textures.active = some i ∧ (c.textures.tmu i).texture = some object ∧
      c' = { c with
        textures := { c.textures with
          heap := Function.update c.textures.heap object ((c.textures.heap object).map f) } } := by
  obtain ⟨i, index, edit⟩ := Option.bind_eq_some_iff.mp h
  obtain ⟨object, bound, rfl⟩ := Option.map_eq_some_iff.mp edit
  exact ⟨i, object, index, bound, rfl⟩

theorem editImage_spec {f : Image → Image} (h : editImage c f = some c') :
    ∃ i object, unitIndex c.textures.active = some i ∧ (c.textures.tmu i).texture = some object ∧
      c' = { c with image := Function.update c.image object (f (c.image object)) } := by
  obtain ⟨i, index, edit⟩ := Option.bind_eq_some_iff.mp h
  obtain ⟨object, bound, rfl⟩ := Option.map_eq_some_iff.mp edit
  exact ⟨i, object, index, bound, rfl⟩

/-- The images after a call, and the object that was written when there is one. -/
inductive Written (c : Context) (t : Units.Context) (writes : List Image.Write) :
    Bool → (ObjectId → Image) → Prop
  | kept : Written c t writes false c.image
  | written {i : Fin 2} {object : ObjectId} (index : unitIndex t.active = some i)
      (bound : (t.tmu i).texture = some object) :
      Written c t writes true
        (Function.update c.image object (writes.foldl Image.reallocate (c.image object)))

theorem textureCall_spec {op : Coherence.Op} (other : ¬Frames.Selects op)
    (h : textureCall c op writes = some c') :
    ∃ t image, Coherence.call c.textures op = some t ∧
      Written c t writes (uploads op) image ∧ c' = { c with textures := t, image := image } := by
  obtain ⟨t, called, h⟩ := Option.bind_eq_some_iff.mp h
  have past : (if uploads op then upload { c with textures := t } writes
      else some { c with textures := t }) = some c' := by
    cases op with
    | activeTexture texture => exact absurd trivial other
    | _ => exact h
  cases up : uploads op with
  | false =>
    rw [up, if_neg Bool.false_ne_true] at past
    obtain rfl := Option.some_inj.mp past
    exact ⟨t, c.image, called, .kept, rfl⟩
  | true =>
    rw [up, if_pos rfl] at past
    obtain ⟨i, object, index, bound, rfl⟩ := editImage_spec past
    exact ⟨t, _, called, .written index bound, rfl⟩

theorem stored_texture {op : Coherence.Op} (held : Frames.Held c.textures)
    (other : ¬Frames.Selects op) (h : textureCall c op writes = some c') : Stored c c' := by
  obtain ⟨t, image, called, -, rfl⟩ := textureCall_spec other h
  have rebinds := Frames.call_rebinds held other called
  exact ⟨rfl, rebinds.held, rebinds.active⟩

theorem upload_spec (h : upload c writes = some c') :
    ∃ i object, unitIndex c.textures.active = some i ∧ (c.textures.tmu i).texture = some object ∧
      c' = { c with
        image := Function.update c.image object (writes.foldl Image.reallocate (c.image object)) } :=
  editImage_spec h

theorem eglImage_spec (held : Frames.Held c.textures) {surface : GGLSurface}
    (h : eglImage c surface = some c') :
    ∃ t i object, Frames.Rebinds c.textures t ∧ Frames.ActiveMarked t ∧
      unitIndex t.active = some i ∧ (t.tmu i).texture = some object ∧
      c' = { c with
        textures := t
        image := Function.update c.image object
          { surface := surface, mipmaps := [], isComplete := true } } := by
  obtain ⟨⟨d, object⟩, bound, h⟩ := Option.bind_eq_some_iff.mp h
  obtain ⟨e, edited, h⟩ := Option.bind_eq_some_iff.mp h
  obtain ⟨rebinds, marked, i, index, texture⟩ := Frames.getAndBind_spec held bound
  obtain ⟨j, object', index', texture', rfl⟩ := editObject_spec edited
  obtain ⟨k, object'', index'', texture'', rfl⟩ := editImage_spec h
  have edit := @Frames.rebinds_edit d rebinds.held object'
    (fun o => { o with internalformat := 0, cropRect := (0, 0, 0, 0), generateMipmap := 0, direct := 1 })
    (fun _ => rfl) (fun _ => rfl)
  exact ⟨_, k, object'', rebinds.trans edit, marked, index'', texture'', rfl⟩

theorem stored_eglImage (held : Frames.Held c.textures) {surface : GGLSurface}
    (h : eglImage c surface = some c') : Stored c c' := by
  obtain ⟨t, i, object, rebinds, -, -, -, rfl⟩ := eglImage_spec held h
  exact ⟨rfl, rebinds.held, rebinds.active⟩

theorem setParameter_valid {o o' : TextureObject} (h : setParameter o pname param = some o') :
    o'.mCount = o.mCount ∧ (Frames.Valid o → Frames.Valid o') := by
  unfold setParameter at h
  split_ifs at h with wrapS valid wrapT valid min valid mag valid generate
  · obtain rfl := Option.some_inj.mp h
    refine ⟨rfl, fun old => ⟨?_, old.wrapt, old.minFilter, old.magFilter⟩⟩
    simpa using valid
  · obtain rfl := Option.some_inj.mp h
    refine ⟨rfl, fun old => ⟨old.wraps, ?_, old.minFilter, old.magFilter⟩⟩
    simpa using valid
  · obtain rfl := Option.some_inj.mp h
    exact ⟨rfl, fun old => ⟨old.wraps, old.wrapt, valid, old.magFilter⟩⟩
  · obtain rfl := Option.some_inj.mp h
    refine ⟨rfl, fun old => ⟨old.wraps, old.wrapt, old.minFilter, ?_⟩⟩
    simpa using valid
  · obtain rfl := Option.some_inj.mp h
    exact ⟨rfl, fun old => ⟨old.wraps, old.wrapt, old.minFilter, old.magFilter⟩⟩

def withParameter (pname param : GLenum) (o : TextureObject) : TextureObject :=
  (setParameter o pname param).getD o

theorem withParameter_valid (pname param : GLenum) (o : TextureObject) :
    (withParameter pname param o).mCount = o.mCount ∧
      (Frames.Valid o → Frames.Valid (withParameter pname param o)) := by
  unfold withParameter
  rcases set : setParameter o pname param with _ | o'
  · exact ⟨rfl, id⟩
  · exact setParameter_valid set

/-- The context with a parameter of the object of unit `i` set. -/
def parameterContext (c : Context) (i : Fin 2) (object : ObjectId) (pname param : GLenum) :
    Context :=
  { c with
    textures := Units.invalidateTexture { c.textures with
      heap := Function.update c.textures.heap object
        ((c.textures.heap object).map (withParameter pname param)) } i }

theorem texParameterx_spec (h : texParameterx c target pname param = some c') :
    c' = oglesError c GL.invalidEnum ∨
      ∃ i object, unitIndex c.textures.active = some i ∧ (c.textures.tmu i).texture = some object ∧
        c' = parameterContext c i object pname param := by
  unfold texParameterx at h
  split_ifs at h with reject
  · exact .inl (Option.some_inj.mp h).symm
  · obtain ⟨i, index, h⟩ := Option.bind_eq_some_iff.mp h
    split at h
    · exact .inl (Option.some_inj.mp h).symm
    · obtain ⟨d, edited, rfl⟩ := Option.map_eq_some_iff.mp h
      obtain ⟨j, object, index', bound, rfl⟩ := editObject_spec edited
      obtain rfl : i = j := Option.some_inj.mp (index.symm.trans index')
      exact .inr ⟨i, object, index, bound, rfl⟩

theorem stored_texParameter (held : Frames.Held c.textures)
    (h : texParameterx c target pname param = some c') : Stored c c' := by
  rcases texParameterx_spec h with rfl | ⟨i, object, index, bound, rfl⟩
  · exact stored_error held _
  · have edited := @Frames.held_edit _ held object (withParameter pname param)
      (fun o => (withParameter_valid pname param o).1) (fun o => (withParameter_valid pname param o).2)
    exact ⟨rfl, (Frames.rebinds_invalidate edited i).held, rfl⟩

theorem cropRect_spec (held : Frames.Held c.textures) {rect : Int × Int × Int × Int}
    (h : cropRect c target rect = some c') :
    ∃ t, Frames.Rebinds c.textures t ∧ t.tmu = c.textures.tmu ∧ c' = { c with textures := t } := by
  unfold cropRect at h
  split_ifs at h with reject
  · obtain rfl := Option.some_inj.mp h
    exact ⟨_, Frames.rebinds_error held _, rfl, rfl⟩
  · obtain ⟨i, object, -, -, rfl⟩ := editObject_spec h
    have edited := @Frames.rebinds_edit _ held object (fun o => { o with cropRect := rect })
      (fun _ => rfl) (fun _ => rfl)
    exact ⟨_, edited, rfl, rfl⟩

structure Switched (r r' : State.Context) : Prop where
  unit : ∀ i, r'.texture i = { r.texture i with enable := (r'.texture i).enable }
  active : r'.activeTMU = r.activeTMU
  depth : r'.depth = r.depth
  masked : Masked r → Masked r'

private theorem switched_flag (r : State.Context) (flag : State.Enable) (en : Bool)
    (other : flag ≠ .tmus) : Switched r (State.enableFlag r flag en) := by
  have flagged := flagged_enableFlag r flag en
  exact ⟨fun i => by rw [flagged.texture], by rw [flagged.eq], by rw [flagged.eq],
    (Calls.changes_enableFlag r flag en other).masked⟩

private theorem switched_refl (r : State.Context) : Switched r r := ⟨fun _ => rfl, rfl, rfl, id⟩

private theorem switched_scissor (r : State.Context) (en : Bool) :
    Switched r (State.gglEnableScissorTest r en) := by
  have masked := (Calls.changes_enableScissorTest r en).masked
  unfold State.gglEnableScissorTest at masked ⊢
  split_ifs at masked ⊢
  · exact ⟨fun _ => rfl, rfl, rfl, masked⟩
  · exact switched_refl r

private theorem switched_texture2d (r : State.Context) (en : Bool) :
    Switched r (State.gglEnableTexture2d r en) := by
  have unit := retextured_enable r en
  refine ⟨fun i => ?_, unit.active_eq, by rw [unit.eq], unit.masked⟩
  rw [unit.texture_eq, Function.update_apply]
  split_ifs with here
  · rw [here]
  · rfl

private theorem switched_ite {a b : State.Context} {p : Prop} [Decidable p] (h : Switched r a)
    (h' : Switched r b) : Switched r (if p then a else b) := by
  split
  · exact h
  · exact h'

theorem switched_enableDisable (r : State.Context) (name : GLenum) (en : Bool) :
    Switched r (State.enableDisable r name en) := by
  unfold State.enableDisable
  apply switched_ite (switched_flag r .blending en nofun)
  apply switched_ite (switched_scissor r en)
  apply switched_ite (switched_flag r .alphaTest en nofun)
  apply switched_ite (switched_flag r .logicOp en nofun)
  apply switched_ite (switched_flag r .dither en nofun)
  apply switched_ite (switched_refl r)
  apply switched_ite (switched_flag r .depthTest _ nofun)
  apply switched_ite (switched_flag r .aa en nofun)
  apply switched_ite (switched_texture2d r en)
  apply switched_ite (switched_flag r .w en nofun)
  apply switched_ite (switched_flag r .fog en nofun)
  exact switched_ite (switched_flag r .pointAaNice en nofun) (switched_refl r)

theorem switched_enableCapability (c : Context) (enabled : Bool) (capability : Capability) :
    Switched c.rasterizer (enableCapability c enabled capability).rasterizer := by
  have raster (name : GLenum) :
      Switched c.rasterizer (rasterEnable c name enabled).rasterizer :=
    switched_enableDisable c.rasterizer name enabled
  cases capability
  case fog => exact raster _
  case depthTest => exact raster _
  case blend => exact raster _
  case scissorTest => exact raster _
  case alphaTest => exact raster _
  case colorLogicOp => exact raster _
  case dither => exact raster _
  case stencilTest => exact raster _
  case texture2D => exact raster _
  case textureExternalOes => exact raster _
  all_goals exact switched_refl _

/-- The textures, the surface and the parameters of drawing are not switched. -/
structure EnablesOnly (c c' : Context) : Prop where
  textures : c'.textures = { c.textures with error := c'.textures.error }
  image : c'.image = c.image
  iterators : c'.iterators = c.iterators
  shadeModel : c'.shadeModel = c.shadeModel
  depth : c'.depth = c.depth

theorem enableDisable_only (c : Context) (cap : GLenum) (enabled : Bool) :
    EnablesOnly c (enableDisable c cap enabled) ∧
      Switched c.rasterizer (enableDisable c cap enabled).rasterizer := by
  unfold enableDisable
  cases capability cap with
  | none => exact ⟨⟨rfl, rfl, rfl, rfl, rfl⟩, switched_refl _⟩
  | some capability =>
    refine ⟨?_, switched_enableCapability c enabled capability⟩
    cases capability <;> exact ⟨rfl, rfl, rfl, rfl, rfl⟩

theorem sound_setPrim (sound : Sound c) (mode : GLenum) (p : Prim) : Sound (setPrim c mode p) := by
  rw [setPrim_eq sound.masked]
  have units : Calls.enabledUnits { c.rasterizer with texture := chosen c mode p.lod } =
      Calls.enabledUnits c.rasterizer := by
    funext i
    exact chosen_enable c mode p.lod i
  exact ⟨⟨sound.masked.mask.trans (congrArg Calls.unitMask units.symm), sound.masked.tmus⟩,
    sound.active, sound.held, sound.shade⟩

theorem sound_validateArrays (sound : Sound c) (mode : GLenum) : Sound (validateArrays c mode) := by
  obtain ⟨r, redrawn, eq⟩ := validateArrays_spec sound mode
  rw [eq]
  exact sound.redrawn redrawn (cleaned_texture c) c.iterators

def Draws (c : Context) (mode : GLenum) (count : Int) : Prop :=
  ¬(count < 0 ∨ GL.triangleFan < mode ∨ count = 0 ∨ c.vertexArray = false ∨
    c.cull = true ∧ c.cullFace = GL.frontAndBack)

instance (c : Context) (mode : GLenum) (count : Int) : Decidable (Draws c mode count) :=
  inferInstanceAs (Decidable (¬_))

theorem draw_cases (c : Context) (mode : GLenum) (count : Int) (prims : List Prim) :
    (Draws c mode count ∧ draw c mode count prims = drawPrims mode (validateArrays c mode) prims) ∨
      (¬Draws c mode count ∧
        ∃ error, draw c mode count prims =
          ([], { c with textures := { c.textures with error := error } })) := by
  unfold draw Draws
  split_ifs with negative invalid empty culled
  · exact .inr ⟨fun h => h (.inl negative), _, rfl⟩
  · exact .inr ⟨fun h => h (.inr (.inl invalid)), _, rfl⟩
  · exact .inr ⟨fun h => h (.inr (.inr (empty.imp_right .inl))), c.textures.error, rfl⟩
  · exact .inr ⟨fun h => h (.inr (.inr (.inr (.inr culled)))), c.textures.error, rfl⟩
  · refine .inl ⟨?_, rfl⟩
    rintro (h | h | h | h | h)
    · exact negative h
    · exact invalid h
    · exact empty (.inl h)
    · exact empty (.inr h)
    · exact culled h

/-- The rectangle is the crop rectangle of the only enabled unit, which is the first. -/
def OneToOne (c : Context) (w h : Int) : Prop :=
  c.rasterizer.enabledTmu = 1 ∧ w = (object c 0).cropRect.2.2.1 ∧
    h = -(object c 0).cropRect.2.2.2

instance (c : Context) (w h : Int) : Decidable (OneToOne c w h) :=
  inferInstanceAs (Decidable (_ ∧ _))

/-- How `drawTexiOES` draws. -/
inductive Path where
  | nothing
  | copy
  | slow
  | scale
deriving DecidableEq, Repr

def path (c : Context) (w h : Int) : Path :=
  if OneToOne c w h then
    if isEmpty w h then .nothing
    else if outsideTexture (object c 0) (unitImage c 0) w h then .slow else .copy
  else .scale

theorem drawTexiOES_eq (c : Context) (w h : Int) (new : Iterators) :
    drawTexiOES c w h new =
      match path c w h with
      | .nothing => ([], c)
      | .copy => copyTexture (prepareCopy c) new
      | .slow => drawTexxOESImp (prepareCopy c) new
      | .scale => drawTexxOESImp c new := by
  unfold path
  by_cases fast : OneToOne c w h
  · have taken : drawTexiOES c w h new = if isEmpty w h then ([], c)
        else if outsideTexture (object c 0) (unitImage c 0) w h then
          drawTexxOESImp (prepareCopy c) new
        else copyTexture (prepareCopy c) new := if_pos fast
    rw [taken, if_pos fast]
    split_ifs <;> rfl
  · have taken : drawTexiOES c w h new = drawTexxOESImp c new := if_neg fast
    rw [taken, if_neg fast]

theorem sound_prepareCopy (sound : Sound c) : Sound (prepareCopy c) := by
  obtain ⟨r, texture, prepared, -, -, eq⟩ := prepareCopy_spec sound
  rw [eq]
  exact sound.redrawn (Retextured.redrawn prepared) (spentFirst_texture c) c.iterators

theorem sound_drawTexxOESImp (sound : Sound c) (new : Iterators) :
    Sound (drawTexxOESImp c new).2 := by
  obtain ⟨r, texture, redrawn, -, -, eq⟩ := drawTexxOESImp_spec sound new
  rw [eq]
  exact sound.redrawn redrawn (spent_texture c) _

theorem sound_copyTexture (sound : Sound c) (new : Iterators) :
    Sound (copyTexture (prepareCopy c) new).2 := by
  obtain ⟨r, texture, redrawn, -, -, eq⟩ := copyTexture_spec sound new
  rw [eq]
  exact sound.redrawn redrawn (spentFirst_texture c) _

def Inside : Op → Prop
  | .texture (.activeTexture texture) _ => Units.unitOffset texture ≠ Units.textureUnitCount
  | _ => True

instance : DecidablePred Inside := fun op => by
  unfold Inside
  split <;> infer_instance

theorem sound_stored (sound : Sound c) (h : Stored c c') : Sound c' := by
  have held := h.held
  have active := h.active
  rw [h.eq] at held active ⊢
  exact ⟨sound.masked, sound.active.trans active.symm, held, sound.shade⟩

theorem activeTexture_spec {texture : GLenum}
    (inside : Units.unitOffset texture ≠ Units.textureUnitCount)
    (h : textureCall c (.activeTexture texture) writes = some c') :
    c' = oglesError c GL.invalidEnum ∧ ¬Units.unitOffset texture < 2 ∨
      ∃ i : Fin 2, Units.unitOffset texture = i.val ∧
      c' = { c with
        textures := { c.textures with active := i.val }
        rasterizer := { c.rasterizer with activeTMU := i } } := by
  obtain ⟨t, called, h⟩ := Option.bind_eq_some_iff.mp h
  obtain rfl := Option.some_inj.mp called
  unfold Units.glActiveTexture at h
  by_cases reject : Units.unitOffset texture > Units.textureUnitCount
  · simp only [if_pos reject] at h
    exact .inl ⟨(Option.some_inj.mp h).symm, Nat.not_lt.mpr (Nat.le_of_lt reject)⟩
  · simp only [if_neg reject] at h
    have lt : Units.unitOffset texture < 2 :=
      Nat.lt_of_le_of_ne (Nat.le_of_not_gt reject) inside
    have selected := activeTexture_fin c.rasterizer ⟨Units.unitOffset texture, lt⟩
    rw [selected] at h
    exact .inr ⟨⟨Units.unitOffset texture, lt⟩, rfl, (Option.some_inj.mp h).symm⟩

theorem call_sound (sound : Sound c) {op : Op} (inside : Inside op)
    {result : List Invocation × Context} (h : call c op = some result) : Sound result.2 := by
  have silent {d : Option Context} (h : quiet d = some result) : d = some result.2 := by
    obtain ⟨e, he, rfl⟩ := Option.map_eq_some_iff.mp h
    exact he
  have switched (cap : GLenum) (enabled : Bool) : Sound (enableDisable c cap enabled) := by
    obtain ⟨only, unit⟩ := enableDisable_only c cap enabled
    refine ⟨unit.masked sound.masked, ?_, ?_, ?_⟩
    · rw [unit.active, only.textures]
      exact sound.active
    · rw [only.textures]
      exact (Frames.rebinds_frame sound.held _ _).held
    · rw [only.shadeModel]
      exact sound.shade
  have error (error : GLenum) : Sound { c with textures := { c.textures with error := error } } :=
    ⟨sound.masked, sound.active, (Frames.rebinds_frame sound.held _ error).held, sound.shade⟩
  cases op with
  | enable cap =>
    rw [← Option.some_inj.mp (silent h)]
    exact switched cap true
  | disable cap =>
    rw [← Option.some_inj.mp (silent h)]
    exact switched cap false
  | texture op writes =>
    by_cases selects : Frames.Selects op
    · cases op with
      | activeTexture texture =>
        rcases activeTexture_spec inside (silent h) with ⟨eq, -⟩ | ⟨i, -, eq⟩
        · rw [eq]
          exact error _
        · rw [eq]
          obtain ⟨counts, valid, named, fresh, bound⟩ := sound.held
          exact ⟨⟨sound.masked.mask, sound.masked.tmus⟩, rfl, ⟨counts, valid, named, fresh, bound⟩,
            sound.shade⟩
      | _ => exact absurd selects id
    · exact sound_stored sound (stored_texture sound.held selects (silent h))
  | subImage writes =>
    obtain ⟨i, object, -, -, eq⟩ := upload_spec (silent h)
    rw [eq]
    exact ⟨sound.masked, sound.active, sound.held, sound.shade⟩
  | eglImage surface => exact sound_stored sound (stored_eglImage sound.held (silent h))
  | texParameter target pname param =>
    exact sound_stored sound (stored_texParameter sound.held (silent h))
  | cropRect target rect =>
    obtain ⟨t, rebinds, -, eq⟩ := cropRect_spec sound.held (silent h)
    rw [eq]
    exact ⟨sound.masked, sound.active.trans rebinds.active.symm, rebinds.held, sound.shade⟩
  | fragment f =>
    rw [← Option.some_inj.mp (silent h)]
    have fragmented := fragmented_apply c.rasterizer f
    exact ⟨fragmented.masked sound.masked, (congrArg Fin.val fragmented.active).trans sound.active,
      sound.held, sound.shade⟩
  | shadeModel mode =>
    rw [← Option.some_inj.mp (silent h)]
    unfold shadeModel
    split_ifs with reject
    · exact error _
    · exact ⟨sound.masked, sound.active, sound.held, by
        by_contra neither
        exact reject (not_or.mp neither)⟩
  | perspectiveHint nicest | vertexArray enabled =>
    rw [← Option.some_inj.mp (silent h)]
    exact ⟨sound.masked, sound.active, sound.held, sound.shade⟩
  | cullFace mode =>
    rw [← Option.some_inj.mp (silent h)]
    unfold cullFace
    dsimp only
    split_ifs
    · exact ⟨sound.masked, sound.active, (Frames.rebinds_error sound.held _).held, sound.shade⟩
    · exact ⟨sound.masked, sound.active, sound.held, sound.shade⟩
  | draw mode count prims =>
    rw [← Option.some_inj.mp h]
    rcases draw_cases c mode count prims with ⟨-, eq⟩ | ⟨-, code, eq⟩
    · rw [eq]
      exact (@drawPrims_keeps mode Sound (fun _ p inv => sound_setPrim inv mode p) prims _
        (sound_validateArrays sound mode)).1
    · rw [eq]
      exact error code
  | drawTexx width height new =>
    rw [← Option.some_inj.mp h]
    unfold drawTexxOES
    split_ifs
    · exact sound
    · exact sound_drawTexxOESImp sound new
  | drawTexi width height new =>
    rw [← Option.some_inj.mp h, drawTexiOES_eq]
    cases path c width height with
    | nothing => exact sound
    | copy => exact sound_copyTexture sound new
    | slow => exact sound_drawTexxOESImp (sound_prepareCopy sound) new
    | scale => exact sound_drawTexxOESImp sound new
  | bindDrawSurface color depth allocated =>
    rw [← Option.some_inj.mp (silent h)]
    have surfaced := surfaced_bind c color depth allocated
    exact ⟨surfaced.masked sound.masked, (congrArg Fin.val surfaced.active).trans sound.active,
      sound.held, sound.shade⟩

theorem init_sound : ∃ c, init = some c ∧ Sound c ∧ c.textures.active = 0 ∧
    (∀ i, (c.rasterizer.texture i).enable = false) ∧ ∀ i, dirty c i = true := by
  obtain ⟨t, made, held, active, marked⟩ := Frames.init_held
  have masked : Masked State.initContext := ⟨rfl, rfl⟩
  refine ⟨_, by rw [init, made]; rfl, ⟨?_, ?_, held, .inl rfl⟩, active, fun _ => rfl, fun i => ?_⟩
  · exact (Calls.changes_enableFlag _ .dither true nofun).masked
      ((Calls.changes_depthMask _ 1).masked ((Calls.changes_shadeModel _ GL.smooth).masked masked))
  · exact active.symm
  · unfold dirty
    change decide ((t.tmu i).dirty ≠ 0) = true
    rw [marked i]
    rfl

end RabbitRender.Drawing.Soundness
