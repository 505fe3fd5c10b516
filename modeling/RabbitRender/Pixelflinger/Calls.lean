/- RabbitRender/Pixelflinger/Calls
   layer: proof
   source: libpixelflinger/pixelflinger.cpp, libpixelflinger/buffer.cpp
   digest: What a call leaves of the state a pick depends on, and what it marks as changed. -/

import RabbitRender.Pixelflinger.Keys

set_option autoImplicit false

namespace RabbitRender.Pixelflinger.Calls

open RabbitRender.GL (GLenum)
open Pixelflinger.State Pixelflinger.Picker Pixelflinger.Keys

def PipelineDue (c : Context) : Prop :=
  c.dirty .pixelPipeline = true ∨ (c.dirty .cb = true ∧ c.enables .blending = true)

instance (c : Context) : Decidable (PipelineDue c) := inferInstanceAs (Decidable (_ ∨ _))

def unitMask (enabled : Fin 2 → Bool) : BitVec 32 :=
  (if enabled 0 then 1 else 0) ||| (if enabled 1 then 2 else 0)

def enabledUnits (c : Context) : Fin 2 → Bool := fun i => (c.texture i).enable

structure Masked (c : Context) : Prop where
  mask : c.enabledTmu = unitMask (enabledUnits c)
  tmus : c.enables .tmus = decide (c.enabledTmu ≠ 0)

structure Reset (s s' : Surface) : Prop where
  read : s'.read = s.read
  write : s'.write = s.write
  kept : s'.dirty = false → s.dirty = false ∧ s'.format = s.format

structure Changes (c c' : Context) : Prop where
  needs : c'.needs = c.needs
  initY : c'.initY = c.initY
  stepY : c'.stepY = c.stepY
  scanline : c'.scanline = c.scanline
  texture : ∀ i, Reset (c.texture i).surface (c'.texture i).surface
  color : Reset c.color c'.color
  masked : Masked c → Masked c'
  units : c'.dirty .tmu = false → c.dirty .tmu = false ∧
    ∀ i, (c'.texture i).enable = (c.texture i).enable ∧
      unitNeeds (c'.texture i) = unitNeeds (c.texture i)
  tests : c'.dirty .pixelPipeline = false →
    c.dirty .pixelPipeline = false ∧ testNeeds c' = testNeeds c
  pipeline : ¬PipelineDue c' →
    ¬PipelineDue c ∧ rest (pipelineNeeds c' false) = rest (pipelineNeeds c false)
  format : c'.dirty .cb = false → c.dirty .cb = false ∧ c'.color.format = c.color.format

theorem Reset.refl (s : Surface) : Reset s s := ⟨rfl, rfl, fun clean => ⟨clean, rfl⟩⟩

theorem Reset.trans {s s' s'' : Surface} (h : Reset s s') (h' : Reset s' s'') : Reset s s'' where
  read := h'.read.trans h.read
  write := h'.write.trans h.write
  kept := fun clean =>
    have ⟨clean', format'⟩ := h'.kept clean
    have ⟨clean, format⟩ := h.kept clean'
    ⟨clean, format'.trans format⟩

theorem reset_setSurface (s : Surface) (src : GGLSurface) : Reset s (setSurface s src) :=
  ⟨rfl, rfl, fun clean => nomatch clean⟩

variable {c : Context} {t : Texture}

theorem Changes.trans {c' c'' : Context} (h : Changes c c') (h' : Changes c' c'') :
    Changes c c'' where
  needs := h'.needs.trans h.needs
  initY := h'.initY.trans h.initY
  stepY := h'.stepY.trans h.stepY
  scanline := h'.scanline.trans h.scanline
  texture i := (h.texture i).trans (h'.texture i)
  color := h.color.trans h'.color
  masked ok := h'.masked (h.masked ok)
  units clean :=
    have ⟨clean', same'⟩ := h'.units clean
    have ⟨clean, same⟩ := h.units clean'
    ⟨clean, fun i => ⟨(same' i).1.trans (same i).1, (same' i).2.trans (same i).2⟩⟩
  tests clean :=
    have ⟨clean', same'⟩ := h'.tests clean
    have ⟨clean, same⟩ := h.tests clean'
    ⟨clean, same'.trans same⟩
  pipeline kept :=
    have ⟨kept', same'⟩ := h'.pipeline kept
    have ⟨kept, same⟩ := h.pipeline kept'
    ⟨kept, same'.trans same⟩
  format clean :=
    have ⟨clean', same'⟩ := h'.format clean
    have ⟨clean, same⟩ := h.format clean'
    ⟨clean, same'.trans same⟩

theorem changes_frame (c : Context) (read depth : Surface) (coverage : Nat) (scissor : Scissor)
    (alphaRef : Int) (maskStencil : Nat) (activeTMU : Fin 2) (error : GLenum) :
    Changes c
      { c with
        read := read, depth := depth, coverageBufferSize := coverage, scissor := scissor
        alphaRef := alphaRef, maskStencil := maskStencil, activeTMU := activeTMU
        error := error } where
  needs := rfl
  initY := rfl
  stepY := rfl
  scanline := rfl
  texture _ := Reset.refl _
  color := Reset.refl _
  masked ok := ⟨ok.mask, ok.tmus⟩
  units clean := ⟨clean, fun _ => ⟨rfl, rfl⟩⟩
  tests clean := ⟨clean, rfl⟩
  pipeline kept := ⟨kept, rfl⟩
  format clean := ⟨clean, rfl⟩

theorem Changes.refl (c : Context) : Changes c c :=
  changes_frame c c.read c.depth c.coverageBufferSize c.scissor c.alphaRef c.maskStencil
    c.activeTMU c.error

private theorem changes_ite {a b : Context} {p : Prop} [Decidable p] (h : Changes c a)
    (h' : Changes c b) : Changes c (if p then a else b) := by
  split
  · exact h
  · exact h'

theorem changes_pipeline (c : Context) (blend : Blend) (alphaFunc : GLenum) (depthFunc : GLenum)
    (maskColor maskDepth maskStencil : Nat) (opcode : GLenum) (enables : Enable → Bool)
    (tmus : enables .tmus = c.enables .tmus) :
    Changes c
      (stateChanged
        { c with
          blend := blend, alphaFunc := alphaFunc, depthFunc := depthFunc
          maskColor := maskColor, maskDepth := maskDepth, maskStencil := maskStencil
          opcode := opcode, enables := enables } .pixelPipeline) where
  needs := rfl
  initY := rfl
  stepY := rfl
  scanline := rfl
  texture _ := Reset.refl _
  color := Reset.refl _
  masked ok := ⟨ok.mask, tmus.trans ok.tmus⟩
  units clean := ⟨clean, fun _ => ⟨rfl, rfl⟩⟩
  tests clean := absurd clean (by simp [stateChanged])
  pipeline kept := absurd (Or.inl (by simp [stateChanged])) kept
  format clean := ⟨clean, rfl⟩

theorem changes_enableFlag (c : Context) (flag : Enable) (enable : Bool) (other : flag ≠ .tmus) :
    Changes c (enableFlag c flag enable) := by
  unfold enableFlag
  split
  · exact changes_pipeline c _ _ _ _ _ _ _ _ (Function.update_of_ne other.symm _ _)
  · exact Changes.refl c

private theorem changes_setScissor (c : Context) : Changes c (setScissor c) :=
  changes_frame c _ _ _ _ _ _ _ _

theorem changes_enableScissorTest (c : Context) (enable : Bool) :
    Changes c (gglEnableScissorTest c enable) := by
  unfold gglEnableScissorTest
  split
  · refine Changes.trans ?_ (changes_setScissor _)
    exact
      { needs := rfl
        initY := rfl
        stepY := rfl
        scanline := rfl
        texture := fun _ => Reset.refl _
        color := Reset.refl _
        masked := fun ok => ⟨ok.mask, ok.tmus⟩
        units := fun clean => ⟨clean, fun _ => ⟨rfl, rfl⟩⟩
        tests := fun clean => ⟨clean, rfl⟩
        pipeline := fun kept => ⟨kept, rfl⟩
        format := fun clean => ⟨clean, rfl⟩ }
  · exact Changes.refl c

private theorem setActive_texture (c : Context) (t : Texture) (i : Fin 2) :
    (setActive c t).texture i = if i = c.activeTMU then t else c.texture i := by
  simp only [setActive, Function.update_apply]

private theorem reset_setActive (h : Reset (activeTexture c).surface t.surface) (i : Fin 2) :
    Reset (c.texture i).surface ((setActive c t).texture i).surface := by
  rw [setActive_texture]
  split
  · subst i
    exact h
  · exact Reset.refl _

private theorem changes_setActive (h : Reset (activeTexture c).surface t.surface)
    (enable : t.enable = (activeTexture c).enable) (key : unitNeeds t = unitNeeds (activeTexture c)) :
    Changes c (setActive c t) := by
  have same (i : Fin 2) : ((setActive c t).texture i).enable = (c.texture i).enable ∧
      unitNeeds ((setActive c t).texture i) = unitNeeds (c.texture i) := by
    rw [setActive_texture]
    split
    · subst i
      exact ⟨enable, key⟩
    · exact ⟨rfl, rfl⟩
  have units : enabledUnits (setActive c t) = enabledUnits c := funext fun i => (same i).1
  exact
    { needs := rfl
      initY := rfl
      stepY := rfl
      scanline := rfl
      texture := reset_setActive h
      color := Reset.refl _
      masked := fun ok => ⟨ok.mask.trans (congrArg unitMask units.symm), ok.tmus⟩
      units := fun clean => ⟨clean, same⟩
      tests := fun clean => ⟨clean, rfl⟩
      pipeline := fun kept => ⟨kept, rfl⟩
      format := fun clean => ⟨clean, rfl⟩ }

private theorem changes_setActive_marked (h : Reset (activeTexture c).surface t.surface)
    (enable : t.enable = (activeTexture c).enable) :
    Changes c (stateChanged (setActive c t) .tmu) := by
  have units : enabledUnits (setActive c t) = enabledUnits c := by
    funext i
    simp only [enabledUnits, setActive_texture]
    split
    · subst i
      exact enable
    · rfl
  exact
    { needs := rfl
      initY := rfl
      stepY := rfl
      scanline := rfl
      texture := reset_setActive h
      color := Reset.refl _
      masked := fun ok => ⟨ok.mask.trans (congrArg unitMask units.symm), ok.tmus⟩
      units := fun clean => absurd clean (by simp [stateChanged])
      tests := fun clean => ⟨clean, rfl⟩
      pipeline := fun kept => ⟨kept, rfl⟩
      format := fun clean => ⟨clean, rfl⟩ }

theorem changes_bindTexture (c : Context) (surface : GGLSurface) :
    Changes c (gglBindTexture c surface) := by
  have replaced := reset_setSurface (activeTexture c).surface surface
  unfold gglBindTexture
  split
  · exact changes_setActive_marked (t := { activeTexture c with surface := _ }) replaced rfl
  · rename_i same
    have format : surface.format = (activeTexture c).surface.format := not_not.mp same
    refine changes_setActive (t := { activeTexture c with surface := _ }) replaced rfl ?_
    simp only [unitNeeds, setSurface, format]

private theorem changes_setField (c : Context) (differs : Bool) (t : Texture)
    (surface : t.surface = (activeTexture c).surface)
    (enable : t.enable = (activeTexture c).enable) : Changes c (setField c differs t) := by
  unfold setField
  split
  · exact changes_setActive_marked (surface ▸ Reset.refl _) enable
  · exact Changes.refl c

theorem changes_texEnvi (c : Context) (target pname param : GLenum) :
    Changes c (gglTexEnvi c target pname param) := by
  unfold gglTexEnvi
  split
  · exact changes_frame c _ _ _ _ _ _ _ _
  · split
    · exact changes_setField c _ _ rfl rfl
    · exact changes_frame c _ _ _ _ _ _ _ _

theorem changes_texEnvColor (c : Context) (r g b a : Int) :
    Changes c (gglTexEnvColor c r g b a) :=
  changes_setActive (t := { activeTexture c with envColor := _ }) (Reset.refl _) rfl rfl

theorem changes_texParameteri (c : Context) (target pname param : GLenum) :
    Changes c (gglTexParameteri c target pname param) := by
  unfold gglTexParameteri
  extract_lets u param
  have field (differs : Bool) (t : Texture) (surface : t.surface = u.surface)
      (enable : t.enable = u.enable) : Changes c (setField c differs t) :=
    changes_setField c differs t surface enable
  split_ifs
  · exact changes_frame c _ _ _ _ _ _ _ _
  all_goals first
    | exact field _ _ rfl rfl
    | exact changes_frame c _ _ _ _ _ _ _ _

theorem changes_texGeni (c : Context) (coord pname param : GLenum) :
    Changes c (gglTexGeni c coord pname param) := by
  unfold gglTexGeni
  split_ifs
  · exact changes_frame c _ _ _ _ _ _ _ _
  · exact changes_setField c _ _ rfl rfl
  · exact changes_setField c _ _ rfl rfl
  · exact changes_frame c _ _ _ _ _ _ _ _

theorem changes_activeTexture (c : Context) (tmu : Nat) : Changes c (gglActiveTexture c tmu) := by
  unfold gglActiveTexture
  split <;> exact changes_frame c _ _ _ _ _ _ _ _

private theorem unitMask_enable (enabled : Fin 2 → Bool) (i : Fin 2) (enable : Bool) :
    unitMask (Function.update enabled i enable) =
      if enable then unitMask enabled ||| 1#32 <<< i.val
      else unitMask enabled &&& ~~~(1#32 <<< i.val) := by
  fin_cases i <;> cases h0 : enabled 0 <;> cases h1 : enabled 1 <;> cases enable <;>
    simp [unitMask, Function.update, h0, h1]

theorem changes_enableTexture2d (c : Context) (enable : Bool) :
    Changes c (gglEnableTexture2d c enable) := by
  unfold gglEnableTexture2d
  split
  · have units : enabledUnits (setActive c { activeTexture c with enable := enable }) =
        Function.update (enabledUnits c) c.activeTMU enable := by
      funext i
      simp only [enabledUnits, setActive_texture, Function.update_apply]
      split <;> rfl
    exact
      { needs := rfl
        initY := rfl
        stepY := rfl
        scanline := rfl
        texture := reset_setActive (t := { activeTexture c with enable := enable }) (Reset.refl _)
        color := Reset.refl _
        masked := fun ok => by
          have mask : tmuMask c enable =
              unitMask (Function.update (enabledUnits c) c.activeTMU enable) := by
            rw [unitMask_enable, ← ok.mask]
            rfl
          exact ⟨mask.trans (congrArg unitMask units.symm), by simp [stateChanged]⟩
        units := fun clean => absurd clean (by simp [stateChanged])
        tests := fun clean => ⟨clean, rfl⟩
        pipeline := fun kept => ⟨kept, rfl⟩
        format := fun clean => ⟨clean, rfl⟩ }
  · exact Changes.refl c

theorem changes_enableDisable (c : Context) (name : GLenum) (en : Bool) :
    Changes c (enableDisable c name en) := by
  have flag (flag : Enable) (en : Bool) (other : flag ≠ .tmus) :
      Changes c (enableFlag c flag en) := changes_enableFlag c flag en other
  unfold enableDisable
  apply changes_ite (flag .blending en nofun)
  apply changes_ite (changes_enableScissorTest c en)
  apply changes_ite (flag .alphaTest en nofun)
  apply changes_ite (flag .logicOp en nofun)
  apply changes_ite (flag .dither en nofun)
  apply changes_ite (Changes.refl c)
  apply changes_ite (flag .depthTest _ nofun)
  apply changes_ite (flag .aa en nofun)
  apply changes_ite (changes_enableTexture2d c en)
  apply changes_ite (flag .w en nofun)
  apply changes_ite (flag .fog en nofun)
  exact changes_ite (flag .pointAaNice en nofun) (Changes.refl c)

private theorem changes_color {color : Surface} (dirty : Part → Bool) (h : Reset c.color color)
    (other : ∀ part, part ≠ .cb → dirty part = c.dirty part)
    (marked : dirty .cb = true ∨ (dirty .cb = c.dirty .cb ∧ color.format = c.color.format)) :
    Changes c { c with color := color, dirty := dirty } where
  needs := rfl
  initY := rfl
  stepY := rfl
  scanline := rfl
  texture _ := Reset.refl _
  color := h
  masked ok := ⟨ok.mask, ok.tmus⟩
  units clean := ⟨(other .tmu nofun).symm.trans clean, fun _ => ⟨rfl, rfl⟩⟩
  tests clean := ⟨(other .pixelPipeline nofun).symm.trans clean, rfl⟩
  pipeline kept := by
    simp only [PipelineDue, not_or, not_and] at kept ⊢
    have clean : ¬c.dirty .pixelPipeline = true := other .pixelPipeline nofun ▸ kept.1
    obtain marked | ⟨same, format⟩ := marked
    · -- without blending the format only reaches its own field
      have off : c.enables .blending = false := Bool.eq_false_iff.mpr (kept.2 marked)
      refine ⟨⟨clean, fun _ => Bool.eq_false_iff.mp off⟩, ?_⟩
      simp (disch := decide) only [rest, pipelineNeeds, blendNeeds, off, Bool.false_eq_true,
        if_false, Lib.BitFields.Field.clear_or, Lib.BitFields.Field.clear_build_self,
        Lib.BitFields.Field.clear_build_apart]
    · refine ⟨⟨clean, fun due => kept.2 (same.trans due)⟩, ?_⟩
      simp only [pipelineNeeds, blendNeeds, format]
  format clean := by
    obtain marked | ⟨same, format⟩ := marked
    · exact absurd clean (by simp [marked])
    · exact ⟨same.symm.trans clean, format⟩

theorem changes_colorBuffer (c : Context) (surface : GGLSurface) (allocated : Bool) :
    Changes c (gglColorBuffer c surface allocated) := by
  have replaced := reset_setSurface c.color surface
  refine Changes.trans ?_ (changes_setScissor _)
  by_cases same : surface.format = c.color.format
  · rw [if_neg (not_not.mpr same)]
    refine (changes_color c.dirty replaced (fun _ _ => rfl) (.inr ⟨rfl, same⟩)).trans ?_
    exact changes_frame _ _ _ _ _ _ _ _ _
  · rw [if_pos same]
    refine (changes_color (Function.update c.dirty .cb true) replaced
      (fun part other => Function.update_of_ne other _ _)
      (.inl (Function.update_self _ _ _))).trans ?_
    exact changes_frame _ _ _ _ _ _ _ _ _

theorem changes_readBuffer (c : Context) (surface : GGLSurface) :
    Changes c (gglReadBuffer c surface) :=
  changes_frame c _ _ _ _ _ _ _ _

theorem changes_depthBuffer (c : Context) (surface : GGLSurface) :
    Changes c (gglDepthBuffer c surface) := by
  unfold gglDepthBuffer
  split
  · exact changes_frame c _ _ _ _ _ _ _ _
  · refine Changes.trans (changes_frame c _ _ _ _ _ _ _ _) (changes_enableFlag _ .depthTest _ nofun)

theorem changes_scissor (c : Context) (x y width height : Int) :
    Changes c (gglScissor c x y width height) :=
  changes_frame c _ _ _ _ _ _ _ _

theorem changes_shadeModel (c : Context) (mode : GLenum) : Changes c (gglShadeModel c mode) := by
  unfold gglShadeModel
  split_ifs
  · exact changes_enableFlag c .smooth false nofun
  · exact changes_enableFlag c .smooth true nofun
  · exact changes_frame c _ _ _ _ _ _ _ _

theorem changes_setBlend (c : Context) (blend : Blend) : Changes c (setBlend c blend) := by
  simp only [setBlend]
  split
  · exact changes_pipeline c _ _ _ _ _ _ _ _ rfl
  · rename_i off
    exact
      { needs := rfl
        initY := rfl
        stepY := rfl
        scanline := rfl
        texture := fun _ => Reset.refl _
        color := Reset.refl _
        masked := fun ok => ⟨ok.mask, ok.tmus⟩
        units := fun clean => ⟨clean, fun _ => ⟨rfl, rfl⟩⟩
        tests := fun clean => ⟨clean, rfl⟩
        pipeline := fun kept => ⟨kept, by simp only [pipelineNeeds, blendNeeds, if_neg off]⟩
        format := fun clean => ⟨clean, rfl⟩ }

theorem changes_colorMask (c : Context) (r g b a : Bool) : Changes c (gglColorMask c r g b a) := by
  unfold gglColorMask
  extract_lets mask
  split
  · exact changes_pipeline c _ _ _ _ _ _ _ _ rfl
  · exact Changes.refl c

theorem changes_depthMask (c : Context) (flag : Nat) : Changes c (gglDepthMask c flag) := by
  unfold gglDepthMask
  split
  · exact changes_pipeline c _ _ _ _ _ _ _ _ rfl
  · exact Changes.refl c

theorem changes_stencilMask (c : Context) (mask : Nat) : Changes c (gglStencilMask c mask) := by
  unfold gglStencilMask
  split
  · exact changes_pipeline c _ _ _ _ _ _ _ _ rfl
  · exact Changes.refl c

theorem changes_alphaFuncx (c : Context) (func : GLenum) (ref : Int) :
    Changes c (gglAlphaFuncx c func ref) := by
  unfold gglAlphaFuncx
  split
  · exact changes_frame c _ _ _ _ _ _ _ _
  · have stored : Changes c { c with alphaRef := gglFixedToIteratedColor (Fixed.gglClampx ref) } :=
      changes_frame c _ _ _ _ _ _ _ _
    refine stored.trans ?_
    exact changes_ite (changes_pipeline _ _ _ _ _ _ _ _ _ rfl) (Changes.refl _)

theorem changes_depthFunc (c : Context) (func : GLenum) : Changes c (gglDepthFunc c func) := by
  unfold gglDepthFunc
  split_ifs
  · exact changes_frame c _ _ _ _ _ _ _ _
  · exact changes_pipeline c _ _ _ _ _ _ _ _ rfl
  · exact Changes.refl c

theorem changes_logicOp (c : Context) (opcode : GLenum) : Changes c (gglLogicOp c opcode) := by
  unfold gglLogicOp
  split_ifs
  · exact changes_frame c _ _ _ _ _ _ _ _
  · exact changes_pipeline c _ _ _ _ _ _ _ _ rfl
  · exact Changes.refl c

end RabbitRender.Pixelflinger.Calls
