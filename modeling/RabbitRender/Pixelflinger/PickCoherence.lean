/- RabbitRender/Pixelflinger/PickCoherence
   layer: proof
   source: libpixelflinger/picker.cpp, libpixelflinger/buffer.cpp, libpixelflinger/scanline.cpp
   digest: After a pick the readers and the selected functions are those of the current state, when
     the key records every change of the enabled units. -/

import RabbitRender.Lib.GuardedRun
import RabbitRender.Pixelflinger.Calls

set_option autoImplicit false

namespace RabbitRender.Pixelflinger.PickCoherence

open RabbitRender.GL (GLenum)
open Lib.GuardedRun Pixelflinger.State Pixelflinger.Picker Pixelflinger.Keys Pixelflinger.Calls

def forget (c : Context) : Context :=
  { c with needs := ⟨0, 0, fun _ => 0⟩, dirty := fun _ => true }

def stateNeeds (c : Context) : Needs := newNeeds (forget c)

def fromScratch (c : Context) : Context := pickAll { c with needs := stateNeeds c }

def Served (s : Surface) : Prop :=
  s.read = some (pickReader s.format) ∧ s.write = some .writePixel

instance (s : Surface) : Decidable (Served s) := inferInstanceAs (Decidable (_ ∧ _))

def selected (c : Context) : InitY × StepY × Scanline := (c.initY, c.stepY, c.scanline)

structure Picked (c : Context) : Prop where
  units : ∀ i, (c.texture i).enable = true → Served (c.texture i).surface
  color : Served c.color
  functions : selected c = selected (fromScratch c)

structure Tracked where
  context : Context
  picked : Fin 2 → Bool

def start : Tracked := ⟨initContext, fun _ => false⟩

inductive Op where
  | enableDisable (name : GLenum) (en : Bool)
  | activeTexture (tmu : Nat)
  | bindTexture (surface : GGLSurface)
  | colorBuffer (surface : GGLSurface) (allocated : Bool)
  | readBuffer (surface : GGLSurface)
  | depthBuffer (surface : GGLSurface)
  | scissor (x y width height : Int)
  | shadeModel (mode : GLenum)
  | blendFunc (src dst : GLenum)
  | blendFuncSeparate (src dst srcAlpha dstAlpha : GLenum)
  | colorMask (r g b a : Bool)
  | depthMask (flag : Nat)
  | stencilMask (mask : Nat)
  | alphaFuncx (func : GLenum) (ref : Int)
  | depthFunc (func : GLenum)
  | logicOp (opcode : GLenum)
  | texEnvi (target pname param : GLenum)
  | texEnvColor (r g b a : Int)
  | texParameteri (target pname param : GLenum)
  | texGeni (coord pname param : GLenum)
  | pick

def call (c : Context) : Op → Context
  | .enableDisable name en => enableDisable c name en
  | .activeTexture tmu => gglActiveTexture c tmu
  | .bindTexture surface => gglBindTexture c surface
  | .colorBuffer surface allocated => gglColorBuffer c surface allocated
  | .readBuffer surface => gglReadBuffer c surface
  | .depthBuffer surface => gglDepthBuffer c surface
  | .scissor x y width height => gglScissor c x y width height
  | .shadeModel mode => gglShadeModel c mode
  | .blendFunc src dst => gglBlendFunc c src dst
  | .blendFuncSeparate src dst srcAlpha dstAlpha => gglBlendFuncSeparate c src dst srcAlpha dstAlpha
  | .colorMask r g b a => gglColorMask c r g b a
  | .depthMask flag => gglDepthMask c flag
  | .stencilMask mask => gglStencilMask c mask
  | .alphaFuncx func ref => gglAlphaFuncx c func ref
  | .depthFunc func => gglDepthFunc c func
  | .logicOp opcode => gglLogicOp c opcode
  | .texEnvi target pname param => gglTexEnvi c target pname param
  | .texEnvColor r g b a => gglTexEnvColor c r g b a
  | .texParameteri target pname param => gglTexParameteri c target pname param
  | .texGeni coord pname param => gglTexGeni c coord pname param
  | .pick => gglPick c

def step (t : Tracked) (op : Op) : Tracked where
  context := call t.context op
  picked := match op with
    | .pick => enabledUnits t.context
    | _ => t.picked

structure Ready (t : Tracked) : Prop where
  /-- Every enabled unit has been given a surface. -/
  bound : ∀ i, enabledUnits t.context i = true →
    (t.context.texture i).surface.dirty = true ∨ (t.context.texture i).surface.read ≠ none
  /-- There is a colour buffer. -/
  color : t.context.color.format ≠ Format.none ∨ t.context.color.read ≠ none
  /-- Other units are enabled than at the last pick only if the key tells. -/
  keyed : enabledUnits t.context ≠ t.picked → stateNeeds t.context ≠ t.context.needs
  /-- The second unit is not alone with the key of an earlier second unit. -/
  second : t.context.dirty .tmu = true → enabledUnits t.context = ![false, true] →
    t.context.needs.t 1 = 0
  /-- Where the pipeline part is kept, its bit `W` is still right. -/
  w : ¬PipelineDue t.context →
    Needs.w.read t.context.needs.n = (needsW t.context).toNat

instance (t : Tracked) : Decidable (Ready t) :=
  decidable_of_iff
    ((∀ i, enabledUnits t.context i = true → (t.context.texture i).surface.dirty = true ∨
        (t.context.texture i).surface.read ≠ none) ∧
      (t.context.color.format ≠ Format.none ∨ t.context.color.read ≠ none) ∧
      (enabledUnits t.context ≠ t.picked → stateNeeds t.context ≠ t.context.needs) ∧
      (t.context.dirty .tmu = true → enabledUnits t.context = ![false, true] →
        t.context.needs.t 1 = 0) ∧
      (¬PipelineDue t.context → Needs.w.read t.context.needs.n = (needsW t.context).toNat))
    ⟨fun ⟨bound, color, keyed, second, w⟩ => ⟨bound, color, keyed, second, w⟩,
      fun ready => ⟨ready.bound, ready.color, ready.keyed, ready.second, ready.w⟩⟩

def Safe (t : Tracked) : Op → Prop
  | .pick => Ready t
  | _ => True

/-- A surface that is not marked has the reader of its format, or was never given one. -/
structure Kept (s : Surface) : Prop where
  write : s.write = s.read.map fun _ => .writePixel
  fresh : s.dirty = false → ∀ r, s.read = some r → r = pickReader s.format
  unset : s.dirty = false → s.read = none → s.format = Format.none

variable {s : Surface} {c : Context} {t : Tracked}

theorem Kept.reset {s' : Surface} (kept : Kept s) (h : Reset s s') : Kept s' where
  write := by rw [h.write, h.read, kept.write]
  fresh clean r hr := by
    obtain ⟨clean, format⟩ := h.kept clean
    rw [format]
    exact kept.fresh clean r (h.read ▸ hr)
  unset clean none := by
    obtain ⟨clean, format⟩ := h.kept clean
    rw [format]
    exact kept.unset clean (h.read ▸ none)

theorem pickSurface_format (s : Surface) : (pickSurface s).format = s.format := by
  unfold pickSurface
  split <;> rfl

theorem Kept.served (kept : Kept s) (bound : s.dirty = true ∨ s.read ≠ none) :
    Served (pickSurface s) := by
  unfold pickSurface
  split
  · exact ⟨rfl, rfl⟩
  · rename_i clean
    obtain ⟨r, hr⟩ := Option.ne_none_iff_exists'.mp (bound.resolve_left clean)
    have reader := kept.fresh (Bool.eq_false_iff.mpr clean) r hr
    exact ⟨hr.trans (congrArg some reader), by rw [kept.write, hr]; rfl⟩

theorem Kept.served_of_read (kept : Kept s) (read : s.read = some (pickReader s.format)) :
    Served s :=
  ⟨read, by rw [kept.write, read]; rfl⟩

theorem Served.kept (served : Served s) : Kept s where
  write := by rw [served.1, served.2]; rfl
  fresh _ r hr := by
    rw [served.1] at hr
    exact (Option.some.inj hr).symm
  unset _ none := absurd (served.1.symm.trans none) (Option.some_ne_none _)

theorem Kept.pickSurface (kept : Kept s) : Kept (pickSurface s) := by
  by_cases bound : s.dirty = true ∨ s.read ≠ none
  · exact (kept.served bound).kept
  · rw [Picker.pickSurface, if_neg (not_or.mp bound).1]
    exact kept

/-- The perspective scanline for the bit `W` and the enabled units of a key. -/
def perspectiveOf (w : Bool) (enabled : Fin 2 → Bool) : Option Scanline :=
  if w then (if enabled 0 && enabled 1 then some .perspective else some .perspectiveSingle)
  else none

theorem perspective_eq (masked : Masked c) :
    perspective c = perspectiveOf (needsW c) (enabledUnits c) := by
  simp only [perspective, perspectiveOf, needsW, masked.tmus, masked.mask]
  cases c.enables .w <;> cases h0 : enabledUnits c 0 <;> cases h1 : enabledUnits c 1 <;>
    simp [unitMask, h0, h1]

structure Inv (t : Tracked) : Prop where
  masked : Masked t.context
  stepY : t.context.stepY = .generic
  textures : ∀ i, Kept (t.context.texture i).surface
  color : Kept t.context.color
  held : ∀ i, t.picked i = true → ∃ f : Format,
    (t.context.texture i).surface.read = some (pickReader f) ∧
      Needs.tFormat.read (t.context.needs.t (slot t.picked i)) = f.val
  colorHeld : ∀ r, t.context.color.read = some r → ∃ f : Format,
    r = pickReader f ∧ Needs.cbFormat.read t.context.needs.n = f.val
  colorUnset : t.context.color.read = none → Needs.cbFormat.read t.context.needs.n = 0
  sameUnits : t.context.dirty .tmu = false → enabledUnits t.context = t.picked
  words : t.context.dirty .tmu = false →
    t.context.needs.t = textureNeeds t.context.texture fun _ => 0
  tests : t.context.dirty .pixelPipeline = false → t.context.needs.p = testNeeds t.context
  pipeline : ¬PipelineDue t.context →
    rest t.context.needs.n = rest (pipelineNeeds t.context false)
  format : t.context.dirty .cb = false →
    Needs.cbFormat.read t.context.needs.n = t.context.color.format.val
  functions : t.context.color.read ≠ none →
    t.context.initY = (pickScanline t.context.needs).initY ∧
      ∀ w, Needs.w.read t.context.needs.n = w.toNat →
        t.context.scanline =
          (perspectiveOf w t.picked).getD (pickScanline t.context.needs).scanline

theorem start_inv : Inv start where
  masked := ⟨rfl, rfl⟩
  stepY := rfl
  textures _ := ⟨rfl, fun _ _ h => (nomatch h), fun _ _ => rfl⟩
  color := ⟨rfl, fun _ _ h => (nomatch h), fun _ _ => rfl⟩
  held _ h := nomatch h
  colorHeld _ h := nomatch h
  colorUnset _ := rfl
  sameUnits h := nomatch h
  words h := nomatch h
  tests h := nomatch h
  pipeline h := absurd (Or.inl rfl) h
  format h := nomatch h
  functions h := absurd rfl h

theorem Inv.changes {c' : Context} (inv : Inv t) (h : Changes t.context c') :
    Inv ⟨c', t.picked⟩ where
  masked := h.masked inv.masked
  stepY := h.stepY.trans inv.stepY
  textures i := (inv.textures i).reset (h.texture i)
  color := inv.color.reset h.color
  held i on := by
    obtain ⟨f, read, key⟩ := inv.held i on
    exact ⟨f, (h.texture i).read.trans read, by rw [h.needs]; exact key⟩
  colorHeld r hr := by
    obtain ⟨f, reader, key⟩ := inv.colorHeld r (h.color.read ▸ hr)
    exact ⟨f, reader, by rw [h.needs]; exact key⟩
  colorUnset none := by
    rw [h.needs]
    exact inv.colorUnset (h.color.read ▸ none)
  sameUnits clean := by
    obtain ⟨clean, same⟩ := h.units clean
    rw [← inv.sameUnits clean]
    exact funext fun i => (same i).1
  words clean := by
    obtain ⟨clean, same⟩ := h.units clean
    rw [h.needs, inv.words clean]
    exact (textureNeeds_congr _ (fun i => (same i).1) fun i => (same i).2).symm
  tests clean := by
    obtain ⟨clean, same⟩ := h.tests clean
    rw [h.needs, inv.tests clean, same]
  pipeline kept := by
    obtain ⟨kept, same⟩ := h.pipeline kept
    rw [h.needs, inv.pipeline kept, same]
  format clean := by
    obtain ⟨clean, same⟩ := h.format clean
    rw [h.needs, inv.format clean, same]
  functions set := by
    obtain ⟨initY, scanline⟩ := inv.functions (h.color.read ▸ set)
    rw [h.needs, h.initY, h.scanline]
    exact ⟨initY, scanline⟩

theorem stateNeeds_eq (c : Context) :
    stateNeeds c = ⟨pipelineNeeds c (needsW c), testNeeds c, textureNeeds c.texture fun _ => 0⟩ :=
  rfl

theorem newNeeds_eq (inv : Inv t) (ready : Ready t) :
    newNeeds t.context = stateNeeds t.context := by
  rw [stateNeeds_eq, newNeeds]
  have due : (t.context.dirty .pixelPipeline ||
      (t.context.dirty .cb && t.context.enables .blending)) = true ↔ PipelineDue t.context := by
    simp only [PipelineDue, Bool.or_eq_true, Bool.and_eq_true]
  congr 1
  · split
    · rfl
    · rename_i kept
      have kept : ¬PipelineDue t.context := fun h => kept (due.mpr h)
      have hrest := (inv.pipeline kept).trans (rest_pipelineNeeds _ _ (needsW t.context))
      split
      · exact eq_pipelineNeeds ((rest_withFormat _ _).trans hrest) (read_withFormat _ _)
          ((read_w_withFormat _ _).trans (ready.w kept))
      · rename_i clean
        exact eq_pipelineNeeds hrest (inv.format (Bool.eq_false_iff.mpr clean)) (ready.w kept)
  · split
    · rfl
    · rename_i kept
      have clean : t.context.dirty .pixelPipeline = false :=
        Bool.eq_false_iff.mpr fun h => kept (due.mpr (.inl h))
      exact inv.tests clean
  · split
    · rename_i changed
      exact textureNeeds_eq (ready.second changed)
    · rename_i clean
      exact inv.words (Bool.eq_false_iff.mpr clean)

theorem settle_of_clean (clean : Clean c) : settle c = c := by
  obtain ⟨tmu, cb, pixel⟩ := clean
  have same : c.dirty = fun _ => false := by
    funext part
    cases part <;> assumption
  rw [settle, ← same]

theorem newNeeds_of_clean (clean : Clean c) : newNeeds c = c.needs := by
  obtain ⟨tmu, cb, pixel⟩ := clean
  simp only [newNeeds, tmu, cb, pixel, Bool.false_and, Bool.or_false, Bool.false_eq_true, if_false]

theorem gglPick_eq (inv : Inv t) (ready : Ready t) :
    (stateNeeds t.context = t.context.needs ∧ gglPick t.context = settle t.context) ∨
      gglPick t.context =
        settle (pickAll { t.context with needs := stateNeeds t.context }) := by
  have needs := newNeeds_eq inv ready
  unfold gglPick
  split
  · rename_i clean
    exact .inl ⟨needs.symm.trans (newNeeds_of_clean clean), (settle_of_clean clean).symm⟩
  · rw [needs]
    split
    · rename_i same
      exact .inl ⟨same, rfl⟩
    · exact .inr rfl

def repicked (c : Context) : Context := settle (pickAll { c with needs := stateNeeds c })

private theorem repicked_texture (c : Context) (i : Fin 2) :
    (repicked c).texture i =
      if (c.texture i).enable then { c.texture i with surface := pickSurface (c.texture i).surface }
      else c.texture i := rfl

private theorem repicked_enable (c : Context) (i : Fin 2) :
    ((repicked c).texture i).enable = (c.texture i).enable := by
  rw [repicked_texture]
  split <;> rfl

private theorem unitNeeds_repicked (c : Context) (i : Fin 2) :
    unitNeeds ((repicked c).texture i) = unitNeeds (c.texture i) := by
  rw [repicked_texture]
  split
  · simp only [unitNeeds, pickSurface_format]
  · rfl

theorem enabledUnits_repicked (c : Context) : enabledUnits (repicked c) = enabledUnits c :=
  funext (repicked_enable c)

theorem stateNeeds_repicked (c : Context) : stateNeeds (repicked c) = stateNeeds c := by
  have format : (repicked c).color.format = c.color.format := pickSurface_format _
  have blend : blendNeeds (repicked c) = blendNeeds c := by
    simp only [blendNeeds, format]
    rfl
  have pipeline : pipelineNeeds (repicked c) (needsW c) = pipelineNeeds c (needsW c) := by
    simp only [pipelineNeeds, format, blend]
    rfl
  have words := textureNeeds_congr (fun _ => 0) (repicked_enable c) (unitNeeds_repicked c)
  rw [stateNeeds_eq, stateNeeds_eq, ← words, ← pipeline]
  rfl

theorem fromScratch_selected (c : Context) :
    selected (fromScratch c) =
      ((pickScanline (stateNeeds c)).initY, (pickScanline (stateNeeds c)).stepY.getD c.stepY,
        (perspective c).getD (pickScanline (stateNeeds c)).scanline) := rfl

private theorem stepY_generic (generic : c.stepY = .generic) (needs : Needs) :
    (pickScanline needs).stepY.getD c.stepY = .generic := by
  have shortcut : (findShortcut needs).stepY.getD c.stepY = .generic := by
    unfold findShortcut
    split
    · exact generic
    · rfl
  unfold pickScanline
  extract_lets
  split
  · exact generic
  · split
    · split
      · exact generic
      · exact shortcut
    · exact shortcut

theorem repicked_picked (inv : Inv t) (ready : Ready t) :
    Picked (repicked t.context) where
  units i on := by
    have on : (t.context.texture i).enable = true := (repicked_enable _ i).symm.trans on
    rw [repicked_texture, if_pos on]
    exact (inv.textures i).served (ready.bound i on)
  color := by
    refine inv.color.served ?_
    by_contra unbound
    rw [not_or, not_not] at unbound
    have format := inv.color.unset (Bool.eq_false_iff.mpr unbound.1) unbound.2
    exact ready.color.elim (fun h => h format) fun h => h unbound.2
  functions := by
    have generic : (repicked t.context).stepY = .generic := stepY_generic inv.stepY _
    rw [fromScratch_selected, stateNeeds_repicked, stepY_generic generic, selected, generic]
    rfl

private theorem color_set (inv : Inv t) (ready : Ready t)
    (same : stateNeeds t.context = t.context.needs) : t.context.color.read ≠ none := by
  intro none
  have zero := inv.colorUnset none
  rw [← same, stateNeeds_eq, read_cbFormat_pipelineNeeds] at zero
  exact ready.color.elim (fun h => h (Fin.ext zero)) fun h => h none

theorem settled_picked (inv : Inv t) (ready : Ready t)
    (same : stateNeeds t.context = t.context.needs) : Picked (settle t.context) where
  units i on := by
    have picked : enabledUnits t.context = t.picked := by
      by_contra other
      exact ready.keyed other same
    have on : (t.context.texture i).enable = true := on
    obtain ⟨f, read, key⟩ := inv.held i (picked ▸ on)
    have word := textureNeeds_slot (fun _ => 0) on
    rw [← picked, ← same, stateNeeds_eq] at key
    have format : f = (t.context.texture i).surface.format := by
      refine Fin.ext (key.symm.trans ?_)
      rw [← read_tFormat_unitNeeds, ← word]
      rfl
    exact (inv.textures i).served_of_read (format ▸ read)
  color := by
    obtain ⟨r, hr⟩ := Option.ne_none_iff_exists'.mp (color_set inv ready same)
    obtain ⟨f, reader, key⟩ := inv.colorHeld r hr
    rw [← same, stateNeeds_eq, read_cbFormat_pipelineNeeds] at key
    have format : f = t.context.color.format := Fin.ext key.symm
    exact inv.color.served_of_read (hr.trans (congrArg some (format ▸ reader)))
  functions := by
    have picked : enabledUnits t.context = t.picked := by
      by_contra other
      exact ready.keyed other same
    obtain ⟨initY, scanline⟩ := inv.functions (color_set inv ready same)
    have bit : Needs.w.read t.context.needs.n = (needsW t.context).toNat := by
      rw [← same, stateNeeds_eq, read_w_pipelineNeeds]
    have scanline := scanline _ bit
    rw [← picked, ← perspective_eq inv.masked, ← same] at scanline
    rw [← same] at initY
    have generic : (settle t.context).stepY = .generic := inv.stepY
    rw [fromScratch_selected, stepY_generic generic]
    exact Prod.ext initY (Prod.ext inv.stepY scanline)

/-- A pick leaves the functions of the state, and the key they were picked for. -/
structure Settled (t : Tracked) (c' : Context) : Prop where
  picked : Picked c'
  needs : c'.needs = stateNeeds c'
  dirty : c'.dirty = fun _ => false
  units : enabledUnits c' = enabledUnits t.context
  masked : Masked c'
  stepY : c'.stepY = .generic
  textures : ∀ i, Kept (c'.texture i).surface

theorem gglPick_settled (inv : Inv t) (ready : Ready t) : Settled t (gglPick t.context) := by
  obtain ⟨same, kept⟩ | again := gglPick_eq inv ready
  · rw [kept]
    exact
      { picked := settled_picked inv ready same
        needs := same.symm
        dirty := rfl
        units := rfl
        masked := ⟨inv.masked.mask, inv.masked.tmus⟩
        stepY := inv.stepY
        textures := inv.textures }
  · rw [again]
    exact
      { picked := repicked_picked inv ready
        needs := (stateNeeds_repicked _).symm
        dirty := rfl
        units := enabledUnits_repicked _
        masked := ⟨inv.masked.mask.trans (congrArg unitMask (enabledUnits_repicked _).symm),
          inv.masked.tmus⟩
        stepY := stepY_generic inv.stepY _
        textures := fun i => by
          change Kept ((repicked t.context).texture i).surface
          rw [repicked_texture]
          split
          · exact (inv.textures i).pickSurface
          · exact inv.textures i }

theorem Settled.inv {c' : Context} (h : Settled t c') :
    Inv ⟨c', enabledUnits t.context⟩ where
  masked := h.masked
  stepY := h.stepY
  textures := h.textures
  color := h.picked.color.kept
  held i on := by
    have on : (c'.texture i).enable = true := (congrFun h.units i).trans on
    refine ⟨_, (h.picked.units i on).1, ?_⟩
    have word := textureNeeds_slot (fun _ => 0) on
    rw [← read_tFormat_unitNeeds, ← word, h.needs, ← h.units]
    rfl
  colorHeld r hr := by
    refine ⟨c'.color.format, Option.some.inj (hr.symm.trans h.picked.color.1), ?_⟩
    rw [h.needs, stateNeeds_eq, read_cbFormat_pipelineNeeds]
  colorUnset none := absurd (h.picked.color.1.symm.trans none) (Option.some_ne_none _)
  sameUnits _ := h.units
  words _ := congrArg Needs.t h.needs
  tests _ := congrArg Needs.p h.needs
  pipeline _ := by
    rw [h.needs, stateNeeds_eq]
    exact rest_pipelineNeeds _ _ _
  format _ := by rw [h.needs, stateNeeds_eq, read_cbFormat_pipelineNeeds]
  functions _ := by
    have functions := h.picked.functions
    rw [fromScratch_selected, ← h.needs, perspective_eq h.masked, h.units] at functions
    refine ⟨congrArg Prod.fst functions, fun w bit => ?_⟩
    have same : w = needsW c' := by
      rw [h.needs, stateNeeds_eq, read_w_pipelineNeeds] at bit
      revert bit
      cases w <;> cases needsW c' <;> decide
    rw [same]
    exact congrArg (fun s => s.2.2) functions

theorem step_inv (t : Tracked) (op : Op) (inv : Inv t) (safe : Safe t op) : Inv (step t op) := by
  cases op with
  | enableDisable name en => exact inv.changes (changes_enableDisable _ name en)
  | activeTexture tmu => exact inv.changes (changes_activeTexture _ tmu)
  | bindTexture surface => exact inv.changes (changes_bindTexture _ surface)
  | colorBuffer surface allocated => exact inv.changes (changes_colorBuffer _ surface allocated)
  | readBuffer surface => exact inv.changes (changes_readBuffer _ surface)
  | depthBuffer surface => exact inv.changes (changes_depthBuffer _ surface)
  | scissor x y width height => exact inv.changes (changes_scissor _ x y width height)
  | shadeModel mode => exact inv.changes (changes_shadeModel _ mode)
  | blendFunc src dst | blendFuncSeparate src dst srcAlpha dstAlpha =>
    exact inv.changes (changes_setBlend _ _)
  | colorMask r g b a => exact inv.changes (changes_colorMask _ r g b a)
  | depthMask flag => exact inv.changes (changes_depthMask _ flag)
  | stencilMask mask => exact inv.changes (changes_stencilMask _ mask)
  | alphaFuncx func ref => exact inv.changes (changes_alphaFuncx _ func ref)
  | depthFunc func => exact inv.changes (changes_depthFunc _ func)
  | logicOp opcode => exact inv.changes (changes_logicOp _ opcode)
  | texEnvi target pname param => exact inv.changes (changes_texEnvi _ target pname param)
  | texEnvColor r g b a => exact inv.changes (changes_texEnvColor _ r g b a)
  | texParameteri target pname param => exact inv.changes (changes_texParameteri _ target pname param)
  | texGeni coord pname param => exact inv.changes (changes_texGeni _ coord pname param)
  | pick => exact (gglPick_settled inv safe).inv

/-- In a run whose picks are all ready, every pick leaves the readers, the writers and the
functions that picking from scratch in the current state would select. -/
theorem pick_coherent (ops pre : List Op) (safe : Guarded step Safe start ops)
    (hpre : pre ++ [.pick] <+: ops) : Picked (gglPick (run step start pre).context) := by
  have inv : Inv (run step start pre) :=
    run_invariant step_inv start_inv (safe.of_prefix ((List.prefix_append pre _).trans hpre))
  exact (gglPick_settled inv (safe.next hpre)).picked

private def screen : GGLSurface :=
  { width := 64, height := 64, stride := 64, data := 0x1000, format := Format.rgb565 }

private def image : GGLSurface :=
  { width := 32, height := 32, stride := 32, data := 0x8000, format := Format.rgba8888 }

private def one : List Op :=
  [.colorBuffer screen true, .bindTexture image, .enableDisable GGL.texture2D true]

private def both : List Op :=
  one ++ [.pick, .activeTexture 1, .bindTexture image, .enableDisable GGL.texture2D true]

theorem pick_coherent_two_units : Picked (gglPick (run step start both).context) := by
  have first : Ready (run step start one) := by decide +kernel
  have second : Ready (run step start both) := by decide +kernel
  refine pick_coherent (both ++ [.pick]) both ?_ (List.prefix_refl _)
  exact ⟨trivial, trivial, trivial, first, trivial, trivial, trivial, second, trivial⟩

private def swapped : List Op :=
  one ++ [.pick, .enableDisable GGL.texture2D false, .activeTexture 1, .bindTexture image,
    .enableDisable GGL.texture2D true]

/-- The key of the second unit is the one the first unit left, so its reader is never picked. -/
theorem swapped_unit_unread : ¬Picked (gglPick (run step start swapped).context) := by
  intro picked
  have served := (picked.units 1 (by decide +kernel)).1
  have unread : ((gglPick (run step start swapped).context).texture 1).surface.read = none := by
    decide +kernel
  exact Option.some_ne_none _ (served.symm.trans unread)

end RabbitRender.Pixelflinger.PickCoherence
