/- RabbitRender/Pixelflinger/FillKeys
   layer: proof
   source: libpixelflinger/picker.cpp, libpixelflinger/pixelflinger.cpp,
     libpixelflinger/scanline.cpp
   digest: The state for which `pick_scanline` selects a scanline that fills. -/

import RabbitRender.Pixelflinger.BlendSimplification
import RabbitRender.Pixelflinger.PickCoherence
import RabbitRender.Pixelflinger.Scanlines

set_option autoImplicit false

namespace RabbitRender.Pixelflinger.FillKeys

open RabbitRender.GL (GLenum)
open Lib.BitFields Lib.GuardedRun Pixelflinger.State Pixelflinger.Picker Pixelflinger.Keys
open Pixelflinger.PickCoherence Pixelflinger.BlendEquation Pixelflinger.Scanlines

structure Checked (c : Context) : Prop where
  alphaFunc : GGL.never ≤ c.alphaFunc ∧ c.alphaFunc ≤ GGL.always
  depthFunc : GGL.never ≤ c.depthFunc ∧ c.depthFunc ≤ GGL.always
  opcode : GGL.clear ≤ c.opcode ∧ c.opcode ≤ GGL.set
  maskColor : c.maskColor < 16
  maskDepth : c.maskDepth < 2

theorem checked_init : Checked initContext := by
  constructor <;> decide

def checkedFields (c : Context) : GLenum × GLenum × GLenum × Nat × Nat :=
  (c.alphaFunc, c.depthFunc, c.opcode, c.maskColor, c.maskDepth)

variable {c : Context}

theorem Checked.of_same {c' : Context} (h : Checked c) (same : checkedFields c' = checkedFields c) :
    Checked c' := by
  simp only [checkedFields, Prod.mk.injEq] at same
  obtain ⟨alphaFunc, depthFunc, opcode, maskColor, maskDepth⟩ := same
  constructor
  · rw [alphaFunc]
    exact h.alphaFunc
  · rw [depthFunc]
    exact h.depthFunc
  · rw [opcode]
    exact h.opcode
  · rw [maskColor]
    exact h.maskColor
  · rw [maskDepth]
    exact h.maskDepth

theorem enableFlag_fields (c : Context) (flag : Enable) (en : Bool) :
    checkedFields (enableFlag c flag en) = checkedFields c := by
  unfold enableFlag
  split <;> rfl

private theorem fields_ite {p : Prop} [Decidable p] {a b : Context}
    (ha : checkedFields a = checkedFields c) (hb : checkedFields b = checkedFields c) :
    checkedFields (if p then a else b) = checkedFields c := by
  split
  · exact ha
  · exact hb

theorem enableDisable_fields (c : Context) (name : GLenum) (en : Bool) :
    checkedFields (enableDisable c name en) = checkedFields c := by
  have texture2D : checkedFields (gglEnableTexture2d c en) = checkedFields c := by
    unfold gglEnableTexture2d
    split <;> rfl
  have scissorTest : checkedFields (gglEnableScissorTest c en) = checkedFields c := by
    unfold gglEnableScissorTest
    split <;> rfl
  have flag (flag : Enable) (en : Bool) := enableFlag_fields c flag en
  unfold enableDisable
  exact fields_ite (flag .blending en) <| fields_ite scissorTest <|
    fields_ite (flag .alphaTest en) <| fields_ite (flag .logicOp en) <|
    fields_ite (flag .dither en) <| fields_ite rfl <| fields_ite (flag .depthTest _) <|
    fields_ite (flag .aa en) <| fields_ite texture2D <| fields_ite (flag .w en) <|
    fields_ite (flag .fog en) <| fields_ite (flag .pointAaNice en) rfl

theorem setField_fields (c : Context) (differs : Bool) (t : Texture) :
    checkedFields (setField c differs t) = checkedFields c := by
  unfold setField
  split <;> rfl

theorem gglPick_fields (c : Context) : checkedFields (gglPick c) = checkedFields c := by
  unfold gglPick
  split_ifs <;> rfl

theorem checked_gglColorMask (h : Checked c) (r g b a : Bool) :
    Checked (gglColorMask c r g b a) := by
  have range : (if a then 1 <<< 0 else 0) ||| (if r then 1 <<< 1 else 0) |||
      (if g then 1 <<< 2 else 0) ||| (if b then 1 <<< 3 else 0) < 16 := by
    cases r <;> cases g <;> cases b <;> cases a <;> decide
  unfold gglColorMask
  dsimp only
  generalize (if a then 1 <<< 0 else 0) ||| (if r then 1 <<< 1 else 0) |||
    (if g then 1 <<< 2 else 0) ||| (if b then 1 <<< 3 else 0) = mask at range ⊢
  split
  · exact ⟨h.alphaFunc, h.depthFunc, h.opcode, range, h.maskDepth⟩
  · exact h

theorem checked_gglDepthMask (h : Checked c) (flag : Nat) : Checked (gglDepthMask c flag) := by
  unfold gglDepthMask
  split
  · refine ⟨h.alphaFunc, h.depthFunc, h.opcode, h.maskColor, ?_⟩
    change (if flag ≠ 0 then 1 else 0) < 2
    split <;> decide
  · exact h

theorem checked_gglAlphaFuncx (h : Checked c) (func : GLenum) (ref : Int) :
    Checked (gglAlphaFuncx c func ref) := by
  unfold gglAlphaFuncx
  dsimp only
  split_ifs with outside
  · exact h.of_same rfl
  · rw [not_or, not_lt, not_lt] at outside
    exact ⟨outside, h.depthFunc, h.opcode, h.maskColor, h.maskDepth⟩
  · exact h.of_same rfl

theorem checked_gglDepthFunc (h : Checked c) (func : GLenum) : Checked (gglDepthFunc c func) := by
  unfold gglDepthFunc
  split_ifs with outside
  · exact h.of_same rfl
  · rw [not_or, not_lt, not_lt] at outside
    exact ⟨h.alphaFunc, outside, h.opcode, h.maskColor, h.maskDepth⟩
  · exact h

theorem checked_gglLogicOp (h : Checked c) (opcode : GLenum) : Checked (gglLogicOp c opcode) := by
  unfold gglLogicOp
  split_ifs with outside
  · exact h.of_same rfl
  · rw [not_or, not_lt, not_lt] at outside
    exact ⟨h.alphaFunc, h.depthFunc, outside, h.maskColor, h.maskDepth⟩
  · exact h

theorem checked_call (h : Checked c) (op : Op) : Checked (call c op) := by
  cases op with
  | enableDisable name en => exact h.of_same (enableDisable_fields c name en)
  | activeTexture tmu =>
    have same : checkedFields (gglActiveTexture c tmu) = checkedFields c := by
      unfold gglActiveTexture
      split <;> rfl
    exact h.of_same same
  | bindTexture surface =>
    have same : checkedFields (gglBindTexture c surface) = checkedFields c := by
      unfold gglBindTexture
      dsimp only
      split <;> rfl
    exact h.of_same same
  | colorBuffer surface allocated =>
    have same : checkedFields (gglColorBuffer c surface allocated) = checkedFields c := by
      by_cases changed : surface.format = c.color.format <;>
        simp [gglColorBuffer, setScissor, stateChanged, checkedFields, changed]
    exact h.of_same same
  | readBuffer surface | scissor x y width height | texEnvColor r g b a => exact h.of_same rfl
  | depthBuffer surface =>
    have same : checkedFields (gglDepthBuffer c surface) = checkedFields c := by
      unfold gglDepthBuffer
      split
      · rfl
      · exact enableFlag_fields _ _ _
    exact h.of_same same
  | shadeModel mode =>
    have same : checkedFields (gglShadeModel c mode) = checkedFields c := by
      unfold gglShadeModel
      split_ifs
      · exact enableFlag_fields c _ _
      · exact enableFlag_fields c _ _
      · rfl
    exact h.of_same same
  | blendFunc src dst =>
    have same : checkedFields (gglBlendFunc c src dst) = checkedFields c := by
      unfold gglBlendFunc setBlend
      dsimp only
      split <;> rfl
    exact h.of_same same
  | blendFuncSeparate src dst srcAlpha dstAlpha =>
    have same : checkedFields (gglBlendFuncSeparate c src dst srcAlpha dstAlpha) =
        checkedFields c := by
      unfold gglBlendFuncSeparate setBlend
      dsimp only
      split <;> rfl
    exact h.of_same same
  | colorMask r g b a => exact checked_gglColorMask h r g b a
  | depthMask flag => exact checked_gglDepthMask h flag
  | stencilMask mask =>
    have same : checkedFields (gglStencilMask c mask) = checkedFields c := by
      unfold gglStencilMask
      split <;> rfl
    exact h.of_same same
  | alphaFuncx func ref => exact checked_gglAlphaFuncx h func ref
  | depthFunc func => exact checked_gglDepthFunc h func
  | logicOp opcode => exact checked_gglLogicOp h opcode
  | texEnvi target pname param =>
    have same : checkedFields (gglTexEnvi c target pname param) = checkedFields c := by
      unfold gglTexEnvi
      split_ifs
      · rfl
      · exact setField_fields c _ _
      · rfl
    exact h.of_same same
  | texParameteri target pname param =>
    have same : checkedFields (gglTexParameteri c target pname param) = checkedFields c := by
      unfold gglTexParameteri
      dsimp only
      split_ifs
      all_goals first
        | rfl
        | exact setField_fields c _ _
    exact h.of_same same
  | texGeni coord pname param =>
    have same : checkedFields (gglTexGeni c coord pname param) = checkedFields c := by
      unfold gglTexGeni
      dsimp only
      split_ifs
      all_goals first
        | rfl
        | exact setField_fields c _ _
    exact h.of_same same
  | pick => exact h.of_same (gglPick_fields c)

theorem checked_run (ops : List Op) : Checked (run step start ops).context := by
  have kept (t : Tracked) (h : Checked t.context) : Checked (run step t ops).context := by
    induction ops generalizing t with
    | nil => exact h
    | cons op ops ih => exact ih (step t op) (checked_call h op)
  exact kept start checked_init

theorem read_pipelineNeeds (c : Context) (w : Bool) :
    Needs.shade.read (pipelineNeeds c w) = (c.enables .smooth).toNat % 2 ∧
    Needs.maskArgb.read (pipelineNeeds c w) = (c.maskColor ^^^ 0xF) % 16 ∧
    Needs.logicOp.read (pipelineNeeds c w) =
      (if c.enables .logicOp then c.opcode else GGL.copy) % 16 ∧
    Needs.blendSrc.read (pipelineNeeds c w) = (blendNeeds c).1 % 16 ∧
    Needs.blendDst.read (pipelineNeeds c w) = (blendNeeds c).2.1 % 16 ∧
    Needs.blendSrcA.read (pipelineNeeds c w) = (blendNeeds c).2.2.1 % 16 ∧
    Needs.blendDstA.read (pipelineNeeds c w) = (blendNeeds c).2.2.2 % 16 := by
  refine ⟨?_, ?_, ?_, ?_, ?_, ?_, ?_⟩
  all_goals
    simp (disch := decide) only [pipelineNeeds, Field.read_or, Field.read_build_self,
      Field.read_build_apart, Nat.or_zero, Nat.zero_or]
    rfl

theorem read_testNeeds (c : Context) :
    Needs.pDither.read (testNeeds c) = (c.enables .dither).toNat % 2 ∧
    Needs.pAa.read (testNeeds c) = (c.enables .aa).toNat % 2 ∧
    Needs.pFog.read (testNeeds c) = (c.enables .fog).toNat % 2 ∧
    Needs.pAlphaTest.read (testNeeds c) =
      (if c.enables .alphaTest then c.alphaFunc else GGL.always) % 8 ∧
    Needs.pDepthTest.read (testNeeds c) =
      (if c.enables .depthTest then c.depthFunc else GGL.always) % 8 ∧
    Needs.pMaskZ.read (testNeeds c) =
      (if c.enables .depthTest then c.maskDepth &&& 1 else 0) % 2 := by
  refine ⟨?_, ?_, ?_, ?_, ?_, ?_⟩
  all_goals
    unfold testNeeds
    cases c.enables .depthTest <;>
      simp (disch := decide) only [Bool.false_eq_true, if_true, if_false, Field.read_or,
        Field.read_build_self, Field.read_build_apart, Nat.or_zero, Nat.zero_or] <;> rfl

theorem read_filled {needs : Needs} (picked : fill16noblend.Matches needs) :
    (∀ f : Field, f.mask 32 &&& fill16noblend.mask.n = f.mask 32 →
      f.read needs.n = f.read fill16noblend.value.n) ∧
    (∀ f : Field, f.mask 32 &&& fill16noblend.mask.p = f.mask 32 →
      f.read needs.p = f.read fill16noblend.value.p) ∧
    ∀ i, Needs.tFormat.read (needs.t i) = 0 := by
  unfold Filter.Matches at picked
  simp only [BitVec.ofNat_eq_ofNat, BitVec.or_eq_zero_iff] at picked
  obtain ⟨⟨⟨n, p⟩, t0⟩, t1⟩ := picked
  refine ⟨fun f covered => Field.read_eq_of_masked covered n,
    fun f covered => Field.read_eq_of_masked covered p, fun i => ?_⟩
  fin_cases i
  · exact Field.read_eq_of_masked (by decide) t0
  · exact Field.read_eq_of_masked (by decide) t1

def StandsForOne (f : Format) (factor : GLenum) : Prop :=
  factor = GGL.one ∨
    ((formats f).c 0).h = 0 ∧ (factor = GGL.dstAlpha ∨ factor = GGL.oneMinusDstAlpha)

structure Plain (c : Context) : Prop where
  smooth : c.enables .smooth = false
  dither : c.enables .dither = false
  aa : c.enables .aa = false
  fog : c.enables .fog = false
  maskColor : c.maskColor = 0xF
  logicOp : c.enables .logicOp = true → c.opcode = GGL.copy
  alphaTest : c.enables .alphaTest = true → c.alphaFunc = GGL.always
  depthTest : c.enables .depthTest = true → c.depthFunc = GGL.always ∧ c.maskDepth = 0
  units : ∀ i, (c.texture i).enable = true → (c.texture i).surface.format = Format.none
  blending : c.enables .blending = true →
    StandsForOne c.color.format c.blend.src ∧ c.blend.dst = GGL.zero ∧
      (c.blend.alphaSeparate = true →
        StandsForOne c.color.format c.blend.srcAlpha ∧ c.blend.dstAlpha = GGL.zero)

private theorem factors_recorded : ∀ factor ∈ blendFactors,
    (gglBlendfactorToNeeds factor % 16 = 1 → factor = GGL.one) ∧
    (gglBlendfactorToNeeds (withoutAlpha factor) % 16 = 1 →
      factor = GGL.one ∨ factor = GGL.dstAlpha ∨ factor = GGL.oneMinusDstAlpha) ∧
    (gglBlendfactorToNeeds factor % 16 = 0 → factor = GGL.zero) ∧
    (gglBlendfactorToNeeds (withoutAlpha factor) % 16 = 0 → factor = GGL.zero) := by
  decide

private theorem source_recorded {f : Format} {factor : GLenum} (known : factor ∈ blendFactors)
    (recorded : gglBlendfactorToNeeds
      (if ((formats f).c 0).h = 0 then withoutAlpha factor else factor) % 16 = 1) :
    StandsForOne f factor := by
  obtain ⟨alpha, missing, -⟩ := factors_recorded factor known
  split_ifs at recorded with none
  · rcases missing recorded with one | folded
    · exact .inl one
    · exact .inr ⟨none, folded⟩
  · exact .inl (alpha recorded)

private theorem destination_recorded {f : Format} {factor : GLenum} (known : factor ∈ blendFactors)
    (recorded : gglBlendfactorToNeeds
      (if ((formats f).c 0).h = 0 then withoutAlpha factor else factor) % 16 = 0) :
    factor = GGL.zero := by
  obtain ⟨-, -, alpha, missing⟩ := factors_recorded factor known
  split_ifs at recorded with none
  · exact missing recorded
  · exact alpha recorded

theorem blending_of_matches (known : ∀ factor ∈ usedFactors c.blend, factor ∈ blendFactors)
    (picked : fill16noblend.Matches (stateNeeds c)) (blends : c.enables .blending = true) :
    StandsForOne c.color.format c.blend.src ∧ c.blend.dst = GGL.zero ∧
      (c.blend.alphaSeparate = true →
        StandsForOne c.color.format c.blend.srcAlpha ∧ c.blend.dstAlpha = GGL.zero) := by
  obtain ⟨word, -, -⟩ := read_filled picked
  obtain ⟨-, -, -, src, dst, srcA, dstA⟩ := read_pipelineNeeds c (needsW c)
  have source := src.symm.trans (word Needs.blendSrc (by decide))
  have destination := dst.symm.trans (word Needs.blendDst (by decide))
  have sourceAlpha := srcA.symm.trans (word Needs.blendSrcA (by decide))
  have destinationAlpha := dstA.symm.trans (word Needs.blendDstA (by decide))
  simp only [blendNeeds, blends, if_true] at source destination sourceAlpha destinationAlpha
  have member (factor : GLenum) (used : factor = c.blend.src ∨ factor = c.blend.dst) :
      factor ∈ blendFactors := by
    apply known
    unfold usedFactors
    rcases used with rfl | rfl <;> split <;> simp
  refine ⟨source_recorded (member _ (.inl rfl)) source,
    destination_recorded (member _ (.inr rfl)) destination, fun separate => ?_⟩
  simp only [separate, if_true] at sourceAlpha destinationAlpha
  refine ⟨source_recorded (known _ ?_) sourceAlpha, destination_recorded (known _ ?_)
    destinationAlpha⟩ <;> simp [usedFactors, separate]

theorem units_of_matches (picked : fill16noblend.Matches (stateNeeds c)) (i : Fin 2)
    (enabled : (c.texture i).enable = true) : (c.texture i).surface.format = Format.none := by
  obtain ⟨-, -, unit⟩ := read_filled picked
  have format := unit (slot (fun i => (c.texture i).enable) i)
  rw [stateNeeds_eq] at format
  simp only [textureNeeds_slot (fun _ => 0) enabled, read_tFormat_unitNeeds] at format
  exact Fin.ext format

private theorem copy_recorded {opcode : Nat} (low : 0x1500 ≤ opcode) (high : opcode ≤ 0x150F)
    (recorded : opcode % 16 = 3) : opcode = 0x1503 := by
  omega

private theorem always_recorded {func : Nat} (low : 0x0200 ≤ func) (high : func ≤ 0x0207)
    (recorded : func % 8 = 7) : func = 0x0207 := by
  omega

private theorem mask_recorded : ∀ mask < 16, (mask ^^^ 0xF) % 16 = 0 → mask = 0xF := by decide

private theorem kept_recorded : ∀ mask < 2, (mask &&& 1) % 2 = 0 → mask = 0 := by decide

theorem plain_of_matches (checked : Checked c)
    (known : ∀ factor ∈ usedFactors c.blend, factor ∈ blendFactors)
    (picked : fill16noblend.Matches (stateNeeds c)) : Plain c := by
  obtain ⟨pipeline, tests, -⟩ := read_filled picked
  obtain ⟨shade, maskArgb, logicOp, -⟩ := read_pipelineNeeds c (needsW c)
  obtain ⟨dither, aa, fog, alphaTest, depthTest, maskZ⟩ := read_testNeeds c
  have off (b : Bool) (zero : b.toNat % 2 = 0) : b = false := by
    cases b
    · rfl
    · exact absurd zero (by decide)
  constructor
  · exact off _ (shade.symm.trans (pipeline Needs.shade (by decide)))
  · exact off _ (dither.symm.trans (tests Needs.pDither (by decide)))
  · exact off _ (aa.symm.trans (tests Needs.pAa (by decide)))
  · exact off _ (fog.symm.trans (tests Needs.pFog (by decide)))
  · exact mask_recorded _ checked.maskColor
      (maskArgb.symm.trans (pipeline Needs.maskArgb (by decide)))
  · intro enabled
    have recorded := logicOp.symm.trans (pipeline Needs.logicOp (by decide))
    rw [if_pos enabled] at recorded
    exact copy_recorded checked.opcode.1 checked.opcode.2 recorded
  · intro enabled
    have recorded := alphaTest.symm.trans (tests Needs.pAlphaTest (by decide))
    rw [if_pos enabled] at recorded
    exact always_recorded checked.alphaFunc.1 checked.alphaFunc.2 recorded
  · intro enabled
    have recorded := depthTest.symm.trans (tests Needs.pDepthTest (by decide))
    have kept := maskZ.symm.trans (tests Needs.pMaskZ (by decide))
    rw [if_pos enabled] at recorded kept
    exact ⟨always_recorded checked.depthFunc.1 checked.depthFunc.2 recorded,
      kept_recorded _ checked.maskDepth kept⟩
  · exact units_of_matches picked
  · exact blending_of_matches known picked

private theorem shortcut_fills : ∀ s ∈ shortcuts, memsetOf s.scanline = none := by
  intro s member
  simp only [shortcuts, List.mem_cons, List.not_mem_nil, or_false] at member
  rcases member with rfl | rfl | rfl | rfl | rfl | rfl | rfl | rfl | rfl | rfl | rfl | rfl | rfl |
    rfl | rfl | rfl | rfl | rfl | rfl | rfl | rfl | rfl | rfl | rfl | rfl | rfl <;> rfl

private theorem findShortcut_fills (needs : Needs) :
    memsetOf (findShortcut needs).scanline = none := by
  unfold findShortcut
  split
  · rename_i s found
    exact shortcut_fills s (List.mem_of_find?_eq_some found)
  · rfl

private theorem perspective_fills (c : Context) : ∀ s ∈ perspective c, memsetOf s = none := by
  intro s chosen
  unfold perspective at chosen
  split_ifs at chosen
  · obtain rfl := Option.some.inj chosen
    rfl
  · obtain rfl := Option.some.inj chosen
    rfl
  · exact absurd chosen (Option.not_mem_none s)

private theorem memsetScanline_fills {size : Nat} {s : Scanline}
    (chosen : memsetScanline size = some s) :
    memsetOf s = some (scanlineMemset size) ∧ (size = 1 ∨ size = 2 ∨ size = 4) := by
  unfold memsetScanline at chosen
  split_ifs at chosen with one two four
  · subst one
    obtain rfl := Option.some.inj chosen
    exact ⟨rfl, .inl rfl⟩
  · subst two
    obtain rfl := Option.some.inj chosen
    exact ⟨rfl, .inr (.inl rfl)⟩
  · subst four
    obtain rfl := Option.some.inj chosen
    exact ⟨rfl, .inr (.inr rfl)⟩

private theorem pickScanline_fills {needs : Needs} {run : FillScanline}
    (chosen : memsetOf (pickScanline needs).scanline = some run) :
    fill16noblend.Matches needs ∧ (pickScanline needs).initY = .packed ∧
      ∃ s, memsetScanline (formatSize (Needs.cbFormat.read needs.n)) = some s ∧
        memsetOf s = some run := by
  unfold pickScanline at chosen ⊢
  dsimp only at chosen ⊢
  split_ifs at chosen ⊢ with copied filled
  · exact absurd chosen nofun
  · split at chosen
    · rename_i s found
      rw [found]
      exact ⟨filled, rfl, s, rfl, chosen⟩
    · rw [findShortcut_fills] at chosen
      exact absurd chosen nofun
  · rw [findShortcut_fills] at chosen
    exact absurd chosen nofun

/-- Where a scanline that fills is selected, it fills words of the size of a pixel with the colour
that `init_y_packed` packs. -/
theorem filled_of_memset (picked : selected c = selected (fromScratch c)) {run : FillScanline}
    (memset : memsetOf c.scanline = some run) :
    fill16noblend.Matches (stateNeeds c) ∧ c.initY = .packed ∧
      run = scanlineMemset (formats c.color.format).size ∧
      ((formats c.color.format).size = 1 ∨ (formats c.color.format).size = 2 ∨
        (formats c.color.format).size = 4) := by
  rw [fromScratch_selected] at picked
  have start : c.initY = (pickScanline (stateNeeds c)).initY := congrArg Prod.fst picked
  have chosen : c.scanline = (perspective c).getD (pickScanline (stateNeeds c)).scanline :=
    congrArg (fun s => s.2.2) picked
  rw [chosen] at memset
  cases found : perspective c with
  | some s =>
    rw [found, Option.getD_some, perspective_fills _ s found] at memset
    exact absurd memset nofun
  | none =>
    rw [found, Option.getD_none] at memset
    obtain ⟨filled, packed, s, size, fills⟩ := pickScanline_fills memset
    have format : Needs.cbFormat.read (stateNeeds c).n = c.color.format.val :=
      read_cbFormat_pipelineNeeds c (needsW c)
    rw [format, formatSize, dif_pos c.color.format.isLt] at size
    obtain ⟨same, sizes⟩ := memsetScanline_fills size
    rw [same] at fills
    exact ⟨filled, start.trans packed, (Option.some.inj fills).symm, sizes⟩

end RabbitRender.Pixelflinger.FillKeys
