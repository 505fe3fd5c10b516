/- RabbitRender/Pixelflinger/Blits
   layer: proof
   source: libpixelflinger/raster.cpp, libpixelflinger/pixelflinger.cpp
   digest: The mask of enabled units agrees with the units exactly as long as a blit finds no other
     unit enabled. -/

import RabbitRender.Lib.GuardedRun
import RabbitRender.Pixelflinger.Calls

set_option autoImplicit false

namespace RabbitRender.Pixelflinger.Blits

open RabbitRender.GL (GLenum)
open Lib.GuardedRun Pixelflinger.State Pixelflinger.Picker
open Pixelflinger.Calls (enabledUnits)

/-- A rectangle of `gglBitBlit`, as its four numbers. -/
structure Rect where
  x : Int
  y : Int
  w : Int
  h : Int

/-- `1UL << tmu`, stored in 32 bits. -/
def tmuBit (tmu : Nat) : BitVec 32 := BitVec.ofNat 32 (1 <<< tmu)

def enableOnly (c : Context) (tmu : Nat) : Context :=
  if c.enabledTmu ≠ tmuBit tmu then
    stateChanged
      { setActive c { activeTexture c with enable := true } with
        enabledTmu := tmuBit tmu
        enables := Function.update c.enables .tmus true } .tmu
  else c

def texGen (c : Context) (mode : GLenum) : Context :=
  gglTexGeni (gglTexGeni c GGL.s GGL.textureGenMode mode) GGL.t GGL.textureGenMode mode

def clampWraps (c : Context) : Context :=
  gglTexParameteri (gglTexParameteri c GGL.texture2D GGL.textureWrapS GGL.clamp)
    GGL.texture2D GGL.textureWrapT GGL.clamp

/-- `gglBitBlit`, less the coordinates; `recti` picks before it draws. -/
def gglBitBlit (c : Context) (tmu : Nat) (crop rect : Rect) : Context :=
  let c := enableDisable (gglActiveTexture c tmu) GGL.wLerp false
  let c := enableOnly c tmu
  gglPick <|
    if rect.w = crop.w ∧ rect.h = crop.h then texGen c GGL.oneToOne
    else texGen (clampWraps c) GGL.automatic

inductive Op where
  | activeTexture (tmu : Nat)
  | enableTexture (enable : Bool)
  | bitBlit (tmu : Nat) (crop rect : Rect)

def step (c : Context) : Op → Context
  | .activeTexture tmu => gglActiveTexture c tmu
  | .enableTexture enable => enableDisable c GGL.texture2D enable
  | .bitBlit tmu crop rect => gglBitBlit c tmu crop rect

/-- The mask tells which units are enabled, and the flag whether there is one. -/
structure MaskCoherent (c : Context) : Prop where
  bit : ∀ i : Fin 2, c.enabledTmu.getLsbD i.val = (c.texture i).enable
  flag : c.enables .tmus = decide (c.enabledTmu ≠ 0)

structure SameRecords (c c' : Context) : Prop where
  units : enabledUnits c' = enabledUnits c
  mask : c'.enabledTmu = c.enabledTmu
  flag : c'.enables .tmus = c.enables .tmus

namespace SameRecords

variable {c c' c'' : Context}

theorem refl (c : Context) : SameRecords c c := ⟨rfl, rfl, rfl⟩

theorem trans (h : SameRecords c c') (h' : SameRecords c' c'') : SameRecords c c'' :=
  ⟨h'.units.trans h.units, h'.mask.trans h.mask, h'.flag.trans h.flag⟩

theorem coherent_iff (h : SameRecords c c') : MaskCoherent c' ↔ MaskCoherent c := by
  have unit (i : Fin 2) : (c'.texture i).enable = (c.texture i).enable := congrFun h.units i
  constructor
  · rintro ⟨bit, flag⟩
    refine ⟨fun i => ?_, ?_⟩
    · rw [← h.mask, bit i, unit i]
    · rw [← h.flag, flag, h.mask]
  · rintro ⟨bit, flag⟩
    refine ⟨fun i => ?_, ?_⟩
    · rw [h.mask, bit i, unit i]
    · rw [h.flag, flag, h.mask]

end SameRecords

theorem same_setField (c : Context) (differs : Bool) {t : Texture}
    (enable : t.enable = (activeTexture c).enable) : SameRecords c (setField c differs t) := by
  unfold setField
  split
  · refine ⟨?_, rfl, rfl⟩
    funext i
    change (Function.update c.texture c.activeTMU t i).enable = (c.texture i).enable
    rw [Function.update_apply]
    split
    next here => rw [here, enable]; rfl
    next => rfl
  · exact .refl c

theorem same_texGeni (c : Context) (coord pname param : GLenum) :
    SameRecords c (gglTexGeni c coord pname param) := by
  unfold gglTexGeni
  split_ifs
  · exact ⟨rfl, rfl, rfl⟩
  · exact same_setField c _ rfl
  · exact same_setField c _ rfl
  · exact ⟨rfl, rfl, rfl⟩

theorem same_texParameteri (c : Context) (target pname param : GLenum) :
    SameRecords c (gglTexParameteri c target pname param) := by
  unfold gglTexParameteri
  extract_lets u param
  have field (differs : Bool) (t : Texture) (enable : t.enable = u.enable) :
      SameRecords c (setField c differs t) := same_setField c differs enable
  split_ifs
  · exact ⟨rfl, rfl, rfl⟩
  all_goals first
    | exact field _ _ rfl
    | exact ⟨rfl, rfl, rfl⟩

theorem same_activeTexture (c : Context) (tmu : Nat) : SameRecords c (gglActiveTexture c tmu) := by
  unfold gglActiveTexture
  split <;> exact ⟨rfl, rfl, rfl⟩

theorem same_wLerp (c : Context) (enable : Bool) :
    SameRecords c (enableDisable c GGL.wLerp enable) := by
  have call : enableDisable c GGL.wLerp enable = enableFlag c .w enable := rfl
  rw [call]
  unfold enableFlag
  split <;> exact ⟨rfl, rfl, rfl⟩

theorem same_pick (c : Context) : SameRecords c (gglPick c) := by
  have enable (s : Context) (i : Fin 2) (h : s.texture i = c.texture i) :
      ((pickAll s).texture i).enable = (c.texture i).enable := by
    have picked : (pickAll s).texture i = if (s.texture i).enable then
        { s.texture i with surface := pickSurface (s.texture i).surface } else s.texture i := rfl
    rw [picked, h]
    split <;> rfl
  unfold gglPick
  split_ifs
  · exact .refl c
  · exact ⟨rfl, rfl, rfl⟩
  · refine ⟨?_, rfl, rfl⟩
    funext i
    exact enable { c with needs := newNeeds c } i rfl

theorem coherent_enableTexture {c : Context} (h : MaskCoherent c) (enable : Bool) :
    MaskCoherent (enableDisable c GGL.texture2D enable) := by
  have call : enableDisable c GGL.texture2D enable = gglEnableTexture2d c enable := rfl
  rw [call]
  unfold gglEnableTexture2d
  split_ifs with differs
  · refine ⟨fun i => ?_, ?_⟩
    · have unit : ((setActive c { activeTexture c with enable := enable }).texture i).enable =
          if i = c.activeTMU then enable else (c.texture i).enable := by
        change (Function.update c.texture c.activeTMU _ i).enable = _
        rw [Function.update_apply]
        split <;> rfl
      have shifted : (1#32 <<< c.activeTMU.val).getLsbD i.val = decide (i = c.activeTMU) := by
        generalize c.activeTMU = a
        fin_cases i <;> fin_cases a <;> rfl
      refine Eq.trans ?_ unit.symm
      change (tmuMask c enable).getLsbD i.val = _
      rw [← h.bit i]
      have inside : i.val < 32 := by omega
      cases enable with
      | true =>
        change (c.enabledTmu ||| 1#32 <<< c.activeTMU.val).getLsbD i.val =
          if i = c.activeTMU then true else c.enabledTmu.getLsbD i.val
        rw [BitVec.getLsbD_or, shifted]
        split_ifs with here <;> simp [here]
      | false =>
        change (c.enabledTmu &&& ~~~(1#32 <<< c.activeTMU.val)).getLsbD i.val =
          if i = c.activeTMU then false else c.enabledTmu.getLsbD i.val
        rw [BitVec.getLsbD_and, BitVec.getLsbD_not, shifted]
        split_ifs with here <;> simp [here, inside]
    · change Function.update c.enables .tmus (decide (tmuMask c enable ≠ 0)) .tmus =
        decide (tmuMask c enable ≠ 0)
      rw [Function.update_self]
  · exact h

/-- The mask is that of the unit already, or the unit exists and no other one is enabled. -/
def BlitSafe (c : Context) (tmu : Nat) : Prop :=
  c.enabledTmu = tmuBit tmu ∨ tmu < 2 ∧ ∀ i : Fin 2, i.val ≠ tmu → (c.texture i).enable = false

instance (c : Context) (tmu : Nat) : Decidable (BlitSafe c tmu) :=
  inferInstanceAs (Decidable (_ ∨ _))

theorem bit_of_tmuBit {tmu : Nat} (i : Fin 2) :
    (tmuBit tmu).getLsbD i.val = decide (i.val = tmu) := by
  have inside : i.val < 32 := by omega
  unfold tmuBit
  rw [BitVec.getLsbD_ofNat, Nat.one_shiftLeft, Nat.testBit_two_pow]
  simp [inside, eq_comm]

theorem coherent_enableOnly {c : Context} (h : MaskCoherent c) {tmu : Nat}
    (selected : ∀ inside : tmu < 2, c.activeTMU = ⟨tmu, inside⟩) :
    MaskCoherent (enableOnly c tmu) ↔ BlitSafe c tmu := by
  unfold enableOnly BlitSafe
  split_ifs with differs
  · have unit (i : Fin 2) : ((setActive c { activeTexture c with enable := true }).texture i).enable =
        (decide (i = c.activeTMU) || (c.texture i).enable) := by
      change (Function.update c.texture c.activeTMU _ i).enable = _
      rw [Function.update_apply]
      split_ifs with here <;> simp [here]
    constructor
    · rintro ⟨bit, -⟩
      have mask (i : Fin 2) :
          decide (i.val = tmu) = (decide (i = c.activeTMU) || (c.texture i).enable) := by
        rw [← bit_of_tmuBit, ← unit]
        exact bit i
      have active : c.activeTMU.val = tmu := by
        have here := mask c.activeTMU
        rw [decide_eq_true (rfl : c.activeTMU = c.activeTMU), Bool.true_or] at here
        exact of_decide_eq_true here
      refine .inr ⟨active ▸ c.activeTMU.isLt, fun i other => ?_⟩
      have off := mask i
      rw [decide_eq_false other, eq_comm, Bool.or_eq_false_iff] at off
      exact off.2
    · rintro (same | ⟨inside, others⟩)
      · exact absurd same differs
      · refine ⟨fun i => ?_, ?_⟩
        · refine Eq.trans ?_ (unit i).symm
          change (tmuBit tmu).getLsbD i.val = _
          rw [bit_of_tmuBit, selected inside]
          by_cases here : i.val = tmu
          · rw [decide_eq_true here, decide_eq_true (Fin.ext here), Bool.true_or]
          · have apart : i ≠ ⟨tmu, inside⟩ := fun same => here (congrArg Fin.val same)
            rw [decide_eq_false here, decide_eq_false apart, others i here, Bool.or_false]
        · have nonzero : tmuBit tmu ≠ 0 := by
            intro zero
            have set : (tmuBit tmu).getLsbD tmu = decide (tmu = tmu) := bit_of_tmuBit ⟨tmu, inside⟩
            rw [zero] at set
            exact absurd set (by simp)
          change Function.update c.enables .tmus true .tmus = decide (tmuBit tmu ≠ 0)
          rw [Function.update_self, decide_eq_true nonzero]
  · exact ⟨fun _ => .inl (not_not.mp differs), fun _ => h⟩

theorem coherent_bitBlit {c : Context} (h : MaskCoherent c) (tmu : Nat) (crop rect : Rect) :
    MaskCoherent (gglBitBlit c tmu crop rect) ↔ BlitSafe c tmu := by
  have before := (same_activeTexture c tmu).trans (same_wLerp (gglActiveTexture c tmu) false)
  have active : ∀ inside : tmu < 2,
      (enableDisable (gglActiveTexture c tmu) GGL.wLerp false).activeTMU = ⟨tmu, inside⟩ := by
    intro inside
    have call (d : Context) : enableDisable d GGL.wLerp false = enableFlag d .w false := rfl
    rw [call]
    unfold enableFlag gglActiveTexture
    rw [dif_pos inside]
    split <;> rfl
  have safe : BlitSafe (enableDisable (gglActiveTexture c tmu) GGL.wLerp false) tmu ↔
      BlitSafe c tmu := by
    have unit (i : Fin 2) := congrFun before.units i
    simp only [enabledUnits] at unit
    unfold BlitSafe
    rw [before.mask]
    simp only [unit]
  have gen (d : Context) (mode : GLenum) : SameRecords d (texGen d mode) :=
    (same_texGeni d _ _ _).trans (same_texGeni _ _ _ _)
  have wraps (d : Context) : SameRecords d (clampWraps d) :=
    (same_texParameteri d _ _ _).trans (same_texParameteri _ _ _ _)
  rw [← safe, ← coherent_enableOnly (before.coherent_iff.mpr h) active]
  unfold gglBitBlit
  dsimp only
  rw [(same_pick _).coherent_iff]
  split_ifs
  · exact (gen _ _).coherent_iff
  · exact ((wraps _).trans (gen _ _)).coherent_iff

/-- The condition on a call: a blit needs the mask to be that of its unit, or to find no other unit
enabled. -/
def Safe (c : Context) : Op → Prop
  | .bitBlit tmu _ _ => BlitSafe c tmu
  | _ => True

instance (c : Context) : DecidablePred (Safe c) := fun op => by
  cases op <;> unfold Safe <;> infer_instance

theorem step_coherent {c : Context} (h : MaskCoherent c) (op : Op) :
    MaskCoherent (step c op) ↔ Safe c op := by
  cases op with
  | activeTexture tmu =>
    exact iff_of_true ((same_activeTexture c tmu).coherent_iff.mpr h) trivial
  | enableTexture enable => exact iff_of_true (coherent_enableTexture h enable) trivial
  | bitBlit tmu crop rect => exact coherent_bitBlit h tmu crop rect

theorem init_coherent : MaskCoherent initContext :=
  ⟨Fin.forall_fin_two.mpr ⟨rfl, rfl⟩, rfl⟩

/-- The records agree in every state of a run exactly when every blit meets the condition. -/
theorem mask_coherent (ops : List Op) :
    (∀ pre, pre <+: ops → MaskCoherent (run step initContext pre)) ↔
      Guarded step Safe initContext ops :=
  @guarded_iff _ _ step Safe MaskCoherent (fun _ op h => step_coherent h op) initContext ops
    init_coherent

private def unitRect : Rect := ⟨0, 0, 1, 1⟩

/-- Both units are enabled, and the blit takes the other unit out of the mask alone. -/
theorem blit_leaves_unit_enabled :
    ¬MaskCoherent (run step initContext [.enableTexture true, .activeTexture 1,
      .enableTexture true, .bitBlit 0 unitRect unitRect]) := by
  intro coherent
  have unit := coherent.bit 1
  revert unit
  decide

end RabbitRender.Pixelflinger.Blits
