/- RabbitRender/Drawing/Enables
   layer: proof
   source: swrender/state.cpp, swrender/texture.cpp, libpixelflinger/pixelflinger.cpp
   digest: The enables in the two contexts are those the application asked for last, along every run
     whose calls keep away from the ones that share a field or stay suspended. -/

import RabbitRender.Drawing.Soundness

set_option autoImplicit false

namespace RabbitRender.Drawing.Enables

open RabbitRender.GL (GLenum)
open Lib.GuardedRun Pixelflinger
open Pixelflinger.State (GGLSurface Texture)
open Textures Drawing.Machine Drawing.Effects Drawing.Calls Drawing.Soundness

/-- What `glEnable`, `glDisable` and `glActiveTexture` asked for; dithering is on at first. -/
structure Requests where
  last : Capability → Bool := fun cap => cap = .dither
  units : Fin 2 → Bool := fun _ => false
  active : Fin 2 := 0

namespace Requests

def switch (q : Requests) (cap : GLenum) (enabled : Bool) : Requests :=
  match capability cap with
  | none => q
  | some .texture2D => { q with units := Function.update q.units q.active enabled }
  | some cap => { q with last := Function.update q.last cap enabled }

def next (q : Requests) : Op → Requests
  | .enable cap => q.switch cap true
  | .disable cap => q.switch cap false
  | .texture (.activeTexture texture) _ =>
    if h : Units.unitOffset texture < 2 then { q with active := ⟨Units.unitOffset texture, h⟩ }
    else q
  | _ => q

end Requests

def requests (ops : List Op) : Requests := ops.foldl Requests.next {}

def flag : Capability → Option State.Enable
  | .fog => some .fog
  | .depthTest => some .depthTest
  | .blend => some .blending
  | .scissorTest => some .scissorTest
  | .alphaTest => some .alphaTest
  | .colorLogicOp => some .logicOp
  | .dither => some .dither
  | _ => none

def stored (c : Context) : Capability → Bool
  | .light i => c.lights i
  | .pointSmooth => c.pointSmooth
  | .lineSmooth => c.lineSmooth
  | .polygonOffsetFill => c.polygonOffset
  | .cullFace => c.cull
  | .lighting => c.lighting
  | .colorMaterial => c.colorMaterial
  | .normalize => c.rescaleNormals = GL.normalize
  | .rescaleNormal => c.rescaleNormals = GL.rescaleNormal
  | .clipPlane i => c.clipPlanes i
  | _ => false

def effective (c : Context) (cap : Capability) : Bool :=
  match flag cap with
  | some flag => c.rasterizer.enables flag
  | none => stored c cap

def Supported (cap : Capability) : Prop :=
  cap ∉ [.depthTest, .stencilTest, .texture2D, .textureExternalOes, .unsupported]

instance : DecidablePred Supported := fun _ => inferInstanceAs (Decidable (_ ∉ _))

def Incomplete (c : Context) (i : Fin 2) : Prop := (unitImage c i).isComplete = false

instance (c : Context) (i : Fin 2) : Decidable (Incomplete c i) :=
  inferInstanceAs (Decidable (_ = _))

/-- Every enable is as it was asked for. The depth test is suspended while the surface has no depth
buffer, a unit while its texture is not complete. -/
structure Kept (c : Context) (q : Requests) : Prop where
  supported : ∀ cap, Supported cap → effective c cap = q.last cap
  depthTest : effective c .depthTest = q.last .depthTest ∨
    effective c .depthTest = false ∧ c.depth.format ≠ Format.z16
  unit : ∀ i, (c.rasterizer.texture i).enable = q.units i ∨
    (c.rasterizer.texture i).enable = false ∧ Incomplete c i

/-- `glEnable` or `glDisable` of a capability that shares no field with another one that is on, and
that the rasterizer does not drop. -/
def SwitchSafe (c : Context) (q : Requests) (enabled : Bool) : Capability → Prop
  | .normalize => q.last .rescaleNormal = false
  | .rescaleNormal => q.last .normalize = false
  | .depthTest => enabled = true → c.rasterizer.depth.format = Format.none →
      c.depth.format ≠ Format.z16
  | .textureExternalOes => enabled = q.units q.active ∨ enabled = false ∧ Incomplete c q.active
  | _ => True

def StaysIncomplete (c : Context) (q : Requests) (op : Op) : Prop :=
  ∀ i, q.units i = true → (c.rasterizer.texture i).enable = false →
    ∀ r ∈ call c op, Incomplete r.2 i

def Safe (c : Context) (q : Requests) : Op → Prop
  | .enable cap => ∀ k ∈ capability cap, SwitchSafe c q true k
  | .disable cap => ∀ k ∈ capability cap, SwitchSafe c q false k
  | .texture op writes => Inside (.texture op writes) ∧ StaysIncomplete c q (.texture op writes)
  | .subImage writes => StaysIncomplete c q (.subImage writes)
  | .eglImage surface => StaysIncomplete c q (.eglImage surface)
  | .bindDrawSurface _ depth _ => q.last .depthTest = true →
      c.rasterizer.enables .depthTest = false → depth.format ≠ Format.z16
  | _ => True

instance (c : Context) (q : Requests) (enabled : Bool) : DecidablePred (SwitchSafe c q enabled) :=
  fun cap => by cases cap <;> unfold SwitchSafe <;> infer_instance

instance (c : Context) (q : Requests) (op : Op) : Decidable (StaysIncomplete c q op) :=
  inferInstanceAs (Decidable (∀ _, _))

instance (c : Context) (q : Requests) : DecidablePred (Safe c q) :=
  fun op => by cases op <;> unfold Safe <;> infer_instance

structure Tracked where
  context : Option Context
  asked : Requests

namespace Tracked

def step (t : Tracked) (op : Op) : Tracked := ⟨Machine.step t.context op, t.asked.next op⟩

def Safe (t : Tracked) (op : Op) : Prop := ∀ c ∈ t.context, Enables.Safe c t.asked op

instance (t : Tracked) (op : Op) : Decidable (t.Safe op) := inferInstanceAs (Decidable (∀ _ ∈ _, _))

def start : Tracked := ⟨init, {}⟩

end Tracked

structure Drawn (c c' : Context) : Prop where
  stored : stored c' = stored c
  flag : ∀ cap f, flag cap = some f → c'.rasterizer.enables f = c.rasterizer.enables f
  depth : c'.depth = c.depth
  unit : ∀ i, (c'.rasterizer.texture i).enable = (c.rasterizer.texture i).enable ∨
    (c'.rasterizer.texture i).enable = false ∧ Incomplete c i
  image : ∀ i, unitImage c' i = unitImage c i
  active : c'.textures.active = c.textures.active

namespace Drawn

variable {c c' c'' : Context}

theorem refl (c : Context) : Drawn c c :=
  ⟨rfl, fun _ _ _ => rfl, rfl, fun _ => .inl rfl, fun _ => rfl, rfl⟩

theorem trans (h : Drawn c c') (h' : Drawn c' c'') : Drawn c c'' where
  stored := h'.stored.trans h.stored
  flag cap f is := (h'.flag cap f is).trans (h.flag cap f is)
  depth := h'.depth.trans h.depth
  unit i := by
    rcases h'.unit i with same' | ⟨off, incomplete⟩
    · rw [same']
      exact h.unit i
    · refine .inr ⟨off, ?_⟩
      unfold Incomplete at incomplete ⊢
      rwa [← h.image i]
  image i := (h'.image i).trans (h.image i)
  active := h'.active.trans h.active

theorem effective_eq (h : Drawn c c') (cap : Capability) : effective c' cap = effective c cap := by
  unfold effective
  cases is : Enables.flag cap with
  | none => exact congrFun h.stored cap
  | some f => exact h.flag cap f is

theorem kept (h : Drawn c c') {q : Requests} (kept : Kept c q) : Kept c' q := by
  refine ⟨fun cap supported => ?_, ?_, fun i => ?_⟩
  · rw [h.effective_eq]
    exact kept.supported cap supported
  · rw [h.effective_eq, h.depth]
    exact kept.depthTest
  · unfold Incomplete
    rw [h.image i]
    rcases h.unit i with same | suspended
    · rw [same]
      exact kept.unit i
    · exact .inr suspended

end Drawn

variable {cap : Capability} {f : State.Enable}

theorem flag_steady (is : flag cap = some f) :
    f ∈ [State.Enable.fog, .depthTest, .blending, .scissorTest, .alphaTest, .logicOp, .dither] := by
  cases cap <;> simp only [flag, Option.some.injEq, reduceCtorEq] at is <;> subst is <;> decide

theorem drawFlags_steady (c : Context) (mode : GLenum) (is : flag cap = some f) :
    f ≠ .tmus ∧ drawFlags c mode f = c.rasterizer.enables f := by
  have steady := flag_steady is
  simp only [List.mem_cons, List.not_mem_nil, or_false] at steady
  rcases steady with rfl | rfl | rfl | rfl | rfl | rfl | rfl <;> exact ⟨nofun, rfl⟩

theorem rectFlags_steady (e : State.Enable → Bool) (is : flag cap = some f) :
    f ≠ .tmus ∧ rectFlags e f = e f := by
  have steady := flag_steady is
  simp only [List.mem_cons, List.not_mem_nil, or_false] at steady
  rcases steady with rfl | rfl | rfl | rfl | rfl | rfl | rfl <;> exact ⟨nofun, rfl⟩

theorem drawn_redrawn {c : Context} {r : State.Context} {texture : Fin 2 → Texture}
    {active : Fin 2} {flags : State.Enable → Bool} {tmu : Fin 2 → Units.TextureUnit}
    (h : Redrawn c.rasterizer r texture active flags)
    (steady : ∀ cap f, flag cap = some f → f ≠ .tmus ∧ flags f = c.rasterizer.enables f)
    (enable : ∀ i, (texture i).enable = (c.rasterizer.texture i).enable ∨
      (texture i).enable = false ∧ Incomplete c i)
    (units : ∀ i, (tmu i).texture = (c.textures.tmu i).texture) (iterators : Iterators) :
    Drawn c (rectContext c r tmu iterators) where
  stored := rfl
  flag cap f is := by
    obtain ⟨other, same⟩ := steady cap f is
    exact (h.flag other).trans same
  depth := rfl
  unit i := by
    have texture_eq : (rectContext c r tmu iterators).rasterizer.texture i = texture i :=
      congrFun h.texture_eq i
    rw [texture_eq]
    exact enable i
  image i := (object_withUnits c r (units i)).2
  active := rfl

theorem drawn_setPrim {c : Context} (sound : Sound c) (mode : GLenum) (p : Prim) :
    Drawn c (setPrim c mode p) := by
  rw [setPrim_eq sound.masked]
  exact ⟨rfl, fun _ _ _ => rfl, rfl, fun i => .inl (chosen_enable c mode p.lod i), fun _ => rfl, rfl⟩

theorem drawn_draw {c : Context} (sound : Sound c) (mode : GLenum) (count : Int)
    (prims : List Prim) : Drawn c (draw c mode count prims).2 := by
  rcases draw_cases c mode count prims with ⟨-, eq⟩ | ⟨-, error, eq⟩
  · rw [eq]
    obtain ⟨r, redrawn, valid⟩ := validateArrays_spec sound mode
    have start : Drawn c (validateArrays c mode) := by
      rw [valid]
      exact drawn_redrawn redrawn (fun _ _ is => drawFlags_steady c mode is)
        (validated_enable c) (cleaned_texture c) c.iterators
    have keeps (d : Context) (p : Prim) (h : Sound d ∧ Drawn c d) :
        Sound (setPrim d mode p) ∧ Drawn c (setPrim d mode p) :=
      ⟨sound_setPrim h.1 mode p, h.2.trans (drawn_setPrim h.1 mode p)⟩
    exact (drawPrims_keeps keeps prims ⟨sound_validateArrays sound mode, start⟩).1.2
  · rw [eq]
    exact ⟨rfl, fun _ _ _ => rfl, rfl, fun _ => .inl rfl, fun _ => rfl, rfl⟩

theorem drawn_drawTexxOESImp {c : Context} (sound : Sound c) (new : Iterators) :
    Drawn c (drawTexxOESImp c new).2 := by
  obtain ⟨r, texture, redrawn, enable, -, eq⟩ := drawTexxOESImp_spec sound new
  rw [eq]
  refine drawn_redrawn redrawn (fun _ _ is => rectFlags_steady _ is) (fun i => ?_)
    (spent_texture c) _
  rw [enable i]
  exact validated_enable c i

theorem drawn_prepareCopy {c : Context} (sound : Sound c) : Drawn c (prepareCopy c) := by
  obtain ⟨r, texture, prepared, enable, -, eq⟩ := prepareCopy_spec sound
  rw [eq]
  refine drawn_redrawn (Retextured.redrawn prepared) (fun _ _ is => ?_)
    (fun i => .inl (enable i)) (spentFirst_texture c) c.iterators
  exact ⟨(rectFlags_steady c.rasterizer.enables is).1, rfl⟩

theorem drawn_copyTexture {c : Context} (sound : Sound c) (new : Iterators) :
    Drawn c (copyTexture (prepareCopy c) new).2 := by
  obtain ⟨r, texture, redrawn, enable, -, eq⟩ := copyTexture_spec sound new
  rw [eq]
  exact drawn_redrawn redrawn (fun _ _ is => rectFlags_steady _ is)
    (fun i => .inl (enable i)) (spentFirst_texture c) _

theorem drawn_drawTexiOES {c : Context} (sound : Sound c) (w h : Int) (new : Iterators) :
    Drawn c (drawTexiOES c w h new).2 := by
  rw [drawTexiOES_eq]
  cases path c w h with
  | nothing => exact .refl c
  | copy => exact drawn_copyTexture sound new
  | slow => exact (drawn_prepareCopy sound).trans (drawn_drawTexxOESImp (sound_prepareCopy sound) new)
  | scale => exact drawn_drawTexxOESImp sound new

theorem flag_injective {cap cap' : Capability} {f : State.Enable} (is : flag cap = some f)
    (is' : flag cap' = some f) : cap = cap' := by
  cases cap <;> simp only [flag, Option.some.injEq, reduceCtorEq] at is <;> subst is <;>
    cases cap' <;> simp only [flag, Option.some.injEq, reduceCtorEq] at is' <;> rfl

theorem enables_switch (c : Context) (enabled : Bool) (is : flag cap = some f)
    (other : cap ≠ .depthTest) :
    (enableCapability c enabled cap).rasterizer.enables =
      Function.update c.rasterizer.enables f enabled := by
  cases cap <;> simp only [flag, Option.some.injEq, reduceCtorEq] at is <;> subst is
  case fog => exact (flagged_enableFlag c.rasterizer .fog enabled).enables
  case depthTest => exact absurd rfl other
  case blend => exact (flagged_enableFlag c.rasterizer .blending enabled).enables
  case scissorTest =>
    change (State.gglEnableScissorTest c.rasterizer enabled).enables = _
    unfold State.gglEnableScissorTest
    split_ifs with changed
    · rfl
    · rw [← not_not.mp changed, Function.update_eq_self]
  case alphaTest => exact (flagged_enableFlag c.rasterizer .alphaTest enabled).enables
  case colorLogicOp => exact (flagged_enableFlag c.rasterizer .logicOp enabled).enables
  case dither => exact (flagged_enableFlag c.rasterizer .dither enabled).enables

theorem enables_depthTest (c : Context) (enabled : Bool) :
    (enableCapability c enabled .depthTest).rasterizer.enables =
      Function.update c.rasterizer.enables .depthTest
        (if c.rasterizer.depth.format = Format.none then false else enabled) :=
  (flagged_enableFlag c.rasterizer .depthTest _).enables

/-- A capability the context stores is set, and no other, when neither of the two that share a field
is given up for the other. -/
theorem stored_switch (c : Context) (enabled : Bool) (own : flag cap = none)
    (supported : Supported cap) (normalize : cap = .normalize → stored c .rescaleNormal = false)
    (rescale : cap = .rescaleNormal → stored c .normalize = false) :
    stored (enableCapability c enabled cap) = Function.update (stored c) cap enabled ∧
      (enableCapability c enabled cap).rasterizer = c.rasterizer := by
  cases cap <;> simp only [flag, reduceCtorEq] at own
  case normalize =>
    refine ⟨?_, rfl⟩
    funext cap
    have off := normalize rfl
    cases cap <;> cases enabled <;> first | rfl | exact off.symm
  case rescaleNormal =>
    refine ⟨?_, rfl⟩
    funext cap
    have off := rescale rfl
    cases cap <;> cases enabled <;> first | rfl | exact off.symm
  case stencilTest | texture2D | textureExternalOes | unsupported =>
    exact absurd supported (by decide)
  case light i =>
    refine ⟨?_, rfl⟩
    funext cap
    cases cap with
    | light j =>
      simp only [stored, enableCapability, Function.update_apply, Capability.light.injEq]
    | _ => rfl
  case clipPlane i =>
    refine ⟨?_, rfl⟩
    funext cap
    cases cap with
    | clipPlane j =>
      simp only [stored, enableCapability, Function.update_apply, Capability.clipPlane.injEq]
    | _ => rfl
  all_goals
    refine ⟨?_, rfl⟩
    funext cap
    cases cap <;> rfl

structure SwitchedOne (c c' : Context) (cap : Capability) : Prop where
  others : ∀ other, other ≠ cap → (Supported other ∨ other = .depthTest) →
    effective c' other = effective c other
  depth : c'.depth = c.depth
  image : ∀ i, unitImage c' i = unitImage c i

theorem SwitchedOne.kept {c c' : Context} {q : Requests} {enabled : Bool} (h : SwitchedOne c c' cap)
    (kept : Kept c q) (supported : Supported cap → effective c' cap = enabled)
    (depthTest : cap = .depthTest → effective c' cap = enabled ∨
      effective c' cap = false ∧ c.depth.format ≠ Format.z16)
    (unit : ∀ i, (c'.rasterizer.texture i).enable = q.units i ∨
      (c'.rasterizer.texture i).enable = false ∧ Incomplete c i) :
    Kept c' { q with last := Function.update q.last cap enabled } := by
  refine ⟨fun other supported' => ?_, ?_, fun i => ?_⟩
  · by_cases here : other = cap
    · subst here
      change _ = Function.update q.last other enabled other
      rw [Function.update_self, supported supported']
    · change _ = Function.update q.last cap enabled other
      rw [Function.update_of_ne here, h.others other here (.inl supported')]
      exact kept.supported other supported'
  · rw [h.depth]
    by_cases here : cap = .depthTest
    · subst here
      change _ = Function.update q.last .depthTest enabled .depthTest ∨ _
      rw [Function.update_self]
      exact depthTest rfl
    · change _ = Function.update q.last cap enabled .depthTest ∨ _
      rw [Function.update_of_ne (Ne.symm here), h.others _ (Ne.symm here) (.inr rfl)]
      exact kept.depthTest
  · unfold Incomplete
    rw [h.image i]
    exact unit i

theorem enableCapability_frame (c : Context) (enabled : Bool) (cap : Capability) :
    (enableCapability c enabled cap).depth = c.depth ∧
      ∀ i, unitImage (enableCapability c enabled cap) i = unitImage c i := by
  cases cap <;> exact ⟨rfl, fun _ => rfl⟩

theorem switched_flag {c : Context} {enabled value : Bool} (is : flag cap = some f)
    (stays : stored (enableCapability c enabled cap) = stored c)
    (set : (enableCapability c enabled cap).rasterizer.enables =
      Function.update c.rasterizer.enables f value) :
    SwitchedOne c (enableCapability c enabled cap) cap ∧
      effective (enableCapability c enabled cap) cap = value := by
  obtain ⟨depth, image⟩ := enableCapability_frame c enabled cap
  refine ⟨⟨fun other differs _ => ?_, depth, image⟩, ?_⟩
  · unfold effective
    cases is' : flag other with
    | none => exact congrFun stays other
    | some f' =>
      have apart : f' ≠ f := fun same => differs (flag_injective is' (same ▸ is))
      simp only [set, Function.update_of_ne apart]
  · unfold effective
    simp only [is, set, Function.update_self]

theorem stored_of_flag (c : Context) (enabled : Bool) (is : flag cap = some f) :
    stored (enableCapability c enabled cap) = stored c := by
  cases cap <;> simp only [flag, reduceCtorEq] at is <;> rfl

theorem switched_unit {c : Context} (enabled : Bool) {cap : Capability}
    (unit : cap = .texture2D ∨ cap = .textureExternalOes) :
    SwitchedOne c (enableCapability c enabled cap) cap ∧
      ∀ i, ((enableCapability c enabled cap).rasterizer.texture i).enable =
        if i = c.rasterizer.activeTMU then enabled else (c.rasterizer.texture i).enable := by
  have same : enableCapability c enabled cap = rasterEnable c GGL.texture2D enabled := by
    rcases unit with rfl | rfl <;> rfl
  have retextured : Retextured c.rasterizer (rasterEnable c GGL.texture2D enabled).rasterizer _ _ :=
    retextured_enable c.rasterizer enabled
  rw [same]
  refine ⟨⟨fun other _ _ => ?_, rfl, fun _ => rfl⟩, fun i => ?_⟩
  · unfold effective
    cases is : flag other with
    | none => rfl
    | some f => exact retextured.flag (drawFlags_steady c 0 is).1
  · rw [retextured.texture_eq, Function.update_apply]
    split_ifs <;> rfl

theorem texture_of_flag (c : Context) (enabled : Bool) (is : flag cap = some f) :
    (enableCapability c enabled cap).rasterizer.texture = c.rasterizer.texture := by
  cases cap <;> simp only [flag, reduceCtorEq] at is
  case fog => exact (flagged_enableFlag c.rasterizer .fog enabled).texture
  case depthTest => exact (flagged_enableFlag c.rasterizer .depthTest _).texture
  case blend => exact (flagged_enableFlag c.rasterizer .blending enabled).texture
  case scissorTest =>
    change (State.gglEnableScissorTest c.rasterizer enabled).texture = _
    unfold State.gglEnableScissorTest
    split_ifs <;> rfl
  case alphaTest => exact (flagged_enableFlag c.rasterizer .alphaTest enabled).texture
  case colorLogicOp => exact (flagged_enableFlag c.rasterizer .logicOp enabled).texture
  case dither => exact (flagged_enableFlag c.rasterizer .dither enabled).texture

variable {c : Context} {q : Requests} {enabled : Bool} {k : Capability}

theorem kept_texture2D (kept : Kept c q) (active : q.active = c.rasterizer.activeTMU) :
    Kept (enableCapability c enabled .texture2D)
      { q with units := Function.update q.units q.active enabled } := by
  obtain ⟨one, unit⟩ := @switched_unit c enabled .texture2D (.inl rfl)
  refine ⟨fun other supported => ?_, ?_, fun i => ?_⟩
  · rw [one.others other (fun same => absurd (same ▸ supported) (by decide)) (.inl supported)]
    exact kept.supported other supported
  · rw [one.others .depthTest (by decide) (.inr rfl), one.depth]
    exact kept.depthTest
  · unfold Incomplete
    rw [unit i, one.image i, active]
    change _ = Function.update q.units c.rasterizer.activeTMU enabled i ∨ _
    rw [Function.update_apply]
    split_ifs with here
    · exact .inl rfl
    · exact kept.unit i

theorem kept_external (kept : Kept c q) (active : q.active = c.rasterizer.activeTMU)
    (safe : SwitchSafe c q enabled .textureExternalOes) :
    Kept (enableCapability c enabled .textureExternalOes)
      { q with last := Function.update q.last .textureExternalOes enabled } := by
  obtain ⟨one, unit⟩ := @switched_unit c enabled .textureExternalOes (.inr rfl)
  refine one.kept kept (fun h => absurd h (by decide)) (fun h => absurd h (by decide)) fun i => ?_
  rw [unit i]
  split_ifs with here
  · rw [here, ← active]
    exact safe
  · exact kept.unit i

theorem kept_flag (kept : Kept c q) (is : flag k = some f) (safe : SwitchSafe c q enabled k) :
    Kept (enableCapability c enabled k) { q with last := Function.update q.last k enabled } := by
  have unit (i : Fin 2) : ((enableCapability c enabled k).rasterizer.texture i).enable = q.units i ∨
      ((enableCapability c enabled k).rasterizer.texture i).enable = false ∧ Incomplete c i := by
    rw [texture_of_flag c enabled is]
    exact kept.unit i
  have stays := stored_of_flag c enabled is
  by_cases depth : k = .depthTest
  · subst depth
    obtain rfl := Option.some_inj.mp is
    obtain ⟨one, value⟩ := switched_flag is stays (enables_depthTest c enabled)
    refine one.kept kept (fun h => absurd h (by decide)) (fun _ => ?_) unit
    rw [value]
    split_ifs with none
    · cases enabled with
      | true => exact .inr ⟨rfl, safe rfl none⟩
      | false => exact .inl rfl
    · exact .inl rfl
  · obtain ⟨one, value⟩ := switched_flag is stays (enables_switch c enabled is depth)
    exact one.kept kept (fun _ => value) (fun h => absurd h depth) unit

theorem kept_stored (kept : Kept c q) (own : flag k = none) (supported : Supported k)
    (safe : SwitchSafe c q enabled k) :
    Kept (enableCapability c enabled k) { q with last := Function.update q.last k enabled } := by
  have off {other : Capability} (plain : flag other = none) (h : Supported other)
      (asked : q.last other = false) : stored c other = false := by
    have same := kept.supported other h
    unfold effective at same
    rw [plain] at same
    exact same.trans asked
  obtain ⟨stored_eq, raster⟩ := stored_switch c enabled own supported
    (fun is => by subst is; exact off rfl (by decide) safe)
    (fun is => by subst is; exact off rfl (by decide) safe)
  obtain ⟨depth, image⟩ := enableCapability_frame c enabled k
  have effective_eq (other : Capability) :
      effective (enableCapability c enabled k) other =
        if other = k then enabled else effective c other := by
    unfold effective
    rw [stored_eq, raster, Function.update_apply]
    split_ifs with here
    · rw [here, own]
    · rfl
  have one : SwitchedOne c (enableCapability c enabled k) k :=
    ⟨fun other differs _ => by rw [effective_eq, if_neg differs], depth, image⟩
  refine one.kept kept (fun _ => by rw [effective_eq, if_pos rfl]) (fun is => ?_) fun i => ?_
  · subst is
    cases own
  · rw [raster]
    exact kept.unit i

theorem kept_ignored (kept : Kept c q) (ignored : k = .stencilTest ∨ k = .unsupported) :
    Kept (enableCapability c enabled k) { q with last := Function.update q.last k enabled } := by
  have same : enableCapability c enabled k = c := by
    rcases ignored with rfl | rfl <;> rfl
  have one : SwitchedOne c c k := ⟨fun _ _ _ => rfl, rfl, fun _ => rfl⟩
  rw [same]
  refine one.kept kept (fun h => ?_) (fun h => ?_) kept.unit
  all_goals rcases ignored with rfl | rfl <;> exact absurd h (by decide)

theorem kept_switch (kept : Kept c q) (active : q.active = c.rasterizer.activeTMU) {cap : GLenum}
    (safe : ∀ k ∈ capability cap, SwitchSafe c q enabled k) :
    Kept (enableDisable c cap enabled) (q.switch cap enabled) := by
  unfold enableDisable Requests.switch
  rcases decoded : capability cap with _ | k
  · exact ⟨kept.supported, kept.depthTest, kept.unit⟩
  have safe := safe k decoded
  cases is : flag k with
  | some f =>
    have set := kept_flag kept is safe
    cases k <;> first | exact set | cases is
  | none =>
    by_cases supported : Supported k
    · have set := kept_stored kept is supported safe
      cases k <;> first | exact set | exact absurd supported (by decide)
    · cases k
      case texture2D => exact kept_texture2D kept active
      case textureExternalOes => exact kept_external kept active safe
      case stencilTest => exact kept_ignored kept (.inl rfl)
      case unsupported => exact kept_ignored kept (.inr rfl)
      case depthTest => cases is
      all_goals exact absurd (by simp [Supported]) supported

structure Inv (c : Context) (q : Requests) : Prop where
  sound : Sound c
  active : q.active = c.rasterizer.activeTMU
  kept : Kept c q

theorem kept_quiet {c' : Context} (kept : Kept c q) (effective_eq : effective c' = effective c)
    (depth : c'.depth = c.depth) (texture : ∀ i, (c'.rasterizer.texture i).enable =
      (c.rasterizer.texture i).enable)
    (stays : ∀ i, q.units i = true → (c.rasterizer.texture i).enable = false →
      Incomplete c i → Incomplete c' i) : Kept c' q := by
  refine ⟨fun cap supported => ?_, ?_, fun i => ?_⟩
  · rw [effective_eq]
    exact kept.supported cap supported
  · rw [effective_eq, depth]
    exact kept.depthTest
  · rw [texture i]
    rcases kept.unit i with same | ⟨off, incomplete⟩
    · exact .inl same
    · cases asked : q.units i with
      | false => exact .inl off
      | true => exact .inr ⟨off, stays i asked off incomplete⟩

theorem kept_stores {c' : Context} (kept : Kept c q) (h : Stored c c')
    (stays : ∀ i, q.units i = true → (c.rasterizer.texture i).enable = false →
      Incomplete c i → Incomplete c' i) : Kept c' q := by
  have eq := h.eq
  refine kept_quiet kept ?_ ?_ (fun i => ?_) stays
  · rw [eq]
    rfl
  · rw [eq]
  · rw [eq]

theorem unitImage_congr {c' : Context} {i : Fin 2}
    (texture : (c'.textures.tmu i).texture = (c.textures.tmu i).texture)
    (image : c'.image = c.image) : unitImage c' i = unitImage c i := by
  unfold unitImage
  rw [texture, image]

theorem kept_bindDrawSurface (kept : Kept c q) (color depth : GGLSurface) (allocated : Bool)
    (safe : q.last .depthTest = true → c.rasterizer.enables .depthTest = false →
      depth.format ≠ Format.z16) : Kept (bindDrawSurface c color depth allocated) q := by
  have surfaced := surfaced_bind c color depth allocated
  refine ⟨fun cap supported => ?_, ?_, fun i => ?_⟩
  · refine Eq.trans ?_ (kept.supported cap supported)
    unfold effective
    cases is : flag cap with
    | none => rfl
    | some f =>
      have apart : f ≠ .depthTest := by
        rintro rfl
        obtain rfl := @flag_injective cap .depthTest _ is rfl
        exact absurd supported (by decide)
      simp only [surfaced.enables, Function.update_of_ne apart]
  · have value : effective (bindDrawSurface c color depth allocated) .depthTest =
        depthTest c.rasterizer depth := by
      unfold effective
      simp only [flag, surfaced.enables, Function.update_self]
    rw [value]
    unfold depthTest
    split_ifs with cleared
    · exact .inr ⟨rfl, cleared.2⟩
    · rcases kept.depthTest with same | ⟨off, -⟩
      · exact .inl same
      · cases asked : q.last .depthTest with
        | false => exact .inl off
        | true => exact .inr ⟨off, safe asked off⟩
  · rw [surfaced.texture]
    exact kept.unit i

theorem invalidate_texture (t : Units.Context) (i j : Fin 2) :
    ((Units.invalidateTexture t i).tmu j).texture = (t.tmu j).texture := by
  unfold Units.invalidateTexture
  simp only [Function.update_apply]
  split_ifs with here
  · rw [here]
  · rfl

theorem call_inv {op : Op} (inv : Inv c q) (safe : Safe c q op)
    {result : List Invocation × Context} (h : call c op = some result) :
    Inv result.2 (q.next op) := by
  have inside : Inside op := by
    cases op <;> first | exact trivial | exact safe.1
  have sound := call_sound inv.sound inside h
  have silent {d : Option Context} (h : quiet d = some result) : d = some result.2 := by
    obtain ⟨e, he, rfl⟩ := Option.map_eq_some_iff.mp h
    exact he
  have switched (cap : GLenum) (enabled : Bool)
      (safe : ∀ k ∈ capability cap, SwitchSafe c q enabled k)
      (eq : result.2 = enableDisable c cap enabled) : Inv result.2 (q.switch cap enabled) := by
    refine ⟨sound, ?_, ?_⟩
    · rw [eq, (enableDisable_only c cap enabled).2.active, ← inv.active]
      unfold Requests.switch
      split <;> rfl
    · rw [eq]
      exact kept_switch inv.kept inv.active safe
  -- a call without a request, after which both contexts still agree on the active unit
  have rest (kept : Kept result.2 q) (active : result.2.textures.active = c.textures.active) :
      Inv result.2 q := by
    refine ⟨sound, ?_, kept⟩
    refine inv.active.trans (Fin.ext ?_)
    rw [inv.sound.active, sound.active, active]
  have drawn (h : Drawn c result.2) : Inv result.2 q := rest (h.kept inv.kept) h.active
  cases op with
  | enable cap => exact switched cap true safe (Option.some_inj.mp (silent h)).symm
  | disable cap => exact switched cap false safe (Option.some_inj.mp (silent h)).symm
  | texture op writes =>
    by_cases selects : Frames.Selects op
    · cases op with
      | activeTexture texture =>
        have next : q.next (.texture (.activeTexture texture) writes) =
            if h : Units.unitOffset texture < 2 then
              { q with active := ⟨Units.unitOffset texture, h⟩ }
            else q := rfl
        rw [next]
        rcases activeTexture_spec safe.1 (silent h) with ⟨eq, above⟩ | ⟨i, unit, eq⟩
        · rw [dif_neg above]
          exact rest (eq ▸ ⟨inv.kept.supported, inv.kept.depthTest, inv.kept.unit⟩) (eq ▸ rfl)
        · have lt : Units.unitOffset texture < 2 := unit ▸ i.isLt
          rw [dif_pos lt]
          refine ⟨sound, ?_, ?_⟩
          · rw [eq]
            exact Fin.ext unit
          · rw [eq]
            exact ⟨inv.kept.supported, inv.kept.depthTest, inv.kept.unit⟩
      | _ => exact absurd selects id
    · have stored := stored_texture inv.sound.held selects (silent h)
      have same : q.next (.texture op writes) = q := by
        cases op with
        | activeTexture texture => exact absurd trivial selects
        | _ => rfl
      rw [same]
      exact rest (kept_stores inv.kept stored fun i asked off _ => safe.2 i asked off _ h)
        stored.active
  | subImage writes =>
    obtain ⟨i, object, -, -, eq⟩ := upload_spec (silent h)
    have stored : Stored c result.2 := by
      rw [eq]
      exact ⟨rfl, inv.sound.held, rfl⟩
    exact rest (kept_stores inv.kept stored fun i asked off _ => safe i asked off _ h) stored.active
  | eglImage surface =>
    have stored := stored_eglImage inv.sound.held (silent h)
    exact rest (kept_stores inv.kept stored fun i asked off _ => safe i asked off _ h) stored.active
  | texParameter target pname param =>
    have stored := stored_texParameter inv.sound.held (silent h)
    refine rest (kept_stores inv.kept stored fun i _ _ incomplete => ?_) stored.active
    unfold Incomplete
    rcases texParameterx_spec (silent h) with eq | ⟨j, object, -, -, eq⟩
    · rw [eq]
      exact incomplete
    · have texture : (result.2.textures.tmu i).texture = (c.textures.tmu i).texture := by
        rw [eq]
        exact invalidate_texture _ j i
      rw [unitImage_congr texture (by rw [eq]; rfl)]
      exact incomplete
  | cropRect target rect =>
    obtain ⟨t, rebinds, tmu, eq⟩ := cropRect_spec inv.sound.held (silent h)
    refine drawn ?_
    rw [eq]
    refine ⟨rfl, fun _ _ _ => rfl, rfl, fun _ => .inl rfl, fun i => ?_, rebinds.active⟩
    exact unitImage_congr (congrArg Units.TextureUnit.texture (congrFun tmu i)) rfl
  | fragment f =>
    have eq := Option.some_inj.mp (silent h)
    have fragmented := fragmented_apply c.rasterizer f
    refine drawn (eq ▸ ⟨rfl, fun cap flag is => ?_, rfl, fun i => .inl ?_, fun _ => rfl, rfl⟩)
    · refine fragmented.flag flag fun same => ?_
      exact absurd (same ▸ flag_steady is) (by decide)
    · change ((f.apply c.rasterizer).texture i).enable = _
      rw [fragmented.unit i]
  | shadeModel mode =>
    have eq := Option.some_inj.mp (silent h)
    unfold shadeModel at eq
    refine drawn (eq ▸ ?_)
    split_ifs <;> exact ⟨rfl, fun _ _ _ => rfl, rfl, fun _ => .inl rfl, fun _ => rfl, rfl⟩
  | perspectiveHint nicest | vertexArray enabled =>
    have eq := Option.some_inj.mp (silent h)
    exact drawn (eq ▸ ⟨rfl, fun _ _ _ => rfl, rfl, fun _ => .inl rfl, fun _ => rfl, rfl⟩)
  | cullFace mode =>
    have eq := Option.some_inj.mp (silent h)
    unfold cullFace at eq
    dsimp only at eq
    refine drawn (eq ▸ ?_)
    split_ifs <;> exact ⟨rfl, fun _ _ _ => rfl, rfl, fun _ => .inl rfl, fun _ => rfl, rfl⟩
  | draw mode count prims =>
    have eq := Option.some_inj.mp h
    exact drawn (eq ▸ drawn_draw inv.sound mode count prims)
  | drawTexx width height new =>
    have eq := Option.some_inj.mp h
    refine drawn (eq ▸ ?_)
    unfold drawTexxOES
    split_ifs
    · exact .refl c
    · exact drawn_drawTexxOESImp inv.sound new
  | drawTexi width height new =>
    have eq := Option.some_inj.mp h
    exact drawn (eq ▸ drawn_drawTexiOES inv.sound width height new)
  | bindDrawSurface color depth allocated =>
    have eq := Option.some_inj.mp (silent h)
    exact rest (eq ▸ kept_bindDrawSurface inv.kept color depth allocated safe) (eq ▸ rfl)

theorem run_tracked (ops : List Op) (t : Tracked) :
    run Tracked.step t ops =
      ⟨run Machine.step t.context ops, ops.foldl Requests.next t.asked⟩ := by
  induction ops generalizing t with
  | nil => rfl
  | cons op ops ih =>
    rw [run_cons, ih]
    rfl

theorem init_kept : ∀ c ∈ init, Inv c {} := by
  intro c here
  obtain ⟨d, made, sound, active, off, -⟩ := init_sound
  obtain rfl := Option.some_inj.mp (made.symm.trans here)
  have first : (0 : Fin 2) = d.rasterizer.activeTMU := Fin.ext (active.symm.trans sound.active.symm)
  have initial (cap : Capability) : effective d cap = decide (cap = .dither) := by
    obtain ⟨textures, -, rfl⟩ := Option.map_eq_some_iff.mp made
    cases cap <;> rfl
  exact ⟨sound, first, fun cap _ => initial cap, .inl (initial .depthTest), fun i => .inl (off i)⟩

/-- In every run whose calls meet the condition, each enable is the one that was asked for. -/
theorem enables_kept (ops pre : List Op) (safe : Guarded Tracked.step Tracked.Safe Tracked.start ops)
    (hpre : pre <+: ops) : ∀ c ∈ run Machine.step init pre, Kept c (requests pre) := by
  have keeps (t : Tracked) (op : Op) (inv : ∀ c ∈ t.context, Inv c t.asked) (ok : t.Safe op) :
      ∀ c ∈ (t.step op).context, Inv c (t.step op).asked := by
    intro c' reached
    obtain ⟨c, here, stepped⟩ := Option.bind_eq_some_iff.mp reached
    obtain ⟨result, called, rfl⟩ := Option.map_eq_some_iff.mp stepped
    exact call_inv (inv c here) (ok c here) called
  have reached : ∀ c ∈ (run Tracked.step Tracked.start pre).context,
      Inv c (run Tracked.step Tracked.start pre).asked :=
    run_invariant_prefix keeps init_kept safe hpre
  rw [run_tracked] at reached
  exact fun c here => (reached c here).kept

private def pixel : Units.TexImage :=
  { target := GL.texture2D, level := 0, internalformat := GL.rgba, width := 1, height := 1,
    border := 0, format := GL.rgba, type := GL.unsignedByte }

private def pixelWrite : Image.Write :=
  { level := 0, surface := { width := 1, height := 1, stride := 1, data := 0x1000, format := 1 }
    allocated := true, table := true }

private def upload : Op := .texture (.texImage2D pixel ⟨fun _ => true, true⟩) [pixelWrite]

private def depthSurface : GGLSurface :=
  { width := 1, height := 1, stride := 1, data := 0x2000, format := Format.z16 }

private def texturedRun : List Op :=
  [.bindDrawSurface {} depthSurface true, .enable GGL.depthTest, upload, .enable GL.texture2D,
    .vertexArray true, .draw GL.triangleFan 3 [], .bindDrawSurface {} {} true]

/-- A textured draw with a depth buffer, and then a surface without one. -/
theorem enables_kept_textured :
    ∃ c, run Machine.step init texturedRun = some c ∧ Kept c (requests texturedRun) := by
  have defined : (run Machine.step init texturedRun).isSome = true := by decide +kernel
  obtain ⟨c, hc⟩ := Option.isSome_iff_exists.mp defined
  exact ⟨c, hc, enables_kept texturedRun texturedRun (by decide +kernel) (List.prefix_refl _) c hc⟩

private def suspendedRun : List Op :=
  [.enable GL.texture2D, .vertexArray true, .draw GL.triangleFan 3 [], upload]

/-- The draw call switches the unit off as long as its texture is not complete; the upload of the
texture does not switch it on again. -/
theorem unit_stays_suspended : ∃ c, run Machine.step init suspendedRun = some c ∧
    (requests suspendedRun).units 0 = true ∧ (c.rasterizer.texture 0).enable = false ∧
    ¬Incomplete c 0 ∧ ¬Kept c (requests suspendedRun) := by
  have fields : (run Machine.step init suspendedRun).map
      (fun c => ((c.rasterizer.texture 0).enable, (unitImage c 0).isComplete)) =
        some (false, true) := by decide +kernel
  obtain ⟨c, hc, both⟩ := Option.map_eq_some_iff.mp fields
  obtain ⟨off, complete⟩ := Prod.mk.inj both
  have asked : (requests suspendedRun).units 0 = true := by decide +kernel
  have loaded : ¬Incomplete c 0 := fun incomplete => nomatch complete.symm.trans incomplete
  refine ⟨c, hc, asked, off, loaded, fun kept => ?_⟩
  rcases kept.unit 0 with same | ⟨-, incomplete⟩
  · exact nomatch off.symm.trans (same.trans asked)
  · exact loaded incomplete

end RabbitRender.Drawing.Enables
