/- RabbitRender/Lighting/Coherence
   layer: proof
   source: swrender/light.cpp, swrender/state.cpp
   digest: The derived lighting values are current for every lit vertex, when the lights enabled
     and the colour material have not changed since they were derived. -/

import RabbitRender.Lib.GuardedRun
import RabbitRender.Lighting.Lights

set_option autoImplicit false

namespace RabbitRender.Lighting.Coherence

open RabbitRender.GL (GLenum)
open Lib.GuardedRun Lighting.Lights
open RabbitRender.Matrix.Transforms (Transform)
open Vertices (Vec4)

/-- Deriving everything the lighting equation reads anew would change nothing. -/
structure Derived (s : State) : Prop where
  products : ∀ i, s.enabledLights i = true → implicitProducts s.front (s.lights i) = s.lights i
  attenuation : ∀ i, s.enabledLights i = true → (s.lights i).position.w ≠ 0 →
    (s.lights i).rConstAttenuation = constantAttenuation (s.lights i)
  eye : ∀ i, s.enabledLights i = true → eyePosition (s.lights i) = s.lights i
  scene : s.implicitSceneEmissionAndAmbient = sceneEmissionAndAmbient s
  viewer : s.objViewer = eyeViewer
  picked : s.lightVertex = if s.colorMaterial then .material else .plain

/-- What the last validation found: the enabled lights and the colour material. `measured` are
the lights whose constant attenuation was derived since it was set. -/
structure History where
  lights : Fin 8 → Bool
  colorMaterial : Bool
  measured : Fin 8 → Bool

structure Tracked where
  state : State
  history : History

def light (t : Tracked) (color : Vec4) : Tracked where
  state := lightOne t.state color
  history :=
    if t.state.lightVertex = .validate then
      { lights := t.state.enabledLights
        colorMaterial := t.state.colorMaterial
        measured := fun i =>
          t.history.measured i || (t.state.enabledLights i && !t.state.colorMaterial) }
    else t.history

inductive Op where
  | enableDisable (cap : GLenum) (enabled : Bool)
  | lightModelx (pname : GLenum) (param : Int)
  | lightModelxv (pname : GLenum) (params : Vec4)
  | lightx (i pname : GLenum) (param : Int)
  | lightxv (i pname : GLenum) (params : Vec4) (modelview : Transform)
  | materialx (face pname : GLenum) (param : Int)
  | materialv (face pname : GLenum) (params : Vec4) (shininess : Int)
  | draw (normals : Bool) (colors : List Vec4)

def isAttenuation (pname : GLenum) : Bool :=
  pname = GL.constantAttenuation || pname = GL.linearAttenuation || pname = GL.quadraticAttenuation

def forget (h : History) (light : Option (Fin 8)) (pname : GLenum) : History :=
  match light with
  | some n => if isAttenuation pname then { h with measured := Function.update h.measured n false }
    else h
  | none => h

def entered (t : Tracked) (normals : Bool) : Tracked :=
  if normals then { t with state := invalidateLighting t.state } else t

variable (cosine : Int → Int)

def step (t : Tracked) : Op → Tracked
  | .enableDisable cap enabled => { t with state := enableDisable t.state cap enabled }
  | .lightModelx pname param => { t with state := lightModelx t.state pname param }
  | .lightModelxv pname params => { t with state := glLightModelxv t.state pname params }
  | .lightx i pname param =>
    { state := lightx cosine t.state i pname param, history := forget t.history (lightIndex i) pname }
  | .lightxv i pname params modelview =>
    { state := lightxv cosine modelview t.state i pname params
      history := forget t.history (lightIndex i) pname }
  | .materialx face pname param => { t with state := materialx t.state face pname param }
  | .materialv face pname params shininess =>
    { t with state := materialv t.state face pname params shininess }
  | .draw normals colors =>
    if t.state.enable then colors.foldl light (entered t normals) else t

def start : Tracked := ⟨init, fun _ => false, false, fun _ => false⟩

/-- The lights to be used and the colour material are those of the last validation, unless there
is one to come, and with colour material the positional lights have been measured. -/
structure Ready (t : Tracked) : Prop where
  lights : t.state.lightVertex ≠ .validate →
    ∀ i, t.state.enabledLights i = true → t.history.lights i = true
  colorMaterial : t.state.lightVertex ≠ .validate → t.state.colorMaterial = t.history.colorMaterial
  measured : t.state.colorMaterial = true → ∀ i, t.state.enabledLights i = true →
    (t.state.lights i).position.w ≠ 0 → t.history.measured i = true

def Safe (t : Tracked) : Op → Prop
  | .draw normals colors => t.state.enable = true → colors ≠ [] → Ready (entered t normals)
  | _ => True

theorem foldl_light_state (t : Tracked) (colors : List Vec4) :
    (colors.foldl light t).state = colors.foldl lightOne t.state := by
  induction colors generalizing t with
  | nil => rfl
  | cons color colors ih => exact ih (light t color)

theorem step_draw_state (t : Tracked) (normals : Bool) (colors : List Vec4) :
    (step cosine t (.draw normals colors)).state = draw t.state normals colors := by
  simp only [step, draw]
  by_cases enabled : t.state.enable = true
  · rw [if_pos enabled, if_pos enabled, foldl_light_state]
    cases normals <;> rfl
  · rw [if_neg enabled, if_neg enabled]

/-- What the last validation derived for its lights is current, and its choice still stands. -/
structure Inv (t : Tracked) : Prop where
  notNop : t.state.lightVertex ≠ .nop
  measured : ∀ i, t.history.measured i = true →
    (t.state.lights i).rConstAttenuation = constantAttenuation (t.state.lights i)
  picked : t.state.lightVertex ≠ .validate →
    t.state.lightVertex = if t.history.colorMaterial then .material else .plain
  eye : t.state.lightVertex ≠ .validate → ∀ i, t.history.lights i = true →
    eyePosition (t.state.lights i) = t.state.lights i
  viewer : t.state.lightVertex ≠ .validate → t.state.objViewer = eyeViewer
  products : t.state.lightVertex ≠ .validate → t.history.colorMaterial = false →
    ∀ i, t.history.lights i = true →
      implicitProducts t.state.front (t.state.lights i) = t.state.lights i ∧
        (t.state.lights i).rConstAttenuation = constantAttenuation (t.state.lights i)
  scene : t.state.lightVertex ≠ .validate → t.history.colorMaterial = false →
    t.state.implicitSceneEmissionAndAmbient = sceneEmissionAndAmbient t.state

/-- The first half of `lightVertexValidate`. -/
def validated (t : Tracked) : Tracked where
  state := lightPicker (validateLight t.state)
  history :=
    { lights := t.state.enabledLights
      colorMaterial := t.state.colorMaterial
      measured := fun i =>
        t.history.measured i || (t.state.enabledLights i && !t.state.colorMaterial) }

theorem validateLight_lights (s : State) (i : Fin 8) : (validateLight s).lights i =
    if s.enabledLights i then
      eyePosition (if s.colorMaterial then s.lights i else
        { implicitProducts s.front (s.lights i) with
          rConstAttenuation := constantAttenuation (s.lights i) })
    else s.lights i := by
  unfold validateLight validateLightMvi forEnabled
  cases s.colorMaterial <;> cases hi : s.enabledLights i <;> simp [hi]

theorem validateLight_same (s : State) : (validateLight s).front = s.front ∧
    (validateLight s).lightModelAmbient = s.lightModelAmbient ∧
    (validateLight s).colorMaterial = s.colorMaterial ∧
    (validateLight s).enabledLights = s.enabledLights ∧ (validateLight s).enable = s.enable ∧
    (validateLight s).objViewer = eyeViewer := by
  unfold validateLight
  cases h : s.colorMaterial <;> simp [validateLightMvi, forEnabled, h]

variable {s : State} {t : Tracked} {pname : GLenum}

theorem lightPicker_enabled (enabled : s.enable = true) :
    lightPicker s = { s with lightVertex := if s.colorMaterial then .material else .plain } := by
  unfold lightPicker
  cases h : s.colorMaterial <;> simp [enabled]

theorem validateLight_scene (h : s.colorMaterial = false) :
    (validateLight s).implicitSceneEmissionAndAmbient =
      sceneEmissionAndAmbient (validateLight s) := by
  simp only [validateLight, h]
  rfl

theorem validated_spec (inv : Inv t) (ready : Ready t) (enabled : t.state.enable = true) :
    Inv (validated t) ∧ Ready (validated t) ∧ (validated t).state.enable = true ∧
      (validated t).state.lightVertex ≠ .validate := by
  obtain ⟨front, -, material, lights, enable, viewer⟩ := validateLight_same t.state
  have picked : (validated t).state = { validateLight t.state with
      lightVertex := if t.state.colorMaterial then .material else .plain } := by
    refine (lightPicker_enabled (enable.trans enabled)).trans ?_
    exact congrArg (fun b : Bool => { validateLight t.state with
      lightVertex := if b then LightVertex.material else .plain }) material
  have resolved : (validated t).state.lightVertex ≠ .validate ∧
      (validated t).state.lightVertex ≠ .nop := by
    rw [picked]
    cases t.state.colorMaterial <;> simp
  refine ⟨⟨resolved.2, ?_, ?_, ?_, ?_, ?_, ?_⟩, ⟨?_, ?_, ?_⟩, ?_, resolved.1⟩
  · intro i known
    rw [picked]
    simp only [validateLight_lights]
    simp only [validated, Bool.or_eq_true, Bool.and_eq_true, Bool.not_eq_true'] at known
    rcases known with before | ⟨here, plain⟩
    · have same := inv.measured i before
      cases t.state.enabledLights i
      · exact same
      · cases t.state.colorMaterial
        · rfl
        · exact same
    · rw [here, plain]
      rfl
  · intro _
    rw [picked]
    rfl
  · intro _ i here
    rw [picked]
    simp only [validateLight_lights, show t.state.enabledLights i = true from here, if_true]
    rfl
  · intro _
    rw [picked]
    exact viewer
  · intro _ plain i here
    have off : t.state.colorMaterial = false := plain
    rw [picked]
    simp only [validateLight_lights, show t.state.enabledLights i = true from here, off, front]
    exact ⟨rfl, rfl⟩
  · intro _ plain
    rw [picked]
    exact validateLight_scene plain
  · intro _ i here
    rw [picked] at here
    exact (congrFun lights i).symm.trans here
  · intro _
    rw [picked]
    exact material
  · intro on i here positional
    rw [picked] at on here positional
    have on' : t.state.colorMaterial = true := material.symm.trans on
    have here' : t.state.enabledLights i = true := (congrFun lights i).symm.trans here
    simp only [validateLight_lights, here', on', if_true] at positional
    have known := ready.measured on' i here' positional
    simp [validated, known]
  · rw [picked]
    exact enable.trans enabled

theorem light_eq_validated (due : t.state.lightVertex = .validate)
    (resolved : (validated t).state.lightVertex ≠ .validate) (color : Vec4) :
    light t color = light (validated t) color := by
  have first : lightOne t.state color = lightOne (validated t).state color := by
    simp only [lightOne, due]
    cases h : (validated t).state.lightVertex with
    | validate => exact absurd h resolved
    | _ => simp [validated] at h; simp [validated, h]
  unfold light
  rw [first, if_pos due, if_neg resolved]
  rfl

theorem acquireMaterial_lights (s : State) (color : Vec4) (i : Fin 8) :
    (acquireMaterial s color).lights i = if s.enabledLights i then
      implicitProducts { s.front with ambient := color, diffuse := color } (s.lights i)
    else s.lights i := rfl

theorem light_resolved (inv : Inv t) (ready : Ready t) (resolved : t.state.lightVertex ≠ .validate)
    (color : Vec4) :
    Inv (light t color) ∧ Ready (light t color) ∧ Derived (light t color).state ∧
      (light t color).state.enable = t.state.enable ∧
      (light t color).state.lightVertex ≠ .validate := by
  have history : (light t color).history = t.history := by rw [light, if_neg resolved]
  have picked := inv.picked resolved
  have same := ready.colorMaterial resolved
  cases material : t.history.colorMaterial with
  | false =>
    rw [material] at picked same
    have state : light t color = t := by
      have : lightOne t.state color = t.state := by simp [lightOne, picked]
      rw [light, if_neg resolved, this]
    rw [state]
    refine ⟨inv, ready, ⟨fun i here => ?_, fun i here _ => ?_, fun i here => ?_, ?_, ?_, ?_⟩, rfl,
      resolved⟩
    · exact (inv.products resolved material i (ready.lights resolved i here)).1
    · exact (inv.products resolved material i (ready.lights resolved i here)).2
    · exact inv.eye resolved i (ready.lights resolved i here)
    · exact inv.scene resolved material
    · exact inv.viewer resolved
    · rw [same, picked]
  | true =>
    rw [material] at picked same
    have state : light t color = ⟨acquireMaterial t.state color, t.history⟩ := by
      have : lightOne t.state color = acquireMaterial t.state color := by simp [lightOne, picked]
      rw [light, if_neg resolved, this]
    -- the products have no part in where a light is or how it fades
    have eye (l : Light) (m : Material) (h : eyePosition l = l) :
        eyePosition (implicitProducts m l) = implicitProducts m l :=
      (show _ = implicitProducts m (eyePosition l) from rfl).trans (congrArg _ h)
    rw [state]
    refine ⟨⟨inv.notNop, fun i known => ?_, inv.picked, fun _ i here => ?_, inv.viewer,
      fun _ plain => ?_, fun _ plain => ?_⟩, ⟨ready.lights, ready.colorMaterial,
      fun on i here positional => ready.measured on i here ?_⟩,
      ⟨fun i here => ?_, fun i here positional => ?_, fun i here => ?_, rfl, ?_, ?_⟩, rfl, resolved⟩
    · have measured := inv.measured i known
      rw [acquireMaterial_lights]
      cases t.state.enabledLights i <;> exact measured
    · have current := inv.eye resolved i here
      rw [acquireMaterial_lights]
      cases t.state.enabledLights i
      · exact current
      · exact eye _ _ current
    · rw [material] at plain
      cases plain
    · rw [material] at plain
      cases plain
    · rw [acquireMaterial_lights, show t.state.enabledLights i = true from here] at positional
      exact positional
    · rw [acquireMaterial_lights, show t.state.enabledLights i = true from here]
      rfl
    · rw [acquireMaterial_lights, show t.state.enabledLights i = true from here] at positional ⊢
      exact inv.measured i (ready.measured same i here positional)
    · rw [acquireMaterial_lights, show t.state.enabledLights i = true from here]
      exact eye _ _ (inv.eye resolved i (ready.lights resolved i here))
    · exact inv.viewer resolved
    · have on : (acquireMaterial t.state color).colorMaterial = true := same
      rw [on]
      exact picked

theorem light_spec (inv : Inv t) (ready : Ready t) (enabled : t.state.enable = true) (color : Vec4) :
    Inv (light t color) ∧ Ready (light t color) ∧ Derived (light t color).state ∧
      (light t color).state.enable = true := by
  by_cases due : t.state.lightVertex = .validate
  · obtain ⟨inv', ready', enabled', resolved⟩ := validated_spec inv ready enabled
    rw [light_eq_validated due resolved]
    obtain ⟨kept, again, derived, enable, -⟩ := light_resolved inv' ready' resolved color
    exact ⟨kept, again, derived, enable.trans enabled'⟩
  · obtain ⟨kept, again, derived, enable, -⟩ := light_resolved inv ready due color
    exact ⟨kept, again, derived, enable.trans enabled⟩

theorem foldl_light (inv : Inv t) (ready : Ready t) (enabled : t.state.enable = true)
    (colors : List Vec4) :
    Inv (colors.foldl light t) ∧ Ready (colors.foldl light t) ∧
      (colors ≠ [] → Derived (colors.foldl light t).state) ∧
      (colors.foldl light t).state.enable = true := by
  induction colors using List.reverseRecOn with
  | nil => exact ⟨inv, ready, fun empty => absurd rfl empty, enabled⟩
  | append_singleton colors color ih =>
    obtain ⟨inv', ready', -, enabled'⟩ := ih
    obtain ⟨kept, again, derived, enable⟩ := light_spec inv' ready' enabled' color
    rw [List.foldl_append]
    exact ⟨kept, again, fun _ => derived, enable⟩

theorem inv_invalidated {h : History} (due : s.lightVertex = .validate)
    (measured : ∀ i, h.measured i = true →
      (s.lights i).rConstAttenuation = constantAttenuation (s.lights i)) : Inv ⟨s, h⟩ := by
  refine ⟨?_, measured, ?_, ?_, ?_, ?_, ?_⟩
  · rw [due]
    simp
  all_goals exact fun resolved => absurd due resolved

theorem Inv.error (inv : Inv t) (error : GLenum) :
    Inv { t with state := oglesError t.state error } :=
  ⟨inv.notNop, inv.measured, inv.picked, inv.eye, inv.viewer, inv.products, inv.scene⟩

theorem switchCap_inv (inv : Inv t) (light : Option (Fin 8)) (cap : GLenum) (enabled : Bool) :
    Inv { t with state := switchCap t.state light cap enabled } := by
  cases light with
  | some i =>
    exact ⟨inv.notNop, inv.measured, inv.picked, inv.eye, inv.viewer, inv.products, inv.scene⟩
  | none =>
    dsimp only [switchCap]
    split_ifs
    · exact ⟨inv.notNop, inv.measured, inv.picked, inv.eye, inv.viewer, inv.products, inv.scene⟩
    · exact ⟨inv.notNop, inv.measured, inv.picked, inv.eye, inv.viewer, inv.products, inv.scene⟩
    · exact inv

theorem lightParameter_spec {l l' : Light} {param : Int}
    (h : lightParameter cosine l pname param = .ok l') :
    l'.rConstAttenuation = l.rConstAttenuation ∧
      (isAttenuation pname = false → l'.attenuation = l.attenuation) := by
  unfold lightParameter at h
  split_ifs at h with exponent _ cutoff _ constant _ linear _ quadratic
  all_goals obtain rfl := Except.ok.inj h
  · exact ⟨rfl, fun _ => rfl⟩
  · exact ⟨rfl, fun _ => rfl⟩
  · exact ⟨rfl, fun other => by simp [isAttenuation, constant] at other⟩
  · exact ⟨rfl, fun other => by simp [isAttenuation, linear] at other⟩
  · exact ⟨rfl, fun other => by simp [isAttenuation, quadratic] at other⟩

theorem lightVector_spec {modelview : Transform} {l l' : Light} {params : Vec4}
    (h : lightVector cosine modelview l pname params = .ok l') :
    l'.rConstAttenuation = l.rConstAttenuation ∧
      (isAttenuation pname = false → l'.attenuation = l.attenuation) := by
  unfold lightVector at h
  split_ifs at h
  all_goals first
    | exact lightParameter_spec cosine h
    | obtain rfl := Except.ok.inj h
      exact ⟨rfl, fun _ => rfl⟩

theorem forget_measured {h : History} {light : Option (Fin 8)} {j : Fin 8}
    (known : (forget h light pname).measured j = true) :
    h.measured j = true ∧ (light = some j → isAttenuation pname = false) := by
  cases light with
  | none => exact ⟨known, fun here => nomatch here⟩
  | some n =>
    cases attenuation : isAttenuation pname with
    | false => exact ⟨by simpa [forget, attenuation] using known, fun _ => rfl⟩
    | true =>
      simp only [forget, attenuation, if_true, Function.update_apply] at known
      split_ifs at known with here
      exact ⟨known, fun same => absurd (Option.some_inj.mp same).symm here⟩

theorem changeLight_inv (inv : Inv t) (light : Option (Fin 8)) (pname : GLenum)
    {change : Light → Except GLenum Light}
    (spec : ∀ l l', change l = .ok l' →
      l'.rConstAttenuation = l.rConstAttenuation ∧
        (isAttenuation pname = false → l'.attenuation = l.attenuation)) :
    Inv ⟨changeLight t.state light change, forget t.history light pname⟩ := by
  have lights : (forget t.history light pname).lights = t.history.lights ∧
      (forget t.history light pname).colorMaterial = t.history.colorMaterial := by
    unfold forget
    cases light with
    | none => exact ⟨rfl, rfl⟩
    | some n => cases isAttenuation pname <;> exact ⟨rfl, rfl⟩
  have refused (error : GLenum) : Inv ⟨oglesError t.state error, forget t.history light pname⟩ := by
    refine ⟨inv.notNop, fun i known => inv.measured i (forget_measured known).1, ?_, ?_, inv.viewer,
      ?_, ?_⟩
    all_goals simp only [lights]
    · exact inv.picked
    · exact inv.eye
    · exact inv.products
    · exact inv.scene
  cases light with
  | none => exact refused _
  | some n =>
    simp only [changeLight]
    cases changed : change (t.state.lights n) with
    | error error => exact refused error
    | ok l =>
      obtain ⟨derived, kept⟩ := spec _ _ changed
      refine inv_invalidated rfl fun j known => ?_
      obtain ⟨before, other⟩ := forget_measured known
      have measured := inv.measured j before
      simp only [invalidateLighting, setLight, Function.update_apply]
      split_ifs with here
      · subst here
        have attenuation := kept (other rfl)
        unfold constantAttenuation at measured ⊢
        rw [derived, attenuation]
        exact measured
      · exact measured

theorem Inv.invalidate (inv : Inv t) (due : s.lightVertex = .validate)
    (lights : s.lights = t.state.lights) : Inv { t with state := s } :=
  inv_invalidated due fun i known => by
    rw [lights]
    exact inv.measured i known

theorem entered_inv (inv : Inv t) (normals : Bool) : Inv (entered t normals) := by
  cases normals
  · exact inv
  · exact inv.invalidate rfl rfl

theorem step_inv (inv : Inv t) (op : Op) (safe : Safe t op) : Inv (step cosine t op) := by
  cases op with
  | enableDisable cap enabled => exact switchCap_inv inv _ cap enabled
  | lightModelx pname param =>
    simp only [step, lightModelx]
    split_ifs
    · exact inv.error _
    · exact inv.invalidate rfl rfl
  | lightModelxv pname params =>
    simp only [step, glLightModelxv, lightModelx]
    split_ifs
    · exact inv.error _
    · exact inv.invalidate rfl rfl
    · exact inv.error _
    · exact inv.invalidate rfl rfl
  | lightx i pname param =>
    exact changeLight_inv inv _ pname fun _ _ h => lightParameter_spec cosine h
  | lightxv i pname params modelview =>
    exact changeLight_inv inv _ pname fun _ _ h => lightVector_spec cosine h
  | materialx face pname param =>
    simp only [step, materialx]
    split_ifs
    · exact inv.error _
    · exact inv.error _
    · exact inv.invalidate rfl rfl
  | materialv face pname params shininess =>
    simp only [step, materialv]
    split_ifs
    · exact inv.error _
    all_goals first | exact inv.invalidate rfl rfl | exact inv.error _
  | draw normals colors =>
    simp only [step]
    by_cases enabled : t.state.enable = true
    · rw [if_pos enabled]
      cases colors with
      | nil => exact entered_inv inv normals
      | cons color colors =>
        have ready := safe enabled (List.cons_ne_nil _ _)
        have on : (entered t normals).state.enable = true := by cases normals <;> exact enabled
        exact (foldl_light (entered_inv inv normals) ready on _).1
    · rw [if_neg enabled]
      exact inv

theorem start_inv : Inv start := inv_invalidated rfl fun _ known => nomatch known

/-- In a guarded run, for every vertex a draw call lights the derived values are those of the
state it is lit in. -/
theorem lighting_coherent (ops pre : List Op) (normals : Bool) (colors lit : List Vec4)
    (safe : Guarded (step cosine) Safe start ops) (hpre : pre ++ [.draw normals colors] <+: ops)
    (enabled : (run (step cosine) start pre).state.enable = true) (nonempty : lit ≠ [])
    (hlit : lit <+: colors) :
    Derived (lit.foldl lightOne
      (if normals then invalidateLighting (run (step cosine) start pre).state
        else (run (step cosine) start pre).state)) := by
  have keeps (t : Tracked) (op : Op) (inv : Inv t) (ok : Safe t op) : Inv (step cosine t op) :=
    step_inv cosine inv op ok
  have inv : Inv (run (step cosine) start pre) :=
    run_invariant keeps start_inv (safe.of_prefix ((List.prefix_append pre _).trans hpre))
  have ready : Ready (entered (run (step cosine) start pre) normals) := by
    refine safe.next hpre enabled ?_
    rintro rfl
    exact nonempty (List.prefix_nil.mp hlit)
  have on : (entered (run (step cosine) start pre) normals).state.enable = true := by
    cases normals <;> exact enabled
  have derived := (foldl_light (entered_inv inv normals) ready on lit).2.2.1 nonempty
  rw [foldl_light_state] at derived
  cases normals <;> exact derived

private theorem lightIndex_light0 : lightIndex GL.light0 = some 0 := by
  simp [lightIndex]

private theorem lightIndex_lighting : lightIndex GL.lighting = none := by
  simp [lightIndex, GL.lighting, GL.light0]

private def noCosine : Int → Int := fun _ => 0

private theorem run_enabled :
    run (step noCosine) start [.enableDisable GL.lighting true, .enableDisable GL.light0 true] =
      { start with state :=
        { init with
          enable := true
          enabledLights := Function.update init.enabledLights 0 true } } := by
  simp only [run_cons, run_nil, step, enableDisable, lightIndex_light0, lightIndex_lighting]
  rfl

theorem lighting_coherent_two_vertices :
    Derived ([white, grey 0].foldl lightOne (run (step noCosine) start
      [.enableDisable GL.lighting true, .enableDisable GL.light0 true]).state) := by
  have enabled := run_enabled
  refine lighting_coherent noCosine [.enableDisable GL.lighting true, .enableDisable GL.light0 true,
    .draw false [white, grey 0]] [.enableDisable GL.lighting true, .enableDisable GL.light0 true]
    false [white, grey 0] [white, grey 0] ?_ (List.prefix_refl _) ?_ (List.cons_ne_nil _ _)
    (List.prefix_refl _)
  · refine ⟨trivial, trivial, fun _ _ => ?_, trivial⟩
    rw [run_cons, run_cons, run_nil] at enabled
    rw [enabled]
    exact ⟨fun due => absurd rfl due, fun due => absurd rfl due, fun on => nomatch on⟩
  · rw [enabled]

/-- A light enabled after the first vertex was lit is used with products that were never made. -/
theorem light_enabled_late :
    ¬Derived (lightOne (run (step noCosine) start [.enableDisable GL.lighting true,
      .draw false [white], .enableDisable GL.light0 true]).state white) := by
  intro derived
  have lit : (run (step noCosine) start [.enableDisable GL.lighting true,
      .draw false [white], .enableDisable GL.light0 true]).state =
      { lightPicker (validateLight { init with enable := true }) with
        enabledLights := Function.update init.enabledLights 0 true } := by
    simp only [run_cons, run_nil, step, enableDisable, lightIndex_light0, lightIndex_lighting]
    rfl
  rw [lit] at derived
  have products := derived.products 0 rfl
  have diffuse := congrArg (fun l => l.implicitDiffuse.x) products
  exact absurd diffuse (by decide +kernel)

end RabbitRender.Lighting.Coherence
