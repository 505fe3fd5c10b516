/- RabbitRender/Setters/Agreement
   layer: proof
   source: swrender/light.cpp, swrender/texture.cpp, swrender/fp.cpp
   digest: When the scalar, vector and float forms of one parameter leave the same state. -/

import RabbitRender.Setters.Errors

set_option autoImplicit false

namespace RabbitRender.Setters.Agreement

open RabbitRender.GL (GLenum)
open Lighting RabbitRender.Matrix Pixelflinger Setters.Calls Setters.Singles
open Vertices (Vec4)

inductive Scalar where
  | light (i pname : GLenum)
  | material (face pname : GLenum)
  | fog (pname : GLenum)
  | lightModel (pname : GLenum)
  | texEnv (target pname : GLenum)
  | texParameter (target pname : GLenum)
deriving DecidableEq

def fixed (s : Scalar) (p : Int) : Call Single :=
  match s with
  | .light i pname => .lightx i pname p
  | .material face pname => .materialx face pname p
  | .fog pname => .fogx pname p
  | .lightModel pname => .lightModelx pname p
  | .texEnv target pname => .texEnvx target pname p
  | .texParameter target pname => .texParameterx target pname p

def vector (s : Scalar) (params : Vec4) : Call Single :=
  match s with
  | .light i pname => .lightxv i pname params
  | .material face pname => .materialxv face pname params
  | .fog pname => .fogxv pname params
  | .lightModel pname => .lightModelxv pname params
  | .texEnv target pname => .texEnvxv target pname params
  | .texParameter target pname => .texParameteriv target pname params

def float (s : Scalar) (v : Single) : Call Single :=
  match s with
  | .light i pname => .lightf i pname v
  | .material face pname => .materialf face pname v
  | .fog pname => .fogf pname v
  | .lightModel pname => .lightModelf pname v
  | .texEnv target pname => .texEnvf target pname v
  | .texParameter target pname => .texParameterf target pname v

def floatVector (s : Scalar) (params : Fin 4 → Single) : Call Single :=
  match s with
  | .light i pname => .lightfv i pname params
  | .material face pname => .materialfv face pname params
  | .fog pname => .fogfv pname params
  | .lightModel pname => .lightModelfv pname params
  | .texEnv target pname => .texEnvfv target pname params
  | .texParameter target pname => .texParameterf target pname (params 0)

def lightParameters : List GLenum :=
  [GL.spotExponent, GL.spotCutoff, GL.constantAttenuation, GL.linearAttenuation,
    GL.quadraticAttenuation]

def Scalar.Known : Scalar → Prop
  | .light _ pname => pname ∈ lightParameters
  | .material _ pname => pname = GL.shininess
  | .fog pname => pname ∈ [GL.fogDensity, GL.fogStart, GL.fogEnd, GL.fogMode]
  | .lightModel pname => pname = GL.lightModelTwoSide
  | .texEnv _ pname => pname = GGL.textureEnvMode
  | .texParameter _ pname =>
    pname ∈ [GL.textureWrapS, GL.textureWrapT, GL.textureMinFilter, GL.textureMagFilter,
      GL.generateMipmap]

/-- The parameter is an enumeration value or an integer, which is not scaled. -/
def Scalar.Unscaled : Scalar → Prop
  | .fog pname => pname = GL.fogMode
  | .texEnv _ _ => True
  | .texParameter _ _ => True
  | _ => False

instance (s : Scalar) : Decidable s.Unscaled := by
  cases s <;> unfold Scalar.Unscaled <;> infer_instance

def realValue (s : Scalar) (p : Int) : ℚ := if s.Unscaled then p else p / 65536

section Forms

variable (F : Type) [Transforms.GLfloat F]

/-- A pointer to that single value: what follows it in memory does not matter. -/
def VectorAgrees (s : Scalar) (p : Int) : Prop :=
  ∀ (c : Context F) (params : Vec4), params.x = p → call c (vector s params) = call c (fixed s p)

def FloatAgrees (s : Scalar) (p : Int) : Prop :=
  ∀ (c : Context F) (params : Fin 4 → Single), (params 0).1 = realValue s p →
    call c (float s (params 0)) = call c (fixed s p) ∧
      call c (floatVector s params) = call c (fixed s p)

def FormsAgree (s : Scalar) (p : Int) : Prop := VectorAgrees F s p ∧ FloatAgrees F s p

end Forms

/-- `glMaterialxv` converts a shininess that is already a fixed-point number. -/
def Reconverted (s : Scalar) (p : Int) : Prop :=
  match s with
  | .material face _ => face = GL.frontAndBack ∧ p ≠ 0
  | _ => False

/-- The half that `gglFloatToFixed` adds makes another number of this one. -/
def RoundsUp (p : Int) : Prop := p % 2 ≠ 0 ∧ 2 ^ 23 ≤ |p| ∧ |p| < 2 ^ 24

def LightReads (pname : GLenum) (p : Int) : Prop :=
  if pname = GL.spotExponent then p < 0
  else if pname = GL.spotCutoff then p < 0 ∨ p + 1 = 180 * 0x10000
  else 0 ≤ p

def Reads (s : Scalar) (p : Int) : Prop :=
  match s with
  | .light i pname => (Lights.lightIndex i).isSome ∧ LightReads pname p
  | .material face _ => face = GL.frontAndBack
  | .fog pname => pname = GL.fogStart ∨ pname = GL.fogEnd ∨ pname = GL.fogDensity ∧ 0 ≤ p
  | _ => False

def converted (s : Scalar) (v : Single) : Int := if s.Unscaled then toInt v else gglFloatToFixed v

section Conversions

variable {F : Type} [Transforms.GLfloat F]

theorem materialv_shininess (s : Lights.State) (face : GLenum) (params : Vec4) (shininess : Int) :
    Lights.materialv s face GL.shininess params shininess =
      Lights.materialx s face GL.shininess shininess := by
  unfold Lights.materialv Lights.materialx
  by_cases invalid : face ≠ GL.frontAndBack
  · rw [if_pos invalid, if_pos invalid]
  · rw [if_neg invalid, if_neg invalid]
    dsimp only
    rw [if_neg (by decide), if_neg (by decide), if_neg (by decide), if_neg (by decide),
      if_neg (by decide), if_pos rfl, if_neg (not_not.mpr rfl)]

variable {pname : GLenum} {s : Scalar}

theorem lightVector_scalar (known : pname ∈ lightParameters) (modelview : Transforms.Transform)
    (l : Lights.Light) (params : Vec4) :
    Lights.lightVector cutoffCosine modelview l pname params =
      Lights.lightParameter cutoffCosine l pname params.x := by
  have other (vector : GLenum) (h : vector ∉ lightParameters) : pname ≠ vector :=
    fun equal => h (equal ▸ known)
  unfold Lights.lightVector
  rw [if_neg (other GL.ambient (by decide)), if_neg (other GL.diffuse (by decide)),
    if_neg (other GL.specular (by decide)), if_neg (other GL.position (by decide)),
    if_neg (other GL.spotDirection (by decide))]

theorem call_lightxv (known : pname ∈ lightParameters) (c : Context F) (i : GLenum) (params : Vec4) :
    lightxv Single c i pname params = glLightx Single c i pname params.x := by
  have position : ¬((Lights.lightIndex i).isSome ∧ pname = GL.position) := by
    rintro ⟨_, rfl⟩
    revert known
    decide
  unfold lightxv changeLight glLightx
  rw [if_neg position]
  refine congrArg (onLighting c) (funext fun s => ?_)
  exact congrArg (Lights.changeLight s (Lights.lightIndex i))
    (funext fun l => lightVector_scalar known _ l params)

theorem fogColor_unknown (known : (Scalar.fog pname).Known) : pname ≠ GL.fogColor := by
  intro color
  have member : GL.fogColor ∈ [GL.fogDensity, GL.fogStart, GL.fogEnd, GL.fogMode] := color ▸ known
  exact absurd member (by decide)

theorem cropRect_unknown {target : GLenum} (known : (Scalar.texParameter target pname).Known) :
    pname ≠ GL.textureCropRectOes := by
  intro rect
  have member : GL.textureCropRectOes ∈ [GL.textureWrapS, GL.textureWrapT, GL.textureMinFilter,
      GL.textureMagFilter, GL.generateMipmap] := rect ▸ known
  exact absurd member (by decide)

theorem gglTexEnvxv_mode (r : State.Context) (target : GLenum) (params : Vec4) :
    gglTexEnvxv r target GGL.textureEnvMode params =
      gglTexEnvi r target GGL.textureEnvMode params.x := by
  unfold gglTexEnvxv
  by_cases env : target ≠ GGL.textureEnv
  · unfold gglTexEnvi State.gglTexEnvi
    rw [if_pos env, if_pos (.inl env)]
  · rw [if_neg env, if_pos rfl]

def vectorValue (s : Scalar) (p : Int) : Int :=
  match s with
  | .material _ _ => gglFloatToFixed (toSingle p)
  | _ => p

theorem call_vector (known : s.Known) (c : Context F) (params : Vec4) :
    call c (vector s params) = call c (fixed s (vectorValue s params.x)) := by
  cases s with
  | light i pname => exact call_lightxv known c i params
  | material face pname =>
    obtain rfl : pname = GL.shininess := known
    exact congrArg (onLighting c) (funext fun s => materialv_shininess s face params _)
  | fog pname => exact if_pos (fogColor_unknown known)
  | lightModel pname => exact congrArg (onLighting c) (funext fun s => if_pos known)
  | texEnv target pname =>
    obtain rfl : pname = GGL.textureEnvMode := known
    change onRasterizer c (gglTexEnvxv · target _ params) = onRasterizer c (gglTexEnvi · target _ _)
    simp only [gglTexEnvxv_mode]
    rfl
  | texParameter target pname =>
    change glTexParameteriv c target pname params = texParameterx c target pname params.x
    unfold glTexParameteriv
    rw [if_neg (cropRect_unknown known)]
    by_cases invalid : target ≠ GL.texture2D ∧ target ≠ GL.textureExternalOes
    · unfold texParameterx
      rw [if_pos invalid, if_pos invalid]
    · rw [if_neg invalid]

theorem converted_fog (pname : GLenum) (v : Single) :
    converted (.fog pname) v = fogParameter pname v := by
  unfold converted fogParameter
  by_cases mode : pname = GL.fogMode
  · have unscaled : (Scalar.fog pname).Unscaled := mode
    rw [if_pos unscaled, if_neg (not_not.mpr mode)]
    rfl
  · have scaled : ¬(Scalar.fog pname).Unscaled := mode
    rw [if_neg scaled, if_pos mode]
    rfl

theorem call_float (s : Scalar) (c : Context F) (v : Single) :
    call c (float s v) = call c (fixed s (converted s v)) := by
  cases s with
  | fog pname =>
    rw [converted_fog]
    rfl
  | _ => rfl

theorem call_floatVector (known : s.Known) (c : Context F) (params : Fin 4 → Single) :
    call c (floatVector s params) = call c (fixed s (converted s (params 0))) := by
  cases s with
  | light i pname => exact if_pos known
  | material face pname =>
    obtain rfl : pname = GL.shininess := known
    exact congrArg (onLighting c) (funext fun s => materialv_shininess s face _ _)
  | fog pname =>
    rw [converted_fog]
    exact if_pos (fogColor_unknown known)
  | lightModel pname => exact congrArg (onLighting c) (funext fun s => if_pos known)
  | texEnv target pname => exact if_pos known
  | texParameter target pname => rfl

theorem toInt_eq {p : Int} {v : Single} (same : v.1 = p) : toInt v = p := by
  unfold toInt
  rw [same, Int.floor_intCast, Int.ceil_intCast, ite_self]

theorem converted_eq {p : Int} {v : Single} (same : v.1 = realValue s p) :
    converted s v = p ∨ converted s v = p + 1 ∧ RoundsUp p ∧ ¬s.Unscaled := by
  unfold realValue at same
  unfold converted
  by_cases unscaled : s.Unscaled
  · rw [if_pos unscaled] at same ⊢
    exact .inl (toInt_eq same)
  · rw [if_neg unscaled] at same ⊢
    rw [gglFloatToFixed_eq same]
    by_cases tie : p % 2 ≠ 0 ∧ 2 ^ 23 ≤ |p|
    · rw [if_pos tie]
      exact .inr ⟨rfl, ⟨tie.1, tie.2, abs_lt_of_odd (representable_int same) tie.1⟩, unscaled⟩
    · exact .inl (if_neg tie)

end Conversions

theorem RoundsUp.far {p : Int} (up : RoundsUp p) : p < -2 ^ 23 ∨ 2 ^ 23 < p := by
  obtain ⟨odd, large, _⟩ := up
  rw [abs_eq_max_neg] at large
  omega

theorem lightParameter_next {pname : GLenum} {p : Int} (known : pname ∈ lightParameters)
    (up : RoundsUp p) (unread : ¬LightReads pname p) (l : Lights.Light) :
    Lights.lightParameter cutoffCosine l pname (p + 1) =
      Lights.lightParameter cutoffCosine l pname p := by
  have far := up.far
  have odd := up.1
  unfold LightReads at unread
  unfold Lights.lightParameter
  simp only [lightParameters, List.mem_cons, List.not_mem_nil, or_false] at known
  -- both values are refused
  rcases known with rfl | rfl | rfl | rfl | rfl <;>
    simp +decide only [if_true, if_false] at unread ⊢ <;>
    rw [if_pos (by omega), if_pos (by omega)]

section Next

variable {F : Type}

theorem glMaterialx_invalid (c : Context F) {face : GLenum} (invalid : face ≠ GL.frontAndBack)
    (pname : GLenum) (q r : Int) : glMaterialx c face pname q = glMaterialx c face pname r := by
  unfold glMaterialx Lights.materialx
  refine congrArg (onLighting c) (funext fun s => ?_)
  rw [if_pos invalid, if_pos invalid]

theorem shininess_glMaterialx (c : Context F) (q : Int) :
    (glMaterialx c GL.frontAndBack GL.shininess q).lighting.front.shininess = q := by
  unfold glMaterialx Lights.materialx
  simp only [if_neg (not_not.mpr (rfl : GL.frontAndBack = GL.frontAndBack)),
    if_neg (not_not.mpr (rfl : GL.shininess = GL.shininess))]
  rfl

theorem start_fogx (c : Context F) (q : Int) : (fogx c GL.fogStart q).fog.start = q := by
  rw [fogx, if_neg (by decide), if_pos rfl]

theorem finish_fogx (c : Context F) (q : Int) : (fogx c GL.fogEnd q).fog.finish = q := by
  rw [fogx, if_neg (by decide), if_neg (by decide), if_pos rfl]

theorem density_fogx (c : Context F) {q : Int} (positive : 0 ≤ q) :
    (fogx c GL.fogDensity q).fog.density = q := by
  rw [fogx, if_pos rfl, if_pos positive]

variable [Transforms.GLfloat F]

variable {p : Int}

theorem fixed_next {s : Scalar} (known : s.Known) (scaled : ¬s.Unscaled) (up : RoundsUp p)
    (unread : ¬Reads s p) (c : Context F) : call c (fixed s (p + 1)) = call c (fixed s p) := by
  have far := up.far
  cases s with
  | light i pname =>
    change glLightx Single c i pname (p + 1) = glLightx Single c i pname p
    unfold glLightx Lights.lightx
    refine congrArg (onLighting c) (funext fun s => ?_)
    by_cases index : (Lights.lightIndex i).isSome
    · have silent : ¬LightReads pname p := fun reads => unread ⟨index, reads⟩
      exact congrArg (Lights.changeLight s (Lights.lightIndex i))
        (funext fun l => lightParameter_next known up silent l)
    · rw [Option.not_isSome_iff_eq_none.mp index]
      rfl
  | material face pname => exact glMaterialx_invalid c unread pname (p + 1) p
  | fog pname =>
    have start : pname ≠ GL.fogStart := fun h => unread (.inl h)
    have finish : pname ≠ GL.fogEnd := fun h => unread (.inr (.inl h))
    have density : pname = GL.fogDensity := by
      have mode : pname ≠ GL.fogMode := scaled
      simpa [Scalar.Known, start, finish, mode] using known
    have negative : ¬0 ≤ p := fun h => unread (.inr (.inr ⟨density, h⟩))
    change fogx c pname (p + 1) = fogx c pname p
    unfold fogx
    rw [if_pos density, if_pos density, if_neg (by omega), if_neg negative]
  | lightModel pname =>
    change glLightModelx c pname (p + 1) = glLightModelx c pname p
    unfold glLightModelx Lights.lightModelx
    have next : p + 1 ≠ 0 := by omega
    have this : p ≠ 0 := by omega
    simp only [next, this, decide_true, ne_eq, not_false_eq_true]
  | texEnv target pname => exact absurd trivial scaled
  | texParameter target pname => exact absurd trivial scaled

theorem lightParameter_next_ne {pname : GLenum} (known : pname ∈ lightParameters) (up : RoundsUp p)
    (reads : LightReads pname p) (l : Lights.Light) :
    Lights.lightParameter cutoffCosine l pname (p + 1) ≠
      Lights.lightParameter cutoffCosine l pname p := by
  have far := up.far
  have other : p + 1 ≠ p := by omega
  have attenuates {k : Fin 3} (h : (Except.ok { l with
        attenuation := Function.update l.attenuation k (p + 1) } : Except GLenum Lights.Light) =
      .ok { l with attenuation := Function.update l.attenuation k p }) : False := by
    have entry := congrFun (congrArg Lights.Light.attenuation (Except.ok.inj h)) k
    simp only [Function.update_self] at entry
    exact other entry
  unfold LightReads at reads
  unfold Lights.lightParameter
  intro equal
  simp only [lightParameters, List.mem_cons, List.not_mem_nil, or_false] at known
  rcases known with rfl | rfl | rfl | rfl | rfl <;>
    simp +decide only [if_true, if_false] at reads equal
  · rw [if_neg (by omega), if_neg (by omega)] at equal
    exact other (congrArg Lights.Light.spotExp (Except.ok.inj equal))
  · rcases reads with negative | half
    · rw [if_neg (by omega), if_neg (by omega)] at equal
      exact other (congrArg Lights.Light.spotCutoff (Except.ok.inj equal))
    · rw [if_neg (by omega), if_pos (by omega)] at equal
      exact absurd equal (by simp)
  all_goals
    rw [if_neg (by omega), if_neg (by omega)] at equal
    exact attenuates equal

omit [Transforms.GLfloat F]

theorem onLighting_inj {c : Context F} {f g : Lights.State → Lights.State}
    (equal : onLighting c f = onLighting c g) :
    f { c.lighting with error := c.error } = g { c.lighting with error := c.error } := by
  have lighting := congrArg Context.lighting equal
  have error := congrArg Context.error equal
  unfold onLighting at lighting error
  generalize f { c.lighting with error := c.error } = s at *
  generalize g { c.lighting with error := c.error } = t at *
  cases s
  cases t
  simp only [Lights.State.mk.injEq] at lighting error ⊢
  exact ⟨lighting.1, lighting.2.1, lighting.2.2.1, lighting.2.2.2.1, lighting.2.2.2.2.1,
    lighting.2.2.2.2.2.1, lighting.2.2.2.2.2.2.1, lighting.2.2.2.2.2.2.2.1,
    lighting.2.2.2.2.2.2.2.2.1, lighting.2.2.2.2.2.2.2.2.2.1, error⟩

theorem changeLight_inj {s : Lights.State} (clean : s.error = GL.noError) {n : Fin 8}
    {f g : Lights.Light → Except GLenum Lights.Light}
    (nonzero : ∀ fault, f (s.lights n) = .error fault ∨ g (s.lights n) = .error fault →
      fault ≠ GL.noError)
    (equal : Lights.changeLight s (some n) f = Lights.changeLight s (some n) g) :
    f (s.lights n) = g (s.lights n) := by
  have error := congrArg Lights.State.error equal
  have light := congrFun (congrArg Lights.State.lights equal) n
  have first (fault : GLenum) : (Lights.oglesError s fault).error = fault := by
    change GL.firstError s.error fault = fault
    rw [clean]
    exact if_pos rfl
  have kept (l : Lights.Light) :
      (Lights.invalidateLighting (Lights.setLight s n l)).error = GL.noError := clean
  have stored (l : Lights.Light) :
      (Lights.invalidateLighting (Lights.setLight s n l)).lights n = l := by
    change Function.update s.lights n l n = l
    exact Function.update_self n l s.lights
  unfold Lights.changeLight at error light
  cases left : f (s.lights n) with
  | error a =>
    cases right : g (s.lights n) with
    | error b =>
      simp only [left, right, first] at error
      rw [error]
    | ok m =>
      simp only [left, right, first, kept] at error
      exact absurd error (nonzero a (.inl left))
  | ok l =>
    cases right : g (s.lights n) with
    | error b =>
      simp only [left, right, first, kept] at error
      exact absurd error.symm (nonzero b (.inr right))
    | ok m =>
      simp only [left, right, stored] at light
      rw [light]

theorem glLightx_next_ne {c : Context F} (clean : c.error = GL.noError) {i pname : GLenum}
    (light : (Lights.lightIndex i).isSome) (known : pname ∈ lightParameters) (up : RoundsUp p)
    (reads : LightReads pname p) :
    glLightx Single c i pname (p + 1) ≠ glLightx Single c i pname p := by
  intro equal
  obtain ⟨n, index⟩ := Option.isSome_iff_exists.mp light
  have change := onLighting_inj equal
  simp only [Lights.lightx, index] at change
  refine lightParameter_next_ne known up reads (c.lighting.lights n)
    (changeLight_inj (s := { c.lighting with error := c.error }) clean ?_ change)
  rintro fault (h | h)
  all_goals exact Errors.lightParameter_error h

end Next

section Result

variable {F : Type} [Transforms.GLfloat F]

variable (F) in
def clean : Context F := initial (Transforms.init 0 (0, 0, 240) id)

variable {s : Scalar}

theorem scaled_of_reads {p : Int} (reads : Reads s p) : ¬s.Unscaled := by
  cases s with
  | light i pname => exact not_false
  | material face pname => exact not_false
  | fog pname =>
    rintro rfl
    rcases reads with start | finish | ⟨density, _⟩
    · exact absurd start (by decide)
    · exact absurd finish (by decide)
    · exact absurd density (by decide)
  | lightModel pname => exact reads.elim
  | texEnv target pname => exact reads.elim
  | texParameter target pname => exact reads.elim

theorem fixed_next_ne {p : Int} (known : s.Known) (up : RoundsUp p) (reads : Reads s p) :
    call (clean F) (fixed s (p + 1)) ≠ call (clean F) (fixed s p) := by
  have far := up.far
  have other : p + 1 ≠ p := by omega
  intro equal
  cases s with
  | light i pname => exact glLightx_next_ne rfl reads.1 known up reads.2 equal
  | material face pname =>
    obtain rfl : face = GL.frontAndBack := reads
    obtain rfl : pname = GL.shininess := known
    have stored := congrArg (fun c => c.lighting.front.shininess) equal
    change (glMaterialx (clean F) _ _ (p + 1)).lighting.front.shininess =
      (glMaterialx (clean F) _ _ p).lighting.front.shininess at stored
    rw [shininess_glMaterialx, shininess_glMaterialx] at stored
    exact other stored
  | fog pname =>
    change fogx (clean F) pname (p + 1) = fogx (clean F) pname p at equal
    have fog := congrArg Context.fog equal
    rcases reads with rfl | rfl | ⟨rfl, positive⟩
    · have start := congrArg Fog.start fog
      rw [start_fogx, start_fogx] at start
      exact other start
    · have finish := congrArg Fog.finish fog
      rw [finish_fogx, finish_fogx] at finish
      exact other finish
    · have density := congrArg Fog.density fog
      rw [density_fogx _ positive, density_fogx _ (by omega)] at density
      exact other density
  | lightModel pname => exact reads.elim
  | texEnv target pname => exact reads.elim
  | texParameter target pname => exact reads.elim

theorem shininess_known (face : GLenum) : (Scalar.material face GL.shininess).Known := rfl

theorem vectorAgrees_iff (known : s.Known) (p : Int) : VectorAgrees F s p ↔ ¬Reconverted s p := by
  cases s with
  | material face pname =>
    obtain rfl : pname = GL.shininess := known
    constructor
    · rintro agrees ⟨rfl, nonzero⟩
      have equal := agrees (clean F) ⟨p, 0, 0, 0⟩ rfl
      rw [call_vector (shininess_known _)] at equal
      have stored := congrArg (fun c => c.lighting.front.shininess) equal
      change (glMaterialx (clean F) _ _ _).lighting.front.shininess =
        (glMaterialx (clean F) _ _ p).lighting.front.shininess at stored
      rw [shininess_glMaterialx, shininess_glMaterialx] at stored
      exact gglFloatToFixed_toSingle_ne nonzero stored
    · intro once c params first
      rw [call_vector (shininess_known _), first]
      by_cases invalid : face ≠ GL.frontAndBack
      · exact glMaterialx_invalid c invalid _ _ _
      · have zero : p = 0 := by
          by_contra nonzero
          exact once ⟨not_not.mp invalid, nonzero⟩
        subst zero
        exact congrArg (fun q => call c (fixed (.material face GL.shininess) q)) gglFloatToFixed_zero
  | _ =>
    refine ⟨fun _ => not_false, fun _ c params first => ?_⟩
    rw [call_vector known, ← first]
    rfl

theorem floatAgrees_iff (known : s.Known) (p : Int) :
    FloatAgrees F s p ↔ ¬(RoundsUp p ∧ Reads s p) := by
  constructor
  · rintro agrees ⟨up, reads⟩
    have scaled := scaled_of_reads reads
    have small : |p| ≤ 2 ^ 24 := up.2.2.le
    let v : Single := ⟨p / 65536, p, -16, small, by decide, by norm_num [div_eq_mul_inv]⟩
    have value : v.1 = p / 65536 := rfl
    have equal := (agrees (clean F) (fun _ => v) (if_neg scaled).symm).1
    rw [call_float, converted, if_neg scaled, gglFloatToFixed_eq value,
      if_pos ⟨up.1, up.2.1⟩] at equal
    exact fixed_next_ne known up reads equal
  · intro silent c params value
    rw [call_float, call_floatVector known]
    rcases converted_eq value with same | ⟨next, up, scaled⟩
    · rw [same]
      exact ⟨rfl, rfl⟩
    · rw [next]
      have equal := fixed_next known scaled up (fun reads => silent ⟨up, reads⟩) c
      exact ⟨equal, equal⟩

/-- The forms of a parameter agree on a value, unless the value is a shininess that is converted
twice, or one that the conversion from single precision takes for the next. -/
theorem forms_agree {s : Scalar} (known : s.Known) (p : Int) :
    FormsAgree F s p ↔ ¬Reconverted s p ∧ ¬(RoundsUp p ∧ Reads s p) :=
  and_congr (vectorAgrees_iff known p) (floatAgrees_iff known p)

end Result

/-- A shininess of one, through a pointer. -/
theorem forms_agree_shininess :
    FormsAgree ℚ (.material GL.frontAndBack GL.shininess) 0x10000 ↔
      ¬Reconverted (.material GL.frontAndBack GL.shininess) 0x10000 ∧
        ¬(RoundsUp 0x10000 ∧ Reads (.material GL.frontAndBack GL.shininess) 0x10000) :=
  forms_agree (shininess_known _) 0x10000

/-- `glMaterialxv` with `GL_SHININESS` and the value one leaves 65536 times the shininess that
`glMaterialx` leaves. -/
theorem glMaterialxv_scales_shininess :
    ¬∀ (s : Scalar), s.Known → ∀ p, FormsAgree ℚ s p := by
  intro agree
  have once := (agree (.material GL.frontAndBack GL.shininess) (shininess_known _) 0x10000).1
    (clean ℚ) ⟨0x10000, 0, 0, 0⟩ rfl
  have stored := congrArg (fun c => c.lighting.front.shininess) once
  revert stored
  decide +kernel

end RabbitRender.Setters.Agreement
