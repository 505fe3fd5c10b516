/- RabbitRender/Lighting/SpotLights
   layer: theorem
   source: swrender/light.cpp, swrender/matrix.h, libpixelflinger/fixed.cpp
   digest: What a light gives to a vertex, and that the cone of a spot light does not limit it
     outside. -/

import Mathlib.Tactic.Linarith
import RabbitRender.Lighting.Coherence

set_option autoImplicit false

namespace RabbitRender.Lighting.SpotLights

open Fixed
open RabbitRender.GL (GLenum)
open Lib.GuardedRun (run run_keeps)
open Lighting.Coherence (Op Tracked start step)
open Lighting.Lights
open RabbitRender.Matrix.Transforms (Transform)
open Vertices (Vec4)

def vsa3 (d m : Vec4) (s : Int) (a : Vec4) : Vec4 :=
  { d with
    x := gglMulAddx m.x s a.x 16
    y := gglMulAddx m.y s a.y 16
    z := gglMulAddx m.z s a.z 16 }

def mla3 (a0 b0 a1 b1 a2 b2 : Int) : Int :=
  wrap32 ((a0 * b0 + a1 * b1 + a2 * b2 + 0x8000) >>> (16 : Nat))

def dot3 (a b : Vec4) : Int := mla3 a.x b.x a.y b.y a.z b.z

/-- The loop of `gglSqrtx`, from the highest bit down. -/
def sqrtBits : Nat → (a r : Int) → Int
  | 0, _, r => r
  | n + 1, a, r =>
    let bit : Int := 2 ^ n
    let temp := bit + 2 * r
    let temp := if n ≥ 16 then wrap32 (temp * 2 ^ (n - 16)) else temp >>> (16 - n)
    if a ≥ temp then sqrtBits n (a - temp) (r + bit) else sqrtBits n a r

def gglSqrtx (a : Int) : Int := sqrtBits 24 a 0

/-- `-ln(x)/ln(2)` with `x = N/16`, `N` from 8 up to 16. -/
def gglLogApproxTab : List Int :=
  [0xFFFF, 0xd47f, 0xad96, 0x8a62, 0x6a3f, 0x4caf, 0x3151, 0x17d6, 0x0000]

/-- `2^-x` with `x = N/8`. -/
def gglAlogApproxTab : List Int :=
  [0xffff, 0xeac0, 0xd744, 0xc567, 0xb504, 0xa5fe, 0x9837, 0x8b95, 0x8000]

def entry (tab : List Int) (i : Nat) : Int := tab.getD i 0

/-- Between two entries of a table, `x` sixteenth bits from the first one. -/
def between (tab : List Int) (i : Nat) (x : Int) : Int :=
  gglMulAddx (entry tab (i + 1) - entry tab i) x (entry tab i) 16

/-- The logarithm of the normalised `f`. -/
def logarithm (f : Int) : Int :=
  between gglLogApproxTab ((f >>> (12 : Nat)) % 8).toNat (f % 0x1000 * 16)

/-- Two to the negative fraction of `p`. -/
def antilogarithm (p : Int) : Int :=
  between gglAlogApproxTab (p % 0x10000 / 0x2000).toNat (p % 0x2000 * 8)

def gglFixedToIntFloor (f : Int) : Int := f >>> (16 : Nat)

def gglPowx (x y : Int) : Int :=
  let exp : Int := clz32 x - 16
  let f := wrap32 (x * 2 ^ (exp % 32).toNat)
  let p := gglMulAddx (logarithm f) y (y * exp) 16
  let exp := gglFixedToIntFloor p
  if exp < 31 then antilogarithm p >>> (exp % 32).toNat else 0

/-- The direction from the vertex to the light, and the square of the distance. -/
def toLight (l : Light) (obj : Vec4) : Vec4 × Int :=
  if l.position.w ≠ 0 then
    let d := vss3 zero l.objPosition obj.w obj
    let sqDist := dot3 d d
    (vscale3 d d (gglSqrtRecipx sqDist), sqDist)
  else (l.normalizedObjPosition, 0x10000)

/-- What faces away from the light counts with the sign changed, or not at all. -/
def facing (s : State) (k : Int) : Int := if k < 0 then (if s.twoSide then -k else 0) else k

def shade (s : State) (l : Light) (n d : Vec4) : Vec4 :=
  let k := facing s (dot3 n d)
  let t := vsa3 zero l.implicitDiffuse k l.implicitAmbient
  if k ≠ 0 ∧ l.implicitSpecular.w ≠ 0 then
    let h : Vec4 := { zero with
      x := d.x + s.objViewer.x, y := d.y + s.objViewer.y, z := d.z + s.objViewer.z }
    let k := facing s (dot3 n (vnorm3 h h))
    if k > 0 then vsa3 t l.implicitSpecular (gglPowx k s.front.shininess) t else t
  else t

/-- The cosine of the angle between the spot's axis and the way to the vertex. -/
def spotAtt (l : Light) (d : Vec4) : Int := wrap32 (-dot3 l.normalizedSpotDir d)

def spotFactor (l : Light) (d : Vec4) : List Int :=
  if l.spotCutoff ≠ 180 * 0x10000 then
    if spotAtt l d ≥ l.spotCutoffCosine then [gglPowx (spotAtt l d) l.spotExp] else []
  else []

def distanceFactor (l : Light) (sqDist : Int) : List Int :=
  if l.position.w ≠ 0 then
    if l.rConstAttenuation ≠ 0 then [l.rConstAttenuation]
    else
      let s := gglMulAddx sqDist (l.attenuation 2) (l.attenuation 0) 16
      let s := if l.attenuation 1 ≠ 0 then gglMulAddx (gglSqrtx sqDist) (l.attenuation 1) s 16
        else s
      [gglRecipFast s]
  else []

def attenuate (t : Vec4) (factors : List Int) : Vec4 := factors.foldl (fun t s => vscale3 t t s) t

def contribution (s : State) (l : Light) (n obj : Vec4) : Vec4 :=
  let (d, sqDist) := toLight l obj
  attenuate (shade s l n d) (spotFactor l d ++ distanceFactor l sqDist)

def add3 (r t : Vec4) : Vec4 := { r with x := r.x + t.x, y := r.y + t.y, z := r.z + t.z }

def enabled (s : State) : List (Fin 8) :=
  (List.finRange 8).reverse.filter fun i => s.enabledLights i

def clampColor (r : Vec4) : Vec4 := ⟨gglClampx r.x, gglClampx r.y, gglClampx r.z, gglClampx r.w⟩

/-- `lightVertex`, with the normal as it was transformed; the result is the colour. -/
def lightVertex (s : State) (n obj : Vec4) : Vec4 :=
  clampColor ((enabled s).foldl (fun r i => add3 r (contribution s (s.lights i) n obj))
    s.implicitSceneEmissionAndAmbient)

def recolour (l : Light) (ambient diffuse specular : Vec4) : Light :=
  { l with
    implicitAmbient := ambient, implicitDiffuse := diffuse, implicitSpecular := specular }

def Dark (t : Vec4) : Prop := t.x = 0 ∧ t.y = 0 ∧ t.z = 0

variable (cosine : Int → Int)

/-- The vertex is outside the cone as the light measures it: its cosine with the stored direction is
smaller than that of the cutoff. -/
def Outside (l : Light) (obj : Vec4) : Prop :=
  spotAtt l (toLight l obj).1 < cosine l.spotCutoff

private theorem add3_dark {t : Vec4} (dark : Dark t) (r : Vec4) : add3 r t = r := by
  obtain ⟨x, y, z⟩ := dark
  simp only [add3, x, y, z, add_zero]

private theorem foldl_filter {f : Vec4 → Fin 8 → Vec4} {q : Fin 8 → Bool}
    (skip : ∀ r j, q j = false → f r j = r) (js : List (Fin 8)) (r : Vec4) :
    (js.filter q).foldl f r = js.foldl f r := by
  induction js generalizing r with
  | nil => rfl
  | cons j js ih =>
    cases kept : q j with
    | true => simpa [kept] using ih (f r j)
    | false => simpa [kept, skip r j kept] using ih r

variable {s : State} {obj : Vec4} {l l' : Light}

theorem lightVertex_dark {i : Fin 8} {n : Vec4} (dark : Dark (contribution s (s.lights i) n obj)) :
    lightVertex { s with enabledLights := Function.update s.enabledLights i false } n obj =
      lightVertex s n obj := by
  have others : enabled { s with enabledLights := Function.update s.enabledLights i false } =
      (enabled s).filter fun j => j ≠ i := by
    unfold enabled
    rw [List.filter_filter]
    refine List.filter_congr fun j _ => ?_
    by_cases same : j = i
    · subst same
      simp
    · simp [same]
  have sum := foldl_filter (q := fun j => j ≠ i)
    (f := fun r j => add3 r (contribution s (s.lights j) n obj))
    (fun r j skipped => by
      obtain rfl : j = i := by simpa using skipped
      exact add3_dark dark r) (enabled s) s.implicitSceneEmissionAndAmbient
  rw [← others] at sum
  exact congrArg clampColor sum

/-- What the calls keep of a light: the cosine is that of the cutoff, the exponent was accepted, and
the constant attenuation has 32 bits. -/
structure Stored (l : Light) : Prop where
  cutoff : l.spotCutoff ≠ 180 * 0x10000 → l.spotCutoffCosine = cosine l.spotCutoff
  exponent : l.spotExp < 128 * 0x10000
  word : wrap32 l.rConstAttenuation = l.rConstAttenuation

def AllStored (s : State) : Prop := ∀ i, Stored cosine (s.lights i)

variable {cosine}

theorem Stored.congr (stored : Stored cosine l) (cutoff : l'.spotCutoff = l.spotCutoff)
    (cos : l'.spotCutoffCosine = l.spotCutoffCosine) (exponent : l'.spotExp = l.spotExp)
    (word : wrap32 l'.rConstAttenuation = l'.rConstAttenuation) : Stored cosine l' := by
  refine ⟨?_, ?_, word⟩
  · rw [cutoff, cos]
    exact stored.cutoff
  · rw [exponent]
    exact stored.exponent

theorem AllStored.congr {s' : State} (stored : AllStored cosine s) (lights : s'.lights = s.lights) :
    AllStored cosine s' := by
  intro i
  rw [lights]
  exact stored i

theorem constantAttenuation_word (l : Light) :
    wrap32 (constantAttenuation l) = constantAttenuation l := by
  unfold constantAttenuation
  split
  · exact wrap32_wrap32 _
  · rfl

theorem stored_init : AllStored cosine init := by
  intro i
  have exponent : (0 : Int) < 128 * 0x10000 := by decide
  exact ⟨fun spot => absurd rfl spot, exponent, rfl⟩

theorem stored_lightPicker (stored : AllStored cosine (validateLight s)) :
    AllStored cosine (lightPicker (validateLight s)) := by
  unfold lightPicker
  split_ifs <;> exact stored

theorem stored_validateLight (stored : AllStored cosine s) :
    AllStored cosine (validateLight s) := by
  intro i
  rw [Coherence.validateLight_lights]
  split_ifs
  · exact (stored i).congr rfl rfl rfl (stored i).word
  · exact (stored i).congr rfl rfl rfl (constantAttenuation_word _)
  · exact stored i

theorem stored_acquireMaterial (stored : AllStored cosine s) (color : Vec4) :
    AllStored cosine (acquireMaterial s color) := by
  intro i
  rw [Coherence.acquireMaterial_lights]
  split_ifs
  · exact (stored i).congr rfl rfl rfl (stored i).word
  · exact stored i

theorem stored_lightOne (stored : AllStored cosine s) (color : Vec4) :
    AllStored cosine (lightOne s color) := by
  have validated := stored_lightPicker (stored_validateLight stored)
  unfold lightOne
  cases picked : s.lightVertex with
  | validate =>
    dsimp only
    split
    · exact stored_acquireMaterial validated color
    · exact validated
  | nop => simpa [picked] using stored
  | plain => simpa [picked] using stored
  | material => simpa [picked] using stored_acquireMaterial stored color

theorem stored_lightParameter (stored : Stored cosine l) {pname : GLenum} {param : Int}
    (accepted : lightParameter cosine l pname param = .ok l') : Stored cosine l' := by
  unfold lightParameter at accepted
  split_ifs at accepted with exponent large cutoff _ constant _ linear _ quadratic
  all_goals obtain rfl := Except.ok.inj accepted
  · exact ⟨stored.cutoff, by simpa using large, stored.word⟩
  · exact ⟨fun _ => rfl, stored.exponent, stored.word⟩
  all_goals exact stored.congr rfl rfl rfl stored.word

theorem stored_lightVector {modelview : Transform} (stored : Stored cosine l) {pname : GLenum}
    {params : Vec4} (accepted : lightVector cosine modelview l pname params = .ok l') :
    Stored cosine l' := by
  unfold lightVector at accepted
  split_ifs at accepted
  all_goals first
    | exact stored_lightParameter stored accepted
    | obtain rfl := Except.ok.inj accepted
      exact stored.congr rfl rfl rfl stored.word

theorem stored_changeLight (stored : AllStored cosine s) (light : Option (Fin 8))
    {change : Light → Except GLenum Light}
    (keeps : ∀ l l', Stored cosine l → change l = .ok l' → Stored cosine l') :
    AllStored cosine (changeLight s light change) := by
  cases light with
  | none => exact stored
  | some n =>
    simp only [changeLight]
    cases changed : change (s.lights n) with
    | error error => exact stored
    | ok l =>
      intro i
      change Stored cosine (Function.update s.lights n l i)
      rw [Function.update_apply]
      split_ifs
      · exact keeps _ _ (stored n) changed
      · exact stored i

theorem switchCap_lights (s : State) (light : Option (Fin 8)) (cap : GLenum) (enabled : Bool) :
    (switchCap s light cap enabled).lights = s.lights := by
  cases light with
  | some i => rfl
  | none =>
    simp only [switchCap]
    split_ifs <;> rfl

theorem stored_step (t : Tracked) (op : Op) (stored : AllStored cosine t.state) :
    AllStored cosine (step cosine t op).state := by
  cases op with
  | enableDisable cap enabled =>
    simp only [step, enableDisable]
    exact stored.congr (switchCap_lights t.state _ cap enabled)
  | lightModelx pname param =>
    refine stored.congr ?_
    simp only [step, lightModelx]
    split_ifs <;> rfl
  | lightModelxv pname params =>
    refine stored.congr ?_
    simp only [step, glLightModelxv, lightModelx]
    split_ifs <;> rfl
  | lightx i pname param =>
    simp only [step, lightx]
    exact stored_changeLight stored _ fun _ _ before => stored_lightParameter before
  | lightxv i pname params modelview =>
    simp only [step, lightxv]
    exact stored_changeLight stored _ fun _ _ before => stored_lightVector before
  | materialx face pname param =>
    refine stored.congr ?_
    simp only [step, materialx]
    split_ifs <;> rfl
  | materialv face pname params shininess =>
    refine stored.congr ?_
    simp only [step, materialv]
    split_ifs <;> rfl
  | draw normals colors =>
    have lit {s : State} (before : AllStored cosine s) :
        AllStored cosine (colors.foldl lightOne s) :=
      run_keeps (AllStored cosine) (fun _ color kept => stored_lightOne kept color) colors before
    rw [Coherence.step_draw_state, draw]
    split_ifs
    · exact lit (stored.congr rfl)
    · exact lit stored
    · exact stored

theorem stored_run (ops : List Op) : AllStored cosine (run (step cosine) start ops).state :=
  run_keeps (fun t : Tracked => AllStored cosine t.state) stored_step ops stored_init

private theorem wrap32_shift_ne_zero {v : Int} {k : Nat} (low : 2 ^ k ≤ v) (high : v < 2 ^ 32) :
    wrap32 (v >>> k) ≠ 0 := by
  have positive : (0 : Int) < 2 ^ k := Int.pow_pos (by omega)
  have some : 1 ≤ v / 2 ^ k := (Int.le_ediv_iff_mul_le positive).mpr (by omega)
  have most : v / 2 ^ k ≤ v := Int.ediv_le_self _ (by omega)
  rw [Int.shiftRight_eq_div_pow]
  push_cast
  unfold wrap32
  rw [Int.bmod_def]
  split <;> omega

private theorem leading_bounds {n : Nat} (positive : n ≠ 0) (fits : n < 2 ^ 31) :
    1 ≤ gglClz n ∧ gglClz n ≤ 31 ∧ 2 ^ 30 ≤ n * 2 ^ (gglClz n - 1) ∧
      n * 2 ^ (gglClz n - 1) < 2 ^ 31 := by
  have digits : n.log2 < 31 := (Nat.log2_lt positive).mpr fits
  have leading : gglClz n = 31 - n.log2 := by
    unfold gglClz
    rw [if_neg positive]
  have lower : 2 ^ 30 = 2 ^ n.log2 * 2 ^ (gglClz n - 1) := by
    rw [← pow_add]
    congr 1
    omega
  have upper : 2 ^ 31 = 2 ^ (n.log2 + 1) * 2 ^ (gglClz n - 1) := by
    rw [← pow_add]
    congr 1
    omega
  refine ⟨by omega, by omega, ?_, ?_⟩
  · rw [lower]
    exact Nat.mul_le_mul_right _ (Nat.log2_self_le positive)
  · rw [upper]
    exact Nat.mul_lt_mul_of_pos_right Nat.lt_log2_self (Nat.two_pow_pos _)

theorem gglRecipFast_ne_zero (x : Int) : gglRecipFast x ≠ 0 := by
  unfold gglRecipFast
  dsimp only
  by_cases word : 0 < x ∧ x < 2 ^ 31
  · obtain ⟨n, rfl⟩ := Int.eq_ofNat_of_zero_le (show 0 ≤ x by omega)
    have bounds := leading_bounds (n := n) (by omega) (by omega)
    have leading : clz32 n = gglClz n := by
      unfold clz32
      rw [if_neg (by omega), Int.toNat_natCast]
    have count : (gglClz n + 31) % 32 = gglClz n - 1 := by omega
    obtain ⟨m, moved⟩ : ∃ m : Nat, m = n * 2 ^ (gglClz n - 1) := ⟨_, rfl⟩
    have shifted : (n : Int) <<< (gglClz n - 1) = m := by
      rw [Int.shiftLeft_eq, moved]
      push_cast
      rfl
    rw [leading, count, shifted]
    rw [← moved] at bounds
    apply wrap32_shift_ne_zero
    · by_cases least : gglClz n = 31
      · have one : m = 2 ^ 30 := by
          rw [least] at moved
          omega
        rw [least, one]
        decide
      · have exponent : (2 : Int) ^ ((62 - gglClz n) % 32) ≤ 2 ^ 29 :=
          pow_le_pow_right₀ (by omega) (by omega)
        omega
    · omega
  · have leading : clz32 x = 0 ∨ clz32 x = 32 := by
      unfold clz32 gglClz
      split
      next negative => exact .inl rfl
      next nonneg =>
        split
        next zero => exact .inr rfl
        next large =>
          have digits : ¬x.toNat.log2 < 31 := by
            rw [Nat.log2_lt large]
            omega
          exact .inl (by omega)
    have counts : (clz32 x + 31) % 32 = 31 ∧ (62 - clz32 x) % 32 = 30 := by omega
    rw [counts.1, counts.2, Int.shiftLeft_eq]
    apply wrap32_shift_ne_zero <;> push_cast <;> omega

theorem attenuate_distance (word : wrap32 l.rConstAttenuation = l.rConstAttenuation) (sqDist : Int)
    {t : Vec4} (one : t.x = 0x10000) : (attenuate t (distanceFactor l sqDist)).x ≠ 0 := by
  unfold distanceFactor
  by_cases positional : l.position.w ≠ 0
  · rw [if_pos positional]
    by_cases constant : l.rConstAttenuation ≠ 0
    · rw [if_pos constant]
      change gglMulx t.x l.rConstAttenuation 16 ≠ 0
      rw [one, gglMulx_one, word]
      exact constant
    · rw [if_neg constant]
      dsimp only
      generalize (if l.attenuation 1 ≠ 0 then _ else _) = s
      change gglMulx t.x (gglRecipFast s) 16 ≠ 0
      rw [one, gglMulx_one]
      have kept : wrap32 (gglRecipFast s) = gglRecipFast s := wrap32_wrap32 _
      rw [kept]
      exact gglRecipFast_ne_zero s
  · rw [if_neg positional]
    change t.x ≠ 0
    rw [one]
    decide

theorem shade_ambient (s : State) (l : Light) (n d : Vec4) :
    (shade s (recolour l white zero zero) n d).x = 0x10000 := by
  have plain (k : Int) : (vsa3 zero zero k white).x = 0x10000 := by
    have none : wrap32 ((0 * k) >>> (16 : Nat)) = 0 := by
      rw [zero_mul]
      rfl
    exact congrArg (· + (0x10000 : Int)) none
  have matte : ¬(facing s (dot3 n d) ≠ 0 ∧
      (recolour l white zero zero).implicitSpecular.w ≠ 0) := fun specular => specular.2 rfl
  exact (congrArg Vec4.x (if_neg matte)).trans (plain _)

theorem spotFactor_outside
    (stored : l.spotCutoff ≠ 180 * 0x10000 → l.spotCutoffCosine = cosine l.spotCutoff)
    (spot : l.spotCutoff ≠ 180 * 0x10000) (outside : Outside cosine l obj) :
    spotFactor l (toLight l obj).1 = [] := by
  unfold Outside at outside
  unfold spotFactor
  rw [if_pos spot, stored spot, if_neg (by omega)]

/-- A white light reaches every vertex outside its cone. -/
theorem lit_outside (stored : Stored cosine l) (spot : l.spotCutoff ≠ 180 * 0x10000)
    (outside : Outside cosine l obj) (s : State) (n : Vec4) :
    ¬Dark (contribution s (recolour l white zero zero) n obj) := by
  intro dark
  have factors : spotFactor (recolour l white zero zero) (toLight l obj).1 = [] :=
    spotFactor_outside stored.cutoff spot outside
  have scaled : contribution s (recolour l white zero zero) n obj =
      attenuate (shade s (recolour l white zero zero) n (toLight l obj).1)
        (spotFactor (recolour l white zero zero) (toLight l obj).1 ++
          distanceFactor l (toLight l obj).2) := rfl
  rw [scaled, factors] at dark
  exact attenuate_distance stored.word _ (shade_ambient s l n _) dark.1

/-- After any calls, while any vertex is lit. -/
theorem lit_outside_run (ops : List Op) (color : Vec4) (i : Fin 8) (n obj : Vec4)
    (spot : ((lightOne (run (step cosine) start ops).state color).lights i).spotCutoff ≠
      180 * 0x10000)
    (outside : Outside cosine ((lightOne (run (step cosine) start ops).state color).lights i) obj) :
    let s := lightOne (run (step cosine) start ops).state color
    ¬Dark (contribution s (recolour (s.lights i) white zero zero) n obj) :=
  lit_outside (stored_lightOne (stored_run ops) color i) spot outside _ n

end RabbitRender.Lighting.SpotLights
