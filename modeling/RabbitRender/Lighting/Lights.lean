/- RabbitRender/Lighting/Lights
   layer: model
   source: swrender/light.cpp, swrender/state.cpp
   digest: Lights, materials, and the values derived from them for the lighting of a vertex. -/

import Mathlib.Logic.Function.Basic
import Mathlib.Tactic.Common
import RabbitRender.Arrays.Compile

set_option autoImplicit false

namespace RabbitRender.Lighting.Lights

open Fixed
open RabbitRender.GL (GLenum)
open RabbitRender.Matrix.Transforms (Transform)
open Vertices (Vec4)

-- The fourth component of the destination `d` is not written.
def vscale3 (d m : Vec4) (s : Int) : Vec4 :=
  { d with x := gglMulx m.x s 16, y := gglMulx m.y s 16, z := gglMulx m.z s 16 }

def vmul3 (d m0 m1 : Vec4) : Vec4 :=
  { d with x := gglMulx m0.x m1.x 16, y := gglMulx m0.y m1.y 16, z := gglMulx m0.z m1.z 16 }

def vmla3 (d m0 m1 a : Vec4) : Vec4 :=
  { d with
    x := gglMulAddx m0.x m1.x a.x 16
    y := gglMulAddx m0.y m1.y a.y 16
    z := gglMulAddx m0.z m1.z a.z 16 }

def vss3 (d m : Vec4) (s : Int) (a : Vec4) : Vec4 :=
  { d with
    x := gglMulSubx m.x s a.x 16
    y := gglMulSubx m.y s a.y 16
    z := gglMulSubx m.z s a.z 16 }

def vsquare3 (a b c : Int) : Int := wrap32 ((a * a + b * b + c * c + 0x8000) >>> (16 : Nat))

def vnorm3 (d a : Vec4) : Vec4 :=
  let x : Int := a.x.natAbs
  let y : Int := a.y.natAbs
  let z : Int := a.z.natAbs
  let n := if x ≤ 0x6800 ∧ y ≤ 0x6800 ∧ z ≤ 0x6800 then
      wrap32 (gglSqrtRecipx (x * x + y * y + z * z) <<< (8 : Nat))
    else gglSqrtRecipx (vsquare3 x y z)
  vscale3 d a n

/-- `light_t`; `enable` is the light's bit of `enabledLights`. -/
structure Light where
  ambient : Vec4
  diffuse : Vec4
  specular : Vec4
  implicitAmbient : Vec4
  implicitDiffuse : Vec4
  implicitSpecular : Vec4
  position : Vec4
  objPosition : Vec4
  normalizedObjPosition : Vec4
  spotDir : Vec4
  normalizedSpotDir : Vec4
  spotExp : Int
  spotCutoff : Int
  spotCutoffCosine : Int
  attenuation : Fin 3 → Int
  rConstAttenuation : Int

/-- `material_t` -/
structure Material where
  ambient : Vec4
  diffuse : Vec4
  specular : Vec4
  emission : Vec4
  shininess : Int

/-- What `lighting.lightVertex` points to. -/
inductive LightVertex where
  | validate
  | nop
  | plain
  | material
deriving DecidableEq, Repr

/-- `lighting_t` -/
structure State where
  lights : Fin 8 → Light
  front : Material
  lightModelAmbient : Vec4
  twoSide : Bool
  colorMaterial : Bool
  implicitSceneEmissionAndAmbient : Vec4
  objViewer : Vec4
  enabledLights : Fin 8 → Bool
  enable : Bool
  lightVertex : LightVertex
  error : GLenum

def zero : Vec4 := ⟨0, 0, 0, 0⟩

def black : Vec4 := ⟨0, 0, 0, 0x10000⟩

def white : Vec4 := ⟨0x10000, 0x10000, 0x10000, 0x10000⟩

def grey (v : Int) : Vec4 := ⟨v, v, v, 0x10000⟩

/-- A light after `ogles_init_light`; only the first one has colours. -/
def Light.init (color : Vec4) : Light where
  ambient := black
  diffuse := color
  specular := color
  implicitAmbient := zero
  implicitDiffuse := zero
  implicitSpecular := zero
  position := ⟨0, 0, 0x10000, 0⟩
  objPosition := zero
  normalizedObjPosition := zero
  spotDir := ⟨0, 0, -0x10000, 0⟩
  normalizedSpotDir := zero
  spotExp := 0
  spotCutoff := 180 * 0x10000
  spotCutoffCosine := 0
  attenuation := fun i => if i = 0 then 0x10000 else 0
  rConstAttenuation := 0

/-- `ogles_init_light`, in a context that has been cleared. -/
def init : State where
  lights := fun i => .init (if i = 0 then white else zero)
  front := ⟨grey 13107, grey 52429, black, black, 0⟩
  lightModelAmbient := grey 13107
  twoSide := false
  colorMaterial := false
  implicitSceneEmissionAndAmbient := zero
  objViewer := zero
  enabledLights := fun _ => false
  enable := false
  lightVertex := .validate
  error := GL.noError

def oglesError (s : State) (error : GLenum) : State :=
  { s with error := GL.firstError s.error error }

def setLight (s : State) (i : Fin 8) (l : Light) : State :=
  { s with lights := Function.update s.lights i l }

/-- The products with the material, and the flag that tells if there is a specular component. -/
def implicitProducts (material : Material) (l : Light) : Light :=
  let specular := vmul3 l.implicitSpecular material.specular l.specular
  { l with
    implicitAmbient := vmul3 l.implicitAmbient material.ambient l.ambient
    implicitDiffuse := vmul3 l.implicitDiffuse material.diffuse l.diffuse
    implicitSpecular := { specular with
      w := (BitVec.ofInt 32 specular.x ||| BitVec.ofInt 32 specular.y |||
        BitVec.ofInt 32 specular.z).toInt } }

/-- What `rConstAttenuation` is set to. -/
def constantAttenuation (l : Light) : Int :=
  if BitVec.ofInt 32 (l.attenuation 1) ||| BitVec.ofInt 32 (l.attenuation 2) = 0 then
    gglRecipFast (l.attenuation 0)
  else 0

def sceneEmissionAndAmbient (s : State) : Vec4 :=
  { vmla3 s.implicitSceneEmissionAndAmbient s.lightModelAmbient s.front.ambient s.front.emission with
    w := s.front.diffuse.w }

def eyePosition (l : Light) : Light :=
  { l with
    objPosition := l.position
    normalizedObjPosition := vnorm3 l.normalizedObjPosition l.position }

def eyeViewer : Vec4 := ⟨0, 0, 0x10000, 0⟩

def forEnabled (s : State) (f : Light → Light) : State :=
  { s with lights := fun i => if s.enabledLights i then f (s.lights i) else s.lights i }

def lightPicker (s : State) : State :=
  if !s.enable then { s with lightVertex := .nop }
  else if s.colorMaterial then { s with lightVertex := .material }
  else { s with lightVertex := .plain }

def validateLightMvi (s : State) : State :=
  { forEnabled s eyePosition with objViewer := eyeViewer }

def validateLight (s : State) : State :=
  let s := if !s.colorMaterial then
      let s := forEnabled s fun l =>
        { implicitProducts s.front l with rConstAttenuation := constantAttenuation l }
      { s with implicitSceneEmissionAndAmbient := sceneEmissionAndAmbient s }
    else s
  validateLightMvi s

def invalidateLighting (s : State) : State := { s with lightVertex := .validate }

/-- What `lightVertexMaterial` does before it lights the vertex: the colour of the vertex becomes
the material. -/
def acquireMaterial (s : State) (color : Vec4) : State :=
  let s := { s with front := { s.front with ambient := color, diffuse := color } }
  let s := forEnabled s (implicitProducts s.front)
  { s with implicitSceneEmissionAndAmbient := sceneEmissionAndAmbient s }

/-- The state in which the lighting equation of a vertex of that colour is evaluated, after
`lighting.lightVertex` is called. -/
def lightOne (s : State) (color : Vec4) : State :=
  let s := match s.lightVertex with
    | .validate => lightPicker (validateLight s)
    | _ => s
  match s.lightVertex with
  | .material => acquireMaterial s color
  | _ => s

/-- The light a `GL_LIGHTi` names. -/
def lightIndex (i : GLenum) : Option (Fin 8) :=
  if light : i - GL.light0 < 8 ∧ GL.light0 ≤ i then some ⟨i - GL.light0, light.1⟩ else none

/-- `enable_disable`, of a light or of another capability; capabilities that are no part of the
lighting state leave it alone. -/
def switchCap (s : State) (light : Option (Fin 8)) (cap : GLenum) (enabled : Bool) : State :=
  match light with
  | some i => { s with enabledLights := Function.update s.enabledLights i enabled }
  | none =>
    if cap = GL.lighting then { s with enable := enabled }
    else if cap = GL.colorMaterial then { s with colorMaterial := enabled }
    else s

def enableDisable (s : State) (cap : GLenum) (enabled : Bool) : State :=
  switchCap s (lightIndex cap) cap enabled

def lightModelx (s : State) (pname : GLenum) (param : Int) : State :=
  if pname ≠ GL.lightModelTwoSide then oglesError s GL.invalidEnum
  else invalidateLighting { s with twoSide := param ≠ 0 }

def glLightModelxv (s : State) (pname : GLenum) (params : Vec4) : State :=
  if pname = GL.lightModelTwoSide then lightModelx s pname params.x
  else if pname ≠ GL.lightModelAmbient then oglesError s GL.invalidEnum
  else invalidateLighting { s with lightModelAmbient := params }

/-- One parameter of a light, or the error; `cosine` is the fixed-point cosine of an angle. -/
def lightParameter (cosine : Int → Int) (l : Light) (pname : GLenum) (param : Int) :
    Except GLenum Light :=
  if pname = GL.spotExponent then
    if param ≥ 128 * 0x10000 then .error GL.invalidValue else .ok { l with spotExp := param }
  else if pname = GL.spotCutoff then
    if param ≠ 180 * 0x10000 ∧ param ≥ 90 * 0x10000 then .error GL.invalidValue
    else .ok { l with spotCutoff := param, spotCutoffCosine := cosine param }
  else if pname = GL.constantAttenuation then
    if param < 0 then .error GL.invalidValue
    else .ok { l with attenuation := Function.update l.attenuation 0 param }
  else if pname = GL.linearAttenuation then
    if param < 0 then .error GL.invalidValue
    else .ok { l with attenuation := Function.update l.attenuation 1 param }
  else if pname = GL.quadraticAttenuation then
    if param < 0 then .error GL.invalidValue
    else .ok { l with attenuation := Function.update l.attenuation 2 param }
  else .error GL.invalidEnum

/-- The parameters of four values; `modelview` is the current transform. -/
def lightVector (cosine : Int → Int) (modelview : Transform) (l : Light) (pname : GLenum)
    (params : Vec4) : Except GLenum Light :=
  if pname = GL.ambient then .ok { l with ambient := params }
  else if pname = GL.diffuse then .ok { l with diffuse := params }
  else if pname = GL.specular then .ok { l with specular := params }
  else if pname = GL.position then
    .ok { l with position := Arrays.Compile.point modelview .four params }
  else if pname = GL.spotDirection then
    .ok { l with spotDir := params, normalizedSpotDir := vnorm3 l.normalizedSpotDir params }
  else lightParameter cosine l pname params.x

/-- What `lightx` and `lightxv` share. -/
def changeLight (s : State) (light : Option (Fin 8)) (change : Light → Except GLenum Light) :
    State :=
  match light with
  | none => oglesError s GL.invalidEnum
  | some n =>
    match change (s.lights n) with
    | .error error => oglesError s error
    | .ok l => invalidateLighting (setLight s n l)

def lightx (cosine : Int → Int) (s : State) (i pname : GLenum) (param : Int) : State :=
  changeLight s (lightIndex i) fun l => lightParameter cosine l pname param

def lightxv (cosine : Int → Int) (modelview : Transform) (s : State) (i pname : GLenum)
    (params : Vec4) : State :=
  changeLight s (lightIndex i) fun l => lightVector cosine modelview l pname params

def materialx (s : State) (face pname : GLenum) (param : Int) : State :=
  if face ≠ GL.frontAndBack then oglesError s GL.invalidEnum
  else if pname ≠ GL.shininess then oglesError s GL.invalidEnum
  else invalidateLighting { s with front := { s.front with shininess := param } }

/-- `glMaterialfv` and `glMaterialxv`; `shininess` is the first value as they convert it. -/
def materialv (s : State) (face pname : GLenum) (params : Vec4) (shininess : Int) : State :=
  if face ≠ GL.frontAndBack then oglesError s GL.invalidEnum
  else
    let change (m : Material) := invalidateLighting { s with front := m }
    if pname = GL.ambient then change { s.front with ambient := params }
    else if pname = GL.diffuse then change { s.front with diffuse := params }
    else if pname = GL.specular then change { s.front with specular := params }
    else if pname = GL.emission then change { s.front with emission := params }
    else if pname = GL.ambientAndDiffuse then
      change { s.front with ambient := params, diffuse := params }
    else if pname = GL.shininess then change { s.front with shininess := shininess }
    else oglesError s GL.invalidEnum

/-- The vertices of a draw call are lit only while lighting is enabled. `normals` tells that the
inverse of the modelview matrix is computed anew for the call. -/
def draw (s : State) (normals : Bool) (colors : List Vec4) : State :=
  if s.enable then colors.foldl lightOne (if normals then invalidateLighting s else s) else s

end RabbitRender.Lighting.Lights
