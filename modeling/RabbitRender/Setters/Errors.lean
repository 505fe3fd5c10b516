/- RabbitRender/Setters/Errors
   layer: proof
   source: swrender/state.cpp, swrender/light.cpp, swrender/array.cpp, swrender/texture.cpp,
     swrender/vertex.cpp, swrender/matrix.cpp
   digest: A call that records an error changes nothing else, except for a face mode that is invalid. -/

import RabbitRender.Matrix.Coherence
import RabbitRender.Setters.Singles

set_option autoImplicit false

namespace RabbitRender.Setters.Errors

open RabbitRender.GL (GLenum)
open Lighting RabbitRender.Matrix Pixelflinger Setters.Calls
open Vertices (Vec4)

variable {F : Type}

def withErrors (c : Context F) (error ggl : GLenum) : Context F :=
  { c with error := error, rasterizer := { c.rasterizer with error := ggl } }

def Records (c : Context F) (f : Context F → Context F) : Prop :=
  (f (withErrors c GL.noError GL.noError)).error ≠ GL.noError ∨
    (f (withErrors c GL.noError GL.noError)).rasterizer.error ≠ GL.noError

def SameState (c d : Context F) : Prop := withErrors d c.error c.rasterizer.error = c

inductive Fault where
  | context (error : GLenum)
  | rasterizer (error : GLenum)

def Fault.error : Fault → GLenum
  | .context error => error
  | .rasterizer error => error

def record (c : Context F) : Fault → Context F
  | .context error => oglesError c error
  | .rasterizer error => onRasterizer c (State.gglError · error)

def Accepted (c : Context F) (f : Context F → Context F) : Prop :=
  ∃ d, ∀ error ggl, f (withErrors c error ggl) = withErrors d error ggl

def Rejected (c : Context F) (f : Context F → Context F) : Prop :=
  ∃ fault : Fault, fault.error ≠ GL.noError ∧
    ∀ error ggl, f (withErrors c error ggl) = record (withErrors c error ggl) fault

def Settled (c : Context F) (f : Context F → Context F) : Prop := Accepted c f ∨ Rejected c f

theorem withErrors_self (c : Context F) : withErrors c c.error c.rasterizer.error = c := rfl

theorem not_records_of_accepted {c : Context F} {f : Context F → Context F} (h : Accepted c f) :
    ¬Records c f := by
  obtain ⟨d, done⟩ := h
  unfold Records
  rw [done]
  rintro (error | error)
  · exact error rfl
  · exact error rfl

theorem sameState_of_rejected {c : Context F} {f : Context F → Context F} (h : Rejected c f) :
    SameState c (f c) := by
  obtain ⟨fault, _, recorded⟩ := h
  have here := recorded c.error c.rasterizer.error
  rw [withErrors_self] at here
  unfold SameState
  rw [here]
  cases fault with
  | context error => rfl
  | rasterizer error => rfl

theorem sameState_of_settled {c : Context F} {f : Context F → Context F} (h : Settled c f)
    (records : Records c f) : SameState c (f c) := by
  rcases h with accepted | rejected
  · exact absurd records (not_records_of_accepted accepted)
  · exact sameState_of_rejected rejected

theorem rejected_oglesError {c : Context F} {error : GLenum} (nonzero : error ≠ GL.noError) :
    Settled c (oglesError · error) :=
  .inr ⟨.context error, nonzero, fun _ _ => rfl⟩

variable {p : Prop} {f : Lights.State → Lights.State} {fault pname : GLenum} {l : Lights.Light}

theorem settled_ite {c : Context F} [Decidable p] {f g : Context F → Context F} (hf : Settled c f)
    (hg : Settled c g) : Settled c fun c => if p then f c else g c := by
  by_cases h : p
  · simpa only [if_pos h] using hf
  · simpa only [if_neg h] using hg

theorem settled_accept {c d : Context F} {f : Context F → Context F}
    (h : ∀ error ggl, f (withErrors c error ggl) = withErrors d error ggl) : Settled c f :=
  .inl ⟨d, h⟩

def Lit (s : Lights.State) (f : Lights.State → Lights.State) : Prop :=
  (∃ t : Lights.State, ∀ error, f { s with error := error } = { t with error := error }) ∨
    ∃ fault, fault ≠ GL.noError ∧
      ∀ error, f { s with error := error } = Lights.oglesError { s with error := error } fault

theorem onLighting_withErrors (c : Context F) (f : Lights.State → Lights.State)
    (error ggl : GLenum) : onLighting (withErrors c error ggl) f =
      withErrors
        { c with
          lighting := { f { c.lighting with error := error } with error := c.lighting.error } }
        (f { c.lighting with error := error }).error ggl := rfl

theorem accepted_onLighting {c : Context F}
    (h : ∃ t : Lights.State, ∀ error, f { c.lighting with error := error } =
      { t with error := error }) : Accepted c (onLighting · f) := by
  obtain ⟨t, done⟩ := h
  refine ⟨{ c with lighting := { t with error := c.lighting.error } }, fun error ggl => ?_⟩
  dsimp only
  rw [onLighting_withErrors, done]

theorem settled_onLighting {c : Context F} (h : Lit c.lighting f) : Settled c (onLighting · f) := by
  rcases h with accepts | ⟨fault, nonzero, recorded⟩
  · exact .inl (accepted_onLighting accepts)
  · refine .inr ⟨.context fault, nonzero, fun error ggl => ?_⟩
    dsimp only
    rw [onLighting_withErrors, recorded]
    rfl

theorem lit_ite {s : Lights.State} [Decidable p] {g : Lights.State → Lights.State} (hf : Lit s f)
    (hg : Lit s g) : Lit s fun s => if p then f s else g s := by
  by_cases h : p
  · simpa only [if_pos h] using hf
  · simpa only [if_neg h] using hg

theorem lit_error (s : Lights.State) (nonzero : fault ≠ GL.noError) :
    Lit s (Lights.oglesError · fault) :=
  .inr ⟨fault, nonzero, fun _ => rfl⟩

theorem lit_lightModelx (s : Lights.State) (pname : GLenum) (param : Int) :
    Lit s (Lights.lightModelx · pname param) :=
  lit_ite (lit_error s (by decide))
    (.inl ⟨Lights.invalidateLighting { s with twoSide := param ≠ 0 }, fun _ => rfl⟩)

theorem lit_lightModelxv (s : Lights.State) (pname : GLenum) (params : Vec4) :
    Lit s (Lights.glLightModelxv · pname params) :=
  lit_ite (lit_lightModelx s pname params.x) (lit_ite (lit_error s (by decide))
    (.inl ⟨Lights.invalidateLighting { s with lightModelAmbient := params }, fun _ => rfl⟩))

theorem lit_materialx (s : Lights.State) (face pname : GLenum) (param : Int) :
    Lit s (Lights.materialx · face pname param) :=
  lit_ite (lit_error s (by decide)) (lit_ite (lit_error s (by decide))
    (.inl ⟨Lights.invalidateLighting { s with front := { s.front with shininess := param } },
      fun _ => rfl⟩))

theorem lit_materialv (s : Lights.State) (face pname : GLenum) (params : Vec4)
    (shininess : Int) : Lit s (Lights.materialv · face pname params shininess) := by
  have change (m : Lights.Material → Lights.Material) :
      Lit s fun s => Lights.invalidateLighting { s with front := m s.front } :=
    .inl ⟨Lights.invalidateLighting { s with front := m s.front }, fun _ => rfl⟩
  have error : Lit s (Lights.oglesError · GL.invalidEnum) := lit_error s (by decide)
  apply lit_ite error
  apply lit_ite (change fun m => { m with ambient := params })
  apply lit_ite (change fun m => { m with diffuse := params })
  apply lit_ite (change fun m => { m with specular := params })
  apply lit_ite (change fun m => { m with emission := params })
  apply lit_ite (change fun m => { m with ambient := params, diffuse := params })
  exact lit_ite (change fun m => { m with shininess := shininess }) error

theorem changeLight_ok {s : Lights.State} {n : Fin 8}
    {change : Lights.Light → Except GLenum Lights.Light} (changed : change (s.lights n) = .ok l)
    (error : GLenum) :
    Lights.changeLight { s with error := error } (some n) change =
      { Lights.invalidateLighting (Lights.setLight s n l) with error := error } := by
  simp only [Lights.changeLight, changed]
  rfl

theorem lit_changeLight (s : Lights.State) (light : Option (Fin 8))
    (change : Lights.Light → Except GLenum Lights.Light)
    (nonzero : ∀ l fault, change l = .error fault → fault ≠ GL.noError) :
    Lit s (Lights.changeLight · light change) := by
  cases light with
  | none => exact lit_error s (by decide)
  | some n =>
    cases changed : change (s.lights n) with
    | error fault =>
      refine .inr ⟨fault, nonzero _ _ changed, fun error => ?_⟩
      simp only [Lights.changeLight, changed]
    | ok l =>
      exact .inl ⟨Lights.invalidateLighting (Lights.setLight s n l), changeLight_ok changed⟩

theorem lightParameter_error {cosine : Int → Int} {param : Int}
    (h : Lights.lightParameter cosine l pname param = .error fault) : fault ≠ GL.noError := by
  have value : GL.invalidValue ≠ GL.noError := by decide
  have enum : GL.invalidEnum ≠ GL.noError := by decide
  unfold Lights.lightParameter at h
  split_ifs at h <;> first
    | exact Except.error.inj h ▸ value
    | exact Except.error.inj h ▸ enum

theorem lightVector_error {cosine : Int → Int} {modelview : Transforms.Transform} {params : Vec4}
    (h : Lights.lightVector cosine modelview l pname params = .error fault) :
    fault ≠ GL.noError := by
  unfold Lights.lightVector at h
  split_ifs at h
  exact lightParameter_error h

theorem lit_lightx (s : Lights.State) (cosine : Int → Int) (i pname : GLenum) (param : Int) :
    Lit s (Lights.lightx cosine · i pname param) :=
  lit_changeLight s _ _ fun _ _ => lightParameter_error

theorem lit_lightxv (s : Lights.State) (cosine : Int → Int) (modelview : Transforms.Transform)
    (i pname : GLenum) (params : Vec4) : Lit s (Lights.lightxv cosine modelview · i pname params) :=
  lit_changeLight s _ _ fun _ _ => lightVector_error

theorem lightVector_position (cosine : Int → Int) (modelview : Transforms.Transform)
    (l : Lights.Light) (params : Vec4) :
    Lights.lightVector cosine modelview l GL.position params =
      .ok { l with position := Arrays.Compile.point modelview .four params } := by
  rw [Lights.lightVector, if_neg (by decide), if_neg (by decide), if_neg (by decide), if_pos rfl]

theorem lit_position (s : Lights.State) (cosine : Int → Int) (modelview : Transforms.Transform)
    {i : GLenum} (light : (Lights.lightIndex i).isSome) (position : pname = GL.position)
    (params : Vec4) :
    ∃ t : Lights.State, ∀ error,
      Lights.lightxv cosine modelview { s with error := error } i pname params =
        { t with error := error } := by
  obtain ⟨n, index⟩ := Option.isSome_iff_exists.mp light
  have accepted : Lights.lightVector cosine modelview (s.lights n) pname params =
      .ok { s.lights n with position := Arrays.Compile.point modelview .four params } := by
    rw [position]
    exact lightVector_position cosine modelview (s.lights n) params
  refine ⟨Lights.invalidateLighting (Lights.setLight s n
    { s.lights n with position := Arrays.Compile.point modelview .four params }), fun error => ?_⟩
  rw [Lights.lightxv, index]
  exact changeLight_ok accepted error

def Rastered (r : State.Context) (f : State.Context → State.Context) : Prop :=
  (∃ t : State.Context, ∀ error, f { r with error := error } = { t with error := error }) ∨
    ∃ fault, fault ≠ GL.noError ∧
      ∀ error, f { r with error := error } = State.gglError { r with error := error } fault

theorem onRasterizer_withErrors (c : Context F) (f : State.Context → State.Context)
    (error ggl : GLenum) : onRasterizer (withErrors c error ggl) f =
      withErrors { c with rasterizer := f { c.rasterizer with error := ggl } } error
        (f { c.rasterizer with error := ggl }).error := rfl

theorem settled_onRasterizer {c : Context F} {f : State.Context → State.Context}
    (h : Rastered c.rasterizer f) : Settled c (onRasterizer · f) := by
  rcases h with ⟨t, done⟩ | ⟨fault, nonzero, recorded⟩
  · refine .inl ⟨{ c with rasterizer := t }, fun error ggl => ?_⟩
    dsimp only
    rw [onRasterizer_withErrors, done]
    rfl
  · refine .inr ⟨.rasterizer fault, nonzero, fun error ggl => ?_⟩
    dsimp only
    rw [onRasterizer_withErrors, recorded]
    rfl

theorem rastered_ite {r : State.Context} [Decidable p] {f g : State.Context → State.Context}
    (hf : Rastered r f) (hg : Rastered r g) : Rastered r fun r => if p then f r else g r := by
  by_cases h : p
  · simpa only [if_pos h] using hf
  · simpa only [if_neg h] using hg

theorem rastered_error (r : State.Context) : Rastered r (State.gglError · GL.invalidEnum) :=
  .inr ⟨GL.invalidEnum, by decide, fun _ => rfl⟩

theorem rastered_setField (r : State.Context)
    (differs : State.Context → Bool) (t : State.Context → State.Texture)
    (hd : ∀ error, differs { r with error := error } = differs r)
    (ht : ∀ error, t { r with error := error } = t r) :
    Rastered r fun r => State.setField r (differs r) (t r) := by
  refine .inl ⟨State.setField r (differs r) (t r), fun error => ?_⟩
  dsimp only
  rw [hd, ht]
  unfold State.setField
  split <;> rfl

theorem rastered_blendFunc (r : State.Context) (src dst : GLenum) :
    Rastered r (State.gglBlendFunc · src dst) := by
  refine .inl ⟨State.gglBlendFunc r src dst, fun error => ?_⟩
  unfold State.gglBlendFunc State.setBlend
  dsimp only
  split <;> rfl

theorem rastered_alphaFuncx (r : State.Context) (func : GLenum) (ref : Int) :
    Rastered r (State.gglAlphaFuncx · func ref) := by
  refine rastered_ite (rastered_error r) (.inl ⟨?_, fun error => ?_⟩)
  · exact if r.alphaFunc ≠ func then
      State.stateChanged
        { r with
          alphaRef := State.gglFixedToIteratedColor (Fixed.gglClampx ref), alphaFunc := func }
        .pixelPipeline
    else { r with alphaRef := State.gglFixedToIteratedColor (Fixed.gglClampx ref) }
  · dsimp only
    split <;> rfl

theorem rastered_depthFunc (r : State.Context) (func : GLenum) :
    Rastered r (State.gglDepthFunc · func) := by
  refine rastered_ite (rastered_error r) (.inl ⟨?_, fun error => ?_⟩)
  · exact if r.depthFunc ≠ func then
      State.stateChanged { r with depthFunc := func } .pixelPipeline else r
  · dsimp only
    split <;> rfl

theorem rastered_texEnvi (r : State.Context) (target pname : GLenum) (param : Int) :
    Rastered r (gglTexEnvi · target pname param) :=
  rastered_ite (rastered_error r) (rastered_ite
    (rastered_setField r (fun r => (State.activeTexture r).env ≠ param.toNat)
      (fun r => { State.activeTexture r with env := param.toNat }) (fun _ => rfl) fun _ => rfl)
    (rastered_error r))

theorem rastered_texEnvxv (r : State.Context) (target pname : GLenum) (params : Vec4) :
    Rastered r (gglTexEnvxv · target pname params) :=
  rastered_ite (rastered_error r) (rastered_ite (rastered_texEnvi r target pname params.x)
    (rastered_ite
      (.inl ⟨State.gglTexEnvColor r params.x params.y params.z params.w, fun _ => rfl⟩)
      (rastered_error r)))

section Calls

variable (c : Context F)

theorem settled_fogx (pname : GLenum) (param : Int) : Settled c (fogx · pname param) := by
  have enum : Settled c (oglesError · GL.invalidEnum) := rejected_oglesError (by decide)
  apply settled_ite
  · apply settled_ite
    · exact settled_accept (d := { c with fog := { c.fog with density := param } }) fun _ _ => rfl
    · exact rejected_oglesError (by decide)
  apply settled_ite
  · refine settled_accept (d := { c with fog := ?_ }) fun _ _ => ?_
    · exact { c.fog with start := param, invEndMinusStart := gglRecip (c.fog.finish - param) }
    · rfl
  apply settled_ite
  · refine settled_accept (d := { c with fog := ?_ }) fun _ _ => ?_
    · exact { c.fog with finish := param, invEndMinusStart := gglRecip (param - c.fog.start) }
    · rfl
  refine settled_ite ?_ enum
  cases fogFunction param with
  | none => exact enum
  | some f =>
    exact settled_accept (d := { c with fog := { c.fog with mode := param.toNat, fog := f } })
      fun _ _ => rfl

theorem settled_fogColor (color : Vec4) : Settled c (gglFogColor3xv · color) :=
  settled_accept (d := gglFogColor3xv c color) fun _ _ => rfl

theorem settled_arrayPointer (sizes types : List GLenum) (size : Int) (type : GLenum)
    (stride : Int) (accept : Context F → Context F)
    (accepts : ∀ error ggl, accept (withErrors c error ggl) = withErrors (accept c) error ggl) :
    Settled c fun c => arrayPointer c sizes types size type stride (accept c) := by
  apply settled_ite (rejected_oglesError (by decide))
  exact settled_ite (settled_accept accepts) (rejected_oglesError (by decide))

theorem settled_matrixMode (mode : GLenum) : Settled c (glMatrixMode · mode) := by
  have select (current : Transforms.Current) : Settled c fun c =>
      { c with matrixMode := mode, transforms := { c.transforms with current := current } } :=
    settled_accept (d := { c with
      matrixMode := mode, transforms := { c.transforms with current := current } }) fun _ _ => rfl
  apply settled_ite (select .modelview)
  apply settled_ite (select .projection)
  refine settled_ite ?_ (rejected_oglesError (by decide))
  exact select (.texture c.transforms.activeUnit)

theorem settled_texParameterx (target pname : GLenum) (param : Int) :
    Settled c (texParameterx · target pname param) := by
  have enum : Settled c (oglesError · GL.invalidEnum) := rejected_oglesError (by decide)
  have change (o : Textures.Units.TextureObject → Textures.Units.TextureObject) :
      Settled c fun c => invalidateActive (setObject c (o (activeObject c))) :=
    settled_accept (d := invalidateActive (setObject c (o (activeObject c)))) fun _ _ => rfl
  apply settled_ite enum
  apply settled_ite (change fun o => { o with wraps := param.toNat })
  apply settled_ite (change fun o => { o with wrapt := param.toNat })
  apply settled_ite (change fun o => { o with minFilter := param.toNat })
  apply settled_ite (change fun o => { o with magFilter := param.toNat })
  exact settled_ite (change fun o => { o with generateMipmap := param }) enum

theorem settled_texParameteriv (target pname : GLenum) (params : Vec4) :
    Settled c (glTexParameteriv · target pname params) := by
  apply settled_ite (rejected_oglesError (by decide))
  refine settled_ite ?_ (settled_texParameterx c target pname params.x)
  exact settled_accept
    (d := setObject c
      { activeObject c with cropRect := (params.x, params.y, params.z, params.w) })
    fun _ _ => rfl

variable {A : Type} [Parameter A]

theorem settled_changeLight (i pname : GLenum) (params : Vec4) :
    Settled c (changeLight A · i pname params) := by
  rcases settled_onLighting (c := c) (lit_lightxv c.lighting (Parameter.cosine A)
    c.transforms.modelview.transform i pname params) with ⟨d, done⟩ | ⟨fault, nonzero, recorded⟩
  · exact .inl ⟨d, done⟩
  · exact .inr ⟨fault, nonzero, recorded⟩

theorem accepted_position {i pname : GLenum}
    (position : (Lights.lightIndex i).isSome ∧ pname = GL.position) (params : Vec4) :
    Accepted c (changeLight A · i pname params) := by
  obtain ⟨d, done⟩ := accepted_onLighting (c := c)
    (f := fun s => Lights.lightxv (Parameter.cosine A) c.transforms.modelview.transform s i pname
      params)
    (lit_position c.lighting (Parameter.cosine A) c.transforms.modelview.transform position.1
      position.2 params)
  exact ⟨d, done⟩

theorem settled_lightx (i pname : GLenum) (param : Int) :
    Settled c (glLightx A · i pname param) :=
  settled_onLighting (f := fun s => Lights.lightx (Parameter.cosine A) s i pname param)
    (lit_lightx c.lighting (Parameter.cosine A) i pname param)

variable [Transforms.GLfloat F]

theorem settled_lightxv (i pname : GLenum) (params : Vec4) :
    Settled c (Calls.lightxv A · i pname params) := by
  by_cases position : (Lights.lightIndex i).isSome ∧ pname = GL.position
  · obtain ⟨d, done⟩ := accepted_position (A := A) (validateModelview c) position params
    refine .inl ⟨d, fun error ggl => ?_⟩
    have validated : Calls.lightxv A (withErrors c error ggl) i pname params =
        changeLight A (validateModelview (withErrors c error ggl)) i pname params :=
      if_pos position
    exact validated.trans (done error ggl)
  · have plain : (Calls.lightxv A · i pname params) = (changeLight (F := F) A · i pname params) :=
      funext fun _ => if_neg position
    rw [plain]
    exact settled_changeLight c i pname params

theorem settled_clipPlanex (plane : GLenum) (equ : Vec4) :
    Settled c (Calls.clipPlanex · plane equ) := by
  have stores (p : Fin 6) : Settled c (setClipPlane · p equ) :=
    settled_accept (d := setClipPlane c p equ) fun _ _ => rfl
  by_cases valid : GL.clipPlane0 ≤ plane ∧ plane - GL.clipPlane0 < 6
  · have same : (Calls.clipPlanex · plane equ) =
        (setClipPlane (F := F) · ⟨plane - GL.clipPlane0, valid.2⟩ equ) :=
      funext fun _ => dif_pos valid
    rw [same]
    exact stores _
  · have same : (Calls.clipPlanex · plane equ) = (oglesError (F := F) · GL.invalidEnum) :=
      funext fun _ => dif_neg valid
    rw [same]
    exact rejected_oglesError (by decide)

theorem settled_lightfv (i pname : GLenum) (params : Fin 4 → A) :
    Settled c (glLightfv · i pname params) := by
  apply settled_ite (settled_lightx c i pname (Parameter.toFixed (params 0)))
  apply settled_ite (settled_lightxv c i pname { fixedVector params with w := 0 })
  exact settled_lightxv c i pname (fixedVector params)

theorem call_settled (o : Call A) (valid : ∀ mode, o = .cullFace mode → mode ∈ faces) :
    Settled c (call · o) := by
  have enum : Settled c (oglesError · GL.invalidEnum) := rejected_oglesError (by decide)
  have lighting (f : Lights.State → Lights.State) (h : Lit c.lighting f) :
      Settled c (onLighting · f) := settled_onLighting h
  have raster (f : State.Context → State.Context) (h : Rastered c.rasterizer f) :
      Settled c (onRasterizer · f) := settled_onRasterizer h
  cases o with
  | cullFace mode =>
    have accepts (c : Context F) : glCullFace c mode = { c with cullFace := mode } := by
      unfold glCullFace
      rw [if_pos (valid mode rfl)]
    exact settled_accept (d := { c with cullFace := mode }) fun _ _ => accepts _
  | frontFace mode =>
    exact settled_ite (settled_accept (d := { c with frontFace := mode }) fun _ _ => rfl) enum
  | shadeModel mode =>
    exact settled_ite enum (settled_accept (d := { c with shadeModel := mode }) fun _ _ => rfl)
  | pointSize size =>
    exact settled_ite enum (settled_accept
      (d := { c with pointSize := Fixed.triFromFixed (Parameter.toFixed size) }) fun _ _ => rfl)
  | pointSizex size =>
    exact settled_ite enum (settled_accept
      (d := { c with pointSize := Fixed.triFromFixed size }) fun _ _ => rfl)
  | lineWidth width =>
    exact settled_ite enum (settled_accept
      (d := { c with lineWidth := Fixed.triFromFixed (Parameter.toFixed width) }) fun _ _ => rfl)
  | lineWidthx width =>
    exact settled_ite enum (settled_accept
      (d := { c with lineWidth := Fixed.triFromFixed width }) fun _ _ => rfl)
  | blendFunc sfactor dfactor => exact raster _ (rastered_blendFunc _ sfactor dfactor)
  | alphaFunc func ref => exact raster _ (rastered_alphaFuncx _ func _)
  | alphaFuncx func ref => exact raster _ (rastered_alphaFuncx _ func ref)
  | depthFunc func => exact raster _ (rastered_depthFunc _ func)
  | texEnvx target pname param => exact raster _ (rastered_texEnvi _ target pname param)
  | texEnvxv target pname params => exact raster _ (rastered_texEnvxv _ target pname params)
  | texEnvf target pname param => exact raster _ (rastered_texEnvi _ target pname _)
  | texEnvfv target pname params =>
    apply settled_ite (raster _ (rastered_texEnvi _ target pname _))
    exact settled_ite (raster _ (rastered_texEnvxv _ target pname _)) enum
  | lightModelx pname param => exact lighting _ (lit_lightModelx _ pname param)
  | lightModelxv pname params => exact lighting _ (lit_lightModelxv _ pname params)
  | lightModelf pname param => exact lighting _ (lit_lightModelx _ pname _)
  | lightModelfv pname params => exact lighting _ (lit_lightModelxv _ pname _)
  | materialx face pname param => exact lighting _ (lit_materialx _ face pname param)
  | materialxv face pname params => exact lighting _ (lit_materialv _ face pname params _)
  | materialf face pname param => exact lighting _ (lit_materialx _ face pname _)
  | materialfv face pname params => exact lighting _ (lit_materialv _ face pname _ _)
  | lightx i pname param => exact settled_lightx c i pname param
  | lightxv i pname params => exact settled_lightxv (A := A) c i pname params
  | lightf i pname param => exact settled_lightx c i pname (Parameter.toFixed param)
  | lightfv i pname params => exact settled_lightfv c i pname params
  | clipPlanex plane equ => exact settled_clipPlanex c plane equ
  | clipPlanef plane equ => exact settled_clipPlanex c plane _
  | fogx pname param => exact settled_fogx c pname param
  | fogxv pname params =>
    exact settled_ite (settled_fogx c pname params.x) (settled_fogColor c params)
  | fogf pname param => exact settled_fogx c pname _
  | fogfv pname params =>
    exact settled_ite (settled_fogx c pname _) (settled_fogColor c _)
  | vertexPointer size type stride pointer =>
    exact settled_arrayPointer c _ _ size type stride (fun c =>
      { c with
        vertex := .init size type stride pointer c.arrayBuffer
        transforms := { c.transforms with vertexSize := size } }) fun _ _ => rfl
  | colorPointer size type stride pointer =>
    exact settled_arrayPointer c _ _ size type stride (fun c =>
      { c with color := .init size type stride pointer c.arrayBuffer }) fun _ _ => rfl
  | normalPointer type stride pointer =>
    exact settled_arrayPointer c _ _ 3 type stride (fun c =>
      { c with normal := .init 3 type stride pointer c.arrayBuffer }) fun _ _ => rfl
  | texCoordPointer size type stride pointer =>
    exact settled_arrayPointer c _ _ size type stride (fun c =>
      { c with
        texCoord :=
          Function.update c.texCoord c.clientActive (.init size type stride pointer c.arrayBuffer) })
      fun _ _ => rfl
  | matrixMode mode => exact settled_matrixMode c mode
  | texParameterx target pname param | texParameteri target pname param =>
    exact settled_texParameterx c target pname param
  | texParameterf target pname param => exact settled_texParameterx c target pname _
  | texParameteriv target pname params => exact settled_texParameteriv c target pname params

def Leaves (o : Call A) : Prop := ∃ mode, o = .cullFace mode ∧ mode ∉ faces ∧ mode ≠ c.cullFace

/-- A call that records an error changes nothing else, unless it is given such a face mode. -/
theorem errors_leave_state (o : Call A) :
    (Records c (call · o) → SameState c (call c o)) ↔ ¬Leaves c o := by
  constructor
  · rintro kept ⟨mode, rfl, invalid, other⟩
    have rejects (c : Context F) : call c (.cullFace mode : Call A) =
        { oglesError c GL.invalidEnum with cullFace := mode } := by
      change glCullFace c mode = _
      unfold glCullFace
      rw [if_neg invalid]
    have records : Records c (call · (.cullFace mode : Call A)) := by
      unfold Records
      simp only [rejects]
      exact .inl (by decide : GL.invalidEnum ≠ GL.noError)
    have same := kept records
    rw [rejects] at same
    exact other (congrArg Context.cullFace same)
  · intro valid records
    by_cases rejected : ∃ mode, o = .cullFace mode ∧ mode ∉ faces
    · obtain ⟨mode, rfl, invalid⟩ := rejected
      have current : mode = c.cullFace := by
        by_contra other
        exact valid ⟨mode, rfl, invalid, other⟩
      subst current
      change SameState c (glCullFace c c.cullFace)
      unfold SameState glCullFace
      rw [if_neg invalid]
      rfl
    · refine sameState_of_settled (call_settled c o fun mode h => ?_) records
      by_contra invalid
      exact rejected ⟨mode, h, invalid⟩

end Calls

private abbrev start : Context ℚ := initial (Transforms.init 0 (0, 0, 240) id)

/-- `glCullFace(0)` in the initial context records an error and stores the mode. -/
theorem cullFace_stores_invalid_mode :
    ¬∀ (c : Context ℚ) (o : Call Singles.Single), Records c (call · o) → SameState c (call c o) := by
  intro kept
  have same := kept start (.cullFace 0) (.inl (by decide +kernel))
  have mode := congrArg Context.cullFace same
  revert mode
  decide +kernel

end RabbitRender.Setters.Errors
