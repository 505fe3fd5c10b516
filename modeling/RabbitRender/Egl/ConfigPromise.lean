/- RabbitRender/Egl/ConfigPromise
   layer: proof
   source: swrender/egl.cpp
   digest: A chosen config has the sizes that were asked for; its surfaces have them exactly when the
     identifier of the config is its position. -/

import RabbitRender.Egl.Configs

set_option autoImplicit false

namespace RabbitRender.Egl.ConfigPromise

open Lib.Bisect Pixelflinger Egl.Configs

variable {attr : EGLint} {config : Config} {possible : Possible}

theorem lookup_found {α : Type} {key : α → EGLint} {table : List α} {x : α}
    (h : lookup key table attr = some x) : x ∈ table ∧ key x = attr := by
  obtain ⟨i, found, here⟩ := Option.bind_eq_some_iff.mp h
  refine ⟨List.mem_of_getElem? here, ?_⟩
  obtain ⟨-, -, same⟩ := bisect_equal found
  dsimp only at same
  rw [here, Option.map_some, Option.getD_some] at same
  exact compare_eq_iff_eq.mp same

theorem matching_reported {val : EGLint} (h : isAttributeMatching config attr val = true) :
    ∃ value rule, getConfigAttrib config attr = some value ∧ (attr, rule) ∈ management ∧
      rule.holds val value = true := by
  unfold isAttributeMatching at h
  split at h
  · rename_i pair key rule found managed
    obtain ⟨listed, rfl⟩ := lookup_found managed
    exact ⟨pair.value, rule, by rw [getConfigAttrib, found, Option.map_some], listed, h⟩
  · cases h

theorem size_rules : ∀ entry ∈ management, entry.1 ∈ sizes → entry.2 = .atLeast := by decide

theorem matching_size {val : EGLint} (size : attr ∈ sizes)
    (h : isAttributeMatching config attr val = true) :
    ∃ value, getConfigAttrib config attr = some value ∧ (val = EGL.dontCare ∨ val ≤ value) := by
  obtain ⟨value, rule, reported, listed, accepted⟩ := matching_reported h
  have least : rule = .atLeast := size_rules _ listed size
  rw [least] at accepted
  refine ⟨value, reported, ?_⟩
  simpa only [Match.holds, Bool.or_eq_true, decide_eq_true_eq] using accepted

theorem possibleAny_of (h : possible config = true) : possibleAny possible = true :=
  List.any_eq_true.mpr ⟨config, List.mem_finRange config, h⟩

theorem chooseLoop_matching (attribs : List (EGLint × EGLint)) {count : Nat}
    (left : (chooseLoop attribs possible count).1 config = true) :
    possible config = true ∧
      ∀ p ∈ requests attribs, isAttributeMatching config p.1 p.2 = true := by
  induction attribs generalizing possible count with
  | nil => exact ⟨left, fun p hp => absurd hp List.not_mem_nil⟩
  | cons p attribs ih =>
    obtain ⟨attr, val⟩ := p
    rw [chooseLoop] at left
    split_ifs at left with goes
    · obtain ⟨before, rest⟩ := ih left
      rw [restrict, Bool.and_eq_true] at before
      refine ⟨before.1, fun q hq => ?_⟩
      have goesOn : decide ((attr, val).1 ≠ EGL.none) = true := decide_eq_true goes.2
      rw [requests, List.takeWhile_cons, if_pos goesOn] at hq
      rcases List.mem_cons.mp hq with rfl | later
      · exact before.2
      · exact rest q later
    · refine ⟨left, fun q hq => ?_⟩
      have ends : attr = EGL.none := by
        by_contra goesOn
        exact goes ⟨possibleAny_of left, goesOn⟩
      have stops : ¬decide ((attr, val).1 ≠ EGL.none) = true := by simp [ends]
      rw [requests, List.takeWhile_cons, if_neg stops] at hq
      exact absurd hq List.not_mem_nil

theorem applyDefaults_le {behind : Nat → EGLint} {count : Nat}
    (left : applyDefaults behind count possible config = true) : possible config = true := by
  unfold applyDefaults at left
  generalize defaults = pairs at left
  induction pairs generalizing possible with
  | nil => exact left
  | cons pair pairs ih =>
    rw [List.foldl_cons] at left
    have before := ih left
    split_ifs at before
    · rw [restrict, Bool.and_eq_true] at before
      exact before.1
    · exact before

theorem chosen_matching {attribs : List (EGLint × EGLint)} {behind : Nat → EGLint}
    {configSize : EGLint} (h : config ∈ eglChooseConfig attribs behind configSize) :
    ∀ p ∈ requests attribs, isAttributeMatching config p.1 p.2 = true := by
  have found : config ∈ (List.finRange 8).filter (chosen attribs behind) := by
    unfold eglChooseConfig at h
    dsimp only at h
    split_ifs at h
    · exact h
    · exact List.mem_of_mem_take h
  have left : chosen attribs behind config = true := (List.mem_filter.mp found).2
  exact (chooseLoop_matching attribs (applyDefaults_le left)).2

/-- The identifier of a config is its position, as `getConfigFormatInfo` takes it to be. -/
def InPlace (config : Config) : Prop :=
  getConfigAttrib config EGL.configId = some (config.val : EGLint)

instance : DecidablePred InPlace := fun _ => inferInstanceAs (Decidable (_ = _))

def Created (config : Config) (s : SurfaceFormat) : Prop :=
  (∃ allocated, createPbufferSurface config allocated = some s) ∨
    ∃ pixmap allocated, createPixmapSurface config pixmap allocated = some s

theorem created_formats {s : SurfaceFormat} (h : Created config s) :
    formatsFor config EGL.pbufferBit = some s := by
  rcases h with ⟨allocated, created⟩ | ⟨pixmap, allocated, created⟩
  · exact Option.eq_some_of_filter_eq_some created
  · have kinds : ∀ config, formatsFor config EGL.pixmapBit = formatsFor config EGL.pbufferBit := by
      decide +kernel
    rw [← kinds]
    exact Option.eq_some_of_filter_eq_some created

theorem reported_iff {s : SurfaceFormat} (h : formatsFor config EGL.pbufferBit = some s) :
    (∀ attr ∈ sizes, getConfigAttrib config attr = some (sizeOf s attr : EGLint)) ↔
      InPlace config := by
  have all : ∀ config, ∀ s ∈ formatsFor config EGL.pbufferBit,
      (∀ attr ∈ sizes, getConfigAttrib config attr = some (sizeOf s attr : EGLint)) ↔
        InPlace config := by
    decide +kernel
  exact all config s h

/-- A surface made with a chosen config keeps the promise exactly when the identifier of the config
is its position. -/
theorem promise_kept (attribs : List (EGLint × EGLint)) (behind : Nat → EGLint)
    (configSize : EGLint) (config : Config) (s : SurfaceFormat)
    (chosen : config ∈ eglChooseConfig attribs behind configSize) (created : Created config s) :
    Kept attribs config s ↔ InPlace config := by
  have reported := reported_iff (created_formats created)
  constructor
  · intro kept
    exact reported.mp kept.reported
  · intro inPlace
    refine ⟨reported.mpr inPlace, fun p asked size => ?_⟩
    obtain ⟨value, has, least⟩ := matching_size size (chosen_matching chosen p asked)
    have same : value = (sizeOf s p.1 : EGLint) :=
      Option.some_inj.mp (has.symm.trans (reported.mpr inPlace p.1 size))
    rcases least with careless | enough
    · rw [careless]
      exact le_trans (by decide) (Int.natCast_nonneg (sizeOf s p.1))
    · rw [← same]
      exact enough

theorem promise_kept_565 : Kept [(EGL.redSize, 5), (EGL.depthSize, 16)] 1
    ⟨Format.rgb565, Format.z16⟩ :=
  (promise_kept [(EGL.redSize, 5), (EGL.depthSize, 16)] (fun _ => 0) 8 1 _ (by decide +kernel)
    (.inl ⟨true, by decide +kernel⟩)).mpr (by decide +kernel)

/-- A config with eight bits of alpha is asked for and chosen, and its surface has none. -/
theorem chosen_without_alpha : ∃ config s,
    config ∈ eglChooseConfig [(EGL.redSize, 8), (EGL.alphaSize, 8)] (fun _ => 0) 8 ∧
      createPbufferSurface config true = some s ∧ sizeOf s EGL.alphaSize = 0 ∧
        ¬Kept [(EGL.redSize, 8), (EGL.alphaSize, 8)] config s := by
  refine ⟨4, ⟨Format.rgbx8888, Format.none⟩, by decide +kernel, by decide +kernel, rfl, ?_⟩
  intro kept
  have alpha := kept.requested (EGL.alphaSize, 8) (by decide) (by decide)
  exact absurd alpha (by decide)

end RabbitRender.Egl.ConfigPromise
