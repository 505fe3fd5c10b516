/- RabbitRender/Egl/ConfigChoice
   layer: theorem
   source: swrender/egl.cpp
   digest: The configs that are chosen are those that match, except for an attribute that the
     unsorted tables lose, and what the search for defaults reads behind the list. -/

import RabbitRender.Egl.ConfigPromise

set_option autoImplicit false

namespace RabbitRender.Egl.ConfigChoice

open Lib.Bisect Egl.Configs
open Egl.ConfigPromise (lookup_found)

/-- The value of an attribute for a config, which may override the one of all configs. -/
def valueOf (config : Config) (attr : EGLint) : Option EGLint :=
  ((configs config ++ baseAttributes).find? fun pair => pair.key = attr).map Pair.value

def ruleOf (attr : EGLint) : Option Match :=
  (management.find? fun entry => entry.1 = attr).map Prod.snd

/-- The config has a value for the attribute that the rule of the attribute accepts. -/
def Satisfies (config : Config) (request : EGLint × EGLint) : Prop :=
  ∃ value ∈ valueOf config request.1, ∃ rule ∈ ruleOf request.1, rule.holds request.2 value = true

instance (config : Config) (request : EGLint × EGLint) : Decidable (Satisfies config request) :=
  inferInstanceAs (Decidable (∃ value ∈ valueOf config request.1, _))

def Matches (attribs : List (EGLint × EGLint)) (config : Config) : Prop :=
  (∀ p ∈ requests attribs, Satisfies config p) ∧
    ∀ pair ∈ defaults, pair.key ∉ (requests attribs).map Prod.fst →
      Satisfies config (pair.key, pair.value)

instance (attribs : List (EGLint × EGLint)) : DecidablePred (Matches attribs) :=
  fun _ => inferInstanceAs (Decidable (_ ∧ _))

/-- The entries that the search for the defaults reads, from the terminator on. -/
def defaultReads (attribs : List (EGLint × EGLint)) (behind : Nat → EGLint) : List Nat :=
  let (possible, count) := chooseLoop attribs (fun _ => true) 0
  defaults.flatMap fun pair =>
    if possibleAny possible then probes (fun i => compare (keysBehind behind i) pair.key) 0 count
    else []

/-- The first configs that match, in the order of the table, and nothing behind the terminator is
read. -/
structure Chooses (attribs : List (EGLint × EGLint)) (behind : Nat → EGLint) (configSize : EGLint) :
    Prop where
  selected : eglChooseConfig attribs behind configSize =
    let found := (List.finRange 8).filter (Matches attribs)
    if configSize < 0 then found else found.take configSize.toNat
  reads : ∀ i ∈ defaultReads attribs behind, i = 0

def attributeKeys : List EGLint := management.map Prod.fst

theorem tables_listed : ∀ config, ∀ pair ∈ configs config ++ baseAttributes,
    pair.key ∈ attributeKeys := by decide

theorem listed_matching : ∀ attr ∈ attributeKeys, (∀ config, findPair config attr =
    if attr = EGL.bindToTextureRgb then none
    else (configs config ++ baseAttributes).find? fun pair => pair.key = attr) ∧
    lookup Prod.fst management attr =
      if attr = EGL.bindToTextureRgb then none
      else management.find? fun entry => entry.1 = attr := by
  decide +kernel

variable {config : Config} {possible : Possible} {attribs : List (EGLint × EGLint)}
  {behind : Nat → EGLint}

theorem listed_of_satisfies {request : EGLint × EGLint} (h : Satisfies config request) :
    request.1 ∈ attributeKeys := by
  obtain ⟨value, found, -⟩ := h
  obtain ⟨pair, here, -⟩ := Option.map_eq_some_iff.mp found
  have same : pair.key = request.1 := by simpa using List.find?_some here
  exact same ▸ tables_listed config pair (List.mem_of_find?_eq_some here)

theorem matching_iff (config : Config) (attr val : EGLint) :
    isAttributeMatching config attr val = true ↔
      attr ≠ EGL.bindToTextureRgb ∧ Satisfies config (attr, val) := by
  by_cases listed : attr ∈ attributeKeys
  · obtain ⟨found, managed⟩ := listed_matching attr listed
    unfold isAttributeMatching Satisfies valueOf ruleOf
    rw [found config, managed]
    by_cases lost : attr = EGL.bindToTextureRgb
    · rw [if_pos lost]
      exact iff_of_false Bool.false_ne_true fun h => h.1 lost
    · rw [if_neg lost, if_neg lost]
      rcases (configs config ++ baseAttributes).find? _ with _ | pair
      · simp [lost]
      · rcases management.find? _ with _ | ⟨key, rule⟩
        · simp [lost]
        · simp [lost]
  · refine iff_of_false (fun h => ?_) fun h => listed (listed_of_satisfies h.2)
    unfold isAttributeMatching at h
    split at h
    · rename_i pair key rule found managed
      obtain ⟨entry, rfl⟩ := lookup_found managed
      exact listed (List.mem_map_of_mem entry)
    · cases h

theorem default_matching : ∀ config, ∀ pair ∈ defaults,
    isAttributeMatching config pair.key pair.value = true := by
  decide +kernel

theorem chooseLoop_iff (attribs : List (EGLint × EGLint)) (count : Nat) :
    (chooseLoop attribs possible count).1 config = true ↔
      possible config = true ∧ ∀ p ∈ requests attribs, isAttributeMatching config p.1 p.2 = true := by
  refine ⟨ConfigPromise.chooseLoop_matching attribs, ?_⟩
  induction attribs generalizing possible count with
  | nil => exact fun h => h.1
  | cons p attribs ih =>
    obtain ⟨attr, val⟩ := p
    rintro ⟨before, all⟩
    rw [chooseLoop]
    split_ifs with goes
    · have goesOn : decide ((attr, val).1 ≠ EGL.none) = true := decide_eq_true goes.2
      rw [requests, List.takeWhile_cons, if_pos goesOn, List.forall_mem_cons] at all
      refine ih (count + 1) ⟨?_, all.2⟩
      rw [restrict, before, all.1, Bool.and_self]
    · exact before

theorem chooseLoop_count (attribs : List (EGLint × EGLint)) (count : Nat)
    (left : possibleAny (chooseLoop attribs possible count).1 = true) :
    (chooseLoop attribs possible count).2 = count + (requests attribs).length := by
  induction attribs generalizing possible count with
  | nil => rfl
  | cons p attribs ih =>
    obtain ⟨attr, val⟩ := p
    rw [chooseLoop] at left ⊢
    split_ifs at left ⊢ with goes
    · have goesOn : decide ((attr, val).1 ≠ EGL.none) = true := decide_eq_true goes.2
      rw [ih (count + 1) left, requests, requests, List.takeWhile_cons, if_pos goesOn,
        List.length_cons]
      omega
    · have ends : attr = EGL.none := by
        by_contra goesOn
        exact goes ⟨left, goesOn⟩
      have stops : ¬decide ((attr, val).1 ≠ EGL.none) = true := by simp [ends]
      rw [requests, List.takeWhile_cons, if_neg stops, List.length_nil, add_zero]

theorem applyDefaults_eq (count : Nat) : applyDefaults behind count possible = possible := by
  have keeps : restrict possible EGL.surfaceType EGL.windowBit = possible := by
    funext config
    have matching := default_matching config _ List.mem_cons_self
    rw [restrict, matching, Bool.and_true]
  unfold applyDefaults
  rw [defaults, List.foldl_cons, List.foldl_nil]
  split_ifs
  · exact keeps
  · rfl

theorem chosen_iff : chosen attribs behind config = true ↔
    EGL.bindToTextureRgb ∉ (requests attribs).map Prod.fst ∧ Matches attribs config := by
  have default : ∀ pair ∈ defaults, Satisfies config (pair.key, pair.value) := fun pair listed =>
    ((matching_iff _ _ _).mp (default_matching config pair listed)).2
  have all : chosen attribs behind config = true ↔
      ∀ p ∈ requests attribs, p.1 ≠ EGL.bindToTextureRgb ∧ Satisfies config p := by
    unfold chosen
    simp only [applyDefaults_eq, chooseLoop_iff, matching_iff, true_and]
  rw [all, forall₂_and, Matches, and_iff_left fun pair listed _ => default pair listed,
    List.mem_map, not_exists]
  simp only [not_and]

theorem reads_iff : (∀ i ∈ defaultReads attribs behind, i = 0) ↔
    (∃ config, chosen attribs behind config = true) → (requests attribs).length ≤ 2 := by
  have any : possibleAny (chooseLoop attribs (fun _ => true) 0).1 = true ↔
      ∃ config, chosen attribs behind config = true := by
    unfold chosen
    simp only [applyDefaults_eq, possibleAny, List.any_eq_true, List.mem_finRange, true_and]
  have terminator : compare (keysBehind behind 0) EGL.surfaceType = .gt := rfl
  have reads : defaultReads attribs behind =
      if possibleAny (chooseLoop attribs (fun _ => true) 0).1 then
        probes (fun i => compare (keysBehind behind i) EGL.surfaceType) 0
          (chooseLoop attribs (fun _ => true) 0).2
      else [] := List.append_nil _
  rw [reads, ← any]
  split_ifs with left
  · rw [probes_first_iff terminator, chooseLoop_count attribs 0 left, Nat.zero_add]
    exact ⟨fun few _ => few, fun few => few left⟩
  · exact iff_of_true (fun i none => absurd none List.not_mem_nil) fun h => absurd h left

/-- What is chosen is what matches, and nothing behind the list is read, exactly if nothing matches,
or at most two attributes are listed and `EGL_BIND_TO_TEXTURE_RGB` is not one of them, or it is and
no config is asked for. -/
theorem eglChooseConfig_chooses_iff (attribs : List (EGLint × EGLint)) (behind : Nat → EGLint)
    (configSize : EGLint) :
    Chooses attribs behind configSize ↔
      (∀ config, ¬Matches attribs config) ∨
      if EGL.bindToTextureRgb ∈ (requests attribs).map Prod.fst then configSize = 0
      else (requests attribs).length ≤ 2 := by
  have counts : Chooses attribs behind configSize ↔ _ ∧ _ :=
    ⟨fun h => ⟨h.selected, h.reads⟩, fun h => ⟨h.1, h.2⟩⟩
  rw [counts, reads_iff, eglChooseConfig]
  by_cases lost : EGL.bindToTextureRgb ∈ (requests attribs).map Prod.fst
  · have none : ∀ config, ¬chosen attribs behind config = true := fun config h =>
      (chosen_iff.mp h).1 lost
    have empty : (List.finRange 8).filter (chosen attribs behind) = [] :=
      List.filter_eq_nil_iff.mpr fun config _ => none config
    have matched : (List.finRange 8).filter (Matches attribs) = [] ↔
        ∀ config, ¬Matches attribs config := by
      simp [List.filter_eq_nil_iff]
    rw [if_pos lost, and_iff_left fun ⟨config, h⟩ => absurd h (none config), ← matched, empty]
    dsimp only
    split_ifs with negative
    · rw [or_iff_left (ne_of_lt negative)]
      exact eq_comm
    · have zero : configSize.toNat = 0 ↔ configSize = 0 :=
        ⟨fun h => le_antisymm (Int.toNat_eq_zero.mp h) (not_lt.mp negative), fun h => h ▸ rfl⟩
      rw [List.take_nil, eq_comm, List.take_eq_nil_iff, zero, or_comm]
  · have same : (List.finRange 8).filter (chosen attribs behind) =
        (List.finRange 8).filter (Matches attribs) := by
      refine List.filter_congr fun config _ => ?_
      rw [Bool.eq_iff_iff, chosen_iff, decide_eq_true_iff]
      exact and_iff_right lost
    rw [if_neg lost, same, and_iff_right rfl, imp_iff_not_or, not_exists]
    refine or_congr_left (forall_congr' fun config => not_congr ?_)
    rw [chosen_iff]
    exact and_iff_right lost

/-- All configs have no textures to bind to, and none of them is chosen for that. -/
theorem eglChooseConfig_loses : ¬Chooses [(EGL.bindToTextureRgb, 0)] (fun _ => 0) 8 := by
  rw [eglChooseConfig_chooses_iff, not_or]
  exact ⟨fun none => none 0 (by decide), by decide⟩

end RabbitRender.Egl.ConfigChoice
