/- RabbitRender/Textures/Coherence
   layer: proof
   source: swrender/texture.cpp
   digest: Each unit refers to the object its name is registered for, as long as no upload replaces
     an object that another unit holds. -/

import Mathlib.Logic.Function.Basic
import Mathlib.Tactic.Common
import RabbitRender.Lib.GuardedRun
import RabbitRender.Textures.Units

set_option autoImplicit false

namespace RabbitRender.Textures.Coherence

open RabbitRender.GL (GLenum)
open Lib.GuardedRun Textures.Units

/-- The object a name stands for: the default texture, or the registered one. -/
def registered (c : Context) (name : UInt32) : Option ObjectId :=
  if name = 0 then some c.defaultTexture else c.textures name

/-- A unit with name 0 refers to the default texture, a unit with another name to the object
registered under it. -/
def Coherent (c : Context) : Prop :=
  ∀ i, ((c.tmu i).name = 0 → (c.tmu i).texture = some c.defaultTexture) ∧
    ((c.tmu i).name ≠ 0 → ∃ object, c.textures (c.tmu i).name = some object ∧
      (c.tmu i).texture = some object)

/-- Every object a name stands for is alive and stands for no other name, and no reference is
counted. -/
structure Registry (c : Context) : Prop where
  counts : ∀ object o, c.heap object = some o → o.mCount = 0
  live : ∀ name object, registered c name = some object → (c.heap object).isSome
  fresh : ∀ object, (c.heap object).isSome → object < c.nextObject
  own : ∀ name name' object, registered c name = some object →
    registered c name' = some object → name = name'

def Bound (c : Context) (i : Fin 2) : Prop :=
  ∃ object, registered c (c.tmu i).name = some object ∧ (c.tmu i).texture = some object

structure Inv (c : Context) : Prop where
  registry : Registry c
  bound : ∀ i, Bound c i

variable {c c' : Context} {object : ObjectId} {i : Fin 2} {name : UInt32} {names : List UInt32}

theorem Inv.coherent (inv : Inv c) : Coherent c := by
  intro i
  obtain ⟨object, hreg, htex⟩ := inv.bound i
  refine ⟨fun zero => ?_, fun nonzero => ⟨object, ?_, htex⟩⟩
  · rw [htex, ← hreg, registered, if_pos zero]
  · rw [← hreg, registered, if_neg nonzero]

theorem incStrong_eq (live : (c.heap object).isSome) : incStrong c object = some c := by
  obtain ⟨o, ho⟩ := Option.isSome_iff_exists.mp live
  simp only [incStrong, ho, androidAtomicInc]
  rw [← ho, Function.update_eq_self]

theorem decStrong_eq {o : TextureObject} (ho : c.heap object = some o) (count : o.mCount = 0) :
    decStrong c object = some c := by
  have kept : (if (androidAtomicDec o.mCount).2 = 1 then none
      else some { o with mCount := (androidAtomicDec o.mCount).1 }) = c.heap object := by
    rw [ho, if_neg (by simp [androidAtomicDec, count])]
    rfl
  simp only [decStrong, ho, kept]
  rw [← ho, Function.update_eq_self]

theorem releaseUnit_eq (inv : Inv c) (i : Fin 2) : releaseUnit c i = some c := by
  obtain ⟨object, hreg, htex⟩ := inv.bound i
  obtain ⟨o, ho⟩ := Option.isSome_iff_exists.mp (inv.registry.live _ _ hreg)
  simp only [releaseUnit, htex]
  exact decStrong_eq ho (inv.registry.counts _ _ ho)

def setUnit (c : Context) (i : Fin 2) (name : UInt32) (object : ObjectId) : Context :=
  { c with tmu := Function.update c.tmu i ⟨name, some object, 0xFF⟩ }

theorem attachUnit_eq (live : (c.heap object).isSome) (i : Fin 2) (name : UInt32) :
    attachUnit c i name (some object) = some (setUnit c i name object) := by
  simp only [attachUnit, incStrong_eq live, Option.map_some]
  rfl

@[simp] theorem setUnit_self (c : Context) (i : Fin 2) (name : UInt32) (object : ObjectId) :
    (setUnit c i name object).tmu i = ⟨name, some object, 0xFF⟩ := Function.update_self _ _ _

@[simp] theorem setUnit_of_ne (c : Context) {j : Fin 2} (h : j ≠ i) (name : UInt32)
    (object : ObjectId) : (setUnit c i name object).tmu j = c.tmu j := Function.update_of_ne h _ _

@[simp] theorem registered_setUnit (c : Context) (i : Fin 2) (name : UInt32) (object : ObjectId) :
    registered (setUnit c i name object) = registered c := rfl

theorem inv_setUnit (registry : Registry c) (hreg : registered c name = some object)
    (others : ∀ j, j ≠ i → Bound c j) : Inv (setUnit c i name object) := by
  refine ⟨⟨registry.counts, registry.live, registry.fresh, registry.own⟩, fun j => ?_⟩
  by_cases same : j = i
  · subst same
    exact ⟨object, by simpa using hreg, by simp⟩
  · obtain ⟨object', hreg', htex⟩ := others j same
    exact ⟨object', by simpa [same] using hreg', by simpa [same] using htex⟩

/-- The outcome of binding: one unit has the name, everything else is as before. -/
structure Rebound (c : Context) (i : Fin 2) (name : UInt32) (c' : Context) : Prop where
  inv : Inv c'
  frame : c' = { c with tmu := c'.tmu }
  name : (c'.tmu i).name = name
  others : ∀ j, j ≠ i → c'.tmu j = c.tmu j

theorem bindTextureTmu_rebound {c : Context} (inv : Inv c) (i : Fin 2) {name : UInt32}
    {object : ObjectId} (hreg : registered c name = some object) :
    ∃ c', bindTextureTmu c i name (some object) = some c' ∧ Rebound c i name c' := by
  by_cases same : some object = (c.tmu i).texture
  · obtain ⟨object', hreg', htex⟩ := inv.bound i
    obtain rfl : object = object' := Option.some_inj.mp (same.trans htex)
    exact ⟨c, by rw [bindTextureTmu, if_pos same], inv, rfl, inv.registry.own _ _ _ hreg' hreg,
      fun _ _ => rfl⟩
  · have value : bindTextureTmu c i name (some object) = some (setUnit c i name object) := by
      rw [bindTextureTmu, if_neg same, releaseUnit_eq inv, Option.bind_some,
        attachUnit_eq (inv.registry.live _ _ hreg)]
    exact ⟨setUnit c i name object, value, inv_setUnit inv.registry hreg fun j _ => inv.bound j,
      rfl, by simp, fun j hj => by simp [hj]⟩

theorem inv_congr (inv : Inv c) (htmu : c'.tmu = c.tmu)
    (hdefault : c'.defaultTexture = c.defaultTexture) (htextures : c'.textures = c.textures)
    (hheap : c'.heap = c.heap) (hnext : c'.nextObject = c.nextObject) : Inv c' := by
  have hreg : registered c' = registered c := by
    funext name
    simp only [registered, hdefault, htextures]
  obtain ⟨⟨counts, live, fresh, own⟩, bound⟩ := inv
  refine ⟨⟨?_, ?_, ?_, ?_⟩, ?_⟩
  · rwa [hheap]
  · rwa [hreg, hheap]
  · rwa [hheap, hnext]
  · rwa [hreg]
  · intro i
    unfold Bound
    rw [hreg, htmu]
    exact bound i

theorem inv_oglesError (inv : Inv c) (error : GLenum) : Inv (oglesError c error) :=
  inv_congr inv rfl rfl rfl rfl rfl

def register (c : Context) (name : UInt32) (o : TextureObject) : Context :=
  { (newObject c o).1 with textures := Function.update c.textures name (some c.nextObject) }

theorem registered_register (nonzero : name ≠ 0) (o : TextureObject) (name' : UInt32) :
    registered (register c name o) name' =
      if name' = name then some c.nextObject else registered c name' := by
  by_cases same : name' = name
  · subst same
    simp [registered, register, nonzero]
  · by_cases zero : name' = 0
    · simp [registered, register, newObject, zero, nonzero.symm]
    · simp [registered, register, newObject, same]

theorem registry_register (registry : Registry c) (nonzero : name ≠ 0) {o : TextureObject}
    (count : o.mCount = 0) : Registry (register c name o) := by
  have heapOf (object : ObjectId) : (register c name o).heap object =
      if object = c.nextObject then some o else c.heap object := by
    simp [register, newObject, Function.update_apply]
  have old {name' : UInt32} {object : ObjectId} (h : registered c name' = some object) :
      object ≠ c.nextObject := Nat.ne_of_lt (registry.fresh _ (registry.live _ _ h))
  refine ⟨?_, ?_, ?_, ?_⟩
  · intro object o' ho'
    rw [heapOf] at ho'
    split_ifs at ho' with new
    · rw [← Option.some_inj.mp ho', count]
    · exact registry.counts _ _ ho'
  · intro name' object hreg
    rw [registered_register nonzero] at hreg
    rw [heapOf]
    by_cases new : object = c.nextObject
    · rw [if_pos new]
      rfl
    rw [if_neg new]
    split_ifs at hreg with same
    · exact absurd (Option.some_inj.mp hreg).symm new
    · exact registry.live _ _ hreg
  · intro object hlive
    rw [heapOf] at hlive
    change object < c.nextObject + 1
    split_ifs at hlive with new
    · exact new ▸ Nat.lt_succ_self _
    · exact Nat.lt_succ_of_lt (registry.fresh _ hlive)
  · intro name' name'' object h' h''
    rw [registered_register nonzero] at h' h''
    split_ifs at h' h'' with same' same'' same''
    · rw [same', same'']
    · exact absurd (Option.some_inj.mp h').symm (old h'')
    · exact absurd (Option.some_inj.mp h'').symm (old h')
    · exact registry.own _ _ _ h' h''

theorem bound_register (bound : Bound c i) (nonzero : name ≠ 0) (o : TextureObject)
    (other : (c.tmu i).name ≠ name) : Bound (register c name o) i := by
  obtain ⟨object, hreg, htex⟩ := bound
  refine ⟨object, ?_, htex⟩
  rw [registered_register nonzero]
  exact (if_neg other).trans hreg

theorem createTexture_eq (h : c.textures name = none) :
    createTexture c name = (register c name {}, some c.nextObject) := by
  simp only [createTexture, h]
  rfl

def bindReaches (target : GLenum) : Prop :=
  target = GL.texture2D ∨ target = GL.textureExternalOes

theorem unitIndex_of_lt (h : c.active < textureUnitCount) : ∃ i, unitIndex c.active = some i := ⟨⟨c.active, h⟩, dif_pos h⟩

/-- What `glBindTexture` leaves: at most one new name, the one that was bound. -/
structure BoundTexture (c : Context) (target : GLenum) (texture : UInt32) (c' : Context) :
    Prop where
  inv : Inv c'
  active : c'.active = c.active
  tokenizer : c'.tokenizer = c.tokenizer
  names : ∀ name, (c'.textures name).isSome →
    (c.textures name).isSome ∨ name = texture ∧ texture ≠ 0 ∧ bindReaches target

theorem Rebound.boundTexture {texture : UInt32} (reb : Rebound c i texture c') (target : GLenum) :
    BoundTexture c target texture c' := by
  obtain ⟨inv, frame, -, -⟩ := reb
  rw [frame] at inv ⊢
  exact ⟨inv, rfl, rfl, fun _ h => Or.inl h⟩

theorem oglesError_boundTexture (inv : Inv c) (target : GLenum) (texture : UInt32) (error : GLenum) :
    BoundTexture c target texture (oglesError c error) :=
  ⟨inv_oglesError inv error, rfl, rfl, fun _ h => Or.inl h⟩

theorem glBindTexture_spec (inv : Inv c) (target : GLenum) (texture : UInt32)
    (inside : bindReaches target → c.active < textureUnitCount) :
    ∃ c', glBindTexture c target texture = some c' ∧ BoundTexture c target texture c' := by
  unfold glBindTexture
  split_ifs with reject zero
  · exact ⟨_, rfl, oglesError_boundTexture inv target texture _⟩
  · obtain ⟨i, hi⟩ := unitIndex_of_lt (inside (by unfold bindReaches; tauto))
    obtain ⟨c', hbind, reb⟩ := @bindTextureTmu_rebound c inv i texture c.defaultTexture
      (by rw [registered, if_pos zero])
    exact ⟨c', by simp only [hi, Option.bind_some, hbind], reb.boundTexture target⟩
  · have reaches : bindReaches target := by unfold bindReaches; tauto
    obtain ⟨i, hi⟩ := unitIndex_of_lt (inside reaches)
    rcases hlookup : c.textures texture with _ | object
    · have absent (j : Fin 2) : (c.tmu j).name ≠ texture := by
        intro heq
        obtain ⟨object, hreg, -⟩ := inv.bound j
        rw [heq, registered, if_neg zero, hlookup] at hreg
        cases hreg
      have inv' : Inv (register c texture {}) :=
        ⟨registry_register inv.registry zero rfl,
          fun j => bound_register (inv.bound j) zero _ (absent j)⟩
      obtain ⟨c', hbind, reb⟩ := @bindTextureTmu_rebound _ inv' i texture c.nextObject
        (by rw [registered_register zero, if_pos rfl])
      have new := reb.boundTexture target
      refine ⟨c', ?_, ⟨new.inv, new.active, new.tokenizer, fun name h => ?_⟩⟩
      · simp only [createTexture_eq hlookup]
        rw [show (register c texture {}).active = c.active from rfl, hi, Option.bind_some, hbind]
      · rcases new.names name h with h | h
        · by_cases same : name = texture
          · exact Or.inr ⟨same, zero, reaches⟩
          · left
            simpa [register, same] using h
        · exact Or.inr h
    · obtain ⟨c', hbind, reb⟩ := @bindTextureTmu_rebound c inv i texture object
        (by rw [registered, if_neg zero, hlookup])
      exact ⟨c', by simp only [hi, Option.bind_some, hbind], reb.boundTexture target⟩

def Alone (c : Context) : Prop :=
  ∀ i, unitIndex c.active = some i →
    (c.tmu i).name = 0 ∨ ∀ j, j ≠ i → (c.tmu j).name ≠ (c.tmu i).name

/-- The active unit exists, and an upload to level 0 does not replace an object another unit
refers to. -/
def SurfaceSafe (c : Context) (level : Nat) (format type : GLenum) : Prop :=
  convertGLPixelFormat format type ≠ 0 →
    c.active < textureUnitCount ∧ (level = 0 → Alone c)

/-- Between two coherent contexts no unit changed its name, and the active unit is the same. -/
structure SameNames (c c' : Context) : Prop where
  inv : Inv c'
  names : ∀ j, (c'.tmu j).name = (c.tmu j).name
  active : c'.active = c.active
  default : c'.defaultTexture = c.defaultTexture

theorem SameNames.trans {c'' : Context} (h : SameNames c c') (h' : SameNames c' c'') :
    SameNames c c'' :=
  ⟨h'.inv, fun j => (h'.names j).trans (h.names j), h'.active.trans h.active,
    h'.default.trans h.default⟩

theorem invalidateTexture_same (inv : Inv c) (i : Fin 2) : SameNames c (invalidateTexture c i) := by
  have fields (j : Fin 2) : ((invalidateTexture c i).tmu j).name = (c.tmu j).name ∧
      ((invalidateTexture c i).tmu j).texture = (c.tmu j).texture := by
    by_cases same : j = i
    · subst same
      simp [invalidateTexture]
    · simp [invalidateTexture, same]
  obtain ⟨⟨counts, live, fresh, own⟩, bound⟩ := inv
  refine ⟨⟨⟨counts, live, fresh, own⟩, fun j => ?_⟩, fun j => (fields j).1, rfl, rfl⟩
  obtain ⟨object, hreg, htex⟩ := bound j
  refine ⟨object, ?_, (fields j).2.trans htex⟩
  rw [(fields j).1]
  exact hreg

theorem invalidateDefault_same (inv : Inv c) : SameNames c (invalidateDefault c) := by
  have fold (is : List (Fin 2)) (c' : Context) (same : SameNames c c') :
      SameNames c (is.foldl (fun c i =>
        if (c.tmu i).texture = some c.defaultTexture then invalidateTexture c i else c) c') := by
    induction is generalizing c' with
    | nil => exact same
    | cons i is ih =>
      refine ih _ ?_
      simp only
      split_ifs
      · exact same.trans (invalidateTexture_same same.inv i)
      · exact same
  exact fold _ c ⟨inv, fun _ => rfl, rfl, rfl⟩

theorem setUnit_same (registry : Registry c) (hreg : registered c (c.tmu i).name = some object)
    (others : ∀ j, j ≠ i → Bound c j) : SameNames c (setUnit c i (c.tmu i).name object) := by
  refine ⟨inv_setUnit registry hreg others, fun j => ?_, rfl, rfl⟩
  by_cases same : j = i
  · subst same
    simp
  · simp [same]

theorem replaceTexture_eq (registry : Registry c) (nonzero : name ≠ 0) {old : ObjectId}
    (hreg : registered c name = some old) :
    ∃ o : TextureObject, o.mCount = 0 ∧
      replaceTexture c name = some (register c name o, some c.nextObject) := by
  obtain ⟨o, ho⟩ := Option.isSome_iff_exists.mp (registry.live _ _ hreg)
  have shared : ¬o.mCount = 1 := by simp [registry.counts _ _ ho]
  rw [registered, if_neg nonzero] at hreg
  refine ⟨copyParameters o, rfl, ?_⟩
  simp only [replaceTexture, hreg, ho, if_neg shared]
  rfl

theorem getAndBindActiveTextureObject_same (inv : Inv c) (inside : c.active < textureUnitCount)
    (alone : Alone c) :
    ∃ c' object, getAndBindActiveTextureObject c = some (c', object) ∧ SameNames c c' := by
  obtain ⟨i, hi⟩ := unitIndex_of_lt inside
  simp only [getAndBindActiveTextureObject, hi, Option.bind_some, releaseUnit_eq inv]
  by_cases zero : (c.tmu i).name = 0
  · have same := invalidateDefault_same inv
    have hreg : registered (invalidateDefault c) ((invalidateDefault c).tmu i).name =
        some c.defaultTexture := by
      rw [same.names, registered, if_pos zero, same.default]
    have done := setUnit_same same.inv.registry hreg fun j _ => same.inv.bound j
    rw [same.names] at done hreg
    refine ⟨_, c.defaultTexture, ?_, same.trans done⟩
    rw [if_pos zero, Option.bind_some, Option.bind_some,
      attachUnit_eq (same.inv.registry.live _ _ hreg), Option.map_some]
  · have others := (alone i hi).resolve_left zero
    obtain ⟨old, hold, -⟩ := inv.bound i
    obtain ⟨o, count, hreplace⟩ := replaceTexture_eq inv.registry zero hold
    have registry := registry_register inv.registry zero count
    have hreg : registered (register c (c.tmu i).name o) (c.tmu i).name = some c.nextObject := by
      rw [registered_register zero, if_pos rfl]
    have done := setUnit_same (i := i) registry hreg fun j hj =>
      bound_register (inv.bound j) zero o (others j hj)
    refine ⟨_, c.nextObject, ?_, ⟨done.inv, done.names, done.active, done.default⟩⟩
    rw [if_neg zero, hreplace, Option.bind_some, Option.bind_some,
      attachUnit_eq (registry.live _ _ hreg), Option.map_some]
    rfl

theorem storeImage_same (inv : Inv c) (object : ObjectId) (format : GLenum)
    {image : Option TextureObject}
    (himage : image = (c.heap object).map fun o => { o with internalformat := format }) :
    SameNames c { c with heap := Function.update c.heap object image } := by
  have stored (object' : ObjectId) :
      (Function.update c.heap object image object').isSome = (c.heap object').isSome ∧
        ∀ o, Function.update c.heap object image object' = some o → o.mCount = 0 := by
    by_cases same : object' = object
    · subst same
      rw [Function.update_self, himage, Option.isSome_map]
      refine ⟨rfl, fun o ho => ?_⟩
      obtain ⟨o', ho', rfl⟩ := Option.map_eq_some_iff.mp ho
      have count := inv.registry.counts _ _ ho'
      exact count
    · rw [Function.update_of_ne same]
      exact ⟨rfl, inv.registry.counts _⟩
  obtain ⟨⟨counts, live, fresh, own⟩, bound⟩ := inv
  refine ⟨⟨⟨?_, ?_, ?_, own⟩, bound⟩, fun _ => rfl, rfl, rfl⟩
  · exact fun object' o ho => (stored object').2 o ho
  · exact fun name object' hreg => (stored object').1.trans (live name object' hreg)
  · exact fun object' hlive => fresh object' ((stored object').1.symm.trans hlive)

theorem createTextureSurface_same (inv : Inv c) (level : Nat) (format type : GLenum) (mem : Memory)
    (safe : SurfaceSafe c level format type) :
    ∃ r, createTextureSurface c level format type mem = some r ∧ SameNames c r.1 := by
  have refl : SameNames c c := ⟨inv, fun _ => rfl, rfl, rfl⟩
  unfold createTextureSurface
  by_cases noFormat : convertGLPixelFormat format type = 0
  · rw [if_pos noFormat]
    exact ⟨_, rfl, refl⟩
  obtain ⟨inside, alone⟩ := safe noFormat
  rw [if_neg noFormat]
  by_cases deeper : 0 < level
  · obtain ⟨i, hi⟩ := unitIndex_of_lt inside
    obtain ⟨object, -, htex⟩ := inv.bound i
    rw [if_pos deeper, hi, Option.bind_some, htex, Option.map_some]
    exact ⟨_, rfl, refl⟩
  · obtain ⟨c', object, hbind, same⟩ :=
      getAndBindActiveTextureObject_same inv inside (alone (by omega))
    rw [if_neg deeper, hbind, Option.map_some]
    refine ⟨_, rfl, ?_⟩
    simp only
    split_ifs
    · exact same.trans (storeImage_same same.inv object format rfl)
    · exact same

theorem inv_finishUpload {mem : Memory} {r : Context × GLenum} (inv : Inv r.1) :
    Inv (finishUpload mem r) := by
  unfold finishUpload
  split_ifs
  · exact inv_oglesError inv _
  · exact inv
  · exact inv_oglesError inv _

theorem uploadLevels_inv (levels : List Nat) (inv : Inv c) (format type : GLenum) (mem : Memory)
    (safe : ∀ level ∈ levels, SurfaceSafe c level format type) :
    ∃ c', uploadLevels c format type mem levels = some c' ∧ Inv c' := by
  induction levels generalizing c with
  | nil => exact ⟨c, rfl, inv⟩
  | cons level levels ih =>
    obtain ⟨r, hr, same⟩ :=
      createTextureSurface_same inv level format type mem (safe level (by simp))
    rw [uploadLevels, hr, Option.bind_some]
    split_ifs with err
    · exact ⟨_, rfl, inv_oglesError same.inv _⟩
    · refine ih same.inv fun level' h' => ?_
      intro known
      obtain ⟨inside, alone⟩ := safe level' (by simp [h']) known
      refine ⟨same.active ▸ inside, fun zero i hi => ?_⟩
      simpa only [same.names] using alone zero i (same.active ▸ hi)

def Spared (c : Context) (i : Fin 2) (names : List UInt32) : Prop :=
  ∀ name ∈ names, name ≠ 0 → name ≠ (c.tmu i).name

theorem spared_of_zero (zero : (c.tmu i).name = 0) (names : List UInt32) : Spared c i names := fun _ _ nonzero heq => nonzero (heq.trans zero)

theorem unbindDeleted_of_spared (spared : Spared c i names) : unbindDeleted i c names = some c := by
  induction names with
  | nil => rfl
  | cons name names ih =>
    rw [unbindDeleted, if_neg fun hit => spared name (by simp) hit.1 hit.2]
    exact ih fun name' h' => spared name' (by simp [h'])

theorem unbindDeleted_of_not_spared (inv : Inv c) (hit : ¬Spared c i names) :
    ∃ c', unbindDeleted i c names = some c' ∧ Rebound c i 0 c' := by
  induction names with
  | nil => exact absurd (fun _ h => by cases h) hit
  | cons name names ih =>
    rw [unbindDeleted]
    by_cases here : name ≠ 0 ∧ name = (c.tmu i).name
    · obtain ⟨c', hbind, reb⟩ := @bindTextureTmu_rebound c inv i 0 c.defaultTexture rfl
      rw [if_pos here, hbind, Option.bind_some, unbindDeleted_of_spared (spared_of_zero reb.name _)]
      exact ⟨c', rfl, reb⟩
    · rw [if_neg here]
      refine ih fun spared => hit fun name' h' nonzero heq => ?_
      rcases List.mem_cons.mp h' with rfl | h'
      · exact here ⟨nonzero, heq⟩
      · exact spared name' h' nonzero heq

structure Unbound (c : Context) (i : Fin 2) (names : List UInt32) (c' : Context) : Prop where
  inv : Inv c'
  frame : c' = { c with tmu := c'.tmu }
  spared : Spared c' i names
  others : ∀ j, j ≠ i → c'.tmu j = c.tmu j

theorem unbindUnit_spec (inv : Inv c) (names : List UInt32) (i : Fin 2) :
    ∃ c', unbindUnit names c i = some c' ∧ Unbound c i names c' := by
  unfold unbindUnit
  by_cases zero : (c.tmu i).name = 0
  · rw [if_pos zero]
    exact ⟨c, rfl, inv, rfl, spared_of_zero zero names, fun _ _ => rfl⟩
  rw [if_neg zero]
  by_cases spared : Spared c i names
  · exact ⟨c, unbindDeleted_of_spared spared, inv, rfl, spared, fun _ _ => rfl⟩
  · obtain ⟨c', hc', reb⟩ := unbindDeleted_of_not_spared inv spared
    exact ⟨c', hc', reb.inv, reb.frame, spared_of_zero reb.name names, reb.others⟩

theorem removeTextures_inv (inv : Inv c) (spared : ∀ i, Spared c i names) :
    Inv (removeTextures c names) := by
  have fewer {name : UInt32} {object : ObjectId}
      (h : registered (removeTextures c names) name = some object) :
      registered c name = some object := by
    by_cases zero : name = 0
    · rw [registered, if_pos zero] at h ⊢
      exact h
    · rw [registered, if_neg zero] at h ⊢
      simp only [removeTextures] at h
      split_ifs at h
      exact h
  obtain ⟨⟨counts, live, fresh, own⟩, bound⟩ := inv
  refine ⟨⟨counts, fun _ _ h => live _ _ (fewer h), fresh,
    fun _ _ _ h h' => own _ _ _ (fewer h) (fewer h')⟩, fun i => ?_⟩
  obtain ⟨object, hreg, htex⟩ := bound i
  refine ⟨object, ?_, htex⟩
  by_cases zero : (c.tmu i).name = 0
  · rw [registered, if_pos zero] at hreg
    exact (if_pos zero).trans hreg
  · rw [registered, if_neg zero] at hreg
    refine (if_neg zero).trans ?_
    simp only [removeTextures]
    rw [if_neg fun hit => spared i _ hit.2 hit.1 rfl, hreg]

/-- What `glDeleteTextures` leaves: the names are gone, and their tokens are recycled. -/
structure DeletedTextures (c : Context) (names : List UInt32) (c' : Context) : Prop where
  inv : Inv c'
  active : c'.active = c.active
  tokenizer : c'.tokenizer = Tokens.TokenManager.recycleTokens c.tokenizer names
  textures : c'.textures = (removeTextures c names).textures

theorem glDeleteTextures_spec (inv : Inv c) {n : Int} (nonneg : ¬n < 0) (textures : List UInt32) :
    ∃ c', glDeleteTextures c n textures = some c' ∧
      DeletedTextures c (textures.take n.toNat) c' := by
  unfold glDeleteTextures
  rw [if_neg nonneg]
  obtain ⟨c₁, h₁, first⟩ := unbindUnit_spec inv (textures.take n.toNat) 0
  obtain ⟨c₂, h₂, second⟩ := unbindUnit_spec first.inv (textures.take n.toNat) 1
  have spared : ∀ i, Spared c₂ i (textures.take n.toNat) := by
    refine Fin.forall_fin_two.mpr ⟨fun name h nonzero => ?_, second.spared⟩
    rw [second.others 0 (by decide)]
    exact first.spared name h nonzero
  simp only [h₁, h₂, Option.bind_some, Option.map_some]
  refine ⟨_, rfl, inv_congr (removeTextures_inv second.inv spared) rfl rfl rfl rfl rfl, ?_, ?_, ?_⟩
  all_goals
    rw [second.frame, first.frame]
    rfl

theorem glDeleteTextures_inv (inv : Inv c) (n : Int) (textures : List UInt32) :
    ∃ c', glDeleteTextures c n textures = some c' ∧ Inv c' := by
  by_cases negative : n < 0
  · exact ⟨_, by rw [glDeleteTextures, if_pos negative], inv_oglesError inv _⟩
  · obtain ⟨c', hc', deleted⟩ := glDeleteTextures_spec inv negative textures
    exact ⟨c', hc', deleted.inv⟩

inductive Op where
  | activeTexture (texture : GLenum)
  | bindTexture (target : GLenum) (texture : UInt32)
  | texImage2D (a : TexImage) (mem : Memory)
  | compressedTexImage2D (a : CompressedTexImage) (mem : Memory)
  | copyTexImage2D (a : CopyTexImage) (mem : Memory)
  | genTextures (n : Int)
  | deleteTextures (n : Int) (textures : List UInt32)

/-- One call. There is no context left once a call has indexed outside the array of units or
followed a null pointer. -/
def call (c : Context) : Op → Option Context
  | .activeTexture texture => some (glActiveTexture c texture)
  | .bindTexture target texture => glBindTexture c target texture
  | .texImage2D a mem => glTexImage2D c a mem
  | .compressedTexImage2D a mem => glCompressedTexImage2D c a mem
  | .copyTexImage2D a mem => glCopyTexImage2D c a mem
  | .genTextures n => some (glGenTextures c n).1
  | .deleteTextures n textures => glDeleteTextures c n textures

def step (c : Option Context) (op : Op) : Option Context := c.bind fun c => call c op

/-- The call does not use a unit that does not exist, and it does not upload through one unit
the image of a name that another unit holds. -/
def Op.Safe (c : Context) : Op → Prop
  | .bindTexture target _ => bindReaches target → c.active < textureUnitCount
  | .texImage2D a _ => a.reject = GL.noError → SurfaceSafe c a.level.toNat a.format a.type
  | .copyTexImage2D a _ => a.reject = GL.noError → SurfaceSafe c a.level.toNat a.format a.type
  | .compressedTexImage2D a _ => a.reject = GL.noError → ¬a.empty →
      ∀ p ∈ paletteFormat a.internalformat, SurfaceSafe c 0 p.1 p.2
  | _ => True

def Safe (c : Option Context) (op : Op) : Prop := ∀ c' ∈ c, op.Safe c'

theorem call_inv (inv : Inv c) (op : Op) (safe : op.Safe c) :
    ∃ c', call c op = some c' ∧ Inv c' := by
  cases op with
  | activeTexture texture =>
    refine ⟨_, rfl, ?_⟩
    unfold glActiveTexture
    split_ifs
    · exact inv_oglesError inv _
    · exact inv_congr inv rfl rfl rfl rfl rfl
  | bindTexture target texture =>
    obtain ⟨c', hc', bound⟩ := glBindTexture_spec inv target texture safe
    exact ⟨c', hc', bound.inv⟩
  | texImage2D a mem | copyTexImage2D a mem =>
    simp only [call, glTexImage2D, glCopyTexImage2D]
    split_ifs with reject
    · exact ⟨_, rfl, inv_oglesError inv _⟩
    · obtain ⟨r, hr, same⟩ := createTextureSurface_same inv _ _ _ mem (safe (not_not.mp reject))
      exact ⟨_, by rw [hr, Option.map_some], inv_finishUpload same.inv⟩
  | compressedTexImage2D a mem =>
    simp only [call, glCompressedTexImage2D]
    split_ifs with reject empty
    · exact ⟨_, rfl, inv_oglesError inv _⟩
    · exact ⟨c, rfl, inv⟩
    · rcases hformat : paletteFormat a.internalformat with _ | ⟨format, type⟩
      · exact ⟨c, rfl, inv⟩
      · have surface := safe (not_not.mp reject) empty (format, type) hformat
        refine uploadLevels_inv _ inv format type mem fun level _ known => ?_
        exact ⟨(surface known).1, fun _ => (surface known).2 rfl⟩
  | genTextures n =>
    refine ⟨_, rfl, ?_⟩
    unfold glGenTextures
    split_ifs
    · exact inv_oglesError inv _
    · exact inv_congr inv rfl rfl rfl rfl rfl
  | deleteTextures n textures => exact glDeleteTextures_inv inv n textures

def unboundContext : Context :=
  { active := 0, tmu := fun _ => ⟨0, none, 0⟩, defaultTexture := 0,
    tokenizer := Tokens.TokenManager.init, textures := fun _ => none,
    heap := Function.update (fun _ => none) 0 (some {}), nextObject := 1, error := GL.noError }

private theorem registry_unboundContext : Registry unboundContext := by
  have only (name : UInt32) (object : ObjectId) (h : registered unboundContext name = some object) :
      name = 0 ∧ object = 0 := by
    unfold registered at h
    split_ifs at h with zero
    · exact ⟨zero, (Option.some_inj.mp h).symm⟩
    · cases h
  have heapOf (object : ObjectId) :
      unboundContext.heap object = if object = 0 then some {} else none := by
    simp [unboundContext, Function.update_apply]
  refine ⟨?_, ?_, ?_, ?_⟩
  · intro object o ho
    rw [heapOf] at ho
    split_ifs at ho
    exact Option.some_inj.mp ho ▸ rfl
  · intro name object h
    rw [(only name object h).2]
    rfl
  · intro object h
    rw [heapOf] at h
    split_ifs at h with zero
    · exact zero ▸ Nat.one_pos
    · cases h
  · intro name name' object h h'
    rw [(only _ _ h).1, (only _ _ h').1]

theorem init_eq :
    oglesInitTexture = some (setUnit (setUnit unboundContext 0 0 0) 1 0 0) := by
  have fresh (c : Context) (i : Fin 2) (hnull : (c.tmu i).texture = none)
      (live : (c.heap 0).isSome) : bindTextureTmu c i 0 (some 0) = some (setUnit c i 0 0) := by
    simp only [bindTextureTmu, hnull, reduceCtorEq, if_false, releaseUnit, Option.bind_some,
      attachUnit_eq live]
  have unfolded : oglesInitTexture = (incStrong unboundContext 0).bind fun c =>
      (bindTextureTmu c 0 0 (some 0)).bind fun c => bindTextureTmu c 1 0 (some 0) := rfl
  rw [unfolded, incStrong_eq rfl, Option.bind_some, fresh _ 0 rfl rfl, Option.bind_some,
    fresh _ 1 rfl rfl]

theorem init_inv : ∃ c, oglesInitTexture = some c ∧ Inv c := by
  have reg : registered unboundContext 0 = some 0 := rfl
  have first : Registry (setUnit unboundContext 0 0 0) :=
    ⟨registry_unboundContext.counts, registry_unboundContext.live, registry_unboundContext.fresh,
      registry_unboundContext.own⟩
  refine ⟨_, init_eq, inv_setUnit first reg fun j hj => ?_⟩
  obtain rfl : j = 0 := by omega
  exact ⟨0, reg, rfl⟩

/-- Along every run whose uploads spare the objects of other units, the context stays defined
and every unit refers to the object its name stands for. -/
theorem texture_units_coherent (ops pre : List Op) (safe : Guarded step Safe oglesInitTexture ops)
    (hpre : pre <+: ops) : ∃ c, run step oglesInitTexture pre = some c ∧ Coherent c := by
  have reach : ∃ c, run step oglesInitTexture pre = some c ∧ Inv c := by
    have keeps (c : Option Context) (op : Op) (hc : ∃ c', c = some c' ∧ Inv c')
        (ok : Safe c op) : ∃ c', step c op = some c' ∧ Inv c' := by
      obtain ⟨c', rfl, inv⟩ := hc
      exact call_inv inv op (ok c' rfl)
    exact run_invariant_prefix keeps init_inv safe hpre
  obtain ⟨c, hc, inv⟩ := reach
  exact ⟨c, hc, inv.coherent⟩

private def onePixel : TexImage :=
  { target := GL.texture2D, level := 0, internalformat := GL.rgba, width := 1, height := 1,
    border := 0, format := GL.rgba, type := GL.unsignedByte }

private theorem init_names : ∀ c ∈ oglesInitTexture, c.active = 0 ∧ ∀ i, (c.tmu i).name = 0 := by
  have fields : oglesInitTexture.map (fun c => (c.active, (c.tmu 0).name, (c.tmu 1).name)) =
      some (0, 0, 0) := by decide +kernel
  intro c hc
  rw [Option.mem_def.mp hc, Option.map_some, Option.some_inj, Prod.mk.injEq, Prod.mk.injEq] at fields
  exact ⟨fields.1, Fin.forall_fin_two.mpr fields.2⟩

/-- An upload to the default texture, then a bind. -/
theorem texture_units_coherent_upload_bind :
    ∃ c, run step oglesInitTexture
      [.texImage2D onePixel ⟨fun _ => true, true⟩, .bindTexture GL.texture2D 5] = some c ∧
        Coherent c := by
  refine texture_units_coherent [.texImage2D onePixel ⟨fun _ => true, true⟩,
    .bindTexture GL.texture2D 5] _ ⟨fun c hc => ?_, fun c hc => ?_, trivial⟩ (List.prefix_refl _)
  · obtain ⟨active, names⟩ := init_names c hc
    exact fun _ _ => ⟨by rw [active]; decide, fun _ i _ => Or.inl (names i)⟩
  · have active : (step oglesInitTexture (.texImage2D onePixel ⟨fun _ => true, true⟩)).map
        (·.active) = some 0 := by decide +kernel
    rw [Option.mem_def.mp hc, Option.map_some, Option.some_inj] at active
    exact fun _ => by rw [active]; decide

/-- One name bound to both units, then an upload through the second: the first unit keeps the
object that was registered before. -/
theorem upload_leaves_other_unit_behind :
    ∃ c, run step oglesInitTexture
      [.bindTexture GL.texture2D 5, .activeTexture (GL.texture0 + 1),
        .bindTexture GL.texture2D 5, .texImage2D onePixel ⟨fun _ => true, true⟩] = some c ∧
      (c.tmu 0).name = 5 ∧ c.textures 5 = some 2 ∧ (c.tmu 0).texture = some 1 ∧ ¬Coherent c := by
  have fields : (run step oglesInitTexture
      [.bindTexture GL.texture2D 5, .activeTexture (GL.texture0 + 1),
        .bindTexture GL.texture2D 5, .texImage2D onePixel ⟨fun _ => true, true⟩]).map
      (fun c => ((c.tmu 0).name, c.textures 5, (c.tmu 0).texture)) =
        some (5, some 2, some 1) := by decide +kernel
  obtain ⟨c, hc, hfields⟩ := Option.map_eq_some_iff.mp fields
  rw [Prod.mk.injEq, Prod.mk.injEq] at hfields
  obtain ⟨hname, hobject, htex⟩ := hfields
  refine ⟨c, hc, hname, hobject, htex, fun coherent => ?_⟩
  obtain ⟨object, hreg, hbound⟩ := (coherent 0).2 (by rw [hname]; decide)
  rw [hname, hobject] at hreg
  rw [htex, ← hreg] at hbound
  exact absurd hbound (by decide)

end RabbitRender.Textures.Coherence
