/- RabbitRender/Textures/Frames
   layer: proof
   source: swrender/texture.cpp, swrender/TextureObjectManager.cpp
   digest: The texture calls mark every unit they change, and no object loses its modes to them. -/

import RabbitRender.Textures.Coherence

set_option autoImplicit false

namespace RabbitRender.Textures.Frames

open RabbitRender.GL (GLenum)
open Textures.Units Textures.Coherence

structure Valid (o : TextureObject) : Prop where
  wraps : o.wraps ∈ [GL.repeatWrap, GL.clampToEdge]
  wrapt : o.wrapt ∈ [GL.repeatWrap, GL.clampToEdge]
  minFilter : o.minFilter ∈ [GL.nearest, GL.linear, GL.nearestMipmapNearest,
    GL.linearMipmapNearest, GL.nearestMipmapLinear, GL.linearMipmapLinear]
  magFilter : o.magFilter ∈ [GL.nearest, GL.linear]

structure Held (c : Context) : Prop where
  counts : ∀ object o, c.heap object = some o → o.mCount = 0
  valid : ∀ object o, c.heap object = some o → Valid o
  named : ∀ name object, registered c name = some object → (c.heap object).isSome
  fresh : ∀ object, (c.heap object).isSome → object < c.nextObject
  bound : ∀ i, ∃ object, (c.tmu i).texture = some object ∧ (c.heap object).isSome

def modes (o : TextureObject) : GLenum × GLenum × GLenum × GLenum :=
  (o.wraps, o.wrapt, o.minFilter, o.magFilter)

theorem Valid.of_modes {o o' : TextureObject} (valid : Valid o) (same : modes o' = modes o) :
    Valid o' := by
  simp only [modes, Prod.mk.injEq] at same
  obtain ⟨wraps, wrapt, minFilter, magFilter⟩ := same
  constructor
  · rw [wraps]
    exact valid.wraps
  · rw [wrapt]
    exact valid.wrapt
  · rw [minFilter]
    exact valid.minFilter
  · rw [magFilter]
    exact valid.magFilter

theorem valid_new : Valid {} := by
  constructor <;> decide

/-- The active unit is the same, a unit that is not marked is as before, and the objects keep
their modes. -/
structure Rebinds (c c' : Context) : Prop where
  held : Held c'
  active : c'.active = c.active
  unit : ∀ i, c'.tmu i = c.tmu i ∨ (c'.tmu i).dirty = 0xFF
  kept : ∀ object o, c.heap object = some o → ∃ o', c'.heap object = some o' ∧ modes o' = modes o

namespace Rebinds

variable {c c' c'' : Context}

theorem refl (held : Held c) : Rebinds c c :=
  ⟨held, rfl, fun _ => .inl rfl, fun _ o ho => ⟨o, ho, rfl⟩⟩

theorem trans (h : Rebinds c c') (h' : Rebinds c' c'') : Rebinds c c'' := by
  refine ⟨h'.held, h'.active.trans h.active, ?_, ?_⟩
  · intro i
    rcases h'.unit i with same' | marked
    · rw [same']
      exact h.unit i
    · exact .inr marked
  · intro object o ho
    obtain ⟨o', ho', same⟩ := h.kept object o ho
    obtain ⟨o'', ho'', same'⟩ := h'.kept object o' ho'
    exact ⟨o'', ho'', same'.trans same⟩

end Rebinds

theorem rebinds_frame {c : Context} (held : Held c) (tokenizer : Tokens.Tokenizer.Ranges)
    (error : GLenum) : Rebinds c { c with tokenizer := tokenizer, error := error } :=
  ⟨⟨held.counts, held.valid, held.named, held.fresh, held.bound⟩, rfl, fun _ => .inl rfl,
    fun _ o ho => ⟨o, ho, rfl⟩⟩

theorem rebinds_error {c : Context} (held : Held c) (error : GLenum) :
    Rebinds c (oglesError c error) :=
  rebinds_frame held c.tokenizer _

variable {object : ObjectId} {i : Fin 2} {format type : GLenum} {mem : Memory}

theorem rebinds_unit {c : Context} (held : Held c) (i : Fin 2) (name : UInt32)
    (live : (c.heap object).isSome) : Rebinds c (setUnit c i name object) := by
  refine ⟨⟨held.counts, held.valid, held.named, held.fresh, ?_⟩, rfl, ?_, fun _ o ho => ⟨o, ho, rfl⟩⟩
  · intro j
    by_cases same : j = i
    · subst same
      exact ⟨object, by rw [setUnit_self], live⟩
    · rw [setUnit_of_ne c same]
      exact held.bound j
  · intro j
    by_cases same : j = i
    · subst same
      rw [setUnit_self]
      exact .inr rfl
    · rw [setUnit_of_ne c same]
      exact .inl rfl

theorem invalidate_eq {c : Context} (bound : (c.tmu i).texture = some object) :
    invalidateTexture c i = setUnit c i (c.tmu i).name object := by
  unfold invalidateTexture setUnit
  rw [← bound]

theorem rebinds_invalidate {c : Context} (held : Held c) (i : Fin 2) :
    Rebinds c (invalidateTexture c i) := by
  obtain ⟨object, bound, live⟩ := held.bound i
  rw [invalidate_eq bound]
  exact rebinds_unit held i _ live

theorem held_edit {c : Context} (held : Held c) (object : ObjectId)
    {f : TextureObject → TextureObject} (count : ∀ o, (f o).mCount = o.mCount)
    (valid : ∀ o, Valid o → Valid (f o)) :
    Held { c with heap := Function.update c.heap object ((c.heap object).map f) } := by
  have heapOf (x : ObjectId) : (Function.update c.heap object ((c.heap object).map f)) x =
      if x = object then (c.heap x).map f else c.heap x := by
    rw [Function.update_apply]
    split_ifs with here
    · rw [here]
    · rfl
  have isSome (x : ObjectId) :
      ((Function.update c.heap object ((c.heap object).map f)) x).isSome = (c.heap x).isSome := by
    rw [heapOf]
    split_ifs
    · exact Option.isSome_map
    · rfl
  have origin {x : ObjectId} {o' : TextureObject}
      (ho' : (Function.update c.heap object ((c.heap object).map f)) x = some o') :
      ∃ o, c.heap x = some o ∧ o'.mCount = o.mCount ∧ (Valid o → Valid o') := by
    rw [heapOf] at ho'
    split_ifs at ho' with here
    · obtain ⟨o, ho, rfl⟩ := Option.map_eq_some_iff.mp ho'
      exact ⟨o, ho, count o, valid o⟩
    · exact ⟨o', ho', rfl, id⟩
  refine ⟨?_, ?_, ?_, ?_, ?_⟩
  · intro x o' ho'
    obtain ⟨o, ho, counted, -⟩ := origin ho'
    exact counted.trans (held.counts x o ho)
  · intro x o' ho'
    obtain ⟨o, ho, -, kept⟩ := origin ho'
    exact kept (held.valid x o ho)
  · intro name x reg
    exact (isSome x).trans (held.named name x reg)
  · intro x live
    exact held.fresh x ((isSome x).symm.trans live)
  · intro i
    obtain ⟨x, bound, live⟩ := held.bound i
    exact ⟨x, bound, (isSome x).trans live⟩

theorem rebinds_edit {c : Context} (held : Held c) (object : ObjectId)
    {f : TextureObject → TextureObject} (count : ∀ o, (f o).mCount = o.mCount)
    (same : ∀ o, modes (f o) = modes o) :
    Rebinds c { c with heap := Function.update c.heap object ((c.heap object).map f) } := by
  refine ⟨held_edit held object count fun o valid => valid.of_modes (same o), rfl,
    fun _ => .inl rfl, fun x o ho => ?_⟩
  by_cases here : x = object
  · subst here
    refine ⟨f o, ?_, same o⟩
    change Function.update c.heap x ((c.heap x).map f) x = some (f o)
    rw [Function.update_self, ho, Option.map_some]
  · refine ⟨o, ?_, rfl⟩
    change Function.update c.heap object ((c.heap object).map f) x = some o
    rw [Function.update_of_ne here, ho]

theorem rebinds_register {c : Context} (held : Held c) (name : UInt32) {o : TextureObject}
    (count : o.mCount = 0) (valid : Valid o) : Rebinds c (register c name o) := by
  have heapOf (x : ObjectId) : (register c name o).heap x =
      if x = c.nextObject then some o else c.heap x := by
    simp only [register, newObject, Function.update_apply]
  have old {x : ObjectId} (live : (c.heap x).isSome) : x ≠ c.nextObject :=
    Nat.ne_of_lt (held.fresh x live)
  have live {x : ObjectId} (live : (c.heap x).isSome) : ((register c name o).heap x).isSome := by
    rw [heapOf, if_neg (old live)]
    exact live
  refine ⟨⟨?_, ?_, ?_, ?_, ?_⟩, rfl, fun _ => .inl rfl, ?_⟩
  · intro x o' ho'
    rw [heapOf] at ho'
    split_ifs at ho' with new
    · rw [← Option.some_inj.mp ho', count]
    · exact held.counts x o' ho'
  · intro x o' ho'
    rw [heapOf] at ho'
    split_ifs at ho' with new
    · rw [← Option.some_inj.mp ho']
      exact valid
    · exact held.valid x o' ho'
  · intro name' x reg
    by_cases new : x = c.nextObject
    · rw [heapOf, if_pos new]
      rfl
    · refine live (held.named name' x ?_)
      unfold registered at reg ⊢
      split_ifs at reg ⊢ with zero
      · exact reg
      · simp only [register, Function.update_apply] at reg
        split_ifs at reg with here
        · exact absurd (Option.some_inj.mp reg).symm new
        · exact reg
  · intro x some
    change x < c.nextObject + 1
    rw [heapOf] at some
    split_ifs at some with new
    · exact new ▸ Nat.lt_succ_self _
    · exact Nat.lt_succ_of_lt (held.fresh x some)
  · intro i
    obtain ⟨x, bound, alive⟩ := held.bound i
    exact ⟨x, bound, live alive⟩
  · intro x o' ho'
    refine ⟨o', ?_, rfl⟩
    rw [heapOf, if_neg (old (Option.isSome_of_eq_some ho'))]
    exact ho'

theorem init_held : ∃ c, oglesInitTexture = some c ∧ Held c ∧ c.active = 0 ∧
    ∀ i, (c.tmu i).dirty = 0xFF := by
  obtain ⟨c, made, registry, bound⟩ := init_inv
  obtain rfl := Option.some_inj.mp (init_eq.symm.trans made)
  have only : ∀ object o, unboundContext.heap object = some o → o = {} := by
    intro object o ho
    simp only [unboundContext, Function.update_apply] at ho
    split_ifs at ho
    exact (Option.some_inj.mp ho).symm
  refine ⟨_, made, ⟨registry.counts, ?_, registry.live, registry.fresh, ?_⟩, rfl, ?_⟩
  · intro object o ho
    rw [only object o ho]
    exact valid_new
  · intro i
    obtain ⟨object, reg, texture⟩ := bound i
    exact ⟨object, texture, registry.live _ _ reg⟩
  · exact Fin.forall_fin_two.mpr ⟨rfl, rfl⟩

theorem release_held {c : Context} (held : Held c) (i : Fin 2) : releaseUnit c i = some c := by
  obtain ⟨object, bound, live⟩ := held.bound i
  obtain ⟨o, ho⟩ := Option.isSome_iff_exists.mp live
  simp only [releaseUnit, bound]
  exact decStrong_eq ho (held.counts object o ho)

theorem bind_rebinds {c c' : Context} (held : Held c) (i : Fin 2) (name : UInt32)
    (live : (c.heap object).isSome) (h : bindTextureTmu c i name (some object) = some c') :
    Rebinds c c' := by
  unfold bindTextureTmu at h
  split_ifs at h with same
  · obtain rfl := Option.some_inj.mp h
    exact .refl held
  · rw [release_held held, Option.bind_some, attachUnit_eq live] at h
    obtain rfl := Option.some_inj.mp h
    exact rebinds_unit held i name live

def ActiveMarked (c : Context) : Prop :=
  ∀ i, unitIndex c.active = some i →
    ∀ j, (c.tmu j).texture = (c.tmu i).texture → (c.tmu j).dirty = 0xFF

theorem activeMarked_unit {c : Context} (active : unitIndex c.active = some i) (name : UInt32)
    (marked : ∀ j, (c.tmu j).texture = some object → (c.tmu j).dirty = 0xFF) :
    ActiveMarked (setUnit c i name object) := by
  intro k hk j bound
  obtain rfl : i = k := Option.some_inj.mp (active.symm.trans hk)
  rw [setUnit_self] at bound
  by_cases same : j = i
  · rw [same, setUnit_self]
  · rw [setUnit_of_ne c same] at bound ⊢
    exact marked j bound

theorem invalidateDefault_spec {c : Context} (held : Held c) :
    Rebinds c (invalidateDefault c) ∧ (invalidateDefault c).heap = c.heap ∧
      (invalidateDefault c).defaultTexture = c.defaultTexture ∧
      ∀ j, ((invalidateDefault c).tmu j).texture = some c.defaultTexture →
        ((invalidateDefault c).tmu j).dirty = 0xFF := by
  have turn (c : Context) (held : Held c) (i : Fin 2) :
      let c' := if (c.tmu i).texture = some c.defaultTexture then invalidateTexture c i else c
      Rebinds c c' ∧ c'.heap = c.heap ∧ c'.defaultTexture = c.defaultTexture ∧
        (∀ j, (c'.tmu j).texture = (c.tmu j).texture) ∧
        ((c'.tmu i).texture = some c.defaultTexture → (c'.tmu i).dirty = 0xFF) ∧
        ∀ j, j ≠ i → c'.tmu j = c.tmu j := by
    intro c'
    by_cases bound : (c.tmu i).texture = some c.defaultTexture
    · have marked : c' = setUnit c i (c.tmu i).name c.defaultTexture :=
        (if_pos bound).trans (invalidate_eq bound)
      have live := held.named 0 _ (if_pos rfl)
      rw [marked]
      refine ⟨rebinds_unit held i _ live, rfl, rfl, fun j => ?_, fun _ => ?_, fun j other => ?_⟩
      · by_cases same : j = i
        · rw [same, setUnit_self, bound]
        · rw [setUnit_of_ne c same]
      · rw [setUnit_self]
      · rw [setUnit_of_ne c other]
    · have same : c' = c := if_neg bound
      rw [same]
      exact ⟨.refl held, rfl, rfl, fun _ => rfl, fun h => absurd h bound, fun _ _ => rfl⟩
  obtain ⟨first, heap, default, texture, marked, -⟩ := turn c held 0
  obtain ⟨second, heap', default', texture', marked', others'⟩ := turn _ first.held 1
  refine ⟨first.trans second, heap'.trans heap, default'.trans default, ?_⟩
  refine Fin.forall_fin_two.mpr ⟨fun bound => ?_, fun bound => ?_⟩
  · have there := others' 0 (by decide)
    exact (congrArg TextureUnit.dirty there).trans (marked ((texture' 0).symm.trans bound))
  · rw [← default] at bound
    exact marked' bound

theorem replace_spec {c c' : Context} (held : Held c) {name : UInt32} {tex : Option ObjectId}
    (h : replaceTexture c name = some (c', tex)) :
    Rebinds c c' ∧ c'.active = c.active ∧ ∀ object, tex = some object →
      (c'.heap object).isSome ∧ ∀ j, (c'.tmu j).texture ≠ some object := by
  unfold replaceTexture at h
  split at h
  · obtain ⟨rfl, rfl⟩ := Prod.mk.inj (Option.some_inj.mp h)
    exact ⟨.refl held, rfl, nofun⟩
  · split at h
    · cases h
    · rename_i ho
      have count : _ = (0 : Int) := held.counts _ _ ho
      rw [if_neg (by rw [count]; decide)] at h
      obtain ⟨rfl, rfl⟩ := Prod.mk.inj (Option.some_inj.mp h)
      refine ⟨rebinds_register held name rfl ?_, rfl, fun object new => ?_⟩
      · exact (held.valid _ _ ho).of_modes rfl
      · obtain rfl := Option.some_inj.mp new
        refine ⟨?_, fun j bound => ?_⟩
        · change (Function.update c.heap c.nextObject _ c.nextObject).isSome
          rw [Function.update_self]
          rfl
        · obtain ⟨object', bound', live⟩ := held.bound j
          obtain rfl := Option.some_inj.mp (bound'.symm.trans bound)
          exact absurd (held.fresh _ live) (Nat.lt_irrefl _)

/-- `getAndBindActiveTextureObject` leaves the active unit with the object it returns, and every
unit that has it is marked. -/
theorem getAndBind_spec {c c' : Context} (held : Held c)
    (h : getAndBindActiveTextureObject c = some (c', object)) :
    Rebinds c c' ∧ ActiveMarked c' ∧
      ∃ i, unitIndex c.active = some i ∧ (c'.tmu i).texture = some object := by
  unfold getAndBindActiveTextureObject at h
  obtain ⟨i, active, h⟩ := Option.bind_eq_some_iff.mp h
  rw [release_held held, Option.bind_some] at h
  obtain ⟨⟨d, tex⟩, found, h⟩ := Option.bind_eq_some_iff.mp h
  obtain ⟨object', rfl, h⟩ := Option.bind_eq_some_iff.mp h
  have facts : Rebinds c d ∧ (d.heap object').isSome ∧
      ∀ j, (d.tmu j).texture = some object' → (d.tmu j).dirty = 0xFF := by
    by_cases zero : (c.tmu i).name = 0
    · rw [if_pos zero] at found
      obtain ⟨rfl, same⟩ := Prod.mk.inj (Option.some_inj.mp found)
      obtain rfl := Option.some_inj.mp same
      obtain ⟨rebinds, heap, -, marked⟩ := invalidateDefault_spec held
      refine ⟨rebinds, ?_, marked⟩
      rw [heap]
      exact held.named 0 _ (if_pos rfl)
    · rw [if_neg zero] at found
      obtain ⟨rebinds, -, new⟩ := replace_spec held found
      exact ⟨rebinds, (new _ rfl).1, fun j bound => absurd bound ((new _ rfl).2 j)⟩
  obtain ⟨rebinds, live, marked⟩ := facts
  rw [attachUnit_eq live] at h
  obtain ⟨rfl, rfl⟩ := Prod.mk.inj (Option.some_inj.mp h)
  have active' : unitIndex d.active = some i := by rw [rebinds.active, active]
  refine ⟨rebinds.trans (rebinds_unit rebinds.held i _ live), activeMarked_unit active' _ marked,
    i, active, ?_⟩
  rw [setUnit_self]

structure Uploads (c c' : Context) : Prop where
  rebinds : Rebinds c c'
  marked : ActiveMarked c → ActiveMarked c'

theorem Uploads.trans {c c' c'' : Context} (h : Uploads c c') (h' : Uploads c' c'') :
    Uploads c c'' :=
  ⟨h.rebinds.trans h'.rebinds, fun marked => h'.marked (h.marked marked)⟩

theorem Uploads.refl {c : Context} (held : Held c) : Uploads c c := ⟨.refl held, id⟩

theorem uploads_error {c : Context} (held : Held c) (error : GLenum) :
    Uploads c (oglesError c error) :=
  ⟨rebinds_error held error, id⟩

theorem surface_spec {c : Context} (held : Held c) {level : Nat} {r : Context × GLenum}
    (h : createTextureSurface c level format type mem = some r) :
    Uploads c r.1 ∧ (convertGLPixelFormat format type ≠ 0 → level = 0 → ActiveMarked r.1) ∧
      (level ≠ 0 → r.1 = c) := by
  unfold createTextureSurface at h
  by_cases unknown : convertGLPixelFormat format type = 0
  · rw [if_pos unknown] at h
    obtain rfl := Option.some_inj.mp h
    exact ⟨.refl held, fun known => absurd unknown known, fun _ => rfl⟩
  rw [if_neg unknown] at h
  by_cases above : 0 < level
  · rw [if_pos above] at h
    obtain ⟨object, -, rfl⟩ := Option.map_eq_some_iff.mp h
    exact ⟨.refl held, fun _ first => absurd above (first ▸ Nat.lt_irrefl 0), fun _ => rfl⟩
  rw [if_neg above] at h
  have first : level = 0 := Nat.eq_zero_of_not_pos above
  obtain ⟨⟨d, object⟩, bound, rfl⟩ := Option.map_eq_some_iff.mp h
  obtain ⟨rebinds, marked, -⟩ := getAndBind_spec held bound
  cases allocated : mem.surface level with
  | true =>
    have edited := @rebinds_edit d rebinds.held object (fun o => { o with internalformat := format })
      (fun _ => rfl) (fun _ => rfl)
    exact ⟨⟨rebinds.trans edited, fun _ => marked⟩, fun _ _ => marked, fun other => absurd first other⟩
  | false => exact ⟨⟨rebinds, fun _ => marked⟩, fun _ _ => marked, fun other => absurd first other⟩

theorem finish_uploads {mem : Memory} {r : Context × GLenum} (held : Held r.1) :
    Uploads r.1 (finishUpload mem r) ∧ (finishUpload mem r).tmu = r.1.tmu := by
  unfold finishUpload
  split_ifs
  · exact ⟨uploads_error held _, rfl⟩
  · exact ⟨.refl held, rfl⟩
  · exact ⟨uploads_error held _, rfl⟩

private theorem image_spec {c c' : Context} (held : Held c) {level : Nat}
    (h : (createTextureSurface c level format type mem).map (finishUpload mem) = some c') :
    Rebinds c c' ∧ (convertGLPixelFormat format type ≠ 0 → level = 0 → ActiveMarked c') ∧
      (level ≠ 0 → c'.tmu = c.tmu) := by
  obtain ⟨r, made, rfl⟩ := Option.map_eq_some_iff.mp h
  obtain ⟨uploads, marked, above⟩ := surface_spec held made
  obtain ⟨finished, tmu⟩ := @finish_uploads mem r uploads.rebinds.held
  refine ⟨(uploads.trans finished).rebinds, fun known first => finished.marked (marked known first),
    fun other => ?_⟩
  rw [tmu, above other]

theorem levels_uploads (levels : List Nat) {c c' : Context} (held : Held c)
    (h : uploadLevels c format type mem levels = some c') : Uploads c c' := by
  induction levels generalizing c with
  | nil =>
    obtain rfl := Option.some_inj.mp h
    exact .refl held
  | cons level levels ih =>
    rw [uploadLevels] at h
    obtain ⟨r, made, rest⟩ := Option.bind_eq_some_iff.mp h
    have first := (surface_spec held made).1
    split_ifs at rest with failed
    · obtain rfl := Option.some_inj.mp rest
      exact first.trans (uploads_error first.rebinds.held _)
    · exact first.trans (ih first.rebinds.held rest)

theorem levels_marked (levels : List Nat) {c c' : Context} (held : Held c)
    (known : convertGLPixelFormat format type ≠ 0)
    (h : uploadLevels c format type mem (0 :: levels) = some c') : ActiveMarked c' := by
  rw [uploadLevels] at h
  obtain ⟨r, made, rest⟩ := Option.bind_eq_some_iff.mp h
  obtain ⟨first, marked, -⟩ := surface_spec held made
  split_ifs at rest with failed
  · obtain rfl := Option.some_inj.mp rest
    exact (uploads_error first.rebinds.held _).marked (marked known rfl)
  · exact (levels_uploads levels first.rebinds.held rest).marked (marked known rfl)

theorem texImage_spec {c c' : Context} (held : Held c) (a : TexImage) (mem : Memory)
    (h : glTexImage2D c a mem = some c') :
    Rebinds c c' ∧ (a.reject = GL.noError → convertGLPixelFormat a.format a.type ≠ 0 →
      a.level.toNat = 0 → ActiveMarked c') ∧ (a.level.toNat ≠ 0 → c'.tmu = c.tmu) := by
  unfold glTexImage2D at h
  split_ifs at h with reject
  · obtain rfl := Option.some_inj.mp h
    exact ⟨rebinds_error held _, fun accepted => absurd accepted reject, fun _ => rfl⟩
  · obtain ⟨rebinds, marked, above⟩ := image_spec held h
    exact ⟨rebinds, fun _ => marked, above⟩

theorem copyTexImage_spec {c c' : Context} (held : Held c) (a : CopyTexImage) (mem : Memory)
    (h : glCopyTexImage2D c a mem = some c') :
    Rebinds c c' ∧ (a.reject = GL.noError → convertGLPixelFormat a.format a.type ≠ 0 →
      a.level.toNat = 0 → ActiveMarked c') ∧ (a.level.toNat ≠ 0 → c'.tmu = c.tmu) := by
  unfold glCopyTexImage2D at h
  split_ifs at h with reject
  · obtain rfl := Option.some_inj.mp h
    exact ⟨rebinds_error held _, fun accepted => absurd accepted reject, fun _ => rfl⟩
  · obtain ⟨rebinds, marked, above⟩ := image_spec held h
    exact ⟨rebinds, fun _ => marked, above⟩

private theorem paletteFormat_known {internalformat : GLenum} {p : GLenum × GLenum}
    (h : paletteFormat internalformat = some p) : convertGLPixelFormat p.1 p.2 ≠ 0 := by
  unfold paletteFormat at h
  split_ifs at h
  all_goals
    obtain rfl := Option.some_inj.mp h
    decide

theorem compressedTexImage_spec {c c' : Context} (held : Held c) (a : CompressedTexImage)
    (mem : Memory) (h : glCompressedTexImage2D c a mem = some c') :
    Rebinds c c' ∧ (a.reject = GL.noError → ¬a.empty → ActiveMarked c') := by
  unfold glCompressedTexImage2D at h
  split_ifs at h with reject empty
  · obtain rfl := Option.some_inj.mp h
    exact ⟨rebinds_error held _, fun accepted => absurd accepted reject⟩
  · obtain rfl := Option.some_inj.mp h
    exact ⟨.refl held, fun _ nonempty => absurd empty nonempty⟩
  · split at h
    · rename_i unknown
      refine absurd (not_not.mp reject) ?_
      unfold CompressedTexImage.reject
      rw [if_pos unknown]
      split_ifs <;> decide
    · rename_i format type found
      refine ⟨(levels_uploads _ held h).rebinds, fun _ _ => ?_⟩
      obtain ⟨n, count⟩ : ∃ n, a.numLevels = n + 1 := by
        refine ⟨a.numLevels - 1, ?_⟩
        unfold CompressedTexImage.numLevels
        split_ifs <;> omega
      rw [count, List.range_succ_eq_map] at h
      exact levels_marked _ held (paletteFormat_known found) h

theorem glBindTexture_rebinds {c c' : Context} (held : Held c) (target : GLenum)
    (texture : UInt32) (h : glBindTexture c target texture = some c') : Rebinds c c' := by
  unfold glBindTexture at h
  split_ifs at h with reject zero
  · obtain rfl := Option.some_inj.mp h
    exact rebinds_error held _
  · obtain ⟨i, -, bound⟩ := Option.bind_eq_some_iff.mp h
    exact bind_rebinds held i _ (held.named 0 _ (if_pos rfl)) bound
  · rcases lookup : c.textures texture with _ | object
    · simp only [lookup, createTexture_eq lookup] at h
      obtain ⟨i, -, bound⟩ := Option.bind_eq_some_iff.mp h
      have made := rebinds_register held texture rfl valid_new
      refine made.trans (bind_rebinds made.held i _ (made.held.named texture _ ?_) bound)
      rw [registered_register zero, if_pos rfl]
    · simp only [lookup] at h
      obtain ⟨i, -, bound⟩ := Option.bind_eq_some_iff.mp h
      refine bind_rebinds held i _ (held.named texture _ ?_) bound
      rw [registered, if_neg zero, lookup]

theorem unbind_rebinds (names : List UInt32) {c c' : Context} (held : Held c)
    (h : unbindDeleted i c names = some c') : Rebinds c c' := by
  induction names generalizing c with
  | nil =>
    obtain rfl := Option.some_inj.mp h
    exact .refl held
  | cons name names ih =>
    rw [unbindDeleted] at h
    split_ifs at h with here
    · obtain ⟨d, bound, rest⟩ := Option.bind_eq_some_iff.mp h
      have first := bind_rebinds held i 0 (held.named 0 _ (if_pos rfl)) bound
      exact first.trans (ih first.held rest)
    · exact ih held h

theorem unbindUnit_rebinds {c c' : Context} (held : Held c) (names : List UInt32) (i : Fin 2)
    (h : unbindUnit names c i = some c') : Rebinds c c' := by
  unfold unbindUnit at h
  split_ifs at h
  · obtain rfl := Option.some_inj.mp h
    exact .refl held
  · exact unbind_rebinds names held h

theorem remove_rebinds {c : Context} (held : Held c) (names : List UInt32) :
    Rebinds c (removeTextures c names) := by
  refine ⟨⟨held.counts, held.valid, ?_, held.fresh, held.bound⟩, rfl, fun _ => .inl rfl,
    fun _ o ho => ⟨o, ho, rfl⟩⟩
  intro name object reg
  refine held.named name object ?_
  unfold registered at reg ⊢
  split_ifs at reg ⊢
  · exact reg
  · simp only [removeTextures] at reg
    split_ifs at reg
    exact reg

theorem glDeleteTextures_rebinds {c c' : Context} (held : Held c) (n : Int)
    (textures : List UInt32) (h : glDeleteTextures c n textures = some c') : Rebinds c c' := by
  unfold glDeleteTextures at h
  split_ifs at h
  · obtain rfl := Option.some_inj.mp h
    exact rebinds_error held _
  · obtain ⟨d, first, h⟩ := Option.bind_eq_some_iff.mp h
    obtain ⟨e, second, rfl⟩ := Option.map_eq_some_iff.mp h
    have unbound := unbindUnit_rebinds held _ 0 first
    have both := unbound.trans (unbindUnit_rebinds unbound.held _ 1 second)
    have removed := both.trans (remove_rebinds both.held (textures.take n.toNat))
    exact removed.trans (rebinds_frame removed.held _ _)

theorem glGenTextures_rebinds {c : Context} (held : Held c) (n : Int) :
    Rebinds c (glGenTextures c n).1 := by
  unfold glGenTextures
  split_ifs
  · exact rebinds_error held _
  · exact rebinds_frame held _ _

def Selects : Op → Prop
  | .activeTexture _ => True
  | _ => False

theorem call_rebinds {c c' : Context} (held : Held c) {op : Op} (other : ¬Selects op)
    (h : call c op = some c') : Rebinds c c' := by
  cases op with
  | activeTexture texture => exact absurd trivial other
  | bindTexture target texture => exact glBindTexture_rebinds held target texture h
  | texImage2D a mem => exact (texImage_spec held a mem h).1
  | compressedTexImage2D a mem => exact (compressedTexImage_spec held a mem h).1
  | copyTexImage2D a mem => exact (copyTexImage_spec held a mem h).1
  | genTextures n =>
    obtain rfl := Option.some_inj.mp h
    exact glGenTextures_rebinds held n
  | deleteTextures n textures => exact glDeleteTextures_rebinds held n textures h

end RabbitRender.Textures.Frames
