/- RabbitRender/Buffers/Coherence
   layer: proof
   source: swrender/array.cpp, swrender/BufferObjectManager.cpp
   digest: Every pointer to a buffer object is live, every storage has its recorded size, and
     every write stays inside, in the runs whose sub-data ranges do not wrap and in no others. -/

import RabbitRender.Buffers.Store
import RabbitRender.Lib.GuardedRun

set_option autoImplicit false

namespace RabbitRender.Buffers.Coherence

open Buffers.Objects (Binding targetBinding)
open Buffers.Store Lib.GuardedRun
open RabbitRender.GL (GLenum)

variable {bits : Nat}

inductive Call (bits : Nat) where
  | bindBuffer (target : GLenum) (buffer : UInt32)
  | bufferData (target : GLenum) (size : BitVec bits) (data : Option (Nat → UInt8)) (usage : GLenum)
      (malloc : Option (Nat → UInt8))
  | bufferSubData (target : GLenum) (offset size : BitVec bits) (data : Option (Nat → UInt8))
  | deleteBuffers (n : Int) (buffers : List UInt32)
  | clientActiveTexture (texture : GLenum)
  | vertexPointer (size : Int) (type : GLenum) (stride : Int)
  | colorPointer (size : Int) (type : GLenum) (stride : Int)
  | normalPointer (type : GLenum) (stride : Int)
  | texCoordPointer (size : Int) (type : GLenum) (stride : Int)

def call (c : Context bits) : Call bits → Option (Context bits × GLenum)
  | .bindBuffer target buffer => some (glBindBuffer c target buffer)
  | .bufferData target size data usage malloc => glBufferData c target size data usage malloc
  | .bufferSubData target offset size data => glBufferSubData c target offset size data
  | .deleteBuffers n buffers => glDeleteBuffers c n buffers
  | .clientActiveTexture texture => some (glClientActiveTexture c texture)
  | .vertexPointer size type stride => some (glVertexPointer c size type stride)
  | .colorPointer size type stride => some (glColorPointer c size type stride)
  | .normalPointer type stride => some (glNormalPointer c type stride)
  | .texCoordPointer size type stride => some (glTexCoordPointer c size type stride)

def step (c : Option (Context bits)) (o : Call bits) : Option (Context bits) :=
  c.bind fun c => (call c o).map Prod.fst

/-- Every pointer leads to a registered object, and every storage has the recorded size. -/
structure Sound (c : Context bits) : Prop where
  held : ∀ b o, c.bound b = some o → ∃ bo, c.heap o = some bo ∧ c.buffers bo.name = some o
  storage : ∀ o bo, c.heap o = some bo → (bo.data.length : Int) = bo.size.toInt

def SameStore (c c' : Context bits) : Prop := c' = { c with error := c'.error }

/-- The object behind a target is rewritten in `[offset, offset + size)`, inside of its size. -/
def Patched (c c' : Context bits) (target : GLenum) (offset size : BitVec bits)
    (p : Nat → UInt8) : Prop :=
  ∃ binding o bo stored, targetBinding target = some binding ∧ c.bound binding = some o ∧
    c.heap o = some bo ∧
    c' = { c with heap := Function.update c.heap o (some { bo with data := stored }) } ∧
    0 ≤ offset.toInt ∧ 0 ≤ size.toInt ∧ offset.toInt + size.toInt ≤ bo.size.toInt ∧
    (∀ i, i < offset.toNat ∨ offset.toNat + size.toNat ≤ i → stored[i]? = bo.data[i]?) ∧
    ∀ i < size.toNat, stored[offset.toNat + i]? = some (p i)

/-- A call that reports an error leaves the store alone, and an accepted sub-data call rewrites
its range only. -/
def Obeys (c : Context bits) (o : Call bits) (r : Context bits × GLenum) : Prop :=
  (r.2 ≠ GL.noError → SameStore c r.1) ∧
  (r.2 = GL.noError → ∀ target offset size data, o = .bufferSubData target offset size data →
    ∃ p ∈ data, Patched c r.1 target offset size p)

def Call.Safe (c : Context bits) : Call bits → Prop
  | .bufferSubData target offset size data =>
    ∀ binding ∈ targetBinding target, data.isSome → 0 ≤ offset.toInt → 0 ≤ size.toInt →
      (c.bound binding).isSome → offset.saddOverflow size = false
  | _ => True

def Safe (c : Option (Context bits)) (o : Call bits) : Prop := ∀ c' ∈ c, o.Safe c'

structure Inv (c : Context bits) : Prop where
  registered : ∀ name o, c.buffers name = some o → ∃ bo, c.heap o = some bo ∧ bo.name = name
  live : ∀ o bo, c.heap o = some bo → c.buffers bo.name = some o
  held : ∀ b o, c.bound b = some o → (c.heap o).isSome
  storage : ∀ o bo, c.heap o = some bo → (bo.data.length : Int) = bo.size.toInt
  fresh : ∀ o, (c.heap o).isSome → o < c.nextObject

theorem Inv.sound {c : Context bits} (inv : Inv c) : Sound c := by
  refine ⟨fun b o bound => ?_, inv.storage⟩
  obtain ⟨bo, here⟩ := Option.isSome_iff_exists.mp (inv.held b o bound)
  exact ⟨bo, here, inv.live o bo here⟩

theorem Inv.oglesError {c : Context bits} (inv : Inv c) (error : GLenum) :
    Inv (oglesError c error).1 :=
  ⟨inv.registered, inv.live, inv.held, inv.storage, inv.fresh⟩

theorem Inv.rebind {c : Context bits} (inv : Inv c) {bound : Binding → Option ObjectId}
    (held : ∀ b o, bound b = some o → (c.heap o).isSome) : Inv { c with bound := bound } :=
  ⟨inv.registered, inv.live, held, inv.storage, inv.fresh⟩

theorem Inv.update {c : Context bits} (inv : Inv c) (binding : Binding) {o : Option ObjectId}
    (live : ∀ o' ∈ o, (c.heap o').isSome) :
    Inv { c with bound := Function.update c.bound binding o } := by
  refine inv.rebind fun b o' bound => ?_
  by_cases same : b = binding
  · subst same
    rw [Function.update_self] at bound
    exact live o' bound
  · rw [Function.update_of_ne same] at bound
    exact inv.held b o' bound

theorem Inv.store {c : Context bits} (inv : Inv c) {o : ObjectId} {bo bo' : Buffer bits}
    (here : c.heap o = some bo) (name : bo'.name = bo.name)
    (size : (bo'.data.length : Int) = bo'.size.toInt) :
    Inv { c with heap := Function.update c.heap o (some bo') } := by
  have isSome (o' : ObjectId) :
      (Function.update c.heap o (some bo') o').isSome = (c.heap o').isSome := by
    by_cases same : o' = o
    · rw [same, Function.update_self, here]
      rfl
    · rw [Function.update_of_ne same]
  refine ⟨fun name' o' h => ?_, fun o' bo'' h => ?_, fun b o' h => ?_, fun o' bo'' h => ?_,
    fun o' h => inv.fresh o' (isSome o' ▸ h)⟩
  · obtain ⟨old, before, named⟩ := inv.registered name' o' h
    by_cases same : o' = o
    · subst same
      obtain rfl : bo = old := Option.some_inj.mp (here.symm.trans before)
      exact ⟨bo', Function.update_self _ _ _, name.trans named⟩
    · exact ⟨old, (Function.update_of_ne same _ _).trans before, named⟩
  · by_cases same : o' = o
    · subst same
      obtain rfl : bo' = bo'' := by simpa using h
      exact (congrArg c.buffers name).trans (inv.live o' bo here)
    · exact inv.live o' bo'' ((Function.update_of_ne same _ _).symm.trans h)
  · exact (isSome o').trans (inv.held b o' h)
  · by_cases same : o' = o
    · subst same
      obtain rfl : bo' = bo'' := by simpa using h
      exact size
    · exact inv.storage o' bo'' ((Function.update_of_ne same _ _).symm.trans h)

theorem inv_bind {c : Context bits} (inv : Inv c) (buffer : UInt32) :
    Inv (Store.bind c buffer).1 ∧
      ((Store.bind c buffer).1.heap (Store.bind c buffer).2).isSome := by
  unfold Store.bind
  rcases known : c.buffers buffer with _ | o
  · have new (o : ObjectId) (h : (c.heap o).isSome) : o ≠ c.nextObject :=
      Nat.ne_of_lt (inv.fresh o h)
    refine ⟨⟨fun name o h => ?_, fun o bo h => ?_, fun b o h => ?_, fun o bo h => ?_,
      fun o h => ?_⟩, by simp⟩
    · by_cases same : name = buffer
      · subst same
        obtain rfl : c.nextObject = o := by simpa using h
        exact ⟨_, Function.update_self _ _ _, rfl⟩
      · obtain ⟨bo, here, named⟩ := inv.registered name o
          ((Function.update_of_ne same _ _).symm.trans h)
        have old := new o (here ▸ rfl)
        exact ⟨bo, (Function.update_of_ne old _ _).trans here, named⟩
    · by_cases same : o = c.nextObject
      · subst same
        obtain rfl := by simpa using h
        exact Function.update_self _ _ _
      · have registered := inv.live o bo ((Function.update_of_ne same _ _).symm.trans h)
        have other : bo.name ≠ buffer := by
          rintro rfl
          rw [known] at registered
          cases registered
        exact (Function.update_of_ne other _ _).trans registered
    · have live := inv.held b o h
      exact (congrArg Option.isSome (Function.update_of_ne (new o live) _ _)).trans live
    · by_cases same : o = c.nextObject
      · subst same
        obtain rfl := by simpa using h
        simp
      · exact inv.storage o bo ((Function.update_of_ne same _ _).symm.trans h)
    · by_cases same : o = c.nextObject
      · exact Nat.lt_succ_of_le (Nat.le_of_eq same)
      · have live := (congrArg Option.isSome (Function.update_of_ne same _ _)).symm.trans h
        exact Nat.lt_succ_of_lt (inv.fresh o live)
  · obtain ⟨bo, here, -⟩ := inv.registered buffer o known
    exact ⟨inv, here ▸ rfl⟩

def Cleared (c : Context bits) (names : List UInt32) : Prop :=
  ∀ b o bo, c.bound b = some o → c.heap o = some bo → ∀ t ∈ names, t ≠ 0 → bo.name ≠ t

variable {names : List UInt32}

theorem unbindBuffer_spec {c : Context bits} (inv : Inv c) (cleared : Cleared c names)
    (name : UInt32) :
    ∃ bound, unbindBuffer c name = some { c with bound := bound } ∧
      Inv { c with bound := bound } ∧ Cleared { c with bound := bound } (name :: names) := by
  by_cases zero : name = 0
  · refine ⟨c.bound, by simp [unbindBuffer, zero], inv, fun b o bo bound here t member nonzero => ?_⟩
    rcases List.mem_cons.mp member with rfl | member
    · exact absurd zero nonzero
    · exact cleared b o bo bound here t member nonzero
  · have live : ∀ b ∈ pointers, ∀ o ∈ c.bound b, (c.heap o).isSome := fun b _ o => inv.held b o
    have kept (b : Binding) (o : ObjectId) (h : ((c.bound b).filter fun o =>
        (c.heap o).map (·.name) ≠ some name) = some o) :
        c.bound b = some o ∧ (c.heap o).map (·.name) ≠ some name := by
      simpa using Option.filter_eq_some_iff.mp h
    refine ⟨_, by rw [unbindBuffer, if_pos zero, if_pos live], inv.rebind fun b o h =>
      inv.held b o (kept b o h).1, fun b o bo bound here t member nonzero => ?_⟩
    obtain ⟨before, other⟩ := kept b o bound
    rcases List.mem_cons.mp member with rfl | member
    · rintro rfl
      exact other (congrArg (Option.map (·.name)) here)
    · exact cleared b o bo before here t member nonzero

theorem foldlM_unbindBuffer {c : Context bits} (inv : Inv c) (names : List UInt32)
    {done : List UInt32} (cleared : Cleared c done) :
    ∃ bound, names.foldlM unbindBuffer c = some { c with bound := bound } ∧
      Inv { c with bound := bound } ∧ Cleared { c with bound := bound } (names ++ done) := by
  induction names generalizing c done with
  | nil => exact ⟨c.bound, rfl, inv, cleared⟩
  | cons name names ih =>
    obtain ⟨bound, unbound, inv', cleared'⟩ := unbindBuffer_spec inv cleared name
    obtain ⟨bound', rest, inv'', cleared''⟩ := ih inv' cleared'
    refine ⟨bound', ?_, inv'', fun b o bo h here t member => ?_⟩
    · rw [List.foldlM_cons, unbound]
      exact rest
    · refine cleared'' b o bo h here t ?_
      simp only [List.cons_append, List.mem_cons, List.mem_append] at member ⊢
      tauto

theorem deleteBuffer_spec {c : Context bits} (inv : Inv c) {t : UInt32}
    (cleared : Cleared c (t :: names)) :
    Inv (deleteBuffer c t) ∧ Cleared (deleteBuffer c t) names := by
  have tail : Cleared c names := fun b o bo h here t' member =>
    cleared b o bo h here t' (List.mem_cons_of_mem _ member)
  unfold deleteBuffer
  split_ifs with nonzero
  swap
  · exact ⟨inv, tail⟩
  rcases known : c.buffers t with _ | o
  · exact ⟨inv, tail⟩
  dsimp only
  obtain ⟨bo, here, named⟩ := inv.registered t o known
  have before {o' : ObjectId} {bo' : Buffer bits}
      (h : Function.update c.heap o none o' = some bo') : o' ≠ o ∧ c.heap o' = some bo' := by
    by_cases same : o' = o
    · rw [same, Function.update_self] at h
      cases h
    · exact ⟨same, (Function.update_of_ne same _ _).symm.trans h⟩
  refine ⟨⟨fun name o' h => ?_, fun o' bo' h => ?_, fun b o' h => ?_, fun o' bo' h => ?_,
    fun o' h => ?_⟩, fun b o' bo' h here' => tail b o' bo' h (before here').2⟩
  · by_cases same : name = t
    · subst same
      simp at h
    · obtain ⟨bo', here', named'⟩ := inv.registered name o'
        ((Function.update_of_ne same _ _).symm.trans h)
      refine ⟨bo', (Function.update_of_ne ?_ _ _).trans here', named'⟩
      rintro rfl
      obtain rfl : bo = bo' := Option.some_inj.mp (here.symm.trans here')
      exact same (named'.symm.trans named)
  · obtain ⟨other, here'⟩ := before h
    have registered := inv.live o' bo' here'
    refine (Function.update_of_ne ?_ _ _).trans registered
    rintro rfl
    exact other (Option.some_inj.mp (registered.symm.trans known))
  · obtain ⟨bo', here'⟩ := Option.isSome_iff_exists.mp (inv.held b o' h)
    have other : o' ≠ o := by
      rintro rfl
      obtain rfl : bo = bo' := Option.some_inj.mp (here.symm.trans here')
      exact cleared b o' bo h here t List.mem_cons_self nonzero named
    exact (congrArg Option.isSome (Function.update_of_ne other _ _)).trans (here' ▸ rfl)
  · exact inv.storage o' bo' (before h).2
  · obtain ⟨bo', h'⟩ := Option.isSome_iff_exists.mp h
    exact inv.fresh o' ((before h').2 ▸ rfl)

theorem foldl_deleteBuffer {c : Context bits} (inv : Inv c) (cleared : Cleared c names) :
    Inv (names.foldl deleteBuffer c) := by
  induction names generalizing c with
  | nil => exact inv
  | cons t names ih =>
    obtain ⟨inv', cleared'⟩ := deleteBuffer_spec inv cleared
    exact ih inv' cleared'

theorem glDeleteBuffers_inv {c : Context bits} (inv : Inv c) (n : Int) (buffers : List UInt32) :
    ∃ r, glDeleteBuffers c n buffers = some r ∧ Inv r.1 ∧ (r.2 ≠ GL.noError → SameStore c r.1) := by
  unfold glDeleteBuffers
  split_ifs
  · exact ⟨_, rfl, inv.oglesError _, fun _ => rfl⟩
  · have nothing : Cleared c [] := by simp [Cleared]
    obtain ⟨bound, unbound, inv', cleared⟩ :=
      foldlM_unbindBuffer inv (buffers.take n.toNat) nothing
    rw [List.append_nil] at cleared
    have deleted := foldl_deleteBuffer inv' cleared
    simp only [unbound, Option.map_some]
    refine ⟨_, rfl, ?_, fun error => absurd rfl error⟩
    exact ⟨deleted.registered, deleted.live, deleted.held, deleted.storage, deleted.fresh⟩

theorem toInt_of_nonneg {x : BitVec bits} (h : 0 ≤ x.toInt) : x.toInt = x.toNat := by
  rw [BitVec.toInt_eq_toNat_cond] at h ⊢
  have := x.isLt
  split_ifs at h ⊢ with small
  · rfl
  · omega

theorem negative_of_overflow {x y : BitVec bits} (hx : 0 ≤ x.toInt) (hy : 0 ≤ y.toInt)
    (excess : x.saddOverflow y = true) :
    (x + y).toInt < 0 ∧ ∀ z : BitVec bits, z.toInt < x.toInt + y.toInt := by
  have high : (2 : Int) ^ (bits - 1) ≤ x.toInt + y.toInt := by
    have positive : (0 : Int) < 2 ^ (bits - 1) := Int.pow_pos (by decide)
    simp only [BitVec.saddOverflow, Bool.or_eq_true, decide_eq_true_eq] at excess
    omega
  refine ⟨?_, fun z => Int.lt_of_lt_of_le BitVec.toInt_lt high⟩
  have hx' := toInt_of_nonneg hx
  have hy' := toInt_of_nonneg hy
  have xlt := @BitVec.two_mul_toInt_lt _ x
  have ylt := @BitVec.two_mul_toInt_lt _ y
  rcases bits with _ | b
  · simp [BitVec.of_length_zero] at high
  · rw [Nat.add_sub_cancel] at high
    have double : (2 : Int) ^ (b + 1) = 2 * 2 ^ b := by rw [Int.pow_succ, Int.mul_comm]
    rw [BitVec.toInt_add, Int.bmod_def]
    push_cast
    rw [double] at *
    rw [Int.emod_eq_of_lt (by omega) (by omega), if_neg (by omega)]
    omega

theorem allocateStore_spec {bo bo' : Buffer bits} {size : BitVec bits} {usage : GLenum}
    {malloc : Option (Nat → UInt8)} (h : allocateStore bo size usage malloc = some bo')
    (nonneg : 0 ≤ size.toInt) (storage : (bo.data.length : Int) = bo.size.toInt) :
    bo'.name = bo.name ∧ bo'.size = size ∧ (bo'.data.length : Int) = size.toInt := by
  unfold allocateStore at h
  split_ifs at h with same
  · obtain ⟨fresh, -, rfl⟩ := Option.map_eq_some_iff.mp h
    exact ⟨rfl, rfl, by simp [readBytes_length, toInt_of_nonneg nonneg]⟩
  · obtain rfl := Option.some_inj.mp h
    have size_eq : size = bo.size := not_not.mp same
    exact ⟨rfl, size_eq.symm, size_eq ▸ storage⟩

theorem glBufferData_inv {c : Context bits} (inv : Inv c) (target : GLenum) (size : BitVec bits)
    (data : Option (Nat → UInt8)) (usage : GLenum) (malloc : Option (Nat → UInt8)) :
    ∃ r, glBufferData c target size data usage malloc = some r ∧ Inv r.1 ∧
      (r.2 ≠ GL.noError → SameStore c r.1) := by
  have refused (error : GLenum) : ∃ r, some (Store.oglesError c error) = some r ∧ Inv r.1 ∧
      (r.2 ≠ GL.noError → SameStore c r.1) := ⟨_, rfl, inv.oglesError error, fun _ => rfl⟩
  unfold glBufferData
  rcases targetBinding target with _ | binding
  · exact refused _
  dsimp only
  split_ifs with negative
  · exact refused _
  · exact refused _
  rcases bound : c.bound binding with _ | o
  · exact refused _
  obtain ⟨bo, here⟩ := Option.isSome_iff_exists.mp (inv.held binding o bound)
  simp only [here, Option.bind_some]
  rcases allocated : allocateStore bo size usage malloc with _ | bo'
  · exact refused _
  obtain ⟨name, size_eq, length⟩ :=
    allocateStore_spec allocated (Int.not_lt.mp negative) (inv.storage o bo here)
  have written (stored : List UInt8) (same : stored.length = bo'.data.length) :
      Inv { c with heap := Function.update c.heap o (some { bo' with data := stored }) } :=
    inv.store here name (by rw [same, length, size_eq])
  rcases data with _ | p
  · exact ⟨_, rfl, written _ rfl, fun error => absurd rfl error⟩
  · have fits : 0 + (readBytes p size.toNat).length ≤ bo'.data.length := by
      rw [toInt_of_nonneg (Int.not_lt.mp negative)] at length
      rw [readBytes_length]
      omega
    obtain ⟨stored, wrote⟩ : ∃ stored, writeBytes bo'.data 0 (readBytes p size.toNat) = some stored :=
      ⟨_, if_pos fits⟩
    simp only [wrote, Option.map_some]
    exact ⟨_, rfl, written _ (writeBytes_length wrote), fun error => absurd rfl error⟩

theorem glBufferSubData_cases {c : Context bits} (inv : Inv c) (target : GLenum)
    (offset size : BitVec bits) (data : Option (Nat → UInt8)) :
    (∃ error, error ≠ GL.noError ∧
      glBufferSubData c target offset size data = some (Store.oglesError c error) ∧
      (Call.bufferSubData target offset size data).Safe c) ∨
    ∃ binding o bo p, targetBinding target = some binding ∧ data = some p ∧
      c.bound binding = some o ∧ c.heap o = some bo ∧ 0 ≤ offset.toInt ∧ 0 ≤ size.toInt ∧
      (offset + size).toInt ≤ bo.size.toInt ∧
      glBufferSubData c target offset size data =
        (writeBytes bo.data offset.toNat (readBytes p size.toNat)).map fun stored =>
          accept { c with heap := Function.update c.heap o (some { bo with data := stored }) } := by
  unfold glBufferSubData
  rcases known : targetBinding target with _ | binding
  · exact Or.inl ⟨_, by decide, rfl, by simp [Call.Safe, known]⟩
  rcases data with _ | p
  · exact Or.inl ⟨_, by decide, rfl, by simp [Call.Safe]⟩
  dsimp only
  split_ifs with negative
  · refine Or.inl ⟨_, by decide, rfl, fun _ _ _ hoffset hsize => ?_⟩
    omega
  obtain ⟨hoffset, hsize⟩ : 0 ≤ offset.toInt ∧ 0 ≤ size.toInt := by omega
  rcases bound : c.bound binding with _ | o
  · refine Or.inl ⟨_, by decide, rfl, fun binding' hbinding _ _ _ held => ?_⟩
    obtain rfl : binding = binding' := Option.some_inj.mp (known.symm.trans hbinding)
    rw [bound] at held
    cases held
  obtain ⟨bo, here⟩ := Option.isSome_iff_exists.mp (inv.held binding o bound)
  simp only [here, Option.bind_some]
  split_ifs with exceeds
  · refine Or.inl ⟨_, by decide, rfl, fun _ _ _ _ _ _ => ?_⟩
    rw [← Bool.not_eq_true]
    intro excess
    have wrapped := (negative_of_overflow hoffset hsize excess).1
    have stored := inv.storage o bo here
    omega
  · exact Or.inr ⟨binding, o, bo, p, rfl, rfl, bound, here, hoffset, hsize,
      Int.not_lt.mp exceeds, rfl⟩

theorem glBufferSubData_spec {c : Context bits} (inv : Inv c) (target : GLenum)
    (offset size : BitVec bits) (data : Option (Nat → UInt8)) :
    ((glBufferSubData c target offset size data).isSome ↔
      (Call.bufferSubData target offset size data).Safe c) ∧
    ∀ r, glBufferSubData c target offset size data = some r → Inv r.1 ∧
      (r.2 ≠ GL.noError → SameStore c r.1) ∧
      (r.2 = GL.noError → ∃ p ∈ data, Patched c r.1 target offset size p) := by
  obtain ⟨error, isError, refused, safe⟩ | ⟨binding, o, bo, p, known, rfl, bound, here, hoffset,
    hsize, inside, written⟩ := glBufferSubData_cases inv target offset size data
  · rw [refused]
    refine ⟨iff_of_true rfl safe, fun r made => ?_⟩
    obtain rfl := Option.some_inj.mp made
    exact ⟨inv.oglesError error, fun _ => rfl, fun accepted => absurd accepted isError⟩
  have length := inv.storage o bo here
  have offset_eq := toInt_of_nonneg hoffset
  have size_eq := toInt_of_nonneg hsize
  rw [written]
  constructor
  · rw [Option.isSome_map, Option.isSome_iff_exists]
    constructor
    · rintro ⟨stored, wrote⟩ binding' _ _ _ _ _
      rw [← Bool.not_eq_true]
      intro excess
      have beyond := (negative_of_overflow hoffset hsize excess).2 bo.size
      unfold writeBytes at wrote
      split_ifs at wrote with fits
      rw [readBytes_length] at fits
      omega
    · intro safe
      have plain := BitVec.toInt_add_of_not_saddOverflow (x := offset) (y := size) (by
        rw [safe binding known rfl hoffset hsize (bound ▸ rfl)]
        exact Bool.false_ne_true)
      refine ⟨_, if_pos ?_⟩
      rw [readBytes_length]
      omega
  · rintro r made
    obtain ⟨stored, wrote, rfl⟩ := Option.map_eq_some_iff.mp made
    have same := writeBytes_length wrote
    have fits : offset.toNat + size.toNat ≤ bo.data.length := by
      unfold writeBytes at wrote
      split_ifs at wrote with fits
      rwa [readBytes_length] at fits
    refine ⟨inv.store here rfl (by rw [same, length]), fun error => absurd rfl error, fun _ =>
      ⟨p, rfl, binding, o, bo, stored, known, bound, here, rfl, hoffset, hsize, by omega, ?_, ?_⟩⟩
    · intro i outside
      exact writeBytes_outside wrote (by rwa [readBytes_length])
    · intro i within
      rw [writeBytes_inside wrote (by rwa [readBytes_length])]
      simp [readBytes, within]

theorem arrayPointer_inv {c : Context bits} (inv : Inv c) (binding : Binding)
    (sizes types : List Nat) (size : Int) (type : GLenum) (stride : Int) :
    Inv (arrayPointer c binding sizes types size type stride).1 ∧
      ((arrayPointer c binding sizes types size type stride).2 ≠ GL.noError →
        SameStore c (arrayPointer c binding sizes types size type stride).1) := by
  unfold arrayPointer
  split_ifs
  · exact ⟨inv.oglesError _, fun _ => rfl⟩
  · exact ⟨inv.update binding (inv.held .arrayBuffer), fun error => absurd rfl error⟩
  · exact ⟨inv.oglesError _, fun _ => rfl⟩

theorem glBindBuffer_inv {c : Context bits} (inv : Inv c) (target : GLenum) (buffer : UInt32) :
    Inv (glBindBuffer c target buffer).1 ∧
      ((glBindBuffer c target buffer).2 ≠ GL.noError →
        SameStore c (glBindBuffer c target buffer).1) := by
  unfold glBindBuffer
  rcases targetBinding target with _ | binding
  · exact ⟨inv.oglesError _, fun _ => rfl⟩
  dsimp only
  split_ifs
  · obtain ⟨inv', live⟩ := inv_bind inv buffer
    refine ⟨inv'.update binding fun o' h => ?_, fun error => absurd rfl error⟩
    exact Option.some_inj.mp h ▸ live
  · exact ⟨inv.update binding (fun _ h => nomatch h), fun error => absurd rfl error⟩

theorem glClientActiveTexture_inv {c : Context bits} (inv : Inv c) (texture : GLenum) :
    Inv (glClientActiveTexture c texture).1 ∧
      ((glClientActiveTexture c texture).2 ≠ GL.noError →
        SameStore c (glClientActiveTexture c texture).1) := by
  unfold glClientActiveTexture
  split_ifs
  · exact ⟨inv.oglesError _, fun _ => rfl⟩
  all_goals exact ⟨⟨inv.registered, inv.live, inv.held, inv.storage, inv.fresh⟩,
    fun error => absurd rfl error⟩

theorem call_spec {c : Context bits} (inv : Inv c) (o : Call bits) :
    ((call c o).isSome ↔ o.Safe c) ∧ ∀ r, call c o = some r → Inv r.1 ∧ Obeys c o r := by
  have total {o : Call bits} {r : Context bits × GLenum} (made : call c o = some r)
      (safe : o.Safe c) (other : ∀ target offset size data, o ≠ .bufferSubData target offset size data)
      (h : Inv r.1 ∧ (r.2 ≠ GL.noError → SameStore c r.1)) :
      ((call c o).isSome ↔ o.Safe c) ∧ ∀ r, call c o = some r → Inv r.1 ∧ Obeys c o r := by
    refine ⟨iff_of_true (made ▸ rfl) safe, fun r' made' => ?_⟩
    obtain rfl := Option.some_inj.mp (made.symm.trans made')
    exact ⟨h.1, h.2, fun _ _ _ _ _ same => absurd same (other _ _ _ _)⟩
  cases o with
  | bindBuffer target buffer =>
    exact total rfl trivial (fun _ _ _ _ h => nomatch h) (glBindBuffer_inv inv target buffer)
  | bufferData target size data usage malloc =>
    obtain ⟨r, made, h⟩ := glBufferData_inv inv target size data usage malloc
    exact total made trivial (fun _ _ _ _ h => nomatch h) h
  | bufferSubData target offset size data =>
    obtain ⟨defined, kept⟩ := glBufferSubData_spec inv target offset size data
    refine ⟨defined, fun r made => ?_⟩
    obtain ⟨inv', rejected, accepted⟩ := kept r made
    refine ⟨inv', rejected, fun noError target' offset' size' data' same => ?_⟩
    obtain ⟨rfl, rfl, rfl, rfl⟩ := Call.bufferSubData.inj same
    exact accepted noError
  | deleteBuffers n buffers =>
    obtain ⟨r, made, h⟩ := glDeleteBuffers_inv inv n buffers
    exact total made trivial (fun _ _ _ _ h => nomatch h) h
  | clientActiveTexture texture =>
    exact total rfl trivial (fun _ _ _ _ h => nomatch h) (glClientActiveTexture_inv inv texture)
  | vertexPointer size type stride | colorPointer size type stride | normalPointer type stride
  | texCoordPointer size type stride =>
    exact total rfl trivial (fun _ _ _ _ h => nomatch h) (arrayPointer_inv inv _ _ _ _ _ _)

theorem init_inv : Inv (init : Context bits) :=
  ⟨fun _ _ h => (nomatch h), fun _ _ h => (nomatch h), fun _ _ h => (nomatch h),
    fun _ _ h => (nomatch h), fun _ h => (nomatch h)⟩

private abbrev start (bits : Nat) : Option (Context bits) := some init

theorem step_eq {c : Context bits} {o : Call bits} {r : Context bits × GLenum}
    (made : call c o = some r) : step (some c) o = some r.1 := by
  rw [step, Option.bind_some, made, Option.map_some]

theorem step_inv_iff {s : Option (Context bits)} (h : ∃ c, s = some c ∧ Inv c) (o : Call bits) :
    (∃ c, step s o = some c ∧ Inv c) ↔ Safe s o := by
  obtain ⟨c, rfl, inv⟩ := h
  obtain ⟨defined, kept⟩ := call_spec inv o
  constructor
  · rintro ⟨c', made, -⟩ c'' same
    obtain rfl := Option.some_inj.mp same
    apply defined.mp
    obtain ⟨r, hr, -⟩ := Option.map_eq_some_iff.mp made
    exact hr ▸ rfl
  · intro safe
    obtain ⟨r, made⟩ := Option.isSome_iff_exists.mp (defined.mpr (safe c rfl))
    exact ⟨r.1, step_eq made, (kept r made).1⟩

/-- Along a run every call finds and leaves a sound store and obeys, exactly when every sub-data
range that is checked in it fits the pointer width. -/
theorem buffer_store (calls : List (Call bits)) :
    (∀ pre o, pre ++ [o] <+: calls → ∃ c r, run step (start bits) pre = some c ∧
      call c o = some r ∧ Sound c ∧ Sound r.1 ∧ Obeys c o r) ↔
      Guarded step Safe (start bits) calls := by
  have keeps (s : Option (Context bits)) (o : Call bits) (h : ∃ c, s = some c ∧ Inv c) :
      (∃ c, step s o = some c ∧ Inv c) ↔ Safe s o := step_inv_iff h o
  have fresh : ∃ c, start bits = some c ∧ Inv c := ⟨init, rfl, init_inv⟩
  constructor
  · intro h
    refine (guarded_iff keeps fresh).mp fun pre => ?_
    induction pre using List.reverseRecOn with
    | nil => exact fun _ => fresh
    | append_singleton pre o ih =>
      intro hpre
      obtain ⟨c, r, reached, made, -⟩ := h pre o hpre
      obtain ⟨c', reached', inv⟩ := ih ((List.prefix_append pre [o]).trans hpre)
      obtain rfl : c = c' := Option.some_inj.mp (reached.symm.trans reached')
      refine ⟨r.1, ?_, ((call_spec inv o).2 r made).1⟩
      rw [run_append, reached]
      exact step_eq made
  · intro guarded pre o hpre
    obtain ⟨c, reached, inv⟩ := (guarded_iff keeps fresh).mpr guarded pre
      ((List.prefix_append pre [o]).trans hpre)
    have safe := guarded.next hpre c reached
    obtain ⟨defined, kept⟩ := call_spec inv o
    obtain ⟨r, made⟩ := Option.isSome_iff_exists.mp (defined.mpr safe)
    obtain ⟨inv', obeys⟩ := kept r made
    exact ⟨c, r, reached, made, inv.sound, inv'.sound, obeys⟩

/-- A range that ends past the largest offset passes the check and is copied out of bounds. -/
theorem sub_data_past_the_end :
    ∃ c bo, run step (start 64) [.bindBuffer GL.arrayBuffer 1,
        .bufferData GL.arrayBuffer 4 (some fun _ => 0) GL.staticDraw (some fun _ => 0)] = some c ∧
      c.heap 0 = some bo ∧ bo.size = 4 ∧ bo.data.length = 4 ∧
      (0x7fffffffffffffff + 1 : BitVec 64).toInt ≤ bo.size.toInt ∧
      call c (.bufferSubData GL.arrayBuffer 0x7fffffffffffffff 1 (some fun _ => 0)) = none :=
  ⟨_, _, rfl, rfl, rfl, rfl, by decide, rfl⟩

end RabbitRender.Buffers.Coherence
