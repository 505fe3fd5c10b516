/- RabbitRender/Buffers/Store
   layer: model
   source: swrender/array.cpp, swrender/BufferObjectManager.cpp
   digest: Buffer objects in memory, with their storage and the pointers to them. -/

import RabbitRender.Buffers.Objects

set_option autoImplicit false

namespace RabbitRender.Buffers.Store

open Tokens Tokens.Tokenizer
open Buffers.Objects (Binding targetBinding)
open RabbitRender.GL (GLenum)

/-- The bytes of `data` with `bytes` copied over them from `offset` on, when they fit. -/
def writeBytes (data : List UInt8) (offset : Nat) (bytes : List UInt8) : Option (List UInt8) :=
  if offset + bytes.length ≤ data.length then
    some (data.take offset ++ bytes ++ data.drop (offset + bytes.length))
  else none

/-- The first `size` bytes from `p` on. -/
def readBytes (p : Nat → UInt8) (size : Nat) : List UInt8 := (List.range size).map p

theorem readBytes_length (p : Nat → UInt8) (size : Nat) : (readBytes p size).length = size := by
  simp [readBytes]

variable {data bytes stored : List UInt8} {offset : Nat}

theorem writeBytes_length (h : writeBytes data offset bytes = some stored) :
    stored.length = data.length := by
  unfold writeBytes at h
  split_ifs at h with fits
  obtain rfl := Option.some_inj.mp h
  simp only [List.length_append, List.length_take, List.length_drop]
  omega

theorem writeBytes_outside {i : Nat} (h : writeBytes data offset bytes = some stored)
    (outside : i < offset ∨ offset + bytes.length ≤ i) : stored[i]? = data[i]? := by
  unfold writeBytes at h
  split_ifs at h with fits
  obtain rfl := Option.some_inj.mp h
  have front : (data.take offset).length = offset := by simp; omega
  rcases outside with before | after
  · have early : i < (data.take offset).length := by rw [front]; exact before
    rw [List.append_assoc, List.getElem?_append_left early, List.getElem?_take_of_lt before]
  · rw [List.getElem?_append_right (by simp [front]; omega), List.getElem?_drop]
    congr 1
    simp only [List.length_append, front]
    omega

theorem writeBytes_inside {i : Nat} (h : writeBytes data offset bytes = some stored)
    (inside : i < bytes.length) : stored[offset + i]? = bytes[i]? := by
  unfold writeBytes at h
  split_ifs at h with fits
  obtain rfl := Option.some_inj.mp h
  have front : (data.take offset).length = offset := by simp; omega
  rw [List.append_assoc, List.getElem?_append_right (by omega),
    List.getElem?_append_left (by omega), front, Nat.add_sub_cancel_left]

-- `bits` is the width of `GLintptr` and `GLsizeiptr`. A call that follows a pointer to a freed
-- object or copies past the end of a storage has no result.
variable {bits : Nat}

abbrev ObjectId := Nat

/-- `buffer_t`, with the bytes `data` points to. -/
structure Buffer (bits : Nat) where
  size : BitVec bits
  usage : GLenum
  data : List UInt8
  name : UInt32

structure Context (bits : Nat) where
  tokenizer : Ranges
  heap : ObjectId → Option (Buffer bits)
  nextObject : ObjectId
  buffers : UInt32 → Option ObjectId
  bound : Binding → Option ObjectId
  activeTexture : Fin 2
  error : GLenum

def init : Context bits :=
  { tokenizer := TokenManager.init, heap := fun _ => none, nextObject := 0,
    buffers := fun _ => none, bound := fun _ => none, activeTexture := 0, error := GL.noError }

/-- A call that records `error` and returns. -/
def oglesError (c : Context bits) (error : GLenum) : Context bits × GLenum :=
  ({ c with error := GL.firstError c.error error }, error)

def accept (c : Context bits) : Context bits × GLenum := (c, GL.noError)

/-- `EGLBufferObjectManager::bind` -/
def bind (c : Context bits) (buffer : UInt32) : Context bits × ObjectId :=
  match c.buffers buffer with
  | some o => (c, o)
  | none =>
    let bo : Buffer bits := { size := 0, usage := GL.staticDraw, data := [], name := buffer }
    ({ c with
      heap := Function.update c.heap c.nextObject (some bo)
      nextObject := c.nextObject + 1
      buffers := Function.update c.buffers buffer (some c.nextObject) }, c.nextObject)

/-- `EGLBufferObjectManager::allocateStore`. `malloc` is the fresh storage, when there is one. -/
def allocateStore (bo : Buffer bits) (size : BitVec bits) (usage : GLenum)
    (malloc : Option (Nat → UInt8)) : Option (Buffer bits) :=
  if size ≠ bo.size then
    malloc.map fun fresh => { bo with data := readBytes fresh size.toNat, size := size, usage := usage }
  else some { bo with usage := usage }

/-- One round of `EGLBufferObjectManager::deleteBuffers`. -/
def deleteBuffer (c : Context bits) (t : UInt32) : Context bits :=
  if t ≠ 0 then
    match c.buffers t with
    | some o =>
      { c with heap := Function.update c.heap o none, buffers := Function.update c.buffers t none }
    | none => c
  else c

def glBindBuffer (c : Context bits) (target : GLenum) (buffer : UInt32) : Context bits × GLenum :=
  match targetBinding target with
  | none => oglesError c GL.invalidEnum
  | some binding =>
    if buffer ≠ 0 then
      let (c, bo) := bind c buffer
      accept { c with bound := Function.update c.bound binding (some bo) }
    else accept { c with bound := Function.update c.bound binding none }

def glBufferData (c : Context bits) (target : GLenum) (size : BitVec bits)
    (data : Option (Nat → UInt8)) (usage : GLenum) (malloc : Option (Nat → UInt8)) :
    Option (Context bits × GLenum) :=
  match targetBinding target with
  | none => some (oglesError c GL.invalidEnum)
  | some binding =>
    if size.toInt < 0 then some (oglesError c GL.invalidValue)
    else if usage ≠ GL.staticDraw ∧ usage ≠ GL.dynamicDraw then some (oglesError c GL.invalidEnum)
    else
      match c.bound binding with
      | none => some (oglesError c GL.invalidOperation)
      | some o =>
        (c.heap o).bind fun bo =>
          match allocateStore bo size usage malloc with
          | none => some (oglesError c GL.outOfMemory)
          | some bo =>
            let stored := match data with
              | none => some bo.data
              | some p => writeBytes bo.data 0 (readBytes p size.toNat)
            stored.map fun stored =>
              accept { c with heap := Function.update c.heap o (some { bo with data := stored }) }

def glBufferSubData (c : Context bits) (target : GLenum) (offset size : BitVec bits)
    (data : Option (Nat → UInt8)) : Option (Context bits × GLenum) :=
  match targetBinding target with
  | none => some (oglesError c GL.invalidEnum)
  | some binding =>
    match data with
    | none => some (oglesError c GL.invalidValue)
    | some p =>
      if offset.toInt < 0 ∨ size.toInt < 0 then some (oglesError c GL.invalidValue)
      else
        match c.bound binding with
        | none => some (oglesError c GL.invalidOperation)
        | some o =>
          (c.heap o).bind fun bo =>
            -- the sum wraps
            if (offset + size).toInt > bo.size.toInt then some (oglesError c GL.invalidValue)
            else
              (writeBytes bo.data offset.toNat (readBytes p size.toNat)).map fun stored =>
                accept { c with heap := Function.update c.heap o (some { bo with data := stored }) }

/-- The pointers `glDeleteBuffers` looks at. -/
def pointers : List Binding :=
  [.elementArrayBuffer, .arrayBuffer, .vertex, .normal, .color, .texture 0, .texture 1]

def unbindBuffer (c : Context bits) (name : UInt32) : Option (Context bits) :=
  if name ≠ 0 then
    if ∀ b ∈ pointers, ∀ o ∈ c.bound b, (c.heap o).isSome then
      some { c with
        bound := fun b => (c.bound b).filter fun o => (c.heap o).map (·.name) ≠ some name }
    else none
  else some c

def glDeleteBuffers (c : Context bits) (n : Int) (buffers : List UInt32) :
    Option (Context bits × GLenum) :=
  if n < 0 then some (oglesError c GL.invalidValue)
  else
    let names := buffers.take n.toNat
    (names.foldlM unbindBuffer c).map fun c =>
      accept { names.foldl deleteBuffer c with
        tokenizer := TokenManager.recycleTokens c.tokenizer names }

def glClientActiveTexture (c : Context bits) (texture : GLenum) : Context bits × GLenum :=
  if texture < GL.texture0 ∨ texture ≥ GL.texture0 + 2 then oglesError c GL.invalidEnum
  else accept { c with activeTexture := if texture = GL.texture0 then 0 else 1 }

/-- What the array pointer calls share: an accepted one takes over the bound array buffer. -/
def arrayPointer (c : Context bits) (binding : Binding) (sizes types : List Nat) (size : Int)
    (type : GLenum) (stride : Int) : Context bits × GLenum :=
  if size ∉ sizes.map Int.ofNat ∨ stride < 0 then oglesError c GL.invalidValue
  else if type ∈ types then
    accept { c with bound := Function.update c.bound binding (c.bound .arrayBuffer) }
  else oglesError c GL.invalidEnum

def glVertexPointer (c : Context bits) (size : Int) (type : GLenum) (stride : Int) :
    Context bits × GLenum :=
  arrayPointer c .vertex [2, 3, 4] [GL.byte, GL.short, GL.fixed, GL.float] size type stride

def glColorPointer (c : Context bits) (size : Int) (type : GLenum) (stride : Int) :
    Context bits × GLenum :=
  arrayPointer c .color [4] [GL.unsignedByte, GL.fixed, GL.float] size type stride

def glNormalPointer (c : Context bits) (type : GLenum) (stride : Int) : Context bits × GLenum :=
  arrayPointer c .normal [3] [GL.byte, GL.short, GL.fixed, GL.float] 3 type stride

def glTexCoordPointer (c : Context bits) (size : Int) (type : GLenum) (stride : Int) :
    Context bits × GLenum :=
  arrayPointer c (.texture c.activeTexture) [2, 3, 4] [GL.byte, GL.short, GL.fixed, GL.float] size
    type stride

end RabbitRender.Buffers.Store
