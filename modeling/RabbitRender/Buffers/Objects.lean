/- RabbitRender/Buffers/Objects
   layer: model
   source: swrender/array.cpp, swrender/BufferObjectManager.cpp
   digest: Buffer objects, their names, and the calls that bind, generate and delete them. -/

import Mathlib.Logic.Function.Basic
import Mathlib.Tactic.Common
import RabbitRender.GL
import RabbitRender.Tokens.TokenManager

set_option autoImplicit false

namespace RabbitRender.Buffers.Objects

open Tokens Tokens.Tokenizer
open RabbitRender.GL (GLenum)

/-- `buffer_t`, without its storage. -/
structure Buffer where
  size : Int
  usage : GLenum
  name : UInt32
deriving DecidableEq, Repr

inductive Binding where
  | arrayBuffer
  | elementArrayBuffer
  | vertex
  | normal
  | color
  | texture (unit : Fin 2)
deriving DecidableEq, Repr

/-- The manager and the pointers. A pointer is known by the name of the object it points to. -/
structure Context where
  tokenizer : Ranges
  buffers : UInt32 → Option Buffer
  bound : Binding → Option UInt32
  error : GLenum

def oglesError (c : Context) (error : GLenum) : Context :=
  { c with error := GL.firstError c.error error }

/-- The context after `ogles_init`. -/
def init : Context :=
  { tokenizer := TokenManager.init, buffers := fun _ => none, bound := fun _ => none,
    error := GL.noError }

/-- `EGLBufferObjectManager::bind`: an unknown name gets an object. -/
def bind (c : Context) (buffer : UInt32) : Context :=
  match c.buffers buffer with
  | some _ => c
  | none =>
    let bo : Buffer := { size := 0, usage := GL.staticDraw, name := buffer }
    { c with buffers := Function.update c.buffers buffer (some bo) }

/-- `EGLBufferObjectManager::deleteBuffers`. -/
def deleteBuffers (c : Context) (names : List UInt32) : Context :=
  { c with buffers := fun name => if name ≠ 0 ∧ name ∈ names then none else c.buffers name }

/-- The pointer `glBindBuffer` sets for a target. -/
def targetBinding (target : GLenum) : Option Binding :=
  if target = GL.arrayBuffer then some .arrayBuffer
  else if target = GL.elementArrayBuffer then some .elementArrayBuffer
  else none

def glBindBuffer (c : Context) (target : GLenum) (buffer : UInt32) : Context :=
  match targetBinding target with
  | none => oglesError c GL.invalidEnum
  | some binding =>
    let c := if buffer ≠ 0 then bind c buffer else c
    let bo := if buffer ≠ 0 then some buffer else none
    { c with bound := Function.update c.bound binding bo }

def unbindBuffer (c : Context) (name : UInt32) : Context :=
  if name ≠ 0 then
    { c with bound := fun b => if c.bound b = some name then none else c.bound b }
  else c

/-- `glDeleteBuffers`, with the `n` names of the array. -/
def glDeleteBuffers (c : Context) (n : Int) (buffers : List UInt32) : Context :=
  if n < 0 then oglesError c GL.invalidValue
  else
    let names := buffers.take n.toNat
    let c := deleteBuffers (names.foldl unbindBuffer c) names
    { c with tokenizer := TokenManager.recycleTokens c.tokenizer names }

/-- `glGenBuffers`: the context and the names written. -/
def glGenBuffers (c : Context) (n : Int) : Context × List UInt32 :=
  if n < 0 then (oglesError c GL.invalidValue, [])
  else
    let (tokenizer, names) := TokenManager.getToken n.toNat c.tokenizer
    ({ c with tokenizer := tokenizer }, names)

theorem foldl_unbindBuffer (names : List UInt32) (c : Context) :
    (names.foldl unbindBuffer c).tokenizer = c.tokenizer ∧
      (names.foldl unbindBuffer c).buffers = c.buffers := by
  induction names generalizing c with
  | nil => exact ⟨rfl, rfl⟩
  | cons name names ih =>
    have one : (unbindBuffer c name).tokenizer = c.tokenizer ∧
        (unbindBuffer c name).buffers = c.buffers := by
      unfold unbindBuffer
      split_ifs <;> exact ⟨rfl, rfl⟩
    exact ⟨(ih _).1.trans one.1, (ih _).2.trans one.2⟩

theorem glDeleteBuffers_names {c : Context} {n : Int} (nonneg : ¬n < 0) (buffers : List UInt32) :
    (glDeleteBuffers c n buffers).tokenizer =
        TokenManager.recycleTokens c.tokenizer (buffers.take n.toNat) ∧
      (glDeleteBuffers c n buffers).buffers = (deleteBuffers c (buffers.take n.toNat)).buffers := by
  obtain ⟨tok, buf⟩ := foldl_unbindBuffer (buffers.take n.toNat) c
  rw [glDeleteBuffers, if_neg nonneg]
  refine ⟨?_, ?_⟩
  · change TokenManager.recycleTokens (List.foldl unbindBuffer c _).tokenizer _ = _
    rw [tok]
  · funext name
    simp only [deleteBuffers, buf]

theorem glBindBuffer_names (c : Context) (target : GLenum) (buffer : UInt32) :
    (glBindBuffer c target buffer).tokenizer = c.tokenizer ∧
      ∀ name, ((glBindBuffer c target buffer).buffers name).isSome →
        (c.buffers name).isSome ∨ name = buffer ∧ buffer ≠ 0 ∧ targetBinding target ≠ none := by
  unfold glBindBuffer
  rcases htarget : targetBinding target with _ | binding
  · exact ⟨rfl, fun _ h => Or.inl h⟩
  by_cases zero : buffer = 0
  · subst zero
    exact ⟨rfl, fun _ h => Or.inl h⟩
  simp only [if_pos (show buffer ≠ 0 from zero)]
  unfold bind
  rcases hlookup : c.buffers buffer with _ | bo
  · refine ⟨rfl, fun name h => ?_⟩
    by_cases same : name = buffer
    · exact Or.inr ⟨same, zero, Option.some_ne_none _⟩
    · exact Or.inl (by simpa [same] using h)
  · exact ⟨rfl, fun _ h => Or.inl h⟩

end RabbitRender.Buffers.Objects
