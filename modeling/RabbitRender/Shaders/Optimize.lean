/- RabbitRender/Shaders/Optimize
   layer: model
   source: compiler/shader/Shader.cpp
   digest: The optimizations of an instruction list, and the programs they leave. -/

import Mathlib.Data.Finset.Card
import Mathlib.Data.Finset.Dedup
import RabbitRender.Shaders.Instructions

set_option autoImplicit false

namespace RabbitRender.Shaders.Optimize

open Shaders.Instructions

variable {ι : Type}

/-- `optimizeLeave`: a LEAVE at the end, or right before a RET, is dead. -/
def optimizeLeave : List (Instruction ι) → List (Instruction ι)
  | [] => []
  | i :: rest =>
    (if i.opcode = .leave ∧ ∀ next ∈ rest.head?, next.opcode = .ret then i.nulled else i) ::
      optimizeLeave rest

/-- One pass over the list: from the LABEL of a function that is not called up to its RET
(`erasing`) every instruction is nulled. The flag is `rescan`. -/
def eraseUncalled (called : Finset UInt32) : Bool → List (Instruction ι) →
    List (Instruction ι) × Bool
  | _, [] => ([], false)
  | false, i :: rest =>
    if i.opcode = .label ∧ i.label ∉ called then
      (i.nulled :: (eraseUncalled called true rest).1, (eraseUncalled called true rest).2)
    else (i :: (eraseUncalled called false rest).1, (eraseUncalled called false rest).2)
  | true, i :: rest =>
    if i.opcode = .ret then (i.nulled :: (eraseUncalled called false rest).1, true)
    else (i.nulled :: (eraseUncalled called true rest).1, (eraseUncalled called true rest).2)

def isRet (i : Instruction ι) : Bool := i.opcode = .ret

/-- Every function that is erased takes a `RET` with it. -/
private theorem countRet_le (called : Finset UInt32) (code : List (Instruction ι)) : ∀ erasing,
    (eraseUncalled called erasing code).1.countP isRet +
      (eraseUncalled called erasing code).2.toNat ≤ code.countP isRet := by
  induction code with
  | nil => exact fun _ => Nat.le_refl 0
  | cons i rest ih =>
    intro erasing
    have nulled : isRet i.nulled = false := rfl
    have kept := ih false
    have erased := ih true
    cases erasing with
    | false =>
      rw [eraseUncalled]
      split_ifs <;> simp only [List.countP_cons, nulled, Bool.false_eq_true, if_false] <;> omega
    | true =>
      rw [eraseUncalled]
      split_ifs with ends
      · have ret : isRet i = true := decide_eq_true ends
        simp only [List.countP_cons, nulled, ret, Bool.false_eq_true, if_false, if_true,
          Bool.toNat_true]
        omega
      · simp only [List.countP_cons, nulled, Bool.false_eq_true, if_false]
        omega

private theorem countRet_lt (called : Finset UInt32) (code : List (Instruction ι)) (erasing : Bool)
    (rescan : (eraseUncalled called erasing code).2 = true) :
    (eraseUncalled called erasing code).1.countP isRet < code.countP isRet := by
  have count := countRet_le called code erasing
  rw [rescan] at count
  exact count

/-- The loop of `optimizeCall`: the list it leaves, and `calledFunctions`. -/
def eliminateUncalled (code : List (Instruction ι)) : List (Instruction ι) × Finset UInt32 :=
  if (calls code).toFinset = ∅ then (code, ∅)
  else if (eraseUncalled (calls code).toFinset false code).2 = true then
    eliminateUncalled (eraseUncalled (calls code).toFinset false code).1
  else ((eraseUncalled (calls code).toFinset false code).1, (calls code).toFinset)
termination_by code.countP isRet
decreasing_by exact countRet_lt _ _ _ ‹_›

def inlineFunctions (code : List (Instruction ι)) : List (Instruction ι) :=
  code.map fun i => if i.opcode = .label ∨ i.opcode = .ret then i.nulled else i

def optimizeEntry (called : Finset UInt32) : List (Instruction ι) → List (Instruction ι)
  | first :: second :: rest =>
    if first.opcode = .call ∧ second.opcode = .ret ∧ called.card = 1 then
      first.nulled :: second.nulled :: inlineFunctions rest
    else first :: second :: rest
  | code => code

def optimizeCall (code : List (Instruction ι)) : List (Instruction ι) :=
  optimizeEntry (eliminateUncalled code).2 (eliminateUncalled code).1

def removeNull (code : List (Instruction ι)) : List (Instruction ι) :=
  code.filter fun i => i.opcode ≠ .null

/-- `Shader::optimize`. -/
def optimize (code : List (Instruction ι)) : List (Instruction ι) :=
  removeNull (optimizeCall (optimizeLeave code))

end RabbitRender.Shaders.Optimize
