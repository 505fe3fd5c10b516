/- RabbitRender/Shaders/Instructions
   layer: model
   source: compiler/shader/Shader.cpp, compiler/shader/Shader.hpp
   digest: Shader instruction lists, their nesting, and the programs that are well formed. -/

import Mathlib.Data.Finset.Insert
import Mathlib.Data.List.Nodup
import Mathlib.Logic.Relation

set_option autoImplicit false

namespace RabbitRender.Shaders.Instructions

/-- `Opcode`: the control opcodes by name, every other one by its number. -/
inductive Opcode where
  | null | if_ | ifc | else_ | endif | loop | rep | while_ | endloop | endrep | endwhile
  | switch | endswitch | break_ | breakc | breakp | continue_ | test | leave | call | callnz
  | label | ret
  | other (number : Nat)
deriving DecidableEq, Repr

/-- `Analysis`, the flags of an instruction that an execution mask can affect. -/
inductive Analysis where
  | branch | break_ | continue_ | leave
deriving DecidableEq, Repr

/-- An instruction: its opcode, `dst.label`, its flags, and the operands no pass looks at. -/
structure Instruction (ι : Type) where
  opcode : Opcode
  label : UInt32
  operands : ι
  analysis : Finset Analysis := ∅
deriving DecidableEq

variable {ι : Type}

namespace Instruction

def isBranch (i : Instruction ι) : Bool := i.opcode = .if_ ∨ i.opcode = .ifc
def isCall (i : Instruction ι) : Bool := i.opcode = .call ∨ i.opcode = .callnz
def isBreak (i : Instruction ι) : Bool :=
  i.opcode = .break_ ∨ i.opcode = .breakc ∨ i.opcode = .breakp
def isLoop (i : Instruction ι) : Bool :=
  i.opcode = .loop ∨ i.opcode = .rep ∨ i.opcode = .while_
def isEndLoop (i : Instruction ι) : Bool :=
  i.opcode = .endloop ∨ i.opcode = .endrep ∨ i.opcode = .endwhile

/-- `instruction[i]->opcode = OPCODE_NULL`. -/
def nulled (i : Instruction ι) : Instruction ι := { i with opcode := .null }

@[simp] theorem nulled_opcode (i : Instruction ι) : i.nulled.opcode = .null := rfl

end Instruction

/-- The kinds of blocks; `alternative` is a branch behind its ELSE. -/
inductive Block where
  | branch | alternative | loop | rep | while_ | switch
deriving DecidableEq, Repr

def Block.repeats : Block → Bool
  | .loop | .rep | .while_ => true
  | _ => false

def Block.catches : Block → Bool
  | .loop | .rep | .while_ | .switch => true
  | _ => false

/-- What an opcode does to the flow of control; `plain` opcodes do nothing to it. -/
inductive Role where
  | plain
  | skip
  | test
  | opens (b : Block)
  | alternates
  | closes (b : Block)
  | breaks (always : Bool)
  | continues
  | calls (always : Bool)
  | leaves
  | returns
deriving DecidableEq, Repr

def Opcode.role : Opcode → Role
  | .null | .label => .skip
  | .if_ | .ifc => .opens .branch
  | .else_ => .alternates
  | .endif => .closes .branch
  | .loop => .opens .loop
  | .rep => .opens .rep
  | .while_ => .opens .while_
  | .endloop => .closes .loop
  | .endrep => .closes .rep
  | .endwhile => .closes .while_
  | .switch => .opens .switch
  | .endswitch => .closes .switch
  | .break_ => .breaks true
  | .breakc | .breakp => .breaks false
  | .continue_ => .continues
  | .test => .test
  | .leave => .leaves
  | .call => .calls true
  | .callnz => .calls false
  | .ret => .returns
  | .other _ => .plain

def Instruction.role (i : Instruction ι) : Role := i.opcode.role

/-- An end of kind `b` closes the block `o`: ENDIF closes a branch with or without an ELSE. -/
def Block.closedBy (o b : Block) : Bool := o = b ∨ o = .alternative ∧ b = .branch

/-- The blocks left open after the code up to its RET, when those in the list are open before it;
`none` where the code is not properly nested. -/
def nesting : List Block → List (Instruction ι) → Option (List Block)
  | open_, [] => some open_
  | open_, i :: rest =>
    match i.role with
    | .opens b => nesting (b :: open_) rest
    | .alternates =>
      match open_ with
      | .branch :: outer => nesting (.alternative :: outer) rest
      | _ => none
    | .closes b =>
      match open_ with
      | o :: outer => if o.closedBy b then nesting outer rest else none
      | [] => none
    | .returns => some open_
    | _ => nesting open_ rest

def calls (code : List (Instruction ι)) : List UInt32 :=
  (code.filter Instruction.isCall).map Instruction.label

structure Body (code : List (Instruction ι)) : Prop where
  noLabel : ∀ i ∈ code, i.opcode ≠ .label
  noRet : ∀ i ∈ code, i.opcode ≠ .ret
  nested : nesting [] code = some []

structure Function (ι : Type) where
  head : Instruction ι
  body : List (Instruction ι)
  last : Instruction ι
  isLabel : head.opcode = .label
  isRet : last.opcode = .ret
  isBody : Body body

namespace Function

def number (f : Function ι) : UInt32 := f.head.label

def text (f : Function ι) : List (Instruction ι) := f.head :: f.body ++ [f.last]

end Function

/-- The function with number `n` calls the one with number `m`. -/
def Calls (functions : List (Function ι)) (n m : UInt32) : Prop :=
  ∃ f ∈ functions, f.number = n ∧ m ∈ calls f.body

structure Program (ι : Type) where
  main : List (Instruction ι)
  ret : Option (Instruction ι)
  functions : List (Function ι)
  isMain : Body main
  isRet : ∀ i ∈ ret, i.opcode = .ret
  closed : functions ≠ [] → ret.isSome
  distinct : (functions.map Function.number).Nodup
  mainCalls : ∀ n ∈ calls main, n ∈ functions.map Function.number
  functionCalls : ∀ f ∈ functions, ∀ n ∈ calls f.body, n ∈ functions.map Function.number
  noRecursion : ∀ n, ¬ Relation.TransGen (Calls functions) n n

def Program.instructions (p : Program ι) : List (Instruction ι) :=
  p.main ++ p.ret.toList ++ p.functions.flatMap Function.text

end RabbitRender.Shaders.Instructions
