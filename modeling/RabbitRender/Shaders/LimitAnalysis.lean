/- RabbitRender/Shaders/LimitAnalysis
   layer: model
   source: compiler/shader/Shader.cpp, compiler/shader/Shader.hpp
   digest: The analysis of nesting limits; no value where an assertion fails. -/

import Mathlib.Logic.Function.Basic
import RabbitRender.Shaders.Instructions

set_option autoImplicit false

namespace RabbitRender.Shaders.LimitAnalysis

open Shaders.Instructions

variable {ι : Type}

abbrev FunctionID := UInt32

def mainId : FunctionID := 0xF0000000

def invalidId : FunctionID := 0xFFFFFFFF

structure FunctionLimits where
  loops : Nat := 0
  ifs : Nat := 0
  stack : Nat := 0
deriving DecidableEq, Repr

/-- Information about a single function in the shader; `calls` without repetitions. -/
structure FunctionInfo where
  limits : FunctionLimits := {}
  calls : List FunctionID := []
  reachable : Bool := false
deriving DecidableEq, Repr

/-- The map `functions`: its keys, and what it has for them. -/
structure Functions where
  ids : List FunctionID := []
  info : FunctionID → FunctionInfo := fun _ => {}

/-- `functions[id] = info`. -/
def Functions.put (functions : Functions) (id : FunctionID) (info : FunctionInfo) : Functions :=
  { ids := if id ∈ functions.ids then functions.ids else functions.ids ++ [id]
    info := Function.update functions.info id info }

/-- A change of `functions[id]`. -/
def Functions.modify (functions : Functions) (id : FunctionID) (change : FunctionInfo → FunctionInfo) :
    Functions :=
  functions.put id (change (functions.info id))

/-- `functions` with the main entry point. -/
def Functions.main : Functions := ({} : Functions).put mainId { reachable := true }

def identify : FunctionID → Functions → List (Instruction ι) → Option Functions
  | _, functions, [] => some functions
  | currentFunc, functions, i :: rest =>
    match i.opcode with
    | .label =>
      if currentFunc = invalidId then
        if i.label = mainId then none else identify currentFunc (functions.put i.label {}) rest
      else identify currentFunc functions rest
    | .ret => identify invalidId functions rest
    | _ => identify currentFunc functions rest

structure Gathering where
  functions : Functions
  currentFunc : FunctionID
  currentLimits : FunctionLimits
  maxLabel : Nat

def FunctionInfo.addCall (id : FunctionID) (info : FunctionInfo) : FunctionInfo :=
  { info with calls := if id ∈ info.calls then info.calls else info.calls ++ [id] }

def FunctionInfo.addLoops (loops : Nat) (info : FunctionInfo) : FunctionInfo :=
  { info with limits.loops := max info.limits.loops loops }

def FunctionInfo.addIfs (ifs : Nat) (info : FunctionInfo) : FunctionInfo :=
  { info with limits.ifs := max info.limits.ifs ifs }

def FunctionInfo.reach (info : FunctionInfo) : FunctionInfo := { info with reachable := true }

def gather (s : Gathering) (i : Instruction ι) : Option Gathering :=
  match i.opcode with
  | .label =>
    let s := { s with maxLabel := max s.maxLabel i.label.toNat }
    if s.currentFunc = invalidId then
      if i.label ∈ s.functions.ids then some { s with currentFunc := i.label } else none
    else some s
  | .call | .callnz =>
    if s.currentFunc ≠ invalidId ∧ i.label ∈ s.functions.ids then
      let functions := s.functions.modify s.currentFunc (FunctionInfo.addCall i.label)
      some { s with functions := functions.modify i.label FunctionInfo.reach }
    else none
  | .loop | .rep | .while_ | .switch =>
    if s.currentFunc ≠ invalidId then
      let loops := s.currentLimits.loops + 1
      some { s with
        functions := s.functions.modify s.currentFunc (FunctionInfo.addLoops loops)
        currentLimits.loops := loops }
    else none
  | .endloop | .endrep | .endwhile | .endswitch =>
    if 0 < s.currentLimits.loops then
      some { s with currentLimits.loops := s.currentLimits.loops - 1 }
    else none
  | .if_ | .ifc =>
    if s.currentFunc ≠ invalidId then
      let ifs := s.currentLimits.ifs + 1
      some { s with
        functions := s.functions.modify s.currentFunc (FunctionInfo.addIfs ifs)
        currentLimits.ifs := ifs }
    else none
  | .endif =>
    if 0 < s.currentLimits.ifs then
      some { s with currentLimits.ifs := s.currentLimits.ifs - 1 }
    else none
  | .ret =>
    if s.currentFunc ≠ invalidId ∧ s.currentLimits.ifs = 0 ∧ s.currentLimits.loops = 0 then
      some { s with currentFunc := invalidId, currentLimits := {} }
    else none
  | _ => some s

structure Limits where
  loops : Nat := 0
  ifs : Nat := 0
  stack : Nat := 0
  maxLabel : Nat := 0
deriving DecidableEq, Repr

def Limits.addCallee (limits calleeLimits : Limits) : Limits :=
  { limits with
    loops := max limits.loops calleeLimits.loops
    ifs := max limits.ifs calleeLimits.ifs
    stack := max limits.stack (calleeLimits.stack + 1) }

/-- The closure `traverse`. -/
def traverse (functions : Functions) : Nat → List FunctionID → FunctionID → Option Limits
  | 0, _, _ => none
  | fuel + 1, visited, id =>
    if id ∈ visited then none
    else do
      let func := functions.info id
      let limits ← func.calls.foldlM (fun (limits : Limits) callee => do
        let calleeLimits ← traverse functions fuel (id :: visited) callee
        return limits.addCallee calleeLimits) { stack := 1 }
      return { limits with
        loops := limits.loops + func.limits.loops, ifs := limits.ifs + func.limits.ifs }

/-- `Shader::analyzeLimits`; `fuel` bounds the depth of the recursion. -/
def analyzeLimits (fuel : Nat) (code : List (Instruction ι)) : Option Limits := do
  let functions ← identify mainId Functions.main code
  let s ← code.foldlM gather ⟨functions, mainId, {}, 0⟩
  if s.functions.ids.all fun id => (s.functions.info id).reachable then
    let limits ← traverse s.functions fuel [] mainId
    return { limits with maxLabel := s.maxLabel }
  else none

end RabbitRender.Shaders.LimitAnalysis
