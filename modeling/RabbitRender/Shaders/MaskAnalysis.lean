/- RabbitRender/Shaders/MaskAnalysis
   layer: model
   source: compiler/shader/Shader.cpp, compiler/shader/Shader.hpp
   digest: The analysis of what the execution masks can affect; no value where it does not end. -/

import Mathlib.Data.Finset.Insert
import Mathlib.Logic.Function.Basic
import RabbitRender.Shaders.Instructions

set_option autoImplicit false

namespace RabbitRender.Shaders.MaskAnalysis

open Shaders.Instructions

variable {ι : Type}

/-- The fields `analysis` of the instructions, by index. -/
abbrev Flags := Nat → Finset Analysis

/-- `instruction[i]->analysis |= flag`. -/
def Flags.add (flags : Flags) (i : Nat) (flag : Analysis) : Flags :=
  Function.update flags i (insert flag (flags i))

def flagsOf (code : List (Instruction ι)) : Flags :=
  fun i => (code[i]?).elim ∅ Instruction.analysis

def withFlags (code : List (Instruction ι)) (flags : Flags) : List (Instruction ι) :=
  code.mapIdx fun i inst => { inst with analysis := flags i }

/-- The call of `markFunctionAnalysis`, here `mark`, for a function that is called. -/
def markCalled (mark : UInt32 → Flags → Option Flags) (inst : Instruction ι) (flags : Flags) :
    Option Flags :=
  if inst.isCall then mark inst.label flags else some flags

/-- The loop of `markFunctionAnalysis` from index `i` on, with its `marker`. -/
def scanFunction (mark : UInt32 → Flags → Option Flags) (functionLabel : UInt32) (flag : Analysis) :
    Bool → Nat → List (Instruction ι) → Flags → Option Flags
  | _, _, [], flags => some flags
  | false, i, inst :: rest, flags =>
    scanFunction mark functionLabel flag (inst.opcode = .label ∧ inst.label = functionLabel) (i + 1)
      rest flags
  | true, i, inst :: rest, flags =>
    if inst.opcode = .ret then some flags
    else do
      let flags ← markCalled mark inst flags
      scanFunction mark functionLabel flag true (i + 1) rest (flags.add i flag)

/-- `Shader::markFunctionAnalysis`; `fuel` bounds the depth of the recursion. -/
def markFunctionAnalysis (code : List (Instruction ι)) :
    Nat → UInt32 → Analysis → Flags → Option Flags
  | 0, _, _, _ => none
  | fuel + 1, functionLabel, flag, flags =>
    scanFunction (fun label => markFunctionAnalysis code fuel label flag) functionLabel flag false 0
      code flags

def markInstruction (code : List (Instruction ι)) (fuel : Nat) (flag functionFlag : Analysis)
    (i : Nat) (inst : Instruction ι) (flags : Flags) : Option Flags :=
  markCalled (fun label => markFunctionAnalysis code fuel label functionFlag) inst (flags.add i flag)

structure Analyzing where
  branchDepth : Int := 0
  breakDepth : Int := 0
  continueDepth : Int := 0
  leaveReturn : Bool := false
  functionBegin : Nat := 0
  flags : Flags

def branchDepthAt (inst : Instruction ι) (branchDepth : Int) : Int :=
  if inst.isBranch || inst.isLoop then branchDepth + 1
  else if inst.opcode = .endif || inst.isEndLoop then branchDepth - 1
  else branchDepth

def isContinue (inst : Instruction ι) : Bool := inst.opcode = .continue_

def nestMask (inst : Instruction ι) (maskDepth : Int) : Int :=
  if inst.isLoop || inst.opcode = .switch then maskDepth + 1
  else if inst.isEndLoop || inst.opcode = .endswitch then maskDepth - 1
  else maskDepth

section

variable (code : List (Instruction ι)) (fuel i : Nat) (inst : Instruction ι) (s : Analyzing)

def analyzeBranch : Option Analyzing :=
  let branchDepth := branchDepthAt inst s.branchDepth
  if 0 < branchDepth then do
    let flags ← markInstruction code fuel .branch .branch i inst s.flags
    return { s with branchDepth := branchDepth, flags := flags }
  else return { s with branchDepth := branchDepth }

def analyzeBreak : Option Analyzing :=
  let breakDepth := if inst.isBreak then s.breakDepth + 1 else s.breakDepth
  if 0 < breakDepth then do
    let flags ← markInstruction code fuel .break_ .branch i inst s.flags
    return { s with breakDepth := nestMask inst breakDepth, flags := flags }
  else return { s with breakDepth := breakDepth }

def analyzeContinue : Option Analyzing :=
  let continueDepth := if isContinue inst then s.continueDepth + 1 else s.continueDepth
  if 0 < continueDepth then do
    let flags ← markInstruction code fuel .continue_ .continue_ i inst s.flags
    return { s with continueDepth := nestMask inst continueDepth, flags := flags }
  else return { s with continueDepth := continueDepth }

/-- The first loop from `functionBegin` on, before `i`. -/
def firstLoop (functionBegin : Nat) : Option Nat :=
  (List.range' functionBegin (i - functionBegin)).find? fun l => (code[l]?).any Instruction.isLoop

/-- The instructions behind that loop's beginning, up to the return statement at `i`. -/
def markLoopBody (functionBegin : Nat) (flags : Flags) : Flags :=
  match firstLoop code i functionBegin with
  | some l => fun r => if l < r ∧ r < i then insert .leave (flags r) else flags r
  | none => flags

def enterLeave : Analyzing :=
  if inst.opcode = .leave then
    { s with leaveReturn := true, flags := markLoopBody code i s.functionBegin s.flags }
  else if inst.opcode = .ret then { s with leaveReturn := false }
  else if inst.opcode = .label then { s with functionBegin := i }
  else s

def analyzeLeave : Option Analyzing :=
  let s := enterLeave code i inst s
  if s.leaveReturn then do
    let flags ← markInstruction code fuel .leave .leave i inst s.flags
    return { s with flags := flags }
  else return s

def analyzeInstruction : Option Analyzing := do
  let s ← analyzeBranch code fuel i inst s
  let s ← analyzeBreak code fuel i inst s
  let s ← analyzeContinue code fuel i inst s
  analyzeLeave code fuel i inst s

end

/-- The pass from index `i` on. -/
def analyzeFrom (code : List (Instruction ι)) (fuel : Nat) :
    Nat → List (Instruction ι) → Analyzing → Option Analyzing
  | _, [], s => some s
  | i, inst :: rest, s => do
    let s ← analyzeInstruction code fuel i inst s
    analyzeFrom code fuel (i + 1) rest s

structure Presence where
  dynamicBranching : Bool := false
  containsLeave : Bool := false
  containsBreak : Bool := false
  containsContinue : Bool := false
  containsDefine : Bool := false
deriving DecidableEq, Repr

/-- A branching instruction; the case falls through to that of the definitions. -/
def Presence.addBranching (constBool : Bool) (inst : Instruction ι) (p : Presence) : Presence where
  dynamicBranching := p.dynamicBranching || !constBool
  containsLeave := p.containsLeave || inst.opcode = .leave
  containsBreak := p.containsBreak || inst.isBreak
  containsContinue := p.containsContinue || inst.opcode = .continue_
  containsDefine := true

/-- The first loop; `constBool` tells whether `src[0]` is a Boolean constant. -/
def presence (constBool : Instruction ι → Bool) (code : List (Instruction ι)) : Presence :=
  code.foldl (fun p inst =>
    match inst.opcode with
    | .callnz | .if_ | .ifc | .break_ | .breakc | .breakp | .leave | .continue_ =>
      p.addBranching (constBool inst) inst
    | .other 94 => p.addBranching (constBool inst) inst
    | .other 81 | .other 47 | .other 48 => { p with containsDefine := true }
    | _ => p) {}

/-- `Shader::analyzeDynamicBranching`: the presence of branching, and the list with its new flags. -/
def analyzeDynamicBranching (constBool : Instruction ι → Bool) (fuel : Nat)
    (code : List (Instruction ι)) : Option (Presence × List (Instruction ι)) := do
  let s ← analyzeFrom code fuel 0 code { flags := flagsOf code }
  return (presence constBool code, withFlags code s.flags)

end RabbitRender.Shaders.MaskAnalysis
