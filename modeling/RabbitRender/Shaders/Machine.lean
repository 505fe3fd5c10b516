/- RabbitRender/Shaders/Machine
   layer: model
   source: compiler/shader/Shader.hpp, compiler/shader/Shader.cpp
   digest: What it means to run a shader instruction list. -/

import Mathlib.Computability.StateTransition
import RabbitRender.Shaders.Instructions

set_option autoImplicit false

namespace RabbitRender.Shaders.Machine

open Shaders.Instructions

variable {ι σ : Type}

/-- What stands at the level of a block still open: its end, its ELSE, or a TEST in it. -/
inductive Mark where
  | closes (b : Block)
  | alternates
  | test
deriving DecidableEq, Repr

def Mark.isEnd : Mark → Bool
  | .closes _ => true
  | _ => false

structure Exit (ι : Type) where
  mark : Mark
  code : List (Instruction ι)

def fromEnd : List (Exit ι) → List (Exit ι)
  | [] => []
  | e :: exits => if e.mark.isEnd then e :: exits else fromEnd exits

def pastEnd (exits : List (Exit ι)) : List (Exit ι) := (fromEnd exits).tail

def exits : List (Instruction ι) → List (Exit ι)
  | [] => []
  | i :: rest =>
    match i.role with
    | .opens _ => pastEnd (exits rest)
    | .closes b => ⟨.closes b, i :: rest⟩ :: exits rest
    -- a TEST in the other part of the IF is no place to go on
    | .alternates => ⟨.alternates, i :: rest⟩ :: fromEnd (exits rest)
    | .test => ⟨.test, i :: rest⟩ :: exits rest
    | .returns => []
    | _ => exits rest

/-- The first mark that `wanted` accepts: how many blocks end before it, and the code there. -/
def seek (wanted : Mark → Bool) : List (Exit ι) → Option (Nat × List (Instruction ι))
  | [] => none
  | e :: exits =>
    if wanted e.mark then some (0, e.code)
    else (seek wanted exits).map fun (n, code) => (if e.mark.isEnd then n + 1 else n, code)

def Mark.endOrElse : Mark → Bool
  | .test => false
  | _ => true

def Mark.breakTarget : Mark → Bool
  | .closes b => b.catches
  | _ => false

def Mark.continueTarget : Mark → Bool
  | .closes b => b.repeats
  | .test => true
  | .alternates => false

def functionCode (label : UInt32) : List (Instruction ι) → Option (List (Instruction ι))
  | [] => none
  | i :: rest =>
    if i.opcode = .label ∧ i.label = label then some rest else functionCode label rest

/-- A meaning of the instructions: what each does to the state (for a loop's beginning and end, to
its counters), and whether a condition holds. -/
structure Interpretation (ι σ : Type) where
  apply : Instruction ι → σ → σ
  test : Instruction ι → σ → Bool

/-- A block that is open, with its first instruction and the code behind that, or a call. -/
inductive Frame (ι : Type) where
  | block (b : Block) (head : Instruction ι) (body : List (Instruction ι))
  | call (rest : List (Instruction ι))

/-- The code from the current instruction on, the open blocks and calls, the innermost first, the
instructions executed, the last first, and the state. -/
structure Config (ι σ : Type) where
  code : List (Instruction ι)
  frames : List (Frame ι)
  executed : List (Instruction ι)
  state : σ

def start (code : List (Instruction ι)) (s : σ) : Config ι σ := ⟨code, [], [], s⟩

def unwind : List (Frame ι) → List (Instruction ι) × List (Frame ι)
  | [] => ([], [])
  | .block _ _ _ :: frames => unwind frames
  | .call rest :: frames => (rest, frames)

/-- Out of the `n` innermost blocks of the current function. -/
def leaveBlocks : Nat → List (Frame ι) → List (Frame ι)
  | n + 1, .block _ _ _ :: frames => leaveBlocks n frames
  | _, frames => frames

section

variable (m : Interpretation ι σ)

/-- A block begins; where its condition fails it is skipped, an IF up to its ELSE. -/
def enter (i : Instruction ι) (b : Block) (rest : List (Instruction ι)) (c : Config ι σ) :
    Option (Config ι σ) :=
  let s := if b.repeats then m.apply i c.state else c.state
  if b = .switch ∨ m.test i s then
    some { c with code := rest, frames := .block b i rest :: c.frames, state := s }
  else
    match seek Mark.endOrElse (exits rest) with
    | some (_, e :: code) =>
      if e.role = .alternates then
        some { c with code := code, frames := .block .alternative e code :: c.frames, state := s }
      else some { c with code := code, state := s }
    | _ => none

/-- A block ends; a loop whose condition still holds goes back to its beginning. -/
def leaveBlock (i : Instruction ι) (rest : List (Instruction ι)) (c : Config ι σ) :
    Option (Config ι σ) :=
  match c.frames with
  | .block b head body :: frames =>
    if b.repeats then
      let s := m.apply i c.state
      if m.test head s then some { c with code := body, state := s }
      else some { c with code := rest, frames := frames, state := s }
    else some { c with code := rest, frames := frames }
  | _ => none

/-- A jump behind the first mark that `wanted` accepts, which is an end. -/
def jumpBehind (wanted : Mark → Bool) (rest : List (Instruction ι)) (c : Config ι σ) :
    Option (Config ι σ) :=
  match seek wanted (exits rest) with
  | some (n, _ :: code) => some { c with code := code, frames := leaveBlocks (n + 1) c.frames }
  | _ => none

/-- A jump to the first mark that `wanted` accepts. -/
def jumpTo (wanted : Mark → Bool) (rest : List (Instruction ι)) (c : Config ι σ) :
    Option (Config ι σ) :=
  (seek wanted (exits rest)).map fun (n, code) =>
    { c with code := code, frames := leaveBlocks n c.frames }

/-- One step of the program with the instruction list `program`. -/
def step (program : List (Instruction ι)) (c : Config ι σ) : Option (Config ι σ) :=
  match c.code with
  | [] => none
  | i :: rest =>
    match i.role with
    | .plain => some { c with
        code := rest, executed := i :: c.executed, state := m.apply i c.state }
    | .skip | .test => some { c with code := rest }
    | .opens b => enter m i b rest c
    | .alternates => jumpBehind Mark.isEnd rest c
    | .closes _ => leaveBlock m i rest c
    | .breaks always =>
      if always || m.test i c.state then jumpBehind Mark.breakTarget rest c
      else some { c with code := rest }
    | .continues => jumpTo Mark.continueTarget rest c
    | .calls always =>
      if always || m.test i c.state then
        (functionCode i.label program).map fun body =>
          { c with code := body, frames := .call rest :: c.frames }
      else some { c with code := rest }
    | .leaves | .returns => some { c with code := (unwind c.frames).1, frames := (unwind c.frames).2 }

end

section

variable {m : Interpretation ι σ} {i : Instruction ι} {b : Block} {rest : List (Instruction ι)}
  {c d : Config ι σ}

theorem enter_cases (next : enter m i b rest c = some d) : ∃ y,
    d = { c with code := rest, frames := .block b i rest :: c.frames, state := y } ∨
    ∃ n e code, seek Mark.endOrElse (exits rest) = some (n, e :: code) ∧
      (e.role = .alternates ∧
        d = { c with code := code, frames := .block .alternative e code :: c.frames, state := y } ∨
      e.role ≠ .alternates ∧ d = { c with code := code, state := y }) := by
  simp only [enter] at next
  generalize (if b.repeats = true then m.apply i c.state else c.state) = y at next
  refine ⟨y, ?_⟩
  split_ifs at next with taken
  · exact .inl (Option.some_inj.mp next).symm
  · split at next
    · rename_i n e code found
      split_ifs at next with other
      · exact .inr ⟨n, e, code, found, .inl ⟨other, (Option.some_inj.mp next).symm⟩⟩
      · exact .inr ⟨n, e, code, found, .inr ⟨other, (Option.some_inj.mp next).symm⟩⟩
    · cases next

theorem leaveBlock_cases (next : leaveBlock m i rest c = some d) :
    ∃ b head body frames y, c.frames = .block b head body :: frames ∧
      (b.repeats = true ∧ d = { c with code := body, state := y } ∨
        d = { c with code := rest, frames := frames, state := y }) := by
  unfold leaveBlock at next
  split at next
  · rename_i b head body frames found
    by_cases repeats : b.repeats = true
    · simp only [if_pos repeats] at next
      split_ifs at next
      · exact ⟨b, head, body, frames, _, found, .inl ⟨repeats, (Option.some_inj.mp next).symm⟩⟩
      · exact ⟨b, head, body, frames, _, found, .inr (Option.some_inj.mp next).symm⟩
    · rw [if_neg repeats] at next
      exact ⟨b, head, body, frames, c.state, found, .inr (Option.some_inj.mp next).symm⟩
  · cases next

theorem jumpBehind_cases {wanted : Mark → Bool} (next : jumpBehind wanted rest c = some d) :
    ∃ n e code, seek wanted (exits rest) = some (n, e :: code) ∧
      d = { c with code := code, frames := leaveBlocks (n + 1) c.frames } := by
  unfold jumpBehind at next
  split at next
  · rename_i n e code found
    exact ⟨n, e, code, found, (Option.some_inj.mp next).symm⟩
  · cases next

theorem jumpTo_cases {wanted : Mark → Bool} (next : jumpTo wanted rest c = some d) :
    ∃ n code, seek wanted (exits rest) = some (n, code) ∧
      d = { c with code := code, frames := leaveBlocks n c.frames } := by
  obtain ⟨⟨n, code⟩, found, same⟩ := Option.map_eq_some_iff.mp next
  exact ⟨n, code, found, same.symm⟩

end

theorem step_executed {m : Interpretation ι σ} {program : List (Instruction ι)} {c d : Config ι σ}
    (next : step m program c = some d) : c.executed <:+ d.executed := by
  obtain ⟨code, frames, executed, x⟩ := c
  have stays : ∀ {e : Config ι σ}, e.executed = executed → executed <:+ e.executed :=
    fun same => same ▸ List.suffix_refl _
  cases code with
  | nil => cases next
  | cons i rest =>
    simp only [step] at next
    cases role : i.role with
    | plain =>
      simp only [role, Option.some_inj] at next
      exact next ▸ List.suffix_cons i executed
    | opens b =>
      simp only [role] at next
      obtain ⟨y, rfl | ⟨n, e, code, -, ⟨-, rfl⟩ | ⟨-, rfl⟩⟩⟩ := enter_cases next <;> exact stays rfl
    | closes b =>
      simp only [role] at next
      obtain ⟨b, head, body, fs, y, -, ⟨-, rfl⟩ | rfl⟩ := leaveBlock_cases next <;> exact stays rfl
    | alternates =>
      simp only [role] at next
      obtain ⟨n, e, code, -, rfl⟩ := jumpBehind_cases next
      exact stays rfl
    | breaks always =>
      simp only [role] at next
      split_ifs at next
      · obtain ⟨n, e, code, -, rfl⟩ := jumpBehind_cases next
        exact stays rfl
      · cases next
        exact stays rfl
    | continues =>
      simp only [role] at next
      obtain ⟨n, code, -, rfl⟩ := jumpTo_cases next
      exact stays rfl
    | calls always =>
      simp only [role] at next
      split_ifs at next
      · obtain ⟨body, -, rfl⟩ := Option.map_eq_some_iff.mp next
        exact stays rfl
      · cases next
        exact stays rfl
    | _ =>
      simp only [role, Option.some_inj] at next
      exact next ▸ stays rfl

theorem reaches_executed {m : Interpretation ι σ} {program : List (Instruction ι)}
    {c d : Config ι σ} (reaches : StateTransition.Reaches (step m program) c d) :
    c.executed <:+ d.executed := by
  induction reaches with
  | refl => exact List.suffix_refl _
  | tail _ next ih => exact ih.trans (step_executed next)

def Config.outcome (c : Config ι σ) : List (Instruction ι) × σ := (c.executed, c.state)

/-- The outcome of the list, run from `s` to its end; undefined where the run does not end. -/
noncomputable def outcome (m : Interpretation ι σ) (program : List (Instruction ι)) (s : σ) :
    Part (List (Instruction ι) × σ) :=
  (StateTransition.eval (step m program) (start program s)).map Config.outcome

/-- The list, run from `s`, has executed these instructions, the last first, at some time. -/
def Executes (m : Interpretation ι σ) (program : List (Instruction ι)) (s : σ)
    (executed : List (Instruction ι)) : Prop :=
  ∃ c, StateTransition.Reaches (step m program) (start program s) c ∧ executed <:+ c.executed

end RabbitRender.Shaders.Machine
