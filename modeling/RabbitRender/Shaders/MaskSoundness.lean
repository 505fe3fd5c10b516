/- RabbitRender/Shaders/MaskSoundness
   layer: result
   source: compiler/shader/Shader.cpp, compiler/shader/Shader.hpp
   digest: The flags the analysis leaves, and the programs it is sound for. -/

import RabbitRender.Shaders.FunctionCode
import RabbitRender.Shaders.MaskRegions

set_option autoImplicit false

namespace RabbitRender.Shaders.MaskSoundness

open Relation Lib.Cycles Lib.Gates Shaders.Instructions Shaders.MaskAnalysis Shaders.Machine
open Shaders.FunctionCode Shaders.MaskMarks Shaders.MaskRegions

variable {ι : Type}

/-- An instruction with its own flag, and what it calls with the flag for functions. -/
def Noted (code : List (Instruction ι)) (flag functionFlag : Analysis) (i : Nat)
    (inst : Instruction ι) (a : Analysis) (q : Nat) : Prop :=
  a = flag ∧ q = i ∨ a = functionFlag ∧ inst.isCall = true ∧ InCallees code inst.label q

/-- Behind a loop's beginning, from `functionBegin` on, and before `i`. -/
def LoopBody (code : List (Instruction ι)) (functionBegin i q : Nat) : Prop :=
  ∃ l loop, functionBegin ≤ l ∧ code[l]? = some loop ∧ loop.isLoop = true ∧ l < q ∧ q < i

/-- `leaveReturn` after the instruction. -/
def leaveAt (inst : Instruction ι) (leaveReturn : Bool) : Bool :=
  if inst.opcode = .leave then true else if inst.opcode = .ret then false else leaveReturn

/-- `functionBegin` after the instruction. -/
def beginAt (i : Nat) (inst : Instruction ι) (functionBegin : Nat) : Nat :=
  if inst.opcode = .label then i else functionBegin

section

variable {code : List (Instruction ι)} {fuel i : Nat} {inst : Instruction ι}

private theorem markInstruction_marks {functionFlag : Analysis}
    (marks : ∀ n, Marks code functionFlag (markFunctionAnalysis code fuel n functionFlag) n)
    (flag : Analysis) (flags : Flags) :
    ∃ flags', markInstruction code fuel flag functionFlag i inst flags = some flags' ∧
      Marked (Noted code flag functionFlag i inst) flags flags' := by
  obtain ⟨flags', called, marked⟩ := @markCalled_marks _ _
    (fun label => markFunctionAnalysis code fuel label functionFlag) _ inst
    (fun _ => marks inst.label) (flags.add i flag)
  exact ⟨flags', called, (Marked.add flags i flag).trans marked⟩

/-- A mark under a guard, whichever depth is written beside it. -/
private theorem guarded_marks {flag functionFlag : Analysis}
    (marks : ∀ n, Marks code functionFlag (markFunctionAnalysis code fuel n functionFlag) n)
    (p : Prop) [Decidable p] (flags : Flags) (marking last : Flags → Analyzing) (skip : Analyzing)
    (open_ : p → marking = last) (shut : ¬p → skip = last flags) :
    ∃ flags', (if p then do
        let flags ← markInstruction code fuel flag functionFlag i inst flags
        return marking flags
      else return skip) = some (last flags') ∧
      Marked (fun a q => p ∧ Noted code flag functionFlag i inst a q) flags flags' := by
  by_cases on : p
  · obtain ⟨flags', done, marked⟩ := @markInstruction_marks _ _ _ i inst _ marks flag flags
    refine ⟨flags', ?_, marked.congr fun a q => by simp [on]⟩
    rw [if_pos on, done, open_ on]
    rfl
  · refine ⟨flags, ?_, (Marked.refl flags).congr fun a q => by simp [on]⟩
    rw [if_neg on, shut on]
    rfl

private theorem analyzeBranch_marks
    (marks : ∀ n, Marks code .branch (markFunctionAnalysis code fuel n .branch) n) (s : Analyzing) :
    ∃ flags', analyzeBranch code fuel i inst s =
        some { s with branchDepth := branchDepthAt inst s.branchDepth, flags := flags' } ∧
      Marked (fun a q => 0 < branchDepthAt inst s.branchDepth ∧
        Noted code .branch .branch i inst a q) s.flags flags' :=
  guarded_marks marks _ s.flags _ _ _ (fun _ => rfl) fun _ => rfl

private theorem analyzeBreak_marks
    (marks : ∀ n, Marks code .branch (markFunctionAnalysis code fuel n .branch) n) (s : Analyzing) :
    ∃ flags', analyzeBreak code fuel i inst s = some { s with
        breakDepth := gate Instruction.isBreak maskWeight inst s.breakDepth, flags := flags' } ∧
      Marked (fun a q => 0 < raised Instruction.isBreak s.breakDepth inst ∧
        Noted code .break_ .branch i inst a q) s.flags flags' :=
  guarded_marks marks _ s.flags _ _ _ (fun on => by rw [gate_open on, ← nestMask_eq]; rfl)
    fun off => by rw [gate_shut off]; rfl

private theorem analyzeContinue_marks
    (marks : ∀ n, Marks code .continue_ (markFunctionAnalysis code fuel n .continue_) n)
    (s : Analyzing) :
    ∃ flags', analyzeContinue code fuel i inst s = some { s with
        continueDepth := gate isContinue maskWeight inst s.continueDepth, flags := flags' } ∧
      Marked (fun a q => 0 < raised isContinue s.continueDepth inst ∧
        Noted code .continue_ .continue_ i inst a q) s.flags flags' :=
  guarded_marks marks _ s.flags _ _ _ (fun on => by rw [gate_open on, ← nestMask_eq]; rfl)
    fun off => by rw [gate_shut off]; rfl

private theorem markLoopBody_marks (functionBegin : Nat) (flags : Flags) :
    Marked (fun a q => a = .leave ∧ LoopBody code functionBegin i q) flags
      (markLoopBody code i functionBegin flags) := by
  intro a q
  rw [markLoopBody]
  cases first : firstLoop code i functionBegin with
  | none =>
    have noLoop := List.find?_eq_none.mp first
    refine ⟨.inl, fun either => either.resolve_right ?_⟩
    rintro ⟨-, l, loop, from_, found, isLoop, after, upTo⟩
    refine noLoop l (List.mem_range'_1.mpr ⟨from_, by omega⟩) ?_
    simp [found, isLoop]
  | some l =>
    obtain ⟨isLoop, before, behind, range, others⟩ := List.find?_eq_some_iff_append.mp first
    obtain ⟨loop, found, isLoop⟩ := (Option.any_eq_true _ _).mp isLoop
    have member : l ∈ List.range' functionBegin (i - functionBegin) := by
      rw [range]
      simp
    have from_ := (List.mem_range'_1.mp member).1
    have least : LoopBody code functionBegin i q ↔ l < q ∧ q < i := by
      constructor
      · rintro ⟨k, other, fromK, there, isLoop', after, upTo⟩
        refine ⟨?_, upTo⟩
        by_contra late
        -- the loop at `k` would have come first
        have inRange : k ∈ before ++ l :: behind := by
          rw [← range]
          exact List.mem_range'_1.mpr ⟨fromK, by omega⟩
        have ordered : (before ++ l :: behind).Pairwise (· < ·) := by
          rw [← range]
          exact List.pairwise_lt_range'
        rcases List.mem_append.mp inRange with first | later
        · have := others k first
          simp [there, isLoop'] at this
        · rcases List.mem_cons.mp later with same | last
          · omega
          · have := List.rel_of_pairwise_cons (List.pairwise_append.mp ordered).2.1 last
            omega
      · rintro ⟨after, upTo⟩
        exact ⟨l, loop, from_, found, isLoop, after, upTo⟩
    simp only [least]
    split_ifs with here
    · simp [here, or_comm]
    · simp [here]

private theorem enterLeave_marks (s : Analyzing) :
    ∃ flags', enterLeave code i inst s = { s with
        leaveReturn := leaveAt inst s.leaveReturn
        functionBegin := beginAt i inst s.functionBegin
        flags := flags' } ∧
      Marked (fun a q => inst.opcode = .leave ∧ a = .leave ∧ LoopBody code s.functionBegin i q)
        s.flags flags' := by
  by_cases leave : inst.opcode = .leave
  · refine ⟨markLoopBody code i s.functionBegin s.flags, by simp [enterLeave, leaveAt, beginAt, leave],
      (markLoopBody_marks s.functionBegin s.flags).congr fun a q => by simp [leave]⟩
  · refine ⟨s.flags, ?_, (Marked.refl s.flags).congr fun a q => by simp [leave]⟩
    by_cases ret : inst.opcode = .ret
    · simp [enterLeave, leaveAt, beginAt, ret]
    · by_cases label : inst.opcode = .label
      · simp [enterLeave, leaveAt, beginAt, label]
      · simp [enterLeave, leaveAt, beginAt, leave, ret, label]

private theorem analyzeLeave_marks
    (marks : ∀ n, Marks code .leave (markFunctionAnalysis code fuel n .leave) n) (s : Analyzing) :
    ∃ flags', analyzeLeave code fuel i inst s = some { s with
        leaveReturn := leaveAt inst s.leaveReturn
        functionBegin := beginAt i inst s.functionBegin
        flags := flags' } ∧
      Marked (fun a q => inst.opcode = .leave ∧ a = .leave ∧ LoopBody code s.functionBegin i q ∨
        leaveAt inst s.leaveReturn = true ∧ Noted code .leave .leave i inst a q) s.flags flags' := by
  obtain ⟨flags₁, entered, marked₁⟩ := @enterLeave_marks _ code i inst s
  obtain ⟨flags₂, done, marked₂⟩ := @guarded_marks _ _ _ i inst _ _ marks
    (leaveAt inst s.leaveReturn = true) _ flags₁ _ _ _ (fun _ => rfl) fun _ => rfl
  refine ⟨flags₂, ?_, marked₁.trans marked₂⟩
  rw [analyzeLeave, entered]
  exact done

end

def stateAt (code : List (Instruction ι)) (i : Nat) (flags : Flags) : Analyzing where
  branchDepth := before (fun _ => branchDepthAt) 0 0 code i
  breakDepth := depth Instruction.isBreak maskWeight code i
  continueDepth := depth isContinue maskWeight code i
  leaveReturn := before (fun _ => leaveAt) 0 false code i
  functionBegin := before beginAt 0 0 code i
  flags := flags

def Step (code : List (Instruction ι)) (i : Nat) (inst : Instruction ι) (a : Analysis) (q : Nat) :
    Prop :=
  0 < branchDepthAt inst (before (fun _ => branchDepthAt) 0 0 code i) ∧
      Noted code .branch .branch i inst a q ∨
    0 < raised Instruction.isBreak (depth Instruction.isBreak maskWeight code i) inst ∧
      Noted code .break_ .branch i inst a q ∨
    0 < raised isContinue (depth isContinue maskWeight code i) inst ∧
      Noted code .continue_ .continue_ i inst a q ∨
    inst.opcode = .leave ∧ a = .leave ∧ LoopBody code (before beginAt 0 0 code i) i q ∨
    leaveAt inst (before (fun _ => leaveAt) 0 false code i) = true ∧ Noted code .leave .leave i inst a q

section

variable {code : List (Instruction ι)} {fuel : Nat}

private theorem analyzeInstruction_marks
    (marks : ∀ flag n, Marks code flag (markFunctionAnalysis code fuel n flag) n) {i : Nat}
    {inst : Instruction ι} (found : code[i]? = some inst) (flags : Flags) :
    ∃ flags', analyzeInstruction code fuel i inst (stateAt code i flags) =
        some (stateAt code (i + 1) flags') ∧ Marked (Step code i inst) flags flags' := by
  let s := stateAt code i flags
  obtain ⟨flags₁, branch, marked₁⟩ := @analyzeBranch_marks _ _ _ i inst (marks .branch) s
  let s₁ := { s with branchDepth := branchDepthAt inst s.branchDepth, flags := flags₁ }
  obtain ⟨flags₂, break_, marked₂⟩ := @analyzeBreak_marks _ _ _ i inst (marks .branch) s₁
  let s₂ := { s₁ with
    breakDepth := gate Instruction.isBreak maskWeight inst s₁.breakDepth, flags := flags₂ }
  obtain ⟨flags₃, continue_, marked₃⟩ := @analyzeContinue_marks _ _ _ i inst (marks .continue_) s₂
  let s₃ := { s₂ with
    continueDepth := gate isContinue maskWeight inst s₂.continueDepth, flags := flags₃ }
  obtain ⟨flags₄, leave, marked₄⟩ := @analyzeLeave_marks _ _ _ i inst (marks .leave) s₃
  refine ⟨flags₄, ?_, (((marked₁.trans marked₂).trans marked₃).trans marked₄).congr fun a q => ?_⟩
  · rw [analyzeInstruction, branch]
    simp only [Option.bind_eq_bind, Option.bind_some]
    rw [break_, Option.bind_some, continue_, Option.bind_some, leave]
    simp only [stateAt, depth, before_succ found, Nat.zero_add]
    rfl
  · simp only [Step, or_assoc]
    rfl

private theorem analyzeFrom_marks
    (marks : ∀ flag n, Marks code flag (markFunctionAnalysis code fuel n flag) n) :
    ∀ (rest : List (Instruction ι)) (i : Nat), code.drop i = rest → ∀ flags,
      ∃ s, analyzeFrom code fuel i rest (stateAt code i flags) = some s ∧
        Marked (fun a q => ∃ j inst, i ≤ j ∧ code[j]? = some inst ∧ Step code j inst a q)
          flags s.flags := by
  intro rest
  induction rest with
  | nil =>
    intro i here flags
    refine ⟨stateAt code i flags, rfl, (Marked.refl flags).congr fun a q => iff_of_false id ?_⟩
    rintro ⟨j, inst, behind, found, -⟩
    have past := List.drop_eq_nil_iff.mp here
    have := (List.getElem?_eq_some_iff.mp found).1
    omega
  | cons inst rest ih =>
    intro i here flags
    obtain ⟨found, next⟩ := of_drop_eq_cons here
    obtain ⟨flags₁, first, marked₁⟩ := analyzeInstruction_marks marks found flags
    obtain ⟨s, others, marked₂⟩ := ih (i + 1) next flags₁
    refine ⟨s, ?_, (marked₁.trans marked₂).congr fun a q => ?_⟩
    · rw [analyzeFrom, first]
      exact others
    · constructor
      · rintro (step | ⟨j, other, behind, step⟩)
        · exact ⟨i, inst, Nat.le_refl i, found, step⟩
        · exact ⟨j, other, by omega, step⟩
      · rintro ⟨j, other, behind, there, step⟩
        by_cases here : j = i
        · subst here
          obtain rfl := Option.some_inj.mp (found.symm.trans there)
          exact .inl step
        · exact .inr ⟨j, other, by omega, there, step⟩

private theorem flagged_withFlags {flags : Flags} {q : Nat} {a : Analysis} :
    Flagged (withFlags code flags) q a ↔ q < code.length ∧ a ∈ flags q := by
  rw [Flagged, withFlags, List.getElem?_mapIdx]
  by_cases inside : q < code.length
  · simp [inside]
  · simp [inside]

theorem analyzeDynamicBranching_flags (distinct : Distinct code)
    (acyclic : Acyclic (CallsFrom code)) (constBool : Instruction ι → Bool) :
    ∃ result, (∃ fuel, ∀ k, fuel ≤ k →
      analyzeDynamicBranching constBool k code = some (presence constBool code, result)) ∧
        ∀ q a, Flagged result q a ↔ q < code.length ∧
          (a ∈ flagsOf code q ∨ ∃ i inst, code[i]? = some inst ∧ Step code i inst a q) := by
  obtain ⟨fuel, marks⟩ := markFunctionAnalysis_marks distinct acyclic
  have each : ∀ k, fuel ≤ k → ∃ s, analyzeFrom code k 0 code { flags := flagsOf code } = some s ∧
      Marked (fun a q => ∃ i inst, code[i]? = some inst ∧ Step code i inst a q)
        (flagsOf code) s.flags := by
    intro k enough
    obtain ⟨s, done, marked⟩ := analyzeFrom_marks (marks k enough) code 0 rfl (flagsOf code)
    refine ⟨s, ?_, marked.congr fun a q => by simp⟩
    simpa [stateAt, depth] using done
  obtain ⟨s, done, marked⟩ := each fuel (Nat.le_refl fuel)
  refine ⟨withFlags code s.flags, ⟨fuel, fun k enough => ?_⟩, fun q a => ?_⟩
  · obtain ⟨s', done', marked'⟩ := each k enough
    have same : s'.flags = s.flags := by
      funext q
      ext a
      rw [marked' a q, marked a q]
    rw [analyzeDynamicBranching, done']
    simp only [Option.bind_eq_bind, Option.bind_some, same]
    rfl
  · rw [flagged_withFlags, marked a q]

end

/-- A BREAK stands before, and since then more breaks and beginnings of loops and switches than ends
at every point. -/
def BreakOn (code : List (Instruction ι)) (q : Nat) : Prop :=
  ∃ i, Outlives Instruction.isBreak maskWeight code i q

def ContinueOn (code : List (Instruction ι)) (q : Nat) : Prop :=
  ∃ i, Outlives isContinue maskWeight code i q

def LeaveOn (code : List (Instruction ι)) (q : Nat) : Prop :=
  ∃ i inst, code[i]? = some inst ∧ inst.opcode = .leave ∧ i ≤ q ∧
    ∀ (u : Nat) (other : Instruction ι), i < u → u ≤ q → code[u]? = some other → other.opcode ≠ .ret

/-- Between the beginning of a loop and a LEAVE, with no LABEL between these. -/
def LoopLeave (code : List (Instruction ι)) (q : Nat) : Prop :=
  ∃ i inst l loop, code[i]? = some inst ∧ inst.opcode = .leave ∧ code[l]? = some loop ∧
    loop.isLoop = true ∧ l < q ∧ q < i ∧
    ∀ (u : Nat) (other : Instruction ι), l < u → u < i → code[u]? = some other →
      other.opcode ≠ .label

def Called (on : Nat → Prop) (code : List (Instruction ι)) (q : Nat) : Prop :=
  ∃ c inst, on c ∧ code[c]? = some inst ∧ inst.isCall = true ∧ InCallees code inst.label q

def BreakMarked (code : List (Instruction ι)) (q : Nat) : Prop :=
  .break_ ∈ flagsOf code q ∨ BreakOn code q

def ContinueMarked (code : List (Instruction ι)) (q : Nat) : Prop :=
  .continue_ ∈ flagsOf code q ∨ ContinueOn code q ∨ Called (ContinueOn code) code q

def LeaveMarked (code : List (Instruction ι)) (q : Nat) : Prop :=
  .leave ∈ flagsOf code q ∨ LoopLeave code q ∨ LeaveOn code q ∨ Called (LeaveOn code) code q

section

variable {code : List (Instruction ι)} {q : Nat}

private theorem leaveReturn_before : ∀ {q}, q ≤ code.length →
    (before (fun _ => leaveAt) 0 false code q = true ↔ ∃ i inst, code[i]? = some inst ∧
      inst.opcode = .leave ∧ i < q ∧ ∀ (u : Nat) (other : Instruction ι), i < u → u < q →
        code[u]? = some other → other.opcode ≠ .ret) := by
  intro q
  induction q with
  | zero => simp
  | succ q ih =>
    intro inside
    obtain ⟨inst, found⟩ : ∃ inst, code[q]? = some inst := ⟨code[q], List.getElem?_eq_getElem inside⟩
    rw [before_succ found, leaveAt]
    split_ifs with leave ret
    · refine iff_of_true rfl ⟨q, inst, found, leave, Nat.lt_succ_self q, fun u _ after upTo => ?_⟩
      omega
    · refine iff_of_false (by simp) ?_
      rintro ⟨i, other, there, isLeave, earlier, noRet⟩
      by_cases here : i = q
      · subst here
        obtain rfl := Option.some_inj.mp (found.symm.trans there)
        exact leave isLeave
      · exact noRet q inst (by omega) (Nat.lt_succ_self q) found ret
    · rw [ih (by omega)]
      constructor
      · rintro ⟨i, other, there, isLeave, earlier, noRet⟩
        refine ⟨i, other, there, isLeave, by omega, fun u next after upTo at_ => ?_⟩
        by_cases last : u = q
        · subst last
          obtain rfl := Option.some_inj.mp (found.symm.trans at_)
          exact ret
        · exact noRet u next after (by omega) at_
      · rintro ⟨i, other, there, isLeave, earlier, noRet⟩
        by_cases here : i = q
        · subst here
          obtain rfl := Option.some_inj.mp (found.symm.trans there)
          exact absurd isLeave leave
        · exact ⟨i, other, there, isLeave, by omega, fun u next after upTo => noRet u next after
            (by omega)⟩

private theorem leaveOn_iff {inst : Instruction ι} (found : code[q]? = some inst) :
    leaveAt inst (before (fun _ => leaveAt) 0 false code q) = true ↔ LeaveOn code q := by
  have inside := (List.getElem?_eq_some_iff.mp found).1
  have next := @leaveReturn_before _ code (q + 1) inside
  rw [before_succ found] at next
  rw [next, LeaveOn]
  simp only [Nat.lt_succ_iff]

private theorem functionBegin_before : ∀ {q}, q ≤ code.length →
    (before beginAt 0 0 code q = 0 ∨ ∃ label, code[before beginAt 0 0 code q]? = some label ∧
      label.opcode = .label) ∧ before beginAt 0 0 code q ≤ q ∧
      ∀ (u : Nat) (other : Instruction ι), before beginAt 0 0 code q < u → u < q →
        code[u]? = some other → other.opcode ≠ .label := by
  intro q
  induction q with
  | zero => simp
  | succ q ih =>
    intro inside
    obtain ⟨inst, found⟩ : ∃ inst, code[q]? = some inst := ⟨code[q], List.getElem?_eq_getElem inside⟩
    rw [before_succ found, beginAt, Nat.zero_add]
    split_ifs with label
    · exact ⟨.inr ⟨inst, found, label⟩, Nat.le_succ q, fun u _ after upTo => by omega⟩
    · obtain ⟨begins, upTo, noLabel⟩ := ih (by omega)
      refine ⟨begins, by omega, fun u other after before there => ?_⟩
      by_cases last : u = q
      · subst last
        obtain rfl := Option.some_inj.mp (found.symm.trans there)
        exact label
      · exact noLabel u other after (by omega) there

private theorem loopLeave_iff : (∃ i inst, code[i]? = some inst ∧ inst.opcode = .leave ∧
    LoopBody code (before beginAt 0 0 code i) i q) ↔ LoopLeave code q := by
  refine exists₂_congr fun i inst => ?_
  constructor
  · rintro ⟨found, leave, l, loop, from_, there, isLoop, after, upTo⟩
    have inside := (List.getElem?_eq_some_iff.mp found).1
    obtain ⟨-, -, noLabel⟩ := @functionBegin_before _ code i (by omega)
    exact ⟨l, loop, found, leave, there, isLoop, after, upTo, fun u other later =>
      noLabel u other (by omega)⟩
  · rintro ⟨l, loop, found, leave, there, isLoop, after, upTo, noLabel⟩
    have inside := (List.getElem?_eq_some_iff.mp found).1
    refine ⟨found, leave, l, loop, ?_, there, isLoop, after, upTo⟩
    by_contra late
    obtain ⟨begins | ⟨label, here, isLabel⟩, earlier, -⟩ := @functionBegin_before _ code i (by omega)
    · omega
    · by_cases last : before beginAt 0 0 code i = i
      · rw [last, found, Option.some_inj] at here
        rw [← here, leave] at isLabel
        cases isLabel
      · exact noLabel _ label (by omega) (by omega) here isLabel

private theorem breakOn_iff {inst : Instruction ι} (found : code[q]? = some inst) :
    0 < raised Instruction.isBreak (depth Instruction.isBreak maskWeight code q) inst ↔
      BreakOn code q := by
  have inside := (List.getElem?_eq_some_iff.mp found).1
  rw [BreakOn, ← open_iff maskWeight_light inside, Open]
  simp [found]

private theorem continueOn_iff {inst : Instruction ι} (found : code[q]? = some inst) :
    0 < raised isContinue (depth isContinue maskWeight code q) inst ↔ ContinueOn code q := by
  have inside := (List.getElem?_eq_some_iff.mp found).1
  rw [ContinueOn, ← open_iff maskWeight_light inside, Open]
  simp [found]

private theorem noted_iff {on : Nat → Prop} {flag : Analysis} (inside : q < code.length) :
    (∃ i inst, code[i]? = some inst ∧ on i ∧ Noted code flag flag i inst flag q) ↔
      on q ∨ Called on code q := by
  constructor
  · rintro ⟨i, inst, found, active, ⟨-, rfl⟩ | ⟨-, isCall, callee⟩⟩
    · exact .inl active
    · exact .inr ⟨i, inst, active, found, isCall, callee⟩
  · rintro (active | ⟨c, inst, active, found, isCall, callee⟩)
    · exact ⟨q, code[q], List.getElem?_eq_getElem inside, active, .inl ⟨rfl, rfl⟩⟩
    · exact ⟨c, inst, found, active, .inr ⟨rfl, isCall, callee⟩⟩

private theorem step_break (inside : q < code.length) :
    (∃ i inst, code[i]? = some inst ∧ Step code i inst .break_ q) ↔ BreakOn code q := by
  constructor
  · rintro ⟨i, inst, found, step⟩
    simp only [Step, Noted, reduceCtorEq, false_and, and_false, or_false, false_or, true_and] at step
    obtain ⟨active, rfl⟩ := step
    exact (breakOn_iff found).mp active
  · intro active
    have found := List.getElem?_eq_getElem inside
    exact ⟨q, _, found, .inr (.inl ⟨(breakOn_iff found).mpr active, .inl ⟨rfl, rfl⟩⟩)⟩

private theorem step_continue (inside : q < code.length) :
    (∃ i inst, code[i]? = some inst ∧ Step code i inst .continue_ q) ↔
      ContinueOn code q ∨ Called (ContinueOn code) code q := by
  rw [← @noted_iff _ _ _ _ .continue_ inside]
  refine exists₂_congr fun i inst => and_congr_right fun found => ?_
  rw [← continueOn_iff found]
  simp [Step, Noted]

private theorem step_leave (inside : q < code.length) :
    (∃ i inst, code[i]? = some inst ∧ Step code i inst .leave q) ↔
      LoopLeave code q ∨ LeaveOn code q ∨ Called (LeaveOn code) code q := by
  rw [← loopLeave_iff, ← @noted_iff _ _ _ _ .leave inside, ← exists_or]
  refine exists_congr fun i => ?_
  rw [← exists_or]
  refine exists_congr fun inst => ?_
  rw [← and_or_left]
  refine and_congr_right fun found => ?_
  rw [← leaveOn_iff found]
  simp [Step, Noted]

end

private theorem distinct_program (p : Program ι) : Distinct p.instructions :=
  labels_distinct (labels_program p ▸ p.distinct)

private theorem callsFrom_program {p : Program ι} {n m : UInt32}
    (call : CallsFrom p.instructions n m) : Calls p.functions n m := by
  obtain ⟨q, inst, ⟨⟨t, label, earlier, there, ⟨isLabel, rfl⟩, noRet⟩, same, here, goesOn⟩, found,
    isCall, rfl⟩ := call
  obtain rfl : same = inst := Option.some_inj.mp (here.symm.trans found)
  obtain ⟨f, member, number⟩ := label_program (List.mem_of_getElem? there) isLabel
  have behind := functionCode_drop (labels_program p ▸ p.distinct) there isLabel
  obtain ⟨rest, code⟩ := functionCode_program p member
  rw [number, behind, Option.some_inj] at code
  have at_ : ∀ k, p.instructions[t + 1 + k]? = (f.body ++ f.last :: rest)[k]? := by
    intro k
    rw [← code, List.getElem?_drop]
  have within : q - (t + 1) < f.body.length := by
    -- the RET of the function stands behind its body
    by_contra past
    have last := at_ f.body.length
    rw [List.getElem?_append_right (Nat.le_refl _), Nat.sub_self, List.getElem?_cons_zero] at last
    by_cases exact_ : t + 1 + f.body.length = q
    · rw [exact_, found] at last
      exact goesOn (Option.some_inj.mp last ▸ f.isRet)
    · exact noRet _ f.last (by omega) (by omega) last f.isRet
  have inside := at_ (q - (t + 1))
  rw [List.getElem?_append_left within, show t + 1 + (q - (t + 1)) = q by omega, found] at inside
  exact ⟨f, member, number, List.mem_map_of_mem
    (List.mem_filter.mpr ⟨List.mem_of_getElem? inside.symm, isCall⟩)⟩

private theorem acyclic_program (p : Program ι) : Acyclic (CallsFrom p.instructions) :=
  fun n cycle => p.noRecursion n (TransGen.mono (fun _ _ => callsFrom_program) n n cycle)

/-- Behind the end of a switch that stands around a CONTINUE, inside the loop it goes on with. -/
def BehindSwitch (code : List (Instruction ι)) (q : Nat) : Prop :=
  ∃ i s, ContinueTo code i q ∧ caught code i = some (.switch, s) ∧ s ∉ starts code q

/-- The instructions that the pass leaves out have the flag for another reason. -/
structure Covered (code : List (Instruction ι)) : Prop where
  breaks : ∀ q inst, AfterBreak code q → code[q]? = some inst → inst.isCall = true →
    ∀ r, InCallees code inst.label r → BreakMarked code r
  continues : ∀ q, BehindSwitch code q → ContinueMarked code q ∧ ∀ inst, code[q]? = some inst →
    inst.isCall = true → ∀ r, InCallees code inst.label r → ContinueMarked code r
  leaves : ∀ q inst, EarlierInLoop code q → code[q]? = some inst → inst.isCall = true →
    ∀ r, InCallees code inst.label r → LeaveMarked code r

def Exactly (code result : List (Instruction ι)) : Prop :=
  ∀ q a, Flagged result q a ↔ q < code.length ∧
    (a ∈ flagsOf code q ∨ ∃ i inst, code[i]? = some inst ∧ Step code i inst a q)

section

variable {code result : List (Instruction ι)} {q : Nat}

private theorem Exactly.breaks (exact_ : Exactly code result) (inside : q < code.length) :
    Flagged result q .break_ ↔ BreakMarked code q := by
  rw [exact_ q .break_, step_break inside, BreakMarked, and_iff_right inside]

private theorem Exactly.continues (exact_ : Exactly code result) (inside : q < code.length) :
    Flagged result q .continue_ ↔ ContinueMarked code q := by
  rw [exact_ q .continue_, step_continue inside, ContinueMarked, and_iff_right inside]

private theorem Exactly.leaves (exact_ : Exactly code result) (inside : q < code.length) :
    Flagged result q .leave ↔ LeaveMarked code q := by
  rw [exact_ q .leave, step_leave inside, LeaveMarked, and_iff_right inside]

private theorem Exactly.carried (exact_ : Exactly code result) {flag : Analysis}
    {inst : Instruction ι} (found : code[q]? = some inst)
    (step : ∀ r, Noted code flag flag q inst flag r → Step code q inst flag r) :
    Carried code result flag q := by
  have inside := (List.getElem?_eq_some_iff.mp found).1
  refine ⟨(exact_ q flag).mpr ⟨inside, .inr ⟨q, inst, found, step q (.inl ⟨rfl, rfl⟩)⟩⟩, ?_⟩
  intro other there isCall r callee
  obtain rfl := Option.some_inj.mp (found.symm.trans there)
  exact (exact_ r flag).mpr ⟨callee.length, .inr ⟨q, inst, found, step r (.inr ⟨rfl, isCall, callee⟩)⟩⟩

private theorem Exactly.continueOn (exact_ : Exactly code result) (inside : q < code.length)
    (on : ContinueOn code q) : Carried code result .continue_ q := by
  have found := List.getElem?_eq_getElem inside
  exact exact_.carried found fun r noted =>
    .inr (.inr (.inl ⟨(continueOn_iff found).mpr on, noted⟩))

private theorem Exactly.inBranch (exact_ : Exactly code result) (nested : Nested code)
    (branch : InBranch code q) : Carried code result .branch q := by
  obtain ⟨b, s, member, kind, inside, before_, behind⟩ := branch
  have found := List.getElem?_eq_getElem inside
  obtain ⟨above, below, here⟩ := List.append_of_mem member
  obtain ⟨above', b', frame, same⟩ := enclosing_frame nested here (Nat.le_succ q) inside behind
  have kind' : b' ≠ .switch := by
    rcases same with rfl | ⟨-, rfl⟩
    · exact kind
    · decide
  have positive : 0 < branching code (q + 1) := by
    rw [branching, frame]
    exact List.countP_pos_iff.mpr ⟨(b', s), by simp, by simpa using kind'⟩
  have depth := branchDepth_eq nested inside
  rw [before_succ found] at depth
  exact exact_.carried found fun r noted => .inl ⟨by rw [depth]; exact_mod_cast positive, noted⟩

private theorem breakOn_of_after (nested : Nested code) (after : AfterBreak code q) :
    q < code.length ∧ BreakOn code q := by
  obtain ⟨i, inst, b, s, found, isBreak, innermost, behind, inside, still, -⟩ := after
  exact ⟨inside, i, outlives_caught nested found isBreak innermost (Nat.le_of_lt behind)
    (Nat.le_of_lt inside) still⟩

private theorem continueOn_of_after (nested : Nested code) (after : AfterContinue code q) :
    q < code.length ∧ (ContinueOn code q ∨ BehindSwitch code q) := by
  obtain ⟨i, goes⟩ := after
  obtain ⟨inst, b, s, found, isContinue_, innermost, behind, ⟨inside, still, -⟩, -⟩ := id goes
  refine ⟨inside, ?_⟩
  have started : isContinue inst = true := by simp [isContinue, isContinue_]
  have on : ∀ {b s}, caught code i = some (b, s) → s ∈ starts code q → ContinueOn code q :=
    fun caught still => ⟨i, outlives_caught nested found started caught (Nat.le_of_lt behind)
      (Nat.le_of_lt inside) still⟩
  obtain ⟨repeats, above, below, here, others⟩ := List.find?_eq_some_iff_append.mp innermost
  cases outer : caught code i with
  | none =>
    refine absurd (List.find?_eq_none.mp outer (b, s) (by simp [here])) ?_
    revert repeats
    cases b <;> simp [Block.repeats, Block.catches]
  | some e =>
    obtain ⟨b', s'⟩ := e
    by_cases open_ : s' ∈ starts code q
    · exact .inl (on outer open_)
    · obtain ⟨catches, above', below', here', others'⟩ := List.find?_eq_some_iff_append.mp outer
      by_cases loop : b'.repeats = true
      · -- the innermost block is the loop itself
        have same : repeated code i = some (b', s') := by
          refine List.find?_eq_some_iff_append.mpr ⟨loop, above', below', here', fun e member => ?_⟩
          have := others' e member
          revert this
          cases e.1 <;> simp [Block.repeats, Block.catches]
        rw [innermost, Option.some_inj, Prod.mk.injEq] at same
        exact absurd (same.2 ▸ still) open_
      · have switch : b' = .switch := by
          revert catches loop
          cases b' <;> simp [Block.repeats, Block.catches]
        exact .inr ⟨i, s', goes, switch ▸ outer, open_⟩

private theorem Exactly.afterLeave (exact_ : Exactly code result) (after : AfterLeave code q) :
    Carried code result .leave q := by
  obtain ⟨i, inst, found, leave, behind, inside, noRet⟩ := after
  have here := List.getElem?_eq_getElem inside
  have on : LeaveOn code q := ⟨i, inst, found, leave, Nat.le_of_lt behind, noRet⟩
  exact exact_.carried here fun r noted =>
    .inr (.inr (.inr (.inr ⟨(leaveOn_iff here).mpr on, noted⟩)))

private theorem loopLeave_of_earlier (nested : Nested code) (earlier : EarlierInLoop code q) :
    q < code.length ∧ LoopLeave code q := by
  obtain ⟨i, inst, b, s, found, leave, member, repeats, after, upTo⟩ := earlier
  have inside := (List.getElem?_eq_some_iff.mp found).1
  have open_ : s ∈ starts code i := List.mem_map_of_mem member
  obtain ⟨loop, b', there, opens, kind⟩ := enclosing_opened nested i (Nat.le_of_lt inside) _ member
  have isLoop : loop.isLoop = true := by
    have same : b'.repeats = true := by
      rcases kind with rfl | ⟨-, rfl⟩
      · exact repeats
      · cases repeats
    revert opens
    cases op : loop.opcode <;>
      simp [Instruction.isLoop, Instruction.role, Opcode.role, op] <;> rintro rfl <;> cases same
  refine ⟨by omega, i, inst, s, loop, found, leave, there, isLoop, after, upTo,
    fun u other later before at_ isLabel => ?_⟩
  have still := starts_since later (Nat.le_of_lt before) (Nat.le_of_lt inside) open_
  have none : enclosing code u = [] := by
    have role : other.role = .skip := by rw [Instruction.role, isLabel]; rfl
    have nests := nested u other at_
    simp only [Nests, role] at nests
    exact nests isLabel
  rw [starts, none] at still
  cases still

theorem masked_iff (nested : Nested code) (exact_ : Exactly code result) :
    Masked code result ↔ Covered code := by
  constructor
  · rintro ⟨-, breaks, continues, leaves⟩
    refine ⟨fun q inst after found isCall r callee => ?_, fun q behind => ?_,
      fun q inst earlier found isCall r callee => ?_⟩
    · exact (exact_.breaks callee.length).mp ((breaks q after).2 inst found isCall r callee)
    · obtain ⟨i, s, goes, -⟩ := behind
      have inside := (continueOn_of_after nested ⟨i, goes⟩).1
      obtain ⟨here, callees⟩ := continues q ⟨i, goes⟩
      exact ⟨(exact_.continues inside).mp here, fun inst found isCall r callee =>
        (exact_.continues callee.length).mp (callees inst found isCall r callee)⟩
    · exact (exact_.leaves callee.length).mp ((leaves q (.inr earlier)).2 inst found isCall r callee)
  · rintro ⟨breaks, continues, leaves⟩
    refine ⟨fun q => exact_.inBranch nested, fun q after => ?_, fun q after => ?_, ?_⟩
    · obtain ⟨inside, on⟩ := breakOn_of_after nested after
      exact ⟨(exact_.breaks inside).mpr (.inr on), fun inst found isCall r callee =>
        (exact_.breaks callee.length).mpr (breaks q inst after found isCall r callee)⟩
    · obtain ⟨inside, on | behind⟩ := continueOn_of_after nested after
      · exact exact_.continueOn inside on
      · obtain ⟨here, callees⟩ := continues q behind
        exact ⟨(exact_.continues inside).mpr here, fun inst found isCall r callee =>
          (exact_.continues callee.length).mpr (callees inst found isCall r callee)⟩
    · rintro q (after | earlier)
      · exact exact_.afterLeave after
      · obtain ⟨inside, on⟩ := loopLeave_of_earlier nested earlier
        exact ⟨(exact_.leaves inside).mpr (.inr (.inl on)), fun inst found isCall r callee =>
          (exact_.leaves callee.length).mpr (leaves q inst earlier found isCall r callee)⟩

end

/-- The analysis of a program ends, and it is sound exactly where the functions called behind a BREAK,
the code behind a switch around a CONTINUE and the functions called in a loop before a LEAVE have the
flag for another reason. -/
theorem analyzeDynamicBranching_sound (constBool : Instruction ι → Bool) (p : Program ι) :
    Sound constBool p.instructions ↔ Covered p.instructions := by
  obtain ⟨result, ⟨fuel, done⟩, exact_⟩ :=
    analyzeDynamicBranching_flags (distinct_program p) (acyclic_program p) constBool
  have masked := masked_iff (nested_program p) exact_
  constructor
  · rintro ⟨result', ⟨fuel', done'⟩, sound⟩
    have first := done (max fuel fuel') (Nat.le_max_left _ _)
    have second := done' (max fuel fuel') (Nat.le_max_right _ _)
    rw [first, Option.some_inj, Prod.mk.injEq] at second
    exact masked.mp (second.2 ▸ sound)
  · exact fun covered => ⟨result, ⟨fuel, done⟩, masked.mpr covered⟩

def callBehindBreak : Program Nat where
  main := [⟨.loop, 0, 0, ∅⟩, ⟨.breakc, 0, 0, ∅⟩, ⟨.call, 1, 0, ∅⟩, ⟨.endloop, 0, 0, ∅⟩]
  ret := some ⟨.ret, 0, 0, ∅⟩
  functions := [⟨⟨.label, 1, 0, ∅⟩, [⟨.other 0, 0, 0, ∅⟩], ⟨.ret, 0, 0, ∅⟩, rfl, rfl,
    ⟨by decide, by decide, rfl⟩⟩]
  isMain := ⟨by decide, by decide, rfl⟩
  isRet i member := by cases member; rfl
  closed _ := rfl
  distinct := List.nodup_singleton _
  mainCalls n called := called
  functionCalls f member n called := by
    cases List.mem_singleton.mp member
    cases called
  noRecursion n cycle := by
    obtain ⟨m, ⟨f, member, -, called⟩, -⟩ := TransGen.head'_iff.mp cycle
    cases List.mem_singleton.mp member
    cases called

/-- The function called is not marked for the BREAK. -/
theorem callBehindBreak_unsound : ¬ Sound (fun _ => false) callBehindBreak.instructions := by
  rintro ⟨result, ⟨fuel, done⟩, sound⟩
  have unmarked : ∀ k, (analyzeDynamicBranching (fun _ => false) (k + 2)
      callBehindBreak.instructions).map (fun r => r.2[6]?.map fun inst =>
        decide (Analysis.break_ ∈ inst.analysis)) = some (some false) := fun k => rfl
  have after : AfterBreak callBehindBreak.instructions 2 :=
    ⟨1, _, .loop, 0, rfl, rfl, rfl, by decide, by decide, by decide, by decide⟩
  have callee : InCallees callBehindBreak.instructions 1 6 := by
    refine ⟨1, .refl, ⟨5, _, by decide, rfl, ⟨rfl, rfl⟩, fun u other after upTo => by omega⟩, _, rfl,
      by decide⟩
  obtain ⟨inst, found, marked⟩ := (sound.break_ 2 after).2 _ rfl rfl 6 callee
  have := unmarked fuel
  rw [done (fuel + 2) (by omega)] at this
  simp [found, marked] at this

end RabbitRender.Shaders.MaskSoundness
