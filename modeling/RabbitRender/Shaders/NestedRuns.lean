/- RabbitRender/Shaders/NestedRuns
   layer: result
   source: compiler/shader/Shader.cpp, compiler/shader/Shader.hpp
   digest: The blocks open in a run are those its code is nested in; runs within bounds never get stuck. -/

import RabbitRender.Shaders.LimitAnalysis
import RabbitRender.Shaders.Machine

set_option autoImplicit false

namespace RabbitRender.Shaders.NestedRuns

open StateTransition Shaders.Instructions Shaders.Machine Shaders.LimitAnalysis

variable {ι σ : Type}

def loopsOf (blocks : List Block) : Nat := blocks.countP Block.catches

def ifsOf (blocks : List Block) : Nat := blocks.countP fun b => !b.catches

theorem loopsOf_cons (b : Block) (blocks : List Block) :
    loopsOf (b :: blocks) = loopsOf blocks + (if b.catches then 1 else 0) := by
  cases catches : b.catches <;> simp [loopsOf, catches]

theorem ifsOf_cons (b : Block) (blocks : List Block) :
    ifsOf (b :: blocks) = ifsOf blocks + (if b.catches then 0 else 1) := by
  cases catches : b.catches <;> simp [ifsOf, catches]

def Within (info : FunctionInfo) (blocks : List Block) : Prop :=
  loopsOf blocks ≤ info.limits.loops ∧ ifsOf blocks ≤ info.limits.ifs

/-- The code up to its RET, inside the blocks, is properly nested, opens no more blocks than the
limits of its function, and calls only what the function is known to call. -/
def Fits (info : FunctionInfo) : List Block → List (Instruction ι) → Prop
  | blocks, [] => blocks = []
  | blocks, i :: rest =>
    match i.role with
    | .opens b => Within info (b :: blocks) ∧ Fits info (b :: blocks) rest
    | .alternates => ∃ outer, blocks = .branch :: outer ∧ Fits info (.alternative :: outer) rest
    | .closes b => ∃ o outer, blocks = o :: outer ∧ o.closedBy b = true ∧ Fits info outer rest
    | .returns => blocks = []
    | .calls _ => i.label ∈ info.calls ∧ Fits info blocks rest
    | _ => Fits info blocks rest

/-- The marks of the blocks: each block ends, a branch perhaps after an ELSE, and the code at each
mark fits in the blocks still open there. -/
inductive ExitsFit (info : FunctionInfo) : List Block → List (Exit ι) → Prop where
  | done : ExitsFit info [] []
  | test {blocks : List Block} {i : Instruction ι} {rest : List (Instruction ι)}
      {others : List (Exit ι)} (role : i.role = .test) (code : Fits info blocks (i :: rest))
      (outer : ExitsFit info blocks others) :
      ExitsFit info blocks (⟨.test, i :: rest⟩ :: others)
  | alternates {blocks : List Block} {i : Instruction ι} {rest : List (Instruction ι)}
      {others : List (Exit ι)} (role : i.role = .alternates)
      (code : Fits info (.alternative :: blocks) rest)
      (outer : ExitsFit info (.alternative :: blocks) others) (ends : fromEnd others = others) :
      ExitsFit info (.branch :: blocks) (⟨.alternates, i :: rest⟩ :: others)
  | closes {b o : Block} {blocks : List Block} {i : Instruction ι} {rest : List (Instruction ι)}
      {others : List (Exit ι)} (role : i.role = .closes b) (closed : o.closedBy b = true)
      (code : Fits info blocks rest) (outer : ExitsFit info blocks others) :
      ExitsFit info (o :: blocks) (⟨.closes b, i :: rest⟩ :: others)

variable {info : FunctionInfo}

private theorem fromEnd_fromEnd (es : List (Exit ι)) : fromEnd (fromEnd es) = fromEnd es := by
  induction es with
  | nil => rfl
  | cons e es ih =>
    rw [fromEnd]
    split_ifs with isEnd
    · rw [fromEnd, if_pos isEnd]
    · exact ih

private theorem exitsFit_fromEnd {blocks : List Block} {es : List (Exit ι)}
    (fit : ExitsFit info (.alternative :: blocks) es) :
    ExitsFit info (.alternative :: blocks) (fromEnd es) := by
  generalize same : Block.alternative :: blocks = all at fit
  induction fit generalizing blocks with
  | done => cases same
  | test _ _ _ ih => exact ih same
  | alternates => cases same
  | closes role closed code outer _ => exact .closes role closed code outer

private theorem exitsFit_pastEnd {b : Block} {blocks : List Block} {es : List (Exit ι)}
    (fit : ExitsFit info (b :: blocks) es) : ExitsFit info blocks (pastEnd es) := by
  generalize same : b :: blocks = all at fit
  induction fit generalizing b with
  | done => cases same
  | test _ _ _ ih => exact ih same
  | alternates _ _ _ _ ih =>
    cases same
    exact ih rfl
  | closes _ _ _ outer _ =>
    cases same
    exact outer

theorem exits_fit (code : List (Instruction ι)) : ∀ {blocks : List Block},
    Fits info blocks code → ExitsFit info blocks (exits code) := by
  induction code with
  | nil =>
    intro blocks fits
    cases (show blocks = [] from fits)
    exact .done
  | cons i rest ih =>
    intro blocks fits
    cases role : i.role with
    | opens b =>
      simp only [Fits, role] at fits
      simp only [exits, role]
      exact exitsFit_pastEnd (ih fits.2)
    | closes b =>
      simp only [Fits, role] at fits
      obtain ⟨o, outer, rfl, closed, code⟩ := fits
      simp only [exits, role]
      exact .closes role closed code (ih code)
    | alternates =>
      simp only [Fits, role] at fits
      obtain ⟨outer, rfl, code⟩ := fits
      simp only [exits, role]
      exact .alternates role code (exitsFit_fromEnd (ih code)) (fromEnd_fromEnd _)
    | test =>
      have whole := fits
      simp only [Fits, role] at fits
      simp only [exits, role]
      exact .test role whole (ih fits)
    | returns =>
      simp only [Fits, role] at fits
      subst fits
      simp only [exits, role]
      exact .done
    | calls always =>
      simp only [Fits, role] at fits
      simpa only [exits, role] using ih fits.2
    | _ =>
      simp only [Fits, role] at fits
      simpa only [exits, role] using ih fits

private theorem fromEnd_head {es es' : List (Exit ι)} {e : Exit ι} (same : fromEnd es = e :: es') :
    e.mark.isEnd = true := by
  induction es with
  | nil => cases same
  | cons d es ih =>
    rw [fromEnd] at same
    split_ifs at same with isEnd
    · cases same
      exact isEnd
    · exact ih same

variable {n : Nat}

private theorem seek_pass {wanted : Mark → Bool} {mark : Mark} {there code : List (Instruction ι)}
    {es : List (Exit ι)} (other : wanted mark ≠ true)
    (found : seek wanted (⟨mark, there⟩ :: es) = some (n, code)) :
    ∃ k, seek wanted es = some (k, code) ∧ n = if mark.isEnd = true then k + 1 else k := by
  rw [seek, if_neg other] at found
  obtain ⟨⟨k, here⟩, found, same⟩ := Option.map_eq_some_iff.mp found
  cases same
  exact ⟨k, found, rfl⟩

theorem seek_branch {b : Block} {blocks : List Block} {es : List (Exit ι)}
    (fit : ExitsFit info (b :: blocks) es) {e : Instruction ι} {code : List (Instruction ι)}
    (found : seek Mark.endOrElse es = some (n, e :: code)) :
    e.role = .alternates ∧ b = .branch ∧ Fits info (.alternative :: blocks) code ∨
      e.role ≠ .alternates ∧ Fits info blocks code := by
  generalize same : b :: blocks = all at fit
  induction fit generalizing n with
  | done => cases same
  | test _ _ _ ih =>
    obtain ⟨k, found, -⟩ := seek_pass (by simp [Mark.endOrElse]) found
    exact ih found same
  | alternates role code _ _ _ =>
    cases same
    cases found
    exact .inl ⟨role, rfl, code⟩
  | closes role _ code _ _ =>
    cases same
    cases found
    exact .inr ⟨by rw [role]; simp, code⟩

theorem seek_end {wanted : Mark → Bool} (ends : ∀ mark, wanted mark = true → mark.isEnd = true)
    {blocks : List Block} {es : List (Exit ι)} (fit : ExitsFit info blocks es) {e : Instruction ι}
    {code : List (Instruction ι)} (found : seek wanted es = some (n, e :: code)) :
    n < blocks.length ∧ Fits info (blocks.drop (n + 1)) code := by
  induction fit generalizing n with
  | done => cases found
  | test _ _ _ ih =>
    obtain ⟨k, further, rfl⟩ := seek_pass (fun wanted => by simpa [Mark.isEnd] using ends _ wanted) found
    exact ih further
  | alternates _ _ _ _ ih =>
    obtain ⟨k, further, rfl⟩ := seek_pass (fun wanted => by simpa [Mark.isEnd] using ends _ wanted) found
    simpa [Mark.isEnd] using ih further
  | @closes b _ _ _ _ _ _ _ code _ ih =>
    by_cases here : wanted (.closes b) = true
    · rw [seek, if_pos here] at found
      cases found
      exact ⟨by simp, by simpa using code⟩
    · obtain ⟨k, further, rfl⟩ := seek_pass here found
      simpa [Mark.isEnd] using ih further

theorem seek_continue {blocks : List Block} {es : List (Exit ι)} (fit : ExitsFit info blocks es)
    {code : List (Instruction ι)} (found : seek Mark.continueTarget es = some (n, code)) :
    n ≤ blocks.length ∧ Fits info (blocks.drop n) code := by
  induction fit generalizing n with
  | done => cases found
  | test _ whole _ _ =>
    cases found
    exact ⟨Nat.zero_le _, whole⟩
  | @alternates blocks _ _ others _ _ outer ends ih =>
    obtain ⟨k, further, same⟩ := seek_pass (by simp [Mark.continueTarget]) found
    obtain rfl : n = k := by simpa [Mark.isEnd] using same
    cases n with
    | zero =>
      -- behind the ELSE the first mark is the ENDIF, where CONTINUE does not stop
      exfalso
      cases outer with
      | test => simpa [Mark.isEnd] using fromEnd_head ends
      | @closes b _ _ _ _ _ _ closed _ _ =>
        have passes : Mark.continueTarget (.closes b) ≠ true := by
          revert closed
          cases b <;> decide
        obtain ⟨k, -, zero⟩ := seek_pass passes further
        simp [Mark.isEnd] at zero
    | succ n => simpa using ih further
  | @closes b o blocks i rest others role closed code _ ih =>
    by_cases here : Mark.continueTarget (.closes b) = true
    · rw [seek, if_pos here] at found
      cases found
      refine ⟨Nat.zero_le _, ?_⟩
      simp only [List.drop_zero, Fits, role]
      exact ⟨o, blocks, rfl, closed, code⟩
    · obtain ⟨k, further, rfl⟩ := seek_pass here found
      simpa [Mark.isEnd] using ih further

inductive Covers (functions : Functions) : FunctionID → Limits → Prop where
  | intro {id : FunctionID} {limits : Limits} (callee : FunctionID → Limits)
      (loops : (functions.info id).limits.loops ≤ limits.loops)
      (ifs : (functions.info id).limits.ifs ≤ limits.ifs) (stack : 1 ≤ limits.stack)
      (callees : ∀ n ∈ (functions.info id).calls, Covers functions n (callee n))
      (room : ∀ n ∈ (functions.info id).calls,
        (functions.info id).limits.loops + (callee n).loops ≤ limits.loops ∧
          (functions.info id).limits.ifs + (callee n).ifs ≤ limits.ifs ∧
          (callee n).stack + 1 ≤ limits.stack) : Covers functions id limits

inductive Blocks (info : FunctionInfo) : List Block → List (Frame ι) → Prop where
  | nil : Blocks info [] []
  | cons {b : Block} {blocks : List Block} {head : Instruction ι} {body : List (Instruction ι)}
      {frames : List (Frame ι)} (again : b.repeats = true → Fits info (b :: blocks) body)
      (outer : Blocks info blocks frames) : Blocks info (b :: blocks) (.block b head body :: frames)

/-- The current function `id` in a run: its blocks, and room for its limits above the loops, IFs and
calls already open below it. -/
structure Activation (functions : Functions) (limits : Limits) (id : FunctionID) (own : Limits)
    (blocks : List Block) (frames : List (Frame ι)) (code : List (Instruction ι))
    (loops ifs stack : Nat) : Prop where
  covers : Covers functions id own
  loopsRoom : loops + own.loops ≤ limits.loops
  ifsRoom : ifs + own.ifs ≤ limits.ifs
  stackRoom : stack + own.stack ≤ limits.stack
  within : Within (functions.info id) blocks
  framed : Blocks (functions.info id) blocks frames
  fits : Fits (functions.info id) blocks code

/-- The frames below the current function, with the loops, IFs and calls open in them. -/
inductive Below (functions : Functions) (limits : Limits) :
    List (Frame ι) → Nat → Nat → Nat → Prop where
  | bottom : Below functions limits [] 0 0 0
  | call {id : FunctionID} {own : Limits} {blocks : List Block} {frames below : List (Frame ι)}
      {rest : List (Instruction ι)} {loops ifs stack : Nat}
      (caller : Activation functions limits id own blocks frames rest loops ifs stack)
      (outer : Below functions limits below loops ifs stack) :
      Below functions limits (.call rest :: (frames ++ below)) (loops + loopsOf blocks)
        (ifs + ifsOf blocks) (stack + 1)

def Running (functions : Functions) (limits : Limits) (code : List (Instruction ι))
    (frames : List (Frame ι)) : Prop :=
  ∃ id own blocks top below loops ifs stack, frames = top ++ below ∧
    Activation functions limits id own blocks top code loops ifs stack ∧
    Below functions limits below loops ifs stack

section Steps

variable {functions : Functions} {limits : Limits} {id : FunctionID} {own : Limits}
  {blocks : List Block} {frames below : List (Frame ι)} {code : List (Instruction ι)}
  {loops ifs stack : Nat}

private theorem Within.outer {o : Block} (within : Within info (o :: blocks)) :
    Within info blocks :=
  ⟨Nat.le_trans (List.Sublist.countP_le (List.sublist_cons_self o blocks)) within.1,
    Nat.le_trans (List.Sublist.countP_le (List.sublist_cons_self o blocks)) within.2⟩

private theorem Within.drop (within : Within info blocks) (n : Nat) : Within info (blocks.drop n) :=
  ⟨Nat.le_trans (List.Sublist.countP_le (List.drop_sublist n blocks)) within.1,
    Nat.le_trans (List.Sublist.countP_le (List.drop_sublist n blocks)) within.2⟩

@[simp] private theorem leaveBlocks_zero (fs : List (Frame ι)) : leaveBlocks 0 fs = fs := by
  cases fs <;> rfl

private theorem Blocks.leave (n : Nat) : ∀ {blocks : List Block} {frames : List (Frame ι)},
    Blocks info blocks frames → n ≤ blocks.length →
      leaveBlocks n (frames ++ below) = frames.drop n ++ below ∧
        Blocks info (blocks.drop n) (frames.drop n) := by
  induction n with
  | zero =>
    intro blocks frames fit _
    exact ⟨by simp, by simpa using fit⟩
  | succ n ih =>
    intro blocks frames fit inside
    cases fit with
    | nil => simp at inside
    | cons again outer => exact ih outer (by simpa using inside)

private theorem Blocks.unwind (fit : Blocks info blocks frames) :
    unwind (frames ++ below) = unwind below := by
  induction fit with
  | nil => rfl
  | cons _ _ ih => exact ih

private theorem Activation.move {blocks' : List Block} {frames' : List (Frame ι)}
    {code' : List (Instruction ι)}
    (here : Activation functions limits id own blocks frames code loops ifs stack)
    (outer : Below functions limits below loops ifs stack)
    (within : Within (functions.info id) blocks')
    (open_ : Blocks (functions.info id) blocks' frames')
    (fits : Fits (functions.info id) blocks' code') :
    Running functions limits code' (frames' ++ below) :=
  ⟨id, own, blocks', frames', below, loops, ifs, stack, rfl,
    ⟨here.covers, here.loopsRoom, here.ifsRoom, here.stackRoom, within, open_, fits⟩, outer⟩

private theorem Activation.back
    (here : Activation functions limits id own blocks frames code loops ifs stack)
    (outer : Below functions limits below loops ifs stack) :
    Running functions limits (unwind (frames ++ below)).1 (unwind (frames ++ below)).2 := by
  rw [here.framed.unwind]
  cases outer with
  | bottom =>
    exact ⟨id, own, [], [], [], 0, 0, 0, rfl,
      ⟨here.covers, here.loopsRoom, here.ifsRoom, here.stackRoom, by simp [Within, loopsOf, ifsOf],
        .nil, rfl⟩, .bottom⟩
  | call caller outer => exact ⟨_, _, _, _, _, _, _, _, rfl, caller, outer⟩

private theorem Activation.jump {n : Nat} {code' : List (Instruction ι)}
    (here : Activation functions limits id own blocks frames code loops ifs stack)
    (outer : Below functions limits below loops ifs stack) (inside : n ≤ blocks.length)
    (fits : Fits (functions.info id) (blocks.drop n) code') :
    Running functions limits code' (leaveBlocks n (frames ++ below)) := by
  obtain ⟨left, framed⟩ := here.framed.leave n inside
  rw [left]
  exact here.move outer (here.within.drop n) framed fits

private theorem Activation.call {n : FunctionID} {rest body : List (Instruction ι)}
    (here : Activation functions limits id own blocks frames rest loops ifs stack)
    (outer : Below functions limits below loops ifs stack) (called : n ∈ (functions.info id).calls)
    (fits : Fits (functions.info n) [] body) :
    Running functions limits body (.call rest :: (frames ++ below)) := by
  cases here.covers with
  | intro callee _ _ _ callees room =>
    obtain ⟨loopsRoom, ifsRoom, stackRoom⟩ := room n called
    have within := here.within
    have := here.loopsRoom
    have := here.ifsRoom
    have := here.stackRoom
    simp only [Within] at within
    refine ⟨n, callee n, [], [], _, _, _, _, rfl, ⟨callees n called, ?_, ?_, ?_, ?_, .nil, fits⟩,
      .call here outer⟩
    · omega
    · omega
    · omega
    · simp [Within, loopsOf, ifsOf]

end Steps

theorem step_running {functions : Functions} {limits : Limits} {program : List (Instruction ι)}
    (known : ∀ n body, functionCode n program = some body → Fits (functions.info n) [] body)
    {m : Interpretation ι σ} {c d : Config ι σ} (running : Running functions limits c.code c.frames)
    (next : step m program c = some d) : Running functions limits d.code d.frames := by
  obtain ⟨code, frames, executed, x⟩ := c
  obtain ⟨id, own, blocks, top, below, loops, ifs, stack, rfl, here, outer⟩ := running
  cases code with
  | nil => cases next
  | cons i rest =>
    have fits := here.fits
    simp only [step] at next
    cases role : i.role with
    | opens b =>
      simp only [role] at next
      simp only [Fits, role] at fits
      obtain ⟨y, rfl | ⟨n, e, code, found, skipped⟩⟩ := enter_cases next
      · exact here.move outer fits.1 (.cons (fun _ => fits.2) here.framed) fits.2
      · -- the block is skipped, up to its ELSE or its end
        obtain ⟨alternates, rfl, code⟩ | ⟨ends, code⟩ := seek_branch (exits_fit rest fits.2) found
        · obtain ⟨-, rfl⟩ | ⟨ends, rfl⟩ := skipped
          · refine here.move outer ?_ (.cons (fun repeats => by cases repeats) here.framed) code
            simpa [Within, loopsOf, ifsOf, Block.catches] using fits.1
          · exact absurd alternates ends
        · obtain ⟨alternates, rfl⟩ | ⟨-, rfl⟩ := skipped
          · exact absurd alternates ends
          · exact here.move outer here.within here.framed code
    | closes b =>
      simp only [role] at next
      simp only [Fits, role] at fits
      obtain ⟨o, blocks, rfl, closed, code⟩ := fits
      obtain ⟨b', head, body, frames, y, same, ⟨repeats, rfl⟩ | rfl⟩ := leaveBlock_cases next
      · cases here.framed with
        | cons again framed =>
          cases same
          exact here.move outer here.within here.framed (again repeats)
      · cases here.framed with
        | cons again framed =>
          cases same
          exact here.move outer here.within.outer framed code
    | alternates =>
      simp only [role] at next
      simp only [Fits, role] at fits
      obtain ⟨blocks, rfl, fits⟩ := fits
      obtain ⟨n, e, code, found, rfl⟩ := jumpBehind_cases next
      obtain ⟨inside, code⟩ := seek_end (fun _ isEnd => isEnd) (exits_fit rest fits) found
      exact here.jump outer inside code
    | breaks always =>
      simp only [role] at next
      simp only [Fits, role] at fits
      split_ifs at next
      · obtain ⟨n, e, code, found, rfl⟩ := jumpBehind_cases next
        have ends : ∀ mark : Mark, mark.breakTarget = true → mark.isEnd = true := by
          rintro (_ | _ | _) <;> simp [Mark.breakTarget, Mark.isEnd]
        obtain ⟨inside, code⟩ := seek_end ends (exits_fit rest fits) found
        exact here.jump outer inside code
      · cases next
        exact here.move outer here.within here.framed fits
    | continues =>
      simp only [role] at next
      simp only [Fits, role] at fits
      obtain ⟨n, code, found, rfl⟩ := jumpTo_cases next
      obtain ⟨inside, code⟩ := seek_continue (exits_fit rest fits) found
      exact here.jump outer inside code
    | calls always =>
      simp only [role] at next
      simp only [Fits, role] at fits
      split_ifs at next
      · obtain ⟨body, found, rfl⟩ := Option.map_eq_some_iff.mp next
        exact Activation.call { here with fits := fits.2 } outer fits.1 (known _ _ found)
      · cases next
        exact here.move outer here.within here.framed fits.2
    | leaves | returns =>
      simp only [role, Option.some_inj] at next
      subst next
      exact here.back outer
    | _ =>
      simp only [role, Option.some_inj] at next
      simp only [Fits, role] at fits
      subst next
      exact here.move outer here.within here.framed fits

theorem reaches_running {functions : Functions} {limits : Limits} {program : List (Instruction ι)}
    (known : ∀ n body, functionCode n program = some body → Fits (functions.info n) [] body)
    (main : Fits (functions.info mainId) [] program) (covers : Covers functions mainId limits)
    {m : Interpretation ι σ} {x : σ} {c : Config ι σ}
    (reaches : Reaches (step m program) (start program x) c) :
    Running functions limits c.code c.frames := by
  induction reaches with
  | refl =>
    refine ⟨mainId, limits, [], [], [], 0, 0, 0, rfl, ⟨covers, ?_, ?_, ?_, ?_, .nil, main⟩, .bottom⟩
    · simp
    · simp
    · simp
    · simp [Within, loopsOf, ifsOf]
  | tail _ next ih => exact step_running known ih next

def openLoops (frames : List (Frame ι)) : Nat :=
  frames.countP fun | .block b _ _ => b.catches | .call _ => false

def openIfs (frames : List (Frame ι)) : Nat :=
  frames.countP fun | .block b _ _ => !b.catches | .call _ => false

def activeFunctions (frames : List (Frame ι)) : Nat :=
  1 + frames.countP fun | .block _ _ _ => false | .call _ => true

section Counts

private theorem open_block (b : Block) (head : Instruction ι) (body : List (Instruction ι))
    (frames : List (Frame ι)) :
    openLoops (.block b head body :: frames) = openLoops frames + (if b.catches then 1 else 0) ∧
      openIfs (.block b head body :: frames) = openIfs frames + (if b.catches then 0 else 1) ∧
      activeFunctions (.block b head body :: frames) = activeFunctions frames := by
  cases catches : b.catches <;> simp [openLoops, openIfs, activeFunctions, catches]

private theorem open_call (rest : List (Instruction ι)) (frames : List (Frame ι)) :
    openLoops (.call rest :: frames) = openLoops frames ∧
      openIfs (.call rest :: frames) = openIfs frames ∧
      activeFunctions (.call rest :: frames) = activeFunctions frames + 1 := by
  simp [openLoops, openIfs, activeFunctions, Nat.add_assoc]

variable {functions : Functions} {limits : Limits} {id : FunctionID} {own : Limits}
  {blocks : List Block} {frames below : List (Frame ι)} {code : List (Instruction ι)}
  {loops ifs stack : Nat}

private theorem Blocks.open (fit : Blocks info blocks frames) (below : List (Frame ι)) :
    openLoops (frames ++ below) = openLoops below + loopsOf blocks ∧
      openIfs (frames ++ below) = openIfs below + ifsOf blocks ∧
      activeFunctions (frames ++ below) = activeFunctions below := by
  induction fit with
  | nil => simp [loopsOf, ifsOf]
  | @cons b blocks head body frames _ _ ih =>
    obtain ⟨loops, ifs, functions⟩ := ih
    obtain ⟨moreLoops, moreIfs, sameFunctions⟩ := open_block b head body (frames ++ below)
    rw [List.cons_append, moreLoops, moreIfs, sameFunctions, loopsOf_cons, ifsOf_cons]
    exact ⟨by omega, by omega, functions⟩

private theorem Below.open (fit : Below functions limits below loops ifs stack) :
    openLoops below = loops ∧ openIfs below = ifs ∧ activeFunctions below = 1 + stack := by
  induction fit with
  | bottom => exact ⟨rfl, rfl, rfl⟩
  | @call id own blocks frames below rest loops ifs stack caller _ ih =>
    obtain ⟨loops, ifs, functions⟩ := caller.framed.open below
    obtain ⟨sameLoops, sameIfs, moreFunctions⟩ := open_call rest (frames ++ below)
    rw [sameLoops, sameIfs, moreFunctions, loops, ifs, functions]
    exact ⟨by omega, by omega, by omega⟩

theorem Running.bounded (running : Running functions limits code frames) :
    openLoops frames ≤ limits.loops ∧ openIfs frames ≤ limits.ifs ∧
      activeFunctions frames ≤ limits.stack := by
  obtain ⟨id, own, blocks, top, below, loops, ifs, stack, rfl, here, outer⟩ := running
  obtain ⟨openLoops, openIfs, active⟩ := here.framed.open below
  obtain ⟨belowLoops, belowIfs, belowActive⟩ := outer.open
  have loopsRoom := here.loopsRoom
  have ifsRoom := here.ifsRoom
  have stackRoom := here.stackRoom
  have within := here.within
  simp only [Within] at within
  cases here.covers with
  | intro callee ownLoops ownIfs ownStack callees room => exact ⟨by omega, by omega, by omega⟩

end Counts

end RabbitRender.Shaders.NestedRuns
