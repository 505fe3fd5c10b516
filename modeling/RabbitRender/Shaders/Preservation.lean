/- RabbitRender/Shaders/Preservation
   layer: result
   source: compiler/shader/Shader.cpp
   digest: The optimized instruction list runs like the original one. -/

import RabbitRender.Shaders.FunctionCode
import RabbitRender.Shaders.Machine
import RabbitRender.Shaders.Optimized

set_option autoImplicit false

namespace RabbitRender.Shaders.Preservation

open StateTransition Shaders.Instructions Shaders.Machine Shaders.FunctionCode Shaders.Optimize
open Shaders.Optimized

variable {ι σ : Type}

section Codes

variable (fine : Instruction ι → Prop) (tails : List (Instruction ι) → List (Instruction ι) → Prop)

/-- The second code is the first without nulls and without a LEAVE at its end, up to where they
come to the tails. -/
inductive Trims : List (Instruction ι) → List (Instruction ι) → Prop where
  | tails {s s' : List (Instruction ι)} (ends : tails s s') : Trims s s'
  | null {i : Instruction ι} {s s' : List (Instruction ι)} (null : i.opcode = .null)
      (rest : Trims s s') : Trims (i :: s) s'
  | leave {i : Instruction ι} {s s' : List (Instruction ι)} (leave : i.opcode = .leave)
      (ends : tails s s') : Trims (i :: s) s'
  | keep {i : Instruction ι} {s s' : List (Instruction ι)} (good : fine i)
      (inner : i.opcode ≠ .ret) (rest : Trims s s') : Trims (i :: s) (i :: s')

def SameExit (e e' : Exit ι) : Prop :=
  e.mark = e'.mark ∧ ∃ i rest rest', e.code = i :: rest ∧ e'.code = i :: rest' ∧ fine i ∧
    i.opcode ≠ .ret ∧ Trims fine tails rest rest'

end Codes

section Marks

variable {fine : Instruction ι → Prop} {tails : List (Instruction ι) → List (Instruction ι) → Prop}

theorem trims_body {body rest rest' : List (Instruction ι)} (isBody : ∀ i ∈ body, i.opcode ≠ .ret)
    (good : ∀ i ∈ body, fine i) (ends : tails rest rest') :
    Trims fine tails (body ++ rest) (trimmed body ++ rest') := by
  induction body with
  | nil => exact .tails ends
  | cons i body ih =>
    have inner := ih (fun j member => isBody j (List.mem_cons_of_mem i member))
      (fun j member => good j (List.mem_cons_of_mem i member))
    rw [trimmed, optimizeLeave, removeNull] at *
    split_ifs with dead
    · -- nothing but the end stands behind a dead LEAVE
      cases body with
      | nil => simpa [optimizeLeave] using Trims.leave dead.1 ends
      | cons j body =>
        exact absurd (dead.2 j rfl) (isBody j (List.mem_cons_of_mem i List.mem_cons_self))
    · by_cases null : i.opcode = .null
      · rw [List.filter_cons_of_neg (by simp [null])]
        exact .null null inner
      · rw [List.filter_cons_of_pos (by simp [null])]
        exact .keep (good i List.mem_cons_self) (isBody i List.mem_cons_self) inner

private theorem returns_iff (i : Instruction ι) : i.role = .returns ↔ i.opcode = .ret := by
  rw [Instruction.role]
  cases i.opcode <;> simp [Opcode.role]

private theorem sameExit_fromEnd {es es' : List (Exit ι)}
    (same : List.Forall₂ (SameExit fine tails) es es') :
    List.Forall₂ (SameExit fine tails) (fromEnd es) (fromEnd es') := by
  induction same with
  | nil => exact .nil
  | cons first rest ih =>
    rw [fromEnd, fromEnd, first.1]
    split_ifs
    · exact .cons first rest
    · exact ih

private theorem sameExit_pastEnd {es es' : List (Exit ι)}
    (same : List.Forall₂ (SameExit fine tails) es es') :
    List.Forall₂ (SameExit fine tails) (pastEnd es) (pastEnd es') := by
  have front := sameExit_fromEnd same
  rw [pastEnd, pastEnd]
  generalize fromEnd es = front₁, fromEnd es' = front₂ at front
  cases front with
  | nil => exact .nil
  | cons _ rest => exact rest

theorem exits_trims (bare : ∀ s s', tails s s' → exits s = [] ∧ exits s' = [])
    {s s' : List (Instruction ι)} (trims : Trims fine tails s s') :
    List.Forall₂ (SameExit fine tails) (exits s) (exits s') := by
  induction trims with
  | tails ends =>
    rw [(bare _ _ ends).1, (bare _ _ ends).2]
    exact .nil
  | @null i s s' null rest ih =>
    have skips : i.role = .skip := by rw [Instruction.role, null]; rfl
    simpa only [exits, skips] using ih
  | @leave i s s' leave ends =>
    have leaves : i.role = .leaves := by rw [Instruction.role, leave]; rfl
    simp only [exits, leaves, (bare _ _ ends).1, (bare _ _ ends).2]
    exact .nil
  | @keep i s s' good inner rest ih =>
    cases role : i.role with
    | opens b => simpa only [exits, role] using sameExit_pastEnd ih
    | closes b | test =>
      simp only [exits, role]
      exact .cons ⟨rfl, i, s, s', rfl, rfl, good, inner, rest⟩ ih
    | alternates =>
      simp only [exits, role]
      exact .cons ⟨rfl, i, s, s', rfl, rfl, good, inner, rest⟩ (sameExit_fromEnd ih)
    | returns => exact absurd ((returns_iff i).mp role) inner
    | _ => simpa only [exits, role] using ih

theorem seek_sameExit (wanted : Mark → Bool) {es es' : List (Exit ι)}
    (same : List.Forall₂ (SameExit fine tails) es es') :
    (seek wanted es = none ∧ seek wanted es' = none) ∨
    ∃ n i rest rest', seek wanted es = some (n, i :: rest) ∧
      seek wanted es' = some (n, i :: rest') ∧ fine i ∧ i.opcode ≠ .ret ∧
      Trims fine tails rest rest' := by
  induction same with
  | nil => exact .inl ⟨rfl, rfl⟩
  | @cons e e' es es' first rest ih =>
    obtain ⟨mark, i, code, code', this, that, good, inner, trims⟩ := first
    rw [seek, seek, ← mark]
    by_cases hit : wanted e.mark = true
    · rw [if_pos hit, if_pos hit]
      exact .inr ⟨0, i, code, code', by rw [this], by rw [that], good, inner, trims⟩
    · rw [if_neg hit, if_neg hit]
      rcases ih with ⟨missing, missing'⟩ | ⟨n, j, rest, rest', found, found', others⟩
      · exact .inl ⟨by rw [missing]; rfl, by rw [missing']; rfl⟩
      · exact .inr ⟨_, j, rest, rest', by rw [found]; rfl, by rw [found']; rfl, others⟩

end Marks

section Simulation

variable (fine : Instruction ι → Prop) (tails : List (Instruction ι) → List (Instruction ι) → Prop)
  (base : List (Frame ι)) (callable : Prop)

/-- The frames of the original program, above those in `base`, and the optimized one's. -/
inductive Frames : List (Frame ι) → List (Frame ι) → Prop where
  | base : Frames base []
  | block {b : Block} {i : Instruction ι} {body body' : List (Instruction ι)}
      {fs fs' : List (Frame ι)} (code : Trims fine tails body body') (outer : Frames fs fs') :
      Frames (.block b i body :: fs) (.block b i body' :: fs')
  | call {rest rest' : List (Instruction ι)} {fs fs' : List (Frame ι)} (calls : callable)
      (code : Trims fine tails rest rest') (outer : Frames fs fs') :
      Frames (.call rest :: fs) (.call rest' :: fs')

/-- The optimized program's configuration and the original's, at the same instruction, both on the
way back from a function, or both at the end. -/
inductive Matched : Config ι σ → Config ι σ → Prop where
  | keep {i : Instruction ι} {s s' : List (Instruction ι)} {fs fs' : List (Frame ι)}
      {executed : List (Instruction ι)} {x : σ} (good : fine i) (inner : i.opcode ≠ .ret)
      (code : Trims fine tails s s') (frames : Frames fine tails base callable fs fs') :
      Matched ⟨i :: s', fs', executed, x⟩ ⟨i :: s, fs, executed, x⟩
  | back {i j : Instruction ι} {s s' : List (Instruction ι)} {fs fs' : List (Frame ι)}
      {executed : List (Instruction ι)} {x : σ} (returns : i.role = .leaves ∨ i.role = .returns)
      (returns' : j.role = .leaves ∨ j.role = .returns)
      (frames : Frames fine tails base callable fs fs') :
      Matched ⟨j :: s', fs', executed, x⟩ ⟨i :: s, fs, executed, x⟩
  | halted {fs fs' : List (Frame ι)} {executed : List (Instruction ι)} {x : σ} :
      Matched ⟨[], fs', executed, x⟩ ⟨[], fs, executed, x⟩

structure Setting (m : Interpretation ι σ) (program program' : List (Instruction ι)) : Prop where
  bare : ∀ s s', tails s s' → exits s = [] ∧ exits s' = []
  bottom : ∀ n, leaveBlocks n base = base
  finish : ∀ {s s' fs fs'} executed x, tails s s' → Frames fine tails base callable fs fs' →
    ∃ c, Reaches (step m program) ⟨s, fs, executed, x⟩ c ∧
      Matched fine tails base callable ⟨s', fs', executed, x⟩ c
  leaves : ∀ {i s s' fs fs'} executed x, i.role = .leaves → tails s s' →
    Frames fine tails base callable fs fs' →
    ∃ c, Reaches (step m program) ⟨i :: s, fs, executed, x⟩ c ∧
      Matched fine tails base callable ⟨s', fs', executed, x⟩ c
  home : ∀ executed x, ∃ c,
    Reaches (step m program) ⟨(unwind base).1, (unwind base).2, executed, x⟩ c ∧
      Matched fine tails base callable ⟨[], [], executed, x⟩ c
  calls : ∀ i, fine i → i.isCall = true → callable ∧ ∃ body body',
    functionCode i.label program = some body ∧ functionCode i.label program' = some body' ∧
      Trims fine tails body body'

variable {fine tails base callable}
variable {m : Interpretation ι σ} {program program' : List (Instruction ι)}

private theorem settle (setting : Setting fine tails base callable m program program')
    {s s' : List (Instruction ι)} {fs fs' : List (Frame ι)} (code : Trims fine tails s s')
    (frames : Frames fine tails base callable fs fs') (executed : List (Instruction ι)) (x : σ) :
    ∃ c, Reaches (step m program) ⟨s, fs, executed, x⟩ c ∧
      Matched fine tails base callable ⟨s', fs', executed, x⟩ c := by
  induction code with
  | tails ends => exact setting.finish executed x ends frames
  | @null i s s' null rest ih =>
    obtain ⟨c, reaches, matched⟩ := ih
    have skips : i.role = .skip := by rw [Instruction.role, null]; rfl
    refine ⟨c, .head ?_ reaches, matched⟩
    simp only [step, skips]
    rfl
  | leave leave ends =>
    exact setting.leaves executed x (by rw [Instruction.role, leave]; rfl) ends frames
  | keep good inner rest => exact ⟨_, .refl, .keep good inner rest frames⟩

private theorem settle_unwind (setting : Setting fine tails base callable m program program')
    {fs fs' : List (Frame ι)} (frames : Frames fine tails base callable fs fs')
    (executed : List (Instruction ι)) (x : σ) :
    ∃ c, Reaches (step m program) ⟨(unwind fs).1, (unwind fs).2, executed, x⟩ c ∧
      Matched fine tails base callable ⟨(unwind fs').1, (unwind fs').2, executed, x⟩ c := by
  induction frames with
  | base => exact setting.home executed x
  | block _ _ ih => exact ih
  | call _ code outer _ => exact settle setting code outer executed x

private theorem Frames.leaveBlocks (bottom : ∀ n, leaveBlocks n base = base) (n : Nat) :
    ∀ {fs fs' : List (Frame ι)}, Frames fine tails base callable fs fs' →
      Frames fine tails base callable (leaveBlocks n fs) (leaveBlocks n fs') := by
  induction n with
  | zero =>
    intro fs fs' frames
    cases frames with
    | base => rw [bottom]; exact .base
    | block code outer => exact .block code outer
    | call calls code outer => exact .call calls code outer
  | succ n ih =>
    intro fs fs' frames
    cases frames with
    | base => rw [bottom]; exact .base
    | block code outer => exact ih outer
    | call calls code outer => exact .call calls code outer

variable (fine tails base callable) in
/-- Two steps that both fail, or lead to configurations with the same outcome so far, trimmed code
and corresponding frames. -/
def Alike (next next' : Option (Config ι σ)) : Prop :=
  (next = none ∧ next' = none) ∨ ∃ d d', next = some d ∧ next' = some d' ∧
    d'.executed = d.executed ∧ d'.state = d.state ∧ Trims fine tails d.code d'.code ∧
    Frames fine tails base callable d.frames d'.frames

section Steps

variable (setting : Setting fine tails base callable m program program')
  {s s' : List (Instruction ι)} {fs fs' : List (Frame ι)} (k k' executed : List (Instruction ι))
  (x : σ) (code : Trims fine tails s s') (frames : Frames fine tails base callable fs fs')

include setting code frames

private theorem jumpBehind_alike (wanted : Mark → Bool) :
    Alike fine tails base callable (jumpBehind wanted s (⟨k, fs, executed, x⟩ : Config ι σ))
      (jumpBehind wanted s' ⟨k', fs', executed, x⟩) := by
  rcases seek_sameExit wanted (exits_trims setting.bare code) with
    ⟨missing, missing'⟩ | ⟨n, i, rest, rest', found, found', -, -, trims⟩
  · exact .inl ⟨by rw [jumpBehind, missing], by rw [jumpBehind, missing']⟩
  · simp only [jumpBehind, found, found']
    exact .inr ⟨_, _, rfl, rfl, rfl, rfl, trims, frames.leaveBlocks setting.bottom _⟩

private theorem jumpTo_alike (wanted : Mark → Bool) :
    Alike fine tails base callable (jumpTo wanted s (⟨k, fs, executed, x⟩ : Config ι σ))
      (jumpTo wanted s' ⟨k', fs', executed, x⟩) := by
  rcases seek_sameExit wanted (exits_trims setting.bare code) with
    ⟨missing, missing'⟩ | ⟨n, i, rest, rest', found, found', good, inner, trims⟩
  · exact .inl ⟨by rw [jumpTo, missing]; rfl, by rw [jumpTo, missing']; rfl⟩
  · simp only [jumpTo, found, found']
    exact .inr ⟨_, _, rfl, rfl, rfl, rfl, .keep good inner trims,
      frames.leaveBlocks setting.bottom _⟩

private theorem enter_alike (i : Instruction ι) (b : Block) :
    Alike fine tails base callable (enter m i b s (⟨k, fs, executed, x⟩ : Config ι σ))
      (enter m i b s' ⟨k', fs', executed, x⟩) := by
  simp only [enter]
  generalize (if b.repeats = true then m.apply i x else x) = y
  split_ifs
  · exact .inr ⟨_, _, rfl, rfl, rfl, rfl, code, .block code frames⟩
  · rcases seek_sameExit Mark.endOrElse (exits_trims setting.bare code) with
      ⟨missing, missing'⟩ | ⟨n, j, rest, rest', found, found', -, -, trims⟩
    · exact .inl ⟨by rw [missing], by rw [missing']⟩
    · rw [found, found']
      by_cases other : j.role = .alternates
      · simp only [if_pos other]
        exact .inr ⟨_, _, rfl, rfl, rfl, rfl, trims, .block trims frames⟩
      · simp only [if_neg other]
        exact .inr ⟨_, _, rfl, rfl, rfl, rfl, trims, frames⟩

omit setting in
private theorem leaveBlock_alike (noBlock : ∀ b i body fs, base ≠ .block b i body :: fs)
    (i : Instruction ι) :
    Alike fine tails base callable (leaveBlock m i s (⟨k, fs, executed, x⟩ : Config ι σ))
      (leaveBlock m i s' ⟨k', fs', executed, x⟩) := by
  cases frames with
  | base =>
    refine .inl ⟨?_, rfl⟩
    rw [leaveBlock]
    split
    · rename_i same
      exact absurd same (noBlock _ _ _ _)
    · rfl
  | block body outer =>
    simp only [leaveBlock]
    split_ifs
    · exact .inr ⟨_, _, rfl, rfl, rfl, rfl, body, .block body outer⟩
    · exact .inr ⟨_, _, rfl, rfl, rfl, rfl, code, outer⟩
    · exact .inr ⟨_, _, rfl, rfl, rfl, rfl, code, outer⟩
  | call => exact .inl ⟨rfl, rfl⟩

end Steps

private theorem step_alike (setting : Setting fine tails base callable m program program')
    (noBlock : ∀ b i body fs, base ≠ .block b i body :: fs)
    {i : Instruction ι} {s s' : List (Instruction ι)} {fs fs' : List (Frame ι)}
    (executed : List (Instruction ι)) (x : σ) (good : fine i) (inner : i.opcode ≠ .ret)
    (stays : i.role ≠ .leaves) (code : Trims fine tails s s')
    (frames : Frames fine tails base callable fs fs') :
    Alike fine tails base callable (step m program ⟨i :: s, fs, executed, x⟩)
      (step m program' ⟨i :: s', fs', executed, x⟩) := by
  have on : ∀ executed' y, Alike fine tails base callable
      (some (⟨s, fs, executed', y⟩ : Config ι σ)) (some ⟨s', fs', executed', y⟩) :=
    fun _ _ => .inr ⟨_, _, rfl, rfl, rfl, rfl, code, frames⟩
  simp only [step]
  cases role : i.role with
  | plain => exact on _ _
  | skip => exact on _ _
  | test => exact on _ _
  | opens b => exact enter_alike setting _ _ executed x code frames i b
  | alternates => exact jumpBehind_alike setting _ _ executed x code frames _
  | closes b => exact leaveBlock_alike _ _ executed x code frames noBlock i
  | breaks always =>
    simp only
    split_ifs
    · exact jumpBehind_alike setting _ _ executed x code frames _
    · exact on _ _
  | continues => exact jumpTo_alike setting _ _ executed x code frames _
  | calls always =>
    have isCall : i.isCall = true := by
      rw [Instruction.role] at role
      rw [Instruction.isCall]
      revert role
      cases i.opcode <;> simp [Opcode.role]
    obtain ⟨callable, body, body', found, found', trims⟩ := setting.calls i good isCall
    simp only [found, found']
    split_ifs
    · exact .inr ⟨_, _, rfl, rfl, rfl, rfl, trims, .call callable code frames⟩
    · exact on _ _
  | leaves => exact absurd role stays
  | returns => exact absurd ((returns_iff i).mp role) inner

private theorem step_back (setting : Setting fine tails base callable m program program')
    {i j : Instruction ι} {fs fs' : List (Frame ι)} (s s' executed : List (Instruction ι)) (x : σ)
    (returns : i.role = .leaves ∨ i.role = .returns)
    (returns' : j.role = .leaves ∨ j.role = .returns)
    (frames : Frames fine tails base callable fs fs') :
    ∃ d' d, step m program' ⟨j :: s', fs', executed, x⟩ = some d' ∧
      Matched fine tails base callable d' d ∧
      Reaches₁ (step m program) ⟨i :: s, fs, executed, x⟩ d := by
  obtain ⟨d, reaches, matched⟩ := settle_unwind setting frames executed x
  have this : step m program ⟨i :: s, fs, executed, x⟩ =
      some ⟨(unwind fs).1, (unwind fs).2, executed, x⟩ := by
    rcases returns with role | role <;> simp only [step, role]
  have that : step m program' ⟨j :: s', fs', executed, x⟩ =
      some ⟨(unwind fs').1, (unwind fs').2, executed, x⟩ := by
    rcases returns' with role | role <;> simp only [step, role]
  exact ⟨_, d, that, matched, .head' this reaches⟩

theorem respects (setting : Setting fine tails base callable m program program')
    (noBlock : ∀ b i body fs, base ≠ .block b i body :: fs) :
    Respects (step m program') (step m program) (Matched fine tails base callable) := by
  intro c' c matched
  cases matched with
  | halted => rfl
  | back returns returns' frames =>
    obtain ⟨d', d, that, matched, reaches⟩ := step_back setting _ _ _ _ returns returns' frames
    rw [that]
    exact ⟨d, matched, reaches⟩
  | @keep i s s' fs fs' executed x good inner code frames =>
    by_cases leaves : i.role = .leaves
    · obtain ⟨d', d, that, matched, reaches⟩ :=
        step_back setting s s' executed x (.inl leaves) (.inl leaves) frames
      rw [that]
      exact ⟨d, matched, reaches⟩
    · rcases step_alike setting noBlock executed x good inner leaves code frames with
        ⟨this, that⟩ | ⟨d, d', this, that, sameExecuted, sameState, trims, frames⟩
      · rw [that]
        exact this
      · rw [that]
        obtain ⟨s, fs, executed, x⟩ := d
        obtain ⟨s', fs', executed', x'⟩ := d'
        cases sameExecuted
        cases sameState
        obtain ⟨c, reaches, matched⟩ := settle setting trims frames executed x
        exact ⟨c, matched, .head' this reaches⟩

end Simulation

/-- The two lists run alike from every state: they end alike, and execute the same. -/
def RunAlike (program program' : List (Instruction ι)) : Prop :=
  ∀ (σ : Type) (m : Interpretation ι σ) (x : σ),
    outcome m program x = outcome m program' x ∧
      ∀ executed, Executes m program x executed ↔ Executes m program' x executed

section Outcomes

variable {fine : Instruction ι → Prop} {tails : List (Instruction ι) → List (Instruction ι) → Prop}
  {base : List (Frame ι)} {callable : Prop} {m : Interpretation ι σ}
  {program program' : List (Instruction ι)}

private theorem Matched.outcome {c' c : Config ι σ} (matched : Matched fine tails base callable c' c) :
    c'.outcome = c.outcome := by
  cases matched <;> rfl

private theorem Matched.executed {c' c : Config ι σ}
    (matched : Matched fine tails base callable c' c) : c.executed = c'.executed := by
  cases matched <;> rfl

private theorem alike_of_matched (setting : Setting fine tails base callable m program program')
    (noBlock : ∀ b i body fs, base ≠ .block b i body :: fs) {x : σ} {c : Config ι σ}
    (reaches : Reaches (step m program) (start program x) c)
    (matched : Matched fine tails base callable (start program' x) c) :
    outcome m program x = outcome m program' x ∧
      ∀ executed, Executes m program x executed ↔ Executes m program' x executed := by
  have simulation := respects setting noBlock
  constructor
  · refine Part.ext fun result => ?_
    rw [Machine.outcome, Machine.outcome, reaches_eval reaches, Part.mem_map_iff, Part.mem_map_iff]
    constructor
    · rintro ⟨d, ends, rfl⟩
      obtain ⟨d', matched', ends'⟩ := tr_eval_rev simulation matched ends
      exact ⟨d', ends', matched'.outcome⟩
    · rintro ⟨d', ends', rfl⟩
      obtain ⟨d, matched', ends⟩ := tr_eval simulation matched ends'
      exact ⟨d, ends, matched'.outcome.symm⟩
  · intro executed
    constructor
    · rintro ⟨d, run, done⟩
      rcases reaches_total run reaches with early | late
      · -- the original has not yet come to the match
        exact ⟨_, .refl, done.trans (matched.executed ▸ reaches_executed early)⟩
      · obtain ⟨e', e, on, matched', run'⟩ := tr_reaches_rev simulation matched late
        exact ⟨e', run', done.trans (matched'.executed ▸ reaches_executed on)⟩
    · rintro ⟨d', run', done⟩
      obtain ⟨d, matched', run⟩ := tr_reaches simulation matched run'
      exact ⟨d, reaches.trans run, matched'.executed ▸ done⟩

end Outcomes

def AtReturns (s s' : List (Instruction ι)) : Prop :=
  ∃ r t r' t', s = r :: t ∧ s' = r' :: t' ∧ r.role = .returns ∧ r'.role = .returns

private theorem isCall_mem {i : Instruction ι} {code : List (Instruction ι)} (member : i ∈ code)
    (isCall : i.isCall = true) : i.label ∈ calls code :=
  List.mem_map_of_mem (List.mem_filter.mpr ⟨member, isCall⟩)

private theorem functionsSetting (m : Interpretation ι σ) {p : Program ι}
    {functions : List (Function ι)} (live : Live p functions) :
    Setting (fun i => i.isCall = true → i.label ∈ functions.map Function.number) AtReturns [] True m
      p.instructions live.program.instructions where
  bare := by
    rintro _ _ ⟨r, t, r', t', rfl, rfl, returns, returns'⟩
    simp only [exits, returns, returns', and_self]
  bottom n := by cases n <;> rfl
  finish := by
    rintro _ _ fs fs' executed x ⟨r, t, r', t', rfl, rfl, returns, returns'⟩ frames
    exact ⟨_, .refl, .back (.inr returns) (.inr returns') frames⟩
  leaves := by
    rintro i _ _ fs fs' executed x leaves ⟨r, t, r', t', rfl, rfl, returns, returns'⟩ frames
    exact ⟨_, .refl, .back (.inl leaves) (.inr returns') frames⟩
  home executed x := ⟨_, .refl, .halted⟩
  calls := by
    intro i good isCall
    obtain ⟨f, member, number⟩ := List.mem_map.mp (good isCall)
    obtain ⟨rest, found⟩ := functionCode_program p (live.sublist.subset member)
    have member' : trimFunction f ∈ live.program.functions := List.mem_map_of_mem member
    obtain ⟨rest', found'⟩ := functionCode_program live.program member'
    refine ⟨trivial, _, _, number ▸ found, number ▸ found', trims_body f.isBody.noRet ?_ ?_⟩
    · exact fun j inside call => live.functionCalls f member _ (isCall_mem inside call)
    · exact ⟨f.last, rest, f.last, rest', rfl, rfl, (returns_iff _).mpr f.isRet,
        (returns_iff _).mpr f.isRet⟩

private theorem functions_alike {p : Program ι} {functions : List (Function ι)}
    (live : Live p functions) {r : Instruction ι} (ret : p.ret = some r) :
    RunAlike p.instructions live.program.instructions := by
  intro σ m x
  have returns : r.role = .returns := (returns_iff r).mpr (p.isRet r ret)
  have trims : Trims (fun i => i.isCall = true → i.label ∈ functions.map Function.number) AtReturns
      p.instructions live.program.instructions := by
    rw [Program.instructions, Program.instructions, List.append_assoc, List.append_assoc]
    refine trims_body p.isMain.noRet (fun i member call => live.mainCalls _ (isCall_mem member call)) ?_
    rw [ret, show live.program.ret = some r from ret]
    exact ⟨r, _, r, _, rfl, rfl, returns, returns⟩
  obtain ⟨c, reaches, matched⟩ := settle (functionsSetting m live) trims .base [] x
  exact alike_of_matched (functionsSetting m live) (by simp) reaches matched

/-- The optimized code has come to its end, and the original to its end or a RET. -/
def AtEnds (s s' : List (Instruction ι)) : Prop :=
  s' = [] ∧ (s = [] ∨ ∃ r t, s = r :: t ∧ r.role = .returns)

private theorem unwind_base {fine : Instruction ι → Prop} {base fs fs' : List (Frame ι)}
    (frames : Frames fine AtEnds base False fs fs') : unwind fs = unwind base := by
  induction frames with
  | base => rfl
  | block _ _ ih => exact ih
  | call calls _ _ _ => exact calls.elim

private theorem aloneSetting (m : Interpretation ι σ) {base : List (Frame ι)}
    {program program' : List (Instruction ι)} (bottom : ∀ n, leaveBlocks n base = base)
    (home : ∀ executed x, ∃ fs, Reaches (step m program)
      ⟨(unwind base).1, (unwind base).2, executed, x⟩ ⟨[], fs, executed, x⟩) :
    Setting (fun i => i.isCall ≠ true) AtEnds base False m program program' where
  bare := by
    rintro _ _ ⟨rfl, rfl | ⟨r, t, rfl, returns⟩⟩
    · exact ⟨rfl, rfl⟩
    · simp only [exits, returns, and_self]
  bottom := bottom
  finish := by
    rintro _ _ fs fs' executed x ⟨rfl, rfl | ⟨r, t, rfl, returns⟩⟩ frames
    · exact ⟨_, .refl, .halted⟩
    · obtain ⟨gs, reaches⟩ := home executed x
      refine ⟨_, .head ?_ reaches, .halted⟩
      simp only [step, returns, unwind_base frames]
      rfl
  leaves := by
    rintro i s _ fs fs' executed x leaves ⟨rfl, -⟩ frames
    obtain ⟨gs, reaches⟩ := home executed x
    refine ⟨_, .head ?_ reaches, .halted⟩
    simp only [step, leaves, unwind_base frames]
    rfl
  home executed x := by
    obtain ⟨gs, reaches⟩ := home executed x
    exact ⟨_, reaches, .halted⟩
  calls i good isCall := absurd isCall good

private theorem noCall {i : Instruction ι} {code : List (Instruction ι)} (leaf : calls code = [])
    (member : i ∈ code) : i.isCall ≠ true := by
  intro isCall
  have := isCall_mem member isCall
  rw [leaf] at this
  cases this

private theorem main_alike {p : Program ι} {functions : List (Function ι)}
    (live : Live p functions) (ret : p.ret = none) :
    RunAlike p.instructions live.program.instructions := by
  intro σ m x
  have none : p.functions = [] := by
    by_contra some
    simpa [ret] using p.closed some
  have leaf : calls p.main = [] := by
    refine List.eq_nil_iff_forall_not_mem.mpr fun n member => ?_
    simpa [none] using p.mainCalls n member
  have list : p.instructions = p.main ++ [] := by simp [Program.instructions, ret, none]
  have none' : functions = [] := List.sublist_nil.mp (none ▸ live.sublist)
  have list' : live.program.instructions = trimmed p.main ++ [] := by
    simp [Program.instructions, Live.program, ret, none']
  have setting : Setting (fun i => i.isCall ≠ true) AtEnds [] False m p.instructions
      live.program.instructions :=
    aloneSetting m (by intro n; cases n <;> rfl) fun executed x => ⟨_, .refl⟩
  have trims : Trims (fun i => i.isCall ≠ true) AtEnds (p.main ++ []) (trimmed p.main ++ []) :=
    trims_body p.isMain.noRet (fun i member => noCall leaf member) ⟨rfl, .inl rfl⟩
  obtain ⟨c, reaches, matched⟩ := settle setting trims .base [] x
  rw [← list, ← list'] at *
  exact alike_of_matched setting (by simp) reaches matched

private theorem entry_alike {p : Program ι} {functions : List (Function ι)}
    (live : Live p functions) {i : Instruction ι} {f : Function ι}
    (entry : EntryCall p functions i f) : RunAlike p.instructions (trimmed f.body) := by
  intro σ m x
  obtain ⟨r, ret⟩ := Option.isSome_iff_exists.mp entry.ret
  have returns : r.role = .returns := (returns_iff r).mpr (p.isRet r ret)
  have calls : i.role = .calls true := by rw [Instruction.role, entry.isCall]; rfl
  have member : f ∈ functions := entry.only ▸ List.mem_singleton_self f
  obtain ⟨rest, found⟩ := functionCode_program p (live.sublist.subset member)
  rw [entry.number] at found
  obtain ⟨t, list⟩ : ∃ t, p.instructions = i :: r :: t :=
    ⟨p.functions.flatMap Function.text, by simp [Program.instructions, entry.main, ret]⟩
  have setting : Setting (fun i => i.isCall ≠ true) AtEnds [.call (r :: t)] False m
      p.instructions (trimmed f.body) := by
    refine aloneSetting m (by intro n; cases n <;> rfl) fun executed x => ⟨[], .single ?_⟩
    simp only [unwind, step, returns]
    rfl
  have trims : Trims (fun i => i.isCall ≠ true) AtEnds (f.body ++ f.last :: rest)
      (trimmed f.body ++ []) :=
    trims_body f.isBody.noRet (fun i inside => noCall entry.leaf inside)
      ⟨rfl, .inr ⟨f.last, rest, rfl, (returns_iff _).mpr f.isRet⟩⟩
  rw [List.append_nil] at trims
  obtain ⟨c, reaches, matched⟩ := settle setting trims .base [] x
  -- the original first makes the entry call
  refine alike_of_matched setting (by simp) (.head ?_ reaches) matched
  simp only [start, step]
  rw [list]
  simp only [calls, Bool.true_or, if_true, ← list, found]
  rfl

/-- Optimizing a well formed program leaves no null instruction, and a list that runs like it. -/
theorem optimize_preserves (p : Program ι) :
    (∀ i ∈ optimize p.instructions, i.opcode ≠ .null) ∧
      RunAlike p.instructions (optimize p.instructions) := by
  refine ⟨optimize_noNull p.instructions, ?_⟩
  obtain ⟨functions, live, ⟨i, f, entry, left⟩ | ⟨-, left⟩⟩ := optimize_program p
  · rw [left]
    exact entry_alike live entry
  · rw [left]
    cases ret : p.ret with
    | none => exact main_alike live ret
    | some r => exact functions_alike live ret

end RabbitRender.Shaders.Preservation
