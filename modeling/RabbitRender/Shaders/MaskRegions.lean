/- RabbitRender/Shaders/MaskRegions
   layer: result
   source: compiler/shader/Shader.cpp, compiler/shader/Shader.hpp
   digest: The instructions a mask can affect, and the blocks open around them. -/

import RabbitRender.Lib.Gates
import RabbitRender.Shaders.MaskMarks

set_option autoImplicit false

namespace RabbitRender.Shaders.MaskRegions

open Lib.Gates Shaders.Instructions Shaders.MaskAnalysis Shaders.MaskMarks

variable {ι : Type}

/-- What an instruction makes of the open blocks, each with the index where it begins. -/
def push (i : Nat) (inst : Instruction ι) (open_ : List (Block × Nat)) : List (Block × Nat) :=
  match inst.role with
  | .opens b => (b, i) :: open_
  | .alternates =>
    match open_ with
    | (_, s) :: outer => (.alternative, s) :: outer
    | [] => []
  | .closes _ => open_.tail
  | .returns => []
  | _ => open_

def enclosing (code : List (Instruction ι)) (q : Nat) : List (Block × Nat) := before push 0 [] code q

def starts (code : List (Instruction ι)) (q : Nat) : List Nat := (enclosing code q).map Prod.snd

/-- The instruction stands in the block that begins at `s`: it is open before and behind it. -/
def Inside (code : List (Instruction ι)) (s q : Nat) : Prop :=
  q < code.length ∧ s ∈ starts code q ∧ s ∈ starts code (q + 1)

def caught (code : List (Instruction ι)) (q : Nat) : Option (Block × Nat) :=
  (enclosing code q).find? fun e => e.1.catches

def repeated (code : List (Instruction ι)) (q : Nat) : Option (Block × Nat) :=
  (enclosing code q).find? fun e => e.1.repeats

def InBranch (code : List (Instruction ι)) (q : Nat) : Prop :=
  ∃ b s, (b, s) ∈ enclosing code q ∧ b ≠ .switch ∧ Inside code s q

/-- Behind a BREAK and before the end of the innermost loop or switch around it. -/
def AfterBreak (code : List (Instruction ι)) (q : Nat) : Prop :=
  ∃ i inst b s, code[i]? = some inst ∧ inst.isBreak = true ∧ caught code i = some (b, s) ∧ i < q ∧
    Inside code s q

/-- Behind the CONTINUE at `i` and before the TEST or the end of the innermost loop around it. -/
def ContinueTo (code : List (Instruction ι)) (i q : Nat) : Prop :=
  ∃ inst b s, code[i]? = some inst ∧ inst.opcode = .continue_ ∧ repeated code i = some (b, s) ∧
    i < q ∧ Inside code s q ∧ ∀ (t : Nat) (other : Instruction ι), i < t → t ≤ q →
      code[t]? = some other → other.opcode = .test → repeated code t ≠ some (b, s)

def AfterContinue (code : List (Instruction ι)) (q : Nat) : Prop := ∃ i, ContinueTo code i q

def AfterLeave (code : List (Instruction ι)) (q : Nat) : Prop :=
  ∃ i inst, code[i]? = some inst ∧ inst.opcode = .leave ∧ i < q ∧ q < code.length ∧
    ∀ (u : Nat) (other : Instruction ι), i < u → u ≤ q → code[u]? = some other → other.opcode ≠ .ret

def EarlierInLoop (code : List (Instruction ι)) (q : Nat) : Prop :=
  ∃ i inst b s, code[i]? = some inst ∧ inst.opcode = .leave ∧ (b, s) ∈ enclosing code i ∧
    b.repeats = true ∧ s < q ∧ q < i

def Flagged (code : List (Instruction ι)) (q : Nat) (flag : Analysis) : Prop :=
  ∃ inst, code[q]? = some inst ∧ flag ∈ inst.analysis

/-- The instruction has the flag, and so has every instruction of the functions it calls, directly
or transitively. -/
def Carried (code result : List (Instruction ι)) (flag : Analysis) (q : Nat) : Prop :=
  Flagged result q flag ∧ ∀ inst, code[q]? = some inst → inst.isCall = true →
    ∀ r, InCallees code inst.label r → Flagged result r flag

structure Masked (code result : List (Instruction ι)) : Prop where
  branch : ∀ q, InBranch code q → Carried code result .branch q
  break_ : ∀ q, AfterBreak code q → Carried code result .break_ q
  continue_ : ∀ q, AfterContinue code q → Carried code result .continue_ q
  leave : ∀ q, AfterLeave code q ∨ EarlierInLoop code q → Carried code result .leave q

def Sound (constBool : Instruction ι → Bool) (code : List (Instruction ι)) : Prop :=
  ∃ result, (∃ fuel, ∀ k, fuel ≤ k →
    analyzeDynamicBranching constBool k code = some (presence constBool code, result)) ∧
      Masked code result

def Nests (open_ : List (Block × Nat)) (inst : Instruction ι) : Prop :=
  match inst.role with
  | .closes b => ∃ o s outer, open_ = (o, s) :: outer ∧ o.closedBy b = true
  | .alternates => ∃ s outer, open_ = (.branch, s) :: outer
  | .returns => open_ = []
  | _ => inst.opcode = .label → open_ = []

def Nested (code : List (Instruction ι)) : Prop :=
  ∀ q inst, code[q]? = some inst → Nests (enclosing code q) inst

private def NestedFrom : Nat → List (Block × Nat) → List (Instruction ι) → Prop
  | _, _, [] => True
  | i, open_, inst :: rest => Nests open_ inst ∧ NestedFrom (i + 1) (push i inst open_) rest

private theorem nestedFrom_nests {code : List (Instruction ι)} : ∀ {i : Nat}
    {open_ : List (Block × Nat)}, NestedFrom i open_ code →
      ∀ q inst, code[q]? = some inst → Nests (before push i open_ code q) inst := by
  induction code with
  | nil => simp
  | cons first rest ih =>
    rintro i open_ ⟨nests, nested⟩ (_ | q) inst found
    · simp only [List.getElem?_cons_zero, Option.some_inj] at found
      subst found
      simpa using nests
    · exact ih nested q inst (by simpa using found)

private theorem nestedFrom_body {code rest : List (Instruction ι)}
    (noLabel : ∀ i ∈ code, i.opcode ≠ .label) (noRet : ∀ i ∈ code, i.opcode ≠ .ret) :
    ∀ {i : Nat} {open_ : List (Block × Nat)}, nesting (open_.map Prod.fst) code = some [] →
      (∀ i, NestedFrom i [] rest) → NestedFrom i open_ (code ++ rest) := by
  induction code with
  | nil =>
    intro i open_ nested behind
    rw [List.map_eq_nil_iff.mp (Option.some_inj.mp nested)]
    exact behind i
  | cons inst code ih =>
    intro i open_ nested behind
    have ih := @ih (fun j member => noLabel j (List.mem_cons_of_mem inst member))
      (fun j member => noRet j (List.mem_cons_of_mem inst member)) (i + 1) (push i inst open_)
    have label := noLabel inst List.mem_cons_self
    have ret := noRet inst List.mem_cons_self
    cases role : inst.role with
    | opens b =>
      simp only [nesting, role] at nested
      refine ⟨by simp [Nests, role, label], ih ?_ behind⟩
      simpa [push, role] using nested
    | closes b =>
      cases open_ with
      | nil => simp [nesting, role] at nested
      | cons e outer =>
        obtain ⟨o, s⟩ := e
        simp only [nesting, role, List.map_cons] at nested
        split_ifs at nested with closed
        refine ⟨by simpa [Nests, role] using closed, ih ?_ behind⟩
        simpa [push, role] using nested
    | alternates =>
      cases open_ with
      | nil => simp [nesting, role] at nested
      | cons e outer =>
        obtain ⟨o, s⟩ := e
        cases o with
        | branch =>
          simp only [nesting, role, List.map_cons] at nested
          refine ⟨by simp [Nests, role], ih ?_ behind⟩
          simpa [push, role] using nested
        | _ => simp [nesting, role] at nested
    | returns =>
      refine absurd ?_ ret
      revert role
      cases op : inst.opcode <;> simp [Instruction.role, Opcode.role, op]
    | _ =>
      simp only [nesting, role] at nested
      refine ⟨by simp [Nests, role, label], ih ?_ behind⟩
      simpa [push, role] using nested

private theorem nestedFrom_ret {r : Instruction ι} (isRet : r.opcode = .ret)
    {rest : List (Instruction ι)} (behind : ∀ i, NestedFrom i [] rest) (i : Nat) :
    NestedFrom i [] (r :: rest) := by
  have role : r.role = .returns := by rw [Instruction.role, isRet]; rfl
  exact ⟨by simp [Nests, role], by simpa [push, role] using behind (i + 1)⟩

private theorem nestedFrom_functions (fs : List (Function ι)) :
    ∀ i, NestedFrom i [] (fs.flatMap Function.text) := by
  induction fs with
  | nil => exact fun _ => trivial
  | cons f fs ih =>
    intro i
    have role : f.head.role = .skip := by rw [Instruction.role, f.isLabel]; rfl
    rw [List.flatMap_cons, Function.text, List.append_assoc, List.cons_append, List.singleton_append]
    refine ⟨by simp [Nests, role], ?_⟩
    simp only [push, role]
    exact nestedFrom_body f.isBody.noLabel f.isBody.noRet f.isBody.nested (nestedFrom_ret f.isRet ih)

theorem nested_program (p : Program ι) : Nested p.instructions := by
  refine @nestedFrom_nests ι _ 0 [] ?_
  rw [Program.instructions, List.append_assoc]
  refine nestedFrom_body p.isMain.noLabel p.isMain.noRet p.isMain.nested ?_
  cases ret : p.ret with
  | none => exact nestedFrom_functions p.functions
  | some r => exact nestedFrom_ret (p.isRet r ret) (nestedFrom_functions p.functions)

section

variable {code : List (Instruction ι)} {q s : Nat} {inst : Instruction ι}

theorem enclosing_succ (found : code[q]? = some inst) :
    enclosing code (q + 1) = push q inst (enclosing code q) := by
  rw [enclosing, before_succ found, Nat.zero_add]
  rfl

private theorem push_starts {open_ : List (Block × Nat)} :
    ((push q inst open_).map Prod.snd).Sublist (q :: open_.map Prod.snd) := by
  cases role : inst.role with
  | opens b => simp [push, role]
  | alternates =>
    cases open_ with
    | nil => simp [push, role]
    | cons e outer => simp [push, role]
  | closes b =>
    simp only [push, role, List.map_tail]
    exact (List.tail_sublist _).trans (List.sublist_cons_self _ _)
  | returns => simp [push, role]
  | _ => simp [push, role]

theorem starts_ordered (code : List (Instruction ι)) : ∀ q, q ≤ code.length →
    (starts code q).Pairwise (fun a b => b < a) ∧ ∀ s ∈ starts code q, s < q := by
  refine before_induct (P := fun q (open_ : List (Block × Nat)) =>
    (open_.map Prod.snd).Pairwise (fun a b => b < a) ∧ ∀ s ∈ open_.map Prod.snd, s < q)
    (by simp) fun q inst _ ⟨ordered, earlier⟩ => ?_
  have sublist := @push_starts ι q inst (before push 0 [] code q)
  constructor
  · exact (List.pairwise_cons.mpr ⟨earlier, ordered⟩).sublist sublist
  · intro s member
    rcases List.mem_cons.mp (sublist.subset member) with rfl | before
    · omega
    · have := earlier s before
      omega

theorem starts_since {j : Nat} (later : s < j) : ∀ {q}, j ≤ q → q ≤ code.length →
    s ∈ starts code q → s ∈ starts code j := by
  intro q behind
  induction q, behind using Nat.le_induction with
  | base => exact fun _ member => member
  | succ q behind ih =>
    intro inside member
    obtain ⟨inst, found⟩ : ∃ inst, code[q]? = some inst := ⟨code[q], List.getElem?_eq_getElem inside⟩
    rw [starts, enclosing_succ found] at member
    rcases List.mem_cons.mp (push_starts.subset member) with rfl | before
    · omega
    · exact ih (by omega) before

theorem enclosing_opened (nested : Nested code) : ∀ q, q ≤ code.length → ∀ e ∈ enclosing code q,
    ∃ inst b, code[e.2]? = some inst ∧ inst.role = .opens b ∧
      (e.1 = b ∨ b = .branch ∧ e.1 = .alternative) := by
  refine before_induct (P := fun q (open_ : List (Block × Nat)) => ∀ e ∈ open_, ∃ inst b,
    code[e.2]? = some inst ∧ inst.role = .opens b ∧ (e.1 = b ∨ b = .branch ∧ e.1 = .alternative))
    (by simp) fun q inst found opened => ?_
  have nests := nested q inst found
  rw [enclosing] at nests
  generalize before push 0 [] code q = open_ at opened nests ⊢
  intro e member
  cases role : inst.role with
  | opens b =>
    simp only [push, role] at member
    rcases List.mem_cons.mp member with rfl | old
    · exact ⟨inst, b, found, role, .inl rfl⟩
    · exact opened e old
  | alternates =>
    simp only [Nests, role] at nests
    obtain ⟨s, outer, rfl⟩ := nests
    simp only [push, role] at member
    rcases List.mem_cons.mp member with rfl | old
    · obtain ⟨first, b, there, opens, same | ⟨-, other⟩⟩ := opened (.branch, s) List.mem_cons_self
      · exact ⟨first, b, there, opens, .inr ⟨same.symm, rfl⟩⟩
      · cases other
    · exact opened e (List.mem_cons_of_mem _ old)
  | closes b =>
    simp only [push, role] at member
    exact opened e (List.mem_of_mem_tail member)
  | returns =>
    simp only [push, role] at member
    cases member
  | _ =>
    simp only [push, role] at member
    exact opened e member

theorem enclosing_frame (nested : Nested code) {i : Nat} {above below : List (Block × Nat)}
    {b : Block} (here : enclosing code i = above ++ (b, s) :: below) :
    ∀ {q}, i ≤ q → q ≤ code.length → s ∈ starts code q →
      ∃ above' b', enclosing code q = above' ++ (b', s) :: below ∧
        (b' = b ∨ b = .branch ∧ b' = .alternative) := by
  intro q behind
  induction q, behind using Nat.le_induction with
  | base => exact fun _ _ => ⟨above, b, here, .inl rfl⟩
  | succ q behind ih =>
    intro inside member
    have began : s < i := by
      refine (starts_ordered code i (by omega)).2 s ?_
      rw [starts, here]
      simp
    obtain ⟨above', b', frame, kind⟩ :=
      ih (by omega) (starts_since (by omega) (Nat.le_succ q) inside member)
    obtain ⟨inst, found⟩ : ∃ inst, code[q]? = some inst := ⟨code[q], List.getElem?_eq_getElem inside⟩
    have nests := nested q inst found
    have next := enclosing_succ found
    rw [frame] at nests next
    cases role : inst.role with
    | opens b₂ =>
      refine ⟨(b₂, q) :: above', b', ?_, kind⟩
      simp [next, push, role]
    | alternates =>
      simp only [Nests, role] at nests
      obtain ⟨s', outer, top⟩ := nests
      cases above' with
      | nil =>
        obtain ⟨⟨rfl, rfl⟩, rfl⟩ : (b' = .branch ∧ s = s') ∧ below = outer := by simpa using top
        refine ⟨[], .alternative, by simp [next, push, role], .inr ⟨?_, rfl⟩⟩
        rcases kind with same | ⟨-, other⟩
        · exact same.symm
        · cases other
      | cons e rest =>
        refine ⟨(.alternative, e.2) :: rest, b', ?_, kind⟩
        simp [next, push, role]
    | closes b₂ =>
      cases above' with
      | nil =>
        -- the block itself would end here
        exfalso
        have ordered := (starts_ordered code q (by omega)).1
        rw [starts, frame, List.nil_append, List.map_cons, List.pairwise_cons] at ordered
        rw [starts, next] at member
        have := ordered.1 s (by simpa [push, role] using member)
        omega
      | cons e rest =>
        refine ⟨rest, b', ?_, kind⟩
        simp [next, push, role]
    | returns =>
      simp only [Nests, role] at nests
      simp at nests
    | _ =>
      refine ⟨above', b', ?_, kind⟩
      simp [next, push, role]

end

section

variable {code : List (Instruction ι)} {q : Nat} {inst : Instruction ι}

def maskWeight (inst : Instruction ι) : Int := nestMask inst 0

theorem nestMask_eq (inst : Instruction ι) (d : Int) : nestMask inst d = d + maskWeight inst := by
  simp only [maskWeight, nestMask]
  split_ifs <;> omega

theorem maskWeight_light (inst : Instruction ι) : -1 ≤ maskWeight inst := by
  simp only [maskWeight, nestMask]
  split_ifs <;> omega

private theorem maskWeight_role (inst : Instruction ι) : maskWeight inst = match inst.role with
    | .opens b => if b.catches then 1 else 0
    | .closes b => if b.catches then -1 else 0
    | _ => 0 := by
  cases op : inst.opcode <;>
    simp [maskWeight, nestMask, Instruction.isLoop, Instruction.isEndLoop, Instruction.role,
      Opcode.role, Block.catches, op]

private theorem branchDepthAt_role (inst : Instruction ι) (d : Int) :
    branchDepthAt inst d = d + match inst.role with
      | .opens b => if b = .switch then 0 else 1
      | .closes b => if b = .switch then 0 else -1
      | _ => 0 := by
  cases op : inst.opcode <;>
    simp [branchDepthAt, Instruction.isBranch, Instruction.isLoop, Instruction.isEndLoop,
      Instruction.role, Opcode.role, op] <;> omega

def catching (code : List (Instruction ι)) (q : Nat) : Nat :=
  (enclosing code q).countP fun e => e.1.catches

def branching (code : List (Instruction ι)) (q : Nat) : Nat :=
  (enclosing code q).countP fun e => e.1 ≠ .switch

private theorem count_push (c : Block → Bool) (class_ : ∀ o b, Block.closedBy o b = true → c o = c b)
    (alternative : c .alternative = c .branch) {open_ : List (Block × Nat)}
    (nests : Nests open_ inst) :
    ((push q inst open_).countP fun e => c e.1 : Int) = (open_.countP fun e => c e.1 : Int) +
      match inst.role with
      | .opens b => if c b then 1 else 0
      | .closes b => if c b then -1 else 0
      | _ => 0 := by
  cases role : inst.role with
  | opens b =>
    simp only [push, role, List.countP_cons]
    split_ifs <;> omega
  | closes b =>
    simp only [Nests, role] at nests
    obtain ⟨o, s, outer, rfl, closed⟩ := nests
    simp only [push, role, List.tail_cons, List.countP_cons, class_ o b closed]
    split_ifs <;> omega
  | alternates =>
    simp only [Nests, role] at nests
    obtain ⟨s, outer, rfl⟩ := nests
    simp [push, role, List.countP_cons, alternative]
  | returns =>
    simp only [Nests, role] at nests
    simp [push, role, nests]
  | _ => simp [push, role]

theorem catching_succ (nested : Nested code) (found : code[q]? = some inst) :
    (catching code (q + 1) : Int) = catching code q + maskWeight inst := by
  have class_ : ∀ o b, Block.closedBy o b = true → o.catches = b.catches := by
    intro o b
    cases o <;> cases b <;> decide
  rw [catching, enclosing_succ found, count_push Block.catches class_ rfl (nested q inst found),
    maskWeight_role]
  rfl

theorem branchDepth_eq (nested : Nested code) : ∀ {q}, q ≤ code.length →
    before (fun _ => branchDepthAt) 0 0 code q = (branching code q : Int) := by
  intro q
  induction q with
  | zero => simp [branching, enclosing]
  | succ q ih =>
    intro inside
    obtain ⟨inst, found⟩ : ∃ inst, code[q]? = some inst := ⟨code[q], List.getElem?_eq_getElem inside⟩
    have class_ : ∀ o b : Block, o.closedBy b = true → decide (o ≠ .switch) = decide (b ≠ .switch) := by
      intro o b
      cases o <;> cases b <;> decide
    have counted := count_push (q := q) (fun b => b ≠ .switch) class_ rfl (nested q inst found)
    rw [before_succ found, ih (by omega), branchDepthAt_role, branching, branching, enclosing_succ found,
      counted]
    congr 1
    cases inst.role <;> simp

end

section

variable {code : List (Instruction ι)} {starting : Instruction ι → Bool} {i q s : Nat}

private theorem catching_le_balance (nested : Nested code) {inst : Instruction ι}
    (found : code[i]? = some inst) (started : starting inst = true) :
    ∀ {n}, 0 < n → i + n ≤ code.length →
      1 + (catching code (i + n) : Int) - catching code i ≤ balance starting maskWeight code i n := by
  intro n
  induction n with
  | zero => omega
  | succ n ih =>
    intro _ inside
    obtain ⟨other, here⟩ : ∃ other, code[i + n]? = some other :=
      ⟨code[i + n], List.getElem?_eq_getElem (by omega)⟩
    have next := catching_succ nested here
    rw [← Nat.add_assoc, next, balance, here, Option.elim_some, gain]
    by_cases first : n = 0
    · subst first
      obtain rfl := Option.some_inj.mp (found.symm.trans here)
      rw [if_pos started, balance, Nat.add_zero]
      omega
    · have := ih (by omega) (by omega)
      split_ifs <;> omega

theorem outlives_caught (nested : Nested code) {inst : Instruction ι} {b : Block}
    (found : code[i]? = some inst) (started : starting inst = true)
    (innermost : caught code i = some (b, s)) (behind : i ≤ q) (inside : q ≤ code.length)
    (still : s ∈ starts code q) : Outlives starting maskWeight code i q := by
  refine ⟨behind, ⟨inst, found, started⟩, fun n some upTo => ?_⟩
  obtain ⟨catches, above, below, here, others⟩ := List.find?_eq_some_iff_append.mp innermost
  have began : s < i := by
    refine (starts_ordered code i (by omega)).2 s ?_
    rw [starts, here]
    simp
  have member := starts_since (show s < i + n by omega) upTo inside still
  obtain ⟨above', b', frame, kind⟩ :=
    enclosing_frame nested here (Nat.le_add_right i n) (by omega) member
  have same : b'.catches = true := by
    rcases kind with rfl | ⟨rfl, -⟩
    · exact catches
    · cases catches
  have most := catching_le_balance nested found started some (show i + n ≤ code.length by omega)
  have none : above.countP (fun e => e.1.catches) = 0 := by
    refine List.countP_eq_zero.mpr fun e member => ?_
    simpa using others e member
  have before : catching code i = below.countP (fun e => e.1.catches) + 1 := by
    rw [catching, here, List.countP_append, none, List.countP_cons, if_pos catches]
    omega
  have after : below.countP (fun e => e.1.catches) + 1 ≤ catching code (i + n) := by
    rw [catching, frame, List.countP_append, List.countP_cons, if_pos same]
    omega
  omega

end

end RabbitRender.Shaders.MaskRegions
