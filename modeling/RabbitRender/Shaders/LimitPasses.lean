/- RabbitRender/Shaders/LimitPasses
   layer: result
   source: compiler/shader/Shader.cpp
   digest: What the passes of the limit analysis find out about a well formed program. -/

import RabbitRender.Shaders.LimitAnalysis
import RabbitRender.Shaders.NestedRuns

set_option autoImplicit false

namespace RabbitRender.Shaders.LimitPasses

open Shaders.Instructions Shaders.LimitAnalysis Shaders.NestedRuns

variable {ι : Type}

private theorem identify_body {code : List (Instruction ι)} (noLabel : ∀ i ∈ code, i.opcode ≠ .label)
    (noRet : ∀ i ∈ code, i.opcode ≠ .ret) (id : FunctionID) (functions : Functions)
    (rest : List (Instruction ι)) :
    identify id functions (code ++ rest) = identify id functions rest := by
  induction code with
  | nil => rfl
  | cons i code ih =>
    have ih := ih (fun j member => noLabel j (List.mem_cons_of_mem i member))
      (fun j member => noRet j (List.mem_cons_of_mem i member))
    have label := noLabel i List.mem_cons_self
    have ret := noRet i List.mem_cons_self
    cases op : i.opcode <;> simp_all [identify]

private theorem identify_text (f : Function ι) (functions : Functions)
    (rest : List (Instruction ι)) :
    identify invalidId functions (f.text ++ rest) =
      if f.number = mainId then none
      else identify invalidId (functions.put f.number {}) rest := by
  rw [Function.text, List.append_assoc, List.cons_append, identify]
  simp only [f.isLabel, if_true]
  refine if_congr Iff.rfl rfl ?_
  rw [identify_body f.isBody.noLabel f.isBody.noRet, List.singleton_append, identify]
  simp only [f.isRet]
  rfl

def found (functions : Functions) (fs : List (Function ι)) : Functions :=
  fs.foldl (fun functions f => functions.put f.number {}) functions

private theorem identify_functions (fs : List (Function ι)) : ∀ functions : Functions,
    identify invalidId functions (fs.flatMap Function.text) =
      if ∃ f ∈ fs, f.number = mainId then none else some (found functions fs) := by
  induction fs with
  | nil => exact fun functions => by simp [identify, found]
  | cons f fs ih =>
    intro functions
    rw [List.flatMap_cons, identify_text, ih]
    by_cases main : f.number = mainId
    · simp [main]
    · simp [main, found]

theorem identify_program (p : Program ι) : identify mainId Functions.main p.instructions =
    if ∃ f ∈ p.functions, f.number = mainId then none
    else some (found Functions.main p.functions) := by
  rw [Program.instructions, List.append_assoc, identify_body p.isMain.noLabel p.isMain.noRet]
  cases ret : p.ret with
  | none =>
    have none : p.functions = [] := by
      by_contra some
      have := p.closed some
      simp [ret] at this
    simp [none, identify, found]
  | some r =>
    rw [Option.toList_some, List.singleton_append, identify]
    simp only [p.isRet r ret]
    exact identify_functions p.functions _

theorem found_ids (fs : List (Function ι)) : ∀ (functions : Functions) (n : FunctionID),
    n ∈ (found functions fs).ids ↔ n ∈ functions.ids ∨ n ∈ fs.map Function.number := by
  induction fs with
  | nil => simp [found]
  | cons f fs ih =>
    intro functions n
    have rest := ih (functions.put f.number {}) n
    rw [found, List.foldl_cons, ← found, rest, Functions.put, List.map_cons, List.mem_cons]
    by_cases known : f.number ∈ functions.ids
    · rw [if_pos known]
      constructor
      · rintro (old | new)
        · exact .inl old
        · exact .inr (.inr new)
      · rintro (old | rfl | new)
        · exact .inl old
        · exact .inl known
        · exact .inr new
    · simp [if_neg known, or_assoc]

theorem found_info {fs : List (Function ι)} (noMain : ∀ f ∈ fs, f.number ≠ mainId) :
    (found Functions.main fs).info = Functions.main.info := by
  have keeps : ∀ functions : Functions, functions.info = Functions.main.info →
      (found functions fs).info = Functions.main.info := by
    induction fs with
    | nil => exact fun functions same => same
    | cons f fs ih =>
      intro functions same
      refine ih (fun g member => noMain g (List.mem_cons_of_mem f member)) _ ?_
      have fresh := noMain f List.mem_cons_self
      funext n
      by_cases here : n = f.number
      · simp [Functions.put, Functions.main, here, fresh]
      · simp [Functions.put, here, same]
  exact keeps _ rfl

structure Less (info info' : FunctionInfo) : Prop where
  loops : info.limits.loops ≤ info'.limits.loops
  ifs : info.limits.ifs ≤ info'.limits.ifs
  calls : info.calls ⊆ info'.calls

theorem Less.refl (info : FunctionInfo) : Less info info :=
  ⟨Nat.le_refl _, Nat.le_refl _, List.Subset.refl _⟩

theorem Less.trans {info info' info'' : FunctionInfo} (less : Less info info')
    (less' : Less info' info'') : Less info info'' :=
  ⟨less.loops.trans less'.loops, less.ifs.trans less'.ifs, List.Subset.trans less.calls less'.calls⟩

structure Grown (made : FunctionID → FunctionID → Prop) (functions functions' : Functions) :
    Prop where
  ids : functions'.ids = functions.ids
  reachable : ∀ n, (functions'.info n).reachable = true ↔
    (functions.info n).reachable = true ∨ ∃ caller, made caller n
  calls : ∀ caller n, n ∈ (functions'.info caller).calls ↔
    n ∈ (functions.info caller).calls ∨ made caller n
  loops : ∀ n, (functions.info n).limits.loops ≤ (functions'.info n).limits.loops
  ifs : ∀ n, (functions.info n).limits.ifs ≤ (functions'.info n).limits.ifs

namespace Grown

variable {made made' : FunctionID → FunctionID → Prop} {functions functions' functions'' : Functions}

theorem less (grown : Grown made functions functions') (n : FunctionID) :
    Less (functions.info n) (functions'.info n) :=
  ⟨grown.loops n, grown.ifs n, fun m member => (grown.calls n m).mpr (.inl member)⟩

theorem refl (functions : Functions) : Grown (fun _ _ => False) functions functions :=
  ⟨rfl, by simp, by simp, fun _ => Nat.le_refl _, fun _ => Nat.le_refl _⟩

theorem trans (grown : Grown made functions functions') (grown' : Grown made' functions' functions'') :
    Grown (fun caller n => made caller n ∨ made' caller n) functions functions'' where
  ids := grown'.ids.trans grown.ids
  reachable n := by rw [grown'.reachable, grown.reachable, or_assoc, exists_or]
  calls caller n := by rw [grown'.calls, grown.calls, or_assoc]
  loops n := (grown.loops n).trans (grown'.loops n)
  ifs n := (grown.ifs n).trans (grown'.ifs n)

theorem congr (grown : Grown made functions functions')
    (same : ∀ caller n, made caller n ↔ made' caller n) : Grown made' functions functions' := by
  obtain rfl : made = made' := by
    funext caller n
    exact propext (same caller n)
  exact grown

end Grown

/-- Counters that agree with the blocks open, which the information has room for. -/
structure Counted (info : FunctionInfo) (limits : FunctionLimits) (blocks : List Block) : Prop where
  loops : limits.loops = loopsOf blocks
  ifs : limits.ifs = ifsOf blocks
  within : Within info blocks

structure Gathers (code : List (Instruction ι)) (blocks blocks' : List Block) (s s' : Gathering) :
    Prop where
  currentFunc : s'.currentFunc = s.currentFunc
  maxLabel : s'.maxLabel = s.maxLabel
  counted : Counted (s'.functions.info s.currentFunc) s'.currentLimits blocks'
  grown : Grown (fun caller n => caller = s.currentFunc ∧ n ∈ calls code) s.functions s'.functions
  fits : ∀ info, Less (s'.functions.info s.currentFunc) info → ∀ rest,
    Fits info blocks' rest → Fits info blocks (code ++ rest)

variable {b : Block} {id : FunctionID} {info : FunctionInfo} {blocks : List Block} {s : Gathering}

private theorem closedBy_catches {o : Block} (closed : o.closedBy b = true) :
    o.catches = b.catches := by
  revert closed
  cases o <;> cases b <;> decide

private theorem gather_role (s : Gathering) {i : Instruction ι} (noLabel : i.opcode ≠ .label)
    (noRet : i.opcode ≠ .ret) : gather s i = match i.role with
      | .opens b =>
        if s.currentFunc ≠ invalidId then
          some (if b.catches then { s with
            functions := s.functions.modify s.currentFunc
              (FunctionInfo.addLoops (s.currentLimits.loops + 1))
            currentLimits.loops := s.currentLimits.loops + 1 }
          else { s with
            functions := s.functions.modify s.currentFunc
              (FunctionInfo.addIfs (s.currentLimits.ifs + 1))
            currentLimits.ifs := s.currentLimits.ifs + 1 })
        else none
      | .closes b =>
        if b.catches then
          if 0 < s.currentLimits.loops then
            some { s with currentLimits.loops := s.currentLimits.loops - 1 }
          else none
        else if 0 < s.currentLimits.ifs then
          some { s with currentLimits.ifs := s.currentLimits.ifs - 1 }
        else none
      | .calls _ =>
        if s.currentFunc ≠ invalidId ∧ i.label ∈ s.functions.ids then
          some { s with functions := (s.functions.modify s.currentFunc
            (FunctionInfo.addCall i.label)).modify i.label FunctionInfo.reach }
        else none
      | _ => some s := by
  cases op : i.opcode <;>
    simp_all [gather, Instruction.role, Opcode.role, Block.catches]

private theorem modify_ids {functions : Functions} (known : id ∈ functions.ids)
    (change : FunctionInfo → FunctionInfo) : (functions.modify id change).ids = functions.ids :=
  if_pos known

private theorem modify_info (functions : Functions) (id : FunctionID)
    (change : FunctionInfo → FunctionInfo) (n : FunctionID) : (functions.modify id change).info n =
      if n = id then change (functions.info id) else functions.info n :=
  Function.update_apply ..

private theorem grown_limits {functions : Functions} (known : id ∈ functions.ids)
    {change : FunctionInfo → FunctionInfo} (calls : ∀ info, (change info).calls = info.calls)
    (reachable : ∀ info, (change info).reachable = info.reachable)
    (less : ∀ info, Less info (change info)) :
    Grown (fun _ _ => False) functions (functions.modify id change) where
  ids := modify_ids known change
  reachable n := by
    rw [modify_info]
    split_ifs with here
    · simp [reachable, here]
    · simp
  calls n m := by
    rw [modify_info]
    split_ifs with here
    · simp [calls, here]
    · simp
  loops n := by
    rw [modify_info]
    split_ifs with here
    · exact here ▸ (less _).loops
    · exact Nat.le_refl _
  ifs n := by
    rw [modify_info]
    split_ifs with here
    · exact here ▸ (less _).ifs
    · exact Nat.le_refl _

private theorem mem_addCall {n : FunctionID} :
    n ∈ (info.addCall id).calls ↔ n ∈ info.calls ∨ n = id := by
  rw [FunctionInfo.addCall]
  split_ifs with known
  · refine ⟨.inl, fun either => either.elim (fun old => old) fun new => ?_⟩
    rw [new]
    exact known
  · simp

private theorem grown_call {functions : Functions} {caller : FunctionID}
    (here : caller ∈ functions.ids) (known : id ∈ functions.ids) :
    Grown (fun c n => c = caller ∧ n = id) functions
      ((functions.modify caller (FunctionInfo.addCall id)).modify id FunctionInfo.reach) := by
  have ids := modify_ids here (FunctionInfo.addCall id)
  refine ⟨(modify_ids (ids ▸ known) _).trans ids, fun n => ?_, fun c n => ?_, fun n => ?_, fun n => ?_⟩
  · rw [modify_info, modify_info]
    by_cases called : n = id
    · simp [called, FunctionInfo.reach]
    · rw [if_neg called, modify_info]
      split_ifs with self
      · subst self
        simp [FunctionInfo.addCall, called]
      · simp [called]
  · rw [modify_info, modify_info]
    have reach : ∀ info : FunctionInfo, info.reach.calls = info.calls := fun _ => rfl
    by_cases called : c = id
    · rw [if_pos called, reach]
      split_ifs with self
      · rw [mem_addCall]
        simp [called, self]
      · simp [called, self]
    · rw [if_neg called, modify_info]
      split_ifs with self
      · rw [mem_addCall, self]
        simp
      · simp [self]
  all_goals
    rw [modify_info, modify_info, modify_info]
    split_ifs <;> simp_all [FunctionInfo.reach, FunctionInfo.addCall]

private theorem less_loops (loops : Nat) (info : FunctionInfo) :
    Less info (info.addLoops loops) :=
  ⟨Nat.le_max_left _ _, Nat.le_refl _, List.Subset.refl _⟩

private theorem less_ifs (ifs : Nat) (info : FunctionInfo) : Less info (info.addIfs ifs) :=
  ⟨Nat.le_refl _, Nat.le_max_left _ _, List.Subset.refl _⟩

private theorem isCall_role {i : Instruction ι} :
    i.isCall = true ↔ ∃ always, i.role = .calls always := by
  cases op : i.opcode <;> simp [Instruction.isCall, Instruction.role, Opcode.role, op]

private theorem calls_single (i : Instruction ι) :
    calls [i] = if i.isCall then [i.label] else [] := by
  cases isCall : i.isCall <;> simp [calls, isCall]

private theorem noCall_of_role {i : Instruction ι} (other : ∀ always, i.role ≠ .calls always) :
    ∀ n, n ∉ calls [i] := by
  intro n member
  rw [calls_single] at member
  split_ifs at member with isCall
  · obtain ⟨always, role⟩ := isCall_role.mp isCall
    exact other always role
  · cases member

private theorem within_less {info' : FunctionInfo} (within : Within info blocks)
    (less : Less info info') : Within info' blocks :=
  ⟨within.1.trans less.loops, within.2.trans less.ifs⟩

private theorem gathers_same {i : Instruction ι} {blocks' : List Block}
    (counted : Counted (s.functions.info s.currentFunc) s.currentLimits blocks')
    (noCall : ∀ n, n ∉ calls [i])
    (fits : ∀ info rest, Fits info blocks' rest → Fits info blocks (i :: rest)) :
    Gathers [i] blocks blocks' s s where
  currentFunc := rfl
  maxLabel := rfl
  counted := counted
  grown := (Grown.refl _).congr fun _ n => by simp [noCall n]
  fits info _ rest := fits info rest

private theorem gathers_opens {i : Instruction ι} (role : i.role = .opens b)
    {change : FunctionInfo → FunctionInfo} {limits : FunctionLimits}
    (here : s.currentFunc ∈ s.functions.ids) (calls : ∀ info, (change info).calls = info.calls)
    (reachable : ∀ info, (change info).reachable = info.reachable)
    (less : ∀ info, Less info (change info))
    (counted : Counted (change (s.functions.info s.currentFunc)) limits (b :: blocks)) :
    Gathers [i] blocks (b :: blocks) s { s with
      functions := s.functions.modify s.currentFunc change
      currentLimits := limits } := by
  have info : (s.functions.modify s.currentFunc change).info s.currentFunc =
      change (s.functions.info s.currentFunc) := by rw [modify_info, if_pos rfl]
  refine ⟨rfl, rfl, by simpa only [info] using counted, ?_, fun info' more rest fits => ?_⟩
  · have noCall := @noCall_of_role ι i fun always isCall => by simp [role] at isCall
    exact (grown_limits here calls reachable less).congr fun _ n => by simp [noCall n]
  · rw [info] at more
    simp only [List.singleton_append, Fits, role]
    exact ⟨within_less counted.within more, fits⟩

private theorem gathers_closes {i : Instruction ι} {o : Block} (role : i.role = .closes b)
    (closed : o.closedBy b = true) {limits : FunctionLimits}
    (counted : Counted (s.functions.info s.currentFunc) limits blocks) :
    Gathers [i] (o :: blocks) blocks s { s with currentLimits := limits } := by
  refine ⟨rfl, rfl, counted, ?_, fun info' _ rest fits => ?_⟩
  · have noCall := @noCall_of_role ι i fun always isCall => by simp [role] at isCall
    exact (Grown.refl _).congr fun _ n => by simp [noCall n]
  · simp only [List.singleton_append, Fits, role]
    exact ⟨o, blocks, rfl, closed, fits⟩

theorem gather_step {i : Instruction ι} {rest : List (Instruction ι)} (noLabel : i.opcode ≠ .label)
    (noRet : i.opcode ≠ .ret) (valid : s.currentFunc ≠ invalidId)
    (here : s.currentFunc ∈ s.functions.ids) (known : ∀ n ∈ calls [i], n ∈ s.functions.ids)
    (counted : Counted (s.functions.info s.currentFunc) s.currentLimits blocks)
    (nested : nesting blocks (i :: rest) = some []) :
    ∃ s' blocks', gather s i = some s' ∧ nesting blocks' rest = some [] ∧
      Gathers [i] blocks blocks' s s' := by
  have gathered := gather_role s noLabel noRet
  obtain ⟨loops, ifs, within⟩ := id counted
  cases role : i.role with
  | opens b =>
    simp only [nesting, role] at nested
    simp only [role, if_pos valid] at gathered
    refine ⟨_, b :: blocks, gathered, nested, ?_⟩
    cases catches : b.catches with
    | true =>
      refine gathers_opens role here (fun _ => rfl) (fun _ => rfl) (less_loops _) ?_
      have more := loopsOf_cons b blocks
      have same := ifsOf_cons b blocks
      simp only [catches, if_true] at more same
      refine ⟨?_, ?_, ?_, ?_⟩
      · simp [more, loops]
      · simp [same, ifs]
      · simp [FunctionInfo.addLoops, more, loops]
      · simpa [FunctionInfo.addLoops, same] using within.2
    | false =>
      refine gathers_opens role here (fun _ => rfl) (fun _ => rfl) (less_ifs _) ?_
      have same := loopsOf_cons b blocks
      have more := ifsOf_cons b blocks
      simp only [catches] at more same
      refine ⟨?_, ?_, ?_, ?_⟩
      · simp [same, loops]
      · simp [more, ifs]
      · simpa [FunctionInfo.addIfs, same] using within.1
      · simp [FunctionInfo.addIfs, more, ifs]
  | closes b =>
    simp only [role] at gathered
    cases blocks with
    | nil => simp [nesting, role] at nested
    | cons o blocks =>
      simp only [nesting, role] at nested
      split_ifs at nested with closed
      have more := loopsOf_cons o blocks
      have moreIfs := ifsOf_cons o blocks
      rw [closedBy_catches closed] at more moreIfs
      obtain ⟨withinLoops, withinIfs⟩ := within
      cases catches : b.catches with
      | true =>
        simp only [catches, if_true] at gathered more moreIfs
        rw [if_pos (by omega)] at gathered
        exact ⟨_, blocks, gathered, nested, gathers_closes role closed
          ⟨by simp; omega, by simp; omega, by omega, by omega⟩⟩
      | false =>
        simp only [catches] at gathered more moreIfs
        rw [if_neg (by simp), if_pos (by simp at moreIfs; omega)] at gathered
        simp at more moreIfs
        exact ⟨_, blocks, gathered, nested, gathers_closes role closed
          ⟨by simp; omega, by simp; omega, by omega, by omega⟩⟩
  | alternates =>
    simp only [role] at gathered
    cases blocks with
    | nil => simp [nesting, role] at nested
    | cons o outer =>
      cases o with
      | branch =>
        simp only [nesting, role] at nested
        refine ⟨s, .alternative :: outer, gathered, nested, gathers_same ?_
          (noCall_of_role fun always isCall => by simp [role] at isCall) fun info rest fits => ?_⟩
        · refine ⟨?_, ?_, ?_⟩
          · simpa [loopsOf_cons, Block.catches] using loops
          · simpa [ifsOf_cons, Block.catches] using ifs
          · simpa [Within, loopsOf_cons, ifsOf_cons, Block.catches] using within
        · simp only [Fits, role]
          exact ⟨outer, rfl, fits⟩
      | _ => simp [nesting, role] at nested
  | calls always =>
    simp only [nesting, role] at nested
    have isCall : i.isCall = true := isCall_role.mpr ⟨always, role⟩
    have called : calls [i] = [i.label] := by rw [calls_single, if_pos isCall]
    have there : i.label ∈ s.functions.ids := known _ (by simp [called])
    simp only [role, if_pos (And.intro valid there)] at gathered
    have grown := grown_call here there
    refine ⟨_, blocks, gathered, nested, rfl, rfl, ⟨loops, ifs, ?_⟩,
      grown.congr fun c n => by simp [called], fun info more rest fits => ?_⟩
    · exact within_less within (grown.less _)
    · simp only [List.singleton_append, Fits, role]
      exact ⟨more.calls ((grown.calls _ _).mpr (.inr ⟨rfl, rfl⟩)), fits⟩
  | returns =>
    refine absurd ?_ noRet
    revert role
    cases op : i.opcode <;> simp [Instruction.role, Opcode.role, op]
  | _ =>
    simp only [nesting, role] at nested
    simp only [role] at gathered
    exact ⟨s, blocks, gathered, nested, gathers_same counted
      (noCall_of_role fun always isCall => by simp [role] at isCall)
      fun info rest fits => by simpa only [Fits, role] using fits⟩

private theorem calls_cons (i : Instruction ι) (code : List (Instruction ι)) :
    calls (i :: code) = calls [i] ++ calls code := by
  simp only [calls, ← List.map_append, ← List.filter_append, List.singleton_append]

private theorem Gathers.trans {a b : List (Instruction ι)} {blocks' blocks'' : List Block}
    {s' s'' : Gathering} (first : Gathers a blocks blocks' s s')
    (second : Gathers b blocks' blocks'' s' s'') : Gathers (a ++ b) blocks blocks'' s s'' := by
  have grown := second.grown
  have counted := second.counted
  have fits := second.fits
  rw [first.currentFunc] at grown counted fits
  refine ⟨second.currentFunc.trans first.currentFunc, second.maxLabel.trans first.maxLabel, counted,
    (first.grown.trans grown).congr fun c n => ?_, fun info less rest inside => ?_⟩
  · simp [calls, and_or_left]
  · rw [List.append_assoc]
    exact first.fits info ((grown.less _).trans less) _ (fits info less rest inside)

theorem gather_body {code : List (Instruction ι)} (noLabel : ∀ i ∈ code, i.opcode ≠ .label)
    (noRet : ∀ i ∈ code, i.opcode ≠ .ret) : ∀ {s : Gathering} {blocks : List Block},
    s.currentFunc ≠ invalidId → s.currentFunc ∈ s.functions.ids →
    (∀ n ∈ calls code, n ∈ s.functions.ids) →
    Counted (s.functions.info s.currentFunc) s.currentLimits blocks →
    nesting blocks code = some [] →
    ∃ s', code.foldlM gather s = some s' ∧ Gathers code blocks [] s s' := by
  induction code with
  | nil =>
    intro s blocks valid here known counted nested
    obtain rfl : blocks = [] := Option.some_inj.mp nested
    exact ⟨s, rfl, rfl, rfl, counted, (Grown.refl _).congr (by simp [calls]), fun _ _ _ fits => fits⟩
  | cons i code ih =>
    intro s blocks valid here known counted nested
    rw [calls_cons] at known
    obtain ⟨s', blocks', gathered, nested', first⟩ := gather_step (noLabel i List.mem_cons_self)
      (noRet i List.mem_cons_self) valid here
      (fun n member => known n (List.mem_append_left _ member)) counted nested
    have ids := first.grown.ids
    obtain ⟨s'', rest, second⟩ := ih (fun j member => noLabel j (List.mem_cons_of_mem i member))
      (fun j member => noRet j (List.mem_cons_of_mem i member)) (first.currentFunc ▸ valid)
      (by rw [first.currentFunc, ids]; exact here)
      (fun n member => by rw [ids]; exact known n (List.mem_append_right _ member))
      (by rw [first.currentFunc]; exact first.counted) nested'
    refine ⟨s'', ?_, first.trans second⟩
    rw [List.foldlM_cons, gathered]
    exact rest

structure Idle (s : Gathering) : Prop where
  currentFunc : s.currentFunc = invalidId
  currentLimits : s.currentLimits = {}

def Known (functions : Functions) (f : Function ι) : Prop :=
  ∀ info, Less (functions.info f.number) info → ∀ rest, Fits info [] (f.body ++ f.last :: rest)

private theorem counted_nil (info : FunctionInfo) : Counted info {} [] :=
  ⟨rfl, rfl, by simp [Within, loopsOf, ifsOf]⟩

private theorem fits_ret {r : Instruction ι} (isRet : r.opcode = .ret) (info : FunctionInfo)
    (rest : List (Instruction ι)) : Fits info [] (r :: rest) := by
  have role : r.role = .returns := by rw [Instruction.role, isRet]; rfl
  simp only [Fits, role]

private theorem gather_ret {r : Instruction ι} (isRet : r.opcode = .ret)
    (valid : s.currentFunc ≠ invalidId) (counted : Counted info s.currentLimits []) :
    gather s r = some { s with currentFunc := invalidId, currentLimits := {} } := by
  simp only [gather, isRet]
  exact if_pos ⟨valid, counted.ifs, counted.loops⟩

theorem gather_function {f : Function ι} (idle : Idle s) (there : f.number ∈ s.functions.ids)
    (valid : f.number ≠ invalidId) (known : ∀ n ∈ calls f.body, n ∈ s.functions.ids) :
    ∃ s', f.text.foldlM gather s = some s' ∧ Idle s' ∧
      s'.maxLabel = max s.maxLabel f.number.toNat ∧
      Grown (fun c n => c = f.number ∧ n ∈ calls f.body) s.functions s'.functions ∧
      Known s'.functions f := by
  obtain ⟨functions, currentFunc, currentLimits, maxLabel⟩ := s
  obtain ⟨rfl, rfl⟩ := idle
  have head : gather ⟨functions, invalidId, {}, maxLabel⟩ f.head =
      some ⟨functions, f.number, {}, max maxLabel f.number.toNat⟩ := by
    simp only [gather, f.isLabel, if_true]
    exact if_pos there
  obtain ⟨s', body, gathers⟩ := gather_body f.isBody.noLabel f.isBody.noRet
    (s := ⟨functions, f.number, {}, max maxLabel f.number.toNat⟩) valid there known
    (counted_nil _) f.isBody.nested
  have last := gather_ret f.isRet (gathers.currentFunc ▸ valid) gathers.counted
  refine ⟨{ s' with currentFunc := invalidId, currentLimits := {} }, ?_, ⟨rfl, rfl⟩,
    gathers.maxLabel, gathers.grown, fun info less rest =>
      gathers.fits info less _ (fits_ret f.isRet info rest)⟩
  · rw [Function.text, List.cons_append, List.foldlM_cons, head]
    simp only [Option.bind_eq_bind, Option.bind_some]
    rw [List.foldlM_append, body]
    simp only [Option.bind_eq_bind, Option.bind_some]
    rw [List.foldlM_cons, last]
    rfl

private theorem Known.grown {made : FunctionID → FunctionID → Prop} {functions functions' : Functions}
    {f : Function ι} (known : Known functions f) (grown : Grown made functions functions') :
    Known functions' f :=
  fun info less rest => known info ((grown.less _).trans less) rest

theorem gather_functions {fs : List (Function ι)} : ∀ {s : Gathering}, Idle s →
    (∀ f ∈ fs, f.number ∈ s.functions.ids) → (∀ f ∈ fs, f.number ≠ invalidId) →
    (∀ f ∈ fs, ∀ n ∈ calls f.body, n ∈ s.functions.ids) →
    ∃ s', (fs.flatMap Function.text).foldlM gather s = some s' ∧
      (s.maxLabel ≤ s'.maxLabel ∧ ∀ f ∈ fs, f.number.toNat ≤ s'.maxLabel) ∧
      Grown (fun c n => ∃ f ∈ fs, c = f.number ∧ n ∈ calls f.body) s.functions s'.functions ∧
      ∀ f ∈ fs, Known s'.functions f := by
  induction fs with
  | nil =>
    intro s _ _ _ _
    exact ⟨s, rfl, by simp, (Grown.refl _).congr (by simp), by simp⟩
  | cons f fs ih =>
    intro s idle there valid known
    obtain ⟨s', first, idle', labels, grown, knows⟩ := gather_function idle
      (there f List.mem_cons_self) (valid f List.mem_cons_self) (known f List.mem_cons_self)
    obtain ⟨s'', rest, ⟨labels', more⟩, grown', knows'⟩ := ih idle'
      (fun g member => by rw [grown.ids]; exact there g (List.mem_cons_of_mem f member))
      (fun g member => valid g (List.mem_cons_of_mem f member))
      (fun g member n called => by
        rw [grown.ids]; exact known g (List.mem_cons_of_mem f member) n called)
    refine ⟨s'', ?_, ⟨by omega, ?_⟩, (grown.trans grown').congr (by simp), ?_⟩
    · rw [List.flatMap_cons, List.foldlM_append, first]
      exact rest
    · rintro g (_ | ⟨_, member⟩)
      · omega
      · exact more g member
    · rintro g (_ | ⟨_, member⟩)
      · exact knows.grown grown'
      · exact knows' g member

private theorem gather_invalid {code : List (Instruction ι)} {r : Instruction ι}
    (noLabel : ∀ i ∈ code, i.opcode ≠ .label) (noRet : ∀ i ∈ code, i.opcode ≠ .ret)
    (isRet : r.opcode = .ret) (rest : List (Instruction ι)) :
    ∀ s : Gathering, s.currentFunc = invalidId → (code ++ r :: rest).foldlM gather s = none := by
  induction code with
  | nil =>
    intro s invalid
    rw [List.nil_append, List.foldlM_cons]
    simp [gather, isRet, invalid]
  | cons i code ih =>
    intro s invalid
    rw [List.cons_append, List.foldlM_cons]
    cases gathered : gather s i with
    | none => rfl
    | some s' =>
      have same : s'.currentFunc = s.currentFunc := by
        have label := noLabel i List.mem_cons_self
        have ret := noRet i List.mem_cons_self
        rw [gather_role s label ret] at gathered
        cases role : i.role <;> simp only [role] at gathered <;> grind
      exact ih (fun j member => noLabel j (List.mem_cons_of_mem i member))
        (fun j member => noRet j (List.mem_cons_of_mem i member)) s' (same.trans invalid)

theorem gather_functions_invalid {fs : List (Function ι)} : ∀ {s : Gathering}, Idle s →
    (∀ f ∈ fs, f.number ∈ s.functions.ids) → (∃ f ∈ fs, f.number = invalidId) →
    (∀ f ∈ fs, ∀ n ∈ calls f.body, n ∈ s.functions.ids) →
    (fs.flatMap Function.text).foldlM gather s = none := by
  induction fs with
  | nil =>
    rintro s - - ⟨f, absent, -⟩ -
    cases absent
  | cons f fs ih =>
    intro s idle there invalid known
    rw [List.flatMap_cons]
    by_cases here : f.number = invalidId
    · have head : gather s f.head = some { s with
          maxLabel := max s.maxLabel f.number.toNat, currentFunc := f.number } := by
        have there := there f List.mem_cons_self
        simp only [gather, f.isLabel, idle.currentFunc, if_true]
        exact if_pos there
      rw [Function.text, List.append_assoc, List.cons_append, List.foldlM_cons, head]
      exact gather_invalid f.isBody.noLabel f.isBody.noRet f.isRet _ _ here
    · obtain ⟨s', first, idle', labels, grown, knows⟩ := gather_function idle
        (there f List.mem_cons_self) here (known f List.mem_cons_self)
      rw [List.foldlM_append, first]
      refine ih idle' (fun g member => ?_) ?_ (fun g member n called => ?_)
      · rw [grown.ids]
        exact there g (List.mem_cons_of_mem f member)
      · obtain ⟨g, member, invalid⟩ := invalid
        rcases List.mem_cons.mp member with rfl | member
        · exact absurd invalid here
        · exact ⟨g, member, invalid⟩
      · rw [grown.ids]
        exact known g (List.mem_cons_of_mem f member) n called

def foundIn (p : Program ι) : Functions := found Functions.main p.functions

def Made (p : Program ι) (caller n : FunctionID) : Prop :=
  caller = mainId ∧ n ∈ calls p.main ∨ ∃ f ∈ p.functions, caller = f.number ∧ n ∈ calls f.body

private theorem mainId_valid : mainId ≠ invalidId := by decide

private theorem mem_foundIn {p : Program ι} {n : FunctionID}
    (defined : n ∈ p.functions.map Function.number) : n ∈ (foundIn p).ids :=
  (found_ids p.functions _ n).mpr (.inr defined)

private theorem gather_main (p : Program ι) :
    ∃ s, p.main.foldlM gather ⟨foundIn p, mainId, {}, 0⟩ = some s ∧
      Gathers p.main [] [] ⟨foundIn p, mainId, {}, 0⟩ s :=
  gather_body p.isMain.noLabel p.isMain.noRet mainId_valid
    ((found_ids p.functions _ _).mpr (.inl (show mainId ∈ Functions.main.ids by decide)))
    (fun n called => mem_foundIn (p.mainCalls n called)) (counted_nil _) p.isMain.nested

structure Gathered (p : Program ι) (s : Gathering) : Prop where
  grown : Grown (Made p) (foundIn p) s.functions
  labels : ∀ f ∈ p.functions, f.number.toNat ≤ s.maxLabel
  main : Fits (s.functions.info mainId) [] p.instructions
  functions : ∀ f ∈ p.functions, ∀ rest,
    Fits (s.functions.info f.number) [] (f.body ++ f.last :: rest)

theorem gather_program (p : Program ι) :
    (∃ f ∈ p.functions, f.number = invalidId) ∧
      p.instructions.foldlM gather ⟨foundIn p, mainId, {}, 0⟩ = none ∨
    (∀ f ∈ p.functions, f.number ≠ invalidId) ∧
      ∃ s, p.instructions.foldlM gather ⟨foundIn p, mainId, {}, 0⟩ = some s ∧ Gathered p s := by
  obtain ⟨s, main, gathers⟩ := gather_main p
  have instructions : p.instructions.foldlM gather ⟨foundIn p, mainId, {}, 0⟩ =
      (p.ret.toList ++ p.functions.flatMap Function.text).foldlM gather s := by
    rw [Program.instructions, List.append_assoc, List.foldlM_append, main]
    rfl
  rw [instructions]
  cases ret : p.ret with
  | none =>
    have empty : p.functions = [] := by
      by_contra some
      have := p.closed some
      simp [ret] at this
    refine .inr ⟨by simp [empty], s, by simp [empty], ?_, by simp [empty], ?_, by simp [empty]⟩
    · exact gathers.grown.congr fun c n => by simp [Made, empty]
    · have fits := gathers.fits _ (Less.refl _) [] rfl
      simpa [Program.instructions, ret, empty] using fits
  | some r =>
    have isRet := p.isRet r ret
    have last := gather_ret isRet (by rw [gathers.currentFunc]; exact mainId_valid) gathers.counted
    rw [Option.toList_some, List.singleton_append, List.foldlM_cons, last]
    have idle : Idle { s with currentFunc := invalidId, currentLimits := {} } := ⟨rfl, rfl⟩
    have there : ∀ n ∈ p.functions.map Function.number, n ∈ s.functions.ids := by
      intro n defined
      rw [gathers.grown.ids]
      exact mem_foundIn defined
    have known : ∀ f ∈ p.functions, ∀ n ∈ calls f.body, n ∈ s.functions.ids :=
      fun f member n called => there n (p.functionCalls f member n called)
    by_cases invalid : ∃ f ∈ p.functions, f.number = invalidId
    · exact .inl ⟨invalid, gather_functions_invalid idle
        (fun f member => there _ (List.mem_map_of_mem member)) invalid known⟩
    · have valid : ∀ f ∈ p.functions, f.number ≠ invalidId :=
        fun f member same => invalid ⟨f, member, same⟩
      obtain ⟨s', rest, labels, grown, knows⟩ := gather_functions idle
        (fun f member => there _ (List.mem_map_of_mem member)) valid known
      refine .inr ⟨valid, s', rest, ?_, labels.2, ?_, fun f member rest =>
        knows f member _ (Less.refl _) rest⟩
      · exact (gathers.grown.trans grown).congr fun _ _ => Iff.rfl
      · have fits := gathers.fits (s'.functions.info mainId) (grown.less _)
          (r :: p.functions.flatMap Function.text) (fits_ret isRet _ _)
        simpa [Program.instructions, ret] using fits

end RabbitRender.Shaders.LimitPasses
