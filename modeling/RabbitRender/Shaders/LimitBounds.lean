/- RabbitRender/Shaders/LimitBounds
   layer: result
   source: compiler/shader/Shader.cpp
   digest: The limits bound every run, and the optimized programs they can be computed for. -/

import Mathlib.Data.FinEnum
import Mathlib.Data.Finset.Lattice.Fold
import RabbitRender.Lib.Cycles
import RabbitRender.Shaders.FunctionCode
import RabbitRender.Shaders.LimitPasses
import RabbitRender.Shaders.Optimized

set_option autoImplicit false

namespace RabbitRender.Shaders.LimitBounds

open Relation StateTransition Lib.Cycles Shaders.Instructions Shaders.Machine Shaders.LimitAnalysis
open Shaders.NestedRuns Shaders.LimitPasses Shaders.Optimize Shaders.Optimized Shaders.FunctionCode

variable {ι : Type}

def addCallees (callee : FunctionID → Limits) (called : List FunctionID) (limits : Limits) : Limits :=
  called.foldl (fun limits n => limits.addCallee (callee n)) limits

private theorem foldlM_callees {f : FunctionID → Option Limits} {callee : FunctionID → Limits}
    {called : List FunctionID} (each : ∀ n ∈ called, f n = some (callee n)) :
    ∀ limits : Limits, called.foldlM (fun (limits : Limits) n => do
        let calleeLimits ← f n
        return limits.addCallee calleeLimits) limits = some (addCallees callee called limits) := by
  induction called with
  | nil => exact fun _ => rfl
  | cons n called ih =>
    intro limits
    rw [List.foldlM_cons, each n List.mem_cons_self]
    exact ih (fun k member => each k (List.mem_cons_of_mem n member)) _

private theorem addCallees_le (callee : FunctionID → Limits) (called : List FunctionID) :
    ∀ limits : Limits, limits.loops ≤ (addCallees callee called limits).loops ∧
      limits.ifs ≤ (addCallees callee called limits).ifs ∧
      limits.stack ≤ (addCallees callee called limits).stack := by
  induction called with
  | nil => exact fun limits => ⟨Nat.le_refl _, Nat.le_refl _, Nat.le_refl _⟩
  | cons n called ih =>
    intro limits
    obtain ⟨loops, ifs, stack⟩ := ih (limits.addCallee (callee n))
    exact ⟨(Nat.le_max_left _ _).trans loops, (Nat.le_max_left _ _).trans ifs,
      (Nat.le_max_left _ _).trans stack⟩

private theorem le_addCallees (callee : FunctionID → Limits) {called : List FunctionID}
    {n : FunctionID} (member : n ∈ called) : ∀ limits : Limits,
    (callee n).loops ≤ (addCallees callee called limits).loops ∧
      (callee n).ifs ≤ (addCallees callee called limits).ifs ∧
      (callee n).stack + 1 ≤ (addCallees callee called limits).stack := by
  induction called with
  | nil => cases member
  | cons m called ih =>
    intro limits
    rcases List.mem_cons.mp member with rfl | member
    · obtain ⟨loops, ifs, stack⟩ := addCallees_le callee called (limits.addCallee (callee n))
      exact ⟨(Nat.le_max_right _ _).trans loops, (Nat.le_max_right _ _).trans ifs,
        (Nat.le_max_right _ _).trans stack⟩
    · exact ih member _

theorem traverse_covers {functions : Functions}
    (acyclic : Acyclic fun caller n => n ∈ (functions.info caller).calls) (id : FunctionID) :
    ∃ limits fuel, Covers functions id limits ∧
      ∀ visited, (∀ v ∈ visited, TransGen (fun caller n => n ∈ (functions.info caller).calls) v id) →
        ∀ k, fuel ≤ k → LimitAnalysis.traverse functions k visited id = some limits := by
  induction id using acyclic.wellFounded_swap.induction with
  | _ id ih =>
    have each : ∀ n, ∃ limits fuel, n ∈ (functions.info id).calls → Covers functions n limits ∧
        ∀ visited, (∀ v ∈ visited, TransGen (fun caller n => n ∈ (functions.info caller).calls) v n) →
          ∀ k, fuel ≤ k → LimitAnalysis.traverse functions k visited n = some limits := by
      intro n
      by_cases called : n ∈ (functions.info id).calls
      · obtain ⟨limits, fuel, spec⟩ := ih n called
        exact ⟨limits, fuel, fun _ => spec⟩
      · exact ⟨{}, 0, fun call => absurd call called⟩
    choose callee fuel spec using each
    let inner := addCallees callee (functions.info id).calls { stack := 1 }
    have stack : 1 ≤ inner.stack := (addCallees_le callee _ { stack := 1 }).2.2
    refine ⟨{ inner with
        loops := inner.loops + (functions.info id).limits.loops
        ifs := inner.ifs + (functions.info id).limits.ifs },
      (functions.info id).calls.toFinset.sup fuel + 1, ?_, ?_⟩
    · refine .intro callee (Nat.le_add_left _ _) (Nat.le_add_left _ _) stack
        (fun n member => (spec n member).1) fun n member => ?_
      obtain ⟨loops, ifs, stack⟩ := le_addCallees callee member { stack := 1 }
      refine ⟨?_, ?_, stack⟩
      · rw [Nat.add_comm]
        exact Nat.add_le_add_right loops _
      · rw [Nat.add_comm]
        exact Nat.add_le_add_right ifs _
    · intro visited above k enough
      obtain ⟨k, rfl⟩ : ∃ j, k = j + 1 := ⟨k - 1, by omega⟩
      have fresh : id ∉ visited := fun visits => acyclic id (above id visits)
      have each : ∀ n ∈ (functions.info id).calls, LimitAnalysis.traverse functions k (id :: visited) n = some (callee n) := by
        intro n member
        refine (spec n member).2 _ ?_ k ?_
        · rintro v (_ | ⟨_, visits⟩)
          · exact .single member
          · exact (above v visits).tail member
        · have := Finset.le_sup (f := fuel) (List.mem_toFinset.mpr member)
          omega
      rw [LimitAnalysis.traverse, if_neg fresh]
      simp only [foldlM_callees each]
      rfl

structure Bounds (code : List (Instruction ι)) (limits : Limits) : Prop where
  runs : ∀ {σ : Type} (m : Interpretation ι σ) (x : σ) (c : Config ι σ),
    Reaches (step m code) (start code x) c →
      openLoops c.frames ≤ limits.loops ∧ openIfs c.frames ≤ limits.ifs ∧
        activeFunctions c.frames ≤ limits.stack
  labels : ∀ i ∈ code, i.opcode = .label ∨ i.isCall = true → i.label.toNat ≤ limits.maxLabel

/-- The analysis ends and fails no assertion, and its limits bound every run. -/
def Limited (code : List (Instruction ι)) : Prop :=
  ∃ limits, (∃ fuel, ∀ k, fuel ≤ k → analyzeLimits k code = some limits) ∧ Bounds code limits

private theorem made_defined {p : Program ι} {caller n : FunctionID} (made : Made p caller n) :
    n ∈ p.functions.map Function.number := by
  rcases made with ⟨-, called⟩ | ⟨f, member, -, called⟩
  · exact p.mainCalls n called
  · exact p.functionCalls f member n called

private theorem made_acyclic {p : Program ι} (noMain : ∀ f ∈ p.functions, f.number ≠ mainId) :
    Acyclic (Made p) := by
  have defined : ∀ {n}, n ∈ p.functions.map Function.number → n ≠ mainId := by
    intro n member
    obtain ⟨f, there, rfl⟩ := List.mem_map.mp member
    exact noMain f there
  have call : ∀ {a b}, a ≠ mainId → Made p a b → Calls p.functions a b := by
    rintro a b other (⟨same, -⟩ | ⟨f, member, rfl, called⟩)
    · exact absurd same other
    · exact ⟨f, member, rfl, called⟩
  have chain : ∀ {a b}, a ≠ mainId → TransGen (Made p) a b →
      b ∈ p.functions.map Function.number ∧ TransGen (Calls p.functions) a b := by
    intro a b other chain
    induction chain with
    | single made => exact ⟨made_defined made, .single (call other made)⟩
    | tail _ made ih => exact ⟨made_defined made, ih.2.tail (call (defined ih.1) made)⟩
  intro n cycle
  obtain ⟨m, -, made⟩ := TransGen.tail'_iff.mp cycle
  exact p.noRecursion n (chain (defined (made_defined made)) cycle).2

private theorem bounds_program {p : Program ι} {s : Gathering} (gathered : Gathered p s)
    {limits : Limits} (covers : Covers s.functions mainId limits) :
    Bounds p.instructions { limits with maxLabel := s.maxLabel } := by
  have known : ∀ n body, functionCode n p.instructions = some body →
      Fits (s.functions.info n) [] body := by
    intro n body found
    obtain ⟨i, member, label, rfl⟩ := functionCode_label found
    obtain ⟨f, there, number⟩ := label_program member label
    obtain ⟨rest, same⟩ := functionCode_program p there
    rw [number, found] at same
    rw [Option.some_inj.mp same, ← number]
    exact gathered.functions f there rest
  refine ⟨fun {σ} m x c reaches => ?_, fun i member used => ?_⟩
  · exact (reaches_running known gathered.main covers reaches).bounded
  · obtain ⟨f, there, number⟩ := used.elim (label_program member) (call_program member)
    rw [← number]
    exact gathered.labels f there

private theorem foundIn_reachable {p : Program ι}
    (noMain : ∀ f ∈ p.functions, f.number ≠ mainId) (n : FunctionID) :
    ((foundIn p).info n).reachable = true ↔ n = mainId := by
  rw [foundIn, found_info noMain]
  by_cases main : n = mainId <;> simp [Functions.main, Functions.put, main]

private theorem foundIn_calls {p : Program ι} (noMain : ∀ f ∈ p.functions, f.number ≠ mainId)
    (n : FunctionID) : ((foundIn p).info n).calls = [] := by
  rw [foundIn, found_info noMain]
  by_cases main : n = mainId <;> simp [Functions.main, Functions.put, main]

private theorem analyzeLimits_program {p : Program ι} {fuel : Nat} {limits : Limits}
    (analyzed : analyzeLimits fuel p.instructions = some limits) :
    (∀ f ∈ p.functions, f.number ≠ mainId ∧ f.number ≠ invalidId) ∧
      ∀ f ∈ p.functions, ∃ caller, Made p caller f.number := by
  rw [analyzeLimits, identify_program] at analyzed
  split_ifs at analyzed with main
  · cases analyzed
  · have noMain : ∀ f ∈ p.functions, f.number ≠ mainId := fun f member same => main ⟨f, member, same⟩
    rcases gather_program p with ⟨-, none⟩ | ⟨valid, s, some, gathered⟩
    · simp only [Option.bind_eq_bind, Option.bind_some] at analyzed
      rw [← foundIn, none] at analyzed
      cases analyzed
    · simp only [Option.bind_eq_bind, Option.bind_some] at analyzed
      rw [← foundIn, some, Option.bind_some] at analyzed
      split_ifs at analyzed with every
      refine ⟨fun f member => ⟨noMain f member, valid f member⟩, fun f member => ?_⟩
      have reachable : (s.functions.info f.number).reachable = true := by
        refine List.all_eq_true.mp every f.number ?_
        rw [gathered.grown.ids]
        exact (found_ids _ _ _).mpr (.inr (List.mem_map_of_mem member))
      rcases (gathered.grown.reachable _).mp reachable with initial | made
      · exact absurd ((foundIn_reachable noMain _).mp initial) (noMain f member)
      · exact made

theorem limited_program (p : Program ι) : Limited p.instructions ↔
    (∀ f ∈ p.functions, f.number ≠ mainId ∧ f.number ≠ invalidId) ∧
      ∀ f ∈ p.functions, ∃ caller, Made p caller f.number := by
  refine ⟨fun ⟨limits, ⟨fuel, analyzed⟩, _⟩ => analyzeLimits_program (analyzed fuel (Nat.le_refl _)),
    fun ⟨numbers, called⟩ => ?_⟩
  have noMain : ∀ f ∈ p.functions, f.number ≠ mainId := fun f member => (numbers f member).1
  rcases gather_program p with ⟨⟨f, member, invalid⟩, -⟩ | ⟨-, s, passed, gathered⟩
  · exact absurd invalid (numbers f member).2
  · have made : ∀ caller n, n ∈ (s.functions.info caller).calls ↔ Made p caller n := by
      intro caller n
      rw [gathered.grown.calls, foundIn_calls noMain]
      simp
    have acyclic : Acyclic fun caller n => n ∈ (s.functions.info caller).calls := by
      simpa only [made] using made_acyclic noMain
    obtain ⟨limits, fuel, covers, ends⟩ := traverse_covers acyclic mainId
    have every : (s.functions.ids.all fun id => (s.functions.info id).reachable) = true := by
      refine List.all_eq_true.mpr fun n member => (gathered.grown.reachable n).mpr ?_
      rw [gathered.grown.ids] at member
      rcases (found_ids _ _ _).mp member with main | defined
      · exact .inl ((foundIn_reachable noMain n).mpr (List.mem_singleton.mp main))
      · obtain ⟨f, there, rfl⟩ := List.mem_map.mp defined
        exact .inr (called f there)
    refine ⟨{ limits with maxLabel := s.maxLabel }, ⟨fuel, fun k enough => ?_⟩,
      bounds_program gathered covers⟩
    have absent : ¬ ∃ f ∈ p.functions, f.number = mainId :=
      fun ⟨f, member, main⟩ => noMain f member main
    rw [analyzeLimits, identify_program, if_neg absent]
    simp only [Option.bind_eq_bind, Option.bind_some]
    rw [← foundIn, passed, Option.bind_some, if_pos every,
      ends [] (fun _ member => by cases member) k enough]
    rfl

def Reached (p : Program ι) (n : UInt32) : Prop :=
  ∃ k ∈ calls p.main, ReflTransGen (Calls p.functions) k n

def SingleCall (p : Program ι) : Prop :=
  ∃ i, p.main = [i] ∧ i.opcode = .call ∧ ∃ f ∈ p.functions, f.number = i.label ∧ calls f.body = []

section

variable {p : Program ι} {functions : List (Function ι)}

private theorem calls_wellFounded (p : Program ι) : WellFounded (Calls p.functions) :=
  Acyclic.wellFounded p.noRecursion

private theorem same_function {f g : Function ι} (member : f ∈ p.functions)
    (member' : g ∈ p.functions) (same : f.number = g.number) : f = g :=
  List.inj_on_of_nodup_map p.distinct member member' same

private theorem live_reached (live : Live p functions)
    (every : ∀ f ∈ functions, f.number ∈ calls p.main ∨ ∃ g ∈ functions, f.number ∈ calls g.body)
    (n : UInt32) : ∀ f ∈ functions, f.number = n → Reached p n := by
  induction n using (calls_wellFounded p).induction with
  | _ n ih =>
    rintro f member rfl
    rcases every f member with main | ⟨g, there, inside⟩
    · exact ⟨_, main, .refl⟩
    · have call : Calls p.functions g.number f.number :=
        ⟨g, live.sublist.subset there, rfl, inside⟩
      obtain ⟨k, main, path⟩ := ih g.number call g there rfl
      exact ⟨k, main, path.tail call⟩

private theorem reached_live (live : Live p functions) {n : UInt32} (reached : Reached p n) :
    n ∈ functions.map Function.number := by
  obtain ⟨k, main, path⟩ := reached
  induction path with
  | refl => exact live.mainCalls k main
  | tail _ call ih =>
    obtain ⟨f, member, rfl, inside⟩ := call
    obtain ⟨g, there, same⟩ := List.mem_map.mp ih
    obtain rfl := same_function (live.sublist.subset there) member same
    exact live.functionCalls g there _ inside

private theorem entryCall_of_single (live : Live p functions) (single : SingleCall p) :
    ∃ i f, EntryCall p functions i f := by
  obtain ⟨i, main, isCall, f, member, number, leaf⟩ := single
  have label : calls p.main = [i.label] := by simp [main, calls, Instruction.isCall, isCall]
  have every : ∀ f ∈ functions, f.number ∈ calls p.main ∨ ∃ g ∈ functions, f.number ∈ calls g.body :=
    live.allCalled.resolve_left fun none => by simp [label] at none
  have alone : ∀ n, Reached p n → n = f.number := by
    rintro n ⟨k, called, path⟩
    rw [label, List.mem_singleton] at called
    subst called
    induction path with
    | refl => exact number.symm
    | tail _ call ih =>
      obtain ⟨g, there, same, inside⟩ := call
      obtain rfl := same_function there member (same.trans ih)
      rw [leaf] at inside
      cases inside
  have only : functions = [f] := by
    have same : ∀ g ∈ functions, g = f := fun g there =>
      same_function (live.sublist.subset there) member
        (alone _ (live_reached live every _ g there rfl))
    have nodup : functions.Nodup := (List.Nodup.of_map _ p.distinct).sublist live.sublist
    have some : functions ≠ [] := live.remains (List.ne_nil_of_mem member)
    obtain ⟨g, rest, cons⟩ := List.exists_cons_of_ne_nil some
    rw [cons] at same nodup ⊢
    have first := same g List.mem_cons_self
    cases rest with
    | nil => rw [first]
    | cons h rest =>
      have second := same h (List.mem_cons_of_mem g List.mem_cons_self)
      simp [first, second] at nodup
  exact ⟨i, f, main, isCall, p.closed (List.ne_nil_of_mem member), only, number, leaf⟩

private theorem made_live (live : Live p functions) {f : Function ι} :
    (∃ caller, Made live.program caller f.number) ↔
      f.number ∈ calls p.main ∨ ∃ g ∈ functions, f.number ∈ calls g.body := by
  simp only [Made, Live.program, calls_trimmed]
  constructor
  · rintro ⟨caller, ⟨-, main⟩ | ⟨g, member, -, inside⟩⟩
    · exact .inl main
    · obtain ⟨h, there, rfl⟩ := List.mem_map.mp member
      rw [trimFunction_body, calls_trimmed] at inside
      exact .inr ⟨h, there, inside⟩
  · rintro (main | ⟨g, there, inside⟩)
    · exact ⟨_, .inl ⟨rfl, main⟩⟩
    · refine ⟨_, .inr ⟨trimFunction g, List.mem_map_of_mem there, rfl, ?_⟩⟩
      rwa [trimFunction_body, calls_trimmed]

private theorem limited_live (live : Live p functions) : Limited live.program.instructions ↔
    (∀ f ∈ functions, f.number ≠ mainId ∧ f.number ≠ invalidId) ∧
      ∀ f ∈ functions, f.number ∈ calls p.main ∨ ∃ g ∈ functions, f.number ∈ calls g.body := by
  have each : ∀ P : Function ι → Prop, (∀ f ∈ live.program.functions, P f) ↔
      ∀ f ∈ functions, P (trimFunction f) := fun P => List.forall_mem_map
  rw [limited_program, each, each]
  simp only [made_live, trimFunction_number]

private theorem uncalled_live (live : Live p functions) (silent : calls p.main = [])
    (some : p.functions ≠ []) :
    ¬ ∀ f ∈ functions, f.number ∈ calls p.main ∨ ∃ g ∈ functions, f.number ∈ calls g.body := by
  intro every
  obtain ⟨f, member⟩ := List.exists_mem_of_ne_nil _ (live.remains some)
  obtain ⟨k, main, -⟩ := live_reached live every _ f member rfl
  rw [silent] at main
  cases main

end

/-- An optimized program is limited exactly where its main code calls something, or there is nothing
to call, and no function called has one of the two reserved numbers, unless it is inlined. -/
theorem optimize_limited (p : Program ι) : Limited (optimize p.instructions) ↔
    (calls p.main = [] → p.functions = []) ∧
      (SingleCall p ∨ ∀ n, Reached p n → n ≠ mainId ∧ n ≠ invalidId) := by
  obtain ⟨functions, live, ⟨i, f, entry, left⟩ | ⟨other, left⟩⟩ := optimize_program p
  · -- the entry call has been inlined: no function is left
    have inlined : optimize p.instructions = (entryProgram f entry.leaf).instructions := by
      rw [left]
      simp [Program.instructions, entryProgram]
    have limited : Limited (optimize p.instructions) := by
      rw [inlined, limited_program]
      simp [entryProgram]
    have single : SingleCall p := ⟨i, entry.main, entry.isCall, f,
      live.sublist.subset (entry.only ▸ List.mem_singleton_self f), entry.number, entry.leaf⟩
    have calling : calls p.main ≠ [] := by
      simp [entry.main, calls, Instruction.isCall, entry.isCall]
    exact ⟨fun _ => ⟨fun silent => absurd silent calling, .inl single⟩, fun _ => limited⟩
  · rw [left, limited_live live]
    constructor
    · rintro ⟨numbers, every⟩
      refine ⟨fun silent => ?_, .inr fun n reached => ?_⟩
      · by_contra some
        exact uncalled_live live silent some every
      · obtain ⟨f, there, rfl⟩ := List.mem_map.mp (reached_live live reached)
        exact numbers f there
    · rintro ⟨calling, single | numbers⟩
      · exact absurd (entryCall_of_single live single) other
      · rcases live.allCalled with ⟨silent, -⟩ | every
        · have empty : functions = [] := List.sublist_nil.mp (calling silent ▸ live.sublist)
          simp [empty]
        · exact ⟨fun f member => numbers _ (live_reached live every _ f member rfl), every⟩

def uncalled : Program Unit where
  main := [⟨.other 0, 0, (), ∅⟩]
  ret := some ⟨.ret, 0, (), ∅⟩
  functions := [⟨⟨.label, 1, (), ∅⟩, [], ⟨.ret, 0, (), ∅⟩, rfl, rfl, ⟨by decide, by decide, rfl⟩⟩]
  isMain := ⟨by decide, by decide, rfl⟩
  isRet i member := by cases member; rfl
  closed _ := rfl
  distinct := List.nodup_singleton _
  mainCalls n called := by cases called
  functionCalls f member n called := by
    cases List.mem_singleton.mp member
    cases called
  noRecursion n cycle := by
    obtain ⟨m, ⟨f, member, -, called⟩, -⟩ := TransGen.head'_iff.mp cycle
    cases List.mem_singleton.mp member
    cases called

/-- The function stays, and the assertion that every function is reachable fails. -/
theorem uncalled_unlimited : ¬ Limited (optimize uncalled.instructions) := by
  have kept : optimize uncalled.instructions = uncalled.instructions := by
    have silent : calls (optimizeLeave uncalled.instructions) = [] := by decide
    rw [optimize, optimizeCall, eliminateUncalled, silent]
    decide
  rintro ⟨limits, ⟨fuel, analyzed⟩, -⟩
  have fails : ∀ k, analyzeLimits k uncalled.instructions = none := fun _ => rfl
  rw [kept] at analyzed
  have := analyzed fuel (Nat.le_refl fuel)
  rw [fails] at this
  cases this

end RabbitRender.Shaders.LimitBounds
