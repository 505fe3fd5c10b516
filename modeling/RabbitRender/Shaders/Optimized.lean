/- RabbitRender/Shaders/Optimized
   layer: result
   source: compiler/shader/Shader.cpp
   digest: Optimizing a well formed program leaves a well formed program: the trimmed live functions. -/

import RabbitRender.Shaders.Optimize

set_option autoImplicit false

namespace RabbitRender.Shaders.Optimized

open Shaders.Instructions Shaders.Optimize

variable {ι : Type}

private theorem mem_optimizeLeave {i : Instruction ι} {code : List (Instruction ι)}
    (member : i ∈ optimizeLeave code) : ∃ j ∈ code, i = j ∨ j.opcode = .leave ∧ i = j.nulled := by
  induction code with
  | nil => cases member
  | cons j rest ih =>
    rcases List.mem_cons.mp member with rfl | member
    · refine ⟨j, List.mem_cons_self, ?_⟩
      split_ifs with dead
      · exact .inr ⟨dead.1, rfl⟩
      · exact .inl rfl
    · obtain ⟨k, inside, same⟩ := ih member
      exact ⟨k, List.mem_cons_of_mem j inside, same⟩

private theorem optimizeLeave_ret {r : Instruction ι} (isRet : r.opcode = .ret)
    (code rest : List (Instruction ι)) :
    optimizeLeave (code ++ r :: rest) = optimizeLeave code ++ r :: optimizeLeave rest := by
  induction code with
  | nil => simp [optimizeLeave, isRet]
  | cons i code ih =>
    rw [List.cons_append, optimizeLeave, optimizeLeave, ih]
    cases code with
    | nil => simp [isRet]
    | cons j code => simp

private theorem nesting_optimizeLeave (code : List (Instruction ι)) :
    ∀ open_, nesting open_ (optimizeLeave code) = nesting open_ code := by
  induction code with
  | nil => exact fun _ => rfl
  | cons i rest ih =>
    intro open_
    rw [optimizeLeave]
    split_ifs with dead
    · have skips : i.nulled.role = .skip := rfl
      have leaves : i.role = .leaves := by rw [Instruction.role, dead.1]; rfl
      simp only [nesting, skips, leaves, ih]
    · cases role : i.role <;> simp only [nesting, role, ih]

private theorem nesting_removeNull (code : List (Instruction ι)) :
    ∀ open_, nesting open_ (removeNull code) = nesting open_ code := by
  induction code with
  | nil => exact fun _ => rfl
  | cons i rest ih =>
    intro open_
    rw [removeNull] at ih ⊢
    by_cases null : i.opcode = .null
    · have skips : i.role = .skip := by rw [Instruction.role, null]; rfl
      rw [List.filter_cons_of_neg (by simp [null])]
      simp only [nesting, skips, ih]
    · rw [List.filter_cons_of_pos (by simp [null])]
      cases role : i.role <;> simp only [nesting, role, ih]

@[simp] private theorem calls_nil : calls ([] : List (Instruction ι)) = [] := rfl

@[simp] private theorem calls_append (a b : List (Instruction ι)) :
    calls (a ++ b) = calls a ++ calls b := by
  simp [calls]

private theorem calls_cons (i : Instruction ι) (rest : List (Instruction ι)) :
    calls (i :: rest) = (if i.isCall then [i.label] else []) ++ calls rest := by
  by_cases call : i.isCall = true <;> simp [calls, call]

private theorem calls_optimizeLeave (code : List (Instruction ι)) :
    calls (optimizeLeave code) = calls code := by
  induction code with
  | nil => rfl
  | cons i rest ih =>
    rw [optimizeLeave, calls_cons, calls_cons, ih]
    split_ifs with dead call call call
    all_goals first | rfl | simp_all [Instruction.isCall]

private theorem calls_removeNull (code : List (Instruction ι)) :
    calls (removeNull code) = calls code := by
  induction code with
  | nil => rfl
  | cons i rest ih =>
    rw [removeNull] at ih ⊢
    by_cases null : i.opcode = .null
    · rw [List.filter_cons_of_neg (by simp [null]), ih, calls_cons,
        if_neg (by simp [Instruction.isCall, null])]
      rfl
    · rw [List.filter_cons_of_pos (by simp [null]), calls_cons, calls_cons, ih]

private theorem calls_nulled (code : List (Instruction ι)) :
    calls (code.map Instruction.nulled) = [] := by
  induction code with
  | nil => rfl
  | cons i rest ih =>
    rw [List.map_cons, calls_cons, ih, if_neg (by simp [Instruction.isCall])]
    rfl

def trimmed (code : List (Instruction ι)) : List (Instruction ι) := removeNull (optimizeLeave code)

theorem calls_trimmed (code : List (Instruction ι)) : calls (trimmed code) = calls code := by
  rw [trimmed, calls_removeNull, calls_optimizeLeave]

private theorem Body.optimizeLeave {code : List (Instruction ι)} (body : Body code) :
    Body (optimizeLeave code) := by
  refine ⟨fun i member => ?_, fun i member => ?_, by rw [nesting_optimizeLeave, body.nested]⟩
  · obtain ⟨j, inside, rfl | ⟨-, rfl⟩⟩ := mem_optimizeLeave member
    · exact body.noLabel i inside
    · simp
  · obtain ⟨j, inside, rfl | ⟨-, rfl⟩⟩ := mem_optimizeLeave member
    · exact body.noRet i inside
    · simp

private theorem Body.removeNull {code : List (Instruction ι)} (body : Body code) :
    Body (removeNull code) :=
  ⟨fun i member => body.noLabel i (List.mem_of_mem_filter member),
    fun i member => body.noRet i (List.mem_of_mem_filter member),
    by rw [nesting_removeNull, body.nested]⟩

theorem Body.trimmed {code : List (Instruction ι)} (body : Body code) :
    Body (trimmed code) :=
  Body.removeNull (Body.optimizeLeave body)

def withBody (f : Function ι) (body : List (Instruction ι)) (isBody : Body body) : Function ι :=
  { f with body := body, isBody := isBody }

def leaveFunction (f : Function ι) : Function ι :=
  withBody f (optimizeLeave f.body) (Body.optimizeLeave f.isBody)

def trimFunction (f : Function ι) : Function ι :=
  withBody f (trimmed f.body) (Body.trimmed f.isBody)

@[simp] theorem trimFunction_number (f : Function ι) : (trimFunction f).number = f.number := rfl

@[simp] theorem trimFunction_body (f : Function ι) : (trimFunction f).body = trimmed f.body := rfl

private theorem optimizeLeave_functions (functions : List (Function ι)) :
    optimizeLeave (functions.flatMap Function.text) =
      (functions.map leaveFunction).flatMap Function.text := by
  induction functions with
  | nil => rfl
  | cons f functions ih =>
    have head : f.head.opcode ≠ .leave := by rw [f.isLabel]; decide
    rw [List.flatMap_cons, Function.text, List.append_assoc, List.cons_append, optimizeLeave,
      if_neg (fun dead => head dead.1), List.singleton_append, optimizeLeave_ret f.isRet, ih]
    simp [leaveFunction, withBody, Function.text]

private theorem optimizeLeave_program (p : Program ι) : optimizeLeave p.instructions =
    optimizeLeave p.main ++ p.ret.toList ++
      (p.functions.map leaveFunction).flatMap Function.text := by
  rw [Program.instructions]
  cases ret : p.ret with
  | none =>
    have none : p.functions = [] := by
      by_contra some
      have := p.closed some
      simp [ret] at this
    simp [none]
  | some r =>
    rw [Option.toList_some, List.append_assoc, List.singleton_append,
      optimizeLeave_ret (p.isRet r ret), optimizeLeave_functions]
    simp

abbrev Slot (ι : Type) := Function ι × Bool

def slotText (slot : Slot ι) : List (Instruction ι) :=
  if slot.2 then slot.1.text else slot.1.text.map Instruction.nulled

def slotsText (slots : List (Slot ι)) : List (Instruction ι) := slots.flatMap slotText

def pass (called : Finset UInt32) (slot : Slot ι) : Slot ι :=
  (slot.1, slot.2 && decide (slot.1.number ∈ called))

private theorem eraseUncalled_plain (called : Finset UInt32) {code : List (Instruction ι)}
    (plain : ∀ i ∈ code, i.opcode ≠ .label) (rest : List (Instruction ι)) :
    eraseUncalled called false (code ++ rest) =
      (code ++ (eraseUncalled called false rest).1, (eraseUncalled called false rest).2) := by
  induction code with
  | nil => rfl
  | cons i code ih =>
    rw [List.cons_append, eraseUncalled,
      if_neg (fun uncalled => plain i List.mem_cons_self uncalled.1),
      ih fun j member => plain j (List.mem_cons_of_mem i member)]
    rfl

private theorem eraseUncalled_body (called : Finset UInt32) {code : List (Instruction ι)}
    {last : Instruction ι} (noRet : ∀ i ∈ code, i.opcode ≠ .ret) (isRet : last.opcode = .ret)
    (rest : List (Instruction ι)) :
    eraseUncalled called true (code ++ last :: rest) =
      (code.map Instruction.nulled ++ last.nulled :: (eraseUncalled called false rest).1, true) := by
  induction code with
  | nil => rw [List.nil_append, eraseUncalled, if_pos isRet]; rfl
  | cons i code ih =>
    rw [List.cons_append, eraseUncalled, if_neg (noRet i List.mem_cons_self),
      ih fun j member => noRet j (List.mem_cons_of_mem i member)]
    rfl

private theorem eraseUncalled_slots (called : Finset UInt32) (slots : List (Slot ι)) :
    eraseUncalled called false (slotsText slots) =
      (slotsText (slots.map (pass called)),
        slots.any fun slot => slot.2 && decide (slot.1.number ∉ called)) := by
  induction slots with
  | nil => rfl
  | cons slot slots ih =>
    obtain ⟨f, live⟩ := slot
    rw [slotsText, List.flatMap_cons, ← slotsText]
    cases live with
    | false =>
      have plain : ∀ i ∈ slotText (f, false), i.opcode ≠ .label := by
        intro i member
        obtain ⟨j, -, rfl⟩ := List.mem_map.mp member
        simp
      rw [eraseUncalled_plain called plain, ih]
      simp [slotsText, pass, slotText]
    | true =>
      rw [slotText, if_pos rfl, Function.text, List.append_assoc, List.cons_append,
        List.singleton_append, eraseUncalled]
      by_cases known : f.number ∈ called
      · rw [if_neg (fun uncalled => uncalled.2 known)]
        have plain : ∀ i ∈ f.body ++ [f.last], i.opcode ≠ .label := by
          intro i member
          rcases List.mem_append.mp member with inside | last
          · exact f.isBody.noLabel i inside
          · rw [List.mem_singleton.mp last, f.isRet]
            decide
        have rest := eraseUncalled_plain called plain (slotsText slots)
        rw [List.append_assoc, List.singleton_append] at rest
        rw [rest, ih]
        simp [slotsText, pass, slotText, known, Function.text]
      · rw [if_pos ⟨f.isLabel, known⟩, eraseUncalled_body called f.isBody.noRet f.isRet, ih]
        simp [slotsText, pass, slotText, known, Function.text]

def Resolved (head : List (Instruction ι)) (slots : List (Slot ι)) : Prop :=
  ∀ n ∈ calls (head ++ slotsText slots), ∃ f, (f, true) ∈ slots ∧ f.number = n

variable {n : UInt32}

private theorem mem_calls_slotsText {slots : List (Slot ι)} :
    n ∈ calls (slotsText slots) ↔ ∃ f, (f, true) ∈ slots ∧ n ∈ calls f.body := by
  induction slots with
  | nil => simp [slotsText]
  | cons slot slots ih =>
    obtain ⟨f, live⟩ := slot
    rw [slotsText, List.flatMap_cons, ← slotsText, calls_append, List.mem_append, ih]
    cases live with
    | false => simp [slotText, calls_nulled]
    | true =>
      have text : calls f.text = calls f.body := by
        rw [Function.text, calls_append, calls_cons, calls_cons,
          if_neg (by simp [Instruction.isCall, f.isLabel]),
          if_neg (by simp [Instruction.isCall, f.isRet])]
        simp
      simp [slotText, text]

private theorem calls_pass {head : List (Instruction ι)} {slots : List (Slot ι)}
    (called : Finset UInt32) (member : n ∈ calls (head ++ slotsText (slots.map (pass called)))) :
    n ∈ calls (head ++ slotsText slots) := by
  rw [calls_append, List.mem_append] at member ⊢
  refine member.imp id fun inside => ?_
  obtain ⟨f, slot, inside⟩ := mem_calls_slotsText.mp inside
  obtain ⟨⟨g, live⟩, there, same⟩ := List.mem_map.mp slot
  simp only [pass, Prod.mk.injEq, Bool.and_eq_true] at same
  obtain ⟨rfl, rfl, -⟩ := same
  exact mem_calls_slotsText.mpr ⟨g, there, inside⟩

private theorem kept_pass {head : List (Instruction ι)} {slots : List (Slot ι)}
    (resolved : Resolved head slots) (called : n ∈ calls (head ++ slotsText slots)) :
    ∃ f, (f, true) ∈ slots.map (pass (calls (head ++ slotsText slots)).toFinset) ∧ f.number = n := by
  obtain ⟨f, slot, rfl⟩ := resolved n called
  refine ⟨f, List.mem_map.mpr ⟨(f, true), slot, ?_⟩, rfl⟩
  simp only [pass, Bool.true_and, Prod.mk.injEq, true_and, decide_eq_true_eq]
  exact List.mem_toFinset.mpr called

private theorem resolved_pass {head : List (Instruction ι)} {slots : List (Slot ι)}
    (resolved : Resolved head slots) :
    Resolved head (slots.map (pass (calls (head ++ slotsText slots)).toFinset)) :=
  fun _ member => kept_pass resolved (calls_pass _ member)

def AllCalled (head : List (Instruction ι)) (slots : List (Slot ι)) : Prop :=
  calls (head ++ slotsText slots) = [] ∨
    ∀ f, (f, true) ∈ slots → f.number ∈ calls (head ++ slotsText slots)

/-- The slots of a later state of the loop: the same functions, no more of them live. -/
def Later (slots slots' : List (Slot ι)) : Prop :=
  List.Forall₂ (fun s s' => s'.1 = s.1 ∧ (s'.2 = true → s.2 = true)) slots slots'

private theorem Later.refl (slots : List (Slot ι)) : Later slots slots := by
  induction slots with
  | nil => exact .nil
  | cons slot slots ih => exact .cons ⟨rfl, id⟩ ih

private theorem Later.pass (called : Finset UInt32) {slots slots' : List (Slot ι)}
    (later : Later (slots.map (pass called)) slots') : Later slots slots' := by
  induction slots generalizing slots' with
  | nil =>
    cases later
    exact .nil
  | cons slot slots ih =>
    cases later with
    | cons first rest =>
      refine .cons ⟨first.1, fun live => ?_⟩ (ih rest)
      have := first.2 live
      simp only [Optimized.pass, Bool.and_eq_true] at this
      exact this.1

private theorem eliminateUncalled_slots {head : List (Instruction ι)}
    (plain : ∀ i ∈ head, i.opcode ≠ .label) {code : List (Instruction ι)} {slots : List (Slot ι)}
    (same : code = head ++ slotsText slots) (resolved : Resolved head slots) :
    ∃ slots', Later slots slots' ∧ Resolved head slots' ∧ AllCalled head slots' ∧
      ((∃ f, (f, true) ∈ slots) → ∃ f, (f, true) ∈ slots') ∧
      eliminateUncalled code = (head ++ slotsText slots', (calls (head ++ slotsText slots')).toFinset) := by
  fun_induction eliminateUncalled code generalizing slots with
  | case1 code none =>
    subst same
    rw [List.toFinset_eq_empty_iff] at none
    exact ⟨slots, Later.refl slots, resolved, .inl none, id, by rw [none]; rfl⟩
  | case2 code some rescan ih =>
    subst same
    have erased : (eraseUncalled (calls (head ++ slotsText slots)).toFinset false
        (head ++ slotsText slots)).1 =
        head ++ slotsText (slots.map (pass (calls (head ++ slotsText slots)).toFinset)) := by
      rw [eraseUncalled_plain _ plain, eraseUncalled_slots]
    obtain ⟨slots', later, resolved', allCalled, remains, eliminated⟩ :=
      ih erased (resolved_pass resolved)
    -- something is called, and that function is kept
    obtain ⟨n, called⟩ := Finset.nonempty_iff_ne_empty.mpr some
    obtain ⟨f, kept, -⟩ := kept_pass resolved (List.mem_toFinset.mp called)
    exact ⟨slots', later.pass, resolved', allCalled, fun _ => remains ⟨f, kept⟩, eliminated⟩
  | case3 code some done =>
    subst same
    have erased := eraseUncalled_plain (calls (head ++ slotsText slots)).toFinset plain
      (slotsText slots)
    rw [eraseUncalled_slots] at erased
    rw [erased] at done ⊢
    have allCalled : ∀ f, (f, true) ∈ slots → f.number ∈ calls (head ++ slotsText slots) := by
      intro f slot
      by_contra uncalled
      refine done (List.any_eq_true.mpr ⟨(f, true), slot, ?_⟩)
      simpa using uncalled
    have unchanged : slots.map (pass (calls (head ++ slotsText slots)).toFinset) = slots := by
      refine (List.map_congr_left fun slot member => ?_).trans (List.map_id slots)
      obtain ⟨f, live⟩ := slot
      cases live with
      | false => rfl
      | true => simpa [pass] using allCalled f member
    exact ⟨slots, Later.refl slots, resolved, .inr allCalled, id, by rw [unchanged]⟩

/-- Functions of the program that hold every function they or the main code call, and that are all
called, unless nothing is; some, where there are any. -/
structure Live (p : Program ι) (functions : List (Function ι)) : Prop where
  sublist : functions.Sublist p.functions
  mainCalls : ∀ n ∈ calls p.main, n ∈ functions.map Function.number
  functionCalls : ∀ f ∈ functions, ∀ n ∈ calls f.body, n ∈ functions.map Function.number
  allCalled : (calls p.main = [] ∧ ∀ f ∈ functions, calls f.body = []) ∨
    ∀ f ∈ functions, f.number ∈ calls p.main ∨ ∃ g ∈ functions, f.number ∈ calls g.body
  remains : p.functions ≠ [] → functions ≠ []

private theorem calls_mono {functions functions' : List (Function ι)} {m : UInt32}
    (bodies : ∀ f ∈ functions, ∃ g ∈ functions', g.number = f.number ∧ calls g.body = calls f.body)
    (chain : Relation.TransGen (Calls functions) n m) :
    Relation.TransGen (Calls functions') n m := by
  refine Relation.TransGen.mono (fun a b call => ?_) n m chain
  obtain ⟨f, member, rfl, inside⟩ := call
  obtain ⟨g, member', same, bodies⟩ := bodies f member
  exact ⟨g, member', same, bodies ▸ inside⟩

/-- The program that is left: the trimmed main code and the trimmed live functions. -/
def Live.program {p : Program ι} {functions : List (Function ι)} (live : Live p functions) :
    Program ι where
  main := trimmed p.main
  ret := p.ret
  functions := functions.map trimFunction
  isMain := Body.trimmed p.isMain
  isRet := p.isRet
  closed some := p.closed fun none => some (by
    rw [List.map_eq_nil_iff]
    exact List.sublist_nil.mp (none ▸ live.sublist))
  distinct := by
    rw [List.map_map]
    exact p.distinct.sublist (live.sublist.map _)
  mainCalls n member := by
    rw [List.map_map]
    exact live.mainCalls n (calls_trimmed p.main ▸ member)
  functionCalls f member n inside := by
    obtain ⟨g, there, rfl⟩ := List.mem_map.mp member
    rw [List.map_map]
    exact live.functionCalls g there n (calls_trimmed g.body ▸ inside)
  noRecursion n chain := p.noRecursion n (calls_mono (fun f member => by
    obtain ⟨g, there, rfl⟩ := List.mem_map.mp member
    exact ⟨g, live.sublist.subset there, rfl, (calls_trimmed g.body).symm⟩) chain)

/-- The main code is a single call, of the only live function, which calls nothing. -/
structure EntryCall (p : Program ι) (functions : List (Function ι)) (i : Instruction ι)
    (f : Function ι) : Prop where
  main : p.main = [i]
  isCall : i.opcode = .call
  ret : p.ret.isSome
  only : functions = [f]
  number : f.number = i.label
  leaf : calls f.body = []

/-- The program left by inlining the entry call: a main code, and nothing else. -/
def entryProgram (f : Function ι) (leaf : calls f.body = []) : Program ι where
  main := trimmed f.body
  ret := none
  functions := []
  isMain := Body.trimmed f.isBody
  isRet := by simp
  closed := by simp
  distinct := by simp
  mainCalls := by simp [calls_trimmed, leaf]
  functionCalls := by simp
  noRecursion n chain := by
    obtain ⟨m, ⟨f, none, -⟩, -⟩ := Relation.TransGen.head'_iff.mp chain
    cases none

theorem removeNull_append (a b : List (Instruction ι)) :
    removeNull (a ++ b) = removeNull a ++ removeNull b := List.filter_append ..

private theorem removeNull_nulled (code : List (Instruction ι)) :
    removeNull (code.map Instruction.nulled) = [] := by
  simp [removeNull]

def kept (slots : List (Slot ι)) : List (Function ι) := (slots.filter Prod.snd).map Prod.fst

private theorem kept_cons (slot : Slot ι) (slots : List (Slot ι)) :
    kept (slot :: slots) = if slot.2 = true then slot.1 :: kept slots else kept slots := by
  obtain ⟨f, live⟩ := slot
  cases live <;> rfl

private theorem mem_kept {slots : List (Slot ι)} {f : Function ι} :
    f ∈ kept slots ↔ (f, true) ∈ slots := by
  simp [kept]

private theorem removeNull_slots (slots : List (Slot ι)) : removeNull (slotsText slots) =
    (kept slots).flatMap fun f => f.head :: removeNull f.body ++ [f.last] := by
  induction slots with
  | nil => rfl
  | cons slot slots ih =>
    obtain ⟨f, live⟩ := slot
    rw [slotsText, List.flatMap_cons, ← slotsText, removeNull_append, ih, kept_cons]
    cases live with
    | false => simp [slotText, removeNull_nulled]
    | true =>
      have head : removeNull [f.head] = [f.head] := by simp [removeNull, f.isLabel]
      have last : removeNull [f.last] = [f.last] := by simp [removeNull, f.isRet]
      have text : f.text = [f.head] ++ f.body ++ [f.last] := rfl
      rw [slotText, if_pos rfl, text, removeNull_append, removeNull_append, head, last]
      simp

private theorem removeNull_inlined (slots : List (Slot ι)) :
    removeNull (inlineFunctions (slotsText slots)) =
      (kept slots).flatMap fun f => removeNull f.body := by
  induction slots with
  | nil => rfl
  | cons slot slots ih =>
    obtain ⟨f, live⟩ := slot
    rw [slotsText, List.flatMap_cons, ← slotsText, inlineFunctions, List.map_append,
      ← inlineFunctions, ← inlineFunctions, removeNull_append, ih, kept_cons]
    cases live with
    | false =>
      have blank : inlineFunctions (slotText (f, false)) = slotText (f, false) := by
        refine (List.map_congr_left fun i member => ?_).trans (List.map_id _)
        obtain ⟨j, -, rfl⟩ := List.mem_map.mp member
        rfl
      rw [blank, slotText]
      simp [removeNull_nulled]
    | true =>
      have body : inlineFunctions f.body = f.body := by
        refine (List.map_congr_left fun i member => ?_).trans (List.map_id _)
        rw [if_neg (not_or.mpr ⟨f.isBody.noLabel i member, f.isBody.noRet i member⟩)]
        rfl
      have text : slotText (f, true) = [f.head] ++ f.body ++ [f.last] := rfl
      rw [text, inlineFunctions, List.map_append, List.map_append, ← inlineFunctions,
        ← inlineFunctions, ← inlineFunctions, body]
      simp [inlineFunctions, removeNull, f.isLabel, f.isRet]

private theorem later_functions {slots slots' : List (Slot ι)} (later : Later slots slots') :
    slots'.map Prod.fst = slots.map Prod.fst := by
  induction later with
  | nil => rfl
  | cons first _ ih => rw [List.map_cons, List.map_cons, first.1, ih]

def startSlots (p : Program ι) : List (Slot ι) :=
  (p.functions.map leaveFunction).map fun f => (f, true)

private theorem calls_ret (p : Program ι) : calls p.ret.toList = [] := by
  cases found : p.ret with
  | none => rfl
  | some r => simp [calls_cons, Instruction.isCall, p.isRet r found]

private theorem calls_head (p : Program ι) (slots : List (Slot ι)) :
    calls (optimizeLeave p.main ++ p.ret.toList ++ slotsText slots) =
      calls p.main ++ calls (slotsText slots) := by
  rw [calls_append, calls_append, calls_ret, List.append_nil, calls_optimizeLeave]

private theorem resolved_start (p : Program ι) :
    Resolved (optimizeLeave p.main ++ p.ret.toList) (startSlots p) := by
  intro n member
  rw [calls_head, List.mem_append, mem_calls_slotsText] at member
  have there : n ∈ p.functions.map Function.number := by
    rcases member with main | ⟨f, slot, inside⟩
    · exact p.mainCalls n main
    · obtain ⟨g, listed, same⟩ := List.mem_map.mp slot
      cases same
      obtain ⟨h, declared, rfl⟩ := List.mem_map.mp listed
      rw [leaveFunction, withBody, calls_optimizeLeave] at inside
      exact p.functionCalls h declared n inside
  obtain ⟨f, declared, rfl⟩ := List.mem_map.mp there
  exact ⟨leaveFunction f, List.mem_map_of_mem (List.mem_map_of_mem declared), rfl⟩

section

variable {p : Program ι} {functions : List (Function ι)} {slots : List (Slot ι)}

private theorem mem_slots (same : kept slots = functions.map leaveFunction) {g : Function ι} :
    (g, true) ∈ slots ↔ ∃ f ∈ functions, leaveFunction f = g := by
  rw [← mem_kept, same, List.mem_map]

private theorem calls_slots (same : kept slots = functions.map leaveFunction) {n : UInt32} :
    n ∈ calls (slotsText slots) ↔ ∃ f ∈ functions, n ∈ calls f.body := by
  have body : ∀ f : Function ι, calls (leaveFunction f).body = calls f.body :=
    fun f => calls_optimizeLeave f.body
  rw [mem_calls_slotsText]
  constructor
  · rintro ⟨g, slot, member⟩
    obtain ⟨f, there, rfl⟩ := (mem_slots same).mp slot
    exact ⟨f, there, body f ▸ member⟩
  · rintro ⟨f, there, member⟩
    exact ⟨leaveFunction f, (mem_slots same).mpr ⟨f, there, rfl⟩, (body f).symm ▸ member⟩

private theorem live_slots (sublist : functions.Sublist p.functions)
    (same : kept slots = functions.map leaveFunction)
    (resolved : Resolved (optimizeLeave p.main ++ p.ret.toList) slots)
    (allCalled : AllCalled (optimizeLeave p.main ++ p.ret.toList) slots)
    (remains : p.functions ≠ [] → ∃ f, (f, true) ∈ slots) : Live p functions := by
  have found : ∀ n, n ∈ calls p.main ++ calls (slotsText slots) →
      n ∈ functions.map Function.number := by
    intro n member
    rw [← calls_head] at member
    obtain ⟨g, slot, rfl⟩ := resolved n member
    obtain ⟨f, there, rfl⟩ := (mem_slots same).mp slot
    exact List.mem_map.mpr ⟨f, there, rfl⟩
  refine ⟨sublist, ?_, ?_, ?_, ?_⟩
  · exact fun n member => found n (List.mem_append_left _ member)
  · exact fun f there n member =>
      found n (List.mem_append_right _ ((calls_slots same).mpr ⟨f, there, member⟩))
  · rw [AllCalled, calls_head] at allCalled
    rcases allCalled with none | every
    · left
      obtain ⟨main, others⟩ := List.append_eq_nil_iff.mp none
      refine ⟨main, fun f there => List.eq_nil_iff_forall_not_mem.mpr fun n member => ?_⟩
      have := (calls_slots same).mpr ⟨f, there, member⟩
      rw [others] at this
      cases this
    · right
      intro f there
      have member := every (leaveFunction f) ((mem_slots same).mpr ⟨f, there, rfl⟩)
      rcases List.mem_append.mp member with main | other
      · exact .inl main
      · exact .inr ((calls_slots same).mp other)
  · intro some empty
    obtain ⟨g, slot⟩ := remains some
    obtain ⟨f, there, -⟩ := (mem_slots same).mp slot
    rw [empty] at there
    cases there

end

private theorem eliminate_program (p : Program ι) : ∃ functions slots, Live p functions ∧
    kept slots = functions.map leaveFunction ∧ slots.length = p.functions.length ∧
    eliminateUncalled (optimizeLeave p.instructions) =
      (optimizeLeave p.main ++ p.ret.toList ++ slotsText slots,
        (calls p.main ++ functions.flatMap fun f => calls f.body).toFinset) := by
  have plain : ∀ i ∈ optimizeLeave p.main ++ p.ret.toList, i.opcode ≠ .label := by
    intro i member
    rcases List.mem_append.mp member with main | ret
    · exact (Body.optimizeLeave p.isMain).noLabel i main
    · rw [p.isRet i (Option.mem_toList.mp ret)]
      decide
  have text : slotsText (startSlots p) = (p.functions.map leaveFunction).flatMap Function.text := by
    rw [slotsText, startSlots, List.flatMap_map]
    rfl
  have split : optimizeLeave p.instructions =
      optimizeLeave p.main ++ p.ret.toList ++ slotsText (startSlots p) := by
    rw [optimizeLeave_program, text]
  obtain ⟨slots, later, resolved, allCalled, remains, eliminated⟩ :=
    eliminateUncalled_slots plain split (resolved_start p)
  have names : slots.map Prod.fst = p.functions.map leaveFunction := by
    rw [later_functions later, startSlots, List.map_map]
    exact List.map_id _
  have fewer : (kept slots).Sublist (p.functions.map leaveFunction) := by
    rw [← names]
    exact List.filter_sublist.map _
  obtain ⟨functions, sublist, same⟩ := List.sublist_map_iff.mp fewer
  have nonempty : p.functions ≠ [] → ∃ f, (f, true) ∈ slots := by
    intro some
    obtain ⟨f, declared⟩ := List.exists_mem_of_ne_nil _ some
    exact remains ⟨leaveFunction f, List.mem_map_of_mem (List.mem_map_of_mem declared)⟩
  refine ⟨functions, slots, live_slots sublist same resolved allCalled nonempty, same,
    by simpa using congrArg List.length names, ?_⟩
  rw [eliminated, calls_head]
  congr 1
  ext n
  simp only [List.mem_toFinset, List.mem_append, List.mem_flatMap, calls_slots same]

private theorem kept_text {functions : List (Function ι)} {slots : List (Slot ι)}
    (same : kept slots = functions.map leaveFunction) :
    removeNull (slotsText slots) = (functions.map trimFunction).flatMap Function.text := by
  rw [removeNull_slots, same, List.flatMap_map, List.flatMap_map]
  rfl

/-- Where the main code is a call and only one label is called, the function with the label is the
only live one, and calls nothing. -/
private theorem entryCall_of_one {p : Program ι} {functions : List (Function ι)}
    (live : Live p functions) {i : Instruction ι} (main : p.main = [i]) (isCall : i.opcode = .call)
    (ret : p.ret.isSome) {called : Finset UInt32}
    (counted : called = (calls p.main ++ functions.flatMap fun f => calls f.body).toFinset)
    (one : called.card = 1) : ∃ f, EntryCall p functions i f := by
  have label : calls p.main = [i.label] := by simp [main, calls, Instruction.isCall, isCall]
  obtain ⟨n, single⟩ := Finset.card_eq_one.mp one
  have members : ∀ k, k ∈ calls p.main ++ functions.flatMap (fun f => calls f.body) → k = n := by
    intro k member
    rw [← List.mem_toFinset, ← counted, single, Finset.mem_singleton] at member
    exact member
  have n_eq : i.label = n := members _ (by simp [label])
  obtain ⟨f, there, number⟩ := List.mem_map.mp (live.mainCalls i.label (by simp [label]))
  have leaf : calls f.body = [] := by
    refine List.eq_nil_iff_forall_not_mem.mpr fun k member => ?_
    have k_eq := members k (List.mem_append_right _ (List.mem_flatMap.mpr ⟨f, there, member⟩))
    refine p.noRecursion n (.single ⟨f, live.sublist.subset there, number.trans n_eq, ?_⟩)
    rw [← k_eq]
    exact member
  have numbers : ∀ g ∈ functions, g.number = n := by
    intro g member
    rcases live.allCalled with ⟨none, -⟩ | every
    · rw [label] at none
      cases none
    · rcases every g member with main | ⟨h, there, inside⟩
      · exact members _ (List.mem_append_left _ main)
      · exact members _ (List.mem_append_right _ (List.mem_flatMap.mpr ⟨h, there, inside⟩))
  have only : functions = [f] := by
    have distinct := p.distinct.sublist (live.sublist.map Function.number)
    match functions, there, numbers, distinct with
    | [g], there, _, _ => rw [List.mem_singleton.mp there]
    | g :: h :: rest, _, numbers, distinct =>
      simp [numbers g, numbers h] at distinct
  exact ⟨f, main, isCall, ret, only, number, leaf⟩

private theorem optimizeEntry_program {p : Program ι} {functions : List (Function ι)}
    {slots : List (Slot ι)} (live : Live p functions)
    (same : kept slots = functions.map leaveFunction) (called : Finset UInt32)
    (counted : called = (calls p.main ++ functions.flatMap fun f => calls f.body).toFinset)
    (empty : p.functions = [] → slotsText slots = []) :
    (∃ i f, EntryCall p functions i f ∧
      removeNull (optimizeEntry called
        (optimizeLeave p.main ++ p.ret.toList ++ slotsText slots)) = trimmed f.body) ∨
    (¬ ∃ i f, EntryCall p functions i f) ∧
      optimizeEntry called (optimizeLeave p.main ++ p.ret.toList ++ slotsText slots) =
        optimizeLeave p.main ++ p.ret.toList ++ slotsText slots := by
  by_cases entry : ∃ i f, EntryCall p functions i f
  · obtain ⟨i, f, entry⟩ := entry
    refine .inl ⟨i, f, entry, ?_⟩
    obtain ⟨r, ret⟩ := Option.isSome_iff_exists.mp entry.ret
    have main : optimizeLeave p.main = [i] := by
      rw [entry.main, optimizeLeave, if_neg (by simp [entry.isCall])]
      rfl
    have one : called.card = 1 := by
      have label : calls [i] = [i.label] := by simp [calls, Instruction.isCall, entry.isCall]
      rw [counted, entry.main, entry.only, label]
      simp [entry.leaf]
    rw [main, ret, Option.toList_some, List.singleton_append, List.cons_append,
      List.singleton_append, optimizeEntry, if_pos ⟨entry.isCall, p.isRet r ret, one⟩]
    have nulls : removeNull (i.nulled :: r.nulled :: inlineFunctions (slotsText slots)) =
        removeNull (inlineFunctions (slotsText slots)) := by
      simp [removeNull]
    rw [nulls, removeNull_inlined, same, entry.only]
    simp [leaveFunction, withBody, trimmed]
  · refine .inr ⟨entry, ?_⟩
    -- the list begins with a call and a RET only where the main code is the call
    cases main : p.main with
    | nil =>
      cases ret : p.ret with
      | none =>
        have none : p.functions = [] := by
          by_contra some
          have := p.closed some
          simp [ret] at this
        simp [optimizeLeave, empty none, optimizeEntry]
      | some r =>
        have isRet := p.isRet r ret
        cases text : slotsText slots with
        | nil => simp [optimizeLeave, optimizeEntry]
        | cons t ts => simp [optimizeLeave, optimizeEntry, isRet]
    | cons i rest =>
      cases rest with
      | nil =>
        cases ret : p.ret with
        | none =>
          have none : p.functions = [] := by
            by_contra some
            have := p.closed some
            simp [ret] at this
          simp [optimizeLeave, empty none, optimizeEntry]
        | some r =>
          rw [optimizeLeave, optimizeLeave, Option.toList_some, List.singleton_append,
            List.cons_append, List.singleton_append, optimizeEntry, if_neg]
          rintro ⟨isCall, -, one⟩
          have plain : i.opcode = .call := by
            split_ifs at isCall with dead
            · cases isCall
            · exact isCall
          exact entry ⟨i, entryCall_of_one live main plain (by simp [ret]) counted one⟩
      | cons j rest =>
        have later : ∀ k ∈ optimizeLeave (i :: j :: rest), k.opcode ≠ .ret :=
          (Body.optimizeLeave (main ▸ p.isMain)).noRet
        rw [optimizeLeave, optimizeLeave] at later ⊢
        rw [List.cons_append, List.cons_append, List.cons_append, List.cons_append, optimizeEntry,
          if_neg]
        rintro ⟨-, isRet, -⟩
        exact later _ (List.mem_cons_of_mem _ List.mem_cons_self) isRet

theorem optimize_program (p : Program ι) : ∃ functions, ∃ live : Live p functions,
    (∃ i f, EntryCall p functions i f ∧ optimize p.instructions = trimmed f.body) ∨
    (¬ ∃ i f, EntryCall p functions i f) ∧ optimize p.instructions = live.program.instructions := by
  obtain ⟨functions, slots, live, same, lengths, eliminated⟩ := eliminate_program p
  have empty : p.functions = [] → slotsText slots = [] := by
    intro empty
    rw [empty, List.length_nil, List.length_eq_zero_iff] at lengths
    rw [lengths]
    rfl
  refine ⟨functions, live, ?_⟩
  rw [optimize, optimizeCall, eliminated]
  refine (optimizeEntry_program live same _ rfl empty).imp id fun ⟨other, unchanged⟩ => ⟨other, ?_⟩
  rw [unchanged, removeNull_append, removeNull_append, kept_text same]
  have ret : removeNull p.ret.toList = p.ret.toList := by
    cases found : p.ret with
    | none => rfl
    | some r => simp [removeNull, p.isRet r found]
  rw [ret]
  rfl

theorem optimize_noNull (code : List (Instruction ι)) : ∀ i ∈ optimize code, i.opcode ≠ .null := by
  intro i member
  simpa using List.of_mem_filter member

end RabbitRender.Shaders.Optimized
