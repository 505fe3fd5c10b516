/- RabbitRender/Shaders/FunctionCode
   layer: result
   source: compiler/shader/Shader.hpp, compiler/shader/Shader.cpp
   digest: Where the functions of a well formed program stand in its instruction list. -/

import RabbitRender.Shaders.Machine

set_option autoImplicit false

namespace RabbitRender.Shaders.FunctionCode

open Shaders.Instructions Shaders.Machine

variable {ι : Type}

private theorem functionCode_skip (n : UInt32) {code : List (Instruction ι)}
    (plain : ∀ i ∈ code, i.opcode = .label → i.label ≠ n) (rest : List (Instruction ι)) :
    functionCode n (code ++ rest) = functionCode n rest := by
  induction code with
  | nil => rfl
  | cons i code ih =>
    rw [List.cons_append, functionCode,
      if_neg (fun here => plain i List.mem_cons_self here.1 here.2)]
    exact ih fun j member => plain j (List.mem_cons_of_mem i member)

theorem functionCode_functions {functions : List (Function ι)}
    (distinct : (functions.map Function.number).Nodup) {f : Function ι} (member : f ∈ functions) :
    ∃ rest, functionCode f.number (functions.flatMap Function.text) =
      some (f.body ++ f.last :: rest) := by
  induction functions with
  | nil => cases member
  | cons g functions ih =>
    rw [List.map_cons, List.nodup_cons] at distinct
    rw [List.flatMap_cons]
    by_cases here : g.number = f.number
    · have same : f = g := by
        rcases List.mem_cons.mp member with same | there
        · exact same
        · exact absurd (here ▸ List.mem_map_of_mem there) distinct.1
      subst same
      refine ⟨functions.flatMap Function.text, ?_⟩
      rw [Function.text, List.cons_append, List.cons_append, functionCode, if_pos ⟨f.isLabel, rfl⟩]
      simp
    · have there : f ∈ functions := by
        rcases List.mem_cons.mp member with rfl | there
        · exact absurd rfl here
        · exact there
      obtain ⟨rest, found⟩ := ih distinct.2 there
      refine ⟨rest, ?_⟩
      rw [functionCode_skip, found]
      intro i inside isLabel
      rcases List.mem_append.mp (show i ∈ (g.head :: g.body) ++ [g.last] from inside) with front | last
      · rcases List.mem_cons.mp front with rfl | body
        · exact here
        · exact absurd isLabel (g.isBody.noLabel i body)
      · rw [List.mem_singleton.mp last, g.isRet] at isLabel
        cases isLabel

theorem functionCode_program (p : Program ι) {f : Function ι} (member : f ∈ p.functions) :
    ∃ rest, functionCode f.number p.instructions = some (f.body ++ f.last :: rest) := by
  obtain ⟨rest, found⟩ := functionCode_functions p.distinct member
  refine ⟨rest, ?_⟩
  rw [Program.instructions, functionCode_skip, found]
  intro i inside isLabel
  rcases List.mem_append.mp inside with main | ret
  · exact absurd isLabel (p.isMain.noLabel i main)
  · rw [p.isRet i (Option.mem_toList.mp ret)] at isLabel
    cases isLabel

theorem functionCode_label {n : UInt32} {code body : List (Instruction ι)}
    (found : functionCode n code = some body) : ∃ i ∈ code, i.opcode = .label ∧ i.label = n := by
  induction code with
  | nil => cases found
  | cons i code ih =>
    rw [functionCode] at found
    split_ifs at found with here
    · exact ⟨i, List.mem_cons_self, here⟩
    · obtain ⟨j, member, label⟩ := ih found
      exact ⟨j, List.mem_cons_of_mem i member, label⟩

theorem label_program {p : Program ι} {i : Instruction ι} (member : i ∈ p.instructions)
    (label : i.opcode = .label) : ∃ f ∈ p.functions, f.number = i.label := by
  rw [Program.instructions, List.mem_append, List.mem_append] at member
  rcases member with (main | ret) | functions
  · exact absurd label (p.isMain.noLabel i main)
  · have isRet := p.isRet i (Option.mem_toList.mp ret)
    rw [isRet] at label
    cases label
  · obtain ⟨f, there, inside⟩ := List.mem_flatMap.mp functions
    refine ⟨f, there, ?_⟩
    rw [Function.text, List.mem_append, List.mem_cons] at inside
    rcases inside with (rfl | body) | last
    · rfl
    · exact absurd label (f.isBody.noLabel i body)
    · rw [List.mem_singleton.mp last, f.isRet] at label
      cases label

theorem call_program {p : Program ι} {i : Instruction ι} (member : i ∈ p.instructions)
    (isCall : i.isCall = true) : ∃ f ∈ p.functions, f.number = i.label := by
  have called : ∀ {code : List (Instruction ι)}, i ∈ code → i.label ∈ calls code :=
    fun inside => List.mem_map_of_mem (List.mem_filter.mpr ⟨inside, isCall⟩)
  rw [Program.instructions, List.mem_append, List.mem_append] at member
  rcases member with (main | ret) | functions
  · exact List.mem_map.mp (p.mainCalls _ (called main))
  · have isRet := p.isRet i (Option.mem_toList.mp ret)
    simp [Instruction.isCall, isRet] at isCall
  · obtain ⟨f, there, inside⟩ := List.mem_flatMap.mp functions
    rw [Function.text, List.mem_append, List.mem_cons] at inside
    rcases inside with (rfl | body) | last
    · simp [Instruction.isCall, f.isLabel] at isCall
    · exact List.mem_map.mp (p.functionCalls f there _ (called body))
    · rw [List.mem_singleton.mp last] at isCall
      simp [Instruction.isCall, f.isRet] at isCall

def labels (code : List (Instruction ι)) : List UInt32 :=
  (code.filter fun i => i.opcode = .label).map Instruction.label

private theorem labels_append (a b : List (Instruction ι)) : labels (a ++ b) = labels a ++ labels b := by
  simp [labels]

private theorem labels_plain {code : List (Instruction ι)} (noLabel : ∀ i ∈ code, i.opcode ≠ .label) :
    labels code = [] := by
  rw [labels, List.map_eq_nil_iff, List.filter_eq_nil_iff]
  simpa using noLabel

private theorem labels_functions (functions : List (Function ι)) :
    labels (functions.flatMap Function.text) = functions.map Function.number := by
  induction functions with
  | nil => rfl
  | cons f functions ih =>
    have behind : labels (f.body ++ [f.last]) = [] := by
      refine labels_plain fun i member => ?_
      rcases List.mem_append.mp member with body | last
      · exact f.isBody.noLabel i body
      · rw [List.mem_singleton.mp last, f.isRet]
        decide
    have text : labels f.text = f.number :: labels (f.body ++ [f.last]) := by
      simp [labels, Function.text, Function.number, f.isLabel]
    rw [List.flatMap_cons, labels_append, text, behind, ih]
    rfl

theorem labels_program (p : Program ι) : labels p.instructions = p.functions.map Function.number := by
  rw [Program.instructions, labels_append, labels_functions, labels_plain]
  · rfl
  · intro i member
    rcases List.mem_append.mp member with main | ret
    · exact p.isMain.noLabel i main
    · rw [p.isRet i (Option.mem_toList.mp ret)]
      decide

theorem labels_distinct {code : List (Instruction ι)} (distinct : (labels code).Nodup) :
    ∀ (t t' : Nat) (i i' : Instruction ι), code[t]? = some i → code[t']? = some i' →
      i.opcode = .label → i'.opcode = .label → i.label = i'.label → t = t' := by
  induction code with
  | nil => simp
  | cons first rest ih =>
    have later : (labels rest).Nodup := by
      refine distinct.sublist ?_
      rw [← List.singleton_append, labels_append]
      exact List.sublist_append_right _ _
    have fresh : ∀ (k : Nat) (i : Instruction ι), rest[k]? = some i → first.opcode = .label →
        i.opcode = .label → first.label ≠ i.label := by
      intro k i found isFirst isLabel same
      have member : i.label ∈ labels rest := List.mem_map_of_mem
        (List.mem_filter.mpr ⟨List.mem_of_getElem? found, by simpa using isLabel⟩)
      rw [← List.singleton_append, labels_append] at distinct
      refine (List.nodup_append.mp distinct).2.2 first.label ?_ i.label member same
      simp [labels, isFirst]
    rintro (_ | t) (_ | t') i i' found found' isLabel isLabel' same
    · rfl
    · obtain rfl : first = i := by simpa using found
      exact absurd same (fresh t' i' (by simpa using found') isLabel isLabel')
    · obtain rfl : first = i' := by simpa using found'
      exact absurd same.symm (fresh t i (by simpa using found) isLabel' isLabel)
    · rw [ih later t t' i i' (by simpa using found) (by simpa using found') isLabel isLabel' same]

theorem functionCode_drop {code : List (Instruction ι)} (distinct : (labels code).Nodup) {t : Nat}
    {i : Instruction ι} (found : code[t]? = some i) (isLabel : i.opcode = .label) :
    functionCode i.label code = some (code.drop (t + 1)) := by
  have only := labels_distinct distinct
  clear distinct
  induction code generalizing t with
  | nil => simp at found
  | cons first rest ih =>
    rw [functionCode]
    cases t with
    | zero =>
      obtain rfl : first = i := by simpa using found
      rw [if_pos ⟨isLabel, rfl⟩]
      rfl
    | succ t =>
      rw [if_neg]
      · refine ih (by simpa using found) fun k k' j j' there there' isLabel isLabel' same => ?_
        have := only (k + 1) (k' + 1) j j' (by simpa using there) (by simpa using there') isLabel
          isLabel' same
        omega
      · rintro ⟨first_label, same⟩
        have := only 0 (t + 1) first i rfl found first_label isLabel same
        omega

end RabbitRender.Shaders.FunctionCode
