/- RabbitRender/Shaders/MaskMarks
   layer: result
   source: compiler/shader/Shader.cpp
   digest: Marking a function marks it and every function called from it, and ends. -/

import Mathlib.Data.FinEnum
import Mathlib.Data.Fintype.Order
import RabbitRender.Lib.Cycles
import RabbitRender.Shaders.MaskAnalysis

set_option autoImplicit false

namespace RabbitRender.Shaders.MaskMarks

open Relation Lib.Cycles Shaders.Instructions Shaders.MaskAnalysis

variable {ι : Type}

/-- A LABEL with this number stands before the index, and no RET between them. -/
def Begun (code : List (Instruction ι)) (n : UInt32) (q : Nat) : Prop :=
  ∃ t inst, t < q ∧ code[t]? = some inst ∧ (inst.opcode = .label ∧ inst.label = n) ∧
    ∀ u other, t < u → u < q → code[u]? = some other → other.opcode ≠ .ret

/-- The index is that of an instruction of the function, between its LABEL and its RET. -/
def InFunction (code : List (Instruction ι)) (n : UInt32) (q : Nat) : Prop :=
  Begun code n q ∧ ∃ inst, code[q]? = some inst ∧ inst.opcode ≠ .ret

def CallsFrom (code : List (Instruction ι)) (n m : UInt32) : Prop :=
  ∃ q inst, InFunction code n q ∧ code[q]? = some inst ∧ inst.isCall = true ∧ inst.label = m

/-- The index is that of an instruction of the function or of one called from it, directly or
transitively. -/
def InCallees (code : List (Instruction ι)) (n : UInt32) (q : Nat) : Prop :=
  ∃ m, ReflTransGen (CallsFrom code) n m ∧ InFunction code m q

def Distinct (code : List (Instruction ι)) : Prop :=
  ∀ (t t' : Nat) (inst inst' : Instruction ι), code[t]? = some inst → code[t']? = some inst' → inst.opcode = .label →
    inst'.opcode = .label → inst.label = inst'.label → t = t'

section

variable {code : List (Instruction ι)} {n : UInt32} {i q : Nat} {inst : Instruction ι}

theorem InFunction.length (inside : InFunction code n q) : q < code.length := by
  obtain ⟨-, inst, found, -⟩ := inside
  exact (List.getElem?_eq_some_iff.mp found).1

theorem InCallees.length (callee : InCallees code n q) : q < code.length := by
  obtain ⟨m, -, inside⟩ := callee
  exact inside.length

private theorem Begun.next (begun : Begun code n i) (found : code[i]? = some inst)
    (goesOn : inst.opcode ≠ .ret) : Begun code n (i + 1) := by
  obtain ⟨t, label, earlier, there, isLabel, noRet⟩ := begun
  refine ⟨t, label, by omega, there, isLabel, fun u other after upTo here => ?_⟩
  by_cases last : u = i
  · subst last
    obtain rfl := Option.some_inj.mp (found.symm.trans here)
    exact goesOn
  · exact noRet u other after (by omega) here

theorem inCallees_iff : InCallees code n q ↔ ∃ c inst, InFunction code n c ∧ code[c]? = some inst ∧
    (q = c ∨ inst.isCall = true ∧ InCallees code inst.label q) := by
  constructor
  · rintro ⟨m, path, inside⟩
    rcases ReflTransGen.cases_head path with rfl | ⟨k, ⟨c, inst, within, found, isCall, rfl⟩, path⟩
    · obtain ⟨inst, found, -⟩ := inside.2
      exact ⟨q, inst, inside, found, .inl rfl⟩
    · exact ⟨c, inst, within, found, .inr ⟨isCall, m, path, inside⟩⟩
  · rintro ⟨c, inst, within, found, rfl | ⟨isCall, m, path, inside⟩⟩
    · exact ⟨n, .refl, within⟩
    · exact ⟨m, .head ⟨c, inst, within, found, isCall, rfl⟩ path, inside⟩

end

def Marked (new : Analysis → Nat → Prop) (flags flags' : Flags) : Prop :=
  ∀ a q, a ∈ flags' q ↔ a ∈ flags q ∨ new a q

namespace Marked

variable {new new' : Analysis → Nat → Prop} {flags flags' flags'' : Flags}

theorem refl (flags : Flags) : Marked (fun _ _ => False) flags flags := by simp [Marked]

theorem trans (marked : Marked new flags flags') (marked' : Marked new' flags' flags'') :
    Marked (fun a q => new a q ∨ new' a q) flags flags'' := by
  intro a q
  rw [marked' a q, marked a q, or_assoc]

theorem congr (marked : Marked new flags flags') (same : ∀ a q, new a q ↔ new' a q) :
    Marked new' flags flags' := by
  intro a q
  rw [marked a q, same]

theorem add (flags : Flags) (i : Nat) (flag : Analysis) :
    Marked (fun a q => a = flag ∧ q = i) flags (flags.add i flag) := by
  intro a q
  by_cases here : q = i
  · subst here
    simp [Flags.add, or_comm]
  · simp [Flags.add, here]

end Marked

section

variable {code : List (Instruction ι)} {mark : UInt32 → Flags → Option Flags} {n : UInt32}
  {flag : Analysis}

def Marks (code : List (Instruction ι)) (flag : Analysis) (mark : Flags → Option Flags)
    (n : UInt32) : Prop :=
  ∀ flags, ∃ flags', mark flags = some flags' ∧
    Marked (fun a q => a = flag ∧ InCallees code n q) flags flags'

theorem markCalled_marks {inst : Instruction ι}
    (callee : inst.isCall = true → Marks code flag (mark inst.label) inst.label) (flags : Flags) :
    ∃ flags', markCalled mark inst flags = some flags' ∧ Marked (fun a q => a = flag ∧
      inst.isCall = true ∧ InCallees code inst.label q) flags flags' := by
  rw [markCalled]
  by_cases isCall : inst.isCall = true
  · obtain ⟨flags', called, marked⟩ := callee isCall flags
    exact ⟨flags', by rw [if_pos isCall, called], marked.congr fun a q => by simp [isCall]⟩
  · exact ⟨flags, by rw [if_neg isCall], (Marked.refl flags).congr fun a q => by simp [isCall]⟩

theorem of_drop_eq_cons {rest : List (Instruction ι)} {i : Nat} {inst : Instruction ι}
    (here : code.drop i = inst :: rest) : code[i]? = some inst ∧ code.drop (i + 1) = rest := by
  constructor
  · rw [← Nat.add_zero i, ← List.getElem?_drop, here]
    rfl
  · rw [← List.drop_drop, here]
    rfl

private theorem scan_inside (distinct : Distinct code)
    (callees : ∀ m, CallsFrom code n m → Marks code flag (mark m) m) :
    ∀ (rest : List (Instruction ι)) (i : Nat), code.drop i = rest → Begun code n i →
      ∀ flags, ∃ flags', scanFunction mark n flag true i rest flags = some flags' ∧
        Marked (fun a q => a = flag ∧ ∃ c inst, i ≤ c ∧ InFunction code n c ∧ code[c]? = some inst ∧
          (q = c ∨ inst.isCall = true ∧ InCallees code inst.label q)) flags flags' := by
  intro rest
  induction rest with
  | nil =>
    intro i here _ flags
    refine ⟨flags, rfl, (Marked.refl flags).congr fun a q => ?_⟩
    have past := List.drop_eq_nil_iff.mp here
    refine iff_of_false id ?_
    rintro ⟨-, c, inst, behind, inside, -⟩
    have := inside.length
    omega
  | cons inst rest ih =>
    intro i here begun flags
    obtain ⟨found, next⟩ := of_drop_eq_cons here
    rw [scanFunction]
    split_ifs with isRet
    · refine ⟨flags, rfl, (Marked.refl flags).congr fun a q => iff_of_false id ?_⟩
      rintro ⟨-, c, other, behind, ⟨⟨t, label, earlier, there, isLabel, noRet⟩, j, at_, goesOn⟩, -⟩
      by_cases same : c = i
      · subst same
        obtain rfl := Option.some_inj.mp (found.symm.trans at_)
        exact goesOn isRet
      · obtain ⟨t', label', earlier', there', isLabel', -⟩ := begun
        have := distinct t t' label label' there there' isLabel.1 isLabel'.1
          (isLabel.2.trans isLabel'.2.symm)
        exact noRet i inst (by omega) (by omega) found isRet
    · have within : InFunction code n i := ⟨begun, inst, found, isRet⟩
      obtain ⟨flags₁, called, marked₁⟩ := markCalled_marks
        (fun isCall => callees inst.label ⟨i, inst, within, found, isCall, rfl⟩) flags
      obtain ⟨flags₂, scanned, marked₂⟩ := ih (i + 1) next (begun.next found isRet) (flags₁.add i flag)
      refine ⟨flags₂, ?_, ((marked₁.trans (Marked.add flags₁ i flag)).trans marked₂).congr ?_⟩
      · rw [called]
        exact scanned
      · intro a q
        constructor
        · rintro ((⟨same, isCall, inside⟩ | ⟨same, rfl⟩) | ⟨same, c, other, behind, spec⟩)
          · exact ⟨same, i, inst, Nat.le_refl i, within, found, .inr ⟨isCall, inside⟩⟩
          · exact ⟨same, q, inst, Nat.le_refl q, within, found, .inl rfl⟩
          · exact ⟨same, c, other, by omega, spec⟩
        · rintro ⟨same, c, other, behind, inside, at_, spec⟩
          by_cases here : c = i
          · subst here
            obtain rfl := Option.some_inj.mp (found.symm.trans at_)
            rcases spec with rfl | call
            · exact .inl (.inr ⟨same, rfl⟩)
            · exact .inl (.inl ⟨same, call⟩)
          · exact .inr ⟨same, c, other, by omega, inside, at_, spec⟩

private theorem scan_before (distinct : Distinct code)
    (callees : ∀ m, CallsFrom code n m → Marks code flag (mark m) m) :
    ∀ (rest : List (Instruction ι)) (i : Nat), code.drop i = rest →
      (∀ t inst, t < i → code[t]? = some inst → ¬ (inst.opcode = .label ∧ inst.label = n)) →
      ∀ flags, ∃ flags', scanFunction mark n flag false i rest flags = some flags' ∧
        Marked (fun a q => a = flag ∧ InCallees code n q) flags flags' := by
  intro rest
  induction rest with
  | nil =>
    intro i here fresh flags
    refine ⟨flags, rfl, (Marked.refl flags).congr fun a q => iff_of_false id ?_⟩
    rintro ⟨-, inside⟩
    obtain ⟨c, inst, ⟨⟨t, label, earlier, there, isLabel, -⟩, -⟩, -⟩ := inCallees_iff.mp inside
    have past := List.drop_eq_nil_iff.mp here
    have := (List.getElem?_eq_some_iff.mp there).1
    exact fresh t label (by omega) there isLabel
  | cons inst rest ih =>
    intro i here fresh flags
    obtain ⟨found, next⟩ := of_drop_eq_cons here
    rw [scanFunction]
    by_cases isLabel : inst.opcode = .label ∧ inst.label = n
    · rw [decide_eq_true isLabel]
      have begun : Begun code n (i + 1) :=
        ⟨i, inst, Nat.lt_succ_self i, found, isLabel, fun u _ after upTo => by omega⟩
      obtain ⟨flags', scanned, marked⟩ := scan_inside distinct callees rest (i + 1) next begun flags
      refine ⟨flags', scanned, marked.congr fun a q => and_congr_right fun _ => ?_⟩
      rw [inCallees_iff]
      refine exists₂_congr fun c other => ⟨And.right, fun spec => ⟨?_, spec⟩⟩
      obtain ⟨⟨⟨t, label, earlier, there, isLabel', -⟩, -⟩, -⟩ := spec
      have := distinct t i label inst there found isLabel'.1 isLabel.1
        (isLabel'.2.trans isLabel.2.symm)
      omega
    · rw [decide_eq_false isLabel]
      refine ih (i + 1) next (fun t other earlier there => ?_) flags
      by_cases last : t = i
      · subst last
        obtain rfl := Option.some_inj.mp (found.symm.trans there)
        exact isLabel
      · exact fresh t other (by omega) there

theorem markFunctionAnalysis_marks (distinct : Distinct code) (acyclic : Acyclic (CallsFrom code)) :
    ∃ fuel, ∀ k, fuel ≤ k → ∀ flag n, Marks code flag (markFunctionAnalysis code k n flag) n := by
  have each : ∀ n, ∃ fuel, ∀ k, fuel ≤ k → ∀ flag,
      Marks code flag (markFunctionAnalysis code k n flag) n := by
    intro n
    induction n using acyclic.wellFounded_swap.induction with
    | _ n ih =>
      have callees : ∀ m, ∃ fuel, CallsFrom code n m → ∀ k, fuel ≤ k → ∀ flag,
          Marks code flag (markFunctionAnalysis code k m flag) m := by
        intro m
        by_cases calls : CallsFrom code n m
        · obtain ⟨fuel, spec⟩ := ih m calls
          exact ⟨fuel, fun _ => spec⟩
        · exact ⟨0, fun call => absurd call calls⟩
      choose fuel spec using callees
      obtain ⟨most, bound⟩ := Finite.exists_le fuel
      refine ⟨most + 1, fun k enough flag flags => ?_⟩
      obtain ⟨k, rfl⟩ : ∃ j, k = j + 1 := ⟨k - 1, by omega⟩
      exact scan_before distinct (fun m call => spec m call k ((bound m).trans (by omega)) flag) code 0
        rfl (fun t _ earlier => by omega) flags
  choose fuel spec using each
  obtain ⟨most, bound⟩ := Finite.exists_le fuel
  exact ⟨most, fun k enough flag n => spec n k ((bound n).trans enough) flag⟩

end

end RabbitRender.Shaders.MaskMarks
