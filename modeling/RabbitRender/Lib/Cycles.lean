/- RabbitRender/Lib/Cycles
   layer: library
   digest: Induction along a relation without cycles, on a finite type. -/

import Mathlib.Data.Fintype.Card
import Mathlib.Logic.Relation

set_option autoImplicit false

namespace RabbitRender.Lib.Cycles

open Relation

universe u

variable {α : Type u} {r : α → α → Prop}

def Acyclic (r : α → α → Prop) : Prop := ∀ a, ¬ TransGen r a a

variable [Finite α]

theorem Acyclic.wellFounded (acyclic : Acyclic r) : WellFounded r := by
  have : IsTrans α (TransGen r) := ⟨fun _ _ _ => TransGen.trans⟩
  have : Std.Irrefl (TransGen r) := ⟨acyclic⟩
  have wf : WellFounded (TransGen r) := Finite.wellFounded_of_trans_of_irrefl (TransGen r)
  exact Subrelation.wf TransGen.single wf

theorem Acyclic.wellFounded_swap (acyclic : Acyclic r) : WellFounded (Function.swap r) := by
  refine Acyclic.wellFounded fun a cycle => acyclic a ?_
  exact transGen_swap.mp cycle

end RabbitRender.Lib.Cycles
