/- RabbitRender/Raster/Tiles
   layer: result
   source: libpixelflinger/trap.cpp
   digest: A triangle's pixels in some columns of the scissor, and in any order of its vertices. -/

import RabbitRender.Raster.Sweep

set_option autoImplicit false

namespace RabbitRender.Raster.Tiles

open Raster.Sweep Raster.Trap

variable {v0 v1 v2 w0 w1 w2 : Vertex}

theorem listed_trans {α : Type} {a m b u0 u1 u2 t0 t1 t2 : α} (listed : Listed a m b u0 u1 u2)
    (order : Listed u0 u1 u2 t0 t1 t2) : Listed a m b t0 t1 t2 := by
  cases listed
  all_goals
    cases order
    all_goals constructor

/-- The pixels of a triangle do not depend on the order of its vertices. -/
theorem drawn_reordered (scissor : Scissor) (order : Listed v0 v1 v2 w0 w1 w2) (x y : Int) :
    Drawn scissor w0 w1 w2 x y ↔ Drawn scissor v0 v1 v2 x y := by
  obtain ⟨a, m, b, listed, down, further⟩ := exists_listed v0 v1 v2
  rw [drawn_iff listed down further, drawn_iff (listed_trans listed order) down further]

theorem drawn_reordered_turned :
    Drawn ⟨0, 0, 8, 8⟩ ⟨32, 0⟩ ⟨0, 32⟩ ⟨0, 0⟩ 0 1 ↔ Drawn ⟨0, 0, 8, 8⟩ ⟨0, 0⟩ ⟨32, 0⟩ ⟨0, 32⟩ 0 1 :=
  drawn_reordered ⟨0, 0, 8, 8⟩ .bca 0 1

/-- A triangle has the same pixels in the columns that two scissors of the same rows share. -/
theorem drawn_columns (scissor : Scissor) (v0 v1 v2 : Vertex) (left right x y : Int) :
    Drawn { scissor with left := left, right := right } v0 v1 v2 x y ∧
        (scissor.left ≤ x ∧ x < scissor.right) ↔
      Drawn scissor v0 v1 v2 x y ∧ (left ≤ x ∧ x < right) := by
  obtain ⟨a, m, b, listed, down, further⟩ := exists_listed v0 v1 v2
  have rows : Row { scissor with left := left, right := right } a m b x y ↔
      Row scissor a m b x y := Iff.rfl
  rw [drawn_iff listed down further, drawn_iff listed down further, rows]
  exact and_right_comm

end RabbitRender.Raster.Tiles
