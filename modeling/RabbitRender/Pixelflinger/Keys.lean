/- RabbitRender/Pixelflinger/Keys
   layer: proof
   source: include/ggl_context.h, libpixelflinger/picker.cpp
   digest: What the packed key records, and what a pick keeps of an earlier one. -/

import RabbitRender.Pixelflinger.Picker
import Mathlib.Tactic.FinCases

set_option autoImplicit false

namespace RabbitRender.Pixelflinger.Keys

open Lib.BitFields Pixelflinger.State Pixelflinger.Picker

theorem format_fits (f : Format) : f.val % 2 ^ Needs.cbFormat.size = f.val :=
  Nat.mod_eq_of_lt (f.isLt.trans (by decide))

theorem read_cbFormat_build (f : Format) :
    Needs.cbFormat.read (Needs.cbFormat.build 32 f.val) = f.val := by
  rw [Field.read_build_self (by decide), format_fits]

theorem read_cbFormat_pipelineNeeds (c : Context) (w : Bool) :
    Needs.cbFormat.read (pipelineNeeds c w) = c.color.format.val := by
  simp (disch := decide) only [pipelineNeeds, Field.read_or, read_cbFormat_build,
    Field.read_build_apart, Nat.or_zero]

theorem read_w_pipelineNeeds (c : Context) (w : Bool) :
    Needs.w.read (pipelineNeeds c w) = w.toNat := by
  have bit : w.toNat % 2 ^ Needs.w.size = w.toNat := by cases w <;> rfl
  simp (disch := decide) only [pipelineNeeds, Field.read_or, Field.read_build_self, bit,
    Field.read_build_apart, Nat.or_zero, Nat.zero_or]

def rest (n : BitVec 32) : BitVec 32 := Needs.w.clear (Needs.cbFormat.clear n)

theorem rest_pipelineNeeds (c : Context) (w w' : Bool) :
    rest (pipelineNeeds c w) = rest (pipelineNeeds c w') := by
  simp (disch := decide) only [rest, pipelineNeeds, Field.clear_or, Field.clear_build_self,
    Field.clear_build_apart]

theorem eq_pipelineNeeds {c : Context} {w : Bool} {n : BitVec 32}
    (hrest : rest n = rest (pipelineNeeds c w))
    (hformat : Needs.cbFormat.read n = c.color.format.val) (hw : Needs.w.read n = w.toNat) :
    n = pipelineNeeds c w := by
  have same : Needs.w.clear n = Needs.w.clear (pipelineNeeds c w) := by
    apply Field.eq_of_clear_eq (f := Needs.cbFormat)
    · rw [Field.clear_clear Needs.cbFormat, Field.clear_clear Needs.cbFormat]
      exact hrest
    · rw [Field.read_clear_apart (by decide), Field.read_clear_apart (by decide), hformat,
        read_cbFormat_pipelineNeeds]
  exact Field.eq_of_clear_eq same (by rw [hw, read_w_pipelineNeeds])

def withFormat (n : BitVec 32) (f : Format) : BitVec 32 :=
  Needs.cbFormat.clear n ||| Needs.cbFormat.build 32 f.val

theorem rest_withFormat (n : BitVec 32) (f : Format) : rest (withFormat n f) = rest n := by
  have twice : Needs.cbFormat.clear (Needs.cbFormat.clear n) = Needs.cbFormat.clear n := by
    simp only [Field.clear, BitVec.and_assoc, BitVec.and_self]
  simp only [rest, withFormat, Field.clear_or, twice, Field.clear_build_self, BitVec.or_zero]

theorem read_withFormat (n : BitVec 32) (f : Format) :
    Needs.cbFormat.read (withFormat n f) = f.val := by
  have cleared : Needs.cbFormat.read (Needs.cbFormat.clear n) = 0 := by
    simp [Field.read, Field.clear, BitVec.and_assoc]
  rw [withFormat, Field.read_or, cleared, read_cbFormat_build, Nat.zero_or]

theorem read_w_withFormat (n : BitVec 32) (f : Format) :
    Needs.w.read (withFormat n f) = Needs.w.read n := by
  rw [withFormat, Field.read_or, Field.read_clear_apart (by decide),
    Field.read_build_apart (by decide), Nat.or_zero]

theorem read_tFormat_unitNeeds (tx : Texture) :
    Needs.tFormat.read (unitNeeds tx) = tx.surface.format.val := by
  have format : Needs.tFormat.read (Needs.tFormat.build 32 tx.surface.format.val) =
      tx.surface.format.val := read_cbFormat_build _
  have linear (b : Prop) [Decidable b] :
      Needs.tFormat.read (if b then Needs.tLinear.build 32 1 else 0) = 0 := by
    split <;> rfl
  simp (disch := decide) only [unitNeeds, Field.read_or, format, linear, Field.read_build_apart,
    Nat.or_zero]

def slot (units : Fin 2 → Bool) (i : Fin 2) : Fin 2 := if units 0 then i else 0

variable {texture : Fin 2 → Texture}

theorem textureNeeds_slot (t : Fin 2 → BitVec 32) {i : Fin 2} (enabled : (texture i).enable = true) :
    textureNeeds texture t (slot (fun i => (texture i).enable) i) = unitNeeds (texture i) := by
  fin_cases i <;> cases h0 : (texture 0).enable <;> cases h1 : (texture 1).enable <;>
    simp_all [textureNeeds, packUnit, slot, Function.update]

theorem textureNeeds_eq {t : Fin 2 → BitVec 32}
    (stale : (fun i => (texture i).enable) = ![false, true] → t 1 = 0) :
    textureNeeds texture t = textureNeeds texture fun _ => 0 := by
  have second : (texture 0).enable = false → (texture 1).enable = true → t 1 = 0 := by
    intro off on
    apply stale
    funext i
    fin_cases i <;> assumption
  funext i
  fin_cases i <;> cases h0 : (texture 0).enable <;> cases h1 : (texture 1).enable <;>
    simp_all [textureNeeds, packUnit, Function.update]

theorem textureNeeds_congr {texture' : Fin 2 → Texture} (t : Fin 2 → BitVec 32)
    (enable : ∀ i, (texture' i).enable = (texture i).enable)
    (key : ∀ i, unitNeeds (texture' i) = unitNeeds (texture i)) :
    textureNeeds texture' t = textureNeeds texture t := by
  simp only [textureNeeds, List.foldl_cons, List.foldl_nil, packUnit, enable, key]

end RabbitRender.Pixelflinger.Keys
