/- RabbitRender/Lib/Lanes
   layer: library
   digest: Words made of lanes, and the operations that act on all lanes at once. -/

import Mathlib.Data.Nat.Bitwise
import Mathlib.Tactic.Ring

set_option autoImplicit false

namespace RabbitRender.Lib.Lanes

/-- The word whose lanes have the given widths and values, the lowest lane first. -/
def pack : List Nat → List Nat → Nat
  | w :: ws, v :: vs => v + 2 ^ w * pack ws vs
  | _, _ => 0

def Fits : List Nat → List Nat → Prop := List.Forall₂ fun w v => v < 2 ^ w

@[simp] theorem pack_nil : pack [] [] = 0 := rfl

@[simp] theorem pack_cons (w v : Nat) (ws vs : List Nat) :
    pack (w :: ws) (v :: vs) = v + 2 ^ w * pack ws vs := rfl

@[simp] theorem fits_nil : Fits [] [] := .nil

variable {ws vs us : List Nat}

@[simp] theorem fits_cons {w v : Nat} : Fits (w :: ws) (v :: vs) ↔ v < 2 ^ w ∧ Fits ws vs := List.forall₂_cons

theorem pack_lt (h : Fits ws vs) : pack ws vs < 2 ^ ws.sum := by
  induction h with
  | nil => exact Nat.one_pos
  | @cons w v ws vs fits _ ih =>
    rw [pack_cons, List.sum_cons, Nat.pow_add]
    calc v + 2 ^ w * pack ws vs < 2 ^ w * (pack ws vs + 1) := by
          rw [Nat.mul_succ]
          omega
      _ ≤ 2 ^ w * 2 ^ ws.sum := Nat.mul_le_mul_left _ ih

theorem pack_add (hu : us.length = ws.length) (hv : vs.length = ws.length) :
    pack ws us + pack ws vs = pack ws (List.zipWith (· + ·) us vs) := by
  induction ws generalizing us vs with
  | nil =>
    rw [List.length_eq_zero_iff.mp hu, List.length_eq_zero_iff.mp hv]
    rfl
  | cons w ws ih =>
    obtain ⟨u, us, rfl⟩ := List.exists_cons_of_length_eq_add_one hu
    obtain ⟨v, vs, rfl⟩ := List.exists_cons_of_length_eq_add_one hv
    rw [List.zipWith_cons_cons, pack_cons, pack_cons, pack_cons,
      ← ih (Nat.succ.inj hu) (Nat.succ.inj hv)]
    ring

theorem toNat_add_pack {n : Nat} {x y : BitVec n} (hx : x.toNat = pack ws us)
    (hy : y.toNat = pack ws vs) (hu : us.length = ws.length) (hv : vs.length = ws.length)
    (fits : Fits ws (List.zipWith (· + ·) us vs)) (room : ws.sum ≤ n) :
    (x + y).toNat = pack ws (List.zipWith (· + ·) us vs) := by
  rw [BitVec.toNat_add, hx, hy, pack_add hu hv]
  exact Nat.mod_eq_of_lt ((pack_lt fits).trans_le (Nat.pow_le_pow_right Nat.two_pos room))

private theorem bitwise_lane {op : Nat → Nat → Nat} {f : Bool → Bool → Bool}
    (bits : ∀ a b i, (op a b).testBit i = f (a.testBit i) (b.testBit i)) {w a b : Nat} (x y : Nat)
    (ha : a < 2 ^ w) (hb : b < 2 ^ w) (hop : op a b < 2 ^ w) :
    op (a + 2 ^ w * x) (b + 2 ^ w * y) = op a b + 2 ^ w * op x y := by
  apply Nat.eq_of_testBit_eq
  intro i
  rw [bits, Nat.add_comm a, Nat.add_comm b, Nat.add_comm (op a b), Nat.testBit_two_pow_mul_add _ ha,
    Nat.testBit_two_pow_mul_add _ hb, Nat.testBit_two_pow_mul_add _ hop]
  split_ifs
  · exact (bits a b i).symm
  · exact (bits x y (i - w)).symm

def mask (ws : List Nat) (keep : List Bool) : Nat :=
  pack ws (List.zipWith (fun w k => if k then 2 ^ w - 1 else 0) ws keep)

theorem pack_and_mask {keep : List Bool} (fits : Fits ws vs) (length : keep.length = ws.length) :
    pack ws vs &&& mask ws keep = pack ws (List.zipWith (fun k v => if k then v else 0) keep vs) := by
  induction fits generalizing keep with
  | nil =>
    rw [List.length_eq_zero_iff.mp length]
    rfl
  | @cons w v ws vs fit fits ih =>
    obtain ⟨k, keep, rfl⟩ := List.exists_cons_of_length_eq_add_one length
    have rest := ih (Nat.succ.inj length)
    have all : 2 ^ w - 1 < 2 ^ w := Nat.sub_one_lt (Nat.two_pow_pos w).ne'
    rw [mask] at rest ⊢
    rw [List.zipWith_cons_cons, List.zipWith_cons_cons, pack_cons, pack_cons, pack_cons, ← rest]
    cases k with
    | true =>
      have whole : v &&& (2 ^ w - 1) = v := Nat.and_two_pow_sub_one_of_lt_two_pow fit
      rw [if_pos rfl, if_pos rfl,
        bitwise_lane Nat.testBit_and _ _ fit all (Nat.and_lt_two_pow _ all), whole]
    | false =>
      rw [if_neg Bool.false_ne_true, if_neg Bool.false_ne_true,
        bitwise_lane Nat.testBit_and _ _ fit (Nat.two_pow_pos w)
          (Nat.and_lt_two_pow _ (Nat.two_pow_pos w)), Nat.and_zero]

theorem pack_or (hu : Fits ws us) (hv : Fits ws vs) :
    pack ws us ||| pack ws vs = pack ws (List.zipWith (· ||| ·) us vs) := by
  induction hu generalizing vs with
  | nil =>
    cases hv
    rfl
  | @cons w u ws us fits _ ih =>
    cases hv with
    | @cons _ v _ vs fits' rest =>
      rw [List.zipWith_cons_cons, pack_cons, pack_cons, pack_cons, ← ih rest]
      exact bitwise_lane Nat.testBit_or _ _ fits fits' (Nat.or_lt_two_pow fits fits')

end RabbitRender.Lib.Lanes
