/- RabbitRender/Tokens/TokenManager
   layer: model
   source: swrender/TokenManager.cpp
   digest: Tokens handed out are new, and recycled tokens are free again. -/

import Mathlib.Data.Finset.Card
import RabbitRender.Tokens.Tokenizer

set_option autoImplicit false

namespace RabbitRender.Tokens.TokenManager

open Tokens.Tokenizer

def init : Ranges := (reserve [] 0).1

/-- `getToken`: the loop that acquires `n` tokens. -/
def getToken : Nat → Ranges → Ranges × List UInt32
  | 0, m => (m, [])
  | n + 1, m =>
    let (m', token) := acquire m
    let (m'', tokens) := getToken n m'
    (m'', token :: tokens)

/-- `recycleTokens`: zero is skipped. -/
def recycleTokens (m : Ranges) (tokens : List UInt32) : Ranges :=
  tokens.foldl (fun m token => if token ≠ 0 then (release m token).1 else m) m

def isTokenValid (m : Ranges) (token : UInt32) : Bool := isAcquired m token

structure Reserved (m : Ranges) : Prop where
  valid : Valid m
  zero : 0 ∈ tokens m

theorem init_eq : init = [⟨0, 1⟩] := by decide +kernel

theorem reserved_init : Reserved init := by
  rw [init_eq]
  refine ⟨valid_of_tokens ?_ ?_, by decide⟩
  · exact ⟨by decide, List.pairwise_singleton _ _⟩
  · decide

variable {m : Ranges}

theorem isTokenValid_iff (r : Reserved m) (token : UInt32) :
    isTokenValid m token = true ↔ token.toNat ∈ tokens m :=
  isAcquired_iff r.valid token

private theorem exists_free {s : Finset Nat} {n : Nat} (h : s.card < n) : ∃ t < n, t ∉ s := by
  obtain ⟨t, ht, hfree⟩ := Finset.exists_mem_notMem_of_card_lt_card
    (s := s) (t := Finset.range n) (by rwa [Finset.card_range])
  exact ⟨t, Finset.mem_range.mp ht, hfree⟩

theorem acquire_free (r : Reserved m) (room : (tokens m).card + 1 < 2 ^ 32) :
    (acquire m).2.toNat ∉ tokens m ∧ Reserved (acquire m).1 ∧
      tokens (acquire m).1 = insert (acquire m).2.toNat (tokens m) := by
  obtain ⟨t, ht, hfree⟩ := exists_free (n := 2 ^ 32 - 1) (Nat.lt_sub_of_add_lt room)
  obtain ⟨value, valid, mem⟩ := acquire_spec r.valid ⟨t, Nat.add_lt_of_lt_sub ht, hfree⟩
  refine ⟨?_, ⟨valid, by rw [mem]; exact Finset.mem_insert_of_mem r.zero⟩, mem⟩
  rw [value]
  exact Nat.find_spec (Infinite.exists_notMem_finset (tokens m))

/-- What `getToken` promises while `n` tokens remain. -/
structure Fresh (m : Ranges) (out : Ranges × List UInt32) : Prop where
  reserved : Reserved out.1
  kept : tokens m ⊆ tokens out.1
  acquired : ∀ t ∈ out.2, t.toNat ∈ tokens out.1
  free : ∀ t ∈ out.2, t.toNat ∉ tokens m
  nodup : out.2.Nodup

theorem getToken_fresh (n : Nat) (r : Reserved m) (room : (tokens m).card + n < 2 ^ 32) :
    Fresh m (getToken n m) := by
  induction n generalizing m with
  | zero => exact ⟨r, Finset.Subset.refl _, by simp [getToken], by simp [getToken], by simp [getToken]⟩
  | succ n ih =>
    obtain ⟨hfree, reserved, mem⟩ := acquire_free r (by omega)
    have rest := ih reserved (by
      rw [mem, Finset.card_insert_of_notMem hfree]
      omega)
    have kept : tokens m ⊆ tokens (acquire m).1 := mem ▸ Finset.subset_insert _ _
    have taken : (acquire m).2.toNat ∈ tokens (acquire m).1 := mem ▸ Finset.mem_insert_self _ _
    refine ⟨rest.reserved, kept.trans rest.kept, ?_, ?_, ?_⟩
    · intro t ht
      rcases List.mem_cons.mp ht with rfl | ht
      · exact rest.kept taken
      · exact rest.acquired t ht
    · intro t ht
      rcases List.mem_cons.mp ht with rfl | ht
      · exact hfree
      · exact fun hmem => rest.free t ht (kept hmem)
    · exact List.nodup_cons.mpr ⟨fun hmem => rest.free _ hmem taken, rest.nodup⟩

private theorem recycle_one (r : Reserved m) (token : UInt32) :
    Reserved (if token ≠ 0 then (release m token).1 else m) ∧
      ∀ t, t ∈ tokens (if token ≠ 0 then (release m token).1 else m) ↔
        t ∈ tokens m ∧ (token ≠ 0 → t ≠ token.toNat) := by
  by_cases zero : token = 0
  · simpa [zero] using r
  rw [if_pos zero]
  have nonzero : 0 ≠ token.toNat := fun h => zero (UInt32.toNat_inj.mp h.symm)
  by_cases taken : token.toNat ∈ tokens m
  · obtain ⟨valid, mem, -⟩ := release_taken r.valid taken
    refine ⟨⟨valid, mem ▸ Finset.mem_erase.mpr ⟨nonzero, r.zero⟩⟩, fun t => ?_⟩
    rw [mem, Finset.mem_erase]
    tauto
  · rw [release_free r.valid taken]
    refine ⟨r, fun t => ⟨fun h => ⟨h, fun _ heq => taken (heq ▸ h)⟩, fun h => h.1⟩⟩

theorem recycleTokens_spec (ts : List UInt32) (r : Reserved m) :
    Reserved (recycleTokens m ts) ∧
      ∀ t, t ∈ tokens (recycleTokens m ts) ↔
        t ∈ tokens m ∧ ∀ u ∈ ts, u ≠ 0 → t ≠ u.toNat := by
  induction ts generalizing m with
  | nil => exact ⟨r, by simp [recycleTokens]⟩
  | cons u ts ih =>
    obtain ⟨reserved, mem⟩ := recycle_one r u
    obtain ⟨reserved', mem'⟩ := ih reserved
    refine ⟨reserved', fun t => ?_⟩
    rw [show recycleTokens m (u :: ts) = recycleTokens (if u ≠ 0 then (release m u).1 else m) ts
      from rfl, mem', mem, List.forall_mem_cons, and_assoc]

end RabbitRender.Tokens.TokenManager
