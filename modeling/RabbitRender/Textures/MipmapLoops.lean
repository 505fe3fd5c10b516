/- RabbitRender/Textures/MipmapLoops
   layer: proof
   source: swrender/mipmap.cpp
   digest: The elements that the loops of mipmap generation read and write, in closed form. -/

import RabbitRender.Textures.Mipmaps

set_option autoImplicit false

namespace RabbitRender.Textures.MipmapLoops

open Lib.ByteMemory Textures.Mipmaps

/-- Element `c` of texel `(x, y)`, where texels have `skip` elements and rows are `stride` texels
apart. -/
def element (skip stride x y c : Nat) : Nat := (y * stride + x) * skip + c

/-- The step for element `c` of texel `(x, y)` of the new level. -/
def stepAt (skip bs w x y c : Nat) : Step where
  p00 := element skip bs (2 * x) (2 * y) c
  p10 := element skip bs (2 * x + 1) (2 * y) c
  p01 := element skip bs (2 * x) (2 * y + 1) c
  p11 := element skip bs (2 * x + 1) (2 * y + 1) c
  dst := x + y * (w * skip) + c

theorem texelSteps_eq (skip bs w x y : Nat) :
    texelSteps skip (bs * skip) (y * 2 * (bs * skip) + x * (2 * skip)) x (y * (w * skip)) =
      (List.range skip).map (stepAt skip bs w x y) := by
  apply List.map_congr_left
  intro c _
  simp only [stepAt, element, Step.mk.injEq, and_true]
  refine ⟨?_, ?_, ?_, ?_⟩ <;> ring

variable {skip x w : Nat} {s : Step} {f : Filter}

theorem mem_rowSteps {bs base : Nat} {n offset : Nat} :
    s ∈ rowSteps skip bs base n x offset ↔
      ∃ k < n, s ∈ texelSteps skip bs (offset + k * (2 * skip)) (x + k) base := by
  induction n generalizing x offset with
  | zero => simp [rowSteps]
  | succ n ih =>
    rw [rowSteps, List.mem_append, ih]
    constructor
    · rintro (first | ⟨k, hk, later⟩)
      · exact ⟨0, Nat.succ_pos n, by simpa using first⟩
      · refine ⟨k + 1, Nat.succ_lt_succ hk, ?_⟩
        have place : offset + (k + 1) * (2 * skip) = offset + 2 * skip + k * (2 * skip) := by ring
        rwa [place, Nat.add_comm k 1, ← Nat.add_assoc]
    · rintro ⟨k, hk, member⟩
      cases k with
      | zero => exact .inl (by simpa using member)
      | succ k =>
        refine .inr ⟨k, Nat.lt_of_succ_lt_succ hk, ?_⟩
        have place : offset + 2 * skip + k * (2 * skip) = offset + (k + 1) * (2 * skip) := by ring
        rwa [place, Nat.add_assoc, Nat.add_comm 1 k]

theorem mem_levelSteps {bs h : Nat} :
    s ∈ levelSteps skip bs w h ↔ ∃ y < h, ∃ x < w, ∃ c < skip, s = stepAt skip bs w x y c := by
  simp only [levelSteps, List.mem_flatMap, List.mem_range, mem_rowSteps, Nat.zero_add,
    texelSteps_eq, List.mem_map]
  constructor
  all_goals
    rintro ⟨y, hy, x, hx, c, hc, rfl⟩
    exact ⟨y, hy, x, hx, c, hc, rfl⟩

def value (f : Filter) (src : Memory) (s : Step) : Nat :=
  (f.box (f.read src s.p00) (f.read src s.p10) (f.read src s.p01) (f.read src s.p11)).toNat

theorem load_steps (f : Filter) (src dst : Memory) {steps : List Step} (member : s ∈ steps)
    (only : ∀ t ∈ steps, t.dst = s.dst → t = s) :
    load (steps.foldl (f.step src) dst) (s.dst * f.bytes : Nat) f.bytes =
      value f src s % 2 ^ (f.bytes * 8) := by
  induction steps using List.reverseRecOn with
  | nil => exact absurd member List.not_mem_nil
  | append_singleton steps t ih =>
    rw [List.foldl_append, List.foldl_cons, List.foldl_nil, Filter.step]
    by_cases same : t.dst = s.dst
    · obtain rfl := only t (List.mem_append_right _ List.mem_cons_self) same
      exact load_store _ _ _ _
    · have earlier : s ∈ steps := by
        rcases List.mem_append.mp member with earlier | last
        · exact earlier
        · exact absurd (congrArg Step.dst (List.mem_singleton.mp last)).symm same
      have apart : (s.dst * f.bytes : Nat) + (f.bytes : Int) ≤ (t.dst * f.bytes : Nat) ∨
          (t.dst * f.bytes : Nat) + (f.bytes : Int) ≤ (s.dst * f.bytes : Nat) := by
        rcases Nat.lt_or_gt_of_ne same with below | above
        · have next := Nat.mul_le_mul_right f.bytes below
          rw [Nat.succ_mul] at next
          omega
        · have next := Nat.mul_le_mul_right f.bytes above
          rw [Nat.succ_mul] at next
          omega
      rw [load_store_apart apart]
      exact ih earlier fun u hu => only u (List.mem_append_left _ hu)

theorem element_inj {y c x' y' c' : Nat} (hx : x < w) (hx' : x' < w) (hc : c < skip)
    (hc' : c' < skip) (same : element skip w x y c = element skip w x' y' c') :
    x = x' ∧ y = y' ∧ c = c' := by
  have texel : y * w + x = y' * w + x' := by
    have quotient := congrArg (· / skip) same
    have positive : 0 < skip := by omega
    simpa only [element, Nat.mul_comm _ skip, Nat.mul_add_div positive, Nat.div_eq_of_lt hc,
      Nat.div_eq_of_lt hc', Nat.add_zero] using quotient
  have row : y = y' := by
    have quotient := congrArg (· / w) texel
    have positive : 0 < w := by omega
    simpa only [Nat.mul_comm _ w, Nat.mul_add_div positive, Nat.div_eq_of_lt hx,
      Nat.div_eq_of_lt hx', Nat.add_zero] using quotient
  subst row
  have column : x = x' := Nat.add_left_cancel texel
  subst column
  exact ⟨rfl, rfl, Nat.add_left_cancel same⟩

theorem dst_eq_element (fits : skip = 1 ∨ w = 1) (bs : Nat) (hx : x < w) (y c : Nat) :
    (stepAt skip bs w x y c).dst = element skip w x y c := by
  rcases fits with rfl | rfl
  · simp only [stepAt, element, Nat.mul_one]
    omega
  · obtain rfl := Nat.lt_one_iff.mp hx
    simp only [stepAt, element, Nat.one_mul, Nat.mul_one, Nat.add_zero, Nat.zero_add]

theorem load_produce (fits : f.skip = 1 ∨ w = 1) (src dst : Memory) (bs : Nat) {h y c : Nat}
    (hx : x < w) (hy : y < h) (hc : c < f.skip) :
    load (f.produce src dst bs w h) (element f.skip w x y c * f.bytes : Nat) f.bytes =
      value f src (stepAt f.skip bs w x y c) % 2 ^ (f.bytes * 8) := by
  rw [← dst_eq_element fits bs hx y c, Filter.produce]
  apply load_steps
  · exact mem_levelSteps.mpr ⟨y, hy, x, hx, c, hc, rfl⟩
  · intro t member same
    obtain ⟨y', -, x', hx', c', hc', rfl⟩ := mem_levelSteps.mp member
    rw [dst_eq_element fits bs hx' y' c', dst_eq_element fits bs hx y c] at same
    obtain ⟨rfl, rfl, rfl⟩ := element_inj hx' hx hc' hc same
    rfl

theorem steps_outside (src dst : Memory) {steps : List Step} {a : Int}
    (outside : ∀ s ∈ steps, a < (s.dst * f.bytes : Nat) ∨
      (s.dst * f.bytes : Nat) + (f.bytes : Int) ≤ a) : steps.foldl (f.step src) dst a = dst a := by
  induction steps generalizing dst with
  | nil => rfl
  | cons s steps ih =>
    rw [List.foldl_cons, ih _ fun t ht => outside t (List.mem_cons_of_mem s ht)]
    exact store_outside (outside s List.mem_cons_self)

theorem read_toNat (small : f.bytes ≤ 4) (src : Memory) (i : Nat) :
    (f.read src i).toNat = load src (i * f.bytes : Nat) f.bytes := by
  rw [Filter.read, BitVec.toNat_ofNat]
  apply Nat.mod_eq_of_lt
  exact (load_lt _ _ _).trans_le (Nat.pow_le_pow_right Nat.two_pos (by omega))

end RabbitRender.Textures.MipmapLoops
