/- RabbitRender/Pixelflinger/StepAgreement
   layer: proofs
   source: libpixelflinger/scanline.cpp
   digest: Rows reached by steps hold the values the iterators have when they are started there. -/

import Mathlib.Data.Int.ModEq
import Mathlib.Tactic.FinCases
import Mathlib.Tactic.LinearCombination
import RabbitRender.Pixelflinger.Stepping

set_option autoImplicit false

namespace RabbitRender.Pixelflinger.StepAgreement

open Fixed Pixelflinger.State Pixelflinger.Stepping
open Textures.TexelFetch (rescale)

theorem wrap32_modEq (x : Int) : wrap32 x ≡ x [ZMOD 2 ^ 32] := Int.bmod_emod

private theorem advance_modEq (v dv : Int) : advance v dv ≡ v + dv [ZMOD 2 ^ 32] :=
  wrap32_modEq _

private theorem interpolate_row (ys k v0 dvdx dvdy : Int) :
    Textures.TexelFetch.interpolate (ys + k) v0 dvdx dvdy ≡
      Textures.TexelFetch.interpolate ys v0 dvdx dvdy + k * dvdy [ZMOD 2 ^ 32] := by
  unfold Textures.TexelFetch.interpolate
  calc wrap32 ((ys + k) * dvdy + (v0 + wrap32 (dvdy + dvdx) >>> (1 : Nat)))
      ≡ (ys + k) * dvdy + (v0 + wrap32 (dvdy + dvdx) >>> (1 : Nat)) [ZMOD 2 ^ 32] :=
        wrap32_modEq _
    _ = ys * dvdy + (v0 + wrap32 (dvdy + dvdx) >>> (1 : Nat)) + k * dvdy := by ring
    _ ≡ wrap32 (ys * dvdy + (v0 + wrap32 (dvdy + dvdx) >>> (1 : Nat))) + k * dvdy
        [ZMOD 2 ^ 32] := (wrap32_modEq _).symm.add_right _

theorem shift_sum (a b : Int) (k n : Nat) :
    ∃ e : Nat, e ≤ k ∧ (a + k * b) >>> n = a >>> n + k * (b >>> n) + e := by
  have pos : (0 : Int) < 2 ^ n := Int.pow_pos (by decide)
  have low : 0 ≤ a % 2 ^ n + k * (b % 2 ^ n) :=
    Int.add_nonneg (Int.emod_nonneg a pos.ne')
      (Int.mul_nonneg (Int.natCast_nonneg k) (Int.emod_nonneg b pos.ne'))
  have high : a % 2 ^ n + k * (b % 2 ^ n) < (k + 1 : Int) * 2 ^ n := by
    have first : a % 2 ^ n < 2 ^ n := Int.emod_lt_of_pos a pos
    have others : (k : Int) * (b % 2 ^ n) ≤ k * 2 ^ n :=
      Int.mul_le_mul_of_nonneg_left (Int.emod_lt_of_pos b pos).le (Int.natCast_nonneg k)
    linarith
  have split : a + k * b = a % 2 ^ n + k * (b % 2 ^ n) + 2 ^ n * (a / 2 ^ n + k * (b / 2 ^ n)) := by
    have first := Int.emod_add_mul_ediv a (2 ^ n)
    have others := Int.emod_add_mul_ediv b (2 ^ n)
    linear_combination -first - (k : Int) * others
  refine ⟨((a % 2 ^ n + k * (b % 2 ^ n)) / 2 ^ n).toNat, ?_, ?_⟩
  · have bound := Int.ediv_lt_of_lt_mul pos high
    omega
  · simp only [Int.shiftRight_eq_div_pow]
    push_cast
    rw [Int.toNat_of_nonneg (Int.ediv_nonneg low pos.le), split,
      Int.add_mul_ediv_left _ _ pos.ne']
    ring

/-- The shift to the right of a coordinate, none where it is shifted to the left. -/
def rightShift (scale : Int) : Nat := (-scale).toNat

/-- Rescaled steps against the rescaled sum: what the shift drops shows in the low bits, and what
wraps shows in the high ones. -/
theorem rescale_row {v v' dv : Int} {k : Nat} (row : v' ≡ v + k * dv [ZMOD 2 ^ 32]) (scale : Int) :
    ∃ e : Nat, e ≤ k ∧ (rightShift scale = 0 → e = 0) ∧
      rescale v' scale ≡ rescale v scale + k * rescale dv scale + e
        [ZMOD 2 ^ (32 - rightShift scale)] := by
  unfold rightShift
  by_cases left : 0 ≤ scale
  · have none : (-scale).toNat = 0 := by omega
    refine ⟨0, Nat.zero_le k, fun _ => rfl, ?_⟩
    simp only [rescale, if_pos left, none, Nat.sub_zero, Nat.cast_zero, add_zero]
    calc wrap32 (v' * 2 ^ scale.toNat)
        ≡ v' * 2 ^ scale.toNat [ZMOD 2 ^ 32] := wrap32_modEq _
      _ ≡ (v + k * dv) * 2 ^ scale.toNat [ZMOD 2 ^ 32] := row.mul_right _
      _ = v * 2 ^ scale.toNat + k * (dv * 2 ^ scale.toNat) := by ring
      _ ≡ wrap32 (v * 2 ^ scale.toNat) + k * wrap32 (dv * 2 ^ scale.toNat) [ZMOD 2 ^ 32] :=
        (wrap32_modEq _).symm.add ((wrap32_modEq _).symm.mul_left _)
  · obtain ⟨e, bound, dropped⟩ := shift_sum v dv k (-scale).toNat
    refine ⟨e, bound, fun none => absurd none (by omega), ?_⟩
    simp only [rescale, if_neg left]
    rw [← dropped]
    by_cases wide : (-scale).toNat ≤ 32
    · obtain ⟨q, wrapped⟩ := row.symm.dvd
      have power : (2 : Int) ^ 32 = 2 ^ (-scale).toNat * 2 ^ (32 - (-scale).toNat) := by
        rw [← pow_add, Nat.add_sub_cancel' wide]
      have sum : v' = v + k * dv + 2 ^ (-scale).toNat * (2 ^ (32 - (-scale).toNat) * q) := by
        rw [← mul_assoc, ← power]
        linarith
      have pos : (0 : Int) < 2 ^ (-scale).toNat := Int.pow_pos (by decide)
      simp only [Int.shiftRight_eq_div_pow]
      push_cast
      rw [sum, Int.add_mul_ediv_left _ _ pos.ne']
      exact Int.modEq_add_fac_self
    · have one : 32 - (-scale).toNat = 0 := by omega
      rw [one, pow_zero]
      exact Int.modEq_one

structure Same (m m' : Rasterizer) : Prop where
  context : m'.context = m.context
  shade : m'.shade = m.shade
  dvdy : ∀ i j, (m'.texIterators i j).dvdy = (m.texIterators i j).dvdy

private theorem stepUnits_dvdy (m : Rasterizer) (i : Fin 2) (j : Coord) :
    (stepUnits m i j).dvdy = (m.texIterators i j).dvdy := by
  unfold stepUnits
  split <;> rfl

variable {m : Rasterizer} {c : Context}

theorem Same.stepY {m' : Rasterizer} (same : Same m m') : Same m (stepY m') := by
  have kept : Same m' (Stepping.stepY m') := by
    unfold Stepping.stepY
    cases m'.context.stepY with
    | generic =>
      refine ⟨rfl, rfl, fun i j => ?_⟩
      unfold stepYGeneric
      dsimp only
      split
      · exact stepUnits_dvdy m' i j
      · rfl
    | tmu => exact ⟨rfl, rfl, stepUnits_dvdy m'⟩
    | nop | smooth | w => exact ⟨rfl, rfl, fun _ _ => rfl⟩
  exact ⟨kept.context.trans same.context, kept.shade.trans same.shade,
    fun i j => (kept.dvdy i j).trans (same.dvdy i j)⟩

theorem rows_same (m : Rasterizer) (k : Nat) : Same m (rows m k) := by
  induction k with
  | zero => exact ⟨rfl, rfl, fun _ _ => rfl⟩
  | succ k ih =>
    unfold rows at ih ⊢
    rw [Function.iterate_succ_apply']
    exact ih.stepY

theorem rows_adds {f : Rasterizer → Int} {d : Int}
    (adds : ∀ m', Same m m' → f (stepY m') ≡ f m' + d [ZMOD 2 ^ 32]) (k : Nat) :
    f (rows m k) ≡ f m + k * d [ZMOD 2 ^ 32] := by
  induction k with
  | zero => simp [rows]
  | succ k ih =>
    have last : rows m (k + 1) = stepY (rows m k) := Function.iterate_succ_apply' stepY k m
    rw [last]
    calc f (stepY (rows m k))
        ≡ f (rows m k) + d [ZMOD 2 ^ 32] := adds _ (rows_same m k)
      _ ≡ f m + k * d + d [ZMOD 2 ^ 32] := ih.add_right d
      _ = f m + (k + 1 : Nat) * d := by
        push_cast
        ring

theorem rows_keep {α : Type} {f : Rasterizer → α} (keep : ∀ m', Same m m' → f (stepY m') = f m')
    (k : Nat) : f (rows m k) = f m := by
  induction k with
  | zero => rfl
  | succ k ih =>
    have last : rows m (k + 1) = stepY (rows m k) := Function.iterate_succ_apply' stepY k m
    rw [last, keep _ (rows_same m k), ih]

private theorem pickStepY_w (w : c.enables .w = true) (tmus : c.enables .tmus = true) :
    pickStepY c = .generic ∨ pickStepY c = .w := by
  simp only [pickStepY, w, tmus, if_true]
  split
  · exact .inl rfl
  · split
    · exact .inl rfl
    · exact .inr rfl

private theorem pickStepY_smooth (smooth : c.enables .smooth = true) :
    pickStepY c = .generic ∨ pickStepY c = .smooth := by
  simp only [pickStepY, smooth, if_true]
  split
  · exact .inl rfl
  · split
    · exact .inl rfl
    · exact .inr rfl

private theorem pickStepY_tmus (tmus : c.enables .tmus = true) (w : c.enables .w = false) :
    pickStepY c = .generic ∨ pickStepY c = .tmu := by
  simp only [pickStepY, w, tmus, if_true]
  split
  · exact .inl rfl
  · split
    · exact .inl rfl
    · exact .inr rfl

private theorem stepY_depth (deep : startsDepth m.context = true) :
    (stepY m).iterators.ydzdy = advance m.iterators.ydzdy m.shade.z.dvdy := by
  unfold stepY
  cases m.context.stepY with
  | generic =>
    simp only [stepYGeneric, deep, if_true]
    split <;> rfl
  | nop => rfl
  | smooth => rfl
  | tmu => rfl
  | w => rfl

private theorem stepY_w (deep : startsDepth m.context = true)
    (picked : m.context.stepY = .generic ∨ m.context.stepY = .w) :
    (stepY m).iterators.ydwdy = advance m.iterators.ydwdy m.shade.w.dvdy := by
  unfold stepY
  rcases picked with picked | picked
  · rw [picked]
    simp only [stepYGeneric, deep, if_true]
    split <;> rfl
  · rw [picked]
    rfl

private theorem stepY_fog (deep : startsDepth m.context = true)
    (picked : m.context.stepY = .generic) :
    (stepY m).iterators.ydfdy = advance m.iterators.ydfdy m.shade.f.dvdy := by
  unfold stepY
  rw [picked]
  simp only [stepYGeneric, deep, if_true]
  split <;> rfl

private theorem stepColors_color (s : Shade) (ci : Iterators) (i : Component) :
    color (stepColors s ci) i = advance (color ci i) (shadeColor s i).dvdy := by
  fin_cases i <;> rfl

private theorem stepY_color (smooth : m.context.enables .smooth = true)
    (picked : m.context.stepY = .generic ∨ m.context.stepY = .smooth) (i : Component) :
    color (stepY m).iterators i = advance (color m.iterators i) (shadeColor m.shade i).dvdy := by
  unfold stepY
  rcases picked with picked | picked
  · rw [picked]
    simp only [stepYGeneric, smooth, if_true]
    split
    all_goals exact stepColors_color m.shade (stepRow m.iterators) i
  · rw [picked]
    exact stepColors_color m.shade (stepRow m.iterators) i

private theorem stepY_coord (tmus : m.context.enables .tmus = true)
    (w : m.context.enables .w = false)
    (picked : m.context.stepY = .generic ∨ m.context.stepY = .tmu) {i : Fin 2}
    (enable : (m.context.texture i).enable = true) (j : Coord) :
    ((stepY m).texIterators i j).ydvdy =
      advance (m.texIterators i j).ydvdy (m.texIterators i j).dvdy := by
  have stepped : (stepUnits m i j).ydvdy =
      advance (m.texIterators i j).ydvdy (m.texIterators i j).dvdy := by
    simp only [stepUnits, enable, if_true]
  unfold stepY
  rcases picked with picked | picked
  · rw [picked]
    simpa only [stepYGeneric, tmus, w, Bool.not_false, Bool.and_self, if_true] using stepped
  · rw [picked]
    exact stepped

private theorem gradient_agrees {f : Rasterizer → Int} {d : Gradient}
    (first : ∀ y, f (initY m y) = interpolate y d) {ys : Int}
    (adds : ∀ m', Same (initY m ys) m' → f (stepY m') = advance (f m') d.dvdy) (k : Nat) :
    f (rows (initY m ys) k) ≡ f (initY m (ys + k)) [ZMOD 2 ^ 32] := by
  have stepped : f (rows (initY m ys) k) ≡ f (initY m ys) + k * d.dvdy [ZMOD 2 ^ 32] := by
    apply rows_adds
    intro m' same
    rw [adds m' same]
    exact advance_modEq _ _
  rw [first] at stepped ⊢
  exact stepped.trans (interpolate_row ys k _ _ _).symm

private theorem initY_depth (deep : startsDepth m.context = true) (ys : Int) (k : Nat) :
    (rows (initY m ys) k).iterators.ydzdy ≡
      (initY m (ys + k)).iterators.ydzdy [ZMOD 2 ^ 32] := by
  apply gradient_agrees (f := fun m' => m'.iterators.ydzdy) (d := m.shade.z)
  · intro y
    simp only [initY, initIterators, deep, if_true]
  · intro m' same
    have deep' : startsDepth m'.context = true := by rwa [same.context]
    have shade : m'.shade = m.shade := same.shade
    rw [stepY_depth deep', shade]

private theorem initY_w (w : m.context.enables .w = true) (tmus : m.context.enables .tmus = true)
    (ys : Int) (k : Nat) :
    (rows (initY m ys) k).iterators.ydwdy ≡ (initY m (ys + k)).iterators.ydwdy [ZMOD 2 ^ 32] := by
  have deep : startsDepth m.context = true := by simp [startsDepth, w]
  apply gradient_agrees (f := fun m' => m'.iterators.ydwdy) (d := m.shade.w)
  · intro y
    simp only [initY, initIterators, deep, if_true]
  · intro m' same
    have deep' : startsDepth m'.context = true := by rwa [same.context]
    have picked : m'.context.stepY = .generic ∨ m'.context.stepY = .w := by
      rw [same.context]
      exact pickStepY_w w tmus
    have shade : m'.shade = m.shade := same.shade
    rw [stepY_w deep' picked, shade]

private theorem initY_fog (fog : m.context.enables .fog = true) (ys : Int) (k : Nat) :
    (rows (initY m ys) k).iterators.ydfdy ≡
      (initY m (ys + k)).iterators.ydfdy [ZMOD 2 ^ 32] := by
  have deep : startsDepth m.context = true := by simp [startsDepth, fog]
  apply gradient_agrees (f := fun m' => m'.iterators.ydfdy) (d := m.shade.f)
  · intro y
    simp only [initY, initIterators, deep, if_true]
  · intro m' same
    have deep' : startsDepth m'.context = true := by rwa [same.context]
    have picked : m'.context.stepY = .generic := by
      rw [same.context]
      simp only [initY, pickStepY, fog, if_true]
    have shade : m'.shade = m.shade := same.shade
    rw [stepY_fog deep' picked, shade]

private theorem initY_color (smooth : m.context.enables .smooth = true) (ys : Int) (k : Nat)
    (i : Component) :
    color (rows (initY m ys) k).iterators i ≡ color (initY m (ys + k)).iterators i
      [ZMOD 2 ^ 32] := by
  apply gradient_agrees (f := fun m' => color m'.iterators i) (d := shadeColor m.shade i)
  · intro y
    simp only [initY, initIterators, smooth, if_true, color, shadeColor]
    fin_cases i <;> rfl
  · intro m' same
    have smooth' : m'.context.enables .smooth = true := by rwa [same.context]
    have picked : m'.context.stepY = .generic ∨ m'.context.stepY = .smooth := by
      rw [same.context]
      exact pickStepY_smooth smooth
    have shade : m'.shade = m.shade := same.shade
    rw [stepY_color smooth' picked, shade]

/-- How far `init_y` shifts a coordinate to the right. -/
def coordShift (m : Rasterizer) (i : Fin 2) (j : Coord) : Nat :=
  if OneToOne (m.context.texture i) then 0
  else rightShift (adjustedScale (m.context.texture i) (m.texShade i) j)

private theorem initY_coord (tmus : m.context.enables .tmus = true)
    (w : m.context.enables .w = false) {i : Fin 2} (enable : (m.context.texture i).enable = true)
    (ys : Int) (k : Nat) (j : Coord) :
    ∃ e : Nat, e ≤ k ∧ (coordShift m i j = 0 → e = 0) ∧
      ((initY m (ys + k)).texIterators i j).ydvdy ≡
        ((rows (initY m ys) k).texIterators i j).ydvdy + e [ZMOD 2 ^ (32 - coordShift m i j)] := by
  have adds := rows_adds (f := fun m' => (m'.texIterators i j).ydvdy)
    (d := ((initY m ys).texIterators i j).dvdy) (m := initY m ys) (fun m' same => by
      have tmus' : m'.context.enables .tmus = true := by rwa [same.context]
      have w' : m'.context.enables .w = false := by rwa [same.context]
      have enable' : (m'.context.texture i).enable = true := by rwa [same.context]
      have picked : m'.context.stepY = .generic ∨ m'.context.stepY = .tmu := by
        rw [same.context]
        exact pickStepY_tmus tmus w
      rw [stepY_coord tmus' w' picked enable', same.dvdy]
      exact advance_modEq _ _) k
  have first (y : Int) : (initY m y).texIterators i j =
      initCoord m.context (m.context.texture i) (m.texShade i) y j (m.texIterators i j) := by
    simp only [initY, initUnits, tmus, enable, Bool.and_self, if_true]
  have narrow : (2 : Int) ^ (32 - coordShift m i j) ∣ 2 ^ 32 := pow_dvd_pow 2 (Nat.sub_le _ _)
  rw [first] at adds ⊢
  by_cases mapped : OneToOne (m.context.texture i)
  · refine ⟨0, Nat.zero_le k, fun _ => rfl, ?_⟩
    simp only [initCoord, if_pos mapped, mul_zero, add_zero] at adds ⊢
    simpa using (adds.of_dvd narrow).symm
  · have shift : coordShift m i j =
        rightShift (adjustedScale (m.context.texture i) (m.texShade i) j) := if_neg mapped
    obtain ⟨e, bound, exact, same⟩ := rescale_row
      (interpolate_row ys k (m.texShade i j).v (m.texShade i j).dx (m.texShade i j).dy)
      (adjustedScale (m.context.texture i) (m.texShade i) j)
    rw [← shift] at exact same
    refine ⟨e, bound, exact, ?_⟩
    simp only [initCoord, if_neg mapped, w] at adds ⊢
    exact same.trans ((adds.of_dvd narrow).symm.add_right _)

/-- The iterators that the enabled stages consume, after `k` steps and when they are started at the
row itself. Nothing reads the depth of a row that `init_y` does not start. Of a coordinate that is
shifted to the right, each step drops less than a unit. -/
structure RowAgrees (m stepped direct : Rasterizer) (k : Nat) : Prop where
  z : m.context.initY = .initY → m.context.enables .depthTest = true →
    stepped.iterators.ydzdy ≡ direct.iterators.ydzdy [ZMOD 2 ^ 32]
  w : m.context.enables .w = true → m.context.enables .tmus = true →
    stepped.iterators.ydwdy ≡ direct.iterators.ydwdy [ZMOD 2 ^ 32]
  f : m.context.enables .fog = true →
    stepped.iterators.ydfdy ≡ direct.iterators.ydfdy [ZMOD 2 ^ 32]
  color : m.context.enables .smooth = true → ∀ i,
    color stepped.iterators i ≡ color direct.iterators i [ZMOD 2 ^ 32]
  coord : m.context.enables .tmus = true → m.context.enables .w = false → ∀ i j,
    (m.context.texture i).enable = true →
    ∃ e : Nat, e ≤ k ∧ (coordShift m i j = 0 → e = 0) ∧
      (direct.texIterators i j).ydvdy ≡ (stepped.texIterators i j).ydvdy + e
        [ZMOD 2 ^ (32 - coordShift m i j)]

private theorem initY_agrees (m : Rasterizer) (ys : Int) (k : Nat) :
    RowAgrees m (rows (initY m ys) k) (initY m (ys + k)) k where
  z := by
    intro _ test
    exact initY_depth (by simp [startsDepth, test]) ys k
  w w tmus := initY_w w tmus ys k
  f fog := initY_fog fog ys k
  color smooth i := initY_color smooth ys k i
  coord tmus w _ j enable := initY_coord tmus w enable ys k j

private theorem kept_agrees {first direct : Rasterizer} (other : m.context.initY ≠ .initY)
    (stepper : first.context.stepY = .nop) (w : first.iterators.ydwdy = direct.iterators.ydwdy)
    (f : first.iterators.ydfdy = direct.iterators.ydfdy)
    (colors : color first.iterators = color direct.iterators)
    (coords : first.texIterators = direct.texIterators) (k : Nat) :
    RowAgrees m (rows first k) direct k := by
  have nop (m' : Rasterizer) (same : Same first m') : stepY m' = stepYNop m' := by
    unfold stepY
    rw [same.context, stepper]
  have keepW : (rows first k).iterators.ydwdy = first.iterators.ydwdy :=
    rows_keep (f := fun m' => m'.iterators.ydwdy) (fun m' same => by rw [nop m' same]; rfl) k
  have keepF : (rows first k).iterators.ydfdy = first.iterators.ydfdy :=
    rows_keep (f := fun m' => m'.iterators.ydfdy) (fun m' same => by rw [nop m' same]; rfl) k
  have keepColors : color (rows first k).iterators = color first.iterators :=
    rows_keep (f := fun m' => color m'.iterators) (fun m' same => by rw [nop m' same]; rfl) k
  have keepCoords : (rows first k).texIterators = first.texIterators :=
    rows_keep (f := fun m' => m'.texIterators) (fun m' same => by rw [nop m' same]; rfl) k
  refine ⟨fun picked => absurd picked other, fun _ _ => ?_, fun _ => ?_, fun _ i => ?_, ?_⟩
  · rw [keepW, w]
  · rw [keepF, f]
  · rw [keepColors, colors]
  · intro _ _ i j _
    refine ⟨0, Nat.zero_le k, fun _ => rfl, ?_⟩
    rw [keepCoords, coords]
    simp

theorem rows_agree (m : Rasterizer) (ys : Int) (k : Nat) :
    RowAgrees m (rows (start m ys) k) (start m (ys + k)) k := by
  unfold start
  cases picked : m.context.initY with
  | initY => exact initY_agrees m ys k
  | noop =>
    have other : m.context.initY ≠ .initY := by simp [picked]
    have stepper : (initYNoop m ys).context.stepY = .nop := rfl
    refine kept_agrees other stepper ?_ ?_ ?_ ?_ k <;> rfl
  | packed =>
    have other : m.context.initY ≠ .initY := by simp [picked]
    have stepper : (initYPacked m ys).context.stepY = .nop := rfl
    refine kept_agrees other stepper ?_ ?_ ?_ ?_ k <;> rfl
  | error =>
    have other : m.context.initY ≠ .initY := by simp [picked]
    have stepper : (initYError m ys).context.stepY = .nop := rfl
    refine kept_agrees other stepper ?_ ?_ ?_ ?_ k <;> rfl

private def gradient (dvdy : Int) : Gradient := ⟨0, 0, dvdy⟩

private def shadeZ (dzdy : Int) : Shade where
  a := gradient 0
  r := gradient 0
  g := gradient 0
  b := gradient 0
  z := gradient dzdy
  w := gradient 0
  f := gradient 0

private def started (c : Context) (dzdy : Int) (coord : CoordShade) : Rasterizer where
  context := c
  shade := shadeZ dzdy
  texShade _ _ := coord
  iterators := ⟨0, 1, 0, 0, 0, 0, 0, 0, 0, 0⟩
  texIterators _ _ := ⟨0, 0, 0, 0⟩
  packed := 0
  packed8888 := 0
  rect := .generic

private def surface565 : GGLSurface where
  width := 8
  height := 8
  stride := 8
  format := Format.rgb565

private def drawn : Context := gglColorBuffer initContext surface565 true

/-- A flat fill, with a depth test that lets everything pass and writes nothing. -/
def depthAlways : Rasterizer :=
  let depth := gglDepthBuffer drawn { surface565 with format := Format.z16 }
  let tested := gglDepthFunc (gglEnableDepthTest depth true) GGL.always
  started (Picker.gglPick tested) 1 ⟨0, 0, 0, 0⟩

/-- A texture whose coordinates are generated in neither way, with an odd step that is shifted to
the right by one. -/
def oddSteps : Rasterizer :=
  let bound := gglBindTexture (gglEnableTexture2d drawn true) surface565
  let generated := gglTexGeni (gglTexGeni bound GGL.s GGL.textureGenMode 0) GGL.t
    GGL.textureGenMode 0
  started (Picker.gglPick generated) 0 ⟨0, 0, 1, -17⟩

theorem steps_differ :
    (depthAlways.context.enables .depthTest = true ∧
      ¬(rows (start depthAlways 0) 1).iterators.ydzdy ≡
        (start depthAlways (0 + 1)).iterators.ydzdy [ZMOD 2 ^ 32]) ∧
    (oddSteps.context.enables .tmus = true ∧ oddSteps.context.enables .w = false ∧
      (oddSteps.context.texture 0).enable = true ∧
      (oddSteps.context.texture 0).sCoord ≠ GGL.automatic ∧
      (oddSteps.context.texture 0).tCoord ≠ GGL.automatic ∧
      ¬((rows (start oddSteps 0) 2).texIterators 0 0).ydvdy ≡
        ((start oddSteps (0 + 2)).texIterators 0 0).ydvdy [ZMOD 2 ^ 32]) := by
  decide +kernel

end RabbitRender.Pixelflinger.StepAgreement
