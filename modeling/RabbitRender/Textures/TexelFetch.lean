/- RabbitRender/Textures/TexelFetch
   layer: model
   source: libpixelflinger/scanline.cpp, include/ggl_context.h
   digest: The texels that a scanline reads along one axis, of a 1:1 mapping and of iterated
     coordinates. -/

import RabbitRender.Raster.Edges

set_option autoImplicit false

namespace RabbitRender.Textures.TexelFetch

open Fixed

/-- `s_coord` and `t_coord`, which are always set together. -/
inductive TexGen where
  | automatic
  | oneToOne
deriving DecidableEq, Repr

inductive Wrap where
  | tiled
  | clamp
deriving DecidableEq, Repr

/-- One coordinate of a unit: `is0`, `idsdx`, `idsdy`, `sscale` and `s_wrap`, or those of `t`. -/
structure Axis where
  i0 : Int
  idx : Int
  idy : Int
  scale : Int
  wrap : Wrap
deriving DecidableEq, Repr

structure TextureUnit where
  gen : TexGen
  s : Axis
  t : Axis
deriving DecidableEq, Repr

/-- The scanline that is picked. The generic one handles both filters. With the nearest filter there
are shortcuts that read the row of a 1:1 mapping in place, and others that clamp with
`clamp_iterator`. -/
inductive Pipeline where
  | linear
  | nearest (row clampIterator : Bool)
deriving DecidableEq, Repr

/-- The third case of `wrapping` is not reached: only these two modes can be set. -/
def wrapping (coord size : Int) : Wrap → Int
  | .tiled => wrap32 ((coord % 2 ^ 32) >>> (16 : Nat) * size)
  | .clamp => min (max coord 0x8000) (wrap32 (size * 2 ^ 16 - 0x8000))

def rescale (v scale : Int) : Int :=
  if 0 ≤ scale then wrap32 (v * 2 ^ scale.toNat) else v >>> (-scale).toNat

def interpolate (y v0 dvdx dvdy : Int) : Int :=
  wrap32 (y * dvdy + (v0 + wrap32 (dvdy + dvdx) >>> (1 : Nat)))

/-- The iterated coordinate of a pixel; `init_y` is called at row `ys`, and every row and every
pixel adds a step. -/
def Axis.iterator (a : Axis) (ys px py : Int) : Int :=
  let scale := a.scale + if a.wrap = .clamp then 0 else 16
  wrap32 (px * rescale a.idx scale +
    (rescale (interpolate ys a.i0 a.idx a.idy) scale + (py - ys) * rescale a.idy scale))

/-- The coordinate of pixel `p` of a 1:1 mapping. -/
def Axis.mapped (a : Axis) (p : Int) : Int := wrap32 ((a.i0 >>> (16 : Nat) + p) * 2 ^ 16 + 0x8000)

/-- The texels read along one axis, and the weights, in sixteenths, of those that count. -/
structure Fetch where
  reads : List Int
  weights : List (Int × Nat)
deriving DecidableEq, Repr

def single (u : Int) : Fetch := ⟨[u], [(u, 16)]⟩

def edge (size u : Int) : Wrap → Int
  | .tiled =>
    let u := if u < 0 then u + size else u
    if u ≥ size then u - size else u
  | .clamp =>
    let u := if u < 0 then 0 else u
    if u ≥ size then size - 1 else u

def bilinear (coord size : Int) (wrap : Wrap) : Fetch :=
  let u := wrap32 (coord - 0x8000)
  let u0 := edge size (u >>> (16 : Nat)) wrap
  let u1 := edge size (u >>> (16 : Nat) + 1) wrap
  let f := ((u >>> (12 : Nat)) % 16).toNat
  let f := f + f >>> (3 : Nat)
  ⟨[u0, u1], [(u0, 16 - f), (u1, f)].filter fun texel => texel.2 ≠ 0⟩

/-- The fetch of the pixel `(px, py)` along an axis on which it has the coordinate `p`. -/
def Axis.fetch (a : Axis) (gen : TexGen) (size : Int) (ys px py p : Int) : Pipeline → Fetch
  | .linear =>
    bilinear
      (if gen = .oneToOne then a.mapped p else wrapping (a.iterator ys px py) size a.wrap)
      size a.wrap
  | .nearest row clampIterator =>
    if gen = .oneToOne then
      single (if row then a.i0 >>> (16 : Nat) + p else a.mapped p >>> (16 : Nat))
    else if clampIterator ∧ a.wrap = .clamp then
      single (min (max (a.iterator ys px py >>> (16 : Nat)) 0) (size - 1))
    else single (wrapping (a.iterator ys px py) size a.wrap >>> (16 : Nat))

def TextureUnit.fetch (u : TextureUnit) (pipe : Pipeline) (width height : Nat) (ys px py : Int) :
    Fetch × Fetch :=
  (u.s.fetch u.gen width ys px py px pipe, u.t.fetch u.gen height ys px py py pipe)

/-- All texels that are read lie in the texture, and the ones that count have the weights of the
other fetch. -/
structure Fetch.Agrees (f f' : Fetch) (size : Nat) : Prop where
  inside : ∀ u ∈ f.reads, 0 ≤ u ∧ u < size
  same : f.weights = f'.weights

def low16 (i : Int) : Int := Int.bmod i (2 ^ 16)

theorem low16_bounds (i : Int) : -2 ^ 15 ≤ low16 i ∧ low16 i < 2 ^ 15 := by
  unfold low16
  rw [Int.bmod_def]
  split <;> omega

theorem low16_of_bounds {i : Int} (low : -2 ^ 15 ≤ i) (high : i < 2 ^ 15) : low16 i = i :=
  Int.bmod_eq_of_le (by omega) (by omega)

variable {k : Int} {a : Axis}

theorem wrap32_centre {c : Int} (same : (c - (k * 2 ^ 16 + 0x8000)) % 2 ^ 32 = 0) :
    wrap32 c = low16 k * 2 ^ 16 + 0x8000 := by
  unfold wrap32 low16
  rw [Int.bmod_def, Int.bmod_def]
  split <;> split <;> omega

theorem start_shift (k : Int) : wrap32 (k * 2 ^ 16) >>> (16 : Nat) = low16 k := wrap32_shift k

private theorem centre_shift (u : Int) : (u * 2 ^ 16 + 0x8000) >>> (16 : Nat) = u := by
  rw [Int.shiftRight_eq_div_pow]
  omega

theorem mapped_start (start : a.i0 = wrap32 (k * 2 ^ 16)) (p : Int) :
    a.mapped p = low16 (k + p) * 2 ^ 16 + 0x8000 := by
  unfold Axis.mapped
  rw [start, start_shift]
  apply wrap32_centre
  unfold low16
  rw [Int.bmod_def]
  split <;> omega

theorem bilinear_centre {u : Int} (low : -2 ^ 15 ≤ u) (high : u < 2 ^ 15) (size : Int)
    (wrap : Wrap) :
    bilinear (u * 2 ^ 16 + 0x8000) size wrap =
      ⟨[edge size u wrap, edge size (u + 1) wrap], [(edge size u wrap, 16)]⟩ := by
  have start : wrap32 (u * 2 ^ 16 + 0x8000 - 0x8000) = u * 2 ^ 16 := by
    rw [add_sub_cancel_right]
    exact wrap32_of_bounds (by omega) (by omega)
  have texel : (u * 2 ^ 16) >>> (16 : Nat) = u := by
    rw [Int.shiftRight_eq_div_pow]
    omega
  have fraction : (u * 2 ^ 16) >>> (12 : Nat) % 16 = 0 := by
    rw [Int.shiftRight_eq_div_pow]
    omega
  simp only [bilinear, start, texel, fraction]
  rfl

def Pipeline.last (size : Nat) : Pipeline → Int
  | .nearest _ true => min (size - 1) 0x7FFF
  | _ => low16 (size - 1)

def Pipeline.clamped (size : Nat) (u : Int) : Pipeline → Int
  | .linear => edge size (min (max u 0) (low16 (size - 1))) .clamp
  | .nearest _ true => min (max u 0) (size - 1)
  | .nearest _ false => min (max u 0) (low16 (size - 1))

private theorem wrapping_centre (u : Int) (size : Nat) :
    wrapping (u * 2 ^ 16 + 0x8000) size .clamp =
      min (max u 0) (low16 (size - 1)) * 2 ^ 16 + 0x8000 := by
  have largest : wrap32 (size * 2 ^ 16 - 0x8000) = low16 (size - 1) * 2 ^ 16 + 0x8000 :=
    wrap32_centre (by omega)
  unfold wrapping
  dsimp only
  rw [largest]
  omega

theorem fetch_clamped {ys px py u : Int} (clamp : a.wrap = .clamp) (low : -2 ^ 15 ≤ u)
    (high : u < 2 ^ 15) (centre : a.iterator ys px py = u * 2 ^ 16 + 0x8000) (size : Nat) (p : Int)
    (pipe : Pipeline) :
    (a.fetch .automatic size ys px py p pipe).weights = [(pipe.clamped size u, 16)] := by
  have apart : TexGen.automatic ≠ TexGen.oneToOne := by decide
  have reach := low16_bounds (size - 1)
  cases pipe with
  | linear =>
    simp only [Axis.fetch, if_neg apart, clamp, centre, wrapping_centre]
    rw [bilinear_centre (by omega) (by omega)]
    rfl
  | nearest row clampIterator =>
    cases clampIterator with
    | true =>
      simp only [Axis.fetch, if_neg apart, clamp, centre, centre_shift]
      rfl
    | false =>
      simp only [Axis.fetch, if_neg apart, clamp, centre, wrapping_centre, centre_shift]
      rfl

private theorem wrap32_step (x : Int) : ∃ q, wrap32 x = x + q * 2 ^ 32 := by
  unfold wrap32
  rw [Int.bmod_def]
  split
  · exact ⟨-(x / 2 ^ 32), by omega⟩
  · exact ⟨-(x / 2 ^ 32) - 1, by omega⟩

private theorem rescale_zero (v : Int) : rescale v 0 = wrap32 v := by
  simp [rescale]

theorem iterator_right (scale : a.scale = 0) (clamp : a.wrap = .clamp) (right : a.idx = 0x10000)
    (down : a.idy = 0) (start : a.i0 = wrap32 (k * 2 ^ 16)) (ys px py : Int) :
    a.iterator ys px py = low16 (k + px) * 2 ^ 16 + 0x8000 := by
  obtain ⟨_, origin⟩ := wrap32_step (k * 2 ^ 16)
  obtain ⟨_, row⟩ := wrap32_step (ys * 0 + (a.i0 + 0x8000))
  have half : wrap32 (0 + 0x10000) >>> (1 : Nat) = 0x8000 := rfl
  have one : wrap32 0x10000 = 0x10000 := rfl
  have zero : wrap32 0 = 0 := rfl
  simp only [Axis.iterator, interpolate, scale, clamp, right, down, if_true, add_zero,
    rescale_zero, half, one, zero]
  apply wrap32_centre
  rw [wrap32_wrap32, row]
  omega

theorem iterator_down (scale : a.scale = 0) (clamp : a.wrap = .clamp) (right : a.idx = 0)
    (down : a.idy = 0x10000) (start : a.i0 = wrap32 (k * 2 ^ 16)) (ys px py : Int) :
    a.iterator ys px py = low16 (k + py) * 2 ^ 16 + 0x8000 := by
  obtain ⟨_, origin⟩ := wrap32_step (k * 2 ^ 16)
  obtain ⟨_, row⟩ := wrap32_step (ys * 0x10000 + (a.i0 + 0x8000))
  have half : (0x10000 : Int) >>> (1 : Nat) = 0x8000 := rfl
  have one : wrap32 0x10000 = 0x10000 := rfl
  have zero : wrap32 0 = 0 := rfl
  simp only [Axis.iterator, interpolate, scale, clamp, right, down, if_true, add_zero,
    rescale_zero, one, zero, half]
  apply wrap32_centre
  rw [wrap32_wrap32, row]
  omega

/-- The texel a 1:1 mapping with the start `k` has at the coordinate `p`. A row read in place goes
on where the others wrap. -/
def Pipeline.texel (k p : Int) : Pipeline → Int
  | .nearest true _ => low16 k + p
  | _ => low16 (k + p)

/-- The texel of a 1:1 mapping is one that a clamped coordinate reaches. The linear filter also
takes texels back into the texture that are not. -/
def Pipeline.Exact (pipe : Pipeline) (size : Nat) (k p : Int) : Prop :=
  (0 ≤ pipe.texel k p ∧ pipe.texel k p ≤ pipe.last size) ∨
  (pipe = .linear ∧ 0 < size ∧
    (pipe.texel k p = -size ∨ (pipe.last size < 0 ∧ pipe.texel k p = 0)))

private theorem low16_add (k p : Int) : low16 (low16 k + p) = low16 (k + p) :=
  Int.bmod_add_bmod

private theorem single_agrees {f : Fetch} {c : Int} (other : f.weights = [(c, 16)]) (size : Nat)
    (u : Int) : (single u).Agrees f size ↔ (0 ≤ u ∧ u < size) ∧ u = c := by
  constructor
  · rintro ⟨inside, same⟩
    rw [other] at same
    exact ⟨inside u (by simp [single]), by simpa [single] using same⟩
  · rintro ⟨inside, same⟩
    exact ⟨by simpa [single] using inside, by rw [other, same]; rfl⟩

private theorem low16_pred_le (size : Nat) : low16 (size - 1) ≤ size - 1 := by
  unfold low16
  rw [Int.bmod_def]
  split <;> omega

private theorem nearest_exact (row clampIterator : Bool) (size : Nat) (k p : Int) :
    ((0 ≤ (Pipeline.nearest row clampIterator).texel k p ∧
        (Pipeline.nearest row clampIterator).texel k p < size) ∧
      (Pipeline.nearest row clampIterator).texel k p =
        (Pipeline.nearest row clampIterator).clamped size (low16 (k + p))) ↔
    (Pipeline.nearest row clampIterator).Exact size k p := by
  have reach := low16_bounds (size - 1)
  have texels := low16_bounds (k + p)
  have wide := low16_pred_le size
  have direct : 0 ≤ low16 k + p → low16 k + p < 2 ^ 15 → low16 (k + p) = low16 k + p := by
    intro low high
    rw [← low16_add, low16_of_bounds (by omega) high]
  unfold Pipeline.Exact
  cases row <;> cases clampIterator <;>
    simp only [Pipeline.texel, Pipeline.clamped, Pipeline.last, reduceCtorEq, false_and,
      or_false] <;> omega

private theorem edge_clamp (size u : Int) : edge size u .clamp = min (max u 0) (size - 1) := by
  simp only [edge]
  split <;> split <;> omega

private theorem edge_tiled (size u : Int) :
    (u < 0 ∧ edge size u .tiled = u + size) ∨ (size ≤ u ∧ edge size u .tiled = u - size) ∨
      (0 ≤ u ∧ u < size ∧ edge size u .tiled = u) := by
  simp only [edge]
  split <;> split <;> omega

private theorem linear_exact (size : Nat) (u : Int) (low : -2 ^ 15 ≤ u) (high : u < 2 ^ 15) :
    (∀ wrap, ((0 ≤ edge size u wrap ∧ edge size u wrap < size) ∧
        0 ≤ edge size (u + 1) wrap ∧ edge size (u + 1) wrap < size) ∧
      edge size u wrap = Pipeline.linear.clamped size u) ↔
    (0 ≤ u ∧ u ≤ low16 (size - 1)) ∨
      (0 < size ∧ (u = -size ∨ (low16 (size - 1) < 0 ∧ u = 0))) := by
  have reach := low16_bounds (size - 1)
  have pred := low16_pred_le size
  have small : (size : Int) ≤ 2 ^ 15 → low16 (size - 1) = size - 1 := fun fits =>
    low16_of_bounds (by omega) (by omega)
  have first := edge_tiled size u
  have second := edge_tiled size (u + 1)
  simp only [Pipeline.clamped, edge_clamp]
  constructor
  · intro all
    have clamp := all .clamp
    have tiled := all .tiled
    rw [edge_clamp, edge_clamp] at clamp
    omega
  · intro exact wrap
    cases wrap with
    | tiled => omega
    | clamp =>
      rw [edge_clamp, edge_clamp]
      omega

private theorem fetch_linear (start : a.i0 = wrap32 (k * 2 ^ 16)) (size : Nat) (ys px py p : Int) :
    a.fetch .oneToOne size ys px py p .linear =
      ⟨[edge size (low16 (k + p)) a.wrap, edge size (low16 (k + p) + 1) a.wrap],
        [(edge size (low16 (k + p)) a.wrap, 16)]⟩ := by
  have bounds := low16_bounds (k + p)
  simp only [Axis.fetch, if_true, mapped_start start]
  exact bilinear_centre bounds.1 bounds.2 size a.wrap

private theorem fetch_nearest (start : a.i0 = wrap32 (k * 2 ^ 16)) (size : Nat) (ys px py p : Int)
    (row clampIterator : Bool) :
    a.fetch .oneToOne size ys px py p (.nearest row clampIterator) =
      single ((Pipeline.nearest row clampIterator).texel k p) := by
  simp only [Axis.fetch, if_true, mapped_start start, centre_shift]
  rw [start, start_shift]
  cases row <;> rfl

/-- Whatever wrap modes earlier calls left, a 1:1 mapping reads the texel of a clamped axis exactly
when its own texel is one that the clamped axis reaches. -/
theorem mapped_agrees_iff {a : Wrap → Axis} (start : ∀ wrap, (a wrap).i0 = wrap32 (k * 2 ^ 16))
    (wraps : ∀ wrap, (a wrap).wrap = wrap) (size : Nat) (ys px py p : Int) (pipe : Pipeline)
    {f : Fetch} (other : f.weights = [(pipe.clamped size (low16 (k + p)), 16)]) :
    (∀ wrap, ((a wrap).fetch .oneToOne size ys px py p pipe).Agrees f size) ↔
      pipe.Exact size k p := by
  cases pipe with
  | linear =>
    have bounds := low16_bounds (k + p)
    have agrees (wrap : Wrap) :
        ((a wrap).fetch .oneToOne size ys px py p .linear).Agrees f size ↔
          ((0 ≤ edge size (low16 (k + p)) wrap ∧ edge size (low16 (k + p)) wrap < size) ∧
            0 ≤ edge size (low16 (k + p) + 1) wrap ∧ edge size (low16 (k + p) + 1) wrap < size) ∧
          edge size (low16 (k + p)) wrap = Pipeline.linear.clamped size (low16 (k + p)) := by
      rw [fetch_linear (start wrap), wraps wrap]
      constructor
      · rintro ⟨inside, same⟩
        rw [other] at same
        exact ⟨⟨inside _ (by simp), inside _ (by simp)⟩, by simpa using same⟩
      · rintro ⟨⟨first, second⟩, same⟩
        exact ⟨by simpa using ⟨first, second⟩, by rw [other, same]⟩
    rw [forall_congr' agrees, linear_exact size _ bounds.1 bounds.2]
    simp [Pipeline.Exact, Pipeline.texel, Pipeline.last]
  | nearest row clampIterator =>
    have agrees (wrap : Wrap) :
        ((a wrap).fetch .oneToOne size ys px py p (.nearest row clampIterator)).Agrees f size ↔
          (Pipeline.nearest row clampIterator).Exact size k p := by
      rw [fetch_nearest (start wrap), single_agrees other]
      exact nearest_exact row clampIterator size k p
    rw [forall_congr' agrees]
    exact ⟨fun all => all .clamp, fun exact _ => exact⟩

theorem mapped_weights_ne {a' : Axis} {p : Int} (start : a.i0 = wrap32 (k * 2 ^ 16))
    (start' : a'.i0 = wrap32 ((k + 1) * 2 ^ 16)) (tiled : a.wrap = .tiled)
    (tiled' : a'.wrap = .tiled) (lowest : k + p = -2 ^ 15) (size : Nat) (ys px py : Int)
    (pipe : Pipeline) :
    (a.fetch .oneToOne size ys px py p pipe).weights ≠
      (a'.fetch .oneToOne size ys px py p pipe).weights := by
  have next : k + 1 + p = -2 ^ 15 + 1 := by omega
  have first : low16 (k + p) = -2 ^ 15 := by
    rw [lowest]
    rfl
  have second : low16 (k + 1 + p) = -2 ^ 15 + 1 := by
    rw [next]
    rfl
  intro same
  cases pipe with
  | linear =>
    have back := edge_tiled size (-2 ^ 15)
    have back' := edge_tiled size (-2 ^ 15 + 1)
    rw [fetch_linear start, fetch_linear start', tiled, tiled', first, second] at same
    have texels : edge size (-2 ^ 15) .tiled = edge size (-2 ^ 15 + 1) .tiled := by
      simpa using same
    omega
  | nearest row clampIterator =>
    rw [fetch_nearest start, fetch_nearest start'] at same
    have texels : (Pipeline.nearest row clampIterator).texel k p =
        (Pipeline.nearest row clampIterator).texel (k + 1) p := by
      simpa [single] using same
    cases row with
    | true =>
      have whole := low16_add k p
      have whole' := low16_add (k + 1) p
      simp only [Pipeline.texel] at texels
      rw [texels] at whole
      omega
    | false =>
      simp only [Pipeline.texel] at texels
      omega

end RabbitRender.Textures.TexelFetch
