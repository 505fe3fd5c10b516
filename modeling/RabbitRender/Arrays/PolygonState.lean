/- RabbitRender/Arrays/PolygonState
   layer: theorem
   source: swrender/array.cpp, swrender/primitives.cpp
   digest: Culling and polygon offset in the drawing of points and lines. -/

import RabbitRender.Arrays.Gradients

set_option autoImplicit false

namespace RabbitRender.Arrays.PolygonState

open RabbitRender.GL (GLenum)
open Fixed Vertices Arrays.Compile Arrays.Draw Arrays.Gradients Primitives

structure PolygonOnly where
  cullEnable : Bool
  cullFace : GLenum
  frontFace : GLenum
  offset : PolygonOffset
deriving DecidableEq, Repr

def culling (s : PolygonOnly) (p : Pipeline) : Pipeline :=
  { p with cullEnable := s.cullEnable, cullFace := s.cullFace, frontFace := s.frontFace }

def withPolygon (s : PolygonOnly) (c : Context) : Context :=
  { c with pipeline := culling s c.pipeline, polygonOffset := s.offset }

inductive PlainMode where
  | points
  | lines
  | lineLoop
  | lineStrip
deriving DecidableEq, Repr

def PlainMode.mode : PlainMode → Mode
  | points => .points
  | lines => .lines
  | lineLoop => .lineLoop
  | lineStrip => .lineStrip

/-- A call of `glDrawArrays` or of `glDrawElements`. -/
inductive DrawCall where
  | arrays (first : Int) (count : Nat)
  | elements (indices : List Index)

def draw (p : Pipeline) (mode : PlainMode) (m : Machine) : DrawCall → Machine
  | .arrays first count => glDrawArrays p m mode.mode first count
  | .elements indices => glDrawElements p m mode.mode indices

/-- The vertices that `renderPoint` was called with. -/
def points (m : Machine) : List Vertex :=
  m.calls.filterMap fun call => match call with
    | .point v => some v
    | _ => none

def recorded (c : Context) (m : Machine) : List Drawn :=
  (points m).map (fun v => drawnPoint c (pointVertex c.pipeline v)) ++
    m.lines.map fun line => drawnLine c line.1 line.2

def rasterized (c : Context) (mode : PlainMode) (m : Machine) (call : DrawCall) : List Drawn :=
  recorded c (draw c.pipeline mode { m with calls := [], lines := [] } call)

section Faces

variable (s : PolygonOnly) (p : Pipeline)

private theorem compileRun_culling (n : Nat) (m : Machine) (slot element : Nat) (index : Int) :
    compileRun (culling s p) n m slot element index = compileRun p n m slot element index := by
  induction n generalizing m slot element index with
  | zero => rfl
  | succ n ih => exact ih _ (slot + 1) (element + 1) (index + 1)

private theorem compileElements_culling :
    compileElements (culling s p) = compileElements p := by
  funext m slot first count
  exact compileRun_culling s p count m slot (elementOf first) first

private theorem clipPlanes_culling (planes : List Plane) (v w : Vertex) :
    clipPlanes (culling s p) planes v w = clipPlanes p planes v w := by
  induction planes generalizing v w with
  | nil => rfl
  | cons plane planes ih =>
    have far : distance (culling s p) plane = distance p plane := rfl
    have clip : clipAgainst (culling s p) plane = clipAgainst p plane := rfl
    simp only [clipPlanes, far, clip, ih]

private theorem renderLine_culling : renderLine (culling s p) = renderLine p := by
  funext m v0 v1
  have clip : clipLine (culling s p) = clipLine p := by
    funext v w
    exact clipPlanes_culling s p (clippingPlanes v w) v w
  unfold renderLine primitiveLine
  rw [clip]
  rfl

private theorem pointRun_culling (num : Nat) (m : Machine) (v : Nat) :
    pointRun (culling s p) num m v = pointRun p num m v := by
  induction num generalizing m v with
  | zero => rfl
  | succ num ih => exact ih _ (v + 1)

private theorem lineRun_culling (num : Nat) (m : Machine) (v v0 : Nat) :
    lineRun (culling s p) num m v v0 = lineRun p num m v v0 := by
  induction num generalizing m v v0 with
  | zero => rfl
  | succ num ih => simp only [lineRun, renderLine_culling, ih]

private theorem linesRun_culling : ∀ (num : Nat) (m : Machine) (v : Nat),
    linesRun (culling s p) num m v = linesRun p num m v
  | 0, _, _ => rfl
  | 1, _, _ => rfl
  | num + 2, m, v => by
    simp only [linesRun, renderLine_culling]
    exact linesRun_culling num _ (v + 2)

private theorem indexedLineRun_culling (m : Machine) (v0 : Nat) (indices : List Index) :
    indexedLineRun (culling s p) m v0 indices = indexedLineRun p m v0 indices := by
  have fetch : fetchVertex (culling s p) = fetchVertex p := rfl
  induction indices generalizing m v0 with
  | nil => rfl
  | cons i indices ih => simp only [indexedLineRun, renderLine_culling, fetch, ih]

private theorem drawIndexedPoints_culling (m : Machine) (indices : List Index) :
    drawIndexedPrimitivesPoints (culling s p) m indices =
      drawIndexedPrimitivesPoints p m indices := by
  induction indices generalizing m with
  | nil => rfl
  | cons i indices ih => exact ih _

private theorem drawIndexedLines_culling : ∀ (m : Machine) (indices : List Index),
    drawIndexedPrimitivesLines (culling s p) m indices = drawIndexedPrimitivesLines p m indices
  | _, [] => rfl
  | _, [_] => rfl
  | m, i :: j :: indices => by
    have fetch : fetchVertex (culling s p) = fetchVertex p := rfl
    simp only [drawIndexedPrimitivesLines, renderLine_culling, fetch]
    exact drawIndexedLines_culling _ indices

private theorem drawArraysPrims_culling (mode : PlainMode) :
    drawArraysPrims (culling s p) mode.mode = drawArraysPrims p mode.mode := by
  have compile := compileElements_culling s p
  have strip : drawPrimitivesLineStrip (culling s p) = drawPrimitivesLineStrip p := by
    have batch : lineBatch (culling s p) = lineBatch p := by
      funext m first num rest
      simp only [lineBatch, compile, lineRun_culling]
    funext m first count
    unfold drawPrimitivesLineStrip
    rw [batch]
    rfl
  cases mode with
  | points =>
    funext m first count
    show drawPrimitivesPoints _ m first count = drawPrimitivesPoints p m first count
    simp only [drawPrimitivesPoints, compile, pointRun_culling]
  | lines =>
    funext m first count
    show drawPrimitivesLines _ m first count = drawPrimitivesLines p m first count
    simp only [drawPrimitivesLines, compile, linesRun_culling]
  | lineLoop =>
    funext m first count
    show drawPrimitivesLineLoop _ m first count = drawPrimitivesLineLoop p m first count
    unfold drawPrimitivesLineLoop
    rw [strip, renderLine_culling]
    rfl
  | lineStrip => exact strip

private theorem drawElementsPrims_culling (mode : PlainMode) :
    drawElementsPrims (culling s p) mode.mode = drawElementsPrims p mode.mode := by
  funext m indices
  cases mode with
  | points => exact drawIndexedPoints_culling s p m indices
  | lines => exact drawIndexedLines_culling s p m indices
  | lineLoop =>
    show drawIndexedPrimitivesLineLoop _ m indices = drawIndexedPrimitivesLineLoop p m indices
    have compile : compileElement (culling s p) = compileElement p := rfl
    simp only [drawIndexedPrimitivesLineLoop, indexedLineRun_culling, renderLine_culling, compile,
      drawIndexedLines_culling]
  | lineStrip =>
    show drawIndexedPrimitivesLineStrip _ m indices = drawIndexedPrimitivesLineStrip p m indices
    have compile : compileElement (culling s p) = compileElement p := rfl
    simp only [drawIndexedPrimitivesLineStrip, indexedLineRun_culling, compile]

end Faces

def PolygonOnly.cullsAll (s : PolygonOnly) : Bool :=
  s.cullEnable && s.cullFace = GL.frontAndBack

def effect (o : PolygonOffset) : GLfixed × GLfixed :=
  if o.enable then (o.factor, o.units <<< 16) else (0, 0)

/-- Both states cull the faces or both do not, and lines that are drawn get the same offset. -/
def Unnoticed (mode : PlainMode) (s s' : PolygonOnly) : Prop :=
  s.cullsAll = s'.cullsAll ∧
    (mode = .points ∨ s.cullsAll = true ∨ effect s.offset = effect s'.offset)

theorem depthGradient_eq (o : PolygonOffset) (l : Lerp) (z0 z1 z2 : Int) :
    depthGradient o l z0 z1 z2 =
      let it := l.iterators0032 z0 z1 z2
      ⟨wrap32 (it.c + wrap64 (max it.dx it.dy * (effect o).1.toInt) >>> (16 : Nat) +
        (effect o).2.toInt), wrap32 it.dx, wrap32 it.dy⟩ := by
  have still (x : Int) : wrap64 (x * (0 : GLfixed).toInt) >>> (16 : Nat) = 0 := by
    rw [show (0 : GLfixed).toInt = 0 from rfl, Int.mul_zero]
    rfl
  obtain ⟨enable, factor, units⟩ := o
  unfold depthGradient effect
  cases enable with
  | false =>
    simp only [Bool.false_eq_true, if_false, still]
    rw [show (0 : GLfixed).toInt = 0 from rfl, Int.add_zero, Int.add_zero]
  | true =>
    by_cases zero : factor = 0
    · simp only [zero, ne_eq, not_true_eq_false, if_true, if_false, still]
      simp only [Int.add_zero, wrap32_add_left]
    · simp only [zero, ne_eq, not_false_eq_true, if_true]

variable {s' : PolygonOnly} {mode : PlainMode}

theorem drawnLine_congr {s : PolygonOnly} (c : Context) (same : effect s.offset = effect s'.offset) :
    drawnLine (withPolygon s c) = drawnLine (withPolygon s' c) := by
  have depth : depthGradient s.offset = depthGradient s'.offset := by
    funext l z0 z1 z2
    rw [depthGradient_eq, depthGradient_eq, same]
  funext v w
  have planes : lerpTriangle (withPolygon s c) = lerpTriangle (withPolygon s' c) := by
    funext l v0 v1 v2
    show Planes.mk _ _ _ (if c.pipeline.depthTest then some (depthGradient s.offset _ _ _ _) else
      none) _ = Planes.mk _ _ _ (if c.pipeline.depthTest then
        some (depthGradient s'.offset _ _ _ _) else none) _
    rw [depth]
    rfl
  unfold drawnLine
  rw [planes]
  rfl

def uncut (p : Pipeline) (mode : PlainMode) (m : Machine) : DrawCall → Machine
  | .arrays first count =>
    if count = 0 then { m with draw := m.draw + 1 }
    else drawArraysPrims p mode.mode { m with draw := m.draw + 1 } first count
  | .elements indices =>
    if indices.isEmpty then { m with draw := m.draw + 1 }
    else drawElementsPrims p mode.mode (clear { m with draw := m.draw + 1 }) indices

theorem draw_culling (s : PolygonOnly) (p : Pipeline) (mode : PlainMode) (m : Machine)
    (call : DrawCall) : draw (culling s p) mode m call =
      if s.cullsAll then { m with draw := m.draw + 1 } else uncut p mode m call := by
  have cut : ((culling s p).cullEnable && decide ((culling s p).cullFace = GL.frontAndBack)) =
      s.cullsAll := rfl
  cases call with
  | arrays first count =>
    simp only [draw, glDrawArrays, cut, drawArraysPrims_culling, uncut]
    cases s.cullsAll <;> simp
  | elements indices =>
    simp only [draw, glDrawElements, cut, drawElementsPrims_culling, uncut]
    cases s.cullsAll <;> simp

private theorem batches_keep {S : Type} {P : S → Prop} {vcs least : Nat}
    {body : S → Int → Nat → Nat → S}
    (keeps : ∀ s first num rest, P s → P (body s first num rest)) {s : S} {first : Int}
    {count : Nat} (h : P s) : P (batches vcs least body s first count) := by
  induction s, first, count using batches.induct vcs least body with
  | case1 s first count done => rwa [batches_stop done]
  | case2 s first count more num ih =>
    rw [batches, dif_neg more]
    exact ih (keeps s first num (count - num) h)

private theorem pointRun_lines (p : Pipeline) (num : Nat) (m : Machine) (v : Nat) :
    (pointRun p num m v).lines = m.lines := by
  induction num generalizing m v with
  | zero => rfl
  | succ num ih =>
    rw [pointRun, ih]
    split_ifs
    · exact (shaded_renderPoint p m v).lines
    · rfl

private theorem fetchVertex_lines (p : Pipeline) (m : Machine) (index : Nat) :
    (fetchVertex p m index).1.lines = m.lines := by
  unfold fetchVertex cacheVertex
  simp only
  split_ifs <;> rfl

private theorem indexedPoints_lines (p : Pipeline) (m : Machine) (indices : List Index) :
    (drawIndexedPrimitivesPoints p m indices).lines = m.lines := by
  induction indices generalizing m with
  | nil => rfl
  | cons i indices ih =>
    rw [drawIndexedPrimitivesPoints, ih]
    have fetched := fetchVertex_lines p m i
    generalize fetchVertex p m i = f at fetched
    show (if (f.1.verts f.2).flags &&& clipAll = 0 then renderPoint p f.1 f.2 else f.1).lines = _
    split_ifs
    · exact (shaded_renderPoint p f.1 f.2).lines.trans fetched
    · exact fetched

theorem uncut_points (p : Pipeline) (m : Machine) (call : DrawCall) :
    (uncut p .points m call).lines = m.lines := by
  cases call with
  | arrays first count =>
    show (if count = 0 then _ else drawPrimitivesPoints p _ first count).lines = _
    unfold drawPrimitivesPoints
    split_ifs
    · rfl
    · rfl
    · refine batches_keep (P := fun r : Machine => r.lines = m.lines) ?_ rfl
      intro r first num _ h
      show (if _ then pointRun p num _ 0 else _).lines = _
      split_ifs
      · rw [pointRun_lines, compileElements_lines]
        exact h
      · rw [compileElements_lines]
        exact h
  | elements indices =>
    show (if indices.isEmpty then _ else drawIndexedPrimitivesPoints p (clear _) indices).lines = _
    split_ifs
    · rfl
    · rw [indexedPoints_lines]
      unfold clear
      split_ifs <;> rfl

private theorem drawnPoint_polygon (s s' : PolygonOnly) (c : Context) :
    drawnPoint (withPolygon s c) = drawnPoint (withPolygon s' c) := by
  funext v
  rfl

private theorem pointVertex_culling (s : PolygonOnly) (p : Pipeline) :
    pointVertex (culling s p) = pointVertex p := by
  funext v
  rfl

theorem recorded_congr {s : PolygonOnly} (c : Context) {m : Machine}
    (same : m.lines = [] ∨ effect s.offset = effect s'.offset) :
    recorded (withPolygon s c) m = recorded (withPolygon s' c) m := by
  have lines : m.lines.map (fun l => drawnLine (withPolygon s c) l.1 l.2) =
      m.lines.map (fun l => drawnLine (withPolygon s' c) l.1 l.2) := by
    rcases same with none | offset
    · rw [none, List.map_nil, List.map_nil]
    · rw [drawnLine_congr c offset]
  have points (s : PolygonOnly) : (fun v => drawnPoint (withPolygon s c)
      (pointVertex (withPolygon s c).pipeline v)) =
        fun v => drawnPoint (withPolygon s c) (pointVertex c.pipeline v) := by
    show (fun v => drawnPoint _ (pointVertex (culling s c.pipeline) v)) = _
    rw [pointVertex_culling]
  rw [recorded, recorded, lines, points s, points s', drawnPoint_polygon s s']

theorem rasterized_eq (s : PolygonOnly) (c : Context) (mode : PlainMode) (m : Machine)
    (call : DrawCall) : rasterized (withPolygon s c) mode m call =
      if s.cullsAll then []
      else recorded (withPolygon s c)
        (uncut c.pipeline mode { m with calls := [], lines := [] } call) := by
  show recorded _ (draw (culling s c.pipeline) mode _ call) = _
  rw [draw_culling]
  split_ifs <;> rfl

private def pair (depth : Int) (element : Nat) : Vec4 :=
  if element = 0 then ⟨0, 0, 0, 0x10000⟩ else ⟨7 * 0x10000, 0, depth, 0x10000⟩

private def sloped (depth : Int) : Context :=
  { pipeline := { Pipeline.flat (pair depth) with depthTest := true }
    setup :=
      { interpolateW := false, pointSize := 0x10000, lineWidth := 0x10000
        unit := fun _ => { sClamp := false, tClamp := false, bound := ⟨0, 0⟩, minFilter := 0x2600
                           surface := ⟨0, 0⟩, mip := fun _ => ⟨0, 0⟩ } }
    polygonOffset := ⟨false, 0, 0⟩ }

private def one : PlainMode → DrawCall
  | .points => .elements [0]
  | _ => .elements [0, 1]

private def drawnOnce (mode : PlainMode) (depth : Int) : Machine :=
  uncut (sloped depth).pipeline mode .init (one mode)

private theorem drawnOnce_length (mode : PlainMode) :
    (points (drawnOnce mode 0)).length + (drawnOnce mode 0).lines.length = 1 := by
  cases mode <;> rfl

private def depthOf : Drawn → Option Gradient
  | .point _ _ _ planes => planes.depth
  | .segment _ _ _ _ planes => planes.depth

private def placed (window : Vec4) : Vertex := { Vertex.zero with window := window }

private def pairLerp (depth : Int) : Lerp :=
  initLerp false (initLine (placed ⟨0, 0, 0, 0x10000000⟩) (placed ⟨112, 0, depth, 0x10000000⟩))
    (placed ⟨0, 0, 0, 0x10000000⟩)

private theorem drawnOnce_windows (line : mode ≠ .points) :
    ∀ depth ∈ [0, 0x8000], (points (drawnOnce mode depth)).length = 0 ∧
      (drawnOnce mode depth).lines.map (fun l => (l.1.window, l.2.window)) =
        [(⟨0, 0, 0, 0x10000000⟩, ⟨112, 0, depth, 0x10000000⟩)] := by
  cases mode with
  | points => exact absurd rfl line
  | lines | lineLoop | lineStrip =>
    intro depth here
    simp only [List.mem_cons, List.not_mem_nil, or_false] at here
    rcases here with rfl | rfl <;> exact ⟨rfl, rfl⟩

private theorem recorded_depth (s : PolygonOnly) (line : mode ≠ .points) {depth : Int}
    (here : depth ∈ [0, 0x8000]) :
    (recorded (withPolygon s (sloped depth)) (drawnOnce mode depth)).map depthOf =
      [some (depthGradient s.offset (pairLerp depth) (clampZ 0) (clampZ depth) (clampZ 0))] := by
  obtain ⟨none, windows⟩ := drawnOnce_windows line depth here
  rw [List.length_eq_zero_iff] at none
  obtain ⟨⟨v, w⟩, lines, both⟩ := List.map_eq_singleton_iff.mp windows
  obtain ⟨first, second⟩ := Prod.mk.inj both
  have lerp : initLerp false (initLine v w) v = pairLerp depth := by
    unfold pairLerp initLine initLerp placed
    simp only [show v.window = _ from first, show w.window = _ from second]
  rw [recorded, none, lines]
  show [some (depthGradient s.offset (initLerp false (initLine v w) v) (clampZ v.window.z)
    (clampZ w.window.z) (clampZ v.window.z))] = _
  rw [lerp, show v.window = _ from first, show w.window = _ from second]

private theorem wrap32_cancel {a b c : Int} (h : wrap32 (c + a) = wrap32 (c + b)) :
    (2 ^ 32 : Int) ∣ a - b := by
  have aligned := (Int.bmod_add_cancel_left c).mp h
  have zero := Int.bmod_eq_bmod_iff_bmod_sub_eq_zero.mp aligned
  exact Int.dvd_of_bmod_eq_zero zero

private theorem eq_of_dvd {a b : GLfixed} (h : (2 ^ 32 : Int) ∣ a.toInt - b.toInt) : a = b := by
  apply BitVec.eq_of_toInt_eq
  have := a.toInt_lt
  have := a.le_toInt
  have := b.toInt_lt
  have := b.le_toInt
  omega

private theorem slope_mul (f : GLfixed) :
    wrap64 (4681 * 65536 * f.toInt) >>> (16 : Nat) = 4681 * f.toInt := by
  have := f.toInt_lt
  have := f.le_toInt
  rw [wrap64, Int.bmod_eq_of_le (by omega) (by omega), Int.shiftRight_eq_div_pow]
  omega

private theorem pairLerp_iterators :
    (pairLerp 0).iterators0032 (clampZ 0) (clampZ 0) (clampZ 0) = ⟨0, 0, 0⟩ ∧
      (pairLerp 0x8000).iterators0032 (clampZ 0) (clampZ 0x8000) (clampZ 0) =
        ⟨0, 4681 * 65536, 0⟩ := by
  exact ⟨rfl, rfl⟩

private theorem flat_value (o : PolygonOffset) :
    (depthGradient o (pairLerp 0) (clampZ 0) (clampZ 0) (clampZ 0)).c =
      wrap32 (0 + (effect o).2.toInt) := by
  simp only [depthGradient_eq]
  rw [pairLerp_iterators.1]
  show wrap32 (0 + wrap64 (0 * (effect o).1.toInt) >>> (16 : Nat) + _) = _
  rw [Int.zero_mul]
  rfl

private theorem slope_value (o : PolygonOffset) :
    (depthGradient o (pairLerp 0x8000) (clampZ 0) (clampZ 0x8000) (clampZ 0)).c =
      wrap32 (0 + (4681 * (effect o).1.toInt + (effect o).2.toInt)) := by
  simp only [depthGradient_eq]
  rw [pairLerp_iterators.2, ← slope_mul, ← Int.add_assoc]
  rfl

private theorem effect_eq {s : PolygonOnly} (line : mode ≠ .points)
    (same : ∀ depth, recorded (withPolygon s (sloped depth)) (drawnOnce mode depth) =
      recorded (withPolygon s' (sloped depth)) (drawnOnce mode depth)) :
    effect s.offset = effect s'.offset := by
  have depth (d : Int) (here : d ∈ [0, 0x8000]) :
      (depthGradient s.offset (pairLerp d) (clampZ 0) (clampZ d) (clampZ 0)).c =
        (depthGradient s'.offset (pairLerp d) (clampZ 0) (clampZ d) (clampZ 0)).c := by
    have maps := congrArg (List.map depthOf) (same d)
    rw [recorded_depth s line here, recorded_depth s' line here] at maps
    exact congrArg Gradient.c (Option.some_inj.mp (List.singleton_inj.mp maps))
  have flat := depth 0 (by decide)
  have slope := depth 0x8000 (by decide)
  rw [flat_value, flat_value] at flat
  rw [slope_value, slope_value] at slope
  have units : (effect s.offset).2 = (effect s'.offset).2 := eq_of_dvd (wrap32_cancel flat)
  have factor : (effect s.offset).1 = (effect s'.offset).1 := by
    have apart := wrap32_cancel slope
    rw [units] at apart
    exact eq_of_dvd (by omega)
  exact Prod.ext factor units

/-- Two polygon states draw the same points, or lines, in every context and by every call exactly
when both or neither cull all faces, and the depth of lines that are drawn is offset alike. -/
theorem polygon_state_unseen (mode : PlainMode) (s s' : PolygonOnly) :
    (∀ c m call, rasterized (withPolygon s c) mode m call =
      rasterized (withPolygon s' c) mode m call) ↔ Unnoticed mode s s' := by
  constructor
  · intro same
    have once (depth : Int) := same (sloped depth) .init (one mode)
    simp only [rasterized_eq] at once
    have culls : s.cullsAll = s'.cullsAll := by
      have length (s : PolygonOnly) :
          (recorded (withPolygon s (sloped 0)) (drawnOnce mode 0)).length = 1 := by
        rw [recorded, List.length_append, List.length_map, List.length_map, drawnOnce_length]
      have lengths := congrArg List.length (once 0)
      change (if s.cullsAll = true then [] else recorded _ (drawnOnce mode 0)).length =
        (if s'.cullsAll = true then [] else recorded _ (drawnOnce mode 0)).length at lengths
      cases all : s.cullsAll <;> cases all' : s'.cullsAll <;> simp [all, all', length] at lengths ⊢
    refine ⟨culls, ?_⟩
    by_cases line : mode = .points
    · exact .inl line
    · cases all : s.cullsAll with
      | true => exact .inr (.inl rfl)
      | false =>
        refine .inr (.inr (effect_eq line fun depth => ?_))
        have drawn := once depth
        rw [← culls, all] at drawn
        exact drawn
  · rintro ⟨culls, seen⟩ c m call
    rw [rasterized_eq, rasterized_eq, culls]
    split_ifs with all
    · rfl
    · apply recorded_congr
      rcases seen with rfl | all' | offset
      · exact .inl (uncut_points c.pipeline _ call)
      · exact absurd (culls.symm.trans all') all
      · exact .inr offset

private def plainState : PolygonOnly := ⟨false, GL.frontAndBack, GL.ccw, ⟨false, 0, 1⟩⟩

/-- A point is culled with the triangles, and a flat line moves by the units. -/
theorem polygon_state_seen :
    rasterized (withPolygon { plainState with cullEnable := true } (sloped 0)) .points .init
        (.elements [0]) ≠
      rasterized (withPolygon plainState (sloped 0)) .points .init (.elements [0]) ∧
    rasterized (withPolygon { plainState with offset := ⟨true, 0, 1⟩ } (sloped 0)) .lines .init
        (.elements [0, 1]) ≠
      rasterized (withPolygon plainState (sloped 0)) .lines .init (.elements [0, 1]) := by
  constructor
  · intro same
    have lengths := congrArg List.length same
    revert lengths
    decide +kernel
  · intro same
    have depths := congrArg (List.map depthOf) same
    revert depths
    decide +kernel

end RabbitRender.Arrays.PolygonState
