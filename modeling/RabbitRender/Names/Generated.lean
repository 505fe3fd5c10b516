/- RabbitRender/Names/Generated
   layer: proof
   source: swrender/array.cpp, swrender/texture.cpp, swrender/TokenManager.cpp
   digest: Generated names are new as long as only generated names are bound. -/

import RabbitRender.Buffers.Objects
import RabbitRender.Textures.Coherence

set_option autoImplicit false

namespace RabbitRender.Names.Generated

open Lib.GuardedRun Tokens Tokens.Tokenizer
open Tokens.TokenManager (Reserved isTokenValid)
open RabbitRender.GL (GLenum)
open Textures.Units (oglesInitTexture glBindTexture glGenTextures
  glDeleteTextures)
open Textures.Coherence (Inv bindReaches)
open Buffers.Objects (glBindBuffer glGenBuffers glDeleteBuffers targetBinding)

structure State where
  buffers : Buffers.Objects.Context
  textures : Textures.Units.Context

inductive Op where
  | genBuffers (n : Int)
  | bindBuffer (target : GLenum) (buffer : UInt32)
  | deleteBuffers (n : Int) (buffers : List UInt32)
  | genTextures (n : Int)
  | bindTexture (target : GLenum) (texture : UInt32)
  | deleteTextures (n : Int) (textures : List UInt32)

def init : Option State :=
  oglesInitTexture.map fun textures => ⟨Buffers.Objects.init, textures⟩

def call (s : State) : Op → Option (State × List UInt32)
  | .genBuffers n =>
    let (buffers, names) := glGenBuffers s.buffers n
    some ({ s with buffers := buffers }, names)
  | .bindBuffer target buffer =>
    some ({ s with buffers := glBindBuffer s.buffers target buffer }, [])
  | .deleteBuffers n buffers =>
    some ({ s with buffers := glDeleteBuffers s.buffers n buffers }, [])
  | .genTextures n =>
    let (textures, names) := glGenTextures s.textures n
    some ({ s with textures := textures }, names)
  | .bindTexture target texture =>
    (glBindTexture s.textures target texture).map fun textures => ({ s with textures := textures }, [])
  | .deleteTextures n textures =>
    (glDeleteTextures s.textures n textures).map fun textures => ({ s with textures := textures }, [])

def step (s : Option State) (op : Op) : Option State :=
  s.bind fun s => (call s op).map Prod.fst

def Exists (s : State) : Op → UInt32 → Prop
  | .genBuffers _, name => (s.buffers.buffers name).isSome
  | .genTextures _, name => (s.textures.textures name).isSome
  | _, _ => False

/-- The names are not zero, pairwise distinct, and no object has one of them. -/
structure NewNames (s : State) (op : Op) (names : List UInt32) : Prop where
  nonzero : ∀ name ∈ names, name ≠ 0
  nodup : names.Nodup
  unused : ∀ name ∈ names, ¬Exists s op name

/-- The names bound were generated and not deleted since, and the tokens do not run out. -/
def Op.Ok (s : State) : Op → Prop
  | .genBuffers n => 0 ≤ n → (tokens s.buffers.tokenizer).card + n.toNat < 2 ^ 32
  | .bindBuffer target buffer => targetBinding target ≠ none → buffer ≠ 0 →
      isTokenValid s.buffers.tokenizer buffer = true
  | .genTextures n => 0 ≤ n → (tokens s.textures.tokenizer).card + n.toNat < 2 ^ 32
  | .bindTexture target texture => bindReaches target → texture ≠ 0 →
      isTokenValid s.textures.tokenizer texture = true
  | _ => True

def Ok (s : Option State) (op : Op) : Prop := ∀ s' ∈ s, op.Ok s'

structure Owned {α : Type} (tokenizer : Ranges) (objects : UInt32 → Option α) : Prop where
  reserved : Reserved tokenizer
  acquired : ∀ name, (objects name).isSome → name.toNat ∈ tokens tokenizer

section Owned

variable {α : Type} {tokenizer : Ranges} {objects objects' : UInt32 → Option α}

theorem Owned.gen (owned : Owned tokenizer objects) {n : Nat}
    (room : (tokens tokenizer).card + n < 2 ^ 32) :
    Owned (TokenManager.getToken n tokenizer).1 objects := by
  have fresh := TokenManager.getToken_fresh n owned.reserved room
  exact ⟨fresh.reserved, fun name h => fresh.kept (owned.acquired name h)⟩

theorem Owned.new_names (owned : Owned tokenizer objects) {n : Nat}
    (room : (tokens tokenizer).card + n < 2 ^ 32) :
    (∀ name ∈ (TokenManager.getToken n tokenizer).2, name ≠ 0 ∧ ¬(objects name).isSome) ∧
      (TokenManager.getToken n tokenizer).2.Nodup := by
  have fresh := TokenManager.getToken_fresh n owned.reserved room
  refine ⟨fun name h => ⟨fun zero => ?_, fun hobject => ?_⟩, fresh.nodup⟩
  · have free := fresh.free name h
    rw [zero] at free
    exact free owned.reserved.zero
  · exact fresh.free name h (owned.acquired name hobject)

theorem Owned.bind (owned : Owned tokenizer objects) {name : UInt32} {cond : Prop}
    (valid : cond → name ≠ 0 → isTokenValid tokenizer name = true)
    (names : ∀ name', (objects' name').isSome →
      (objects name').isSome ∨ name' = name ∧ name ≠ 0 ∧ cond) : Owned tokenizer objects' := by
  refine ⟨owned.reserved, fun name' h => ?_⟩
  rcases names name' h with h | ⟨rfl, nonzero, reaches⟩
  · exact owned.acquired name' h
  · exact (TokenManager.isTokenValid_iff owned.reserved _).mp (valid reaches nonzero)

theorem Owned.delete (owned : Owned tokenizer objects) (names : List UInt32) :
    Owned (TokenManager.recycleTokens tokenizer names)
      fun name => if name ≠ 0 ∧ name ∈ names then none else objects name := by
  obtain ⟨reserved, mem⟩ := TokenManager.recycleTokens_spec names owned.reserved
  refine ⟨reserved, fun name h => ?_⟩
  by_cases deleted : name ≠ 0 ∧ name ∈ names
  · rw [if_pos deleted] at h
    cases h
  rw [if_neg deleted] at h
  rw [mem]
  refine ⟨owned.acquired name h, fun other hother nonzero heq => deleted ?_⟩
  rw [UInt32.toNat_inj.mp heq]
  exact ⟨nonzero, hother⟩

end Owned

/-- The invariant of the run: names are owned, and the texture units stay coherent. -/
structure Kept (s : State) : Prop where
  buffers : Owned s.buffers.tokenizer s.buffers.buffers
  textures : Owned s.textures.tokenizer s.textures.textures
  units : Inv s.textures
  active : s.textures.active < Textures.Units.textureUnitCount

theorem owned_init {α : Type} :
    Owned TokenManager.init (fun _ => none : UInt32 → Option α) :=
  ⟨TokenManager.reserved_init, fun _ h => by cases h⟩

theorem init_kept : ∃ s, init = some s ∧ Kept s := by
  obtain ⟨c, hc, inv⟩ := Textures.Coherence.init_inv
  have fields : oglesInitTexture.map (fun c => (c.active, c.tokenizer, c.textures)) =
      some (0, TokenManager.init, fun _ => none) := rfl
  rw [hc, Option.map_some, Option.some_inj, Prod.mk.injEq, Prod.mk.injEq] at fields
  obtain ⟨active, tokenizer, textures⟩ := fields
  refine ⟨⟨Buffers.Objects.init, c⟩, by rw [init, hc, Option.map_some], owned_init, ?_, inv, ?_⟩
  · rw [tokenizer, textures]
    exact owned_init
  · rw [active]
    decide

theorem newNames_nil (s : State) (op : Op) : NewNames s op [] := ⟨by simp, List.nodup_nil, by simp⟩

variable {s : State}

theorem genBuffers_kept (kept : Kept s) (n : Int) (ok : (Op.genBuffers n).Ok s) :
    Kept { s with buffers := (glGenBuffers s.buffers n).1 } ∧
      NewNames s (.genBuffers n) (glGenBuffers s.buffers n).2 := by
  by_cases negative : n < 0
  · rw [glGenBuffers, if_pos negative]
    exact ⟨⟨kept.buffers, kept.textures, kept.units, kept.active⟩, newNames_nil _ _⟩
  · have room := ok (Int.not_lt.mp negative)
    obtain ⟨new, nodup⟩ := kept.buffers.new_names room
    rw [glGenBuffers, if_neg negative]
    exact ⟨⟨kept.buffers.gen room, kept.textures, kept.units, kept.active⟩,
      fun t h => (new t h).1, nodup, fun t h => (new t h).2⟩

theorem genTextures_kept (kept : Kept s) (n : Int) (ok : (Op.genTextures n).Ok s) :
    Kept { s with textures := (glGenTextures s.textures n).1 } ∧
      NewNames s (.genTextures n) (glGenTextures s.textures n).2 := by
  by_cases negative : n < 0
  · rw [glGenTextures, if_pos negative]
    exact ⟨⟨kept.buffers, kept.textures,
      Textures.Coherence.inv_oglesError kept.units _, kept.active⟩,
      newNames_nil _ _⟩
  · have room := ok (Int.not_lt.mp negative)
    obtain ⟨new, nodup⟩ := kept.textures.new_names room
    rw [glGenTextures, if_neg negative]
    exact ⟨⟨kept.buffers, kept.textures.gen room,
      Textures.Coherence.inv_congr kept.units rfl rfl rfl rfl rfl, kept.active⟩,
      fun t h => (new t h).1, nodup, fun t h => (new t h).2⟩

theorem deleteBuffers_kept (kept : Kept s) (n : Int) (names : List UInt32) :
    Kept { s with buffers := glDeleteBuffers s.buffers n names } := by
  refine ⟨?_, kept.textures, kept.units, kept.active⟩
  by_cases negative : n < 0
  · rw [glDeleteBuffers, if_pos negative]
    exact kept.buffers
  · obtain ⟨tokenizer, buffers⟩ := Buffers.Objects.glDeleteBuffers_names negative names
    rw [tokenizer, buffers]
    exact kept.buffers.delete _

theorem deleteTextures_kept (kept : Kept s) (n : Int) (names : List UInt32) :
    ∃ c, glDeleteTextures s.textures n names = some c ∧ Kept { s with textures := c } := by
  by_cases negative : n < 0
  · rw [glDeleteTextures, if_pos negative]
    exact ⟨_, rfl, kept.buffers, kept.textures,
      Textures.Coherence.inv_oglesError kept.units _, kept.active⟩
  · obtain ⟨c, hc, deleted⟩ := Textures.Coherence.glDeleteTextures_spec kept.units negative names
    refine ⟨c, hc, kept.buffers, ?_, deleted.inv, deleted.active ▸ kept.active⟩
    rw [deleted.tokenizer, deleted.textures]
    exact kept.textures.delete _

theorem call_kept (kept : Kept s) (op : Op) (ok : op.Ok s) :
    ∃ r, call s op = some r ∧ Kept r.1 ∧ NewNames s op r.2 := by
  cases op with
  | genBuffers n => exact ⟨_, rfl, genBuffers_kept kept n ok⟩
  | bindBuffer target buffer =>
    obtain ⟨tokenizer, names⟩ := Buffers.Objects.glBindBuffer_names s.buffers target buffer
    refine ⟨_, rfl, ⟨?_, kept.textures, kept.units, kept.active⟩, newNames_nil _ _⟩
    rw [tokenizer]
    exact kept.buffers.bind ok names
  | deleteBuffers n names => exact ⟨_, rfl, deleteBuffers_kept kept n names, newNames_nil _ _⟩
  | genTextures n => exact ⟨_, rfl, genTextures_kept kept n ok⟩
  | bindTexture target texture =>
    obtain ⟨c, hc, bound⟩ :=
      Textures.Coherence.glBindTexture_spec kept.units target texture fun _ => kept.active
    refine ⟨_, by rw [call, hc, Option.map_some], ⟨kept.buffers, ?_, bound.inv, ?_⟩,
      newNames_nil _ _⟩
    · rw [bound.tokenizer]
      exact kept.textures.bind ok bound.names
    · exact bound.active ▸ kept.active
  | deleteTextures n names =>
    obtain ⟨c, hc, kept'⟩ := deleteTextures_kept kept n names
    exact ⟨_, by rw [call, hc, Option.map_some], kept', newNames_nil _ _⟩

/-- In every run that binds only generated names, each generation returns new names. -/
theorem generated_names_fresh (ops pre : List Op) (op : Op) (ok : Guarded step Ok init ops)
    (hpre : pre ++ [op] <+: ops) :
    ∃ s r, run step init pre = some s ∧ call s op = some r ∧ NewNames s op r.2 := by
  have keeps (s : Option State) (op : Op) (hs : ∃ s', s = some s' ∧ Kept s') (ok : Ok s op) :
      ∃ s', step s op = some s' ∧ Kept s' := by
    obtain ⟨s', rfl, kept⟩ := hs
    obtain ⟨r, hr, kept', -⟩ := call_kept kept op (ok s' rfl)
    exact ⟨r.1, by simp only [step, Option.bind_some, hr, Option.map_some], kept'⟩
  obtain ⟨s, hs, kept⟩ :=
    run_invariant_prefix keeps init_kept ok ((List.prefix_append pre [op]).trans hpre)
  obtain ⟨r, hr, -, new⟩ := call_kept kept op (ok.next hpre s hs)
  exact ⟨s, r, hs, hr, new⟩

private theorem tokenizer_of_run {s : Option State} {s' : State} (h : s' ∈ s) {m : Ranges}
    (hm : s.map (·.buffers.tokenizer) = some m) : s'.buffers.tokenizer = m := by
  rw [Option.mem_def.mp h, Option.map_some, Option.some_inj] at hm
  exact hm

/-- A name is generated and bound, then two more are generated. -/
theorem generated_names_fresh_after_bind :
    ∃ s r, run step init [.genBuffers 1, .bindBuffer GL.arrayBuffer 1] = some s ∧
      call s (.genBuffers 2) = some r ∧ NewNames s (.genBuffers 2) r.2 := by
  have first : init.map (·.buffers.tokenizer) = some [⟨0, 1⟩] := by decide +kernel
  have second : (step init (.genBuffers 1)).map (·.buffers.tokenizer) = some [⟨0, 2⟩] := by
    decide +kernel
  have third : (step (step init (.genBuffers 1))
      (.bindBuffer GL.arrayBuffer 1)).map (·.buffers.tokenizer) =
        some [⟨0, 2⟩] := by decide +kernel
  refine generated_names_fresh [.genBuffers 1, .bindBuffer GL.arrayBuffer 1,
    .genBuffers 2] [.genBuffers 1, .bindBuffer GL.arrayBuffer 1] _
    ⟨fun s hs _ => ?_, fun s hs _ _ => ?_, fun s hs _ => ?_, trivial⟩ (List.prefix_refl _)
  · rw [tokenizer_of_run hs first]
    decide
  · rw [tokenizer_of_run hs second]
    decide +kernel
  · rw [tokenizer_of_run hs third]
    decide

/-- A name the application chose, bound before anything was generated, is generated next. -/
theorem generated_name_in_use :
    ∃ s r, run step init [.bindBuffer GL.arrayBuffer 1] = some s ∧
      call s (.genBuffers 1) = some r ∧ ¬NewNames s (.genBuffers 1) r.2 := by
  have value : (run step init [.bindBuffer GL.arrayBuffer 1]).map (fun s =>
      ((s.buffers.buffers 1).isSome, (glGenBuffers s.buffers 1).2)) = some (true, [1]) := by
    decide +kernel
  obtain ⟨s, hs, fields⟩ := Option.map_eq_some_iff.mp value
  rw [Prod.mk.injEq] at fields
  have written : 1 ∈ (glGenBuffers s.buffers 1).2 := by rw [fields.2]; exact List.mem_singleton_self _
  exact ⟨s, ⟨{ s with buffers := (glGenBuffers s.buffers 1).1 }, (glGenBuffers s.buffers 1).2⟩,
    hs, rfl, fun new => new.unused 1 written fields.1⟩

end RabbitRender.Names.Generated
