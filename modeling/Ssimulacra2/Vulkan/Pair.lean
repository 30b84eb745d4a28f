/-
  File:      Ssimulacra2/Vulkan/Pair.lean
  Subject:   The single-pair command (`main.rs`): the front end, the choice of an engine, the score.

  A command runs beside its context: the state of a `VkContext`, or none. `none` as a result is a
  panic. Notes on the error stream are left out.
-/
import Ssimulacra2.Linear
import Ssimulacra2.Vulkan.Engine

namespace Ssimulacra2

open Fallible

variable {F : Type} {D : Type} [F32 F] [F64 D] [Convert F D]

/-! ## 1. Decoded images -/

/-- `Decoded`. -/
structure Decoded (F : Type) where
  w : Nat
  h : Nat
  srgb : List F
  alpha : Option (List F)

/-- `f32::clamp`. -/
def clampF32 (x lo hi : F) : F :=
  let x := if F32.lt x lo then lo else x
  if F32.lt hi x then hi else x

/-- The value of byte `k`: `(k as f32) * (1.0f32 / 255.0f32)`. -/
def byteValue (k : Nat) : F := ofNat k * (ofNat 1 / ofNat 255)

/-- `linearize_lut`. -/
def linearizeLut : List F := (List.range 256).map fun k => srgbToLinear (byteValue k)

/-- The entry of the table for a sample. -/
def lutEntry (lut : List F) (v : F) : Option F :=
  let k := F32.round (v * ofNat 255)
  lut[F32.toUsize (clampF32 k 0 (ofNat 255))]?

/-- `to_linear_8bit`. -/
def toLinear8bit (srgb lut : List F) : Option (List F) := srgb.mapM (lutEntry lut)

/-- The closure `lin` of `score_pair` (`linearize_front_end`): samples on the grid of the bytes go
    through the table, blended ones through the function. -/
def linearizeFrontEnd (dec : Decoded F) (bg : F) (n : Nat) : Option (List F) :=
  match dec.alpha with
  | some al => (alphaBlend dec.srgb al bg n).map toLinear
  | none => toLinear8bit dec.srgb linearizeLut

/-! ## 2. The engines -/

/-- A command beside its context. -/
abbrev Command (F : Type) (α : Type) : Type := StateT (Option (Sys F)) Option α

variable (E : Env F) (D) (cbrtAdd : F → F → F)

/-- `pipeline`: the GPU engine when there is a context, and the CPU engine when there is none or
    the GPU engine answers an error. A panic is not an answer. -/
def pipeline (lin1 lin2 : List F) (w h : Nat) : Command F (List (ScaleNorms D)) := fun ctx =>
  match ctx with
  | some sys =>
      let o := computeSsimulacra2Gpu E D lin1 lin2 w h sys
      match o.result with
      | .ok s => some (s, some o.state)
      | .error (.panic _) => none
      | .error _ =>
          (computeSsimulacra2Cpu D cbrtAdd lin1 lin2 w h).map fun s => (s, some o.state)
  | none => (computeSsimulacra2Cpu D cbrtAdd lin1 lin2 w h).map fun s => (s, none)

/-- `score_pair`. -/
def scorePair (a b : Decoded F) (bg : F) : Command F D := do
  let n := a.w * a.h
  let l1 ← StateT.lift (linearizeFrontEnd a bg n)
  let l2 ← StateT.lift (linearizeFrontEnd b bg n)
  let scales ← pipeline D E cbrtAdd l1 l2 a.w a.h
  StateT.lift (score scales)

/-- The part of `score_pair` past the front end. -/
def pass (lin1 lin2 : List F) (w h : Nat) : Command F D := do
  let scales ← pipeline D E cbrtAdd lin1 lin2 w h
  StateT.lift (score scales)

theorem pass_of_pipeline {lin1 lin2 : List F} {w h : Nat} {ctx ctx' : Option (Sys F)}
    {t : List (ScaleNorms D)} {s : D}
    (hp : pipeline D E cbrtAdd lin1 lin2 w h ctx = some (t, ctx')) (hs : score t = some s) :
    pass D E cbrtAdd lin1 lin2 w h ctx = some (s, ctx') := by
  unfold pass
  show (pipeline D E cbrtAdd lin1 lin2 w h ctx).bind _ = _
  rw [hp]
  show ((score t).bind fun s => some (s, ctx')) = _
  rw [hs]
  rfl

/-- The last part of `main`: the worst of two backgrounds when the original has alpha. -/
def scoreImages (a b : Decoded F) : Command F D := do
  if a.alpha.isSome then
    let s0 ← scorePair D E cbrtAdd a b (F32.lit 0.1)
    let s1 ← scorePair D E cbrtAdd a b (F32.lit 0.9)
    pure (F64.min s0 s1)
  else scorePair D E cbrtAdd a b (F32.lit 0.5)

/-- `GPU_ROUTE_MIN_PIXELS`. -/
def gpuRouteMinPixels : Nat := 500000

/-- `routed_cpu`. -/
def routedCpu (forceGpu : Bool) (w h : Nat) : Bool := !forceGpu && decide (w * h < gpuRouteMinPixels)

/-- The context of the command: none when the CPU engine is forced or the image is small, else the
    created one, if there is a device. -/
def routedContext (forceCpu forceGpu : Bool) (w h : Nat) (created : Option (Sys F)) :
    Option (Sys F) :=
  if forceCpu || routedCpu forceGpu w h then none else created

end Ssimulacra2
