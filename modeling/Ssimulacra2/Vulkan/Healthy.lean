/-
  File:      Ssimulacra2/Vulkan/Healthy.lean
  Subject:   A device that never fails.

  When no answer of the schedule is an error no run of the engine meets a driver error, whatever
  the state it starts from.
-/
import Ssimulacra2.Vulkan.Frame

namespace Ssimulacra2

open Fallible Prog

variable {F : Type}

/-- No call on this device fails. -/
def Env.Healthy (E : Env F) : Prop := ∀ n, E.sched n = none

/-- An event that is not a failing call. -/
def Event.Fine (w : Event F) : Prop := ∀ c st, w ≠ .failed c st

theorem noFault_of_emits {σ ε α : Type} {m : Prog σ ε (Event F) α} (h : Emits Event.Fine m)
    (s : σ) : NoFault (m s).trace := fun c st hw => h s _ hw c st rfl

/-! ## 1. Without memory -/

section Calls

theorem create_fine (k : Kind) : Emits Event.Fine (create k : Gpu F Nat) := by
  intro s w hw
  rw [List.mem_singleton.mp hw]
  exact fun _ _ => nofun

theorem release_fine (r : Res) : Emits Event.Fine (release r : Gpu F Unit) :=
  emits_emit fun _ _ => nofun

theorem begun_fine (cb : Nat) : Emits Event.Fine (begun cb : Gpu F Unit) :=
  emits_bind (emits_update _) fun _ => emits_emit fun _ _ => nofun

theorem record_fine (cb : Nat) (c : Cmd F) : Emits Event.Fine (record cb c) :=
  emits_bind (emits_update _) fun _ => emits_emit fun _ _ => nofun

theorem freeSet_fine (d : DescSet) : Emits Event.Fine (freeSet d : Gpu F Unit) :=
  emits_bind (emits_update _) fun _ => emits_emit fun _ _ => nofun

theorem resetPool_fine (pool : Nat) : Emits Event.Fine (resetPool pool : Gpu F Unit) :=
  emits_bind (emits_gets _) fun mine => emits_bind (emits_update _) fun _ =>
    emits_each (fun _ => emits_emit fun _ _ => nofun) mine

theorem destroyBufferNow_fine (b : GpuBuffer) :
    Emits Event.Fine (destroyBufferNow b : Gpu F Unit) :=
  emits_bind (release_fine _) fun _ => release_fine _

theorem batchTrash_fine (b : GpuBuffer) : Emits Event.Fine (batchTrash b : Gpu F Bool) := by
  refine emits_bind (emits_gets _) fun batch => ?_
  cases batch with
  | none => exact emits_pure _
  | some st => exact emits_bind (emits_update _) fun _ => emits_pure _

theorem destroyBuffer_fine (b : GpuBuffer) : Emits Event.Fine (destroyBuffer b : Gpu F Unit) := by
  refine emits_bind (batchTrash_fine b) fun deferred => ?_
  cases deferred with
  | true => exact emits_pure _
  | false => exact destroyBufferNow_fine b

variable {E : Env F} (hE : E.Healthy)

include hE

theorem attempt_fine (c : Call) : Emits Event.Fine (attempt E c) := by
  intro s w hw
  simp only [attempt, hE s.tick] at hw
  exact absurd hw List.not_mem_nil

theorem allocSet_fine (pool : Nat) (bufs : List GpuBuffer) :
    Emits Event.Fine (allocSet E pool bufs) := by
  refine emits_bind (attempt_fine hE _) fun _ => emits_bind (emits_gets _) fun used => ?_
  by_cases h : 64 ≤ used
  · rw [if_pos h]
    exact emits_fail _
  · rw [if_neg h]
    exact emits_bind (emits_gets _) fun _ => emits_bind (emits_update _) fun _ => emits_pure _

theorem beginBatch_fine : Emits Event.Fine (beginBatch E) := by
  refine emits_bind (attempt_fine hE _) fun _ => emits_bind (create_fine _) fun cb =>
    emits_bind (attempt_fine hE _) fun _ => emits_bind (begun_fine _) fun _ =>
      emits_bind (emits_gets _) fun batch => ?_
  cases batch with
  | some st => exact emits_fail _
  | none => exact emits_bind (emits_update _) fun _ => emits_emit fun _ _ => nofun

theorem getPipe_fine (key : Key) : Emits Event.Fine (getPipe E key) := by
  refine emits_bind (emits_gets _) fun cached => ?_
  cases cached with
  | some objs => exact emits_pure _
  | none =>
    refine emits_bind ?_ fun _ => emits_bind (emits_update _) fun _ => emits_pure _
    exact emits_bind (attempt_fine hE _) fun _ => emits_bind (create_fine _) fun _ =>
      emits_onError (release_fine _) (emits_bind (attempt_fine hE _) fun _ =>
        emits_bind (create_fine _) fun _ => emits_onError (release_fine _)
          (emits_bind (attempt_fine hE _) fun _ => emits_bind (create_fine _) fun _ =>
            emits_onError (release_fine _) (emits_bind (attempt_fine hE _) fun _ =>
              emits_bind (create_fine _) fun _ => emits_onError (release_fine _)
                (emits_bind (attempt_fine hE _) fun _ => emits_bind (create_fine _) fun _ =>
                  emits_pure _))))

end Calls

/-! ## 2. The context -/

section Context

variable [Zero F] {E : Env F}

theorem createMemory_fine (size : Nat) : Emits Event.Fine (createMemory E size) :=
  emits_bind (create_fine _) fun _ => emits_bind (emits_update _) fun _ => emits_pure _

theorem execute_fine (cb : Nat) : Emits Event.Fine (execute E cb) :=
  emits_bind (emits_gets _) fun cmds => emits_bind (emits_update _) fun _ =>
    emits_each (fun _ => emits_emit fun _ _ => nofun) cmds

variable (hE : E.Healthy)

include hE

theorem allocBuffer_fine (size : Nat) : Emits Event.Fine (allocBuffer E size) :=
  emits_bind (attempt_fine hE _) fun _ => emits_bind (create_fine _) fun _ =>
    emits_bind (attempt_fine hE _) fun _ => emits_bind (attempt_fine hE _) fun _ =>
      emits_bind (createMemory_fine _) fun _ => emits_bind (attempt_fine hE _) fun _ =>
        emits_pure _

theorem submitWait_fine (c1 c2 c3 : Call) (cb : Nat) :
    Emits Event.Fine (submitWait E c1 c2 c3 cb) :=
  emits_bind (attempt_fine hE _) fun _ => emits_bind (create_fine _) fun _ =>
    emits_ensure (release_fine _) (emits_bind (attempt_fine hE _) fun _ =>
      emits_bind (execute_fine _) fun _ => emits_bind (attempt_fine hE _) fun _ =>
        emits_emit fun _ _ => nofun)

theorem oneShot_fine (cmds : List (Cmd F)) : Emits Event.Fine (oneShot E cmds) :=
  emits_bind (attempt_fine hE _) fun _ => emits_bind (create_fine _) fun _ =>
    emits_ensure (release_fine _) (emits_bind (attempt_fine hE _) fun _ =>
      emits_bind (begun_fine _) fun _ => emits_bind (emits_each (record_fine _) cmds) fun _ =>
        emits_bind (attempt_fine hE _) fun _ => submitWait_fine hE _ _ _ _)

theorem createBufferF32_fine (data : List F) : Emits Event.Fine (createBufferF32 E data) := by
  have hE' : (E.enter .createBufferF32).Healthy := hE
  refine emits_bind (allocBuffer_fine hE' _) fun staging => emits_bind (emits_observe ?_) ?_
  · refine emits_bind (attempt_fine hE' _) fun _ => emits_bind (emits_update _) fun _ =>
      emits_bind (allocBuffer_fine hE' _) fun dev => emits_bind (emits_gets _) fun cmd => ?_
    cases cmd with
    | some cmd =>
      exact emits_bind (record_fine _ _) fun _ => emits_bind (batchTrash_fine _) fun _ =>
        emits_pure _
    | none => exact emits_bind (oneShot_fine hE' _) fun _ => emits_pure _
  · rintro (e | ⟨dev, _ | _⟩)
    · exact emits_bind (destroyBufferNow_fine _) fun _ => emits_fail _
    · exact emits_bind (destroyBufferNow_fine _) fun _ => emits_pure _
    · exact emits_pure _

theorem newStaging_fine (total : Nat) : Emits Event.Fine (newStaging E total) := by
  refine emits_bind (emits_observe (allocBuffer_fine hE _)) fun first => ?_
  cases first with
  | ok b =>
    exact emits_bind (emits_pure _) fun _ => emits_bind (emits_update _) fun _ => emits_pure _
  | error e =>
    exact emits_bind (allocBuffer_fine hE _) fun _ => emits_bind (emits_update _) fun _ =>
      emits_pure _

theorem readbackStaging_fine (total : Nat) : Emits Event.Fine (readbackStaging E total) := by
  refine emits_bind (emits_gets _) fun cached => ?_
  cases cached with
  | none => exact newStaging_fine hE _
  | some b =>
    by_cases h : b.size < total
    · simp only [if_pos h]
      exact emits_bind (emits_update _) fun _ => emits_bind (destroyBufferNow_fine _) fun _ =>
        newStaging_fine hE _
    · simp only [if_neg h]
      exact emits_pure _

theorem readbackF32All_fine (bufs : List GpuBuffer) : Emits Event.Fine (readbackF32All E bufs) :=
  emits_bind (readbackStaging_fine hE _) fun _ => emits_bind (oneShot_fine hE _) fun _ =>
    emits_bind (attempt_fine hE _) fun _ => emits_bind (attempt_fine hE _) fun _ => emits_gets _

theorem finishBatch_fine (submit : Bool) : Emits Event.Fine (finishBatch E submit) := by
  refine emits_bind ?_ fun st => emits_ensure ?_ (emits_bind (attempt_fine hE _) fun _ => ?_)
  · refine emits_bind (emits_gets _) fun batch => ?_
    cases batch with
    | none => exact emits_fail _
    | some st =>
      exact emits_bind (emits_update _) fun _ => emits_bind (emits_emit fun _ _ => nofun) fun _ =>
        emits_pure _
  · exact emits_bind (emits_each freeSet_fine _) fun _ =>
      emits_bind (emits_each destroyBufferNow_fine _) fun _ => release_fine _
  · cases submit with
    | true => exact submitWait_fine hE _ _ _ _
    | false => exact emits_pure _

theorem armedBatch_fine {α : Type} {pass : Guarded F α} (h : Emits Event.Fine pass) :
    Emits Event.Fine (armedBatch E pass) :=
  emits_bind (emits_lift (beginBatch_fine hE)) fun _ =>
    emits_onError (emits_lift (finishBatch_fine hE _)) (emits_bind h fun _ =>
      emits_bind (emits_lift (finishBatch_fine hE _)) fun _ => emits_pure _)

theorem abortOnError_fine {α : Type} {pass : Guarded F α} (h : Emits Event.Fine pass) :
    Emits Event.Fine (abortOnError E pass) := emits_onError (emits_lift (finishBatch_fine hE _)) h

theorem runComputePush_fine (shader : Shader) (bufs : List GpuBuffer) (groupsX : Nat)
    (push : List (Word F)) : Emits Event.Fine (runComputePush E shader bufs groupsX push) := by
  unfold runComputePush
  by_cases h : (splitGroups groupsX E.maxGroupsX).2 > 65535
  · simp only [if_pos h]
    exact emits_bind (emits_emit fun _ _ => nofun) fun _ => emits_fail _
  · simp only [if_neg h]
    refine emits_bind (getPipe_fine hE _) fun objs => emits_bind (emits_gets _) fun cmd => ?_
    cases cmd with
    | some cmd =>
      refine emits_bind (allocSet_fine hE _ _) fun set =>
        emits_bind (emits_each (record_fine _) _) fun _ => emits_bind (emits_gets _) fun batch => ?_
      cases batch with
      | some st => exact emits_update _
      | none => exact emits_pure _
    | none =>
      exact emits_bind (attempt_fine hE _) fun _ => emits_bind (resetPool_fine _) fun _ =>
        emits_bind (allocSet_fine hE _ _) fun _ => oneShot_fine hE _

end Context

/-! ## 3. The engine -/

section Engine

theorem dispatchInto_fine (out : GpuBuffer) {run : Gpu F Unit} (h : Emits Event.Fine run) :
    Emits Event.Fine (dispatchInto out run) :=
  emits_bind (emits_onError (destroyBuffer_fine out) h) fun _ => emits_pure _

theorem orPanic_fine {σ α : Type} (text : String) (x : Option α) :
    Emits Event.Fine (orPanic text x : Prog σ GpuErr (Event F) α) := by
  cases x with
  | some a => exact emits_pure a
  | none => exact emits_fail _

theorem halving_fine {β : Type} (scale : Nat) {down : Guarded F β} (h : Emits Event.Fine down)
    (l : β) : Emits Event.Fine (if scale > 0 then down else pure l : Guarded F β) := by
  by_cases hs : scale > 0
  · rw [if_pos hs]
    exact h
  · rw [if_neg hs]
    exact emits_pure _

theorem assertLen_fine {σ : Type} (lin : List F) (w h : Nat) :
    Emits Event.Fine (assertLen lin w h : Prog σ GpuErr (Event F) Unit) := by
  unfold assertLen
  by_cases hl : lin.length = 3 * w * h
  · rw [if_pos hl]
    exact emits_pure _
  · rw [if_neg hl]
    exact emits_fail _

variable [F32 F] {D : Type} [F64 D] [Convert F D] {E : Env F}

variable (hE : E.Healthy)

include hE

theorem createEmpty_fine (len : Nat) : Emits Event.Fine (createEmpty E len) := allocBuffer_fine hE _

theorem downsample_fine (src : GpuBuffer) (iw ih : Nat) : Emits Event.Fine (downsample E src iw ih) :=
  emits_bind (createEmpty_fine hE _) fun _ => dispatchInto_fine _ (runComputePush_fine hE _ _ _ _)

theorem mulGpu_fine (a b : GpuBuffer) (n : Nat) : Emits Event.Fine (mulGpu E a b n) :=
  emits_bind (createEmpty_fine hE _) fun _ => dispatchInto_fine _ (runComputePush_fine hE _ _ _ _)

theorem xybConvert_fine (linear : GpuBuffer) (n : Nat) (positive : Bool) :
    Emits Event.Fine (xybConvert E D linear n positive) :=
  emits_bind (createEmpty_fine hE _) fun _ => dispatchInto_fine _ (runComputePush_fine hE _ _ _ _)

theorem blurPlanes_fine (rg : RgConst F) (input : GpuBuffer) (w h : Nat) :
    Emits Event.Fine (blurPlanes E rg input w h) := by
  have hE' : (E.enter .blurPlanes).Healthy := hE
  refine emits_bind (createBufferF32_fine hE' _) fun _ => emits_bind (createEmpty_fine hE' _) fun _ =>
    emits_bind (createEmpty_fine hE' _) fun _ => emits_bind (emits_observe
      (emits_bind (runComputePush_fine hE' _ _ _ _) fun _ => runComputePush_fine hE' _ _ _ _)) ?_
  refine fun r => emits_bind (destroyBuffer_fine _) fun _ =>
    emits_bind (destroyBuffer_fine _) fun _ => ?_
  cases r with
  | ok a => exact emits_pure _
  | error e => exact emits_fail _

theorem computePass_fine (rg : RgConst F) (scale : Nat) (l : LevelGpu) :
    Emits Event.Fine (computePass E D rg scale l) :=
  emits_bind (halving_fine scale (emits_bind (emits_keep (downsample_fine hE _ _ _)) fun _ =>
      emits_bind (emits_keep (downsample_fine hE _ _ _)) fun _ => emits_pure _) l) fun _ =>
    emits_bind (emits_keep (xybConvert_fine hE _ _ _)) fun _ =>
    emits_bind (emits_keep (xybConvert_fine hE _ _ _)) fun _ =>
    emits_bind (emits_keep (mulGpu_fine hE _ _ _)) fun _ =>
    emits_bind (emits_keep (mulGpu_fine hE _ _ _)) fun _ =>
    emits_bind (emits_keep (mulGpu_fine hE _ _ _)) fun _ =>
    emits_bind (emits_keep (blurPlanes_fine hE _ _ _ _)) fun _ =>
    emits_bind (emits_keep (blurPlanes_fine hE _ _ _ _)) fun _ =>
    emits_bind (emits_keep (blurPlanes_fine hE _ _ _ _)) fun _ =>
    emits_bind (emits_keep (blurPlanes_fine hE _ _ _ _)) fun _ =>
    emits_bind (emits_keep (blurPlanes_fine hE _ _ _ _)) fun _ =>
    emits_bind (emits_keep (createEmpty_fine hE _)) fun _ =>
    emits_bind (emits_keep (createEmpty_fine hE _)) fun _ =>
    emits_bind (emits_lift (runComputePush_fine hE _ _ _ _)) fun _ => emits_pure _

theorem readNorms_fine (sd ed : GpuBuffer) (w h : Nat) :
    Emits Event.Fine (readNorms E D sd ed w h) :=
  emits_bind (emits_lift (readbackF32All_fine hE _)) fun _ => orPanic_fine _ _

theorem computeLoop_fine (rg : RgConst F) (left scale : Nat) (l : LevelGpu)
    (scales : List (ScaleNorms D)) : Emits Event.Fine (computeLoop E D rg left scale l scales) := by
  induction left generalizing scale l scales with
  | zero => exact emits_pure _
  | succ left ih =>
    unfold computeLoop
    by_cases h8 : l.cw < 8 ∨ l.ch < 8
    · rw [if_pos h8]
      exact emits_pure _
    · rw [if_neg h8]
      exact emits_bind (armedBatch_fine hE (computePass_fine hE rg scale l)) fun r =>
        emits_bind (readNorms_fine hE _ _ _ _) fun _ => ih _ _ _

/-- **The single shot meets no driver error.** -/
theorem computeSsimulacra2Gpu_fine (lin1 lin2 : List F) (w h : Nat) :
    Emits Event.Fine (computeSsimulacra2Gpu E D lin1 lin2 w h) :=
  emits_bind (assertLen_fine _ _ _) fun _ => emits_bind (assertLen_fine _ _ _) fun _ =>
    emits_bind (orPanic_fine _ _) fun _ => emits_withOwner destroyBuffer_fine
      (emits_bind (emits_keep (createBufferF32_fine hE _)) fun _ =>
        emits_bind (emits_keep (createBufferF32_fine hE _)) fun _ => computeLoop_fine hE _ _ _ _ _)

theorem prepPass_fine (rg : RgConst F) (l : GpuBuffer) (cw ch : Nat) :
    Emits Event.Fine (prepPass E D rg l cw ch) :=
  emits_bind (emits_keep (xybConvert_fine hE _ _ _)) fun _ =>
    emits_bind (emits_keep (mulGpu_fine hE _ _ _)) fun _ =>
    emits_bind (emits_keep (blurPlanes_fine hE _ _ _ _)) fun _ =>
    emits_bind (emits_keep (blurPlanes_fine hE _ _ _ _)) fun _ => emits_pure _

theorem prepLoop_fine (rg : RgConst F) (left scale : Nat) (l : GpuBuffer) (cw ch : Nat)
    (scales : List ScalePrep) : Emits Event.Fine (prepLoop E D rg left scale l cw ch scales) := by
  induction left generalizing scale l cw ch scales with
  | zero => exact emits_pure _
  | succ left ih =>
    unfold prepLoop
    by_cases h8 : cw < 8 ∨ ch < 8
    · rw [if_pos h8]
      exact emits_pure _
    · rw [if_neg h8]
      exact emits_bind (halving_fine scale (emits_bind (emits_keep (downsample_fine hE _ _ _))
          fun _ => emits_pure _) (l, cw, ch)) fun r =>
        emits_bind (armedBatch_fine hE (abortOnError_fine hE (prepPass_fine hE rg _ _ _))) fun _ =>
          ih _ _ _ _ _

/-- **The preparation meets no driver error.** -/
theorem prepGpu_fine (lin : List F) (w h : Nat) : Emits Event.Fine (prepGpu E D lin w h) :=
  emits_bind (assertLen_fine _ _ _) fun _ => emits_bind (orPanic_fine _ _) fun _ =>
    emits_bind (emits_handOver destroyBuffer_fine (emits_bind
      (emits_keep (createBufferF32_fine hE _)) fun _ => prepLoop_fine hE _ _ _ _ _ _ _)) fun _ =>
      emits_pure _

theorem comparePass_fine (rg : RgConst F) (sa sb : ScalePrep) :
    Emits Event.Fine (comparePass E rg sa sb) :=
  emits_bind (emits_keep (mulGpu_fine hE _ _ _)) fun _ =>
    emits_bind (emits_keep (blurPlanes_fine hE _ _ _ _)) fun _ =>
    emits_bind (emits_keep (createEmpty_fine hE _)) fun _ =>
    emits_bind (emits_keep (createEmpty_fine hE _)) fun _ =>
    emits_bind (emits_lift (runComputePush_fine hE _ _ _ _)) fun _ => emits_pure _

theorem compareLoop_fine (rg : RgConst F) (pairs : List (ScalePrep × ScalePrep))
    (scales : List (ScaleNorms D)) : Emits Event.Fine (compareLoop E D rg pairs scales) := by
  induction pairs generalizing scales with
  | nil => exact emits_pure _
  | cons p pairs ih =>
    exact emits_bind (armedBatch_fine hE (abortOnError_fine hE (comparePass_fine hE rg _ _)))
      fun _ => emits_bind (readNorms_fine hE _ _ _ _) fun _ => ih _

/-- **The comparison meets no driver error.** -/
theorem compareGpu_fine (a b : PrepImage) :
    Emits Event.Fine (compareGpu E D a b : Gpu F (List (ScaleNorms D))) :=
  emits_bind (orPanic_fine _ _) fun _ =>
    emits_withOwner destroyBuffer_fine (compareLoop_fine hE _ _ _)

theorem comparePrepPass_fine (rg : RgConst F) (si : Nat) (os : ScalePrep) (l : GpuBuffer)
    (cw ch : Nat) : Emits Event.Fine (comparePrepPass E D rg si os l cw ch) := by
  unfold comparePrepPass
  refine emits_bind (halving_fine si (emits_bind (emits_keep (downsample_fine hE _ _ _))
    fun _ => emits_pure _) (l, cw, ch)) fun r => ?_
  obtain ⟨l, cw, ch⟩ := r
  dsimp only
  by_cases hsize : os.w = cw ∧ os.h = ch
  · rw [if_pos hsize]
    exact emits_bind (emits_keep (xybConvert_fine hE _ _ _)) fun _ =>
      emits_bind (emits_keep (mulGpu_fine hE _ _ _)) fun _ =>
      emits_bind (emits_keep (blurPlanes_fine hE _ _ _ _)) fun _ =>
      emits_bind (emits_keep (blurPlanes_fine hE _ _ _ _)) fun _ =>
      emits_bind (emits_keep (mulGpu_fine hE _ _ _)) fun _ =>
      emits_bind (emits_keep (blurPlanes_fine hE _ _ _ _)) fun _ =>
      emits_bind (emits_keep (createEmpty_fine hE _)) fun _ =>
      emits_bind (emits_keep (createEmpty_fine hE _)) fun _ =>
      emits_bind (emits_lift (runComputePush_fine hE _ _ _ _)) fun _ => emits_pure _
  · rw [if_neg hsize]
    exact emits_stop _ _

theorem comparePrepLoop_fine (rg : RgConst F) (scales : List ScalePrep) (si : Nat) (l : GpuBuffer)
    (cw ch : Nat) (out : List (ScaleNorms D)) :
    Emits Event.Fine (comparePrepLoop E D rg scales si l cw ch out) := by
  induction scales generalizing si l cw ch out with
  | nil => exact emits_pure _
  | cons os scales ih =>
    exact emits_bind (armedBatch_fine hE (abortOnError_fine hE
      (comparePrepPass_fine hE rg si os l cw ch))) fun _ =>
        emits_bind (readNorms_fine hE _ _ _ _) fun _ => ih _ _ _ _ _

/-- **The comparison with an image meets no driver error.** -/
theorem comparePrepGpu_fine (orig : PrepImage) (vlin : List F) (w h : Nat) :
    Emits Event.Fine (comparePrepGpu E D orig vlin w h) :=
  emits_bind (assertLen_fine _ _ _) fun _ => emits_bind (orPanic_fine _ _) fun _ =>
    emits_withOwner destroyBuffer_fine (emits_bind (emits_keep (createBufferF32_fine hE _)) fun _ =>
      comparePrepLoop_fine hE _ _ _ _ _ _ _)

/-- **The batch meets no driver error.** -/
theorem scoreBatchGpu_fine (origLin : List F) (w h : Nat) (variants : List (List F)) :
    Emits Event.Fine (scoreBatchGpu E D origLin w h variants) := by
  refine emits_bind (prepGpu_fine hE _ _ _) fun orig => emits_ensure
    (emits_each destroyBuffer_fine _) ?_
  generalize ([] : List (List (ScaleNorms D))) = out
  induction variants generalizing out with
  | nil => exact emits_pure _
  | cons v variants ih => exact emits_bind (comparePrepGpu_fine hE _ _ _ _) fun _ => ih _

end Engine

end Ssimulacra2
