/-
  File:      Ssimulacra2/Vulkan/Panics.lean
  Subject:   The single shot answers an error or a value; it does not panic.

  The steps of the context return their errors. What may panic is an assertion on the lengths, the
  solution of the weights, and a slice of what was read back; on whole images none of them does.

  * `computePass_returned` -- a pass does not panic;
  * `readNorms_returned` -- the maps read back are whole;
  * `computeSsimulacra2Gpu_returned` -- the single shot.
-/
import Ssimulacra2.Vulkan.Parity

namespace Ssimulacra2

open Fallible Prog

variable {F : Type}

/-- An error that is returned, not a panic. -/
def GpuErr.Returned (e : GpuErr) : Prop := ∀ text, e ≠ .panic text

/-! ## 1. The context -/

section Calls

variable {P : GpuErr → Prop}

theorem create_fails (k : Kind) : Fails P (create k : Gpu F Nat) := fun _ _ h => nomatch h

theorem destroyBuffer_fails (b : GpuBuffer) : Fails P (destroyBuffer b : Gpu F Unit) := by
  refine fails_bind (fails_bind (fails_gets _) fun batch => ?_) fun deferred => ?_
  · cases batch with
    | none => exact fails_pure _
    | some st => exact fails_bind (fails_update _) fun _ => fails_pure _
  · cases deferred with
    | true => exact fails_pure _
    | false => exact fails_bind (fails_emit _) fun _ => fails_emit _

theorem record_fails (cb : Nat) (c : Cmd F) : Fails P (record cb c) :=
  fails_bind (fails_update _) fun _ => fails_emit _

theorem begun_fails (cb : Nat) : Fails P (begun cb : Gpu F Unit) :=
  fails_bind (fails_update _) fun _ => fails_emit _

theorem destroyBufferNow_fails (b : GpuBuffer) : Fails P (destroyBufferNow b : Gpu F Unit) :=
  fails_bind (fails_emit _) fun _ => fails_emit _

theorem resetPool_fails (pool : Nat) : Fails P (resetPool pool : Gpu F Unit) :=
  fails_bind (fails_gets _) fun mine => fails_bind (fails_update _) fun _ =>
    fails_each (fun _ => fails_emit _) mine

variable {E : Env F}

theorem attempt_returned (c : Call) : Fails GpuErr.Returned (attempt E c) := by
  intro s e he
  cases h : E.sched s.tick with
  | none =>
    simp only [attempt, h] at he
    cases he
  | some code =>
    simp only [attempt, h] at he
    cases he
    exact fun _ h => GpuErr.noConfusion h

theorem allocSet_returned (pool : Nat) (bufs : List GpuBuffer) :
    Fails GpuErr.Returned (allocSet E pool bufs) := by
  refine fails_bind (attempt_returned _) fun _ => fails_bind (fails_gets _) fun used => ?_
  by_cases h : 64 ≤ used
  · rw [if_pos h]
    exact fails_fail fun _ h => GpuErr.noConfusion h
  · rw [if_neg h]
    exact fails_bind (fails_gets _) fun _ => fails_bind (fails_update _) fun _ => fails_pure _

theorem beginBatch_returned : Fails GpuErr.Returned (beginBatch E) := by
  refine fails_bind (attempt_returned _) fun _ => fails_bind (create_fails _) fun cb =>
    fails_bind (attempt_returned _) fun _ => fails_bind (begun_fails _) fun _ =>
      fails_bind (fails_gets _) fun batch => ?_
  cases batch with
  | some st => exact fails_fail fun _ h => GpuErr.noConfusion h
  | none => exact fails_bind (fails_update _) fun _ => fails_emit _

theorem getPipe_returned (key : Key) : Fails GpuErr.Returned (getPipe E key) := by
  refine fails_bind (fails_gets _) fun cached => ?_
  cases cached with
  | some objs => exact fails_pure _
  | none =>
    refine fails_bind ?_ fun _ => fails_bind (fails_update _) fun _ => fails_pure _
    exact fails_bind (attempt_returned _) fun _ => fails_bind (create_fails _) fun _ =>
      fails_onError (fails_bind (attempt_returned _) fun _ => fails_bind (create_fails _) fun _ =>
        fails_onError (fails_bind (attempt_returned _) fun _ => fails_bind (create_fails _) fun _ =>
          fails_onError (fails_bind (attempt_returned _) fun _ => fails_bind (create_fails _) fun _ =>
            fails_onError (fails_bind (attempt_returned _) fun _ =>
              fails_bind (create_fails _) fun _ => fails_pure _))))

end Calls

section Context

variable [Zero F] {E : Env F}

theorem execute_fails {P : GpuErr → Prop} (cb : Nat) : Fails P (execute E cb) :=
  fails_bind (fails_gets _) fun cmds => fails_bind (fails_update _) fun _ =>
    fails_each (fun _ => fails_emit _) cmds

theorem allocBuffer_returned (size : Nat) : Fails GpuErr.Returned (allocBuffer E size) :=
  fails_bind (attempt_returned _) fun _ => fails_bind (create_fails _) fun _ =>
    fails_bind (attempt_returned _) fun _ => fails_bind (attempt_returned _) fun _ =>
      fails_bind (fails_bind (create_fails _) fun _ => fails_bind (fails_update _) fun _ =>
        fails_pure _) fun _ => fails_bind (attempt_returned _) fun _ => fails_pure _

theorem submitWait_returned (c1 c2 c3 : Call) (cb : Nat) :
    Fails GpuErr.Returned (submitWait E c1 c2 c3 cb) :=
  fails_bind (attempt_returned _) fun _ => fails_bind (create_fails _) fun _ =>
    fails_ensure (fails_bind (attempt_returned _) fun _ => fails_bind (execute_fails _) fun _ =>
      fails_bind (attempt_returned _) fun _ => fails_emit _)

theorem oneShot_returned (cmds : List (Cmd F)) : Fails GpuErr.Returned (oneShot E cmds) :=
  fails_bind (attempt_returned _) fun _ => fails_bind (create_fails _) fun _ =>
    fails_ensure (fails_bind (attempt_returned _) fun _ => fails_bind (begun_fails _) fun _ =>
      fails_bind (fails_each (record_fails _) cmds) fun _ => fails_bind (attempt_returned _) fun _ =>
        submitWait_returned _ _ _ _)

theorem createBufferF32_returned (data : List F) :
    Fails GpuErr.Returned (createBufferF32 E data) := by
  refine fails_bind (allocBuffer_returned _) fun staging => fails_observe_bind ?_ ?_ ?_
  · refine fails_bind (attempt_returned _) fun _ => fails_bind (fails_update _) fun _ =>
      fails_bind (allocBuffer_returned _) fun dev => fails_bind (fails_gets _) fun cmd => ?_
    cases cmd with
    | some cmd =>
      refine fails_bind (record_fails _ _) fun _ => fails_bind ?_ fun _ => fails_pure _
      refine fails_bind (fails_gets _) fun batch => ?_
      cases batch with
      | none => exact fails_pure _
      | some st => exact fails_bind (fails_update _) fun _ => fails_pure _
    | none => exact fails_bind (oneShot_returned _) fun _ => fails_pure _
  · rintro ⟨dev, _ | _⟩
    · exact fails_bind (destroyBufferNow_fails _) fun _ => fails_pure _
    · exact fails_pure _
  · exact fun e he => fails_bind (destroyBufferNow_fails _) fun _ => fails_fail he

theorem newStaging_returned (total : Nat) : Fails GpuErr.Returned (newStaging E total) := by
  refine fails_observe_bind (allocBuffer_returned _) (fun b => ?_) fun e _ => ?_
  · exact fails_bind (fails_pure _) fun _ => fails_bind (fails_update _) fun _ => fails_pure _
  · exact fails_bind (allocBuffer_returned _) fun _ => fails_bind (fails_update _) fun _ =>
      fails_pure _

theorem readbackStaging_returned (total : Nat) :
    Fails GpuErr.Returned (readbackStaging E total) := by
  refine fails_bind (fails_gets _) fun cached => ?_
  cases cached with
  | none => exact newStaging_returned _
  | some b =>
    by_cases h : b.size < total
    · simp only [if_pos h]
      exact fails_bind (fails_update _) fun _ => fails_bind (destroyBufferNow_fails _) fun _ =>
        newStaging_returned _
    · simp only [if_neg h]
      exact fails_pure _

theorem readbackF32All_returned (bufs : List GpuBuffer) :
    Fails GpuErr.Returned (readbackF32All E bufs) :=
  fails_bind (readbackStaging_returned _) fun _ => fails_bind (oneShot_returned _) fun _ =>
    fails_bind (attempt_returned _) fun _ => fails_bind (attempt_returned _) fun _ => fails_gets _

theorem finishBatch_returned (submit : Bool) : Fails GpuErr.Returned (finishBatch E submit) := by
  refine fails_bind ?_ fun st => fails_ensure (fails_bind (attempt_returned _) fun _ => ?_)
  · refine fails_bind (fails_gets _) fun batch => ?_
    cases batch with
    | none => exact fails_fail fun _ h => GpuErr.noConfusion h
    | some st =>
      exact fails_bind (fails_update _) fun _ => fails_bind (fails_emit _) fun _ => fails_pure _
  · cases submit with
    | true => exact submitWait_returned _ _ _ _
    | false => exact fails_pure _

theorem armedBatch_returned {α : Type} {pass : Guarded F α} (h : Fails GpuErr.Returned pass) :
    Fails GpuErr.Returned (armedBatch E pass) :=
  fails_bind (fails_lift beginBatch_returned) fun _ => fails_onError (fails_bind h fun _ =>
    fails_bind (fails_lift (finishBatch_returned _)) fun _ => fails_pure _)

theorem runComputePush_returned (shader : Shader) (bufs : List GpuBuffer) (groupsX : Nat)
    (push : List (Word F)) :
    Fails GpuErr.Returned (runComputePush E shader bufs groupsX push) := by
  unfold runComputePush
  by_cases h : (splitGroups groupsX E.maxGroupsX).2 > 65535
  · simp only [if_pos h]
    exact fails_bind (fails_emit _) fun _ => fails_fail fun _ h => GpuErr.noConfusion h
  · simp only [if_neg h]
    refine fails_bind (getPipe_returned _) fun objs => fails_bind (fails_gets _) fun cmd => ?_
    cases cmd with
    | some cmd =>
      refine fails_bind (allocSet_returned _ _) fun set =>
        fails_bind (fails_each (record_fails _) _) fun _ => fails_bind (fails_gets _) fun batch => ?_
      cases batch with
      | some st => exact fails_update _
      | none => exact fails_pure _
    | none =>
      exact fails_bind (attempt_returned _) fun _ => fails_bind (resetPool_fails _) fun _ =>
        fails_bind (allocSet_returned _ _) fun _ => oneShot_returned _

end Context

/-! ## 2. The passes -/

section Engine

variable {D : Type} [F32 F] [F64 D] [Convert F D] {E : Env F}

omit [F32 F] in
theorem dispatchInto_returned (out : GpuBuffer) {run : Gpu F Unit}
    (h : Fails GpuErr.Returned run) : Fails GpuErr.Returned (dispatchInto out run) :=
  fails_bind (fails_onError h) fun _ => fails_pure _

theorem downsample_returned (src : GpuBuffer) (iw ih : Nat) :
    Fails GpuErr.Returned (downsample E src iw ih) :=
  fails_bind (allocBuffer_returned _) fun _ =>
    dispatchInto_returned _ (runComputePush_returned _ _ _ _)

theorem mulGpu_returned (a b : GpuBuffer) (n : Nat) : Fails GpuErr.Returned (mulGpu E a b n) :=
  fails_bind (allocBuffer_returned _) fun _ =>
    dispatchInto_returned _ (runComputePush_returned _ _ _ _)

theorem xybConvert_returned (linear : GpuBuffer) (n : Nat) (positive : Bool) :
    Fails GpuErr.Returned (xybConvert E D linear n positive) :=
  fails_bind (allocBuffer_returned _) fun _ =>
    dispatchInto_returned _ (runComputePush_returned _ _ _ _)

theorem blurPlanes_returned (rg : RgConst F) (input : GpuBuffer) (w h : Nat) :
    Fails GpuErr.Returned (blurPlanes E rg input w h) := by
  refine fails_bind (createBufferF32_returned _) fun rgbuf =>
    fails_bind (allocBuffer_returned _) fun temp => fails_bind (allocBuffer_returned _) fun out =>
      fails_observe_bind ?_ (fun _ => ?_) fun e he => ?_
  · exact fails_bind (runComputePush_returned _ _ _ _) fun _ => runComputePush_returned _ _ _ _
  · exact fails_bind (destroyBuffer_fails _) fun _ => fails_bind (destroyBuffer_fails _) fun _ =>
      fails_pure _
  · exact fails_bind (destroyBuffer_fails _) fun _ => fails_bind (destroyBuffer_fails _) fun _ =>
      fails_fail he

theorem computePass_returned (rg : RgConst F) (scale : Nat) (l : LevelGpu) :
    Fails GpuErr.Returned (computePass E D rg scale l) := by
  unfold computePass
  refine fails_bind ?_ fun l => ?_
  · by_cases hs : scale > 0
    · rw [if_pos hs]
      exact fails_bind (fails_keep (downsample_returned _ _ _)) fun _ =>
        fails_bind (fails_keep (downsample_returned _ _ _)) fun _ => fails_pure _
    · rw [if_neg hs]
      exact fails_pure _
  exact fails_bind (fails_keep (xybConvert_returned _ _ _)) fun _ =>
    fails_bind (fails_keep (xybConvert_returned _ _ _)) fun _ =>
    fails_bind (fails_keep (mulGpu_returned _ _ _)) fun _ =>
    fails_bind (fails_keep (mulGpu_returned _ _ _)) fun _ =>
    fails_bind (fails_keep (mulGpu_returned _ _ _)) fun _ =>
    fails_bind (fails_keep (blurPlanes_returned _ _ _ _)) fun _ =>
    fails_bind (fails_keep (blurPlanes_returned _ _ _ _)) fun _ =>
    fails_bind (fails_keep (blurPlanes_returned _ _ _ _)) fun _ =>
    fails_bind (fails_keep (blurPlanes_returned _ _ _ _)) fun _ =>
    fails_bind (fails_keep (blurPlanes_returned _ _ _ _)) fun _ =>
    fails_bind (fails_keep (allocBuffer_returned _)) fun _ =>
    fails_bind (fails_keep (allocBuffer_returned _)) fun _ =>
    fails_bind (fails_lift (runComputePush_returned _ _ _ _)) fun _ => fails_pure _

/-! ## 3. The single shot -/

variable {f : Launches F} {N : Nat} {s : Sys F} {owned : List GpuBuffer}

/-- **The maps read back are whole**, so their slices are there. -/
theorem readNorms_returned (hs : s.Valid) (ho : s.openCmd = none) {sd ed : GpuBuffer}
    {both : List F × List F} (hsd : Holds E.kernel s sd both.1) (hed : Holds E.kernel s ed both.2)
    {w h : Nat} (hl : both.1.length = 3 * (w * h) ∧ both.2.length = 3 * (w * h)) :
    Post (readNorms E D sd ed w h) (s, owned) fun r _ _ => ∀ e, r = .error e → e.Returned := by
  have hread : Meets Prod.fst E.kernel 0 [] (s, owned) (some [both.1, both.2])
      (fun _ a x => a = x) (lift (readbackF32All E [sd, ed])) :=
    Meets.lift (readbackF32All_meets hs ho (.cons hsd (.cons hed .nil)))
  refine fails_bind_post hread (fails_lift (readbackF32All_returned _)) fun a p t hr => ?_
  obtain ⟨x, hx, rfl⟩ := hr.sound a rfl
  cases hx
  obtain ⟨sn, hsn⟩ := Option.isSome_iff_exists.mp (Denote.isSome_norms (D := D) hl)
  have e : normsOf D [both.1, both.2] w h = some sn := hsn
  rw [e]
  exact post_pure fun _ h => nomatch h

/-- **The scale loop does not panic**, by induction on the rounds to go. -/
theorem computeLoop_returned (hc : Computes D E f N) (hs : s.Valid) (ho : s.openCmd = none)
    (rg : RgConst F) (left scale : Nat) {l : LevelGpu} {v : Level F}
    (hl : LevelHeld E.kernel N s l v) (scales : List (ScaleNorms D)) :
    Post (computeLoop E D rg left scale l scales) (s, owned)
      fun r _ _ => ∀ e, r = .error e → e.Returned := by
  induction left generalizing s owned scale l v scales with
  | zero => exact post_pure fun _ h => nomatch h
  | succ left ih =>
    unfold computeLoop
    rw [hl.cw, hl.ch]
    by_cases h8 : v.w < 8 ∨ v.h < 8
    · rw [if_pos h8]
      exact post_pure fun _ h => nomatch h
    rw [if_neg h8]
    have hpass := computeRound_meets hc hs ho rg scale hl owned
    refine fails_bind_post hpass (armedBatch_returned (computePass_returned rg scale l))
      fun r p t hr => ?_
    obtain ⟨x, hx, sd, ed, l', rfl, hsd, hed, hlev⟩ := hr.sound r rfl
    obtain ⟨s1, owned1⟩ := p
    have he := hr.ext
    have ho1 : s1.openCmd = none := he.cmd.trans ho
    obtain ⟨v', -, hx⟩ := Option.bind_eq_some_iff.mp hx
    obtain ⟨both, hb, rfl⟩ := Option.map_eq_some_iff.mp hx
    dsimp only at hsd hed hlev ⊢
    rw [hlev.cw, hlev.ch]
    refine post_bind (post_and (readNorms_meets he.valid ho1 hsd hed v'.w v'.h)
      (readNorms_returned he.valid ho1 hsd hed (Denote.computeMaps_length E f hb)))
      (fun sn p t h => ?_) fun e p t h e' he => ?_
    · exact ih h.1.ext.valid (h.1.ext.cmd.trans ho1) (scale + 1) (hlev.stable h.1.ext) _
    · cases he
      exact h.2 e rfl

omit [F32 F] in
theorem run_assertLen {lin : List F} {w h : Nat} (hl : lin.length = 3 * w * h) (s : Sys F) :
    assertLen lin w h s = ⟨.ok (), s, []⟩ := by
  unfold assertLen
  rw [if_pos hl]
  rfl

theorem run_gaussian {rg : RgConst F}
    (hrg : createRecursiveGaussian F (F64.lit 1.5 : D) = some rg) (s : Sys F) :
    gaussian D s = ⟨.ok rg, s, []⟩ := by
  unfold gaussian
  rw [hrg]
  rfl

/-- **The single shot of two whole images does not panic.** -/
theorem computeSsimulacra2Gpu_returned (hs : s.Valid) (ho : s.openCmd = none) {lin1 lin2 : List F}
    {w h : Nat} (hc : Computes D E f (3 * w * h))
    (hrg : (createRecursiveGaussian F (F64.lit 1.5 : D)).isSome) (h1 : lin1.length = 3 * w * h)
    (h2 : lin2.length = 3 * w * h) :
    Post (computeSsimulacra2Gpu E D lin1 lin2 w h) s
      fun r _ _ => ∀ e, r = .error e → e.Returned := by
  obtain ⟨rg, hrg⟩ := Option.isSome_iff_exists.mp hrg
  unfold computeSsimulacra2Gpu
  refine post_step (run_assertLen h1 s) (post_step (run_assertLen h2 s)
    (post_step (run_gaussian hrg s) ?_))
  refine post_withOwner (M := fun r _ _ => ∀ e, r = .error e → e.Returned) ?_ fun r s' owned t h => ?_
  swap
  · exact h
  refine fails_bind_post (keepUpload_meets hs lin1)
    (fails_keep (createBufferF32_returned lin1)) fun l1 p3 t3 a => ?_
  obtain ⟨s3, owned3⟩ := p3
  have he3 := a.ext
  obtain ⟨_, hx, hl1, rfl⟩ := a.sound l1 rfl
  cases hx
  refine fails_bind_post (keepUpload_meets he3.valid lin2)
    (fails_keep (createBufferF32_returned lin2)) fun l2 p4 t4 b => ?_
  obtain ⟨s4, owned4⟩ := p4
  have he4 := b.ext
  obtain ⟨_, hy, hl2, rfl⟩ := b.sound l2 rfl
  cases hy
  refine computeLoop_returned (v := ⟨_, _, w, h⟩) hc he4.valid (he4.cmd.trans (he3.cmd.trans ho)) rg 6 0
    ⟨fun p hp => ?_, rfl, rfl, h1, h2, le_rfl⟩ []
  rcases List.mem_pair.mp hp with rfl | rfl
  · exact hl1.stable he4 List.not_mem_nil
  · exact hl2

end Engine

end Ssimulacra2
