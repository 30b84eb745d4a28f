/-
  File:      Ssimulacra2/Vulkan/Custody.lean
  Subject:   The handles of the engine: every function balances its books, and so does every run of
             calls, up to the release of the context.

  A program of the engine owns the buffers of its list (`Guards`), so at any point of a call every
  handle that was made is held by the context, by the list, by an image that is alive, or was
  released. What is lost is lost by the events of `losses` and by nothing else.
-/
import Ssimulacra2.Vulkan.Ledger
import Ssimulacra2.Vulkan.Calls

namespace Ssimulacra2

open Fallible Prog

variable {F : Type}

/-! ## 1. Launches -/

section Launches

variable [Zero F] {E : Env F} {b : Bool} {c c' : Nat}

theorem owes_zero {ε α : Type} : (owes fun _ => 0 : Except ε α → Multiset Res) = spent := by
  funext r
  cases r with
  | ok _ => rfl
  | error _ => rfl

omit [Zero F] in
/-- A helper's output is the caller's, or released. -/
theorem dispatchInto_pays (out : GpuBuffer) {run : Gpu F Unit}
    (h : Pays losses b c c' run 0 (fun _ => 0)) :
    Pays losses b c c' (dispatchInto out run) (handles out) handles := by
  intro s hs
  have h1 : Post (onError (destroyBuffer out) run) s ((ledger losses).Accounts s (handles out + 0)
      (owes fun _ => handles out) fun _ s' _ => s'.Ready b c') :=
    accounts_onError (h s hs) (fun _ _ _ ha => ⟨ha, add_zero _⟩) (fun _ s' _ he =>
      accounts_mono (destroyBuffer_accounts out s' he) fun _ _ _ h => h.2) fun _ => rfl
  rw [add_zero] at h1
  exact accounts_bind h1 (fun _ _ _ ha => accounts_pure ha rfl) (fun _ _ _ he => he) fun _ _ _ _ => rfl

/-- The dispatch of a helper. -/
theorem dispatch_pays (hE : E.stack = []) (hc : c + 1 ≤ 63) (shader : Shader)
    (bufs : List GpuBuffer) (groupsX : Nat) (push : List (Word F)) :
    Pays losses b c (c + 1) (runComputePush E shader bufs groupsX push) 0 (fun _ => 0) := by
  refine runComputePush_pays (outer_quiet hE (by decide)) ?_ hc shader bufs groupsX push
  rw [hE]
  exact ⟨fun h => h.elim, fun h => absurd rfl h⟩

end Launches

section Engine

variable {D : Type} [F32 F] [F64 D] [Convert F D] {E : Env F} {b : Bool} {c : Nat}

theorem createEmpty_pays (hE : E.stack = []) (len : Nat) :
    Pays losses b c c (createEmpty E len) 0 handles := (createEmpty_steady hE _).pays

theorem downsample_pays (hE : E.stack = []) (hc : c + 1 ≤ 63) (src : GpuBuffer) (iw ih : Nat) :
    Pays losses b c (c + 1) (downsample E src iw ih) 0 handles :=
  pays_bind (createEmpty_pays hE _) (fun dst => dispatchInto_pays dst
    (dispatch_pays hE hc _ _ _ _)) (Nat.le_succ c)

theorem mulGpu_pays (hE : E.stack = []) (hc : c + 1 ≤ 63) (x y : GpuBuffer) (n : Nat) :
    Pays losses b c (c + 1) (mulGpu E x y n) 0 handles :=
  pays_bind (createEmpty_pays hE _) (fun o => dispatchInto_pays o
    (dispatch_pays hE hc _ _ _ _)) (Nat.le_succ c)

theorem xybConvert_pays (hE : E.stack = []) (hc : c + 1 ≤ 63) (linear : GpuBuffer) (n : Nat)
    (positive : Bool) : Pays losses b c (c + 1) (xybConvert E D linear n positive) 0 handles :=
  pays_bind (createEmpty_pays hE _) (fun out => dispatchInto_pays out
    (dispatch_pays hE hc _ _ _ _)) (Nat.le_succ c)

/-- **`blur_planes`** loses what it holds when it returns early, and its output when a pass fails. -/
theorem blurPlanes_pays (hc : c + 2 ≤ 63) (rg : RgConst F) (input : GpuBuffer) (w h : Nat) :
    Pays losses b c (c + 2) (blurPlanes E rg input w h) 0 handles := by
  have hlose (calls : List Call) {fr : Multiset Res} (hfr : fr ≠ 0) :
      Loses losses (E.enter .blurPlanes).stack calls fr := loses_all (fun _ _ => trivial) hfr
  have hrun {c : Nat} (hc : c + 1 ≤ 63) (out : GpuBuffer) (shader : Shader) (bufs : List GpuBuffer)
      (g : Nat) (push : List (Word F)) : Pays losses b c (c + 1)
        (runComputePush (E.enter .blurPlanes) shader bufs g push) (handles out) fun _ => handles out :=
    runComputePush_pays (hlose _ (handles_ne out)) ⟨fun _ => handles_ne out, fun _ => trivial⟩ hc
      shader bufs g push
  unfold blurPlanes
  dsimp only
  refine pays_bind (createBufferF32_pays _) (fun rgbuf => ?_) (Nat.le_add_right c 2)
  refine pays_bind (allocBuffer_steady _ (hlose _ (handles_ne rgbuf)) fun _ _ => trivial).pays
    (fun temp => ?_) (Nat.le_add_right c 2)
  refine pays_bind (allocBuffer_steady _ (hlose _ (handles_add_ne temp _)) fun _ _ => trivial).pays
    (fun out => ?_) (Nat.le_add_right c 2)
  intro s hs
  have hpasses : Pays losses b c (c + 2) (do
      runComputePush (E.enter .blurPlanes) .blurH [input, temp, rgbuf]
        (groupsOf (E.asU32 (3 * h))) (pushBytes rg (E.asU32 w) (E.asU32 h))
      runComputePush (E.enter .blurPlanes) .blurV [temp, out, rgbuf]
        (groupsOf (E.asU32 (3 * w))) (pushBytes rg (E.asU32 w) (E.asU32 h))) (handles out)
      fun _ => handles out :=
    pays_bind (hrun (by omega) out _ _ _ _) (fun _ => hrun hc out _ _ _ _) (Nat.le_succ _)
  have hobs := accounts_frame (accounts_observe (hpasses s hs)) (handles temp + handles rgbuf)
  refine accounts_bind hobs (fun r s1 _ h1 => ?_) (fun _ _ _ h => h.elim fun _ h => h.2)
    fun _ _ _ h => h.elim fun _ h => by cases h.1
  have hr1 : s1.Ready b (c + 2) := h1.elim fun _ h => h.2
  -- the two inner buffers are released, the output is left to the answer
  let fr : Multiset Res := owes (fun _ : Unit => handles out) r
  have hinn : owes (owes fun _ : Unit => handles out) (.ok r : Except GpuErr (Except GpuErr Unit)) +
      (handles temp + handles rgbuf) = handles rgbuf + (handles temp + fr) := by
    show fr + (handles temp + handles rgbuf) = handles rgbuf + (handles temp + fr)
    abel
  rw [hinn]
  refine accounts_surely (accounts_frame (destroyBuffer_accounts rgbuf s1 hr1) (handles temp + fr))
    fun s2 _ hr2 => ?_
  have h3 := accounts_frame (destroyBuffer_accounts (L := losses) temp s2 hr2) fr
  have hz : spent (.ok () : Except GpuErr Unit) + (handles temp + fr) = handles temp + fr := zero_add _
  rw [hz]
  refine accounts_surely h3 fun s3 _ hr3 => ?_
  cases r with
  | ok _ => exact accounts_pure hr3 (zero_add _)
  | error e => exact accounts_fail hr3 (zero_add _)

end Engine

/-! ## 2. Programs that own buffers -/

/-- **A program guards its buffers**: whatever it makes is in its list, in the context or
    released. -/
def Guards {α : Type} (b : Bool) (c c' : Nat) (m : Guarded F α) : Prop :=
  ∀ (s : Sys F) (o : List GpuBuffer), s.Ready b c →
    Post m (s, o) (((ledger losses).beside handles).Accounts (s, o) 0 spent fun _ p _ =>
      p.1.Ready b c')

section Guards

variable {α β : Type} {b : Bool} {c c' c'' : Nat} {m : Guarded F α} {f : α → Guarded F β}

theorem guards_bind (h : Guards b c c' m) (hf : ∀ a, Guards b c' c'' (f a)) (hc : c' ≤ c'') :
    Guards b c c'' (m >>= f) := fun s o hs =>
  accounts_bind (h s o hs) (fun a p _ ha => hf a p.1 p.2 ha) (fun _ _ _ he => he.mono hc)
    fun _ _ _ _ => rfl

theorem guards_pure (a : α) (hc : c ≤ c') : Guards b c c' (pure a : Guarded F α) :=
  fun _ _ hs => accounts_pure (hs.mono hc) rfl

theorem guards_fail (e : GpuErr) (hc : c ≤ c') : Guards b c c' (fail e : Guarded F α) :=
  fun _ _ hs => accounts_fail (hs.mono hc) rfl

/-- Nothing follows an error. -/
theorem guards_stop (e : GpuErr) (f : α → Guarded F β) (hc : c ≤ c') :
    Guards b c c' ((fail e : Guarded F α) >>= f) := fun _ _ hs =>
  post_run rfl ⟨hs.mono hc, .still rfl le_rfl rfl rfl Book.tight_nil⟩

theorem guards_lift {m : Gpu F α} (h : Pays losses b c c' m 0 (fun _ => 0)) :
    Guards b c c' (lift m : Guarded F α) := by
  intro s o hs
  have h' := h s hs
  rw [owes_zero] at h'
  exact accounts_lift h'

theorem guards_keep {m : Gpu F GpuBuffer} (h : Pays losses b c c' m 0 handles) :
    Guards b c c' (keep m : Guarded F GpuBuffer) := fun s _ hs =>
  accounts_keep (h s hs) (fun _ _ _ h => h) fun _ _ _ h => h

/-- With no batch open the count does not matter. -/
theorem guards_closed {c₁ c₂ : Nat} (h : Guards false c c' m) : Guards false c₁ c₂ m := fun s o hs =>
  accounts_mono (h s o (hs.closed.mono (Nat.zero_le c))) fun _ _ _ h =>
    h.closed.mono (Nat.zero_le c₂)

variable [Zero F] {E : Env F}

/-- What runs inside a batch: it may have ended the batch. -/
def Passes (pass : Guarded F α) : Prop :=
  ∀ (s : Sys F) (o : List GpuBuffer), s.Ready true 0 →
    Post pass (s, o) (((ledger losses).beside handles).Accounts (s, o) 0 spent fun _ p _ =>
      ∃ b c, p.1.Ready b c)

omit [Zero F] in
theorem Guards.passes (h : Guards true 0 c m) : Passes m := fun s o hs =>
  accounts_mono (h s o hs) fun _ _ _ hr => ⟨true, c, hr⟩

theorem finish_guards (hE : E.stack = []) (submit : Bool) {p : Sys F × List GpuBuffer}
    (hp : ∃ b c, p.1.Ready b c) :
    Post (lift (finishBatch E submit) : Guarded F Unit) p
      (((ledger losses).beside handles).Accounts p 0 spent fun _ p' _ => p'.1.Ready false 0) := by
  obtain ⟨b, c, hs⟩ := hp
  exact accounts_lift (finishBatch_accounts hE submit hs)

theorem abortOnError_passes (hE : E.stack = []) (h : Passes m) : Passes (abortOnError E m) := by
  intro s o hs
  have hz : (0 : Multiset Res) = 0 + 0 := (zero_add 0).symm
  rw [hz]
  exact accounts_onError (h s o hs) (fun _ _ _ ha => ⟨ha, zero_add _⟩) (fun _ p _ he =>
    accounts_mono (finish_guards hE false he) fun _ _ _ hr => ⟨false, 0, hr⟩) fun _ => rfl

/-- **A batch under its guard** ends closed, whatever its pass did. -/
theorem armedBatch_guards (hE : E.stack = []) (h : Passes m) : Guards false c c' (armedBatch E m) := by
  intro s o hs
  have hbegin : Post (lift (beginBatch E) : Guarded F Unit) (s, o)
      (((ledger losses).beside handles).Accounts (s, o) 0 spent fun r p _ =>
        (r = .ok () ∧ p.1.Ready true 0) ∨ ((∃ e, r = .error e) ∧ p.1.Ready false 0)) :=
    accounts_lift (beginBatch_accounts hE hs)
  unfold armedBatch
  refine accounts_bind hbegin (fun _ p _ hb => ?_) (fun e _ _ hb => ?_) fun _ _ _ _ => rfl
  · have hr : p.1.Ready true 0 := hb.elim (fun h => h.2) fun h => by cases h.1.choose_spec
    have hbody : Post (do
        let a ← m
        lift (endBatch E)
        pure a) p (((ledger losses).beside handles).Accounts p 0 spent fun r p' _ =>
          (∃ b c, p'.1.Ready b c) ∧ ∀ a, r = .ok a → p'.1.Ready false c') := by
      refine accounts_bind (h p.1 p.2 hr) (fun a p' _ ha => ?_) (fun _ _ _ he => ⟨he, nofun⟩)
        fun _ _ _ _ => rfl
      refine accounts_bind (finish_guards hE true ha) (fun _ p'' _ h2 => ?_)
        (fun _ _ _ h2 => ⟨⟨false, 0, h2⟩, nofun⟩) fun _ _ _ _ => rfl
      exact accounts_pure ⟨⟨false, 0, h2⟩, fun _ _ => h2.mono (Nat.zero_le c')⟩ rfl
    have hz : spent (.ok () : Except GpuErr Unit) = (0 + 0 : Multiset Res) := (zero_add 0).symm
    rw [hz]
    exact accounts_onError hbody (fun a _ _ ha => ⟨ha.2 a rfl, zero_add _⟩) (fun _ p' _ he =>
      accounts_mono (finish_guards hE false he.1) fun _ _ _ hr => hr.mono (Nat.zero_le c')) fun _ => rfl
  · exact hb.elim (fun h => by cases h.1) fun h => h.2.mono (Nat.zero_le c')

end Guards

/-! ## 3. Passes and loops -/

section Loops

variable {D : Type} [F32 F] [F64 D] [Convert F D] {E : Env F}

theorem computePass_guards (hE : E.stack = []) (rg : RgConst F) (scale : Nat) (l : LevelGpu) :
    Guards true 0 18 (computePass E D rg scale l) := by
  have hdown : Guards true 0 2 (if scale > 0 then do
      let d1 ← keep (downsample E l.l1 l.cw l.ch)
      let d2 ← keep (downsample E l.l2 l.cw l.ch)
      pure ⟨d1, d2, (l.cw + 1) / 2, (l.ch + 1) / 2⟩
    else pure l : Guarded F LevelGpu) := by
    by_cases hs : scale > 0
    · rw [if_pos hs]
      refine guards_bind (guards_keep (downsample_pays hE (by decide) _ _ _)) (fun _ => ?_) (by decide)
      refine guards_bind (guards_keep (downsample_pays hE (by decide) _ _ _)) (fun _ => ?_) le_rfl
      exact guards_pure _ le_rfl
    · rw [if_neg hs]
      exact guards_pure _ (by decide)
  unfold computePass
  refine guards_bind hdown (fun l => ?_) (by decide)
  refine guards_bind (guards_keep (xybConvert_pays hE (by decide) _ _ _)) (fun x1 => ?_) (by decide)
  refine guards_bind (guards_keep (xybConvert_pays hE (by decide) _ _ _)) (fun x2 => ?_) (by decide)
  refine guards_bind (guards_keep (mulGpu_pays hE (by decide) _ _ _)) (fun m11 => ?_) (by decide)
  refine guards_bind (guards_keep (mulGpu_pays hE (by decide) _ _ _)) (fun m22 => ?_) (by decide)
  refine guards_bind (guards_keep (mulGpu_pays hE (by decide) _ _ _)) (fun m12 => ?_) (by decide)
  refine guards_bind (guards_keep (blurPlanes_pays (by decide) _ _ _ _)) (fun s11 => ?_) (by decide)
  refine guards_bind (guards_keep (blurPlanes_pays (by decide) _ _ _ _)) (fun s22 => ?_) (by decide)
  refine guards_bind (guards_keep (blurPlanes_pays (by decide) _ _ _ _)) (fun s12 => ?_) (by decide)
  refine guards_bind (guards_keep (blurPlanes_pays (by decide) _ _ _ _)) (fun mu1 => ?_) (by decide)
  refine guards_bind (guards_keep (blurPlanes_pays (by decide) _ _ _ _)) (fun mu2 => ?_) (by decide)
  refine guards_bind (guards_keep (createEmpty_pays hE _)) (fun sd => ?_) (by decide)
  refine guards_bind (guards_keep (createEmpty_pays hE _)) (fun ed => ?_) (by decide)
  refine guards_bind (guards_lift (dispatch_pays hE (by decide) _ _ _ _)) (fun _ => ?_) (by decide)
  exact guards_pure _ le_rfl

omit [F32 F] in
theorem orPanic_guards {α : Type} (text : String) (x : Option α) {b : Bool} {c : Nat} :
    Guards (F := F) b c c (orPanic text x) := by
  cases x with
  | some a => exact guards_pure a le_rfl
  | none => exact guards_fail _ le_rfl

theorem readNorms_guards (hE : E.stack = []) (sd ed : GpuBuffer) (w h : Nat) :
    Guards false 0 0 (readNorms E D sd ed w h) :=
  guards_bind (guards_lift (readbackF32All_pays hE _)) (fun _ => orPanic_guards _ _) le_rfl

theorem computeLoop_guards (hE : E.stack = []) (rg : RgConst F) (left scale : Nat) (l : LevelGpu)
    (scales : List (ScaleNorms D)) : Guards false 0 0 (computeLoop E D rg left scale l scales) := by
  induction left generalizing scale l scales with
  | zero => exact guards_pure _ le_rfl
  | succ left ih =>
    unfold computeLoop
    by_cases h8 : l.cw < 8 ∨ l.ch < 8
    · rw [if_pos h8]
      exact guards_pure _ le_rfl
    · rw [if_neg h8]
      exact guards_bind (armedBatch_guards hE (computePass_guards hE rg scale l).passes) (fun _ =>
        guards_bind (readNorms_guards hE _ _ _ _) (fun _ => ih _ _ _) le_rfl) le_rfl

theorem prepPass_guards (hE : E.stack = []) (rg : RgConst F) (l : GpuBuffer) (cw ch : Nat) :
    Guards true 0 6 (prepPass E D rg l cw ch) := by
  unfold prepPass
  refine guards_bind (guards_keep (xybConvert_pays hE (by decide) _ _ _)) (fun x => ?_) (by decide)
  refine guards_bind (guards_keep (mulGpu_pays hE (by decide) _ _ _)) (fun m => ?_) (by decide)
  refine guards_bind (guards_keep (blurPlanes_pays (by decide) _ _ _ _)) (fun s => ?_) (by decide)
  refine guards_bind (guards_keep (blurPlanes_pays (by decide) _ _ _ _)) (fun mu => ?_) (by decide)
  exact guards_pure _ le_rfl

/-- The halving of one image, in a batch or not. -/
theorem halving_guards (hE : E.stack = []) {b : Bool} {c : Nat} (hc : c + 1 ≤ 63) (scale : Nat)
    (l : GpuBuffer) (cw ch : Nat) :
    Guards b c (c + 1) (if scale > 0 then do
      let d ← keep (downsample E l cw ch)
      pure (d, (cw + 1) / 2, (ch + 1) / 2)
    else pure (l, cw, ch) : Guarded F (GpuBuffer × Nat × Nat)) := by
  by_cases hs : scale > 0
  · rw [if_pos hs]
    exact guards_bind (guards_keep (downsample_pays hE hc _ _ _)) (fun _ => guards_pure _ le_rfl) le_rfl
  · rw [if_neg hs]
    exact guards_pure _ (Nat.le_succ c)

theorem prepLoop_guards (hE : E.stack = []) (rg : RgConst F) (left scale : Nat) (l : GpuBuffer)
    (cw ch : Nat) (scales : List ScalePrep) :
    Guards false 0 0 (prepLoop E D rg left scale l cw ch scales) := by
  induction left generalizing scale l cw ch scales with
  | zero => exact guards_pure _ le_rfl
  | succ left ih =>
    unfold prepLoop
    by_cases h8 : cw < 8 ∨ ch < 8
    · rw [if_pos h8]
      exact guards_pure _ le_rfl
    · rw [if_neg h8]
      refine guards_bind (guards_closed (halving_guards hE (c := 0) (by decide) scale l cw ch))
        (fun r => ?_) (le_refl 0)
      exact guards_bind (armedBatch_guards hE (abortOnError_passes hE
        (prepPass_guards hE rg _ _ _).passes)) (fun _ => ih _ _ _ _ _) le_rfl

theorem comparePass_guards (hE : E.stack = []) (rg : RgConst F) (sa sb : ScalePrep) :
    Guards true 0 4 (comparePass E rg sa sb) := by
  unfold comparePass
  refine guards_bind (guards_keep (mulGpu_pays hE (by decide) _ _ _)) (fun m12 => ?_) (by decide)
  refine guards_bind (guards_keep (blurPlanes_pays (by decide) _ _ _ _)) (fun s12 => ?_) (by decide)
  refine guards_bind (guards_keep (createEmpty_pays hE _)) (fun sd => ?_) (by decide)
  refine guards_bind (guards_keep (createEmpty_pays hE _)) (fun ed => ?_) (by decide)
  refine guards_bind (guards_lift (dispatch_pays hE (by decide) _ _ _ _)) (fun _ => ?_) (by decide)
  exact guards_pure _ le_rfl

theorem compareLoop_guards (hE : E.stack = []) (rg : RgConst F) (pairs : List (ScalePrep × ScalePrep))
    (scales : List (ScaleNorms D)) : Guards false 0 0 (compareLoop E D rg pairs scales) := by
  induction pairs generalizing scales with
  | nil => exact guards_pure _ le_rfl
  | cons p pairs ih =>
    exact guards_bind (armedBatch_guards hE (abortOnError_passes hE (comparePass_guards hE rg _ _).passes))
      (fun _ => guards_bind (readNorms_guards hE _ _ _ _) (fun _ => ih _) le_rfl) le_rfl

theorem comparePrepPass_guards (hE : E.stack = []) (rg : RgConst F) (si : Nat) (os : ScalePrep)
    (l : GpuBuffer) (cw ch : Nat) : Guards true 0 11 (comparePrepPass E D rg si os l cw ch) := by
  unfold comparePrepPass
  refine guards_bind (halving_guards hE (by decide) si l cw ch) (fun r => ?_) (by decide)
  obtain ⟨l, cw, ch⟩ := r
  dsimp only
  by_cases hsize : os.w = cw ∧ os.h = ch
  · rw [if_pos hsize]
    refine guards_bind (guards_keep (xybConvert_pays hE (by decide) _ _ _)) (fun vx => ?_) (by decide)
    refine guards_bind (guards_keep (mulGpu_pays hE (by decide) _ _ _)) (fun vm => ?_) (by decide)
    refine guards_bind (guards_keep (blurPlanes_pays (by decide) _ _ _ _)) (fun vs => ?_) (by decide)
    refine guards_bind (guards_keep (blurPlanes_pays (by decide) _ _ _ _)) (fun vmu => ?_) (by decide)
    refine guards_bind (guards_keep (mulGpu_pays hE (by decide) _ _ _)) (fun m12 => ?_) (by decide)
    refine guards_bind (guards_keep (blurPlanes_pays (by decide) _ _ _ _)) (fun s12 => ?_) (by decide)
    refine guards_bind (guards_keep (createEmpty_pays hE _)) (fun sd => ?_) (by decide)
    refine guards_bind (guards_keep (createEmpty_pays hE _)) (fun ed => ?_) (by decide)
    refine guards_bind (guards_lift (dispatch_pays hE (by decide) _ _ _ _)) (fun _ => ?_) (by decide)
    exact guards_pure _ le_rfl
  · rw [if_neg hsize]
    exact guards_stop _ _ (by decide)

theorem comparePrepLoop_guards (hE : E.stack = []) (rg : RgConst F) (scales : List ScalePrep)
    (si : Nat) (l : GpuBuffer) (cw ch : Nat) (out : List (ScaleNorms D)) :
    Guards false 0 0 (comparePrepLoop E D rg scales si l cw ch out) := by
  induction scales generalizing si l cw ch out with
  | nil => exact guards_pure _ le_rfl
  | cons os scales ih =>
    exact guards_bind (armedBatch_guards hE (abortOnError_passes hE
      (comparePrepPass_guards hE rg si os l cw ch).passes)) (fun _ =>
        guards_bind (readNorms_guards hE _ _ _ _) (fun _ => ih _ _ _ _ _) le_rfl) le_rfl

end Loops

/-! ## 4. Calls -/

section Calls

variable {D : Type} [F32 F] [F64 D] [Convert F D] {E : Env F}

omit [F32 F] in
theorem withOwner_pays {α : Type} {body : Guarded F α} (h : Guards false 0 0 body) :
    Pays losses false 0 0 (withOwner destroyBuffer body) 0 (fun _ => 0) := by
  intro s hs
  rw [owes_zero]
  exact accounts_withOwner destroyBuffer_accounts (h s [] hs)

omit [F32 F] in
theorem assertLen_pays (lin : List F) (w h : Nat) :
    Pays losses false 0 0 (assertLen lin w h) 0 (fun _ => 0) := by
  unfold assertLen
  by_cases hl : lin.length = 3 * w * h
  · rw [if_pos hl]
    exact pays_pure _ rfl
  · rw [if_neg hl]
    exact fun s hs => accounts_fail hs rfl

theorem gaussian_pays : Pays losses false 0 0 (gaussian D : Gpu F (RgConst F)) 0 (fun _ => 0) := by
  unfold gaussian orPanic
  cases createRecursiveGaussian F (F64.lit 1.5 : D) with
  | some a => exact pays_pure _ rfl
  | none => exact fun s hs => accounts_fail hs rfl

/-- **The single shot** gives back whatever it makes. -/
theorem computeSsimulacra2Gpu_pays (hE : E.stack = []) (lin1 lin2 : List F) (w h : Nat) :
    Pays losses false 0 0 (computeSsimulacra2Gpu E D lin1 lin2 w h) 0 (fun _ => 0) :=
  pays_bind (assertLen_pays _ _ _) (fun _ => pays_bind (assertLen_pays _ _ _) (fun _ =>
    pays_bind gaussian_pays (fun _ => withOwner_pays (guards_bind (guards_keep (createBufferF32_pays _))
      (fun _ => guards_bind (guards_keep (createBufferF32_pays _)) (fun _ =>
        computeLoop_guards hE _ _ _ _ _) le_rfl) le_rfl)) le_rfl) le_rfl) le_rfl

/-- **The preparation** leaves its buffers to the image. -/
theorem prepGpu_pays (hE : E.stack = []) (lin : List F) (w h : Nat) :
    Pays losses false 0 0 (prepGpu E D lin w h) 0 fun img => (img.bufs.map handles).sum := by
  refine pays_bind (assertLen_pays _ _ _) (fun _ => pays_bind gaussian_pays (fun rg => ?_) le_rfl) le_rfl
  have hbody : Guards false 0 0 (do
      let l ← keep (createBufferF32 E lin)
      prepLoop E D rg 6 0 l w h []) :=
    guards_bind (guards_keep (createBufferF32_pays _)) (fun _ => prepLoop_guards hE _ _ _ _ _ _ _) le_rfl
  exact pays_bind (fun s hs => accounts_handOver destroyBuffer_accounts (hbody s [] hs))
    (fun _ => pays_pure _ rfl) le_rfl

/-- **The comparison of two images** gives back whatever it makes. -/
theorem compareGpu_pays (hE : E.stack = []) (a b : PrepImage) :
    Pays losses false 0 0 (compareGpu E D a b : Gpu F (List (ScaleNorms D))) 0 (fun _ => 0) :=
  pays_bind gaussian_pays (fun _ => withOwner_pays (compareLoop_guards hE _ _ _)) le_rfl

/-- **The comparison with an image** gives back whatever it makes. -/
theorem comparePrepGpu_pays (hE : E.stack = []) (orig : PrepImage) (vlin : List F) (w h : Nat) :
    Pays losses false 0 0 (comparePrepGpu E D orig vlin w h) 0 (fun _ => 0) :=
  pays_bind (assertLen_pays _ _ _) (fun _ => pays_bind gaussian_pays (fun _ =>
    withOwner_pays (guards_bind (guards_keep (createBufferF32_pays _)) (fun _ =>
      comparePrepLoop_guards hE _ _ _ _ _ _ _) le_rfl)) le_rfl) le_rfl

omit [F32 F] in
theorem dropPrep_accounts (img : PrepImage) (s : Sys F) (hs : s.Ready false 0) :
    Post (dropPrep img) s ((ledger losses).Accounts s (img.bufs.map handles).sum spent fun r s' _ =>
      r = .ok () ∧ s'.Ready false 0) := accounts_dropAll destroyBuffer_accounts img.bufs s hs

/-- **The batch of variants** drops its original on every path. -/
theorem scoreBatchGpu_pays (hE : E.stack = []) (origLin : List F) (w h : Nat)
    (variants : List (List F)) :
    Pays losses false 0 0 (scoreBatchGpu E D origLin w h variants) 0 (fun _ => 0) := by
  have hloop (orig : PrepImage) (out : List (List (ScaleNorms D))) :
      Pays losses false 0 0 (scoreBatchLoop E D orig w h variants out) 0 (fun _ => 0) := by
    induction variants generalizing out with
    | nil => exact pays_pure _ rfl
    | cons v variants ih => exact pays_bind (comparePrepGpu_pays hE _ _ _ _) (fun _ => ih _) le_rfl
  refine pays_bind (prepGpu_pays hE _ _ _) (fun orig s hs => ?_) le_rfl
  have h := accounts_ensure (dropPrep orig) (Q := fun _ s' _ => s'.Ready false 0)
    (hloop orig [] s hs) fun r s' t hr => accounts_mono (dropPrep_accounts orig s' hr) fun _ _ _ h => h.2
  rwa [add_zero] at h

end Calls

/-! ## 5. Runs of calls -/

/-- The handles of an image. -/
def Prepared.handles (a : Prepared F) : Multiset Res := (a.img.bufs.map Ssimulacra2.handles).sum

/-- **What a client owns**: what the context holds, and its images. -/
def Client.assets (c : Client F) : Multiset Res :=
  c.sys.held + (c.images.map Prepared.handles).sum

section Runs

variable (D : Type) [F32 F] [F64 D] [Convert F D] (E : Env F)

/-- Calls one after the other, with their trace. -/
def Client.run (c : Client F) : List (Request F) → Client F × List (Event F)
  | [] => (c, [])
  | q :: qs => (((c.call D E q).1.run qs).1, (c.call D E q).2.trace ++ ((c.call D E q).1.run qs).2)

/-- The images and then the context are dropped. -/
def Client.close (c : Client F) : Gpu F Unit := do
  each dropPrep (c.images.map Prepared.img)
  dropContext

/-- **A whole life** of a context: its calls, then its end. -/
def lifeTrace (qs : List (Request F)) : List (Event F) :=
  ((Client.fresh F).run D E qs).2 ++
    (((Client.fresh F).run D E qs).1.close ((Client.fresh F).run D E qs).1.sys).trace

variable {D} {E}

omit [F32 F] in
theorem Pays.run {α : Type} {m : Gpu F α} {own : α → Multiset Res}
    (h : Pays losses false 0 0 m 0 own) {s : Sys F} (hs : s.Ready false 0) :
    (m s).state.Ready false 0 ∧
      (ledger losses).Balanced s (m s).state (m s).trace 0 (owes own (m s).result) := h s hs

/-- **One call balances the books** of the client. -/
theorem Client.call_balanced (hE : E.stack = []) {c : Client F} (hs : c.sys.Ready false 0)
    (q : Request F) :
    (c.call D E q).1.sys.Ready false 0 ∧
      (ledger losses).Balanced c.sys (c.call D E q).1.sys (c.call D E q).2.trace
        (c.images.map Prepared.handles).sum ((c.call D E q).1.images.map Prepared.handles).sum := by
  have hkeep {α : Type} {m : Gpu F α} (h : Pays losses false 0 0 m 0 (fun _ => 0)) :
      (m c.sys).state.Ready false 0 ∧ (ledger losses).Balanced c.sys (m c.sys).state (m c.sys).trace
        (c.images.map Prepared.handles).sum (c.images.map Prepared.handles).sum := by
    obtain ⟨hr, hb⟩ := h.run hs
    rw [owes_zero] at hb
    have hf := hb.frame (c.images.map Prepared.handles).sum
    exact ⟨hr, by simpa only [spent, zero_add] using hf⟩
  cases q with
  | compute lin1 lin2 w h => exact hkeep (computeSsimulacra2Gpu_pays hE lin1 lin2 w h)
  | compare a b => exact hkeep (compareGpu_pays hE a.img b.img)
  | comparePrep a vlin w h => exact hkeep (comparePrepGpu_pays hE a.img vlin w h)
  | scoreBatch lin w h variants => exact hkeep (scoreBatchGpu_pays hE lin w h variants)
  | prep lin w h =>
    obtain ⟨hr, hb⟩ := (prepGpu_pays (D := D) hE lin w h).run hs
    refine ⟨hr, ?_⟩
    have hf := hb.frame (c.images.map Prepared.handles).sum
    rw [zero_add] at hf
    unfold Client.call
    dsimp only
    cases hres : (prepGpu E D lin w h c.sys).result with
    | ok img =>
      rw [hres] at hf
      exact hf
    | error e =>
      rw [hres, owes, zero_add] at hf
      exact hf
  | drop i =>
    obtain ⟨⟨-, hr⟩, hb⟩ := accounts_each dropPrep_accounts ((c.images[i]?).toList.map Prepared.img)
      c.sys hs
    refine ⟨hr, ?_⟩
    have hf := hb.frame ((c.images.eraseIdx i).map Prepared.handles).sum
    rw [spent, zero_add, List.map_map] at hf
    have hsum : ((c.images[i]?).toList.map Prepared.handles).sum +
        ((c.images.eraseIdx i).map Prepared.handles).sum = (c.images.map Prepared.handles).sum := by
      by_cases hi : i < c.images.length
      · have hp := ((List.getElem_cons_eraseIdx_perm hi).map Prepared.handles).sum_eq
        rw [List.getElem?_eq_getElem hi, ← hp, List.map_cons, List.sum_cons, Option.toList_some,
          List.map_singleton, List.sum_singleton]
      · rw [List.getElem?_eq_none (not_lt.mp hi), List.eraseIdx_of_length_le (not_lt.mp hi)]
        exact zero_add _
    rw [← hsum]
    exact hf

/-- **A run of calls balances the books.** -/
theorem Client.run_balanced (hE : E.stack = []) (qs : List (Request F)) {c : Client F}
    (hs : c.sys.Ready false 0) :
    (c.run D E qs).1.sys.Ready false 0 ∧
      (ledger losses).Balanced c.sys (c.run D E qs).1.sys (c.run D E qs).2
        (c.images.map Prepared.handles).sum ((c.run D E qs).1.images.map Prepared.handles).sum := by
  induction qs generalizing c with
  | nil => exact ⟨hs, moved no_event le_rfl rfl⟩
  | cons q qs ih =>
    obtain ⟨hr, hb⟩ := Client.call_balanced (D := D) hE hs q
    obtain ⟨hr', hb'⟩ := ih hr
    exact ⟨hr', hb.trans hb'⟩

omit [F32 F] in
/-- Releases of a list of handles. -/
theorem released_balanced (rs : List Res) (s : Sys F) :
    (ledger losses).Balanced s s (rs.map Event.released) ↑rs 0 := by
  have hm : (ledger losses).mades (rs.map (Event.released (F := F))) = [] := by
    refine List.filterMap_eq_nil_iff.mpr fun w hw => ?_
    obtain ⟨r, -, rfl⟩ := List.mem_map.mp hw
    rfl
  have hf : (ledger losses).freeds (rs.map (Event.released (F := F))) = rs := by
    show (rs.map Event.released).filterMap Event.freed = rs
    rw [List.filterMap_map]
    exact List.filterMap_some
  refine ⟨0, ⟨fun _ w hw => ?_, fun _ => rfl⟩, ?_, ?_⟩
  · obtain ⟨r, -, rfl⟩ := List.mem_map.mp hw
    exact id
  · rw [hm, hf, Multiset.coe_nil, zero_add, add_zero, add_zero, add_comm]
  · rw [hm]
    exact .none le_rfl

omit [F32 F] in
theorem destroyPipe_accounts (o : PipeObjs) (s s0 : Sys F) (hs : s = s0) :
    Post (destroyPipe o) s ((ledger losses).Accounts s ↑o.res spent fun r s' _ =>
      r = .ok () ∧ s' = s0) := by
  refine ⟨⟨rfl, hs⟩, ?_⟩
  have h := released_balanced o.res.reverse s
  rw [Multiset.coe_reverse] at h
  exact h

omit [F32 F] in
/-- **The end of the context** releases all it holds. -/
theorem dropContext_accounts {s : Sys F} (hs : s.Ready false 0) :
    Post (dropContext : Gpu F Unit) s ((ledger losses).Accounts s 0 spent fun _ s' _ =>
      s'.held = 0) := by
  have hb : s.batch = none := Option.not_isSome_iff_eq_none.mp (by rw [hs.batch]; simp)
  let s1 : Sys F := { s with pipes := [] }
  let s2 : Sys F := { s1 with staging := none }
  unfold dropContext
  refine post_step (run_gets _ _) ?_
  have hpipes : Post (update fun s : Sys F => { s with pipes := [] }) s ((ledger losses).Accounts s 0
      (owes fun _ : Unit => (s.pipes.map fun p => (↑p.2.res : Multiset Res)).sum)
      fun (r : Except GpuErr Unit) s' _ => r = .ok () ∧ s' = s1) := by
    refine post_run (run_update _ _) ⟨⟨rfl, rfl⟩, moved no_event le_rfl ?_⟩
    show s.held + 0 = s1.held + _
    unfold Sys.held
    simp only [s1, owes, List.map_nil, List.sum_nil]
    abel
  refine accounts_surely hpipes fun s' _ h => ?_
  subst h
  have heach := accounts_each (fun o s hs => destroyPipe_accounts o s s1 hs) (s.pipes.map Prod.snd) s1 rfl
  rw [List.map_map] at heach
  refine accounts_surely heach fun s' _ h => ?_
  subst h
  refine post_step (run_gets _ _) ?_
  cases hst : s.staging with
  | none =>
    refine accounts_pure ?_ rfl
    unfold Sys.held
    simp [s1, hst, hb]
  | some b =>
    have htake : Post (update fun s : Sys F => { s with staging := none }) s1 ((ledger losses).Accounts s1 0
        (owes fun _ : Unit => handles b) fun (r : Except GpuErr Unit) s' _ => r = .ok () ∧ s' = s2) := by
      refine post_run (run_update _ _) ⟨⟨rfl, rfl⟩, moved no_event le_rfl ?_⟩
      show s1.held + 0 = s2.held + handles b
      unfold Sys.held
      simp [s2, s1, hst, hb]
    refine accounts_surely htake fun s' _ h => ?_
    subst h
    refine accounts_mono (destroyBufferNow_accounts b s2 (P := fun s' => s' = s2) rfl) fun _ _ _ h => ?_
    rw [h.2]
    unfold Sys.held
    simp [s2, s1, hb]

omit [F32 F] in
/-- **The end of a client**: its images and its context. -/
theorem Client.close_balanced {c : Client F} (hs : c.sys.Ready false 0) :
    (c.close c.sys).state.held = 0 ∧
      (ledger losses).Balanced c.sys (c.close c.sys).state (c.close c.sys).trace
        (c.images.map Prepared.handles).sum 0 := by
  have h := accounts_each dropPrep_accounts (c.images.map Prepared.img) c.sys hs
  rw [List.map_map] at h
  have hall : Post c.close c.sys ((ledger losses).Accounts c.sys (c.images.map Prepared.handles).sum
      spent fun _ s' _ => s'.held = 0) :=
    accounts_surely h fun _ _ hr => dropContext_accounts hr
  exact hall

end Runs

/-! ## 6. No handle is lost or released twice -/

section Once

variable {D : Type} [F32 F] [F64 D] [Convert F D] {E : Env F}

omit [F32 F] in
theorem fresh_held : (Sys.fresh F).held = 0 := rfl

/-- **Between any two calls**: after any calls of the engine, with whatever failures, nothing was
    released twice or without having been made; and what was made is, each handle once, released
    or owned by the client, if and only if no event of the trace lost something. -/
theorem engine_handles (hE : E.stack = []) (qs : List (Request F)) :
    let r := (Client.fresh F).run D E qs
    ((released r.2).Nodup ∧ ∀ x ∈ released r.2, x ∈ created r.2) ∧
      ((↑(created r.2) : Multiset Res) = ↑(released r.2) + r.1.assets ↔ ∀ w ∈ r.2, ¬losses.Of w) := by
  intro r
  obtain ⟨-, hb⟩ := Client.run_balanced (D := D) hE qs (c := Client.fresh F) Sys.fresh_ready
  exact ⟨hb.never_twice fresh_held, hb.exactly_once fresh_held⟩

/-- A device that fails in the middle of the first call, then a preparation and a comparison. -/
theorem engine_handles_three :
    let E : Env ℝ := { clearing with sched := fun n => if n = 40 then some "lost" else none }
    let qs : List (Request ℝ) := [.compute (.replicate 192 0) (.replicate 192 1) 8 8,
      .prep (.replicate 192 0) 8 8, .drop 0]
    let r := (Client.fresh ℝ).run ℝ E qs
    ((released r.2).Nodup ∧ ∀ x ∈ released r.2, x ∈ created r.2) ∧
      ((↑(created r.2) : Multiset Res) = ↑(released r.2) + r.1.assets ↔
        ∀ w ∈ r.2, ¬losses.Of w) := by
  intro E qs
  have hE : E.stack = [] := rfl
  clear_value E qs
  exact engine_handles hE qs

/-- **Over the life of a context**: every handle is released at most once; and every handle that was
    made is released, if and only if no event of the trace lost something. -/
theorem context_releases_everything (hE : E.stack = []) (qs : List (Request F)) :
    let t := lifeTrace D E qs
    (released t).Nodup ∧ ((∀ x, x ∈ created t ↔ x ∈ released t) ↔ ∀ w ∈ t, ¬losses.Of w) := by
  intro t
  obtain ⟨hr, hb⟩ := Client.run_balanced (D := D) hE qs (c := Client.fresh F) Sys.fresh_ready
  obtain ⟨hz, hc⟩ := Client.close_balanced hr
  have hall := hb.trans hc
  exact ⟨(hall.never_twice fresh_held).1, hall.released_all fresh_held hz⟩

/-- The life of a context on a device that fails once. -/
theorem context_releases_everything_two :
    let E : Env ℝ := { clearing with sched := fun n => if n = 40 then some "lost" else none }
    let qs : List (Request ℝ) := [.compute (.replicate 192 0) (.replicate 192 1) 8 8,
      .prep (.replicate 192 0) 8 8]
    let t := lifeTrace ℝ E qs
    (released t).Nodup ∧ ((∀ x, x ∈ created t ↔ x ∈ released t) ↔ ∀ w ∈ t, ¬losses.Of w) := by
  intro E qs
  have hE : E.stack = [] := rfl
  clear_value E qs
  exact context_releases_everything hE qs

end Once

end Ssimulacra2
