/-
  File:      Ssimulacra2/Vulkan/Ledger.lean
  Subject:   The handles of the context: what each of its functions makes, releases and loses.

  The state holds the cached staging buffer, the cached pipelines, the command buffer of the open
  batch and its trash. `losses` says where the source loses handles: after a buffer was created and
  before it is bound, when a batch does not begin, when the upload of a created buffer is not
  submitted, and anywhere between the first and the last line of `blur_planes`.

  `Pays` says of a function that its books balance: from a ready context, handed `inn`, it answers
  with `own`, and what it holds when it fails is lost if and only if `losses` says so. A function
  that is called while its caller holds `fr` takes `fr` along: it is lost with the rest.
-/
import Ssimulacra2.Lib.Ledger
import Ssimulacra2.Vulkan.Session

namespace Ssimulacra2

open Fallible Prog

variable {F : Type}

/-! ## 1. The book -/

/-- What is lost when a call fails, or a dispatch is refused, in a function. -/
structure Losses where
  failed : Call → List Fn → Prop
  refused : List Fn → Prop

/-- Whether an event loses handles. -/
def Losses.Of (L : Losses) : Event F → Prop
  | .failed call stack => L.failed call stack
  | .refused stack => L.refused stack
  | _ => False

/-- The steps of `alloc_buffer` after `create_buffer`. -/
def Call.afterBuffer : List Call := [.memoryType, .allocateMemory, .bindMemory]

/-- The steps of a submission. -/
def Call.ofSubmission : List Call := [.cmdbuf, .begin, .finish, .fence, .submit, .wait]

/-- **Where the source loses handles.** -/
def losses : Losses where
  failed c
    | .blurPlanes :: _ => True
    | .createBufferF32 :: _ => c ∈ Call.afterBuffer ∨ c ∈ Call.ofSubmission
    | [] => c ∈ Call.afterBuffer ∨ c = .batchBegin
  refused
    | .blurPlanes :: _ => True
    | _ => False

/-- The handle an event makes. -/
def Event.made : Event F → Option Res
  | .created r => some r
  | _ => Option.none

/-- The handle an event releases. -/
def Event.freed : Event F → Option Res
  | .released r => some r
  | _ => Option.none

/-- The handles that a trace makes, in order. -/
def created (t : List (Event F)) : List Res := t.filterMap Event.made

/-- The handles that a trace releases, in order. -/
def released (t : List (Event F)) : List Res := t.filterMap Event.freed

/-- The handles of a buffer. -/
def handles (b : GpuBuffer) : Multiset Res := ↑b.res

/-- The handles of a batch. -/
def Batch.held (st : Batch) : Multiset Res := {⟨.cmdBuf, st.cmd⟩} + (st.trash.map handles).sum

/-- **What the context holds.** -/
def Sys.held (s : Sys F) : Multiset Res :=
  (s.staging.toList.map handles).sum + (s.pipes.map fun p => (↑p.2.res : Multiset Res)).sum +
    (s.batch.toList.map Batch.held).sum

/-- The book of handles, under an account of losses. -/
def ledger (L : Losses) : Book (Sys F) (Event F) Res where
  made := Event.made
  freed := Event.freed
  held := Sys.held
  next := Sys.next
  number := Res.handle
  leaky := L.Of

/-- An event that is neither of a failure nor of a handle. -/
structure Event.Plain (w : Event F) : Prop where
  made : w.made = Option.none
  freed : w.freed = Option.none
  calm : ∀ L : Losses, ¬L.Of w

/-- **A step that moves handles** into the context or out of it. -/
theorem moved {L : Losses} {s s' : Sys F} {t : List (Event F)} {inn out : Multiset Res}
    (ht : ∀ w ∈ t, w.Plain) (hn : s.next ≤ s'.next) (hh : s.held + inn = s'.held + out) :
    (ledger L).Balanced s s' t inn out := by
  have hm : (ledger L).mades t = [] := List.filterMap_eq_nil_iff.mpr fun w hw => (ht w hw).made
  have hf : (ledger L).freeds t = [] := List.filterMap_eq_nil_iff.mpr fun w hw => (ht w hw).freed
  refine ⟨0, ⟨fun _ w hw => (ht w hw).calm L, fun _ => rfl⟩, ?_, ?_⟩
  · rw [hm, hf, Multiset.coe_nil, zero_add, zero_add, add_zero]
    exact hh
  · rw [hm]
    exact .none hn

theorem no_event {P : Event F → Prop} : ∀ w ∈ ([] : List (Event F)), P w :=
  fun _ h => absurd h List.not_mem_nil

theorem plain_ran (cmds : List (Cmd F)) : ∀ w ∈ cmds.map Event.ran, w.Plain := by
  intro w hw
  obtain ⟨c, -, rfl⟩ := List.mem_map.mp hw
  exact ⟨rfl, rfl, fun _ h => h⟩

theorem plain_recorded (cb : Nat) (cmds : List (Cmd F)) :
    ∀ w ∈ cmds.map (Event.recorded cb), w.Plain := by
  intro w hw
  obtain ⟨c, -, rfl⟩ := List.mem_map.mp hw
  exact ⟨rfl, rfl, fun _ h => h⟩

theorem plain_setFreed (sets : List DescSet) :
    ∀ w ∈ (sets.map fun d => Event.setFreed d.handle : List (Event F)), w.Plain := by
  intro w hw
  obtain ⟨d, -, rfl⟩ := List.mem_map.mp hw
  exact ⟨rfl, rfl, fun _ h => h⟩

/-! ## 2. Readiness -/

/-- The context with a batch open or not: at most one set of a pool is left from before the batch,
    and the batch tracks at most `c` sets of a pool. -/
structure Sys.Ready (b : Bool) (c : Nat) (s : Sys F) : Prop where
  batch : s.batch.isSome = b
  sets : ∃ kept, s.sets = kept ++ s.batchSets ∧ ∀ p, inPool p kept ≤ 1
  tracked : ∀ p, s.tracked p ≤ c

/-- The parts of the context a plain step leaves alone. -/
structure Sys.Alike (s s' : Sys F) : Prop where
  next_le : s.next ≤ s'.next
  sets : s'.sets = s.sets
  staging : s'.staging = s.staging
  pipes : s'.pipes = s.pipes
  batch : s'.batch = s.batch

theorem Sys.Alike.refl (s : Sys F) : s.Alike s := ⟨le_rfl, rfl, rfl, rfl, rfl⟩

theorem Sys.Alike.trans {s s' s'' : Sys F} (h : s.Alike s') (h' : s'.Alike s'') : s.Alike s'' :=
  ⟨le_trans h.next_le h'.next_le, h'.sets.trans h.sets, h'.staging.trans h.staging,
    h'.pipes.trans h.pipes, h'.batch.trans h.batch⟩

section Ready

variable {b : Bool} {c c' : Nat} {s s' : Sys F}

theorem Sys.Ready.mono (h : s.Ready b c) (hc : c ≤ c') : s.Ready b c' :=
  ⟨h.batch, h.sets, fun p => le_trans (h.tracked p) hc⟩

theorem Sys.Alike.ready (h : s.Alike s') (hs : s.Ready b c) : s'.Ready b c := by
  have hb : s'.batchSets = s.batchSets := by
    unfold Sys.batchSets
    rw [h.batch]
  refine ⟨by rw [h.batch, hs.batch], ?_, fun p => ?_⟩
  · rw [h.sets, hb]
    exact hs.sets
  · unfold Sys.tracked
    rw [hb]
    exact hs.tracked p

theorem Sys.Alike.held (h : s.Alike s') : s'.held = s.held := by
  unfold Sys.held
  rw [h.staging, h.pipes, h.batch]

/-- With no batch open nothing is tracked. -/
theorem Sys.Ready.closed (h : s.Ready false c) : s.Ready false 0 := by
  refine ⟨h.batch, h.sets, fun p => ?_⟩
  have hb : s.batch = Option.none := Option.not_isSome_iff_eq_none.mp (by rw [h.batch]; simp)
  unfold Sys.tracked Sys.batchSets
  rw [hb]
  exact Nat.zero_le 0

theorem Sys.Ready.live_le (h : s.Ready b c) (p : Nat) : s.live p ≤ c + 1 := by
  obtain ⟨kept, hk, hle⟩ := h.sets
  have h1 := hle p
  have h2 := h.tracked p
  unfold Sys.tracked at h2
  unfold Sys.live
  rw [hk, inPool_append]
  omega

theorem Sys.fresh_ready : (Sys.fresh F).Ready false 0 :=
  ⟨rfl, ⟨[], rfl, fun _ => Nat.zero_le 1⟩, fun _ => le_rfl⟩

end Ready

/-! ## 3. Rules -/

/-- **A steady function**: handed `inn`, it answers with `own` and leaves the context alone. -/
def Steady {α : Type} (L : Losses) (m : Gpu F α) (inn : Multiset Res) (own : α → Multiset Res) :
    Prop :=
  ∀ s : Sys F, Post m s ((ledger L).Accounts s inn (owes own) fun _ s' _ => s.Alike s')

section Steady

variable {α β : Type} {L : Losses} {m : Gpu F α} {f : α → Gpu F β} {inn fr : Multiset Res}
  {own : α → Multiset Res} {own' : β → Multiset Res}

theorem steady_bind (h : Steady L m inn own) (hf : ∀ a, Steady L (f a) (own a) own') :
    Steady L (m >>= f) inn own' := fun s =>
  accounts_bind (h s) (fun a s' _ ha => accounts_mono (hf a s') fun _ _ _ h => ha.trans h)
    (fun _ _ _ he => he) fun _ _ _ _ => rfl

theorem steady_pure (a : α) (h : inn = own a) : Steady L (pure a : Gpu F α) inn own :=
  fun s => accounts_pure (.refl s) h

/-- A checked call that failed: what the function holds is lost. -/
theorem failed_balanced {call : Call} {stack : List Fn} (hL : L.failed call stack ↔ fr ≠ 0)
    (s : Sys F) :
    (ledger L).Balanced s { s with tick := s.tick + 1 } [.failed call stack] fr 0 := by
  refine ⟨fr, ?_, ?_, .none le_rfl⟩
  · have ht : (ledger L).Tight ([.failed call stack] : List (Event F)) ↔ ¬L.failed call stack := by
      unfold Book.Tight
      rw [List.forall_mem_singleton]
      rfl
    rw [ht, hL, not_not]
  · show (↑([] : List Res) : Multiset Res) + s.held + fr = ↑([] : List Res) + s.held + 0 + fr
    rw [add_zero]

/-- A checked call in the middle of a function. -/
theorem steady_attempt {E : Env F} {call : Call} (hL : L.failed call E.stack ↔ fr ≠ 0) :
    Steady L (attempt E call) fr (fun _ => fr) := by
  intro s
  cases h : E.sched s.tick with
  | none =>
    have hm : attempt E call s = ⟨.ok (), { s with tick := s.tick + 1 }, []⟩ := by
      simp only [attempt, h]
    exact post_run hm ⟨⟨le_rfl, rfl, rfl, rfl, rfl⟩, moved no_event le_rfl rfl⟩
  | some code =>
    have hm : attempt E call s = ⟨.error (.driver call code), { s with tick := s.tick + 1 },
        [.failed call E.stack]⟩ := by
      simp only [attempt, h]
    exact post_run hm ⟨⟨le_rfl, rfl, rfl, rfl, rfl⟩, failed_balanced hL s⟩

/-- A new handle. -/
theorem steady_create (kind : Kind) :
    Steady (F := F) L (create kind) fr (fun h => {⟨kind, h⟩} + fr) := by
  intro s
  refine post_run (run_create kind s) ⟨⟨Nat.le_succ _, rfl, rfl, rfl, rfl⟩, 0, ?_, ?_, ?_⟩
  · refine ⟨fun _ w hw => ?_, fun _ => rfl⟩
    rw [List.mem_singleton.mp hw]
    exact id
  · show (↑[(⟨kind, s.next⟩ : Res)] : Multiset Res) + s.held + fr =
      ↑([] : List Res) + s.held + ({⟨kind, s.next⟩} + fr) + 0
    rw [Multiset.coe_singleton, Multiset.coe_nil]
    abel
  · exact .one (Nat.lt_succ_self _)

theorem run_release (r : Res) (s : Sys F) : release r s = ⟨.ok (), s, [.released r]⟩ := rfl

/-- A release of what the program holds. -/
theorem release_accounts (r : Res) (s : Sys F)
    {Q : Except GpuErr Unit → Sys F → List (Event F) → Prop} (hQ : Q (.ok ()) s [.released r]) :
    Post (release r) s ((ledger L).Accounts s {r} spent Q) := by
  refine post_run (run_release r s) ⟨hQ, 0, ⟨fun _ w hw => ?_, fun _ => rfl⟩, ?_, .none le_rfl⟩
  · rw [List.mem_singleton.mp hw]
    exact id
  · show (↑([] : List Res) : Multiset Res) + s.held + {r} = ↑[r] + s.held + 0 + 0
    rw [Multiset.coe_singleton, Multiset.coe_nil]
    abel

/-- A step whose run is known and changes nothing in the book. -/
theorem steady_run {v : Sys F → α} {g : Sys F → Sys F} {t : Sys F → List (Event F)}
    (hm : ∀ s, m s = ⟨.ok (v s), g s, t s⟩) (hg : ∀ s : Sys F, s.Alike (g s))
    (ht : ∀ s, ∀ w ∈ t s, w.Plain) : Steady L m fr (fun _ => fr) := fun s =>
  post_run (hm s) ⟨hg s, moved (ht s) (hg s).next_le (by rw [(hg s).held]; rfl)⟩

theorem steady_update {g : Sys F → Sys F} (hg : ∀ s : Sys F, s.Alike (g s)) :
    Steady L (update g) fr (fun _ => fr) :=
  steady_run (run_update g) hg fun _ => no_event

theorem steady_emit {w : Event F} (hw : w.Plain) : Steady L (emit w) fr (fun _ => fr) :=
  steady_run (run_emit w) (fun _ => ⟨le_rfl, rfl, rfl, rfl, rfl⟩) fun _ _ h => by
    rw [List.mem_singleton.mp h]
    exact hw

/-- A handle that is released on every path. -/
theorem steady_ensure (r : Res) (h : Steady L m fr own) :
    Steady L (ensure (release r) m) ({r} + fr) own := fun s =>
  accounts_ensure _ (h s) fun _ s' _ ho => release_accounts r s' ho

/-- What is always so of an answer. -/
def Answers (P : α → Prop) (m : Gpu F α) : Prop := ∀ s a, (m s).result = .ok a → P a

theorem answers_pure {P : α → Prop} {a : α} (h : P a) : Answers P (pure a : Gpu F α) := by
  intro s x hx
  cases hx
  exact h

theorem answers_bind {P : β → Prop} (hf : ∀ a, Answers P (f a)) : Answers P (m >>= f) := by
  intro s x hx
  cases hr : (m s).result with
  | ok a =>
    rw [bind_ok f hr] at hx
    exact hf a _ x hx
  | error e =>
    rw [bind_error f hr] at hx
    cases hx

theorem answers_onError {P : α → Prop} {undo : Gpu F Unit} (h : Answers P m) :
    Answers P (onError undo m) := by
  intro s x hx
  refine h s x ?_
  cases hr : (m s).result with
  | ok a => simpa only [onError, hr] using hx
  | error e =>
    simp only [onError, hr] at hx
    cases hx

/-- A handle that is released when the rest fails, and is part of the answer otherwise. -/
theorem steady_onError {own₁ : α → Multiset Res} (own : α → Multiset Res) (r : Res)
    (h : Steady L m fr own) (hown : Answers (fun a => {r} + own a = own₁ a) m) :
    Steady L (onError (release r) m) ({r} + fr) own₁ := by
  intro s
  refine accounts_onError (M := fun x s' _ => s.Alike s' ∧ ∀ a, x = .ok a → {r} + own a = own₁ a)
    ⟨⟨(h s).1, hown s⟩, (h s).2⟩ (fun a _ _ ha => ⟨ha.1, ha.2 a rfl⟩) (fun _ s' _ he =>
      release_accounts r s' he.1) fun _ => rfl

end Steady

/-- **A function pays its way**: from a ready context, handed `inn`, it answers with `own`. -/
def Pays {α : Type} (L : Losses) (b : Bool) (c c' : Nat) (m : Gpu F α) (inn : Multiset Res)
    (own : α → Multiset Res) : Prop :=
  ∀ s : Sys F, s.Ready b c → Post m s ((ledger L).Accounts s inn (owes own) fun _ s' _ =>
    s'.Ready b c')

section Pays

variable {α β : Type} {L : Losses} {b : Bool} {c c' c'' : Nat} {m : Gpu F α}
  {f : α → Gpu F β} {inn fr : Multiset Res} {own : α → Multiset Res} {own' : β → Multiset Res}

theorem Steady.pays (h : Steady L m inn own) : Pays L b c c m inn own := fun s hs =>
  accounts_mono (h s) fun _ _ _ ha => ha.ready hs

theorem pays_bind (h : Pays L b c c' m inn own)
    (hf : ∀ a, Pays L b c' c'' (f a) (own a) own') (hc : c' ≤ c'') :
    Pays L b c c'' (m >>= f) inn own' := fun s hs =>
  accounts_bind (h s hs) (fun a s' _ ha => hf a s' ha) (fun _ _ _ he => he.mono hc) fun _ _ _ _ => rfl

theorem pays_pure (a : α) (h : inn = own a) : Pays L b c c (pure a : Gpu F α) inn own :=
  (steady_pure a h).pays

end Pays

/-! ## 4. Buffers and submissions -/

section Context

variable [Zero F] {E : Env F} {L : Losses} {b : Bool} {c : Nat} {fr : Multiset Res}

/-- A failure of `calls`, or the holding of `fr`: a function that holds `fr` loses it when one of
    the calls fails. -/
def Loses (L : Losses) (stack : List Fn) (calls : List Call) (fr : Multiset Res) : Prop :=
  ∀ call ∈ calls, L.failed call stack ↔ fr ≠ 0

theorem steady_createMemory (size : Nat) :
    Steady L (createMemory E size) fr fun h => {⟨.memory, h⟩} + fr := by
  unfold createMemory
  refine steady_bind (steady_create .memory) fun memory => ?_
  exact steady_bind (steady_update fun s => ⟨le_rfl, rfl, rfl, rfl, rfl⟩) fun _ => steady_pure memory rfl

/-- **`alloc_buffer`**: a buffer that was created is lost by a failure of the later steps. -/
theorem allocBuffer_steady (size : Nat) (h0 : Loses L E.stack [.createBuffer] fr)
    (h1 : ∀ call ∈ Call.afterBuffer, L.failed call E.stack) :
    Steady L (allocBuffer E size) fr (fun b => handles b + fr) := by
  have hlate {call : Call} (hc : call ∈ Call.afterBuffer) {r : Res} {fr : Multiset Res} :
      L.failed call E.stack ↔ {r} + fr ≠ 0 := by
    rw [Multiset.singleton_add]
    exact ⟨fun _ => Multiset.cons_ne_zero, fun _ => h1 call hc⟩
  unfold allocBuffer
  refine steady_bind (steady_attempt (h0 _ (by decide))) fun _ => ?_
  refine steady_bind (steady_create .buffer) fun buffer => ?_
  refine steady_bind (steady_attempt (hlate (by decide))) fun _ => ?_
  refine steady_bind (steady_attempt (hlate (by decide))) fun _ => ?_
  refine steady_bind (steady_createMemory size) fun memory => ?_
  refine steady_bind (steady_attempt (hlate (by decide))) fun _ => steady_pure _ ?_
  show ({⟨.memory, memory⟩} + ({⟨.buffer, buffer⟩} + fr) : Multiset Res) =
    ({⟨.buffer, buffer⟩} + {⟨.memory, memory⟩}) + fr
  abel

/-- A submission makes and destroys its fence. -/
theorem submitWait_steady {c1 c2 c3 : Call} (h : Loses L E.stack [c1, c2, c3] fr) (cb : Nat) :
    Steady L (submitWait E c1 c2 c3 cb) fr (fun _ => fr) := by
  unfold submitWait
  refine steady_bind (steady_attempt (h _ (by simp))) fun _ => ?_
  refine steady_bind (steady_create .fence) fun fence => ?_
  refine steady_ensure _ (steady_bind (steady_attempt (h _ (by simp))) fun _ => ?_)
  refine steady_bind (steady_run (execute_run cb) (fun s => ⟨le_rfl, rfl, rfl, rfl, rfl⟩)
    fun s => plain_ran _) fun _ => ?_
  refine steady_bind (steady_attempt (h _ (by simp))) fun _ => ?_
  exact steady_emit ⟨rfl, rfl, fun _ h => h⟩

/-- **`one_shot`** makes and frees its command buffer. -/
theorem oneShot_steady (h : Loses L E.stack Call.ofSubmission fr) (cmds : List (Cmd F)) :
    Steady L (oneShot E cmds) fr (fun _ => fr) := by
  unfold oneShot
  refine steady_bind (steady_attempt (h _ (by decide))) fun _ => ?_
  refine steady_bind (steady_create .cmdBuf) fun cb => ?_
  refine steady_ensure _ (steady_bind (steady_attempt (h _ (by decide))) fun _ => ?_)
  refine steady_bind (steady_run (run_begun cb) (fun s => ⟨le_rfl, rfl, rfl, rfl, rfl⟩) fun s w hw => ?_)
    fun _ => ?_
  · rw [List.mem_singleton.mp hw]
    exact ⟨rfl, rfl, fun _ h => h⟩
  refine steady_bind (steady_run (each_record cb cmds) (fun s => ⟨le_rfl, rfl, rfl, rfl, rfl⟩)
    fun s => plain_recorded cb cmds) fun _ => ?_
  refine steady_bind (steady_attempt (h _ (by decide))) fun _ => ?_
  refine submitWait_steady (fun call hc => h call ?_) cb
  exact List.mem_of_mem_drop (i := 3) hc

/-! ## 5. Pipelines and dispatches -/

/-- The steps of the construction of a pipeline. -/
def Call.ofPipeline : List Call :=
  [.shaderModule, .setLayout, .pipelineLayout, .pipeline, .descriptorPool]

omit [Zero F] in
/-- **A pipeline under construction** loses nothing. -/
theorem buildPipe_steady (h : Loses L E.stack Call.ofPipeline fr) (shader : Shader) :
    Steady L (buildPipe E shader) fr (fun o => ↑o.res + fr) := by
  have hcons (r : Res) (rs : List Res) :
      ({r} : Multiset Res) + (↑rs + fr) = ↑(r :: rs) + fr := by
    rw [← add_assoc, Multiset.singleton_add, Multiset.cons_coe]
  unfold buildPipe
  refine steady_bind (steady_attempt (h _ (by decide))) fun _ => ?_
  refine steady_bind (steady_create .shaderModule) fun shm => ?_
  refine steady_onError (fun o => ↑o.res.tail + fr) _ ?_ ?_
  · refine steady_bind (steady_attempt (h _ (by decide))) fun _ => ?_
    refine steady_bind (steady_create .setLayout) fun dsl => ?_
    refine steady_onError (fun o => ↑o.res.tail.tail + fr) _ ?_ ?_
    · refine steady_bind (steady_attempt (h _ (by decide))) fun _ => ?_
      refine steady_bind (steady_create .pipelineLayout) fun pl => ?_
      refine steady_onError (fun o => ↑o.res.tail.tail.tail + fr) _ ?_ ?_
      · refine steady_bind (steady_attempt (h _ (by decide))) fun _ => ?_
        refine steady_bind (steady_create .pipeline) fun pipe => ?_
        refine steady_onError (fun o => ↑o.res.tail.tail.tail.tail + fr) _ ?_ ?_
        · refine steady_bind (steady_attempt (h _ (by decide))) fun _ => ?_
          exact steady_bind (steady_create .descriptorPool) fun pool => steady_pure _ rfl
        · exact answers_bind fun _ => answers_bind fun _ => answers_pure (hcons _ _)
      · exact answers_bind fun _ => answers_bind fun _ => answers_onError (answers_bind fun _ =>
          answers_bind fun _ => answers_pure (hcons _ _))
    · exact answers_bind fun _ => answers_bind fun _ => answers_onError (answers_bind fun _ =>
        answers_bind fun _ => answers_onError (answers_bind fun _ => answers_bind fun _ =>
          answers_pure (hcons _ _)))
  · exact answers_bind fun _ => answers_bind fun _ => answers_onError (answers_bind fun _ =>
      answers_bind fun _ => answers_onError (answers_bind fun _ => answers_bind fun _ =>
        answers_onError (answers_bind fun _ => answers_bind fun _ => answers_pure (hcons _ _))))

omit [Zero F] in
/-- **The pipeline of a key** belongs to the context, cached or new. -/
theorem getPipe_pays (h : Loses L E.stack Call.ofPipeline fr) (key : Key) :
    Pays L b c c (getPipe E key) fr (fun _ => fr) := by
  intro s hs
  unfold getPipe
  refine post_step (run_gets _ _) ?_
  cases hc : s.pipes.lookup key with
  | some objs => exact accounts_pure hs rfl
  | none =>
    refine pays_bind ((buildPipe_steady h key.shader).pays) (fun objs => ?_) le_rfl s hs
    intro s hs
    refine post_step (run_update _ _) (post_pure ⟨⟨hs.batch, hs.sets, hs.tracked⟩,
      moved no_event le_rfl ?_⟩)
    show s.held + (↑objs.res + fr) = Sys.held { s with pipes := (key, objs) :: s.pipes } + fr
    unfold Sys.held
    rw [List.map_cons, List.sum_cons]
    abel

omit [Zero F] in
/-- An allocation of a set from a pool with room fails only when the driver says so. -/
theorem allocSet_run (pool : Nat) (bufs : List GpuBuffer) {s : Sys F} (hl : s.live pool < 64) :
    (∃ code, allocSet E pool bufs s =
      ⟨.error (.driver .allocSets code), { s with tick := s.tick + 1 }, [.failed .allocSets E.stack]⟩) ∨
    allocSet E pool bufs s = ⟨.ok ⟨pool, s.next, bufs⟩, { s with
      tick := s.tick + 1
      next := s.next + 1
      sets := s.sets ++ [⟨pool, s.next, bufs⟩] }, []⟩ := by
  unfold allocSet
  cases h : E.sched s.tick with
  | some code =>
    refine Or.inl ⟨code, ?_⟩
    have hm : attempt E .allocSets s = ⟨.error (.driver .allocSets code),
        { s with tick := s.tick + 1 }, [.failed .allocSets E.stack]⟩ := by
      simp only [attempt, h]
    have hr : (attempt E .allocSets s).result = .error (.driver .allocSets code) := by rw [hm]
    rw [bind_error _ hr, hm]
  | none =>
    have hm : attempt E .allocSets s = ⟨.ok (), { s with tick := s.tick + 1 }, []⟩ := by
      simp only [attempt, h]
    have hl' : ¬64 ≤ (s.sets.filter fun d => d.pool = pool).length := not_le_of_gt hl
    refine Or.inr ?_
    rw [run_bind hm, run_bind (run_gets _ _), if_neg hl']
    rfl

omit [Zero F] in
theorem inPool_one (p : Nat) (d : DescSet) : inPool p [d] ≤ 1 := List.length_filter_le _ _

omit [Zero F] in
/-- A dispatch while a batch is open: its set is the batch's. -/
theorem dispatchRecorded_pays (hL : Loses L E.stack [.allocSets] fr) {s : Sys F}
    (hs : s.Ready b c) (hc : c + 1 ≤ 63) {st : Batch} (hb : s.batch = some st) (pool cmd : Nat)
    (bufs : List GpuBuffer) (cmds : DescSet → List (Cmd F)) :
    Post (do
        let set ← allocSet E pool bufs
        each (record cmd) (cmds set)
        batchTrackSets set) s
      ((ledger L).Accounts s fr (owes fun _ => fr) fun _ s' _ => s'.Ready b (c + 1)) := by
  have hl : s.live pool < 64 := lt_of_le_of_lt (hs.live_le pool) (by omega)
  have hbs : s.batchSets = st.sets := by
    unfold Sys.batchSets
    rw [hb]
  rcases allocSet_run (E := E) pool bufs hl with ⟨code, hm⟩ | hm
  · exact post_stop hm ⟨⟨hs.batch, hs.sets, (hs.mono (Nat.le_succ c)).tracked⟩,
      failed_balanced (hL _ (by decide)) s⟩
  · refine post_step hm (post_step (each_record _ _ _) (post_run (run_batchTrackSets_open _ hb) ?_))
    refine ⟨⟨?_, ?_, fun p => ?_⟩, moved ?_ (Nat.le_succ _) ?_⟩
    · rw [← hs.batch, hb]
      rfl
    · obtain ⟨kept, hk, hle⟩ := hs.sets
      exact ⟨kept, by rw [hk, hbs, List.append_assoc]; rfl, hle⟩
    · have h1 := hs.tracked p
      have h2 := inPool_one p ⟨pool, s.next, bufs⟩
      unfold Sys.tracked at h1 ⊢
      rw [hbs] at h1
      show inPool p (st.sets ++ [_]) ≤ c + 1
      rw [inPool_append]
      omega
    · exact fun w hw => plain_recorded cmd _ w (by simpa using hw)
    · show s.held + fr = Sys.held { s with batch := some { st with sets := _ } } + fr
      unfold Sys.held
      rw [hb]
      rfl

/-- A dispatch with no batch open: the pool is reset first. -/
theorem dispatchExecuted_pays (hL : Loses L E.stack [.resetPool, .allocSets] fr)
    (hS : Loses L E.stack Call.ofSubmission fr) (pool : Nat) (bufs : List GpuBuffer)
    (cmds : DescSet → List (Cmd F)) :
    Pays L false c c (do
      attempt E .resetPool
      resetPool pool
      let set ← allocSet E pool bufs
      oneShot E (cmds set)) fr (fun _ => fr) := by
  refine pays_bind (steady_attempt (hL _ (by decide))).pays (fun _ => ?_) le_rfl
  intro s hs
  have hb : s.batch = none := Option.not_isSome_iff_eq_none.mp (by rw [hs.batch]; simp)
  have hbs : s.batchSets = [] := by
    unfold Sys.batchSets
    rw [hb]
  obtain ⟨kept, hk, hle⟩ := hs.sets
  rw [hbs, List.append_nil] at hk
  -- the sets that are left: none of the pool, at most one of any other
  let rest := s.sets.filter fun d => d.pool ≠ pool
  have hrest (p : Nat) : inPool p rest ≤ 1 := by
    refine le_trans (List.filter_sublist.filter _).length_le ?_
    rw [hk]
    exact hle p
  have hpool : inPool pool rest = 0 := by
    unfold inPool
    rw [List.filter_filter, List.length_eq_zero_iff, List.filter_eq_nil_iff]
    intro d _ h
    simp at h
  have hready {n tick : Nat} {sets : List DescSet} (hl : ∀ p, inPool p sets ≤ 1) :
      Sys.Ready false c { s with tick := tick, next := n, sets := sets } :=
    ⟨hs.batch, ⟨sets, by rw [show Sys.batchSets { s with tick := tick, next := n, sets := sets } = [] from hbs,
      List.append_nil], hl⟩, hs.tracked⟩
  have hreset : Post (resetPool pool) s ((ledger L).Accounts s fr (owes fun _ => fr) fun _ s' _ =>
      s' = { s with sets := rest }) :=
    post_run (run_resetPool pool s) ⟨rfl, moved (plain_setFreed _) le_rfl rfl⟩
  refine accounts_bind hreset (fun _ s' t h1 => ?_) (fun e s' t h1 => h1 ▸ hready hrest) fun _ _ _ _ => rfl
  subst h1
  have hl : Sys.live { s with sets := rest } pool < 64 := by
    show inPool pool rest < 64
    rw [hpool]
    decide
  have halloc : Post (allocSet E pool bufs) { s with sets := rest }
      ((ledger L).Accounts { s with sets := rest } fr (owes fun _ => fr) fun _ s' _ =>
        s'.Ready false c) := by
    rcases allocSet_run (E := E) pool bufs hl with ⟨code, hm⟩ | hm
    · exact post_run hm ⟨hready hrest, failed_balanced (hL _ (by decide)) _⟩
    have hnew (p : Nat) : inPool p (rest ++ [(⟨pool, s.next, bufs⟩ : DescSet)]) ≤ 1 := by
      rw [inPool_append]
      by_cases hp : pool = p
      · have h2 := inPool_one p ⟨pool, s.next, bufs⟩
        rw [← hp] at h2 ⊢
        omega
      · have h2 : inPool p [(⟨pool, s.next, bufs⟩ : DescSet)] = 0 := by
          unfold inPool
          simp [hp]
        have h3 := hrest p
        omega
    exact post_run hm ⟨hready hnew, moved no_event (Nat.le_succ _) rfl⟩
  exact accounts_bind halloc (fun set s' t h => (oneShot_steady hS _).pays s' h) (fun _ _ _ h => h)
    fun _ _ _ _ => rfl

/-- The calls of a dispatch. -/
def Call.ofDispatch : List Call := .resetPool :: .allocSets :: (Call.ofPipeline ++ Call.ofSubmission)

/-- **A dispatch** makes nothing that it does not release or leave to the context. -/
theorem runComputePush_pays (h : Loses L E.stack Call.ofDispatch fr)
    (hr : L.refused E.stack ↔ fr ≠ 0) (hc : c + 1 ≤ 63) (shader : Shader) (bufs : List GpuBuffer)
    (groupsX : Nat) (push : List (Word F)) :
    Pays L b c (c + 1) (runComputePush E shader bufs groupsX push) fr (fun _ => fr) := by
  have hsub : Loses L E.stack Call.ofSubmission fr := fun call hm =>
    h call (List.mem_cons_of_mem _ (List.mem_cons_of_mem _ (List.mem_append_right _ hm)))
  have hpipe : Loses L E.stack Call.ofPipeline fr := fun call hm =>
    h call (List.mem_cons_of_mem _ (List.mem_cons_of_mem _ (List.mem_append_left _ hm)))
  intro s hs
  unfold runComputePush
  by_cases hg : (splitGroups groupsX E.maxGroupsX).2 > 65535
  · simp only [if_pos hg]
    refine post_step (run_emit _ _) (post_fail ⟨hs.mono (Nat.le_succ c), fr, ?_, ?_, .none le_rfl⟩)
    · have ht : (ledger L).Tight ([.refused E.stack] : List (Event F)) ↔ ¬L.refused E.stack := by
        unfold Book.Tight
        rw [List.forall_mem_singleton]
        rfl
      rw [List.append_nil, ht, hr, not_not]
    · show (↑([] : List Res) : Multiset Res) + s.held + fr = ↑([] : List Res) + s.held + 0 + fr
      rw [add_zero]
  · simp only [if_neg hg]
    refine pays_bind (getPipe_pays hpipe _) (fun objs => ?_) (Nat.le_succ c) s hs
    intro s hs
    refine post_step (run_gets _ _) ?_
    cases hb : s.batch with
    | some st =>
      exact dispatchRecorded_pays (fun call hm => h call (by simp at hm; simp [hm, Call.ofDispatch])) hs hc hb _ _ _ _
    | none =>
      have hb' : b = false := by rw [← hs.batch, hb]; rfl
      subst hb'
      exact accounts_mono (dispatchExecuted_pays (fun call hm => h call
        (List.mem_append_left (Call.ofPipeline ++ Call.ofSubmission) hm)) hsub _ _ _ s hs)
        fun _ _ _ hr => hr.mono (Nat.le_succ c)

/-! ## 6. The release of buffers -/

omit [Zero F] in
theorem destroyBufferNow_accounts (x : GpuBuffer) (s : Sys F) {P : Sys F → Prop} (hP : P s) :
    Post (destroyBufferNow x) s ((ledger L).Accounts s (handles x) spent fun r s' _ =>
      r = .ok () ∧ P s') := by
  have h2 : Post (release ⟨.memory, x.memory⟩) s ((ledger L).Accounts s {⟨.memory, x.memory⟩} spent
      fun r s' _ => r = .ok () ∧ P s') := release_accounts _ s ⟨rfl, hP⟩
  have h1 := accounts_frame (release_accounts (L := L) ⟨.buffer, x.buffer⟩ s (Q := fun r s' _ =>
    r = .ok () ∧ s' = s) ⟨rfl, rfl⟩) {⟨.memory, x.memory⟩}
  refine post_bind h1 (fun _ s' t h => ?_) fun _ _ _ h => by cases h.1.1
  obtain ⟨⟨-, rfl⟩, hb⟩ := h
  have hb' : (ledger L).Balanced s' s' t (handles x) (0 + {⟨.memory, x.memory⟩}) := hb
  rw [zero_add] at hb'
  exact post_mono h2 fun _ _ _ h => ⟨h.1, hb'.trans h.2⟩

omit [Zero F] in
/-- A buffer goes to the trash of the open batch. -/
theorem trashed {s : Sys F} {st : Batch} (hb : s.batch = some st) (x : GpuBuffer) (out : Multiset Res)
    {t : List (Event F)} (ht : ∀ w ∈ t, w.Plain) :
    (ledger L).Balanced s { s with batch := some { st with trash := st.trash ++ [x] } } t
      (handles x + out) out := by
  refine moved ht le_rfl ?_
  unfold Sys.held
  simp only [hb, Option.toList_some, List.map_singleton, List.sum_singleton, Batch.held,
    List.map_append, List.sum_append]
  abel

omit [Zero F] in
theorem Sys.Ready.trash {s : Sys F} (hs : s.Ready b c) {st : Batch} (hb : s.batch = some st)
    (trash : List GpuBuffer) : Sys.Ready b c { s with batch := some { st with trash := trash } } := by
  have hbs : s.batchSets = st.sets := by
    unfold Sys.batchSets
    rw [hb]
  refine ⟨?_, ?_, fun p => ?_⟩
  · rw [← hs.batch, hb]
    rfl
  · obtain ⟨kept, hk, hle⟩ := hs.sets
    rw [hbs] at hk
    exact ⟨kept, hk, hle⟩
  · have h := hs.tracked p
    unfold Sys.tracked at h ⊢
    rw [hbs] at h
    exact h

omit [Zero F] in
/-- **`destroy_buffer`** releases a buffer or hands it to the batch. -/
theorem destroyBuffer_accounts (x : GpuBuffer) (s : Sys F) (hs : s.Ready b c) :
    Post (destroyBuffer x) s ((ledger L).Accounts s (handles x) spent fun r s' _ =>
      r = .ok () ∧ s'.Ready b c) := by
  unfold destroyBuffer
  cases hb : s.batch with
  | some st =>
    refine post_step (run_batchTrash_open x hb) (post_pure ⟨⟨rfl, hs.trash hb _⟩, ?_⟩)
    have h := trashed (L := L) hb x 0 no_event
    rwa [add_zero] at h
  | none =>
    refine post_step (run_batchTrash_closed x hb) ?_
    exact destroyBufferNow_accounts x s hs

/-! ## 7. Uploads -/

/-- What the staging block of `create_buffer_f32` leaves to be released or answered. -/
def uploadOwn (staging : GpuBuffer) : Except GpuErr (GpuBuffer × Bool) → Multiset Res
  | .ok (dev, true) => handles dev
  | .ok (dev, false) => handles staging + handles dev
  | .error _ => handles staging

omit [Zero F] in
theorem loses_none {stack : List Fn} {calls : List Call} (h : ∀ call ∈ calls, ¬L.failed call stack) :
    Loses L stack calls 0 := fun call hc => ⟨fun h' => absurd h' (h call hc), fun h' => absurd rfl h'⟩

omit [Zero F] in
theorem loses_all {stack : List Fn} {calls : List Call} (h : ∀ call ∈ calls, L.failed call stack)
    (hfr : fr ≠ 0) : Loses L stack calls fr := fun call hc => ⟨fun _ => hfr, fun _ => h call hc⟩

theorem handles_ne (x : GpuBuffer) : handles x ≠ 0 := fun h =>
  List.cons_ne_nil _ _ (Multiset.coe_eq_zero _ |>.mp h)

theorem handles_add_ne (x : GpuBuffer) (fr : Multiset Res) : handles x + fr ≠ 0 := fun h =>
  handles_ne x (add_eq_zero.mp h).1

omit [Zero F] in
theorem upload_quiet {call : Call} (h : call = .mapMemory ∨ call = .createBuffer) :
    Loses losses (E.enter .createBufferF32).stack [call] 0 := by
  refine loses_none fun call' hc => ?_
  rw [List.mem_singleton.mp hc]
  show ¬(call ∈ Call.afterBuffer ∨ call ∈ Call.ofSubmission)
  rcases h with rfl | rfl
  · decide
  · decide

/-- A buffer of `create_buffer_f32`. -/
theorem uploadBuffer_steady (size : Nat) :
    Steady losses (allocBuffer (E.enter .createBufferF32) size) 0 handles := by
  have h := allocBuffer_steady (E := E.enter .createBufferF32) size (upload_quiet (Or.inr rfl))
    fun call hc => Or.inl hc
  simp only [add_zero] at h
  exact h

/-- The block of `create_buffer_f32` that holds the staging buffer. -/
theorem upload_accounts (data : List F) (staging : GpuBuffer) {s : Sys F} (hs : s.Ready b c)
    (E' : Env F) (hE : E' = E.enter .createBufferF32) :
    Post (do
        attempt E' .mapMemory
        hostWrite staging.memory data
        let dev ← allocBuffer E' (4 * data.length)
        let cmd ← batchCmd
        match cmd with
        | some cmd => do
            record cmd (.copy staging dev 0 (4 * data.length))
            let _ ← batchTrash staging
            pure (dev, true)
        | none => do
            oneShot E' [.copy staging dev 0 (4 * data.length)]
            pure (dev, false)) s
      ((ledger losses).Accounts s (handles staging) (uploadOwn staging) fun _ s' _ =>
        s'.Ready b c) := by
  subst hE
  have hfirst : Steady losses ((attempt (E.enter .createBufferF32) .mapMemory >>= fun _ =>
      hostWrite staging.memory data) >>= fun _ =>
        allocBuffer (E.enter .createBufferF32) (4 * data.length)) 0 handles := by
    refine steady_bind (steady_bind (steady_attempt (upload_quiet (Or.inl rfl) _ (by decide)))
      fun _ => ?_) fun _ => uploadBuffer_steady _
    exact steady_update fun s => ⟨le_rfl, rfl, rfl, rfl, rfl⟩
  have h := accounts_frame (hfirst s) (handles staging)
  rw [zero_add] at h
  simp only [← bind_regroup]
  refine accounts_bind h (fun dev s' t ha => ?_) (fun _ _ _ ha => ha.ready hs) fun _ _ _ _ => zero_add _
  have hs' := ha.ready hs
  refine post_step (run_gets _ _) ?_
  cases hb : s'.batch with
  | some st =>
    simp only [bind_regroup]
    have ht := hs'.trash hb (st.trash ++ [staging])
    refine post_step (run_record _ _ _) (post_step (run_batchTrash_open staging hb) (post_pure
      ⟨⟨ht.batch, ht.sets, ht.tracked⟩, ?_⟩))
    refine moved (fun w hw => ?_) le_rfl ?_
    · exact plain_recorded st.cmd [.copy staging dev 0 (4 * data.length)] w (by simpa using hw)
    · show s'.held + (handles dev + handles staging) =
        Sys.held { s' with batch := some { st with trash := st.trash ++ [staging] } } + handles dev
      unfold Sys.held
      simp only [hb, Option.toList_some, List.map_singleton, List.sum_singleton, Batch.held,
        List.map_append, List.sum_append]
      abel
  | none =>
    have hsub : Loses losses (E.enter .createBufferF32).stack Call.ofSubmission (handles dev) :=
      loses_all (fun call hc => Or.inr hc) (handles_ne dev)
    have h1 := accounts_frame (oneShot_steady hsub [.copy staging dev 0 (4 * data.length)] s')
      (handles staging)
    exact accounts_bind h1 (fun _ s2 _ h2 => accounts_pure (h2.ready hs') (add_comm _ _))
      (fun _ _ _ h2 => h2.ready hs') fun _ _ _ _ => zero_add _

/-- **`create_buffer_f32`** loses its device buffer when the upload is not submitted. -/
theorem createBufferF32_pays (data : List F) :
    Pays losses b c c (createBufferF32 E data) 0 handles := by
  unfold createBufferF32
  dsimp only
  refine pays_bind (uploadBuffer_steady _).pays (fun staging => ?_) le_rfl
  intro s hs
  refine accounts_bind (accounts_observe (upload_accounts data staging hs _ rfl))
    (fun built s' t hb => ?_) (fun _ _ _ hb => hb.elim fun _ h => h.2) fun _ _ _ _ => rfl
  have h : s'.Ready b c := hb.elim fun _ h => h.2
  match built with
  | .ok (dev, true) => exact accounts_pure h rfl
  | .ok (dev, false) =>
    refine accounts_bind (accounts_frame (destroyBufferNow_accounts staging s' h) (handles dev))
      (fun _ _ _ h2 => accounts_pure h2.2 (zero_add _)) (fun _ _ _ h2 => h2.2) fun _ _ _ h2 => ?_
    cases h2.1
  | .error e =>
    exact accounts_bind (destroyBufferNow_accounts staging s' h)
      (fun _ _ _ h2 => accounts_fail h2.2 rfl) (fun _ _ _ h2 => h2.2) fun _ _ _ _ => rfl

/-! ## 8. Readbacks -/

omit [Zero F] in
/-- Losses outside of any named function. -/
theorem outer_quiet (hE : E.stack = []) {calls : List Call}
    (h : ∀ call ∈ calls, call ∉ Call.afterBuffer ∧ call ≠ .batchBegin) :
    Loses losses E.stack calls 0 := loses_none fun call hc hl => by
  rw [hE] at hl
  rcases hl with hl | hl
  · exact (h call hc).1 hl
  · exact (h call hc).2 hl

omit [Zero F] in
theorem outer_attempt (hE : E.stack = []) {call : Call}
    (h : call ∉ Call.afterBuffer ∧ call ≠ .batchBegin) :
    Steady losses (attempt E call) 0 (fun _ => 0) := by
  have hq : Loses losses E.stack [call] 0 := outer_quiet hE fun call' hc => by
    rw [List.mem_singleton.mp hc]
    exact h
  exact steady_attempt (hq _ List.mem_cons_self)

theorem createEmpty_steady (hE : E.stack = []) (size : Nat) :
    Steady losses (allocBuffer E size) 0 handles := by
  have h := allocBuffer_steady (E := E) (L := losses) size (outer_quiet hE (by decide)) fun call hc => by
    rw [hE]
    exact Or.inl hc
  simp only [add_zero] at h
  exact h

theorem newStaging_accounts (hE : E.stack = []) (total : Nat) {s : Sys F} (hs : s.Ready b c)
    (hst : s.staging = none) :
    Post (newStaging E total) s ((ledger losses).Accounts s 0 (owes fun _ => 0) fun _ s' _ =>
      s'.Ready b c) := by
  have hlast (x : GpuBuffer) {s' : Sys F} (ha : s.Alike s') :
      Post (update (fun s => { s with staging := some x }) >>= fun _ => (pure x : Gpu F GpuBuffer))
        s' ((ledger losses).Accounts s' (handles x) (owes fun _ => 0) fun _ s' _ =>
          s'.Ready b c) := by
    have hr := ha.ready hs
    refine post_step (run_update _ _) (post_pure ⟨⟨hr.batch, hr.sets, hr.tracked⟩, ?_⟩)
    refine moved no_event le_rfl ?_
    show s'.held + handles x = Sys.held { s' with staging := some x } + 0
    unfold Sys.held
    simp only [ha.staging, hst, Option.toList_none, Option.toList_some, List.map_nil, List.sum_nil,
      List.map_singleton, List.sum_singleton]
    abel
  unfold newStaging
  refine accounts_bind (accounts_observe (createEmpty_steady hE total s))
    (fun first s1 t1 hf => ?_) (fun _ _ _ hf => hf.elim fun _ h => h.2.ready hs) fun _ _ _ _ => rfl
  have h1 : s.Alike s1 := hf.elim fun _ h => h.2
  cases first with
  | ok x =>
    have hp : Steady losses (pure x : Gpu F GpuBuffer) (handles x) handles := steady_pure x rfl
    exact accounts_bind (hp s1) (fun a s2 _ h2 => hlast a (h1.trans h2))
      (fun _ _ _ h2 => (h1.trans h2).ready hs) fun _ _ _ _ => rfl
  | error e =>
    exact accounts_bind (createEmpty_steady hE total s1) (fun a s2 _ h2 => hlast a (h1.trans h2))
      (fun _ _ _ h2 => (h1.trans h2).ready hs) fun _ _ _ _ => rfl

/-- **The staging buffer of a readback** is the context's, cached or new. -/
theorem readbackStaging_pays (hE : E.stack = []) (total : Nat) :
    Pays losses b c c (readbackStaging E total) 0 (fun _ => 0) := by
  intro s hs
  unfold readbackStaging
  refine post_step (run_gets _ _) ?_
  cases hst : s.staging with
  | none => exact newStaging_accounts hE total hs hst
  | some x =>
    by_cases hsize : x.size < total
    · simp only [if_pos hsize]
      have htake : Post (update fun s => { s with staging := none }) s ((ledger losses).Accounts s 0
          (owes fun _ : Unit => handles x) fun (_ : Except GpuErr Unit) s' _ =>
            s' = { s with staging := none }) := by
        refine post_run (run_update _ _) ⟨rfl, moved no_event le_rfl ?_⟩
        show s.held + 0 = Sys.held { s with staging := none } + handles x
        unfold Sys.held
        simp only [hst, Option.toList_none, Option.toList_some, List.map_nil, List.sum_nil,
          List.map_singleton, List.sum_singleton]
        abel
      have hr : Sys.Ready b c { s with staging := none } := ⟨hs.batch, hs.sets, hs.tracked⟩
      refine accounts_bind htake (fun _ s1 _ h1 => ?_) (fun _ _ _ h => h ▸ hr) fun _ _ _ _ => rfl
      subst h1
      refine accounts_bind (destroyBufferNow_accounts (P := fun s' => s' = { s with staging := none }) x _ rfl)
        (fun _ s2 _ h2 => ?_) (fun _ _ _ h2 => h2.2 ▸ hr) fun _ _ _ _ => rfl
      rw [h2.2]
      exact newStaging_accounts hE total hr rfl
    · simp only [if_neg hsize]
      exact accounts_pure hs rfl

/-- **A readback** leaves nothing behind but the cached staging buffer. -/
theorem readbackF32All_pays (hE : E.stack = []) (bufs : List GpuBuffer) :
    Pays losses b c c (readbackF32All E bufs) 0 (fun _ => 0) := by
  unfold readbackF32All
  refine pays_bind (readbackStaging_pays hE _) (fun staging => ?_) le_rfl
  refine pays_bind (oneShot_steady (outer_quiet hE (by decide)) _).pays (fun _ => ?_) le_rfl
  refine pays_bind (outer_attempt hE (by decide)).pays (fun _ => ?_) le_rfl
  refine pays_bind (outer_attempt hE (by decide)).pays (fun _ => ?_) le_rfl
  exact (steady_run (run_gets _) (fun s => .refl s) fun _ => no_event).pays

/-! ## 9. The batch -/

omit [Zero F] in
/-- **`begin_batch`** loses its command buffer when it does not begin. -/
theorem beginBatch_accounts (hE : E.stack = []) {s : Sys F} (hs : s.Ready false c) :
    Post (beginBatch E) s ((ledger losses).Accounts s 0 spent fun r s' _ =>
      (r = .ok () ∧ s'.Ready true 0) ∨ ((∃ e, r = .error e) ∧ s'.Ready false 0)) := by
  have hb : s.batch = none := Option.not_isSome_iff_eq_none.mp (by rw [hs.batch]; simp)
  have herr {e : GpuErr} {s' : Sys F} (ha : s.Alike s') :
      ((.error e : Except GpuErr Unit) = .ok () ∧ s'.Ready true 0) ∨
        ((∃ e', (.error e : Except GpuErr Unit) = .error e') ∧ s'.Ready false 0) :=
    Or.inr ⟨⟨e, rfl⟩, (ha.ready hs).closed⟩
  have hbegin (cb : Nat) : losses.failed .batchBegin E.stack ↔ ({⟨.cmdBuf, cb⟩} + 0 : Multiset Res) ≠ 0 := by
    rw [hE, Multiset.singleton_add]
    exact ⟨fun _ => Multiset.cons_ne_zero, fun _ => Or.inr rfl⟩
  unfold beginBatch
  refine accounts_bind (outer_attempt hE (by decide) s) (fun _ s1 _ h1 => ?_) (fun _ _ _ h => herr h)
    fun _ _ _ _ => rfl
  refine accounts_bind (steady_create .cmdBuf s1) (fun cb s2 _ h2 => ?_)
    (fun _ _ _ h => herr (h1.trans h)) fun _ _ _ _ => rfl
  refine accounts_bind (steady_attempt (hbegin cb) s2) (fun _ s3 _ h3 => ?_)
    (fun _ _ _ h => herr (h1.trans (h2.trans h))) fun _ _ _ _ => rfl
  have h4 := h1.trans (h2.trans h3)
  have hb3 : s3.batch = none := h4.batch.trans hb
  refine post_step (run_begun cb s3) (post_step (run_gets _ _) ?_)
  simp only [hb3, Option.isSome_none, Bool.false_eq_true, if_false]
  refine post_step (run_update _ _) (post_emit ⟨Or.inl ⟨rfl, rfl, ?_, fun _ => le_rfl⟩, moved ?_ le_rfl ?_⟩)
  · obtain ⟨kept, hk, hle⟩ := (h4.ready hs).sets
    unfold Sys.batchSets at hk
    rw [hb3] at hk
    exact ⟨kept, hk, hle⟩
  · intro w hw
    simp only [List.nil_append, List.mem_append, List.mem_singleton] at hw
    rcases hw with rfl | rfl
    · exact ⟨rfl, rfl, fun _ h => h⟩
    · exact ⟨rfl, rfl, fun _ h => h⟩
  · show s3.held + ({⟨.cmdBuf, cb⟩} + 0) = Sys.held { s3 with batch := some ⟨cb, [], []⟩ } + 0
    unfold Sys.held
    simp only [hb3, Option.toList_none, Option.toList_some, List.map_nil, List.sum_nil,
      List.map_singleton, List.sum_singleton, Batch.held]
    abel

omit [Zero F] in
/-- What is released when a batch ends. -/
theorem releaseBatch_accounts (st : Batch) (s : Sys F) :
    Post (releaseBatch st) s ((ledger L).Accounts s st.held spent fun r s' _ => r = .ok () ∧
      s' = { s with sets := s.sets.filter fun d => d.handle ∉ st.sets.map DescSet.handle }) := by
  let s1 : Sys F := { s with sets := s.sets.filter fun d => d.handle ∉ st.sets.map DescSet.handle }
  have hsets : Post (each freeSet st.sets) s ((ledger L).Accounts s st.held (owes fun _ => st.held)
      fun r s' _ => r = .ok () ∧ s' = s1) :=
    post_run (each_freeSet st.sets s) ⟨⟨rfl, rfl⟩, moved (plain_setFreed st.sets) le_rfl rfl⟩
  have htrash : Post (each destroyBufferNow st.trash) s1 ((ledger L).Accounts s1 st.held
      (fun r => spent r + {⟨.cmdBuf, st.cmd⟩}) fun r s' _ => r = .ok () ∧ s' = s1) := by
    have h := accounts_frame (accounts_each (fun x s hs => destroyBufferNow_accounts (L := L) x s hs)
      st.trash s1 (P := fun s' => s' = s1) rfl) {⟨.cmdBuf, st.cmd⟩}
    rwa [add_comm] at h
  unfold releaseBatch
  refine accounts_surely hsets fun s' _ h => ?_
  subst h
  refine accounts_surely htrash fun s' _ h => ?_
  subst h
  have hinn : spent (.ok () : Except GpuErr Unit) + {⟨.cmdBuf, st.cmd⟩} =
      ({⟨.cmdBuf, st.cmd⟩} : Multiset Res) := zero_add _
  rw [hinn]
  exact release_accounts _ s1 ⟨rfl, rfl⟩

/-- **`finish_batch`** releases the command buffer and the trash of the batch, on every path. -/
theorem finishBatch_accounts (hE : E.stack = []) (submit : Bool) {s : Sys F} (hs : s.Ready b c) :
    Post (finishBatch E submit) s ((ledger losses).Accounts s 0 spent fun _ s' _ =>
      s'.Ready false 0) := by
  cases hb : s.batch with
  | none =>
    have hclosed : s.openCmd = none := Option.map_eq_none_iff.mpr hb
    have hf : b = false := by rw [← hs.batch, hb]; rfl
    subst hf
    exact post_run (run_finishBatch_closed submit hclosed) ⟨hs.closed, moved no_event le_rfl rfl⟩
  | some st =>
    let s0 : Sys F := { s with batch := none }
    have htake : Post takeBatch s ((ledger losses).Accounts s 0 (owes fun st : Batch => st.held)
        fun r s' _ => r = .ok st ∧ s' = s0) := by
      refine post_run (run_takeBatch_open hb) ⟨⟨rfl, rfl⟩, moved (fun w hw => ?_) le_rfl ?_⟩
      · rw [List.mem_singleton.mp hw]
        exact ⟨rfl, rfl, fun _ h => h⟩
      · show s.held + 0 = s0.held + st.held
        unfold Sys.held
        simp only [s0, hb, Option.toList_none, Option.toList_some, List.map_nil, List.sum_nil,
          List.map_singleton, List.sum_singleton]
        abel
    have hbody : Steady losses (do
        attempt E .batchEnd
        if submit then submitWait E .batchFence .batchSubmit .batchWait st.cmd else pure ()) 0
        (fun _ => 0) := by
      refine steady_bind (outer_attempt hE (by decide)) fun _ => ?_
      cases submit with
      | true => exact submitWait_steady (outer_quiet hE (by decide)) st.cmd
      | false => exact steady_pure () rfl
    have hready {s' : Sys F} (ha : s0.Alike s') : Sys.Ready false 0 { s' with
        sets := s'.sets.filter fun d => d.handle ∉ st.sets.map DescSet.handle } := by
      have hn : s'.batch = none := ha.batch
      have hbs (sets : List DescSet) : Sys.batchSets { s' with sets := sets } = [] := by
        unfold Sys.batchSets
        rw [hn]
      refine ⟨by rw [show Sys.batch { s' with sets := _ } = none from hn]; rfl, ⟨_, by rw [hbs, List.append_nil], ?_⟩,
        fun p => ?_⟩
      · rw [show s'.sets = s.sets from ha.sets]
        exact freed_kept hs.sets hb
      · unfold Sys.tracked
        rw [hbs]
        exact Nat.zero_le 0
    unfold finishBatch
    refine accounts_surely htake fun s1 _ h => ?_
    subst h
    have hall := accounts_ensure (releaseBatch st) (Q := fun _ s' _ => s'.Ready false 0)
      (hbody s0) fun r s' t h => accounts_mono (releaseBatch_accounts st s') fun _ _ _ h' => by
        rw [h'.2]
        exact hready h
    rw [add_zero] at hall
    exact post_mono hall fun r s' t hr => ⟨hr.1, by cases r with | ok a => exact hr.2 | error e => exact hr.2⟩

end Context

end Ssimulacra2
