/-
  File:      Ssimulacra2/Vulkan/Queue.lean
  Subject:   Calls on the context while a batch is open.

  A call only queues (`Queues`): it makes handles and records commands, and hands to the batch what
  it gives up or needs until the commands have run. The descriptor sets are the batch's too, so a
  pool can run out of room; it does not as long as no pipeline is used more than 63 times, because
  every cached pipeline has a pool of its own (`Sys.Pooled`) with 64 sets, of which one may be left
  from before the batch.
-/
import Ssimulacra2.Lib.Triples
import Ssimulacra2.Vulkan.Healthy
import Ssimulacra2.Vulkan.Ledger
import Ssimulacra2.Vulkan.Ops

namespace Ssimulacra2

open Fallible Prog Slots

variable {F : Type}

/-! ## 1. The pools of the cached pipelines -/

/-- **Every cached pipeline has a descriptor pool of its own.** -/
structure Sys.Pooled (s : Sys F) : Prop where
  own : ∀ k k' o o', s.pipes.lookup k = some o → s.pipes.lookup k' = some o' → o.pool = o'.pool →
    k = k'
  pool_lt : ∀ k o, s.pipes.lookup k = some o → o.pool < s.next
  set_lt : ∀ d ∈ s.sets, d.pool < s.next

theorem Sys.fresh_pooled : (Sys.fresh F).Pooled where
  own _ _ _ _ h := by cases h
  pool_lt _ _ h := by cases h
  set_lt d h := absurd h List.not_mem_nil

/-- Programs that leave every pipeline its pool. -/
abbrev Pooling {α : Type} (m : Gpu F α) : Prop :=
  Keeps Sys.Pooled (fun _ => True) anyAnswer m

section Pooling

variable {α : Type} {s s' : Sys F}

/-- Nothing but the clock of handles and fewer sets. -/
theorem Sys.Pooled.less (hs : s.Pooled) (hp : s'.pipes = s.pipes) (hsets : ∀ d ∈ s'.sets, d ∈ s.sets)
    (hn : s.next ≤ s'.next) : s'.Pooled where
  own k k' o o' h h' := hs.own k k' o o' (hp ▸ h) (hp ▸ h')
  pool_lt k o h := lt_of_lt_of_le (hs.pool_lt k o (hp ▸ h)) hn
  set_lt d hd := lt_of_lt_of_le (hs.set_lt d (hsets d hd)) hn

theorem Sys.Alike.pooled (h : s.Alike s') (hs : s.Pooled) : s'.Pooled :=
  hs.less h.pipes (fun _ hd => h.sets ▸ hd) h.next_le

theorem Steady.pooling {L : Losses} {m : Gpu F α} {inn : Multiset Res} {own : α → Multiset Res}
    (h : Steady L m inn own) : Pooling m :=
  fun s hs => ⟨(h s).1.pooled hs, fun _ _ => trivial, fun _ _ => trivial⟩

/-- A new pipeline brings a new pool. -/
theorem Sys.Pooled.add (hs : s.Pooled) {key : Key} {o : PipeObjs} (hnew : s.pipes.lookup key = none)
    (hp : s'.pipes = (key, o) :: s.pipes) (hsets : s'.sets = s.sets) (hlo : s.next ≤ o.pool)
    (hhi : o.pool < s'.next) : s'.Pooled := by
  have hlook {k : Key} {o' : PipeObjs} (h : s'.pipes.lookup k = some o') :
      (k = key ∧ o' = o) ∨ s.pipes.lookup k = some o' := by
    rw [hp, List.lookup_cons] at h
    by_cases hk : k = key
    · rw [hk, beq_self_eq_true] at h
      exact Or.inl ⟨hk, (Option.some.inj h).symm⟩
    · rw [beq_eq_false_iff_ne.mpr hk] at h
      exact Or.inr h
  have hle : s.next ≤ s'.next := le_trans hlo hhi.le
  refine ⟨fun k k' o1 o2 h1 h2 e => ?_, fun k o' h => ?_, fun d hd => ?_⟩
  · rcases hlook h1 with ⟨rfl, rfl⟩ | h1
    · rcases hlook h2 with ⟨rfl, -⟩ | h2
      · rfl
      · exact absurd (e ▸ hlo) (Nat.not_le.mpr (hs.pool_lt _ _ h2))
    · rcases hlook h2 with ⟨rfl, rfl⟩ | h2
      · exact absurd (e ▸ hlo) (Nat.not_le.mpr (hs.pool_lt _ _ h1))
      · exact hs.own _ _ _ _ h1 h2 e
  · rcases hlook h with ⟨rfl, rfl⟩ | h
    · exact hhi
    · exact lt_of_lt_of_le (hs.pool_lt _ _ h) hle
  · exact lt_of_lt_of_le (hs.set_lt d (hsets ▸ hd)) hle

/-- Only the batch changes. -/
theorem pooling_batch (g : Sys F → Option Batch) :
    Pooling (update fun s : Sys F => { s with batch := g s }) :=
  keeps_update fun _ hs => hs.less rfl (fun _ h => h) le_rfl

variable {E : Env F}

theorem attempt_pooling {call : Call} : Pooling (attempt E call) := by
  have h : Loses ⟨fun _ _ => False, fun _ => False⟩ E.stack [call] 0 := loses_none fun _ _ h => h
  exact (steady_attempt (h _ List.mem_cons_self)).pooling

theorem destroyBufferNow_pooling (b : GpuBuffer) : Pooling (destroyBufferNow b : Gpu F Unit) :=
  keeps_bind (keeps_emit trivial) fun _ _ => keeps_emit trivial

theorem batchTrash_pooling (b : GpuBuffer) : Pooling (batchTrash b : Gpu F Bool) := by
  refine keeps_bind (Q := anyAnswer) (keeps_gets fun _ _ => trivial) fun batch _ => ?_
  cases batch with
  | none => exact keeps_pure trivial
  | some st => exact keeps_bind (pooling_batch _) fun _ _ => keeps_pure trivial

theorem destroyBuffer_pooling (b : GpuBuffer) : Pooling (destroyBuffer b : Gpu F Unit) := by
  refine keeps_bind (batchTrash_pooling b) fun deferred _ => ?_
  cases deferred with
  | true => exact keeps_pure trivial
  | false => exact destroyBufferNow_pooling b

theorem record_pooling (cb : Nat) (c : Cmd F) : Pooling (record cb c) :=
  keeps_bind (keeps_update fun _ hs => hs.less rfl (fun _ h => h) le_rfl) fun _ _ =>
    keeps_emit trivial

variable [Zero F]

/-- Losses under which the buffers of the context are steady, wherever they are made. -/
def bufferLosses : Losses where
  failed call _ := call ∈ Call.afterBuffer
  refused _ := False

theorem quiet_bufferLosses {stack : List Fn} {calls : List Call}
    (h : ∀ call ∈ calls, call ∉ Call.afterBuffer) : Loses bufferLosses stack calls 0 := loses_none h

theorem allocBuffer_pooling (size : Nat) : Pooling (allocBuffer E size) :=
  (allocBuffer_steady (L := bufferLosses) size (quiet_bufferLosses (by decide)) fun _ h => h).pooling

theorem oneShot_pooling (cmds : List (Cmd F)) : Pooling (oneShot E cmds) :=
  (oneShot_steady (L := bufferLosses) (quiet_bufferLosses (by decide)) cmds).pooling

theorem createBufferF32_pooling (data : List F) : Pooling (createBufferF32 E data) := by
  refine keeps_bind (allocBuffer_pooling _) fun staging _ => keeps_bind (keeps_observe
    (Q := anyAnswer) (keeps_bind attempt_pooling fun _ _ => keeps_bind (keeps_update fun _ hs =>
      hs.less rfl (fun _ h => h) le_rfl) fun _ _ => keeps_bind (allocBuffer_pooling _) fun dev _ =>
        keeps_bind (Q := anyAnswer) (keeps_gets fun _ _ => trivial) fun cmd _ => ?_)) ?_
  · cases cmd with
    | some cmd =>
      exact keeps_bind (record_pooling _ _) fun _ _ => keeps_bind (batchTrash_pooling _) fun _ _ =>
        keeps_pure trivial
    | none => exact keeps_bind (oneShot_pooling _) fun _ _ => keeps_pure trivial
  · rintro (e | ⟨dev, _ | _⟩) _
    · exact keeps_bind (destroyBufferNow_pooling _) fun _ _ => keeps_fail e
    · exact keeps_bind (destroyBufferNow_pooling _) fun _ _ => keeps_pure trivial
    · exact keeps_pure trivial

omit [Zero F] in
/-- **The pipeline of a key** has a pool of its own, cached or new. -/
theorem getPipe_pool (key : Key) (hs : s.Pooled) :
    Post (getPipe E key) s fun r s' _ => s'.Pooled ∧ ∀ o, r = .ok o → o.pool < s'.next := by
  unfold getPipe
  refine post_step (run_gets _ _) ?_
  cases hc : s.pipes.lookup key with
  | some o =>
    refine post_pure ⟨hs, fun o' e => ?_⟩
    cases e
    exact hs.pool_lt _ _ hc
  | none =>
    have hquiet : Loses bufferLosses E.stack Call.ofPipeline 0 := quiet_bufferLosses (by decide)
    refine post_bind (buildPipe_steady hquiet key.shader s) (fun o s' t h => ?_)
      fun e s' t h => ⟨h.1.pooled hs, nofun⟩
    have ha : s.Alike s' := h.1
    have hm := h.2.made ha.held (r := ⟨.descriptorPool, o.pool⟩)
      (Multiset.mem_add.mpr (Or.inl (Multiset.mem_coe.mpr (by simp [PipeObjs.res]))))
    refine post_step (run_update _ _) (post_pure ⟨?_, fun o' e => ?_⟩)
    · exact hs.add hc (by rw [ha.pipes]) ha.sets hm.2.1 hm.2.2
    · cases e
      exact hm.2.2

omit [Zero F] in
theorem allocSet_pooling {pool : Nat} (bufs : List GpuBuffer) (hs : s.Pooled) (hp : pool < s.next) :
    Post (allocSet E pool bufs) s fun _ s' _ => s'.Pooled := by
  refine post_mono (allocSet_post pool bufs s) fun r s' t h => ?_
  rcases h with ⟨-, rfl, -⟩ | ⟨-, -, rfl⟩
  · exact hs.less rfl (fun _ h => h) le_rfl
  · have hle : s.next ≤ s.next + 1 := Nat.le_succ _
    refine ⟨hs.own, fun k o h => lt_of_lt_of_le (hs.pool_lt k o h) hle, fun d hd => ?_⟩
    rcases List.mem_append.mp hd with hd | hd
    · exact lt_of_lt_of_le (hs.set_lt d hd) hle
    · rw [List.mem_singleton.mp hd]
      exact lt_of_lt_of_le hp hle

theorem runComputePush_pooling (shader : Shader) (bufs : List GpuBuffer) (groupsX : Nat)
    (push : List (Word F)) (hs : s.Pooled) :
    Post (runComputePush E shader bufs groupsX push) s fun _ s' _ => s'.Pooled := by
  by_cases hg : E.tooMany groupsX
  · exact post_run (run_refused hg shader bufs push s) hs
  have hg' : ¬(splitGroups groupsX E.maxGroupsX).2 > 65535 := hg
  unfold runComputePush
  simp only [if_neg hg']
  refine post_bind (getPipe_pool _ hs) (fun o s1 t1 h1 => ?_) fun e s1 t1 h1 => h1.1
  have hp := h1.2 o rfl
  refine post_step (run_gets _ _) ?_
  cases s1.batch.map Batch.cmd with
  | some cmd =>
    refine post_bind (allocSet_pooling bufs h1.1 hp) (fun set s2 t2 h2 => ?_) fun _ _ _ h => h
    refine post_step (each_record _ _ _) ?_
    have h3 : Pooling (batchTrackSets set : Gpu F Unit) := by
      refine keeps_bind (Q := anyAnswer) (keeps_gets fun _ _ => trivial) fun batch _ => ?_
      cases batch with
      | some st => exact pooling_batch _
      | none => exact keeps_pure trivial
    have h4 (rec : Nat → List (Cmd F)) : Sys.Pooled { s2 with recorded := rec } :=
      h2.less rfl (fun _ h => h) le_rfl
    exact (h3 _ (h4 _)).1
  | none =>
    refine post_attempt (fun _ => h1.1.less rfl (fun _ h => h) le_rfl) ?_
    refine post_step (run_resetPool _ _) ?_
    have h2 : Sys.Pooled { s1 with
        tick := s1.tick + 1
        sets := s1.sets.filter fun d => d.pool ≠ o.pool } :=
      h1.1.less rfl (fun _ h => List.mem_of_mem_filter h) le_rfl
    refine post_bind (allocSet_pooling bufs h2 hp) (fun set s3 t3 h3 => ?_) fun _ _ _ h => h
    exact (oneShot_pooling _ s3 h3).1

/-- **A sequence of calls** leaves every pipeline its pool. -/
theorem op_pooling (slots : List (Option GpuBuffer)) (op : Op F) : Pooling (op.run E slots) := by
  cases op with
  | createBufferF32 data =>
    show Pooling (createBufferF32 E data >>= fun b => pure (slots ++ [some b]))
    exact keeps_bind (createBufferF32_pooling data) fun _ _ => keeps_pure trivial
  | createEmpty len =>
    show Pooling (createEmpty E len >>= fun b => pure (slots ++ [some b]))
    exact keeps_bind (allocBuffer_pooling _) fun _ _ => keeps_pure trivial
  | runComputePush shader names groupsX push =>
    have h : Pooling (runComputePush E shader (named slots names) groupsX push) := fun s hs =>
      ⟨runComputePush_pooling _ _ _ _ hs, fun _ _ => trivial, fun _ _ => trivial⟩
    refine keeps_bind (keeps_observe h) fun done _ => ?_
    cases done with
    | ok a => exact keeps_pure trivial
    | error e =>
      by_cases hg : E.tooMany groupsX
      · simp only [if_pos hg]
        exact keeps_pure trivial
      · simp only [if_neg hg]
        exact keeps_fail e
  | destroyBuffer name =>
    unfold Op.run
    cases hb : cellAt slots name with
    | some b =>
      simp only [hb]
      exact keeps_bind (destroyBuffer_pooling b) fun _ _ => keeps_pure trivial
    | none =>
      simp only [hb]
      exact keeps_pure trivial

theorem runOps_pooling (ops : List (Op F)) (slots : List (Option GpuBuffer)) :
    Pooling (runOps E ops slots) := by
  induction ops generalizing slots with
  | nil => exact keeps_pure trivial
  | cons op ops ih => exact keeps_bind (op_pooling slots op) fun slots' _ => ih slots'

end Pooling

/-! ## 2. Runs without a failing call -/

theorem noFault_iff {t : List (Event F)} : NoFault t ↔ ∀ w ∈ t, w.Fine :=
  ⟨fun h _ hw c st e => h c st (e ▸ hw), fun h c st hw => h _ hw c st rfl⟩

/-- Programs that answer, in `Q`, unless a driver call fails. -/
abbrev Unfailing {α : Type} (m : Gpu F α) (s : Sys F) (Q : α → Sys F → List (Event F) → Prop) : Prop :=
  Smooth Event.Fine m s Q

section Unfailing

variable {α : Type} {E : Env F} {s : Sys F}

theorem unfailing_attempt {c : Call} {f : Unit → Gpu F α} {Q : α → Sys F → List (Event F) → Prop}
    (h : Unfailing (f ()) { s with tick := s.tick + 1 } Q) : Unfailing (attempt E c >>= f) s Q := by
  cases hc : E.sched s.tick with
  | none =>
    have hm : attempt E c s = ⟨.ok (), { s with tick := s.tick + 1 }, []⟩ := by
      simp only [attempt, hc]
    exact smooth_step hm h
  | some code =>
    have hm : attempt E c s = ⟨.error (.driver c code), { s with tick := s.tick + 1 },
        [.failed c E.stack]⟩ := by
      simp only [attempt, hc]
    have hr : (attempt E c s).result = .error (.driver c code) := by rw [hm]
    intro hw
    rw [bind_error f hr, hm] at hw
    exact absurd rfl (hw _ (List.mem_singleton.mpr rfl) _ _)

/-- The pipeline of a key: the cached one, or five new handles. -/
theorem getPipe_unfailing (key : Key) (s : Sys F) :
    Unfailing (getPipe E key) s fun o s' t => s'.pipes.lookup key = some o ∧
      ((t = [] ∧ s' = s) ∨ (s.pipes.lookup key = none ∧ t = o.res.map .created ∧
        o = ⟨s.next, s.next + 1, s.next + 2, s.next + 3, s.next + 4, key.shader⟩ ∧
        ∃ n, s' = { s with tick := n, next := s.next + 5, pipes := (key, o) :: s.pipes })) := by
  unfold getPipe
  refine smooth_step (run_gets _ _) ?_
  cases hc : s.pipes.lookup key with
  | some o => exact smooth_pure ⟨hc, Or.inl ⟨rfl, rfl⟩⟩
  | none =>
    have hbuild : Unfailing (buildPipe E key.shader) s fun o s' t => t = o.res.map .created ∧
        o = ⟨s.next, s.next + 1, s.next + 2, s.next + 3, s.next + 4, key.shader⟩ ∧
        ∃ n, s' = { s with tick := n, next := s.next + 5 } := by
      unfold buildPipe
      refine unfailing_attempt (smooth_step (run_create _ _) (smooth_onError ?_))
      refine unfailing_attempt (smooth_step (run_create _ _) (smooth_onError ?_))
      refine unfailing_attempt (smooth_step (run_create _ _) (smooth_onError ?_))
      refine unfailing_attempt (smooth_step (run_create _ _) (smooth_onError ?_))
      exact unfailing_attempt (smooth_step (run_create _ _) (smooth_pure ⟨rfl, rfl, _, rfl⟩))
    refine smooth_bind hbuild fun o s' t h => ?_
    obtain ⟨rfl, ho, n, rfl⟩ := h
    refine smooth_step (run_update _ _) (smooth_pure ⟨?_, Or.inr ⟨rfl, ?_, ho, n, rfl⟩⟩)
    · show ((key, o) :: s.pipes).lookup key = some o
      rw [List.lookup_cons, beq_self_eq_true]
    · simp

/-- A set from a pool with room. -/
theorem allocSet_unfailing {pool : Nat} (bufs : List GpuBuffer) (hl : s.live pool < 64) :
    Unfailing (allocSet E pool bufs) s fun d s' t => d = ⟨pool, s.next, bufs⟩ ∧ t = [] ∧
      s' = { s with tick := s.tick + 1, next := s.next + 1, sets := s.sets ++ [d] } := by
  rcases allocSet_run (E := E) pool bufs hl with ⟨code, hm⟩ | hm
  · intro hw
    rw [hm] at hw
    exact absurd rfl (hw _ (List.mem_singleton.mpr rfl) _ _)
  · exact smooth_run hm ⟨rfl, rfl, rfl⟩

variable [Zero F]

/-- A buffer is two new handles. -/
theorem allocBuffer_unfailing (size : Nat) (s : Sys F) :
    Unfailing (allocBuffer E size) s fun b s' t => b = ⟨s.next, s.next + 1, size⟩ ∧
      t = b.res.map .created ∧
      ∃ n a mem, s' = { s with tick := n, next := s.next + 2, allocs := a, mem := mem } := by
  unfold allocBuffer
  refine unfailing_attempt (smooth_step (run_create _ _) ?_)
  refine unfailing_attempt (unfailing_attempt (smooth_step (run_createMemory _ _) ?_))
  exact unfailing_attempt (smooth_pure ⟨rfl, rfl, _, _, _, rfl⟩)

/-- **An upload into an open batch**: the copy is recorded and the staging buffer goes to the
    trash. -/
theorem createBufferF32_unfailing (data : List F) {st : Batch} (hb : s.batch = some st) :
    Unfailing (createBufferF32 E data) s fun b s' t => ∃ staging : GpuBuffer,
      staging = ⟨s.next, s.next + 1, 4 * data.length⟩ ∧
      b = ⟨s.next + 2, s.next + 3, 4 * data.length⟩ ∧
      t = staging.res.map .created ++ b.res.map .created ++
        [.recorded st.cmd (.copy staging b 0 (4 * data.length))] ∧
      ∃ n a mem, s' = { s with
        tick := n
        next := s.next + 4
        allocs := a
        mem := mem
        recorded := Function.update s.recorded st.cmd
          (s.recorded st.cmd ++ [.copy staging b 0 (4 * data.length)])
        batch := some { st with trash := st.trash ++ [staging] } } := by
  unfold createBufferF32
  dsimp only
  refine smooth_bind (allocBuffer_unfailing _ s) fun staging s1 t1 h1 => ?_
  obtain ⟨rfl, rfl, n1, a1, mem1, rfl⟩ := h1
  refine smooth_bind (M := fun x s' t => ∃ b, x = .ok (b, true) ∧
    b = ⟨s.next + 2, s.next + 3, 4 * data.length⟩ ∧ t = b.res.map .created ++
        [.recorded st.cmd (.copy ⟨s.next, s.next + 1, 4 * data.length⟩ b 0 (4 * data.length))] ∧
      ∃ n a mem, s' = { s with
        tick := n
        next := s.next + 4
        allocs := a
        mem := mem
        recorded := Function.update s.recorded st.cmd
          (s.recorded st.cmd ++
            [.copy ⟨s.next, s.next + 1, 4 * data.length⟩ b 0 (4 * data.length)])
        batch := some { st with trash := st.trash ++ [⟨s.next, s.next + 1, 4 * data.length⟩] } })
    (smooth_observe ?_) fun x s2 t2 h2 => ?_
  · refine unfailing_attempt (smooth_step (run_update _ _) ?_)
    refine smooth_bind (allocBuffer_unfailing _ _) fun b s3 t3 h3 => ?_
    obtain ⟨rfl, rfl, n3, a3, mem3, rfl⟩ := h3
    refine smooth_step (run_gets _ _) ?_
    simp only [hb, Option.map_some]
    refine smooth_step (run_record _ _ _) (smooth_step (run_batchTrash_open _ rfl) ?_)
    exact smooth_pure ⟨_, rfl, rfl, rfl, _, _, _, rfl⟩
  · obtain ⟨b, rfl, rfl, rfl, n, a, mem, rfl⟩ := h2
    refine smooth_pure ⟨_, rfl, rfl, ?_, n, a, mem, rfl⟩
    rw [List.append_nil, List.append_assoc]

end Unfailing

/-! ## 3. Calls in an open batch -/

/-- The buffers a command is bound to. -/
def Cmd.bufs : Cmd F → List GpuBuffer
  | .copy src dst _ _ => [src, dst]
  | .barrier => []
  | .dispatch _ _ set _ => set.bufs

/-- The descriptor sets a command is bound to. -/
def Cmd.sets : Cmd F → List DescSet
  | .dispatch _ _ set _ => [set]
  | _ => []

/-- What may happen before the batch is submitted: handles are made and commands recorded. -/
def Event.Queued : Event F → Prop
  | .created _ => True
  | .begun _ => True
  | .opened _ => True
  | .recorded _ _ => True
  | .refused _ => True
  | _ => False

/-- The handles of a client's buffers. -/
def owned (slots : List (Option GpuBuffer)) : List Res := (filled slots).flatMap GpuBuffer.res

theorem owned_append (slots : List (Option GpuBuffer)) (b : GpuBuffer) :
    owned (slots ++ [some b]) = owned slots ++ b.res := by
  unfold owned
  rw [filled_append, List.flatMap_append, List.flatMap_singleton]

theorem mem_owned {slots : List (Option GpuBuffer)} {i : Nat} {b : GpuBuffer}
    (h : cellAt slots i = some b) {r : Res} (hr : r ∈ b.res) : r ∈ owned slots :=
  List.mem_flatMap.mpr ⟨b, mem_filled h, hr⟩

theorem owned_set {slots : List (Option GpuBuffer)} {i : Nat} {b : GpuBuffer}
    (h : cellAt slots i = some b) : (owned slots).Perm (b.res ++ owned (slots.set i none)) :=
  (filled_set h).flatMap_right GpuBuffer.res

/-- **What a call does while a batch is open**: it makes handles and records commands on what its
    client owns or on what was made on the way; it releases nothing, and what it gives up or needs
    until the commands have run is the batch's. -/
structure Queues (s s' : Sys F) (slots slots' : List (Option GpuBuffer)) (t : List (Event F)) :
    Prop where
  cmd : s'.openCmd = s.openCmd
  staging : s'.staging = s.staging
  events : ∀ w ∈ t, w.Queued
  moves : (ledger losses).Moves s s' t (owned slots) (owned slots') 0
  cmds : ∃ cmds, s'.pending = s.pending ++ cmds ∧ ∀ c ∈ cmds,
    (∀ b ∈ c.bufs, ∀ r ∈ b.res, r ∈ owned slots ∨ .created r ∈ t) ∧
      ∀ d ∈ c.sets, s.next ≤ d.handle ∧ d ∈ s'.batchSets
  sets : ∀ d ∈ s.batchSets, d ∈ s'.batchSets
  bufs : ∀ r ∈ owned slots', r ∈ owned slots ∨ .created r ∈ t
  once : (owned slots).Nodup → (∀ r ∈ owned slots, r.handle < s.next) → (owned slots').Nodup

section Queues

variable {s s' s'' : Sys F} {slots slots' slots'' : List (Option GpuBuffer)} {t t' : List (Event F)}

theorem Queues.refl (s : Sys F) (slots : List (Option GpuBuffer)) : Queues s s slots slots [] where
  cmd := rfl
  staging := rfl
  events := no_event
  moves := ⟨by rw [add_zero]; rfl, .none le_rfl⟩
  cmds := ⟨[], (List.append_nil _).symm, fun c hc => absurd hc List.not_mem_nil⟩
  sets _ h := h
  bufs _ h := Or.inl h
  once h _ := h

/-- What is owned after a call in an open batch is in use. -/
theorem Queues.issued (h : Queues s s' slots slots' t) (ho : ∀ r ∈ owned slots, r.handle < s.next) :
    ∀ r ∈ owned slots', r.handle < s'.next := by
  intro r hr
  rcases h.bufs r hr with hr | hr
  · exact lt_of_lt_of_le (ho r hr) h.moves.issued.le
  · exact h.moves.issued.high _ (List.mem_map_of_mem (List.mem_filterMap.mpr ⟨_, hr, rfl⟩))

theorem Queues.trans (h : Queues s s' slots slots' t) (h' : Queues s' s'' slots' slots'' t') :
    Queues s s'' slots slots'' (t ++ t') where
  cmd := h'.cmd.trans h.cmd
  staging := h'.staging.trans h.staging
  events w hw := (List.mem_append.mp hw).elim (h.events w) (h'.events w)
  moves := by
    have hm := h.moves.trans h'.moves
    rwa [add_zero] at hm
  cmds := by
    obtain ⟨cmds, hp, hc⟩ := h.cmds
    obtain ⟨cmds', hp', hc'⟩ := h'.cmds
    refine ⟨cmds ++ cmds', by rw [hp', hp, List.append_assoc], fun c hm => ?_⟩
    rcases List.mem_append.mp hm with hm | hm
    · refine ⟨fun b hb r hr => ?_, fun d hd => ⟨((hc c hm).2 d hd).1, h'.sets d ((hc c hm).2 d hd).2⟩⟩
      exact ((hc c hm).1 b hb r hr).imp_right (List.mem_append_left t')
    · refine ⟨fun b hb r hr => ?_, fun d hd => ⟨?_, ((hc' c hm).2 d hd).2⟩⟩
      · rcases (hc' c hm).1 b hb r hr with hr | hr
        · exact (h.bufs r hr).imp_right (List.mem_append_left t')
        · exact Or.inr (List.mem_append_right t hr)
      · exact le_trans h.moves.issued.le ((hc' c hm).2 d hd).1
  sets d hd := h'.sets d (h.sets d hd)
  bufs r hr := by
    rcases h'.bufs r hr with hr | hr
    · exact (h.bufs r hr).imp_right (List.mem_append_left t')
    · exact Or.inr (List.mem_append_right t hr)
  once hd ho := h'.once (h.once hd ho) (h.issued ho)

/-- A new buffer is not among those in use. -/
theorem owned_nodup {b : GpuBuffer} (hd : (owned slots).Nodup)
    (ho : ∀ r ∈ owned slots, r.handle < s.next) (hb : s.next ≤ b.buffer) (hm : s.next ≤ b.memory) :
    (owned (slots ++ [some b])).Nodup := by
  rw [owned_append, List.nodup_append]
  refine ⟨hd, by simp [GpuBuffer.res], fun r hr r' hr' e => ?_⟩
  have h := ho r hr
  rw [e] at h
  rcases List.mem_cons.mp hr' with rfl | hr'
  · exact absurd h (Nat.not_lt.mpr hb)
  · rw [List.mem_singleton.mp hr'] at h
    exact absurd h (Nat.not_lt.mpr hm)

theorem owned_dropped {i : Nat} {b : GpuBuffer} (hn : cellAt slots i = some b)
    (hd : (owned slots).Nodup) : (owned (slots.set i none)).Nodup :=
  (List.nodup_append.mp ((owned_set hn).nodup_iff.mp hd)).2.1

/-- A step that makes handles and releases none. -/
theorem moves_making {L : Losses} {inn out : Multiset Res} (rs : List Res)
    (hm : t.filterMap Event.made = rs) (hf : t.filterMap Event.freed = [])
    (hi : Issued s.next s'.next (rs.map Res.handle)) (hh : ↑rs + s.held + inn = s'.held + out) :
    (ledger L).Moves s s' t inn out 0 where
  sum := by
    show (↑(t.filterMap Event.made) : Multiset Res) + s.held + inn =
      ↑(t.filterMap Event.freed) + s'.held + out + 0
    rw [hm, hf, hh, Multiset.coe_nil, zero_add, add_zero]
  issued := by
    show Issued s.next s'.next ((t.filterMap Event.made).map Res.handle)
    rw [hm]
    exact hi

/-- A step that makes handles and hands buffers to the trash of the open batch. -/
theorem moves_trashing {L : Losses} {inn out : Multiset Res} {st : Batch} {sets : List DescSet}
    (rs : List Res) (bs : List GpuBuffer) (hst : s'.staging = s.staging) (hp : s'.pipes = s.pipes)
    (hb : s.batch = some st) (hb' : s'.batch = some ⟨st.cmd, sets, st.trash ++ bs⟩)
    (hm : t.filterMap Event.made = rs) (hf : t.filterMap Event.freed = [])
    (hi : Issued s.next s'.next (rs.map Res.handle))
    (hh : ↑rs + inn = (bs.map handles).sum + out) : (ledger L).Moves s s' t inn out 0 := by
  refine moves_making rs hm hf hi ?_
  have hheld : s'.held = s.held + (bs.map handles).sum := by
    unfold Sys.held
    rw [hst, hp, hb, hb']
    simp only [Option.toList_some, List.map_singleton, List.sum_singleton, Batch.held,
      List.map_append, List.sum_append]
    abel
  rw [hheld, add_assoc s.held, ← hh]
  abel

theorem pending_open {st : Batch} (hb : s.batch = some st) : s.pending = s.recorded st.cmd := by
  unfold Sys.pending
  rw [hb]

theorem batchSets_open {st : Batch} (hb : s.batch = some st) : s.batchSets = st.sets := by
  unfold Sys.batchSets
  rw [hb]

theorem openCmd_open {st : Batch} (hb : s.batch = some st) : s.openCmd = some st.cmd := by
  unfold Sys.openCmd
  rw [hb]
  rfl

end Queues

/-- How often the open batch has used the pool of a pipeline, at most. -/
def Sys.Used (u : Key → Nat) (s : Sys F) : Prop :=
  ∀ k o, s.pipes.lookup k = some o → s.tracked o.pool ≤ u k

section Calls

variable [Zero F] {E : Env F} {s : Sys F} {slots : List (Option GpuBuffer)} {st : Batch} {u : Key → Nat}

/-- An upload in an open batch. -/
theorem createBufferF32_queues (slots : List (Option GpuBuffer)) (data : List F) (hb : s.batch = some st) :
    Unfailing (createBufferF32 E data) s fun b s' t =>
      Queues s s' slots (slots ++ [some b]) t ∧ s'.pipes = s.pipes ∧ s'.batchSets = s.batchSets := by
  refine smooth_mono (createBufferF32_unfailing data hb) fun b s' t h => ?_
  obtain ⟨staging, rfl, rfl, rfl, n, a, mem, rfl⟩ := h
  have hsets : st.sets = s.batchSets := (batchSets_open hb).symm
  refine ⟨⟨?_, rfl, ?_, ?_, ⟨[.copy ⟨s.next, s.next + 1, 4 * data.length⟩
    ⟨s.next + 2, s.next + 3, 4 * data.length⟩ 0 (4 * data.length)], ?_, ?_⟩, ?_, ?_, fun hd ho => owned_nodup hd ho
      (Nat.le_add_right _ 2) (Nat.le_add_right _ 3)⟩, rfl, hsets⟩
  · exact (openCmd_open hb).symm
  · intro w hw
    simp only [GpuBuffer.res, List.map_cons, List.map_nil, List.cons_append, List.nil_append,
      List.mem_cons, List.not_mem_nil, or_false] at hw
    rcases hw with rfl | rfl | rfl | rfl | rfl
    all_goals trivial
  · refine moves_trashing (GpuBuffer.res ⟨s.next, s.next + 1, 4 * data.length⟩ ++
      GpuBuffer.res ⟨s.next + 2, s.next + 3, 4 * data.length⟩)
      [⟨s.next, s.next + 1, 4 * data.length⟩] rfl rfl hb rfl rfl rfl (Issued.range s.next 4) ?_
    rw [owned_append, ← Multiset.coe_add, ← Multiset.coe_add, List.map_singleton,
      List.sum_singleton, handles]
    abel
  · rw [pending_open hb]
    exact Function.update_self _ _ _
  · intro c hc
    rw [List.mem_singleton.mp hc]
    refine ⟨fun b hb r hr => Or.inr ?_, fun d hd => absurd hd List.not_mem_nil⟩
    rcases List.mem_cons.mp hb with rfl | hb
    · exact List.mem_append_left _ (List.mem_append_left _ (List.mem_map_of_mem hr))
    · rw [List.mem_singleton.mp hb] at hr
      exact List.mem_append_left _ (List.mem_append_right _ (List.mem_map_of_mem hr))
  · exact fun d hd => hsets ▸ hd
  · intro r hr
    rw [owned_append] at hr
    rcases List.mem_append.mp hr with hr | hr
    · exact Or.inl hr
    · exact Or.inr (List.mem_append_left _ (List.mem_append_right _ (List.mem_map_of_mem hr)))

/-- A new buffer in an open batch. -/
theorem createEmpty_queues (slots : List (Option GpuBuffer)) (len : Nat) (s : Sys F) :
    Unfailing (createEmpty E len) s fun b s' t =>
      Queues s s' slots (slots ++ [some b]) t ∧ s'.pipes = s.pipes ∧ s'.batchSets = s.batchSets := by
  refine smooth_mono (allocBuffer_unfailing (len * 4) s) fun b s' t h => ?_
  obtain ⟨rfl, rfl, n, a, mem, rfl⟩ := h
  refine ⟨⟨rfl, rfl, ?_, ?_, ⟨[], (List.append_nil _).symm, fun c hc => absurd hc List.not_mem_nil⟩,
    fun d hd => hd, ?_, fun hd ho => owned_nodup hd ho le_rfl (Nat.le_succ _)⟩, rfl, rfl⟩
  · intro w hw
    obtain ⟨r, -, rfl⟩ := List.mem_map.mp hw
    trivial
  · refine moves_making (GpuBuffer.res ⟨s.next, s.next + 1, len * 4⟩) rfl rfl (Issued.range s.next 2) ?_
    have hh : Sys.held { s with tick := n, next := s.next + 2, allocs := a, mem := mem } = s.held := rfl
    rw [hh, owned_append, ← Multiset.coe_add]
    abel
  · intro r hr
    rw [owned_append] at hr
    exact (List.mem_append.mp hr).imp_right List.mem_map_of_mem

omit [Zero F] in
/-- A destroyed buffer goes to the trash. -/
theorem destroyBuffer_queues {name : Nat} {b : GpuBuffer} (hn : cellAt slots name = some b)
    (hb : s.batch = some st) :
    Unfailing (destroyBuffer b) s fun _ s' t =>
      Queues s s' slots (slots.set name none) t ∧ s'.pipes = s.pipes ∧ s'.batchSets = s.batchSets := by
  unfold destroyBuffer
  refine smooth_step (run_batchTrash_open b hb) (smooth_pure ?_)
  have hsets : Sys.batchSets { s with batch := some { st with trash := st.trash ++ [b] } } =
      s.batchSets := (batchSets_open hb).symm
  have hpend : Sys.pending { s with batch := some { st with trash := st.trash ++ [b] } } = s.pending :=
    (pending_open hb).symm
  have hperm := owned_set hn
  refine ⟨⟨(openCmd_open hb).symm, rfl, no_event, ?_, ⟨[], ?_, fun c hc =>
    absurd hc List.not_mem_nil⟩, fun d hd => by rwa [hsets], fun r hr => Or.inl ?_,
    fun hd _ => owned_dropped hn hd⟩, rfl, hsets⟩
  · refine moves_trashing [] [b] rfl rfl hb rfl rfl rfl (.none le_rfl) ?_
    rw [Multiset.coe_eq_coe.mpr hperm, ← Multiset.coe_add, List.map_singleton, List.sum_singleton,
      handles, Multiset.coe_nil, zero_add]
  · rw [hpend, List.append_nil]
  · exact hperm.mem_iff.mpr (List.mem_append_right _ hr)

omit [Zero F] in
/-- The pipeline of a dispatch in an open batch. -/
theorem getPipe_queues (slots : List (Option GpuBuffer)) (key : Key) (hp : s.Pooled) (hsets : ∀ d ∈ s.batchSets, d ∈ s.sets)
    (hu : s.Used u) :
    Unfailing (getPipe E key) s fun o s' t => Queues s s' slots slots t ∧ s'.Used u ∧
      s'.pipes.lookup key = some o ∧ s'.batch = s.batch ∧ s'.sets = s.sets := by
  refine smooth_mono (getPipe_unfailing key s) fun o s' t h => ?_
  obtain ⟨hl, ⟨rfl, rfl⟩ | ⟨hnone, rfl, ho, n, rfl⟩⟩ := h
  · exact ⟨.refl _ _, hu, hl, rfl, rfl⟩
  refine ⟨⟨rfl, rfl, ?_, ?_, ⟨[], (List.append_nil _).symm, fun c hc => absurd hc List.not_mem_nil⟩,
    fun d hd => hd, fun r hr => Or.inl hr, fun hd _ => hd⟩, fun k o' hk => ?_, hl, rfl, rfl⟩
  · intro w hw
    obtain ⟨r, -, rfl⟩ := List.mem_map.mp hw
    trivial
  · refine moves_making o.res (by rw [ho]; rfl) (by rw [ho]; rfl)
      (by rw [ho]; exact Issued.range s.next 5) ?_
    show (↑o.res : Multiset Res) + s.held + _ = Sys.held { s with pipes := (key, o) :: s.pipes } + _
    unfold Sys.held
    rw [List.map_cons, List.sum_cons]
    abel
  · -- the new pool has no sets yet
    have hk' : ((key, o) :: s.pipes).lookup k = some o' := hk
    rw [List.lookup_cons] at hk'
    by_cases hkey : k = key
    · rw [hkey, beq_self_eq_true] at hk'
      have hzero : s.tracked o.pool = 0 := by
        unfold Sys.tracked inPool
        rw [List.length_eq_zero_iff, List.filter_eq_nil_iff]
        intro d hd e
        have h1 := hp.set_lt d (hsets d hd)
        rw [of_decide_eq_true e, ho] at h1
        exact absurd h1 (by simp)
      rw [← Option.some.inj hk']
      exact le_of_eq_of_le hzero (Nat.zero_le _)
    · rw [beq_eq_false_iff_ne.mpr hkey] at hk'
      exact hu k o' hk'

/-- The uses of the pipelines after one more. -/
def addUse (u : Key → Nat) (key : Option Key) (k : Key) : Nat := u k + if key = some k then 1 else 0

/-- **A dispatch in an open batch**: its set is the batch's. -/
theorem runComputePush_queues (shader : Shader) {names : List Nat} {groupsX : Nat}
    (push : List (Word F)) (hg : ¬E.tooMany groupsX)
    (hl : ∀ i ∈ names, (cellAt slots i).isSome) (hb : s.batch = some st) (hs : s.Valid)
    (hp : s.Pooled) (hu : s.Used u) (hmax : u ⟨shader, names.length, 4 * push.length⟩ < 63) :
    Unfailing (runComputePush E shader (named slots names) groupsX push) s fun _ s' t =>
      Queues s s' slots slots t ∧
        s'.Used (addUse u (some ⟨shader, names.length, 4 * push.length⟩)) := by
  have hg' : ¬(splitGroups groupsX E.maxGroupsX).2 > 65535 := hg
  have hin : ∀ d ∈ s.batchSets, d ∈ s.sets := by
    obtain ⟨kept, hk, -⟩ := hs.sets
    intro d hd
    rw [hk]
    exact List.mem_append_right _ hd
  unfold runComputePush
  simp only [if_neg hg', named_length hl]
  refine smooth_bind (smooth_and (getPipe_queues slots
    ⟨shader, names.length, 4 * push.length⟩ hp hin hu)
    (getPipe_pool _ hp)) fun o s1 t1 h1 => ?_
  obtain ⟨⟨hq, hu1, hlook, hb1, hsets1⟩, hp1, -⟩ := h1
  have hb1' : s1.batch = some st := hb1.trans hb
  have hbs : s1.batchSets = st.sets := batchSets_open hb1'
  -- the pool has room: the sets of the batch, and at most one from before it
  have hroom : s1.live o.pool < 64 := by
    obtain ⟨kept, hk, hle⟩ := hs.sets
    have h1 := hu1 _ o hlook
    have h2 := hle o.pool
    unfold Sys.tracked at h1
    unfold Sys.live
    rw [hsets1, hk, inPool_append, batchSets_open hb, ← hbs]
    omega
  refine smooth_step (run_gets _ _) ?_
  simp only [hb1', Option.map_some]
  refine smooth_bind (allocSet_unfailing (named slots names) hroom) fun d s2 t2 h2 => ?_
  obtain ⟨rfl, rfl, rfl⟩ := h2
  refine smooth_step (each_record _ _ _) (smooth_run (run_batchTrackSets_open _ hb1') ?_)
  generalize hd : (⟨o.pool, s1.next, named slots names⟩ : DescSet) = d
  simp only [List.nil_append, List.append_nil]
  refine ⟨hq.trans ⟨(openCmd_open hb1').symm, rfl, fun w hw => ?_, ?_, ⟨dispatchCmds o push d
    (splitGroups groupsX E.maxGroupsX), ?_, fun c hc => ?_⟩, fun d' hd' => ?_, fun r hr => Or.inl hr,
    fun hd _ => hd⟩, fun k o' hk => ?_⟩
  · obtain ⟨c, -, rfl⟩ := List.mem_map.mp hw
    trivial
  · refine moves_trashing [] [] rfl rfl hb1' (congrArg some (by rw [List.append_nil])) rfl rfl
      (.none (Nat.le_succ _)) ?_
    rw [List.map_nil, List.sum_nil, Multiset.coe_nil]
  · rw [pending_open hb1']
    exact Function.update_self _ _ _
  · refine ⟨fun b hbc r hr => Or.inl ?_, fun d' hd' => ?_⟩
    · rcases List.mem_cons.mp hc with rfl | hc
      · exact absurd hbc List.not_mem_nil
      · rw [List.mem_singleton.mp hc] at hbc
        have hbc' : b ∈ named slots names := by rw [← hd] at hbc; exact hbc
        obtain ⟨i, -, hi⟩ := mem_named hbc'
        exact mem_owned hi hr
    · rcases List.mem_cons.mp hc with rfl | hc
      · exact absurd hd' List.not_mem_nil
      · rw [List.mem_singleton.mp hc] at hd'
        rw [List.mem_singleton.mp hd']
        exact ⟨by rw [← hd], List.mem_append_right _ (List.mem_singleton.mpr rfl)⟩
  · rw [hbs] at hd'
    exact List.mem_append_left _ hd'
  · have hold := hu1 k o' hk
    unfold Sys.tracked at hold ⊢
    rw [hbs] at hold
    show inPool o'.pool (st.sets ++ [d]) ≤ _
    rw [inPool_append]
    unfold addUse
    by_cases hkey : (⟨shader, names.length, 4 * push.length⟩ : Key) = k
    · rw [if_pos (congrArg some hkey)]
      have h1 := inPool_one o'.pool d
      omega
    · rw [if_neg fun e => hkey (Option.some.inj e)]
      have hzero : inPool o'.pool [d] = 0 := by
        unfold inPool
        rw [List.length_eq_zero_iff, List.filter_eq_nil_iff]
        intro d' hd' e
        rw [List.mem_singleton.mp hd', ← hd] at e
        exact hkey (hp1.own _ _ _ _ hlook hk (of_decide_eq_true e))
      omega

omit [Zero F] in
/-- A call that leaves the pipelines and the sets of the batch alone. -/
theorem Sys.Used.same {s' : Sys F} (hu : s.Used u) (hp : s'.pipes = s.pipes)
    (hb : s'.batchSets = s.batchSets) (key : Option Key) : s'.Used (addUse u key) := by
  intro k o hk
  have h := hu k o (hp ▸ hk)
  unfold Sys.tracked addUse at *
  rw [hb]
  omega

/-- **A call in an open batch.** -/
theorem op_queues {S : Store F} {op : Op F} (hs : s.Valid) (hp : s.Pooled) (hb : s.batch = some st)
    (hc : Shows E.kernel s slots S) (hl : op.Live S) (hu : s.Used u)
    (hmax : ∀ k, op.key E = some k → u k < 63) :
    Unfailing (op.run E slots) s fun slots' s' t =>
      Queues s s' slots slots' t ∧ s'.Used (addUse u (op.key E)) := by
  cases op with
  | createBufferF32 data =>
    refine smooth_bind (createBufferF32_queues slots data hb) fun b s' t h => smooth_pure ?_
    rw [List.append_nil]
    exact ⟨h.1, hu.same h.2.1 h.2.2 _⟩
  | createEmpty len =>
    refine smooth_bind (createEmpty_queues slots len s) fun b s' t h => smooth_pure ?_
    rw [List.append_nil]
    exact ⟨h.1, hu.same h.2.1 h.2.2 _⟩
  | runComputePush shader names groupsX push =>
    have hlive : ∀ i ∈ names, (cellAt slots i).isSome := by
      intro i hi
      obtain ⟨xs, hx⟩ := Option.isSome_iff_exists.mp (hl i hi)
      obtain ⟨b, hb, -⟩ := hc.cells.some_right hx
      rw [hb]
      rfl
    by_cases hg : E.tooMany groupsX
    · refine smooth_step (observe_refused hg shader _ push s) ?_
      simp only [if_pos hg]
      refine smooth_pure ⟨⟨rfl, rfl, fun w hw => ?_, ?_, ⟨[], (List.append_nil _).symm, fun c hc =>
        absurd hc List.not_mem_nil⟩, fun d hd => hd, fun r hr => Or.inl hr, fun hd _ => hd⟩,
        hu.same rfl rfl _⟩
      · rw [List.append_nil, List.mem_singleton] at hw
        rw [hw]
        trivial
      · exact moves_making [] rfl rfl (.none le_rfl) (by rw [Multiset.coe_nil, zero_add])
    · have hkey : Op.key E (.runComputePush shader names groupsX push) =
          some ⟨shader, names.length, 4 * push.length⟩ := if_neg hg
      rw [hkey]
      refine smooth_bind (M := fun r s' t => r = .ok () ∧ Queues s s' slots slots t ∧
        s'.Used (addUse u (some ⟨shader, names.length, 4 * push.length⟩))) (smooth_observe
          (smooth_mono (runComputePush_queues shader push hg hlive hb hs hp hu (hmax _ hkey))
            fun _ _ _ h => ⟨rfl, h⟩)) fun r s' t h => ?_
      obtain ⟨rfl, h⟩ := h
      refine smooth_pure ?_
      rw [List.append_nil]
      exact h
  | destroyBuffer name =>
    obtain ⟨xs, hx⟩ := Option.isSome_iff_exists.mp hl
    obtain ⟨b, hn, -⟩ := hc.cells.some_right hx
    unfold Op.run
    simp only [hn]
    refine smooth_bind (destroyBuffer_queues hn hb) fun _ s' t h => smooth_pure ?_
    rw [List.append_nil]
    exact ⟨h.1, hu.same h.2.1 h.2.2 _⟩

/-- **A sequence of calls in an open batch** only queues, as long as no pipeline is used too often. -/
theorem runOps_queues {S : Store F} {ops : List (Op F)} (hs : s.Valid) (hp : s.Pooled)
    (ho : s.openCmd ≠ none) (hc : Shows E.kernel s slots S) (hl : AllLive E S ops) (hu : s.Used u)
    (hmax : ∀ k, u k + uses E ops k ≤ 63) :
    Unfailing (runOps E ops slots) s fun slots' s' t => Queues s s' slots slots' t := by
  induction ops generalizing s slots S u with
  | nil => exact smooth_pure (.refl _ _)
  | cons op ops ih =>
    obtain ⟨st, hb⟩ : ∃ st, s.batch = some st := by
      cases hb : s.batch with
      | none => exact absurd (congrArg (Option.map Batch.cmd) hb) ho
      | some st => exact ⟨st, rfl⟩
    have hone : ∀ k, op.key E = some k → u k < 63 := by
      intro k hk
      have h := hmax k
      unfold uses at h
      rw [List.countP_cons_of_pos (by simpa using hk)] at h
      omega
    have hpool : Post (op.run E slots) s fun _ s' _ => s'.Pooled := (op_pooling slots op s hp).1
    refine smooth_bind (smooth_and (op_queues hs hp hb hc hl.1 hu hone)
      (post_and (op_shows hs hc hl.1) hpool)) fun slots1 s1 t1 h1 => ?_
    obtain ⟨⟨hq, hu1⟩, hsh, hp1⟩ := h1
    obtain ⟨k, W, he⟩ := hsh.ext
    refine smooth_mono (ih he.valid hp1 (by rw [hq.cmd]; exact ho) (hsh.shows _ rfl) hl.2 hu1
      fun k => ?_) fun slots2 s2 t2 h2 => hq.trans h2
    have h := hmax k
    unfold uses addUse at *
    rw [List.countP_cons] at h
    by_cases hk : op.key E = some k
    · rw [if_pos (by simpa using hk)] at h
      rw [if_pos hk]
      omega
    · rw [if_neg (by simpa using hk)] at h
      rw [if_neg hk]
      omega

end Calls

end Ssimulacra2
