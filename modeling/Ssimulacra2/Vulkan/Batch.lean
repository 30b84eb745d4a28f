/-
  File:      Ssimulacra2/Vulkan/Batch.lean
  Subject:   Whole batches: what runs, what is released when, and what is left.

  Between two batches a context is at rest (`AtRest`); the part of a batch before its end fills it
  (`Full`); its end runs the commands or not and releases what the batch holds.

  * `batching_is_invisible` -- however a sequence of calls is cut into batches, the contents agree;
  * `batch_releases_late` -- nothing is released before the fence, and then everything once;
  * `abort_releases_the_same` -- an aborted batch changes nothing and releases the same.
-/
import Ssimulacra2.Vulkan.Calls
import Ssimulacra2.Vulkan.Queue

namespace Ssimulacra2

open Fallible Prog Slots

variable {F : Type}

/-! ## 1. A whole batch -/

/-- What the end of a batch releases, in order. -/
def Batch.releases (st : Batch) : List (Event F) :=
  (st.sets.map fun d => .setFreed d.handle) ++
    ((st.trash.flatMap fun b => b.res.map .released) ++ [.released ⟨.cmdBuf, st.cmd⟩])

section Whole

variable [Zero F] {E : Env F} {s s' : Sys F} {slots slots' : List (Option GpuBuffer)} {st : Batch}
  {t : List (Event F)}

omit [Zero F] in
theorem made_releases (st : Batch) : created (st.releases : List (Event F)) = [] := by
  refine List.filterMap_eq_nil_iff.mpr fun w hw => ?_
  simp only [Batch.releases, List.mem_append, List.mem_map, List.mem_flatMap, List.mem_singleton] at hw
  rcases hw with ⟨d, -, rfl⟩ | ⟨b, -, r, -, rfl⟩ | rfl
  all_goals rfl

omit [Zero F] in
theorem freed_releases (st : Batch) : released (st.releases : List (Event F)) =
    (st.trash.flatMap GpuBuffer.res) ++ [⟨.cmdBuf, st.cmd⟩] := by
  unfold released Batch.releases
  have hsets : (st.sets.map fun d => (.setFreed d.handle : Event F)).filterMap Event.freed = [] := by
    refine List.filterMap_eq_nil_iff.mpr fun w hw => ?_
    obtain ⟨d, -, rfl⟩ := List.mem_map.mp hw
    rfl
  have htrash : (st.trash.flatMap fun b => b.res.map (.released : Res → Event F)).filterMap Event.freed =
      st.trash.flatMap GpuBuffer.res := by
    induction st.trash with
    | nil => rfl
    | cons b trash ih =>
      rw [List.flatMap_cons, List.filterMap_append, ih]
      rfl
  rw [List.filterMap_append, hsets, List.filterMap_append, htrash]
  rfl

omit [Zero F] in
theorem begin_unfailing (hb : s.batch = none) :
    Unfailing (beginBatch E) s fun _ s' t => t = [.created ⟨.cmdBuf, s.next⟩, .begun s.next,
      .opened s.next] ∧ s'.batch = some ⟨s.next, [], []⟩ ∧ s'.pending = [] ∧ s'.staging = s.staging ∧
      s'.pipes = s.pipes ∧ s'.sets = s.sets ∧ s'.next = s.next + 1 := by
  unfold beginBatch
  refine unfailing_attempt (smooth_step (run_create _ _) (unfailing_attempt (smooth_step
    (run_begun _ _) (smooth_step (run_gets _ _) ?_))))
  simp only [hb, Option.isSome_none, Bool.false_eq_true, if_false]
  refine smooth_step (run_update _ _) (smooth_run (run_emit _ _) ⟨rfl, rfl, ?_, rfl, rfl, rfl, rfl⟩)
  exact Function.update_self _ _ _

/-- The events of `finish_batch`: up to the fence, and after it. -/
def finishEvents (submit : Bool) (s : Sys F) (st : Batch) : List (Event F) :=
  if submit then .closed st.cmd :: .created ⟨.fence, s.next⟩ :: (s.recorded st.cmd).map .ran ++
    .waited st.cmd :: .released ⟨.fence, s.next⟩ :: st.releases
  else .closed st.cmd :: st.releases

/-- **The end of a batch**: nothing is released before its commands have run. -/
theorem finish_unfailing (submit : Bool) (hb : s.batch = some st) :
    Unfailing (finishBatch E submit) s fun _ s' t => t = finishEvents submit s st ∧
      s'.batch = none ∧ s'.staging = s.staging ∧ s'.pipes = s.pipes ∧
      s'.next = s.next + (if submit then 1 else 0) ∧ ∀ d ∈ s'.sets, d ∈ s.sets := by
  unfold finishBatch
  refine smooth_step (run_takeBatch_open hb) ?_
  cases submit with
  | true =>
    refine smooth_ensure (M := fun _ s' t => t = .created ⟨.fence, s.next⟩ :: (s.recorded st.cmd).map .ran ++
      [.waited st.cmd, .released ⟨.fence, s.next⟩] ∧ s'.batch = none ∧ s'.staging = s.staging ∧
        s'.pipes = s.pipes ∧ s'.next = s.next + 1 ∧ s'.sets = s.sets) ?_ fun _ s' t h => ?_
    · refine unfailing_attempt ?_
      simp only [if_true]
      unfold submitWait
      refine unfailing_attempt (smooth_step (run_create _ _) ?_)
      refine smooth_ensure (M := fun _ s' t => t = (s.recorded st.cmd).map .ran ++ [.waited st.cmd] ∧
        s'.batch = none ∧ s'.staging = s.staging ∧ s'.pipes = s.pipes ∧ s'.next = s.next + 1 ∧
        s'.sets = s.sets) (unfailing_attempt (smooth_step (execute_run _ _) (unfailing_attempt
          (smooth_run (run_emit _ _) ⟨rfl, rfl, rfl, rfl, rfl, rfl⟩)))) fun _ s' t h => ?_
      obtain ⟨rfl, h⟩ := h
      refine ⟨?_, h⟩
      simp [run_release]
    · obtain ⟨rfl, hb', hst, hp, hn, hsets⟩ := h
      rw [run_releaseBatch]
      refine ⟨?_, hb', hst, hp, hn, fun d hd => hsets ▸ List.mem_of_mem_filter hd⟩
      simp [finishEvents, Batch.releases]
  | false =>
    refine smooth_ensure (M := fun _ s' t => t = [] ∧ s'.batch = none ∧ s'.staging = s.staging ∧
      s'.pipes = s.pipes ∧ s'.next = s.next ∧ s'.sets = s.sets) ?_ fun _ s' t h => ?_
    · refine unfailing_attempt ?_
      simp only [Bool.false_eq_true, if_false]
      exact smooth_pure ⟨rfl, rfl, rfl, rfl, rfl, rfl⟩
    · obtain ⟨rfl, hb', hst, hp, hn, hsets⟩ := h
      rw [run_releaseBatch]
      exact ⟨rfl, hb', hst, hp, hn, fun d hd => hsets ▸ List.mem_of_mem_filter hd⟩

/-- **A context between two batches**, and the buffers of its client. -/
structure AtRest (K : Kernel F) (s : Sys F) (slots : List (Option GpuBuffer)) (S : Store F) : Prop where
  valid : s.Valid
  pooled : s.Pooled
  closed : s.batch = none
  shows : Shows K s slots S
  once : (owned slots).Nodup
  issued : ∀ r ∈ owned slots, r.handle < s.next

/-- The part of a batch before its end. -/
def queued (E : Env F) (ops : List (Op F)) (slots : List (Option GpuBuffer)) :
    Gpu F (List (Option GpuBuffer)) := do
  beginBatch E
  runOps E ops slots

theorem batched_eq (submit : Bool) (ops : List (Op F)) (slots : List (Option GpuBuffer)) :
    batched E submit ops slots = queued E ops slots >>= fun slots => finishBatch E submit >>= fun _ =>
      pure slots := by
  unfold batched queued
  rw [bind_regroup]

/-- **A batch that is full**: its commands are on what its client owned or on what was made since,
    and nothing was released. -/
structure Full (K : Kernel F) (S : Store F) (s s' : Sys F) (slots slots' : List (Option GpuBuffer))
    (t : List (Event F)) (st : Batch) : Prop where
  batch : s'.batch = some st
  cmd : st.cmd = s.next
  staging : s'.staging = s.staging
  events : ∀ w ∈ t, w.Queued
  moves : (ledger losses).Moves s s' t (owned slots) (owned slots') 0
  cmds : ∀ c ∈ s'.recorded st.cmd, (∀ b ∈ c.bufs, ∀ r ∈ b.res, r ∈ owned slots ∨ .created r ∈ t) ∧
    ∀ d ∈ c.sets, s.next ≤ d.handle ∧ d ∈ st.sets
  valid : s'.Valid
  pooled : s'.Pooled
  shows : Shows K s' slots' S
  mem : ∀ m, s.Private m → s'.mem m = s.mem m
  once : (owned slots').Nodup
  issued : ∀ r ∈ owned slots', r.handle < s'.next

/-- **The part of a batch before its end** only fills it. -/
theorem queued_full {S : Store F} {ops : List (Op F)} (h : AtRest E.kernel s slots S)
    (hl : AllLive E S ops) (hu : ∀ k, uses E ops k ≤ 63) :
    Unfailing (queued E ops slots) s fun slots' s' t =>
      ∃ st, Full E.kernel (applyAll E S ops) s s' slots slots' t st := by
  have ho : s.openCmd = none := Option.map_eq_none_iff.mpr h.closed
  unfold queued
  refine smooth_bind (smooth_and (begin_unfailing h.closed) (beginBatch_post (E := E) (K := E.kernel)
    h.valid ho)) fun _ s1 t1 h1 => ?_
  obtain ⟨⟨rfl, hb1, hpend1, hst1, hpipes1, hsets1, hnext1⟩, ⟨-, hop⟩ | ⟨⟨e, he, -⟩, -⟩⟩ := h1
  swap
  · cases he
  have hp1 : s1.Pooled := h.pooled.less hpipes1 (fun d hd => hsets1 ▸ hd) hop.next_le
  have hsh1 : Shows E.kernel s1 slots S :=
    ⟨h.shows.cells.imp fun _ _ _ _ hb => hop.holds ho hb, h.shows.apart, hop.allocs.trans h.shows.allocs⟩
  have hopen1 : s1.openCmd ≠ none := by
    rw [openCmd_open hb1]
    exact Option.some_ne_none _
  have hu1 : s1.Used fun _ => 0 := fun k o _ => le_of_eq (hop.uses o.pool)
  have hpool : Post (runOps E ops slots) s1 fun _ s' _ => s'.Pooled := (runOps_pooling ops slots s1 hp1).1
  refine smooth_mono (smooth_and (runOps_queues hop.valid hp1 hopen1 hsh1 hl hu1 fun k => by
    rw [Nat.zero_add]
    exact hu k) (post_and (runOps_shows hop.valid hsh1 hl) hpool)) fun slots2 s2 t2 h2 => ?_
  obtain ⟨hq, hsh, hp2⟩ := h2
  obtain ⟨k, W, hext⟩ := hsh.ext
  obtain ⟨st, hb2, hcmd⟩ : ∃ st, s2.batch = some st ∧ st.cmd = s.next :=
    Option.map_eq_some_iff.mp (hq.cmd.trans (openCmd_open hb1))
  have hissued1 : ∀ r ∈ owned slots, r.handle < s1.next := fun r hr =>
    lt_of_lt_of_le (h.issued r hr) hop.next_le
  refine ⟨st, hb2, hcmd, hq.staging.trans hst1, fun w hw => ?_, ?_, fun c hc => ?_, hext.valid, hp2,
    hsh.shows _ rfl, fun m hm => ?_, hq.once h.once hissued1, hq.issued hissued1⟩
  · rcases List.mem_append.mp hw with hw | hw
    · simp only [List.mem_cons, List.not_mem_nil, or_false] at hw
      rcases hw with rfl | rfl | rfl
      all_goals trivial
    · exact hq.events w hw
  · have hm : (ledger losses).Moves s s1 [.created ⟨.cmdBuf, s.next⟩, .begun s.next, .opened s.next]
        (owned slots) (owned slots) 0 := by
      refine moves_making [⟨.cmdBuf, s.next⟩] rfl rfl (hnext1 ▸ Issued.range s.next 1) ?_
      unfold Sys.held
      rw [hst1, hpipes1, hb1, h.closed]
      simp only [Option.toList_none, Option.toList_some, List.map_nil, List.sum_nil,
        List.map_singleton, List.sum_singleton, Batch.held, Multiset.coe_singleton]
      abel
    have hall := hm.trans hq.moves
    rwa [add_zero] at hall
  · obtain ⟨cmds, hpend, hc'⟩ := hq.cmds
    rw [hpend1, List.nil_append, pending_open hb2] at hpend
    obtain ⟨h1, h2⟩ := hc' c (hpend ▸ hc)
    refine ⟨fun b hb r hr => (h1 b hb r hr).imp_right (List.mem_append_right _), fun d hd => ?_⟩
    obtain ⟨hd1, hd2⟩ := h2 d hd
    rw [batchSets_open hb2] at hd2
    exact ⟨le_trans hop.next_le hd1, hd2⟩
  · rw [hext.mem hopen1 m (hop.priv hm), hop.mem]

omit [Zero F] in
theorem trash_handles (trash : List GpuBuffer) :
    (↑(trash.flatMap GpuBuffer.res) : Multiset Res) = (trash.map handles).sum := by
  induction trash with
  | nil => rfl
  | cons b trash ih =>
    rw [List.flatMap_cons, ← Multiset.coe_add, ih, List.map_cons, List.sum_cons]
    rfl

omit [Zero F] in
theorem created_append (t t' : List (Event F)) : created (t ++ t') = created t ++ created t' :=
  List.filterMap_append

omit [Zero F] in
theorem released_append (t t' : List (Event F)) : released (t ++ t') = released t ++ released t' :=
  List.filterMap_append

omit [Zero F] in
theorem mem_created {r : Res} : r ∈ created t ↔ Event.created r ∈ t := by
  unfold created
  rw [List.mem_filterMap]
  constructor
  · rintro ⟨w, hw, h⟩
    cases w with
    | created r' =>
      cases h
      exact hw
    | _ => cases h
  · exact fun h => ⟨_, h, rfl⟩

/-- The fence of a batch that is submitted. -/
def fenceOf (submit : Bool) (s : Sys F) : List Res := if submit then [⟨.fence, s.next⟩] else []

omit [Zero F] in
theorem released_ran (cmds : List (Cmd F)) : released (cmds.map .ran : List (Event F)) = [] :=
  List.filterMap_eq_nil_iff.mpr fun w hw => (plain_ran cmds w hw).freed

omit [Zero F] in
theorem created_ran (cmds : List (Cmd F)) : created (cmds.map .ran : List (Event F)) = [] :=
  List.filterMap_eq_nil_iff.mpr fun w hw => (plain_ran cmds w hw).made

omit [Zero F] in
theorem created_finish (submit : Bool) (s : Sys F) (st : Batch) :
    created (finishEvents submit s st) = fenceOf submit s := by
  cases submit with
  | true =>
    show ⟨.fence, s.next⟩ :: created ((s.recorded st.cmd).map .ran ++
      .waited st.cmd :: .released ⟨.fence, s.next⟩ :: st.releases) = [⟨.fence, s.next⟩]
    rw [created_append, created_ran]
    exact congrArg _ (made_releases st)
  | false => exact made_releases st

omit [Zero F] in
theorem released_finish (submit : Bool) (s : Sys F) (st : Batch) :
    released (finishEvents submit s st) =
      fenceOf submit s ++ (st.trash.flatMap GpuBuffer.res ++ [⟨.cmdBuf, st.cmd⟩]) := by
  cases submit with
  | true =>
    show released ((s.recorded st.cmd).map .ran ++
      .waited st.cmd :: .released ⟨.fence, s.next⟩ :: st.releases) = _
    rw [released_append, released_ran, List.nil_append]
    exact congrArg (List.cons ⟨.fence, s.next⟩) (freed_releases st)
  | false => exact freed_releases st

omit [Zero F] in
/-- The end of a batch pays back what the batch held. -/
theorem moves_finish (submit : Bool) (hb : s.batch = some st) (hb' : s'.batch = none)
    (hst : s'.staging = s.staging) (hp : s'.pipes = s.pipes)
    (hn : s'.next = s.next + (if submit then 1 else 0)) (inn : Multiset Res) :
    (ledger losses).Moves s s' (finishEvents submit s st) inn inn 0 where
  sum := by
    have hheld : s.held = s'.held + st.held := by
      unfold Sys.held
      rw [hst, hp, hb, hb']
      simp only [Option.toList_none, Option.toList_some, List.map_nil, List.sum_nil,
        List.map_singleton, List.sum_singleton, add_zero]
    show (↑(created (finishEvents submit s st)) : Multiset Res) + s.held + inn =
      ↑(released (finishEvents submit s st)) + s'.held + inn + 0
    rw [created_finish, released_finish, hheld, ← Multiset.coe_add, ← Multiset.coe_add, trash_handles,
      Batch.held, Multiset.coe_singleton]
    abel
  issued := by
    show Issued s.next s'.next ((created (finishEvents submit s st)).map Res.handle)
    rw [created_finish, hn]
    cases submit with
    | true => exact Issued.range s.next 1
    | false => exact .none le_rfl

/-- **A whole batch**: its beginning fills it, its end runs it or not and empties it. -/
theorem batched_run {S : Store F} {ops : List (Op F)} (h : AtRest E.kernel s slots S)
    (hl : AllLive E S ops) (hu : ∀ k, uses E ops k ≤ 63) (submit : Bool) :
    Unfailing (batched E submit ops slots) s fun slots' s' t => ∃ s2 t2 st,
      queued E ops slots s = ⟨.ok slots', s2, t2⟩ ∧
      Full E.kernel (applyAll E S ops) s s2 slots slots' t2 st ∧ t = t2 ++ finishEvents submit s2 st ∧
      (ledger losses).Moves s s' t (owned slots) (owned slots') 0 ∧
      s'.batch = none ∧ s'.staging = s.staging ∧
      (submit = true → AtRest E.kernel s' slots' (applyAll E S ops)) ∧
      (submit = false → ∀ m, s.Private m → s'.mem m = s.mem m) := by
  rw [batched_eq]
  refine smooth_bind (smooth_and (queued_full h hl hu) (Q := fun slots' s2 t => ∃ st,
    Full E.kernel (applyAll E S ops) s s2 slots slots' t st) (R := fun r s2 t =>
      queued E ops slots s = ⟨r, s2, t⟩) rfl) fun slots' s2 t2 h2 => ?_
  obtain ⟨⟨st, hf⟩, hrun⟩ := h2
  have hcb : s2.openCmd = some st.cmd := openCmd_open hf.batch
  refine smooth_bind (smooth_and (finish_unfailing submit hf.batch) (finishBatch_post (E := E) submit
    hf.valid hcb)) fun _ s' t h3 => smooth_pure ?_
  obtain ⟨⟨rfl, hb', hst, hp, hn, hsets⟩, hend, hran, hskip, -⟩ := h3
  rw [List.append_nil]
  have hm := hf.moves.trans (moves_finish submit hf.batch hb' hst hp hn (owned slots'))
  rw [add_zero] at hm
  refine ⟨s2, t2, st, hrun, hf, rfl, hm, hb', hst.trans hf.staging, fun hs => ?_, fun hs m hpm => ?_⟩
  · have hmem := hran rfl hs
    have hset : Settled E.kernel s2 s' := ⟨hend.next_le, hend.staging, hend.cmd, hmem⟩
    refine ⟨hend.valid, hf.pooled.less hp hsets hend.next_le, hb', ?_, hf.once, fun r hr =>
      lt_of_lt_of_le (hf.issued r hr) hend.next_le⟩
    exact ⟨hf.shows.cells.imp fun _ _ _ _ hb => hb.settled hset, hf.shows.apart,
      hend.allocs.trans hf.shows.allocs⟩
  · rw [hskip hs, hf.mem m hpm]

end Whole

/-! ## 2. A device that never fails -/

section Healthy

variable [Zero F] {E : Env F} (hE : E.Healthy)

include hE

theorem op_fine (slots : List (Option GpuBuffer)) (op : Op F) : Emits Event.Fine (op.run E slots) := by
  cases op with
  | createBufferF32 data => exact emits_bind (createBufferF32_fine hE data) fun _ => emits_pure _
  | createEmpty len => exact emits_bind (allocBuffer_fine hE _) fun _ => emits_pure _
  | runComputePush shader names groupsX push =>
    refine emits_bind (emits_observe (runComputePush_fine hE _ _ _ _)) fun done => ?_
    cases done with
    | ok a => exact emits_pure _
    | error e =>
      by_cases hg : E.tooMany groupsX
      · simp only [if_pos hg]
        exact emits_pure _
      · simp only [if_neg hg]
        exact emits_fail _
  | destroyBuffer name =>
    unfold Op.run
    cases hb : cellAt slots name with
    | some b =>
      simp only [hb]
      exact emits_bind (destroyBuffer_fine b) fun _ => emits_pure _
    | none =>
      simp only [hb]
      exact emits_pure _

theorem runOps_fine (ops : List (Op F)) (slots : List (Option GpuBuffer)) :
    Emits Event.Fine (runOps E ops slots) := by
  induction ops generalizing slots with
  | nil => exact emits_pure _
  | cons op ops ih => exact emits_bind (op_fine hE slots op) fun slots' => ih slots'

theorem batched_fine (submit : Bool) (ops : List (Op F)) (slots : List (Option GpuBuffer)) :
    Emits Event.Fine (batched E submit ops slots) :=
  emits_bind (beginBatch_fine hE) fun _ => emits_bind (runOps_fine hE ops slots) fun _ =>
    emits_bind (finishBatch_fine hE submit) fun _ => emits_pure _

end Healthy

/-- A device whose products are products. -/
def multiplying : Env ℤ where
  sched _ := none
  junk n := [n, n]
  kernel shader _ _ mems :=
    match shader, mems with
    | .mulPlanes, [a, b, _] => [a, b, List.zipWith (· * ·) a b]
    | _, _ => mems
  maxGroupsX := 65535
  asU32 n := n
  stack := []

theorem multiplying_healthy : multiplying.Healthy := fun _ => rfl

/-- What a client did before: an upload and an empty buffer, which it keeps. -/
def earlier : List (Op ℤ) := [.createBufferF32 [5, 7], .createEmpty 2]

/-- An upload, a square of it, the square times the earlier upload into the earlier buffer, and both
    uploads gone. -/
def squaring : List (Op ℤ) :=
  [.createBufferF32 [2, 3], .createEmpty 2, .runComputePush .mulPlanes [2, 2, 3] 1 [],
    .runComputePush .mulPlanes [0, 3, 1] 1 [], .destroyBuffer 2, .destroyBuffer 0]

theorem squaring_roomy (k : Key) : uses multiplying squaring k ≤ 63 :=
  le_trans List.countP_le_length (by decide)

theorem fresh_atRest [Zero F] (K : Kernel F) : AtRest K (Sys.fresh F) [] ⟨[], 0⟩ where
  valid := Sys.fresh_valid
  pooled := Sys.fresh_pooled
  closed := rfl
  shows := ⟨⟨rfl, fun _ => .none⟩, fun _ _ _ _ h => absurd (cellAt_lt h) (Nat.not_lt_zero _), rfl⟩
  once := .nil
  issued _ h := absurd h List.not_mem_nil

/-- The context the client left. -/
def client : Sys ℤ := (batched multiplying true earlier [] (Sys.fresh ℤ)).state

theorem client_atRest : ∃ slots, (batched multiplying true earlier [] (Sys.fresh ℤ)).result = .ok slots ∧
    AtRest multiplying.kernel client slots (applyAll multiplying ⟨[], 0⟩ earlier) := by
  have hroomy : ∀ k, uses multiplying earlier k ≤ 63 := fun k =>
    le_trans List.countP_le_length (by decide)
  have hfine := noFault_of_emits (batched_fine multiplying_healthy true earlier []) (Sys.fresh ℤ)
  obtain ⟨slots, hr, _, _, _, -, -, -, -, -, -, hrest, -⟩ :=
    batched_run (fresh_atRest _) (by decide) hroomy true (noFault_iff.mp hfine)
  exact ⟨slots, hr, hrest rfl⟩

/-! ## 3. What a batch releases -/

/-- The kinds of handles of a cached pipeline. -/
def Kind.OfPipeline : Kind → Prop
  | .shaderModule | .setLayout | .pipelineLayout | .pipeline | .descriptorPool => True
  | _ => False

/-- The descriptor set an event frees. -/
def Event.freedSet : Event F → Option Nat
  | .setFreed d => some d
  | _ => none

/-- **What is released**: each handle that the client gave up, or that was made on the way and is
    neither the client's nor a cached pipeline's; each once. -/
structure ReleasesOnce (slots slots' : List (Option GpuBuffer)) (t : List (Event F)) : Prop where
  once : (released t).Nodup
  exactly : ∀ r, r ∈ released t ↔
    (r ∈ owned slots ∨ r ∈ created t) ∧ r ∉ owned slots' ∧ ¬r.kind.OfPipeline

/-- **Nothing is released too early**: before the fence of the command buffer `cb` nothing is
    released at all; a command that runs finds its buffers and descriptor sets alive, and none runs
    after the fence. -/
structure ReleasesLate (s : Sys F) (slots : List (Option GpuBuffer)) (cb : Nat)
    (before after : List (Event F)) : Prop where
  nothing : released before = [] ∧ before.filterMap Event.freedSet = []
  alive : ∀ t c t', before = t ++ .ran c :: t' →
    (∀ b ∈ c.bufs, ∀ r ∈ b.res, r ∈ owned slots ∨ r ∈ created t) ∧
      ∀ d ∈ c.sets, s.next ≤ d.handle ∧ d.handle ∈ after.filterMap Event.freedSet
  ran : ∀ c, .ran c ∉ after
  cmdBuf : ⟨.cmdBuf, cb⟩ ∈ released after

section Releases

variable {s s' : Sys F} {slots slots' : List (Option GpuBuffer)} {t : List (Event F)}

theorem queued_releases (h : ∀ w ∈ t, w.Queued) :
    released t = [] ∧ t.filterMap Event.freedSet = [] ∧ ∀ c, .ran c ∉ t := by
  refine ⟨List.filterMap_eq_nil_iff.mpr fun w hw => ?_, List.filterMap_eq_nil_iff.mpr fun w hw => ?_,
    fun c hc => h _ hc⟩
  · have hq := h w hw
    cases w with
    | released r => exact hq.elim
    | _ => rfl
  · have hq := h w hw
    cases w with
    | setFreed d => exact hq.elim
    | _ => rfl

/-- What a context between two batches holds, pipelines apart. -/
theorem held_count {r : Res} (hr : ¬r.kind.OfPipeline) (hb : s.batch = none) :
    s.held.count r = ((s.staging.toList.map handles).sum).count r := by
  have hpipes : ((s.pipes.map fun p => (↑p.2.res : Multiset Res)).sum).count r = 0 := by
    induction s.pipes with
    | nil => rfl
    | cons p pipes ih =>
      rw [List.map_cons, List.sum_cons, Multiset.count_add, ih, Multiset.coe_count, Nat.add_zero,
        List.count_eq_zero]
      intro h
      simp only [PipeObjs.res, List.mem_cons, List.not_mem_nil, or_false] at h
      rcases h with rfl | rfl | rfl | rfl | rfl
      all_goals exact hr trivial
  unfold Sys.held
  rw [hb, Multiset.count_add, Multiset.count_add, hpipes]
  rfl

/-- **Once each**, from the sum of the run. -/
theorem releases_once {L : Losses} (hm : (ledger L).Moves s s' t (owned slots) (owned slots') 0)
    (hb : s.batch = none) (hb' : s'.batch = none) (hst : s'.staging = s.staging)
    (hd : (owned slots).Nodup) (ho : ∀ r ∈ owned slots, r.handle < s.next)
    (hkind : ∀ r ∈ released t, ¬r.kind.OfPipeline) : ReleasesOnce slots slots' t := by
  have hsum : (↑(created t) : Multiset Res) + s.held + owned slots =
      ↑(released t) + s'.held + owned slots' + 0 := hm.sum
  have hcount {r : Res} (hr : ¬r.kind.OfPipeline) :
      (created t).count r + (owned slots).count r = (released t).count r + (owned slots').count r := by
    have h := congrArg (Multiset.count r) hsum
    simp only [Multiset.count_add, Multiset.coe_count, Multiset.count_zero, held_count hr hb,
      held_count hr hb', hst] at h
    omega
  -- what was made is new
  have hle (r : Res) : (created t).count r + (owned slots).count r ≤ 1 := by
    have h1 : (created t).count r ≤ 1 := List.nodup_iff_count_le_one.mp hm.nodup_mades r
    have h2 : (owned slots).count r ≤ 1 := List.nodup_iff_count_le_one.mp hd r
    by_cases hr : r ∈ owned slots
    · have h3 : r ∉ created t := fun h =>
        absurd (ho r hr) (Nat.not_lt.mpr (hm.issued.low _ (List.mem_map_of_mem h)))
      rw [List.count_eq_zero.mpr h3]
      omega
    · rw [List.count_eq_zero.mpr hr]
      omega
  refine ⟨List.nodup_iff_count_le_one.mpr fun r => ?_, fun r => ⟨fun hr => ?_, fun hr => ?_⟩⟩
  · by_cases hr : r.kind.OfPipeline
    · rw [List.count_eq_zero.mpr fun h => hkind r h hr]
      exact Nat.zero_le 1
    · have h1 := hcount hr
      have h2 := hle r
      omega
  · have hk := hkind r hr
    have h1 := hcount hk
    have h2 := hle r
    have h3 := List.count_pos_iff.mpr hr
    refine ⟨?_, fun h => ?_, hk⟩
    · by_contra h
      rw [not_or] at h
      rw [List.count_eq_zero.mpr h.1, List.count_eq_zero.mpr h.2] at h1
      omega
    · have h4 := List.count_pos_iff.mpr h
      omega
  · obtain ⟨hin, hout, hk⟩ := hr
    have h1 := hcount hk
    rw [List.count_eq_zero.mpr hout] at h1
    refine List.count_pos_iff.mp ?_
    rcases hin with h | h
    · have h4 := List.count_pos_iff.mpr h
      omega
    · have h4 := List.count_pos_iff.mpr h
      omega

end Releases

section Ends

variable [Zero F] {E : Env F} {s s2 : Sys F} {slots slots' : List (Option GpuBuffer)} {S : Store F}
  {st : Batch} {ops : List (Op F)} {t2 : List (Event F)}

omit [Zero F] in
/-- What the end of a batch releases is not a pipeline's. -/
theorem finish_kinds (submit : Bool) (s2 : Sys F) (st : Batch) (ht : ∀ w ∈ t2, w.Queued) :
    ∀ r ∈ released (t2 ++ finishEvents submit s2 st), ¬r.kind.OfPipeline := by
  intro r hr hk
  rw [released_append, (queued_releases ht).1, released_finish] at hr
  rcases List.mem_append.mp hr with hr | hr
  · exact absurd hr List.not_mem_nil
  rcases List.mem_append.mp hr with hr | hr
  · cases submit with
    | true =>
      rw [List.mem_singleton.mp hr] at hk
      exact hk
    | false => exact absurd hr List.not_mem_nil
  rcases List.mem_append.mp hr with hr | hr
  · obtain ⟨b, -, hr⟩ := List.mem_flatMap.mp hr
    simp only [GpuBuffer.res, List.mem_cons, List.not_mem_nil, or_false] at hr
    rcases hr with rfl | rfl
    all_goals exact hk
  · rw [List.mem_singleton.mp hr] at hk
    exact hk

omit [Zero F] in
theorem freedSet_releases (st : Batch) :
    (st.releases : List (Event F)).filterMap Event.freedSet = st.sets.map DescSet.handle := by
  have hlast : ([.released ⟨.cmdBuf, st.cmd⟩] : List (Event F)).filterMap Event.freedSet = [] := rfl
  have htrash : (st.trash.flatMap fun b => b.res.map (.released : Res → Event F)).filterMap
      Event.freedSet = [] := by
    refine List.filterMap_eq_nil_iff.mpr fun w hw => ?_
    obtain ⟨b, -, hw⟩ := List.mem_flatMap.mp hw
    obtain ⟨r, -, rfl⟩ := List.mem_map.mp hw
    rfl
  unfold Batch.releases
  rw [List.filterMap_append, List.filterMap_append, htrash, hlast, List.append_nil, List.append_nil,
    List.filterMap_map]
  exact congrFun (List.filterMap_eq_map (f := DescSet.handle)) st.sets

/-- The part of a submitted batch up to its fence. -/
def beforeFence (s2 : Sys F) (st : Batch) (t2 : List (Event F)) : List (Event F) :=
  t2 ++ .closed st.cmd :: .created ⟨.fence, s2.next⟩ :: (s2.recorded st.cmd).map .ran

omit [Zero F] in
/-- What happens before the first command runs has happened when any command runs. -/
theorem ran_after {t u : List (Event F)} {c : Cmd F} (ht : ∀ c, .ran c ∉ t)
    {t1 t1' : List (Event F)} (h : t ++ u = t1 ++ .ran c :: t1') : t <+: t1 := by
  rcases List.append_eq_append_iff.mp h with ⟨a, ha, -⟩ | ⟨a, ha, hu⟩
  · exact ⟨a, ha.symm⟩
  · cases a with
    | nil =>
      rw [ha, List.append_nil]
    | cons w a =>
      cases (List.cons.inj hu).1
      exact absurd (ha ▸ List.mem_append_right t1 List.mem_cons_self) (ht c)

omit [Zero F] in
/-- **A full batch that is submitted** releases nothing too early. -/
theorem full_late [Zero F] {K : Kernel F} (hf : Full K S s s2 slots slots' t2 st) :
    ReleasesLate s slots st.cmd (beforeFence s2 st t2)
      (.released ⟨.fence, s2.next⟩ :: st.releases) := by
  obtain ⟨hrel, hsets, hran⟩ := queued_releases hf.events
  refine ⟨⟨?_, ?_⟩, fun t c t' ht => ?_, fun c hc => ?_, ?_⟩
  · unfold beforeFence
    rw [released_append, hrel]
    exact released_ran _
  · unfold beforeFence
    rw [List.filterMap_append, hsets]
    show ((s2.recorded st.cmd).map .ran).filterMap Event.freedSet = []
    refine List.filterMap_eq_nil_iff.mpr fun w hw => ?_
    obtain ⟨c, -, rfl⟩ := List.mem_map.mp hw
    rfl
  · have hpre : t2 <+: t := ran_after hran ht
    have hc : c ∈ s2.recorded st.cmd := by
      have hmem : .ran c ∈ beforeFence s2 st t2 := by
        rw [ht]
        exact List.mem_append_right _ List.mem_cons_self
      rcases List.mem_append.mp hmem with h | h
      · exact absurd h (hran c)
      · simp only [List.mem_cons, reduceCtorEq, List.mem_map, Event.ran.injEq, exists_eq_right,
          false_or] at h
        exact h
    obtain ⟨hbufs, hsets'⟩ := hf.cmds c hc
    refine ⟨fun b hb r hr => (hbufs b hb r hr).imp_right fun h => ?_, fun d hd => ?_⟩
    · exact mem_created.mpr (hpre.subset h)
    · refine ⟨(hsets' d hd).1, ?_⟩
      show d.handle ∈ (st.releases : List (Event F)).filterMap Event.freedSet
      rw [freedSet_releases]
      exact List.mem_map_of_mem (hsets' d hd).2
  · rcases List.mem_cons.mp hc with h | h
    · cases h
    · simp [Batch.releases] at h
  · show _ ∈ ⟨.fence, s2.next⟩ :: released (st.releases : List (Event F))
    rw [freed_releases]
    exact List.mem_cons_of_mem _ (List.mem_append_right _ (List.mem_singleton.mpr rfl))

/-- **A batch that is ended** meets no surprise: whatever its calls are, nothing is released before
    the fence of its command buffer, every command finds what it is bound to alive, and after the
    fence everything the client gave up and everything the batch made for itself is released, once. -/
theorem batch_releases_late (h : AtRest E.kernel s slots S) (hl : AllLive E S ops)
    (hu : ∀ k, uses E ops k ≤ 63) (hn : NoFault (batched E true ops slots s).trace) :
    ∃ slots' cb before after, (batched E true ops slots s).result = .ok slots' ∧
      (batched E true ops slots s).trace = before ++ .waited cb :: after ∧
      ReleasesLate s slots cb before after ∧
      ReleasesOnce slots slots' (batched E true ops slots s).trace := by
  obtain ⟨slots', hr, s2, t2, st, -, hf, ht, hm, hb', hst, -⟩ :=
    batched_run h hl hu true (noFault_iff.mp hn)
  refine ⟨slots', st.cmd, beforeFence s2 st t2, .released ⟨.fence, s2.next⟩ :: st.releases, hr, ?_,
    full_late hf, releases_once hm h.closed hb' hst h.once h.issued ?_⟩
  · rw [ht]
    simp [beforeFence, finishEvents]
  · rw [ht]
    exact finish_kinds true s2 st hf.events

/-- A context with two buffers of the client runs one batch more. -/
theorem batch_releases_late_squaring : ∃ slots,
    (batched multiplying true earlier [] (Sys.fresh ℤ)).result = .ok slots ∧ slots.length = 2 ∧
    let run := batched multiplying true squaring slots client
    ∃ slots' cb before after, run.result = .ok slots' ∧ run.trace = before ++ .waited cb :: after ∧
      ReleasesLate client slots cb before after ∧ ReleasesOnce slots slots' run.trace := by
  obtain ⟨slots, hslots, h⟩ := client_atRest
  exact ⟨slots, hslots, h.shows.cells.length, batch_releases_late h (by decide) squaring_roomy
    (noFault_of_emits (batched_fine multiplying_healthy true squaring slots) _)⟩

/-- **A batch that is aborted** runs nothing and changes no buffer that was there before. It leaves
    the client what the ended batch leaves it, and releases the same handles and descriptor sets, all
    but the fence that it did not need. -/
theorem abort_releases_the_same (h : AtRest E.kernel s slots S) (hl : AllLive E S ops)
    (hu : ∀ k, uses E ops k ≤ 63) (hn : NoFault (batched E false ops slots s).trace)
    (hn' : NoFault (batched E true ops slots s).trace) :
    let aborted := batched E false ops slots s
    let ended := batched E true ops slots s
    (∃ slots', aborted.result = .ok slots' ∧ ended.result = .ok slots' ∧
      ReleasesOnce slots slots' aborted.trace) ∧ aborted.state.batch = none ∧
      (∀ m, s.Private m → aborted.state.mem m = s.mem m) ∧ (∀ c, .ran c ∉ aborted.trace) ∧
      (∃ fence, released ended.trace = ⟨.fence, fence⟩ :: released aborted.trace) ∧
      ended.trace.filterMap Event.freedSet = aborted.trace.filterMap Event.freedSet := by
  obtain ⟨slots', hr, s2, t2, st, hq, hf, ht, hm, hb', hst, -, hmem⟩ :=
    batched_run h hl hu false (noFault_iff.mp hn)
  obtain ⟨slots₂, hr', s3, t3, st', hq', hf', ht', -⟩ := batched_run h hl hu true (noFault_iff.mp hn')
  -- both have filled the same batch
  rw [hq] at hq'
  cases hq'
  cases hf.batch.symm.trans hf'.batch
  obtain ⟨hrel, hsets, hran⟩ := queued_releases hf.events
  refine ⟨⟨slots', hr, hr', releases_once hm h.closed hb' hst h.once h.issued ?_⟩, hb', hmem rfl,
    fun c hc => ?_, ⟨s2.next, ?_⟩, ?_⟩
  · rw [ht]
    exact finish_kinds false s2 st hf.events
  · rw [ht] at hc
    rcases List.mem_append.mp hc with hc | hc
    · exact hran c hc
    · simp [finishEvents, Batch.releases] at hc
  · rw [ht, ht', released_append, released_append, hrel, released_finish, released_finish]
    rfl
  · rw [ht, ht', List.filterMap_append, List.filterMap_append, hsets]
    have hran' : ((s2.recorded st.cmd).map (.ran : Cmd F → Event F)).filterMap Event.freedSet = [] := by
      refine List.filterMap_eq_nil_iff.mpr fun w hw => ?_
      obtain ⟨c, -, rfl⟩ := List.mem_map.mp hw
      rfl
    have hend : finishEvents true s2 st = [.closed st.cmd, .created ⟨.fence, s2.next⟩] ++
        ((s2.recorded st.cmd).map .ran ++ ([.waited st.cmd, .released ⟨.fence, s2.next⟩] ++
          st.releases)) := by simp [finishEvents]
    rw [hend, List.filterMap_append, List.filterMap_append, hran', List.filterMap_append]
    rfl

/-- A context with two buffers of the client gives up a batch. -/
theorem abort_releases_the_same_squaring : ∃ slots,
    (batched multiplying true earlier [] (Sys.fresh ℤ)).result = .ok slots ∧ slots.length = 2 ∧
    let aborted := batched multiplying false squaring slots client
    let ended := batched multiplying true squaring slots client
    (∃ slots', aborted.result = .ok slots' ∧ ended.result = .ok slots' ∧
      ReleasesOnce slots slots' aborted.trace) ∧ aborted.state.batch = none ∧
      (∀ m, client.Private m → aborted.state.mem m = client.mem m) ∧
      (∀ c, .ran c ∉ aborted.trace) ∧
      (∃ fence, released ended.trace = ⟨.fence, fence⟩ :: released aborted.trace) ∧
      ended.trace.filterMap Event.freedSet = aborted.trace.filterMap Event.freedSet := by
  obtain ⟨slots, hslots, h⟩ := client_atRest
  exact ⟨slots, hslots, h.shows.cells.length, abort_releases_the_same h (by decide) squaring_roomy
    (noFault_of_emits (batched_fine multiplying_healthy false squaring slots) _)
    (noFault_of_emits (batched_fine multiplying_healthy true squaring slots) _)⟩

end Ends

/-! ## 4. Batches and direct calls -/

/-- A stretch of calls: made directly, or between `begin_batch` and `end_batch`. -/
inductive Part (F : Type) where
  | direct (ops : List (Op F))
  | batch (ops : List (Op F))

/-- The calls of a stretch. -/
def Part.ops : Part F → List (Op F)
  | .direct ops => ops
  | .batch ops => ops

/-- A batch uses no pipeline more often than its pool has room for. -/
def Part.Roomy (E : Env F) : Part F → Prop
  | .direct _ => True
  | .batch ops => ∀ k, uses E ops k ≤ 63

/-- The contents of a client's buffers. -/
def contents (s : Sys F) (slots : List (Option GpuBuffer)) : List (Option (List F)) :=
  slots.map fun slot => slot.map fun b => s.mem b.memory

section Parts

variable [Zero F] (E : Env F)

/-- One stretch. -/
def Part.run (slots : List (Option GpuBuffer)) : Part F → Gpu F (List (Option GpuBuffer))
  | .direct ops => runOps E ops slots
  | .batch ops => batched E true ops slots

/-- One stretch after the other. -/
def runParts : List (Part F) → List (Option GpuBuffer) → Gpu F (List (Option GpuBuffer))
  | [], slots => pure slots
  | p :: parts, slots => do
      let slots ← p.run E slots
      runParts parts slots

variable {E} {s : Sys F} {slots : List (Option GpuBuffer)} {S : Store F}

omit [Zero F] in
theorem AtRest.closedCmd [Zero F] {K : Kernel F} (h : AtRest K s slots S) : s.openCmd = none :=
  Option.map_eq_none_iff.mpr h.closed

/-- A submission takes no handle back. -/
theorem oneShot_unfailing (cmds : List (Cmd F)) (s : Sys F) :
    Unfailing (oneShot E cmds) s fun _ s' _ => s.next ≤ s'.next := by
  intro hw
  have h := oneShot_post (E := E) cmds s
  exact ⟨(), h.answers (noFault_iff.mpr hw), h.rest.next_le⟩

omit [Zero F] in
theorem run_destroyNow (b : GpuBuffer) (s : Sys F) :
    destroyBufferNow b s = ⟨.ok (), s, b.res.map .released⟩ := rfl

/-- An upload with no batch open: the handles of the new buffer are new. -/
theorem createBufferF32_direct (data : List F) (hb : s.batch = none) :
    Unfailing (createBufferF32 E data) s fun b s' _ =>
      b = ⟨s.next + 2, s.next + 3, 4 * data.length⟩ ∧ s.next + 4 ≤ s'.next := by
  unfold createBufferF32
  dsimp only
  refine smooth_bind (allocBuffer_unfailing _ s) fun staging s1 t1 h1 => ?_
  obtain ⟨rfl, rfl, n1, a1, mem1, rfl⟩ := h1
  refine smooth_bind (M := fun x s' _ => x = .ok (⟨s.next + 2, s.next + 3, 4 * data.length⟩, false) ∧
    s.next + 4 ≤ s'.next) (smooth_observe ?_) fun x s2 t2 h2 => ?_
  · refine unfailing_attempt (smooth_step (run_update _ _) ?_)
    refine smooth_bind (allocBuffer_unfailing _ _) fun b s3 t3 h3 => ?_
    obtain ⟨rfl, rfl, n3, a3, mem3, rfl⟩ := h3
    refine smooth_step (run_gets _ _) ?_
    simp only [hb, Option.map_none]
    exact smooth_bind (oneShot_unfailing _ _) fun _ s4 t4 h4 => smooth_pure ⟨rfl, h4⟩
  · obtain ⟨rfl, hn⟩ := h2
    exact smooth_step (run_destroyNow _ s2) (smooth_pure ⟨rfl, hn⟩)

/-- **A call with no batch open** keeps a context at rest. -/
theorem op_direct {op : Op F} (h : AtRest E.kernel s slots S) (hl : op.Live S) :
    Unfailing (op.run E slots) s fun slots' s' _ => AtRest E.kernel s' slots' (op.apply E S) := by
  have hown : Unfailing (op.run E slots) s fun slots' s' _ =>
      (owned slots').Nodup ∧ ∀ r ∈ owned slots', r.handle < s'.next := by
    have hnew {b : GpuBuffer} {s' : Sys F} (hb : s.next ≤ b.buffer ∧ b.buffer < s'.next)
        (hm : s.next ≤ b.memory ∧ b.memory < s'.next) : (owned (slots ++ [some b])).Nodup ∧
          ∀ r ∈ owned (slots ++ [some b]), r.handle < s'.next := by
      refine ⟨owned_nodup h.once h.issued hb.1 hm.1, fun r hr => ?_⟩
      rw [owned_append] at hr
      rcases List.mem_append.mp hr with hr | hr
      · exact lt_trans (h.issued r hr) (lt_of_le_of_lt hb.1 hb.2)
      rcases List.mem_cons.mp hr with rfl | hr
      · exact hb.2
      · rw [List.mem_singleton.mp hr]
        exact hm.2
    cases op with
    | createBufferF32 data =>
      refine smooth_bind (createBufferF32_direct data h.closed) fun b s' t hb => smooth_pure ?_
      obtain ⟨rfl, hn⟩ := hb
      exact hnew ⟨Nat.le_add_right _ 2, by simp only; omega⟩ ⟨Nat.le_add_right _ 3, by simp only; omega⟩
    | createEmpty len =>
      refine smooth_bind (allocBuffer_unfailing (len * 4) s) fun b s' t hb => smooth_pure ?_
      obtain ⟨rfl, -, n, a, mem, rfl⟩ := hb
      exact hnew ⟨le_rfl, by simp⟩ ⟨Nat.le_succ _, by simp⟩
    | runComputePush shader names groupsX push =>
      intro hw
      obtain ⟨slots', hr⟩ := (op_shows h.valid h.shows hl).answers h.closedCmd (noFault_iff.mpr hw)
      obtain ⟨k, W, he⟩ := (op_shows h.valid h.shows hl).ext
      refine ⟨slots', hr, ?_⟩
      have hsame : slots' = slots := by
        have ha : Answers (fun x => x = slots) (Op.run E slots (.runComputePush shader names groupsX push)) := by
          refine answers_bind fun done => ?_
          cases done with
          | ok a => exact answers_pure rfl
          | error e =>
            by_cases hg : E.tooMany groupsX
            · simp only [if_pos hg]
              exact answers_pure rfl
            · simp only [if_neg hg]
              intro s a ha
              cases ha
        exact ha s _ hr
      rw [hsame]
      exact ⟨h.once, fun r hr => lt_of_lt_of_le (h.issued r hr) he.next_le⟩
    | destroyBuffer name =>
      obtain ⟨xs, hx⟩ := Option.isSome_iff_exists.mp hl
      obtain ⟨b, hn, -⟩ := h.shows.cells.some_right hx
      unfold Op.run
      simp only [hn]
      unfold destroyBuffer
      rw [bind_regroup]
      refine smooth_step (run_batchTrash_closed b h.closed) ?_
      refine smooth_step (run_destroyNow b s) (smooth_pure ?_)
      exact ⟨owned_dropped hn h.once, fun r hr =>
        h.issued r ((owned_set hn).mem_iff.mpr (List.mem_append_right _ hr))⟩
  refine smooth_mono (smooth_and hown (post_and (op_shows h.valid h.shows hl)
    (show Post (op.run E slots) s fun _ s' _ => s'.Pooled from (op_pooling slots op s h.pooled).1)))
    fun slots' s' t hall => ?_
  obtain ⟨⟨honce, hissued⟩, hsh, hp⟩ := hall
  obtain ⟨k, W, he⟩ := hsh.ext
  exact ⟨he.valid, hp, Option.map_eq_none_iff.mp (he.cmd.trans h.closedCmd), hsh.shows _ rfl, honce,
    hissued⟩

theorem runOps_direct {ops : List (Op F)} (h : AtRest E.kernel s slots S) (hl : AllLive E S ops) :
    Unfailing (runOps E ops slots) s fun slots' s' _ =>
      AtRest E.kernel s' slots' (applyAll E S ops) := by
  induction ops generalizing s slots S with
  | nil => exact smooth_pure h
  | cons op ops ih => exact smooth_bind (op_direct h hl.1) fun slots' s' t h' => ih h' hl.2

theorem applyAll_append (ops ops' : List (Op F)) :
    applyAll E S (ops ++ ops') = applyAll E (applyAll E S ops) ops' := List.foldl_append

theorem allLive_append {ops ops' : List (Op F)} :
    AllLive E S (ops ++ ops') ↔ AllLive E S ops ∧ AllLive E (applyAll E S ops) ops' := by
  induction ops generalizing S with
  | nil => exact (iff_of_eq (true_and _)).symm
  | cons op ops ih =>
    show op.Live S ∧ AllLive E (op.apply E S) (ops ++ ops') ↔ _
    rw [ih, ← and_assoc]
    rfl

/-- **Whatever is batched**, the context does what the calls mean and is at rest again. -/
theorem runParts_atRest {parts : List (Part F)} (h : AtRest E.kernel s slots S)
    (hl : AllLive E S (parts.flatMap Part.ops)) (hu : ∀ p ∈ parts, p.Roomy E) :
    Unfailing (runParts E parts slots) s fun slots' s' _ =>
      AtRest E.kernel s' slots' (applyAll E S (parts.flatMap Part.ops)) := by
  induction parts generalizing s slots S with
  | nil => exact smooth_pure h
  | cons p parts ih =>
    rw [List.flatMap_cons] at hl ⊢
    obtain ⟨hl1, hl2⟩ := allLive_append.mp hl
    rw [applyAll_append]
    have hp : Unfailing (p.run E slots) s fun slots' s' _ =>
        AtRest E.kernel s' slots' (applyAll E S p.ops) := by
      have hroom := hu p List.mem_cons_self
      cases p with
      | direct ops => exact runOps_direct h hl1
      | batch ops =>
        refine smooth_mono (batched_run h hl1 hroom true) fun slots' s' t hr => ?_
        obtain ⟨_, _, _, -, -, -, -, -, -, hrest, -⟩ := hr
        exact hrest rfl
    exact smooth_bind hp fun slots' s' t h' => ih h' hl2 fun q hq => hu q (List.mem_cons_of_mem _ hq)

/-- What calls mean does not depend on when the driver fails. -/
theorem allLive_sched (sched : Nat → Option String) {ops : List (Op F)} :
    AllLive { E with sched := sched } S ops ↔ AllLive E S ops := by
  induction ops generalizing S with
  | nil => exact Iff.rfl
  | cons op ops ih => exact and_congr_right fun _ => ih

theorem AtRest.contents {K : Kernel F} (h : AtRest K s slots S) :
    Ssimulacra2.contents s slots = S.cells := by
  refine h.shows.cells.map_eq fun b xs hb => ?_
  rw [← Sys.view_closed K h.closedCmd, hb.view]

/-- **Batching is invisible**: however a sequence of calls is cut into batches and direct calls, on
    whatever device, as long as no driver call fails the surviving buffers have the same contents,
    those that the calls mean, and both contexts are at rest again. -/
theorem batching_is_invisible (sched : Nat → Option String) {parts parts' : List (Part F)}
    (h : AtRest E.kernel s slots S) (hops : parts.flatMap Part.ops = parts'.flatMap Part.ops)
    (hl : AllLive E S (parts.flatMap Part.ops)) (hu : ∀ p ∈ parts, p.Roomy E)
    (hu' : ∀ p ∈ parts', p.Roomy E) (hn : NoFault (runParts E parts slots s).trace)
    (hn' : NoFault (runParts { E with sched := sched } parts' slots s).trace) :
    let one := runParts E parts slots s
    let other := runParts { E with sched := sched } parts' slots s
    let meant := applyAll E S (parts.flatMap Part.ops)
    ∃ slots₁ slots₂, one.result = .ok slots₁ ∧ other.result = .ok slots₂ ∧
      contents one.state slots₁ = contents other.state slots₂ ∧
      contents one.state slots₁ = meant.cells ∧
      AtRest E.kernel one.state slots₁ meant ∧ AtRest E.kernel other.state slots₂ meant := by
  intro one other meant
  obtain ⟨slots₁, hr, h1⟩ := runParts_atRest h hl hu (noFault_iff.mp hn)
  rw [hops] at hl
  obtain ⟨slots₂, hr', h2⟩ := runParts_atRest (E := { E with sched := sched }) h
    ((allLive_sched sched).mpr hl) hu' (noFault_iff.mp hn')
  have h2' : AtRest E.kernel other.state slots₂ meant := by
    show AtRest E.kernel other.state slots₂ (applyAll E S (parts.flatMap Part.ops))
    rw [hops]
    exact h2
  exact ⟨slots₁, slots₂, hr, hr', h1.contents.trans h2'.contents.symm, h1.contents, h1, h2'⟩

theorem runParts_fine (hE : E.Healthy) (parts : List (Part F)) (slots : List (Option GpuBuffer)) :
    Emits Event.Fine (runParts E parts slots) := by
  induction parts generalizing slots with
  | nil => exact emits_pure _
  | cons p parts ih =>
    refine emits_bind ?_ fun slots' => ih slots'
    cases p with
    | direct ops => exact runOps_fine hE ops slots
    | batch ops => exact batched_fine hE true ops slots

/-- A context with two buffers of the client runs a sequence of calls in one batch, or the first half
    of it call by call: the square is left, and the product in a buffer that was there before. -/
theorem batching_is_invisible_squaring : ∃ slots,
    (batched multiplying true earlier [] (Sys.fresh ℤ)).result = .ok slots ∧
    contents client slots = [some [5, 7], some [2, 2]] ∧
    let one := runParts multiplying [.batch squaring] slots client
    let other := runParts { multiplying with sched := fun _ => none }
      [.direct (squaring.take 3), .batch (squaring.drop 3)] slots client
    ∃ slots₁ slots₂, one.result = .ok slots₁ ∧ other.result = .ok slots₂ ∧
      contents one.state slots₁ = contents other.state slots₂ ∧
      contents one.state slots₁ = [none, some [20, 63], none, some [4, 9]] := by
  obtain ⟨slots, hslots, h⟩ := client_atRest
  have hheld : (applyAll multiplying ⟨[], 0⟩ earlier).cells = [some [5, 7], some [2, 2]] := by decide
  have hmeant : (applyAll multiplying (applyAll multiplying ⟨[], 0⟩ earlier)
      (([.batch squaring] : List (Part ℤ)).flatMap Part.ops)).cells =
        [none, some [20, 63], none, some [4, 9]] := by decide
  refine ⟨slots, hslots, h.contents.trans hheld, ?_⟩
  intro one other
  have hops : ([.batch squaring] : List (Part ℤ)).flatMap Part.ops =
    ([.direct (squaring.take 3), .batch (squaring.drop 3)] : List (Part ℤ)).flatMap Part.ops := rfl
  have hroomy : ∀ p ∈ ([.direct (squaring.take 3), .batch (squaring.drop 3)] : List (Part ℤ)),
      p.Roomy multiplying := by
    intro p hp
    rcases List.mem_cons.mp hp with rfl | hp
    · trivial
    · rw [List.mem_singleton.mp hp]
      exact fun k => le_trans List.countP_le_length (by decide)
  have hone : ∀ p ∈ ([.batch squaring] : List (Part ℤ)), p.Roomy multiplying := by
    intro p hp
    rw [List.mem_singleton.mp hp]
    exact squaring_roomy
  obtain ⟨slots₁, slots₂, e₁, e₂, hsame, hleft, -⟩ := batching_is_invisible (fun _ => none) h hops
    (by decide) hone hroomy (noFault_of_emits (runParts_fine multiplying_healthy _ _) _)
    (noFault_of_emits (runParts_fine (E := { multiplying with sched := fun _ => none })
      (fun _ => rfl) _ _) _)
  exact ⟨slots₁, slots₂, e₁, e₂, hsame, hleft.trans hmeant⟩

end Parts

end Ssimulacra2
