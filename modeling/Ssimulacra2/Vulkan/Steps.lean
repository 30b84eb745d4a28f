/-
  File:      Ssimulacra2/Vulkan/Steps.lean
  Subject:   The functions of the context as steps: what each changes and answers.

  * `allocBuffer_meets`, `createBufferF32_meets` -- a new buffer and its contents;
  * `destroyBuffer_post` -- nothing that is in use changes;
  * `oneShot_post` -- a submission runs its commands, or fails with or without having run them;
  * `runComputePush_meets` -- a dispatch is the kernel on the view, recorded or executed;
  * `readbackF32All_meets` -- the contents of the buffers read.
-/
import Ssimulacra2.Vulkan.Frame

namespace Ssimulacra2

open Fallible Prog

variable {F : Type} [Zero F] {E : Env F}

/-! ## 1. Running driver calls -/

section Rules

variable {β : Type} {s : Sys F}

omit [Zero F] in
/-- A checked call: it fails and ends the run, or counts and goes on. -/
theorem post_attempt {c : Call} {f : Unit → Gpu F β}
    {Q : Except GpuErr β → Sys F → List (Event F) → Prop}
    (herr : ∀ code, Q (.error (.driver c code)) { s with tick := s.tick + 1 }
      [.failed c E.stack])
    (hok : Post (f ()) { s with tick := s.tick + 1 } Q) : Post (attempt E c >>= f) s Q := by
  cases h : E.sched s.tick with
  | none =>
    have hm : attempt E c s = ⟨.ok (), { s with tick := s.tick + 1 }, []⟩ := by
      simp only [attempt, h]
    exact post_step hm hok
  | some code =>
    have hm : attempt E c s = ⟨.error (.driver c code), { s with tick := s.tick + 1 },
        [.failed c E.stack]⟩ := by
      simp only [attempt, h]
    exact post_stop hm (herr code)

omit [Zero F] in
theorem run_record (cb : Nat) (c : Cmd F) (s : Sys F) :
    record cb c s =
      ⟨.ok (), { s with recorded := Function.update s.recorded cb (s.recorded cb ++ [c]) },
        [.recorded cb c]⟩ := rfl

omit [Zero F] in
/-- Recording a list of commands. -/
theorem each_record (cb : Nat) (cmds : List (Cmd F)) (s : Sys F) :
    each (record cb) cmds s =
      ⟨.ok (), { s with recorded := Function.update s.recorded cb (s.recorded cb ++ cmds) },
        cmds.map (.recorded cb)⟩ := by
  induction cmds generalizing s with
  | nil =>
    rw [List.append_nil, Function.update_eq_self]
    rfl
  | cons c cmds ih =>
    show andThen (record cb c) (fun _ => each (record cb) cmds) s = _
    simp only [andThen, run_record, ih, Function.update_self, Function.update_idem,
      List.append_assoc, List.singleton_append, List.map_cons]

omit [Zero F] in
theorem each_emit {α : Type} (f : α → Event F) (as : List α) (s : Sys F) :
    each (fun a => (emit (f a) : Gpu F Unit)) as s = ⟨.ok (), s, as.map f⟩ := by
  induction as generalizing s with
  | nil => rfl
  | cons a as ih =>
    show andThen (emit (f a)) (fun _ => each (fun a => emit (f a)) as) s = _
    simp only [andThen, emit, ih, List.map_cons, List.singleton_append]

theorem execute_run (cb : Nat) (s : Sys F) :
    execute E cb s = ⟨.ok (), { s with mem := execCmds E.kernel s.mem (s.recorded cb) },
      (s.recorded cb).map .ran⟩ := by
  unfold execute
  rw [run_bind (run_gets _ _), run_bind (run_update _ _), each_emit]
  rfl

end Rules

omit [Zero F] in
theorem run_create (kind : Kind) (s : Sys F) :
    create kind s = ⟨.ok s.next, { s with next := s.next + 1 }, [.created ⟨kind, s.next⟩]⟩ := rfl

omit [Zero F] in
theorem run_begun (cb : Nat) (s : Sys F) :
    begun cb s = ⟨.ok (), { s with recorded := Function.update s.recorded cb [] }, [.begun cb]⟩ := rfl

theorem run_createMemory (size : Nat) (s : Sys F) :
    createMemory E size s = ⟨.ok s.next, { s with
        next := s.next + 1
        allocs := s.allocs + 1
        mem := store s.mem s.next (fit (size / 4) (E.junk s.allocs)) },
      [.created ⟨.memory, s.next⟩]⟩ := rfl

/-! ## 2. One submission -/

/-- The parts of a state that a submission leaves alone. -/
structure SameRest (s s' : Sys F) : Prop where
  next_le : s.next ≤ s'.next
  allocs : s'.allocs = s.allocs
  sets : s'.sets = s.sets
  staging : s'.staging = s.staging
  pipes : s'.pipes = s.pipes
  batch : s'.batch = s.batch
  recorded : ∀ cb < s.next, s'.recorded cb = s.recorded cb

/-- **What a submission does**: its commands have run, or the memory is as it was; an answer means
    that they have run. -/
structure Submitted (K : Kernel F) (cmds : List (Cmd F)) (s : Sys F) (r : Except GpuErr Unit)
    (s' : Sys F) (t : List (Event F)) : Prop where
  rest : SameRest s s'
  mem : s'.mem = s.mem ∨ s'.mem = execCmds K s.mem cmds
  ran : r = .ok () → s'.mem = execCmds K s.mem cmds
  answers : NoFault t → r = .ok ()
  proper : ∀ e, r = .error e → e.Proper
  records : ∀ cb c, Event.recorded cb c ∈ t → Event.begun cb ∈ t
  closes : ∀ cb, Event.closed cb ∉ t

section Submit

variable {K : Kernel F} {cmds : List (Cmd F)} {s s' : Sys F} {t : List (Event F)}

theorem Submitted.ofFailed {c : Call} {code : String} (hr : SameRest s s') (hm : s'.mem = s.mem)
    (hf : ¬NoFault t) (ht : ∀ cb c, Event.recorded cb c ∈ t → Event.begun cb ∈ t)
    (hc : ∀ cb, Event.closed cb ∉ t) :
    Submitted K cmds s (.error (.driver c code)) s' t where
  rest := hr
  mem := Or.inl hm
  ran h := nomatch h
  answers h := absurd h hf
  proper e h := by
    cases h
    exact GpuErr.proper_driver c code
  records := ht
  closes := hc

omit [Zero F] in
theorem not_noFault {c : Call} {st : List Fn} (h : Event.failed c st ∈ t) : ¬NoFault t :=
  fun hn => hn c st h

/-- Quiet events before and after. -/
theorem Submitted.around {r : Except GpuErr Unit} {pre post : List (Event F)}
    (h : Submitted K cmds s r s' t) (hpre : Quiet pre) (hpost : Quiet post) :
    Submitted K cmds s r s' (pre ++ (t ++ post)) where
  rest := h.rest
  mem := h.mem
  ran := h.ran
  answers hn := h.answers (noFault_append.mp (noFault_append.mp hn).2).1
  proper := h.proper
  records cb c hc := by
    rcases List.mem_append.mp hc with hc | hc
    · exact absurd hc (hpre.1 cb c)
    · rcases List.mem_append.mp hc with hc | hc
      · exact List.mem_append_right _ (List.mem_append_left _ (h.records cb c hc))
      · exact absurd hc (hpost.1 cb c)
  closes cb hc := by
    rcases List.mem_append.mp hc with hc | hc
    · exact hpre.2 cb hc
    · rcases List.mem_append.mp hc with hc | hc
      · exact h.closes cb hc
      · exact hpost.2 cb hc

theorem submitWait_post (c1 c2 c3 : Call) (cb : Nat) (s : Sys F) :
    Post (submitWait E c1 c2 c3 cb) s (Submitted E.kernel (s.recorded cb) s) := by
  have hrest {t n : Nat} {mem : Nat → List F} (hn : s.next ≤ n) :
      SameRest s { s with tick := t, next := n, mem := mem } :=
    ⟨hn, rfl, rfl, rfl, rfl, rfl, fun _ _ => rfl⟩
  unfold submitWait
  refine post_attempt (fun code => ?_) ?_
  · exact .ofFailed (hrest le_rfl) rfl (not_noFault (List.mem_singleton.mpr rfl)) (by simp) (by simp)
  refine post_step rfl ?_
  refine post_ensure (M := Submitted E.kernel (s.recorded cb) s) ?_ ?_
  · refine post_attempt (fun code => ?_) ?_
    · exact .ofFailed (hrest (Nat.le_succ _)) rfl (not_noFault (List.mem_singleton.mpr rfl))
        (by simp) (by simp)
    refine post_step (execute_run cb _) ?_
    refine post_attempt (fun code => ?_) ?_
    · refine ⟨hrest (Nat.le_succ _), Or.inr rfl, (fun h => nomatch h),
        fun h => absurd h (not_noFault (List.mem_append_right _ (List.mem_singleton.mpr rfl))),
        fun e h => ?_, by simp, by simp⟩
      cases h
      exact GpuErr.proper_driver _ _
    · exact post_emit
        ⟨hrest (Nat.le_succ _), Or.inr rfl, fun _ => rfl, fun _ => rfl, nofun, by simp,
          by simp⟩
  · intro r s' t h
    exact post_emit (h.around ⟨by simp, by simp⟩ ⟨by simp, by simp⟩)

theorem oneShot_post (cmds : List (Cmd F)) (s : Sys F) :
    Post (oneShot E cmds) s (Submitted E.kernel cmds s) := by
  unfold oneShot
  refine post_attempt (fun code => ?_) ?_
  · exact .ofFailed ⟨le_rfl, rfl, rfl, rfl, rfl, rfl, fun _ _ => rfl⟩ rfl
      (not_noFault (List.mem_singleton.mpr rfl)) (by simp) (by simp)
  refine post_step (run_create _ _) ?_
  refine post_ensure (M := Submitted E.kernel cmds s) ?_ ?_
  · refine post_attempt (fun code => ?_) ?_
    · exact .ofFailed ⟨Nat.le_succ _, rfl, rfl, rfl, rfl, rfl, fun _ _ => rfl⟩ rfl
        (not_noFault (List.mem_singleton.mpr rfl)) (by simp) (by simp)
    refine post_step (run_begun _ _) ?_
    refine post_step (each_record _ _ _) ?_
    simp only [Function.update_self, Function.update_idem, List.nil_append]
    have hother (cb : Nat) (h : cb < s.next) :
        Function.update s.recorded s.next cmds cb = s.recorded cb :=
      Function.update_of_ne (Nat.ne_of_lt h) _ _
    refine post_attempt (fun code => ?_) ?_
    · refine .ofFailed ⟨Nat.le_succ _, rfl, rfl, rfl, rfl, rfl, hother⟩ rfl
        (not_noFault (List.mem_append_right _ (List.mem_append_right _ (List.mem_singleton.mpr rfl))))
        (fun cb c h => ?_) (by simp)
      simp at h ⊢
      tauto
    · refine post_mono (submitWait_post _ _ _ _ _) fun r s' t h => ?_
      simp only [Function.update_self] at h
      refine ⟨⟨le_trans (Nat.le_succ _) h.rest.next_le, h.rest.allocs, h.rest.sets, h.rest.staging,
        h.rest.pipes, h.rest.batch, fun cb hcb => ?_⟩, h.mem, h.ran, fun hn => ?_, h.proper,
        fun cb c hc => ?_, fun cb hc => ?_⟩
      · rw [h.rest.recorded cb (Nat.lt_succ_of_lt hcb)]
        exact hother cb hcb
      · exact h.answers (noFault_append.mp (noFault_append.mp hn).2).2
      · rcases List.mem_append.mp hc with hc | hc
        · simp at hc
        · rcases List.mem_append.mp hc with hc | hc
          · obtain ⟨c', -, e⟩ := List.mem_map.mp hc
            cases e
            exact List.mem_append_left _ List.mem_cons_self
          · exact List.mem_append_right _ (List.mem_append_right _ (h.records cb c hc))
      · rcases List.mem_append.mp hc with hc | hc
        · simp at hc
        · rcases List.mem_append.mp hc with hc | hc
          · simp at hc
          · exact h.closes cb hc
  · intro r s' t h
    exact post_emit (h.around ⟨by simp, by simp⟩ ⟨by simp, by simp⟩)

end Submit

/-! ## 3. Steps that leave the memory alone -/

section Quiet

variable {K : Kernel F} {s s' : Sys F} {t : List (Event F)}

omit [Zero F] in
theorem SameRest.pending_eq (h : SameRest s s') (hs : s.Valid) : s'.pending = s.pending := by
  unfold Sys.pending
  rw [h.batch]
  cases hb : s.batch with
  | none => rfl
  | some st =>
    refine h.recorded _ (hs.cmd_lt _ ?_)
    unfold Sys.openCmd
    rw [hb]
    rfl

omit [Zero F] in
theorem SameRest.private (h : SameRest s s') {m : Nat} (hm : s.Private m) : s'.Private m :=
  ⟨lt_of_lt_of_le hm.1 h.next_le, fun st hst => hm.2 st (h.staging ▸ hst)⟩

omit [Zero F] in
/-- The invariant looks at the memory only for the length of the staging memory. -/
theorem SameRest.valid (h : SameRest s s') (hs : s.Valid)
    (hm : ∀ b, s.staging = some b → (s'.mem b.memory).length = (s.mem b.memory).length) :
    s'.Valid where
  cmd_lt cb hcb := by
    unfold Sys.openCmd at hcb
    rw [h.batch] at hcb
    exact lt_of_lt_of_le (hs.cmd_lt cb hcb) h.next_le
  pending c hc m hmc := by
    rw [h.pending_eq hs] at hc
    exact h.private (hs.pending c hc m hmc)
  sets := by
    unfold Sys.batchSets
    rw [h.sets, h.batch]
    exact hs.sets
  handles := by
    rw [h.sets]
    exact hs.handles
  handle_lt d hd := lt_of_lt_of_le (hs.handle_lt d (h.sets ▸ hd)) h.next_le
  pipes k o ho := hs.pipes k o (h.pipes ▸ ho)
  staging b hb := by
    have hb' : s.staging = some b := h.staging ▸ hb
    obtain ⟨h1, h2⟩ := hs.staging b hb'
    exact ⟨lt_of_lt_of_le h1 h.next_le, (hm b hb').trans h2⟩

theorem SameRest.extends (h : SameRest s s') (hs : s.Valid) (hm : s'.mem = s.mem)
    (hr : ∀ cb c, Event.recorded cb c ∈ t → s.openCmd = some cb ∨ Event.begun cb ∈ t)
    (hc : ∀ cb, Event.closed cb ∉ t) : Extends K 0 [] s s' t where
  next_le := h.next_le
  valid := h.valid hs fun b _ => by rw [hm]
  priv m hp := h.private hp
  view m _ _ := by
    unfold Sys.view
    rw [hm, h.pending_eq hs]
  mem _ m _ := by rw [hm]
  cmd := by
    unfold Sys.openCmd
    rw [h.batch]
  uses p := by
    unfold Sys.tracked Sys.batchSets
    rw [h.batch]
    exact le_rfl
  records := hr
  closes cb h := absurd h (hc cb)

/-- Only the clock moves. -/
theorem extends_tick (hs : s.Valid) (n : Nat) (ht : Quiet t) :
    Extends K 0 [] s { s with tick := n } t :=
  SameRest.extends ⟨le_rfl, rfl, rfl, rfl, rfl, rfl, fun _ _ => rfl⟩ hs rfl
    (fun cb c h => absurd h (ht.1 cb c)) ht.2

end Quiet

/-! ## 4. Buffers -/

section Buffers

variable {s : Sys F}

omit [Zero F] in
theorem quiet_failed (c : Call) (st : List Fn) : Quiet ([.failed c st] : List (Event F)) :=
  ⟨by simp, by simp⟩

theorem fit_length (n : Nat) (xs : List F) : (fit n xs).length = n := by
  unfold fit
  rw [List.length_take, List.length_append, List.length_replicate]
  omega

/-- The state after an allocation. -/
def Sys.allocated (s : Sys F) (tick next m : Nat) (xs : List F) : Sys F :=
  { s with tick := tick, next := next, allocs := s.allocs + 1, mem := store s.mem m xs }

theorem view_allocated (K : Kernel F) (hs : s.Valid) {m : Nat} (hm : s.next ≤ m) (tick next : Nat)
    (xs : List F) : (s.allocated tick next m xs).view K = store (s.view K) m xs := by
  unfold Sys.view
  refine execCmds_store K fun c hc hmc => ?_
  exact absurd (hs.pending c hc m hmc).1 (Nat.not_lt.mpr hm)

/-- A new memory is nobody's yet. -/
theorem extends_allocated (K : Kernel F) (hs : s.Valid) {m next : Nat} (hm : s.next ≤ m)
    (hn : m < next) (tick : Nat) (xs : List F) {t : List (Event F)} (ht : Quiet t) :
    Extends K 0 [] s (s.allocated tick next m xs) t := by
  have hle : s.next ≤ next := le_trans hm hn.le
  have hne {m' : Nat} (h : m' < s.next) : m' ≠ m := Nat.ne_of_lt (lt_of_lt_of_le h hm)
  have hpriv (m' : Nat) (h : s.Private m') : (s.allocated tick next m xs).Private m' :=
    ⟨lt_of_lt_of_le h.1 hle, h.2⟩
  refine ⟨hle, ⟨fun cb h => lt_of_lt_of_le (hs.cmd_lt cb h) hle,
    fun c hc m' hm' => hpriv m' (hs.pending c hc m' hm'), hs.sets, hs.handles,
    fun d hd => lt_of_lt_of_le (hs.handle_lt d hd) hle, hs.pipes, fun b hb => ?_⟩, hpriv,
    fun m' h _ => ?_, fun _ m' h => Function.update_of_ne (hne h.1) _ _, rfl, fun p => le_rfl,
    fun cb c h => absurd h (ht.1 cb c), fun cb h => absurd h (ht.2 cb)⟩
  · obtain ⟨h1, h2⟩ := hs.staging b hb
    have e : (s.allocated tick next m xs).mem b.memory = s.mem b.memory :=
      Function.update_of_ne (hne h1) _ _
    rw [e]
    exact ⟨lt_of_lt_of_le h1 hle, h2⟩
  · rw [view_allocated K hs hm]
    exact Function.update_of_ne (hne h.1) _ _

omit [Zero F] in
theorem private_new (hs : s.Valid) {s' : Sys F} {m : Nat} (hst : s'.staging = s.staging)
    (hm : s.next ≤ m) (hn : m < s'.next) : s'.Private m :=
  ⟨hn, fun st h => Nat.ne_of_lt (lt_of_lt_of_le (hs.staging st (hst ▸ h)).1 hm)⟩

/-- **A new buffer** holds whatever its memory held. -/
theorem allocBuffer_meets (hs : s.Valid) (n : Nat) :
    Meets id E.kernel 0 [] s (some (fit n (E.junk s.allocs)))
      (fun s' b xs => Holds E.kernel s' b xs ∧ s.next ≤ b.buffer ∧ s.next ≤ b.memory ∧
        s'.allocs = s.allocs + 1 ∧ s'.pending = s.pending) (allocBuffer E (4 * n)) := by
  have hsame {t next : Nat} (h : s.next ≤ next) : SameRest s { s with tick := t, next := next } :=
    ⟨h, rfl, rfl, rfl, rfl, rfl, fun _ _ => rfl⟩
  have hfail {t next : Nat} {c : Call} {code : String} (ev : List (Event F)) {v : Option (List F)}
      {R : Sys F → GpuBuffer → List F → Prop} (h : s.next ≤ next) (he : Quiet ev) :
      Runs E.kernel 0 [] s v R (.error (.driver c code)) { s with tick := t, next := next }
        (ev ++ [.failed c E.stack]) :=
    Runs.failed ((hsame h).extends hs rfl (by simp [he.1]) (by simp [he.2])) (not_noFault (c := c)
      (List.mem_append_right _ (List.mem_singleton.mpr rfl))) (GpuErr.proper_driver c code)
  have hcreated (k : Kind) (h : Nat) : Quiet ([.created ⟨k, h⟩] : List (Event F)) :=
    ⟨by simp, by simp⟩
  have hn4 : 4 * n / 4 = n := Nat.mul_div_cancel_left n (by decide)
  have hm (s : Sys F) : createMemory E (4 * n) s = ⟨.ok s.next,
      { s with next := s.next + 1, allocs := s.allocs + 1
               mem := store s.mem s.next (fit n (E.junk s.allocs)) },
      [.created ⟨.memory, s.next⟩]⟩ := by
    have h := run_createMemory (E := E) (4 * n) s
    rw [hn4] at h
    exact h
  unfold allocBuffer
  refine post_attempt (fun code => hfail [] le_rfl ⟨by simp, by simp⟩) ?_
  refine post_step (run_create _ _) ?_
  refine post_attempt (fun code => hfail _ (Nat.le_succ _) (hcreated _ _)) ?_
  refine post_attempt (fun code => hfail _ (Nat.le_succ _) (hcreated _ _)) ?_
  refine post_step (hm _) ?_
  have hle : s.next ≤ s.next + 1 := Nat.le_succ _
  have he {t : List (Event F)} (ht : Quiet t) := extends_allocated E.kernel hs hle
    (Nat.lt_succ_self (s.next + 1)) (s.tick + 4) (fit n (E.junk s.allocs)) ht
  refine post_attempt (fun code => ?_) (post_pure ?_)
  · exact Runs.failed (he ⟨by simp, by simp⟩) (not_noFault (List.mem_append_right _
      (List.mem_append_right _ (List.mem_singleton.mpr rfl)))) (GpuErr.proper_driver _ _)
  · refine Runs.answer (he ⟨by simp, by simp⟩)
      ⟨⟨private_new hs rfl hle (Nat.lt_succ_self _), ?_, ?_⟩, le_rfl, hle, rfl, rfl⟩
    · exact (congrFun (view_allocated E.kernel hs hle (s.tick + 4) (s.next + 2) _) _).trans
        (Function.update_self _ _ _)
    · rw [fit_length]

omit [Zero F] in
theorem run_batchTrash_open {st : Batch} (b : GpuBuffer) (hb : s.batch = some st) :
    batchTrash b s = ⟨.ok true, { s with batch := some { st with trash := st.trash ++ [b] } }, []⟩ := by
  unfold batchTrash
  rw [run_bind (run_gets _ _)]
  simp only [hb]
  rfl

omit [Zero F] in
theorem run_batchTrash_closed (b : GpuBuffer) (hb : s.batch = none) :
    batchTrash b s = ⟨.ok false, s, []⟩ := by
  unfold batchTrash
  rw [run_bind (run_gets _ _)]
  simp only [hb]
  rfl

/-- The trash of the batch is nobody's business but the batch's. -/
theorem extends_trash {K : Kernel F} {st : Batch} (hs : s.Valid) (hb : s.batch = some st)
    (trash : List GpuBuffer) {t : List (Event F)} (ht : Quiet t) :
    let s' := { s with batch := some { st with trash := trash } }
    Extends K 0 [] s s' t ∧ s'.view K = s.view K := by
  intro s'
  have ho : s'.openCmd = s.openCmd := by
    unfold Sys.openCmd
    rw [hb]
    rfl
  have hp : s'.pending = s.pending := by
    unfold Sys.pending
    rw [hb]
  have htr : s'.batchSets = s.batchSets := by
    unfold Sys.batchSets
    rw [hb]
  have hv : s'.view K = s.view K := by
    unfold Sys.view
    rw [hp]
  refine ⟨⟨le_rfl, ⟨fun cb h => hs.cmd_lt cb (ho ▸ h), fun c hc => hs.pending c (hp ▸ hc), ?_,
    hs.handles, hs.handle_lt, hs.pipes, hs.staging⟩, fun _ h => h, fun m _ _ => by rw [hv],
    fun _ _ _ => rfl, ho, fun p => ?_, fun cb c h => absurd h (ht.1 cb c),
    fun cb h => absurd h (ht.2 cb)⟩, hv⟩
  · rw [htr]
    exact hs.sets
  · unfold Sys.tracked
    rw [htr]
    exact le_rfl

/-- **Destroying a buffer** never fails and changes nothing in use: now, or when the batch ends. -/
theorem destroyBuffer_post {K : Kernel F} (hs : s.Valid) (b : GpuBuffer) :
    Post (destroyBuffer b) s fun r s' t => r = .ok () ∧ Extends K 0 [] s s' t ∧
      s'.view K = s.view K ∧ s'.allocs = s.allocs := by
  unfold destroyBuffer
  cases hb : s.batch with
  | some st =>
    obtain ⟨he, hv⟩ := extends_trash (K := K) hs hb (st.trash ++ [b]) (t := []) ⟨by simp, by simp⟩
    exact post_step (run_batchTrash_open b hb) (post_pure ⟨rfl, he, hv, rfl⟩)
  | none =>
    refine post_step (run_batchTrash_closed b hb) (post_step (run_emit _ _) (post_emit ?_))
    exact ⟨rfl, extends_tick hs s.tick ⟨by simp, by simp⟩, rfl, rfl⟩

end Buffers

/-! ## 5. Recording and submitting -/

section Commands

variable {K : Kernel F} {cmds : List (Cmd F)} {W : List Nat} {s : Sys F}

/-- **Recording into the open batch** runs the commands in the view. -/
theorem extends_record {cb : Nat} (hs : s.Valid) (hcb : s.openCmd = some cb)
    (hp : ∀ c ∈ cmds, ∀ m ∈ c.mems, s.Private m)
    (hW : ∀ m, s.Private m → m ∉ W → execCmds K (s.view K) cmds m = s.view K m) :
    let s' := { s with recorded := Function.update s.recorded cb (s.recorded cb ++ cmds) }
    Extends K 0 W s s' (cmds.map (.recorded cb)) ∧ s'.view K = execCmds K (s.view K) cmds := by
  intro s'
  obtain ⟨st, hb, rfl⟩ := Option.map_eq_some_iff.mp hcb
  have hold : s.pending = s.recorded st.cmd := by
    unfold Sys.pending
    rw [hb]
  have hnew : s'.pending = s.pending ++ cmds := by
    have e : s'.pending = s'.recorded st.cmd := by
      unfold Sys.pending
      rw [show s'.batch = some st from hb]
    rw [e, hold]
    exact Function.update_self _ _ _
  have hview : s'.view K = execCmds K (s.view K) cmds := by
    unfold Sys.view
    rw [hnew, execCmds_append]
  refine ⟨⟨le_rfl, ⟨hs.cmd_lt, fun c hc => ?_, hs.sets, hs.handles, hs.handle_lt, hs.pipes,
    hs.staging⟩, fun _ h => h,
    fun m hpm hm => ?_, fun _ _ _ => rfl, rfl, fun _ => le_rfl, fun cb c h => ?_, fun cb h => ?_⟩,
    hview⟩
  · rw [hnew] at hc
    rcases List.mem_append.mp hc with hc | hc
    · exact hs.pending c hc
    · exact hp c hc
  · rw [hview]
    exact hW m hpm hm
  · obtain ⟨c', -, e⟩ := List.mem_map.mp h
    cases e
    exact Or.inl hcb
  · obtain ⟨c', -, e⟩ := List.mem_map.mp h
    cases e

/-- **A submission outside a batch.** -/
theorem extends_submitted {r : Except GpuErr Unit} {s' : Sys F} {t : List (Event F)} (hs : s.Valid)
    (ho : s.openCmd = none) (h : Submitted K cmds s r s' t)
    (hW : ∀ m, s.Private m → m ∉ W → execCmds K (s.view K) cmds m = s.view K m)
    (hst : ∀ b, s.staging = some b →
      (execCmds K s.mem cmds b.memory).length = (s.mem b.memory).length) :
    Extends K 0 W s s' t := by
  have ho' : s'.openCmd = none := by
    unfold Sys.openCmd at ho ⊢
    rw [h.rest.batch]
    exact ho
  refine ⟨h.rest.next_le, h.rest.valid hs fun b hb => ?_, fun _ hp => h.rest.private hp,
    fun m hpm hm => ?_, fun hne => absurd ho hne, by rw [ho', ho], fun p => ?_,
    fun cb c hc => Or.inr (h.records cb c hc), fun cb hc => absurd hc (h.closes cb)⟩
  · rcases h.mem with e | e
    · rw [e]
    · rw [e, hst b hb]
  · rw [Sys.view_closed K ho', Sys.view_closed K ho]
    rcases h.mem with e | e
    · rw [e]
    · have hm' := hW m hpm hm
      rw [Sys.view_closed K ho] at hm'
      rw [e, hm']
  · unfold Sys.tracked Sys.batchSets
    rw [h.rest.batch]
    exact le_rfl

end Commands

/-! ## 6. Uploads -/

section Upload

variable {K : Kernel F} {s s1 : Sys F} {t : List (Event F)}

omit [Zero F] in
theorem splice_all {dst src : List F} (h : dst.length = src.length) :
    splice dst src 0 (4 * src.length) = src := by
  unfold splice
  have e : 4 * src.length / 4 = src.length := Nat.mul_div_cancel_left _ (by decide)
  rw [e, List.take_length, Nat.zero_div, List.take_zero, Nat.zero_add, ← h, List.drop_length,
    List.nil_append, List.append_nil]

/-- **The host writes a memory that was not in use**: nobody else sees it. -/
theorem extends_hostWrite {m : Nat} (hs : s.Valid) (he : Extends K 0 [] s s1 t)
    (hp : s1.pending = s.pending) (hm : s.next ≤ m) (hm1 : s1.Private m) (tick : Nat) (xs : List F) :
    Extends K 0 [] s { s1 with tick := tick, mem := store s1.mem m xs } t ∧
      ({ s1 with tick := tick, mem := store s1.mem m xs } : Sys F).view K = store (s1.view K) m xs ∧
      s1.view K m = s1.mem m := by
  have hfar : ∀ c ∈ s1.pending, m ∉ c.mems := fun c hc hmc =>
    absurd (hs.pending c (hp ▸ hc) m hmc).1 (Nat.not_lt.mpr hm)
  have hfar' : ∀ c ∈ s1.pending, m ∉ c.writes := by
    intro c hc hmc
    refine hfar c hc ?_
    cases c with
    | copy src dst off size => exact List.mem_cons_of_mem _ hmc
    | barrier => exact hmc
    | dispatch shader push set groups => exact hmc
  have hne {m' : Nat} (h : s.Private m') : m' ≠ m := Nat.ne_of_lt (lt_of_lt_of_le h.1 hm)
  have hview : ({ s1 with tick := tick, mem := store s1.mem m xs } : Sys F).view K =
      store (s1.view K) m xs := execCmds_store K hfar
  refine ⟨⟨he.next_le, ⟨he.valid.cmd_lt, he.valid.pending, he.valid.sets, he.valid.handles,
    he.valid.handle_lt, he.valid.pipes, fun b hb => ?_⟩, he.priv, fun m' h hW => ?_, fun ho m' h => ?_, he.cmd, he.uses, he.records,
    he.closes⟩, hview, execCmds_other K hfar'⟩
  · obtain ⟨h1, h2⟩ := he.valid.staging b hb
    refine ⟨h1, ?_⟩
    rw [← h2]
    exact congrArg List.length (Function.update_of_ne (hm1.2 b hb) _ _)
  · rw [hview]
    exact (Function.update_of_ne (hne h) _ _).trans (he.view m' h hW)
  · exact (Function.update_of_ne (hne h) _ _).trans (he.mem ho m' h)

/-- The copy of a whole buffer. -/
theorem exec_copy {src dst : GpuBuffer} {mem : Nat → List F} {xs : List F}
    (hsrc : mem src.memory = xs) (hdst : (mem dst.memory).length = xs.length) :
    execCmds K mem [.copy src dst 0 (4 * xs.length)] dst.memory = xs := by
  refine (Function.update_self _ _ _).trans ?_
  rw [hsrc]
  exact splice_all hdst

theorem exec_copy_other {src dst : GpuBuffer} {size : Nat} {mem : Nat → List F} {m : Nat}
    (hm : m ≠ dst.memory) : execCmds K mem [.copy src dst 0 size] m = mem m := by
  refine execCmds_other K fun c hc hmc => hm ?_
  rw [List.mem_singleton.mp hc] at hmc
  exact List.mem_singleton.mp hmc

/-- The buffer of an upload, and what it holds. -/
def Uploaded (K : Kernel F) (s s' : Sys F) (b : GpuBuffer) (xs : List F) : Prop :=
  Holds K s' b xs ∧ s.next ≤ b.buffer ∧ s.next ≤ b.memory ∧ s'.allocs = s.allocs + 2

/-- An upload before its copy: both buffers are there, the data are in the staging buffer. -/
structure AtCopy (K : Kernel F) (data : List F) (staging dev : GpuBuffer) (s s3 : Sys F)
    (t : List (Event F)) : Prop where
  ext : Extends K 0 [] s s3 t
  source : Holds K s3 staging data
  priv : s3.Private dev.memory
  length : (s3.view K dev.memory).length = data.length
  size : dev.size = 4 * data.length
  new_buffer : s.next ≤ dev.buffer
  new_memory : s.next ≤ dev.memory
  allocs : s3.allocs = s.allocs + 2

section AtCopy

variable {data : List F} {staging dev : GpuBuffer} {s3 : Sys F}

/-- The new buffer was not in use. -/
theorem AtCopy.outside (h : AtCopy K data staging dev s s3 t) :
    ∀ m ∈ [dev.memory], s.Private m → m ∈ ([] : List Nat) := by
  intro m hm hp
  rw [List.mem_singleton.mp hm] at hp
  exact absurd hp.1 (Nat.not_lt.mpr h.new_memory)

/-- Recorded or executed, the copy fills the new buffer. -/
theorem AtCopy.copied (h : AtCopy K data staging dev s s3 t) :
    execCmds K (s3.view K) [.copy staging dev 0 (4 * data.length)] dev.memory = data :=
  exec_copy h.source.view h.length

theorem AtCopy.kept {m : Nat} (hm : m ∉ [dev.memory]) :
    execCmds K (s3.view K) [.copy staging dev 0 (4 * data.length)] m = s3.view K m :=
  exec_copy_other fun e => hm (List.mem_singleton.mpr e)

/-- The copy goes to the open batch, and the staging buffer with it. -/
theorem AtCopy.record_meets (h : AtCopy K data staging dev s s3 t) {st : Batch}
    (hb : s3.batch = some st) :
    Post (do
        record st.cmd (.copy staging dev 0 (4 * data.length))
        let _ ← batchTrash staging
        pure (dev, true)) s3 fun r s' t' => Runs K 0 [] s (some data)
      (fun s' p xs => Uploaded K s s' p.1 xs) r s' (t ++ t') := by
  have hcb : s3.openCmd = some st.cmd := by
    unfold Sys.openCmd
    rw [hb]
    rfl
  obtain ⟨he4, hv4⟩ := extends_record (K := K) h.ext.valid hcb (fun c hc m hm => by
    rw [List.mem_singleton.mp hc] at hm
    rcases List.mem_cons.mp hm with rfl | hm
    · exact h.source.priv
    · exact List.mem_singleton.mp hm ▸ h.priv) fun m _ hm => AtCopy.kept hm
  refine post_step (run_record _ _ _) (post_step (run_batchTrash_open staging hb) (post_pure ?_))
  obtain ⟨he5, hv5⟩ := extends_trash (K := K) he4.valid hb (st.trash ++ [staging]) (t := [])
    ⟨by simp, by simp⟩
  have hall := (h.ext.trans he4 h.outside).trans he5 fun _ h _ => h
  refine Runs.answer (by simpa using hall)
    ⟨⟨he5.priv _ (he4.priv _ h.priv), ?_, h.size⟩, h.new_buffer, h.new_memory, h.allocs⟩
  rw [hv5, hv4]
  exact h.copied

/-- With no batch open the copy is submitted. -/
theorem AtCopy.submit_meets {E : Env F} (h : AtCopy E.kernel data staging dev s s3 t)
    (ho : s3.openCmd = none) :
    Post (do
        oneShot E [.copy staging dev 0 (4 * data.length)]
        pure (dev, false)) s3 fun r s' t' => Runs E.kernel 0 [] s (some data)
      (fun s' p xs => Uploaded E.kernel s s' p.1 xs) r s' (t ++ t') := by
  have hext {r : Except GpuErr Unit} {s4 : Sys F} {t4 : List (Event F)}
      (h4 : Submitted E.kernel [.copy staging dev 0 (4 * data.length)] s3 r s4 t4) :
      Extends E.kernel 0 [dev.memory] s3 s4 t4 :=
    extends_submitted h.ext.valid ho h4 (fun m _ hm => AtCopy.kept hm) fun b hb =>
      congrArg List.length (exec_copy_other fun e => h.priv.2 b hb e)
  refine post_bind (oneShot_post _ _) (fun _ s4 t4 h4 => post_pure ?_) (fun e s4 t4 h4 => ?_)
  · have he4 := hext h4
    have hall := h.ext.trans he4 h.outside
    refine Runs.answer (by simpa using hall)
      ⟨⟨he4.priv _ h.priv, ?_, h.size⟩, h.new_buffer, h.new_memory, ?_⟩
    · have hcopy := h.copied
      rw [Sys.view_closed _ ho] at hcopy
      rw [Sys.view_closed _ (he4.cmd.trans ho), h4.ran rfl]
      exact hcopy
    · rw [h4.rest.allocs, h.allocs]
  · refine Runs.failed (h.ext.trans (hext h4) h.outside) (fun hn => ?_) (h4.proper e rfl)
    exact nomatch h4.answers (noFault_append.mp hn).2

end AtCopy

/-- The data are in the staging buffer: the host sees the whole of the new memory. -/
theorem hostWrite_holds {staging : GpuBuffer} {old data : List F} (hs : s.Valid)
    (he : Extends K 0 [] s s1 t) (hp : s1.pending = s.pending) (hnew : s.next ≤ staging.memory)
    (hst : Holds K s1 staging old) (hl : old.length = data.length) (tick : Nat) :
    let s2 := { s1 with
      tick := tick
      mem := store s1.mem staging.memory (splice (s1.mem staging.memory) data 0 (4 * data.length)) }
    Extends K 0 [] s s2 t ∧ Holds K s2 staging data := by
  intro s2
  obtain ⟨he2, hv2, hm2⟩ := extends_hostWrite hs he hp hnew hst.priv tick
    (splice (s1.mem staging.memory) data 0 (4 * data.length))
  refine ⟨he2, hst.priv, ?_, ?_⟩
  · rw [hv2]
    refine (Function.update_self _ _ _).trans (splice_all ?_)
    rw [← hm2, hst.view, hl]
  · rw [hst.size, hl]

/-- The end of an upload: a staging buffer that did not go to a batch is destroyed. -/
theorem upload_settles {staging : GpuBuffer} {data : List F} {built : Except GpuErr (GpuBuffer × Bool)}
    (h : Runs K 0 [] s (some data) (fun s' p xs => Uploaded K s s' p.1 xs) built s1 t) :
    Post (match built with
      | .ok (dev, true) => pure dev
      | .ok (dev, false) => do
          destroyBufferNow staging
          pure dev
      | .error e => do
          destroyBufferNow staging
          fail e) s1 fun r s' t' => Runs K 0 [] s (some data) (Uploaded K s) r s' (t ++ t') := by
  have hdrop (s : Sys F) : destroyBufferNow staging s = ⟨.ok (), s,
    [.released ⟨.buffer, staging.buffer⟩, .released ⟨.memory, staging.memory⟩]⟩ := rfl
  have he := h.ext.quietly (u := ([.released ⟨.buffer, staging.buffer⟩,
    .released ⟨.memory, staging.memory⟩] : List (Event F))) ⟨by simp, by simp⟩
  cases built with
  | error e =>
    refine post_step (hdrop _) (post_fail ⟨he, (fun _ h => nomatch h), fun hn hu => ?_, fun e' h' => ?_⟩)
    · rcases h.answers (noFault_append.mp hn).1 hu with ⟨a, ha⟩ | ⟨hx, -⟩
      · cases ha
      · cases hx
    · cases h'
      exact h.proper e rfl
  | ok p =>
    obtain ⟨_, hx, hp⟩ := h.sound p rfl
    cases hx
    obtain ⟨dev, handed⟩ := p
    cases handed with
    | true =>
      refine post_pure ?_
      rw [List.append_nil]
      exact Runs.answer h.ext hp
    | false => exact post_step (hdrop _) (post_pure (Runs.answer he hp))

/-- **An upload**: the new buffer holds the data, whether the copy has run or is recorded. -/
theorem createBufferF32_meets (hs : s.Valid) (data : List F) :
    Meets id E.kernel 0 [] s (some data)
      (fun s' b xs => Holds E.kernel s' b xs ∧ s.next ≤ b.buffer ∧ s.next ≤ b.memory ∧
        s'.allocs = s.allocs + 2) (createBufferF32 E data) := by
  unfold createBufferF32
  dsimp only
  have hnone {s : Sys F} : ∀ m ∈ ([] : List Nat), s.Private m → m ∈ ([] : List Nat) :=
    fun _ h _ => h
  refine post_bind (allocBuffer_meets (E := E.enter .createBufferF32) hs data.length).run
    (fun staging s1 t1 h1 => ?_) (fun e s1 t1 h1 => h1.carry le_rfl hnone)
  obtain ⟨_, hx, hst, -, hnew, ha1, hp1⟩ := h1.sound staging rfl
  cases hx
  have hst : Holds E.kernel s1 staging (fit data.length (E.junk s.allocs)) := hst
  refine post_bind (M := fun r s' t => ∃ built, r = .ok built ∧ Runs E.kernel 0 [] s (some data)
      (fun s' p xs => Uploaded E.kernel s s' p.1 xs) built s' (t1 ++ t))
    (post_observe ?_) (fun built s2 t2 h2 => ?_) (fun e s2 t2 h2 => ?_)
  · refine post_attempt (fun code => ⟨_, rfl, ?_⟩) ?_
    · exact .failed (h1.ext.trans (extends_tick h1.ext.valid _ (quiet_failed _ _)) hnone)
        (not_noFault (List.mem_append_right _ (List.mem_singleton.mpr rfl)))
        (GpuErr.proper_driver _ _)
    refine post_step (run_update _ _) ?_
    obtain ⟨he2, hwritten⟩ := hostWrite_holds hs h1.ext hp1 hnew hst (fit_length _ _) (s1.tick + 1)
    refine post_bind (allocBuffer_meets (E := E.enter .createBufferF32) he2.valid data.length).run
      (fun dev s3 t3 h3 => ?_) (fun e s3 t3 h3 => ⟨_, rfl, (h3.carry le_rfl hnone).after he2 hnone⟩)
    obtain ⟨_, hx, hdev, hnb3, hnew3, ha3, -⟩ := h3.sound dev rfl
    cases hx
    have hdev : Holds E.kernel s3 dev (fit data.length (E.junk s1.allocs)) := hdev
    have hat : AtCopy E.kernel data staging dev s s3 (t1 ++ t3) :=
      ⟨he2.trans h3.ext hnone, hwritten.stable h3.ext List.not_mem_nil, hdev.priv,
        by rw [hdev.view, fit_length], by rw [hdev.size, fit_length], le_trans he2.next_le hnb3,
        le_trans he2.next_le hnew3, by rw [ha3]; exact congrArg (· + 1) ha1⟩
    refine post_step (run_gets _ _) ?_
    cases hb : s3.batch with
    | some st =>
      refine post_mono (hat.record_meets hb) fun r s4 t4 h4 => ⟨r, rfl, ?_⟩
      rwa [List.append_assoc] at h4
    | none =>
      have ho : s3.openCmd = none := Option.map_eq_none_iff.mpr hb
      refine post_mono (AtCopy.submit_meets (E := E.enter .createBufferF32) hat ho)
        fun r s4 t4 h4 => ⟨r, rfl, ?_⟩
      rwa [List.append_assoc] at h4
  · obtain ⟨built', hb, hr⟩ := h2
    cases hb
    refine post_mono (upload_settles hr) fun r s3 t3 h3 => ?_
    rwa [List.append_assoc] at h3
  · obtain ⟨built', hb, -⟩ := h2
    cases hb

end Upload

/-! ## 7. Pipelines -/

/-- What a run does that only makes handles. -/
structure Built {α : Type} (P : α → Prop) (s : Sys F) (r : Except GpuErr α) (s' : Sys F)
    (t : List (Event F)) : Prop where
  rest : SameRest s s'
  mem : s'.mem = s.mem
  quiet : Quiet t
  sound : ∀ a, r = .ok a → P a
  answers : NoFault t → ∃ a, r = .ok a
  proper : ∀ e, r = .error e → e.Proper

section Pipelines

variable {α : Type} {P : α → Prop} {s : Sys F}

omit [Zero F] in
theorem Quiet.append {t t' : List (Event F)} (h : Quiet t) (h' : Quiet t') : Quiet (t ++ t') := by
  refine ⟨fun cb c hm => ?_, fun cb hm => ?_⟩
  · rcases List.mem_append.mp hm with hm | hm
    · exact h.1 cb c hm
    · exact h'.1 cb c hm
  · rcases List.mem_append.mp hm with hm | hm
    · exact h.2 cb hm
    · exact h'.2 cb hm

omit [Zero F] in
theorem SameRest.trans {s' s'' : Sys F} (h : SameRest s s') (h' : SameRest s' s'') :
    SameRest s s'' where
  next_le := le_trans h.next_le h'.next_le
  allocs := h'.allocs.trans h.allocs
  sets := h'.sets.trans h.sets
  staging := h'.staging.trans h.staging
  pipes := h'.pipes.trans h.pipes
  batch := h'.batch.trans h.batch
  recorded cb hcb := by
    rw [h'.recorded cb (lt_of_lt_of_le hcb h.next_le), h.recorded cb hcb]

omit [Zero F] in
/-- One step of the construction: a checked call, its handle, and the undoing of both. -/
theorem built_stage (c : Call) (kind : Kind) {k : Nat → Gpu F α}
    (hk : ∀ h s', Post (k h) s' (Built P s')) (s : Sys F) :
    Post (do
      attempt E c
      let h ← create kind
      onError (release ⟨kind, h⟩) (k h)) s (Built P s) := by
  have hsame {t n : Nat} (h : s.next ≤ n) : SameRest s { s with tick := t, next := n } :=
    ⟨h, rfl, rfl, rfl, rfl, rfl, fun _ _ => rfl⟩
  refine post_attempt (fun code => ?_) ?_
  · refine ⟨hsame le_rfl, rfl, quiet_failed _ _, (fun _ h => nomatch h),
      fun hn => absurd hn (not_noFault (List.mem_singleton.mpr rfl)), fun e h => ?_⟩
    cases h
    exact GpuErr.proper_driver _ _
  refine post_step (run_create _ _) ?_
  refine post_onError (hk _ _) (fun a s' t h => ?_) (fun e s' t h => ?_)
  · exact ⟨(hsame (Nat.le_succ _)).trans h.rest, h.mem, Quiet.append ⟨by simp, by simp⟩ h.quiet,
      h.sound, fun _ => ⟨a, rfl⟩, nofun⟩
  · refine post_emit ⟨(hsame (Nat.le_succ _)).trans h.rest, h.mem,
      Quiet.append ⟨by simp, by simp⟩ (h.quiet.append ⟨by simp, by simp⟩), fun _ h => (nomatch h),
      fun hn => ?_, h.proper⟩
    obtain ⟨a, ha⟩ := h.answers (noFault_append.mp (noFault_append.mp hn).2).1
    cases ha

omit [Zero F] in
theorem buildPipe_post (shader : Shader) (s : Sys F) :
    Post (buildPipe E shader) s (Built (fun o => o.shader = shader) s) := by
  unfold buildPipe
  refine built_stage _ _ (fun shm s => ?_) s
  refine built_stage _ _ (fun dsl s => ?_) s
  refine built_stage _ _ (fun pl s => ?_) s
  refine built_stage _ _ (fun pipe s => ?_) s
  have hsame {t n : Nat} (h : s.next ≤ n) : SameRest s { s with tick := t, next := n } :=
    ⟨h, rfl, rfl, rfl, rfl, rfl, fun _ _ => rfl⟩
  refine post_attempt (fun code => ?_) ?_
  · refine ⟨hsame le_rfl, rfl, quiet_failed _ _, (fun _ h => nomatch h),
      fun hn => absurd hn (not_noFault (List.mem_singleton.mpr rfl)), fun e h => ?_⟩
    cases h
    exact GpuErr.proper_driver _ _
  refine post_step (run_create _ _) (post_pure ?_)
  refine ⟨hsame (Nat.le_succ _), rfl, ⟨by simp, by simp⟩, fun o ho => ?_, fun _ => ⟨_, rfl⟩, nofun⟩
  cases ho
  rfl

/-- **The pipeline of a key** runs the shader of the key, cached or new. -/
theorem getPipe_meets {K : Kernel F} (hs : s.Valid) (key : Key) :
    Meets id K 0 [] s (some ()) (fun s' o _ => o.shader = key.shader ∧ s'.view K = s.view K ∧
      s'.allocs = s.allocs ∧ s'.batch = s.batch) (getPipe E key) := by
  unfold getPipe
  refine post_step (run_gets _ _) ?_
  cases hc : s.pipes.lookup key with
  | some objs => exact post_pure (Runs.answer (Extends.refl hs) ⟨hs.pipes _ _ hc, rfl, rfl, rfl⟩)
  | none =>
    have hext {t : List (Event F)} {s' : Sys F} (h : SameRest s s') (hm : s'.mem = s.mem)
        (ht : Quiet t) : Extends K 0 [] s s' t :=
      h.extends hs hm (fun cb c hc => absurd hc (ht.1 cb c)) ht.2
    refine post_bind (buildPipe_post key.shader s) (fun o s' t h => ?_) (fun e s' t h => ?_)
    · refine post_step (run_update _ _) (post_pure ?_)
      have he := hext h.rest h.mem h.quiet
      have hv : s'.view K = s.view K := by
        unfold Sys.view
        rw [h.mem, h.rest.pending_eq hs]
      have he' : Extends K 0 [] s { s' with pipes := (key, o) :: s'.pipes } t := by
        refine ⟨he.next_le, ⟨he.valid.cmd_lt, he.valid.pending, he.valid.sets, he.valid.handles,
          he.valid.handle_lt, fun k o' hk => ?_, he.valid.staging⟩, he.priv, he.view, he.mem, he.cmd, he.uses, he.records, he.closes⟩
        rw [List.lookup_cons] at hk
        cases hkk : k == key with
        | true =>
          rw [hkk] at hk
          cases hk
          rw [eq_of_beq hkk]
          exact h.sound o rfl
        | false =>
          rw [hkk] at hk
          exact he.valid.pipes k o' hk
      refine Runs.answer (by simpa using he') ⟨h.sound o rfl, hv, h.rest.allocs, h.rest.batch⟩
    · refine Runs.failed (by simpa using hext h.rest h.mem h.quiet) (fun hn => ?_) (h.proper e rfl)
      obtain ⟨a, ha⟩ := h.answers (by simpa using hn)
      cases ha

end Pipelines

/-! ## 8. Dispatches -/

section Dispatch

variable {K : Kernel F} {s : Sys F}

omit [Zero F] in
/-- An allocation of a set: the call fails, the pool is full, or there is one set more. -/
theorem allocSet_post (pool : Nat) (bufs : List GpuBuffer) (s : Sys F) :
    Post (allocSet E pool bufs) s fun r s' t =>
      ((∃ code, r = .error (.driver .allocSets code)) ∧ s' = { s with tick := s.tick + 1 } ∧ Quiet t ∧
        (NoFault t → 64 ≤ s.live pool)) ∨
      (r = .ok ⟨pool, s.next, bufs⟩ ∧ t = [] ∧ s' = { s with
        tick := s.tick + 1, next := s.next + 1, sets := s.sets ++ [⟨pool, s.next, bufs⟩] }) := by
  unfold allocSet
  refine post_attempt (fun code => Or.inl ⟨⟨_, rfl⟩, rfl, quiet_failed _ _, fun hn => ?_⟩) ?_
  · exact absurd hn (not_noFault (List.mem_singleton.mpr rfl))
  refine post_step (run_gets _ _) ?_
  by_cases h : 64 ≤ s.live pool
  · simp only [show 64 ≤ (s.sets.filter fun d => d.pool = pool).length from h, if_true]
    exact post_fail (Or.inl ⟨⟨_, rfl⟩, rfl, ⟨by simp, by simp⟩, fun _ => h⟩)
  · simp only [show ¬64 ≤ (s.sets.filter fun d => d.pool = pool).length from h, if_false]
    exact Or.inr ⟨rfl, rfl, rfl⟩

omit [Zero F] in
/-- The handle of a new set is new, whatever sets are left. -/
theorem nodup_new (hs : s.Valid) {pool : Nat} {bufs : List GpuBuffer} {sets : List DescSet}
    (h : sets.Sublist s.sets) :
    ((sets ++ [(⟨pool, s.next, bufs⟩ : DescSet)]).map DescSet.handle).Nodup := by
  rw [List.map_append, List.map_singleton, List.nodup_append]
  refine ⟨hs.handles.sublist (h.map _), List.nodup_singleton _, fun a ha b hb e => ?_⟩
  obtain ⟨d, hd, rfl⟩ := List.mem_map.mp ha
  rw [List.mem_singleton.mp hb] at e
  exact Nat.ne_of_lt (hs.handle_lt d (h.subset hd)) e

/-- With no batch open, a pool may hold one set. -/
theorem extends_sets (hs : s.Valid) (ho : s.openCmd = none) (sets : List DescSet)
    (hl : ∀ p, inPool p sets ≤ 1) (hd : (sets.map DescSet.handle).Nodup) {n next : Nat}
    (hn : s.next ≤ next) (hlt : ∀ d ∈ sets, d.handle < next) {t : List (Event F)} (ht : Quiet t) :
    Extends K 0 [] s { s with tick := n, next := next, sets := sets } t := by
  have hp (m : Nat) (h : s.Private m) :
      ({ s with tick := n, next := next, sets := sets } : Sys F).Private m :=
    ⟨lt_of_lt_of_le h.1 hn, h.2⟩
  have hb : s.batch = none := Option.map_eq_none_iff.mp ho
  refine ⟨hn, ⟨fun cb h => lt_of_lt_of_le (hs.cmd_lt cb h) hn,
    fun c hc m hm => hp m (hs.pending c hc m hm), ⟨sets, ?_, hl⟩, hd, hlt, hs.pipes,
    fun b hb => ⟨lt_of_lt_of_le (hs.staging b hb).1 hn, (hs.staging b hb).2⟩⟩, hp,
    fun _ _ _ => rfl, fun _ _ _ => rfl, rfl, fun _ => le_rfl, fun cb c h => absurd h (ht.1 cb c),
    fun cb h => absurd h (ht.2 cb)⟩
  unfold Sys.batchSets
  rw [hb, List.append_nil]

/-- A new set that the open batch tracks. -/
theorem extends_tracked {st : Batch} (hs : s.Valid) (hb : s.batch = some st) (pool : Nat)
    (bufs : List GpuBuffer) (tick : Nat) {t : List (Event F)} (ht : Quiet t) :
    let s' := { s with
      tick := tick, next := s.next + 1, sets := s.sets ++ [⟨pool, s.next, bufs⟩]
      batch := some { st with sets := st.sets ++ [⟨pool, s.next, bufs⟩] } }
    Extends K 1 [] s s' t ∧ s'.view K = s.view K := by
  intro s'
  have hn : s.next ≤ s.next + 1 := Nat.le_succ _
  have ho : s'.openCmd = s.openCmd := by
    unfold Sys.openCmd
    rw [hb]
    rfl
  have hp : s'.pending = s.pending := by
    unfold Sys.pending
    rw [hb]
  have hv : s'.view K = s.view K := by
    unfold Sys.view
    rw [hp]
  have hpr (m : Nat) (h : s.Private m) : s'.Private m := ⟨lt_of_lt_of_le h.1 hn, h.2⟩
  have htr : s'.batchSets = s.batchSets ++ [⟨pool, s.next, bufs⟩] := by
    unfold Sys.batchSets
    rw [hb]
  refine ⟨⟨hn, ⟨fun cb h => lt_of_lt_of_le (hs.cmd_lt cb (ho ▸ h)) hn,
    fun c hc m hm => hpr m (hs.pending c (hp ▸ hc) m hm), ?_, ?_, fun d hd => ?_, hs.pipes,
    fun b h => ⟨lt_of_lt_of_le (hs.staging b h).1 hn, (hs.staging b h).2⟩⟩, hpr,
    fun m _ _ => by rw [hv], fun _ _ _ => rfl, ho, fun p => ?_, fun cb c h => absurd h (ht.1 cb c),
    fun cb h => absurd h (ht.2 cb)⟩, hv⟩
  · obtain ⟨kept, hk, hle⟩ := hs.sets
    exact ⟨kept, by rw [htr, ← List.append_assoc, ← hk], hle⟩
  · exact nodup_new hs (List.Sublist.refl _)
  · rcases List.mem_append.mp hd with hd | hd
    · exact Nat.lt_succ_of_lt (hs.handle_lt d hd)
    · rw [List.mem_singleton.mp hd]
      exact Nat.lt_succ_self _
  · unfold Sys.tracked
    rw [htr, inPool_append]
    exact Nat.add_le_add_left (List.length_filter_le _ _) _

/-- What a dispatch makes of a memory. -/
def launched (K : Kernel F) (mem : Nat → List F) (shader : Shader) (push : List (Word F))
    (groups : Nat × Nat) (bufs : List GpuBuffer) : Nat → List F :=
  storeAll mem bufs (K shader push groups (bufs.map fun b => mem b.memory))

omit [Zero F] in
theorem dispatch_mems {o : PipeObjs} {push : List (Word F)} {set : DescSet} {groups : Nat × Nat}
    {c : Cmd F} (hc : c ∈ dispatchCmds o push set groups) {m : Nat} :
    (m ∈ c.mems → m ∈ set.bufs.map GpuBuffer.memory) ∧
      (m ∈ c.writes → m ∈ set.bufs.map GpuBuffer.memory) := by
  rcases List.mem_cons.mp hc with rfl | hc
  · exact ⟨fun h => (nomatch h), fun h => (nomatch h)⟩
  · rw [List.mem_singleton.mp hc]
    exact ⟨id, id⟩

/-- A dispatch that leaves the bound buffers outside `W` alone leaves every memory outside `W`. -/
theorem launched_keeps {mem : Nat → List F} {shader : Shader} {push : List (Word F)}
    {groups : Nat × Nat} {bufs : List GpuBuffer} {W : List Nat}
    (hW : ∀ b ∈ bufs, b.memory ∉ W → launched K mem shader push groups bufs b.memory = mem b.memory)
    {m : Nat} (hm : m ∉ W) : launched K mem shader push groups bufs m = mem m := by
  by_cases h : m ∈ bufs.map GpuBuffer.memory
  · obtain ⟨b, hb, rfl⟩ := List.mem_map.mp h
    exact hW b hb hm
  · exact storeAll_other h _

/-- The outcome of a dispatch: a refusal when the groups do not fit. -/
def fits (E : Env F) (groupsX : Nat) : Option Unit :=
  if (splitGroups groupsX E.maxGroupsX).2 > 65535 then none else some ()

omit [Zero F] in
theorem run_batchTrackSets_open {st : Batch} (set : DescSet) (hb : s.batch = some st) :
    batchTrackSets set s =
      ⟨.ok (), { s with batch := some { st with sets := st.sets ++ [set] } }, []⟩ := by
  unfold batchTrackSets
  rw [run_bind (run_gets _ _)]
  simp only [hb]
  rfl

omit [Zero F] in
theorem run_resetPool (pool : Nat) (s : Sys F) :
    resetPool pool s = ⟨.ok (), { s with sets := s.sets.filter fun d => d.pool ≠ pool },
      (s.sets.filter fun d => d.pool = pool).map fun d => .setFreed d.handle⟩ := by
  unfold resetPool
  rw [run_bind (run_gets _ _), run_bind (run_update _ _), each_emit]
  rfl

/-- The dispatch while a batch is open. -/
theorem dispatch_recorded (hs : s.Valid) {st : Batch} (hb : s.batch = some st) (o : PipeObjs)
    {bufs : List GpuBuffer} (hbufs : ∀ b ∈ bufs, s.Private b.memory) (groups : Nat × Nat)
    (push : List (Word F)) {W : List Nat} (hW : ∀ b ∈ bufs, b.memory ∉ W →
      launched E.kernel (s.view E.kernel) o.shader push groups bufs b.memory =
        s.view E.kernel b.memory) :
    Meets id E.kernel 1 W s (some ())
      (fun s' _ _ => s'.view E.kernel = launched E.kernel (s.view E.kernel) o.shader push groups bufs ∧
        s'.allocs = s.allocs)
      (do
        let set ← allocSet E o.pool bufs
        each (record st.cmd) (dispatchCmds o push set groups)
        batchTrackSets set) := by
  have hcb : s.openCmd = some st.cmd := by
    unfold Sys.openCmd
    rw [hb]
    rfl
  refine post_bind (allocSet_post o.pool bufs s) (fun set s1 t1 h1 => ?_) (fun e s1 t1 h1 => ?_)
  · rcases h1 with ⟨⟨e, he⟩, -⟩ | ⟨hset, rfl, rfl⟩
    · cases he
    cases hset
    refine post_step (each_record _ _ _) ?_
    have hp : ∀ c ∈ dispatchCmds o push ⟨o.pool, s.next, bufs⟩ groups, ∀ m ∈ c.mems, s.Private m := by
      intro c hc m hm
      obtain ⟨b, hb, rfl⟩ := List.mem_map.mp ((dispatch_mems hc).1 hm)
      exact hbufs b hb
    obtain ⟨he2, hv2⟩ := extends_record (K := E.kernel) hs hcb hp fun m _ hm =>
      launched_keeps hW hm
    obtain ⟨he3, hv3⟩ := extends_tracked (K := E.kernel) he2.valid hb o.pool bufs (s.tick + 1) (t := [])
      ⟨by simp, by simp⟩
    have hall := he2.trans he3 fun _ h => absurd h List.not_mem_nil
    refine post_run (run_batchTrackSets_open _ hb) (Runs.answer (by simpa using hall) ⟨?_, rfl⟩)
    exact hv3.trans hv2
  · rcases h1 with ⟨⟨code, he⟩, rfl, hq, hfull⟩ | ⟨h, -⟩
    · cases he
      refine ⟨((extends_tick hs _ hq).mono (Nat.zero_le 1) fun _ h => absurd h List.not_mem_nil),
        fun _ h => (nomatch h), fun hn hu => ?_, fun e h => ?_⟩
      swap
      · cases h
        exact GpuErr.proper_driver _ _
      have h1 := hfull hn
      have h2 := hs.live_le o.pool
      have h3 : s.tracked o.pool + 1 ≤ 63 := hu o.pool
      omega
    · cases h

omit [Zero F] in
/-- With no batch open a pool holds one set at most. -/
theorem live_closed (hs : s.Valid) (ho : s.openCmd = none) (p : Nat) : s.live p ≤ 1 := by
  have h := hs.live_le p
  unfold Sys.tracked Sys.batchSets at h
  rw [Option.map_eq_none_iff.mp ho] at h
  exact h

/-- A reset empties its pool, so the pool holds one set at most after the next allocation. -/
theorem inPool_reset {sets : List DescSet} (hl : ∀ p, inPool p sets ≤ 1) (d : DescSet) (p : Nat) :
    inPool p (sets.filter (fun d' => d'.pool ≠ d.pool) ++ [d]) ≤ 1 := by
  rw [inPool_append]
  by_cases hp : d.pool = p
  · have e : inPool p (sets.filter fun d' => d'.pool ≠ d.pool) = 0 := by
      unfold inPool
      rw [List.filter_filter, List.length_eq_zero_iff, List.filter_eq_nil_iff]
      intro d' _ h
      simp [hp] at h
    rw [e, Nat.zero_add]
    exact List.length_filter_le _ _
  · have e : inPool p [d] = 0 := by
      unfold inPool
      simp [hp]
    rw [e]
    exact le_trans (List.filter_sublist.filter _).length_le (hl p)

/-- The reset of a pool and the allocation of its next set. -/
theorem extends_reset (hs : s.Valid) (ho : s.openCmd = none) (pool : Nat) (bufs : List GpuBuffer)
    (tick : Nat) {t : List (Event F)} (ht : Quiet t) :
    Extends K 0 [] s { s with
      tick := tick
      next := s.next + 1
      sets := s.sets.filter (fun d => d.pool ≠ pool) ++ [⟨pool, s.next, bufs⟩] } t := by
  have hsub : (s.sets.filter fun d => d.pool ≠ pool).Sublist s.sets := List.filter_sublist
  refine extends_sets hs ho _ (inPool_reset (live_closed hs ho) ⟨pool, s.next, bufs⟩)
    (nodup_new hs hsub) (Nat.le_succ _) (fun d hd => ?_) ht
  rcases List.mem_append.mp hd with hd | hd
  · exact Nat.lt_succ_of_lt (hs.handle_lt d (hsub.subset hd))
  · rw [List.mem_singleton.mp hd]
    exact Nat.lt_succ_self _

/-- The submission of a dispatch. -/
theorem dispatch_submitted (hs : s.Valid) (ho : s.openCmd = none) (o : PipeObjs) (set : DescSet)
    (hbufs : ∀ b ∈ set.bufs, s.Private b.memory) (groups : Nat × Nat) (push : List (Word F))
    {W : List Nat} (hW : ∀ b ∈ set.bufs, b.memory ∉ W →
      launched K (s.view K) o.shader push groups set.bufs b.memory = s.view K b.memory)
    {r : Except GpuErr Unit} {s' : Sys F} {t : List (Event F)}
    (h : Submitted K (dispatchCmds o push set groups) s r s' t) :
    Runs K 0 W s (some ()) (fun s' _ _ => s'.view K =
      launched K (s.view K) o.shader push groups set.bufs ∧ s'.allocs = s.allocs) r s' t := by
  have he := extends_submitted (W := W) hs ho h (fun m _ hm => launched_keeps hW hm) fun b hb => by
    refine congrArg List.length (execCmds_other K fun c hc hm => ?_)
    obtain ⟨b', hb', e⟩ := List.mem_map.mp ((dispatch_mems hc).2 hm)
    exact (hbufs b' hb').2 b hb e.symm
  refine ⟨he, fun a ha => ⟨(), rfl, ?_, h.rest.allocs⟩, fun hn _ => Or.inl ⟨(), h.answers hn⟩,
    h.proper⟩
  refine (Sys.view_closed _ (he.cmd.trans ho)).trans ?_
  rw [h.ran ha, Sys.view_closed _ ho]
  rfl

/-- The dispatch with no batch open: the sets of the pool are freed first. -/
theorem dispatch_executed (hs : s.Valid) (ho : s.openCmd = none) (o : PipeObjs)
    {bufs : List GpuBuffer} (hbufs : ∀ b ∈ bufs, s.Private b.memory) (groups : Nat × Nat)
    (push : List (Word F)) {W : List Nat} (hW : ∀ b ∈ bufs, b.memory ∉ W →
      launched E.kernel (s.view E.kernel) o.shader push groups bufs b.memory =
        s.view E.kernel b.memory) :
    Meets id E.kernel 1 W s (some ())
      (fun s' _ _ => s'.view E.kernel = launched E.kernel (s.view E.kernel) o.shader push groups bufs ∧
        s'.allocs = s.allocs)
      (do
        attempt E .resetPool
        resetPool o.pool
        let set ← allocSet E o.pool bufs
        oneShot E (dispatchCmds o push set groups)) := by
  have hnil {s : Sys F} : ∀ m ∈ ([] : List Nat), s.Private m → m ∈ W :=
    fun _ h => absurd h List.not_mem_nil
  refine post_attempt (fun code => ?_) ?_
  · exact Runs.failed ((extends_tick hs _ (quiet_failed _ _)).mono (Nat.zero_le 1) hnil)
      (not_noFault (List.mem_singleton.mpr rfl)) (GpuErr.proper_driver _ _)
  refine post_step (run_resetPool _ _) ?_
  have hsub : (s.sets.filter fun d => d.pool ≠ o.pool).Sublist s.sets := List.filter_sublist
  have hrest (p : Nat) : inPool p (s.sets.filter fun d => d.pool ≠ o.pool) ≤ 1 :=
    le_trans (hsub.filter _).length_le (live_closed hs ho p)
  have hfreed : Quiet ((s.sets.filter fun d => d.pool = o.pool).map fun d =>
      (.setFreed d.handle : Event F)) := ⟨by simp, by simp⟩
  refine post_bind (allocSet_post o.pool bufs _) (fun set s1 t1 h1 => ?_) (fun e s1 t1 h1 => ?_)
  · rcases h1 with ⟨⟨e, he⟩, -⟩ | ⟨hset, rfl, rfl⟩
    · cases he
    cases hset
    have he1 := extends_reset (K := E.kernel) hs ho o.pool bufs (s.tick + 2) hfreed
    refine post_mono (oneShot_post _ _) fun r s2 t2 h2 => ?_
    have hran := dispatch_submitted (W := W) he1.valid ho o ⟨o.pool, s.next, bufs⟩
      (fun b hb => he1.priv _ (hbufs b hb)) groups push hW h2
    exact hran.after (he1.mono (Nat.zero_le 1) hnil) fun _ h _ => h
  · rcases h1 with ⟨⟨code, he⟩, rfl, hq, hfull⟩ | ⟨h, -⟩
    · cases he
      have he1 := extends_sets (K := E.kernel) hs ho _ hrest (hs.handles.sublist (hsub.map _))
        (n := s.tick + 2) le_rfl (fun d hd => hs.handle_lt d (hsub.subset hd)) (hfreed.append hq)
      -- the pool was emptied, so it is not full: the driver has failed
      refine Runs.failed (by simpa using he1.mono (Nat.zero_le 1) hnil) (fun hn => ?_)
        (GpuErr.proper_driver _ _)
      have h64 := hfull (noFault_append.mp hn).2
      exact absurd (le_trans h64 (hrest o.pool)) (by decide)
    · cases h

/-- **A dispatch** is the kernel on the view, whether it is recorded or has run. -/
theorem runComputePush_meets (hs : s.Valid) (shader : Shader) {bufs : List GpuBuffer}
    (hbufs : ∀ b ∈ bufs, s.Private b.memory) (groupsX : Nat) (push : List (Word F)) {W : List Nat}
    (hW : ∀ b ∈ bufs, b.memory ∉ W → launched E.kernel (s.view E.kernel) shader push
      (splitGroups groupsX E.maxGroupsX) bufs b.memory = s.view E.kernel b.memory) :
    Meets id E.kernel 1 W s (fits E groupsX)
      (fun s' _ _ => s'.view E.kernel = launched E.kernel (s.view E.kernel) shader push
          (splitGroups groupsX E.maxGroupsX) bufs ∧ s'.allocs = s.allocs)
      (runComputePush E shader bufs groupsX push) := by
  unfold runComputePush fits
  dsimp only
  have hnil {s : Sys F} : ∀ m ∈ ([] : List Nat), s.Private m → m ∈ W :=
    fun _ h => absurd h List.not_mem_nil
  by_cases hg : (splitGroups groupsX E.maxGroupsX).2 > 65535
  · rw [if_pos hg, if_pos hg]
    have he : Extends E.kernel 1 W s s [.refused E.stack] :=
      (extends_tick hs s.tick ⟨by simp, by simp⟩).mono (Nat.zero_le 1) hnil
    exact post_step (run_emit _ _) (post_fail (Runs.refused he (Or.inl ⟨_, _, rfl⟩)))
  · rw [if_neg hg, if_neg hg]
    refine post_bind (getPipe_meets hs ⟨shader, bufs.length, 4 * push.length⟩).run
      (fun o s1 t1 h1 => ?_)
      (fun e s1 t1 h1 => h1.carry (Nat.zero_le 1) hnil)
    obtain ⟨_, -, hsh, hv1, ha1, hb1⟩ := h1.sound o rfl
    have hbufs1 : ∀ b ∈ bufs, s1.Private b.memory := fun b hb => h1.ext.priv _ (hbufs b hb)
    have hsame : ∀ m ∈ W, s.Private m → m ∈ W := fun _ h _ => h
    have hW1 : ∀ b ∈ bufs, b.memory ∉ W → launched E.kernel (s1.view E.kernel) o.shader push
        (splitGroups groupsX E.maxGroupsX) bufs b.memory = s1.view E.kernel b.memory := by
      rw [hv1, hsh]
      exact hW
    refine post_step (run_gets _ _) ?_
    cases hb : s1.batch with
    | some st =>
      refine post_mono (dispatch_recorded h1.ext.valid hb o hbufs1
        (splitGroups groupsX E.maxGroupsX) push hW1) fun r s2 t2 h2 => ?_
      refine (h2.after (h1.ext.mono le_rfl hnil) hsame).mono le_rfl hsame fun _ _ h => ?_
      rw [h.1, h.2, hv1, ha1, hsh]
      exact ⟨rfl, rfl⟩
    | none =>
      have ho : s1.openCmd = none := by
        unfold Sys.openCmd
        rw [hb]
        rfl
      refine post_mono (dispatch_executed h1.ext.valid ho o hbufs1
        (splitGroups groupsX E.maxGroupsX) push hW1) fun r s2 t2 h2 => ?_
      refine (h2.after (h1.ext.mono le_rfl hnil) hsame).mono le_rfl hsame fun _ _ h => ?_
      rw [h.1, h.2, hv1, ha1, hsh]
      exact ⟨rfl, rfl⟩

end Dispatch

end Ssimulacra2
