/-
  File:      Ssimulacra2/Vulkan/Session.lean
  Subject:   The batch from its opening to its end, readbacks, and the release of owned buffers.

  A batch is opened from a closed context (`Opened`) and leaves a closed one (`Ended`) on every
  route: `end_batch`, a failing `end_batch` and the guard after it, or an abort. Whatever ran in
  between, the whole is an extension of the closed context (`extends_session`), so nothing of the
  batch is left for later calls.
-/
import Ssimulacra2.Vulkan.Steps

namespace Ssimulacra2

open Fallible Prog

variable {F : Type} [Zero F] {E : Env F}

/-! ## 1. Opening -/

/-- **A batch was opened**: the memory is as it was, nothing is recorded yet. -/
structure Opened (s s1 : Sys F) (t : List (Event F)) : Prop where
  next_le : s.next ≤ s1.next
  valid : s1.Valid
  staging : s1.staging = s.staging
  mem : s1.mem = s.mem
  allocs : s1.allocs = s.allocs
  pending : s1.pending = []
  uses : ∀ p, s1.tracked p = 0
  opened : ∃ cb, s1.openCmd = some cb ∧ Event.begun cb ∈ t ∧ Event.opened cb ∈ t
  quiet : Quiet t

section Open

variable {K : Kernel F} {s s1 : Sys F} {t : List (Event F)}

omit [Zero F] in
theorem Opened.priv (h : Opened s s1 t) {m : Nat} (hm : s.Private m) : s1.Private m :=
  ⟨lt_of_lt_of_le hm.1 h.next_le, fun st hst => hm.2 st (h.staging ▸ hst)⟩

theorem Opened.view (h : Opened s s1 t) : s1.view K = s.mem := by
  unfold Sys.view
  rw [h.pending, h.mem]
  rfl

theorem beginBatch_post (hs : s.Valid) (ho : s.openCmd = none) :
    Post (beginBatch E) s fun r s1 t =>
      (r = .ok () ∧ Opened s s1 t) ∨ ((∃ e, r = .error e ∧ e.Proper) ∧ Extends K 0 [] s s1 t ∧
        ¬NoFault t) := by
  have hb : s.batch = none := Option.map_eq_none_iff.mp ho
  have hsame {t n : Nat} (h : s.next ≤ n) : SameRest s { s with tick := t, next := n } :=
    ⟨h, rfl, rfl, rfl, rfl, rfl, fun _ _ => rfl⟩
  unfold beginBatch
  refine post_attempt (fun code => Or.inr ⟨⟨_, rfl, GpuErr.proper_driver _ _⟩, extends_tick hs _ (quiet_failed _ _), ?_⟩) ?_
  · exact not_noFault (List.mem_singleton.mpr rfl)
  refine post_step (run_create _ _) ?_
  refine post_attempt (fun code => Or.inr ⟨⟨_, rfl, GpuErr.proper_driver _ _⟩, ?_, ?_⟩) ?_
  · exact (hsame (Nat.le_succ _)).extends hs rfl (by simp) (by simp)
  · exact not_noFault (List.mem_append_right _ (List.mem_singleton.mpr rfl))
  refine post_step (run_begun _ _) (post_step (run_gets _ _) ?_)
  simp only [hb, Option.isSome_none, Bool.false_eq_true, if_false]
  refine post_step (run_update _ _) (post_emit (Or.inl ⟨rfl, ?_⟩))
  have hsets : ∃ kept, s.sets = kept ++ ([] : List DescSet) ∧ ∀ p, inPool p kept ≤ 1 := by
    obtain ⟨kept, hk, hle⟩ := hs.sets
    unfold Sys.batchSets at hk
    rw [hb] at hk
    exact ⟨kept, hk, hle⟩
  have hpend : Function.update s.recorded s.next [] s.next = ([] : List (Cmd F)) :=
    Function.update_self _ _ _
  refine ⟨Nat.le_succ _, ⟨fun cb h => ?_, fun c hc => ?_, hsets, hs.handles,
    fun d hd => Nat.lt_succ_of_lt (hs.handle_lt d hd), hs.pipes, fun b hb => ?_⟩, rfl, rfl, rfl, hpend,
    fun _ => rfl, ⟨s.next, rfl, by simp, by simp⟩, ⟨by simp, by simp⟩⟩
  · cases h
    exact Nat.lt_succ_self _
  · have hc : c ∈ Function.update s.recorded s.next [] s.next := hc
    rw [hpend] at hc
    cases hc
  · obtain ⟨h1, h2⟩ := hs.staging b hb
    exact ⟨Nat.lt_succ_of_lt h1, h2⟩

end Open

/-! ## 2. Ending -/

/-- **A batch was ended**, by whatever route: its commands have run or not, and the context is
    closed. -/
structure Ended (K : Kernel F) (s s' : Sys F) (t : List (Event F)) : Prop where
  next_le : s.next ≤ s'.next
  valid : s'.Valid
  staging : s'.staging = s.staging
  allocs : s'.allocs = s.allocs
  cmd : s'.openCmd = none
  mem : s'.mem = s.mem ∨ s'.mem = s.view K
  records : ∀ cb c, Event.recorded cb c ∈ t → Event.begun cb ∈ t
  closes : ∀ cb, Event.closed cb ∈ t → s.openCmd = some cb

section End

variable {K : Kernel F} {s s' : Sys F} {t : List (Event F)}

theorem Ended.refl (hs : s.Valid) (ho : s.openCmd = none) : Ended K s s [] where
  next_le := le_rfl
  valid := hs
  staging := rfl
  allocs := rfl
  cmd := ho
  mem := Or.inl rfl
  records _ _ h := nomatch h
  closes _ h := nomatch h

omit [Zero F] in
theorem each_freeSet (sets : List DescSet) (s : Sys F) :
    each freeSet sets s =
      ⟨.ok (), { s with sets := s.sets.filter fun d => d.handle ∉ sets.map DescSet.handle },
        sets.map fun d => .setFreed d.handle⟩ := by
  induction sets generalizing s with
  | nil =>
    have e : (s.sets.filter fun d => d.handle ∉ ([] : List DescSet).map DescSet.handle) = s.sets := by
      simp
    rw [e]
    rfl
  | cons d sets ih =>
    have hd : freeSet d s = ⟨.ok (), { s with sets := s.sets.filter fun d' => d'.handle ≠ d.handle },
        [.setFreed d.handle]⟩ := rfl
    show andThen (freeSet d) (fun _ => each freeSet sets) s = _
    simp only [andThen, hd, ih, List.filter_filter, List.map_cons, List.singleton_append]
    have e : (fun d' : DescSet => decide (d'.handle ∉ sets.map DescSet.handle) &&
        decide (d'.handle ≠ d.handle)) =
        fun d' : DescSet => decide (d'.handle ∉ d.handle :: sets.map DescSet.handle) := by
      funext d'
      simp [not_or, Bool.and_comm]
    rw [e]

omit [Zero F] in
theorem each_destroy (trash : List GpuBuffer) (s : Sys F) :
    each destroyBufferNow trash s =
      ⟨.ok (), s, trash.flatMap fun b => b.res.map .released⟩ := by
  induction trash with
  | nil => rfl
  | cons b trash ih =>
    have hb : destroyBufferNow b s = ⟨.ok (), s, b.res.map .released⟩ := rfl
    show andThen (destroyBufferNow b) (fun _ => each destroyBufferNow trash) s = _
    simp only [andThen, hb, ih, List.flatMap_cons]

omit [Zero F] in
/-- What `finish_batch` releases at its end. -/
theorem run_releaseBatch (st : Batch) (s : Sys F) :
    releaseBatch st s =
      ⟨.ok (), { s with sets := s.sets.filter fun d => d.handle ∉ st.sets.map DescSet.handle },
        (st.sets.map fun d => .setFreed d.handle) ++
          ((st.trash.flatMap fun b => b.res.map .released) ++ [.released ⟨.cmdBuf, st.cmd⟩])⟩ := by
  unfold releaseBatch
  rw [run_bind (each_freeSet _ _), run_bind (each_destroy _ _)]
  rfl

omit [Zero F] in
/-- Freeing the sets of the batch leaves those from before it. -/
theorem freed_kept (hs : ∃ kept, s.sets = kept ++ s.batchSets ∧ ∀ p, inPool p kept ≤ 1) {st : Batch}
    (hb : s.batch = some st) :
    ∀ p, inPool p (s.sets.filter fun d => d.handle ∉ st.sets.map DescSet.handle) ≤ 1 := by
  obtain ⟨kept, hk, hle⟩ := hs
  have hbs : s.batchSets = st.sets := by
    unfold Sys.batchSets
    rw [hb]
  rw [hbs] at hk
  intro p
  have e : (st.sets.filter fun d => d.handle ∉ st.sets.map DescSet.handle) = [] := by
    rw [List.filter_eq_nil_iff]
    intro d hd h
    exact (of_decide_eq_true h) (List.mem_map_of_mem hd)
  rw [hk, List.filter_append, e, List.append_nil]
  exact le_trans (List.filter_sublist.filter _).length_le (hle p)

omit [Zero F] in
theorem freed_sets (hs : s.Valid) {st : Batch} (hb : s.batch = some st) :
    ∀ p, inPool p (s.sets.filter fun d => d.handle ∉ st.sets.map DescSet.handle) ≤ 1 :=
  freed_kept hs.sets hb

omit [Zero F] in
theorem run_takeBatch_open {st : Batch} (hb : s.batch = some st) :
    takeBatch s = ⟨.ok st, { s with batch := none }, [.closed st.cmd]⟩ := by
  unfold takeBatch
  rw [run_bind (run_gets _ _)]
  simp only [hb]
  rfl

/-- With no batch open there is nothing to end. -/
theorem run_finishBatch_closed (submit : Bool) (ho : s.openCmd = none) :
    finishBatch E submit s = ⟨.error .noBatchOpen, s, []⟩ := by
  have hb : s.batch = none := Option.map_eq_none_iff.mp ho
  have ht : takeBatch s = ⟨.error .noBatchOpen, s, []⟩ := by
    unfold takeBatch
    rw [run_bind (run_gets _ _)]
    simp only [hb]
    rfl
  have hr : (takeBatch s).result = .error .noBatchOpen := by rw [ht]
  unfold finishBatch
  rw [bind_error _ hr, ht]

/-- The commands of the batch leave the staging memory alone. -/
theorem view_staging (hs : s.Valid) {b : GpuBuffer} (hb : s.staging = some b) :
    s.view K b.memory = s.mem b.memory := by
  refine execCmds_other K fun c hc hm => ?_
  have hm' : b.memory ∈ c.mems := by
    cases c with
    | copy src dst off size => exact List.mem_cons_of_mem _ hm
    | barrier => exact hm
    | dispatch shader push set groups => exact hm
  exact (hs.pending c hc _ hm').2 b hb rfl

omit [Zero F] in
theorem Sys.Valid.closed (hb : s.batch = none) (hl : ∀ p, inPool p s.sets ≤ 1)
    (hd : (s.sets.map DescSet.handle).Nodup) (hlt : ∀ d ∈ s.sets, d.handle < s.next)
    (hp : ∀ k o, s.pipes.lookup k = some o → o.shader = k.shader)
    (hst : ∀ b, s.staging = some b → b.memory < s.next ∧ (s.mem b.memory).length = b.size / 4) :
    s.Valid where
  cmd_lt cb h := by
    unfold Sys.openCmd at h
    rw [hb] at h
    cases h
  pending c hc := by
    unfold Sys.pending at hc
    rw [hb] at hc
    cases hc
  sets := by
    refine ⟨s.sets, ?_, hl⟩
    unfold Sys.batchSets
    rw [hb, List.append_nil]
  handles := hd
  handle_lt := hlt
  pipes := hp
  staging := hst

/-- **`finish_batch`** ends the open batch on every path, and has run its commands when it answers
    and was to submit them. -/
theorem finishBatch_post (submit : Bool) (hs : s.Valid) {cb : Nat} (hcb : s.openCmd = some cb) :
    Post (finishBatch E submit) s fun r s' t => Ended E.kernel s s' t ∧
      (r = .ok () → submit = true → s'.mem = s.view E.kernel) ∧
      (submit = false → s'.mem = s.mem) ∧ (NoFault t → r = .ok ()) ∧
      ∀ e, r = .error e → e.Proper := by
  obtain ⟨st, hb, rfl⟩ := Option.map_eq_some_iff.mp hcb
  have hv : s.view E.kernel = execCmds E.kernel s.mem (s.recorded st.cmd) := by
    unfold Sys.view Sys.pending
    rw [hb]
  unfold finishBatch
  refine post_step (run_takeBatch_open hb) ?_
  refine post_ensure (M := fun r s' t => SameRest { s with batch := none } s' ∧
    (s'.mem = s.mem ∨ s'.mem = s.view E.kernel) ∧
    (r = .ok () → submit = true → s'.mem = s.view E.kernel) ∧
    (submit = false → s'.mem = s.mem) ∧ (NoFault t → r = .ok ()) ∧
    (∀ e, r = .error e → e.Proper) ∧ (∀ cb c, Event.recorded cb c ∈ t → Event.begun cb ∈ t) ∧ ∀ cb, Event.closed cb ∉ t) ?_ ?_
  · have hrefl {t : Nat} : SameRest { s with batch := none } { s with tick := t, batch := none } :=
      ⟨le_rfl, rfl, rfl, rfl, rfl, rfl, fun _ _ => rfl⟩
    refine post_attempt (fun code => ?_) ?_
    · refine ⟨hrefl, Or.inl rfl, (fun h => nomatch h), fun _ => rfl,
        fun hn => absurd hn (not_noFault (List.mem_singleton.mpr rfl)), fun e h => ?_, by simp,
        by simp⟩
      cases h
      exact GpuErr.proper_driver _ _
    cases submit with
    | false =>
      simp only [Bool.false_eq_true, if_false]
      exact post_pure ⟨hrefl, Or.inl rfl, (fun _ h => nomatch h), fun _ => rfl, fun _ => rfl,
        nofun, by simp, by simp⟩
    | true =>
      simp only [if_true]
      refine post_mono (submitWait_post _ _ _ _ _) fun r s' t h => ?_
      refine ⟨hrefl.trans h.rest, ?_, fun hr _ => ?_, (fun h => nomatch h), h.answers, h.proper,
        h.records, h.closes⟩
      · rw [hv]
        exact h.mem
      · rw [hv]
        exact h.ran hr
  · rintro r s' t ⟨hr, hmem, hok, hskip, hn, hp, hrec, hcl⟩
    refine post_run (run_releaseBatch st s') ?_
    have hfil : (s'.sets.filter fun d => d.handle ∉ st.sets.map DescSet.handle).Sublist s.sets := by
      rw [hr.sets]
      exact List.filter_sublist
    have hvalid : Sys.Valid { s' with
        sets := s'.sets.filter fun d => d.handle ∉ st.sets.map DescSet.handle } := by
      refine .closed hr.batch ?_ (hs.handles.sublist (hfil.map _))
        (fun d hd => lt_of_lt_of_le (hs.handle_lt d (hfil.subset hd)) hr.next_le)
        (fun k o h => hs.pipes k o (hr.pipes ▸ h)) fun b h => ?_
      · have h := freed_sets hs hb
        rw [← show s'.sets = s.sets from hr.sets] at h
        exact h
      · have hb' : s.staging = some b := hr.staging ▸ h
        obtain ⟨h1, h2⟩ := hs.staging b hb'
        refine ⟨lt_of_lt_of_le h1 hr.next_le, Eq.trans ?_ h2⟩
        rcases hmem with e | e
        · exact congrArg List.length (congrFun e _)
        · exact congrArg List.length ((congrFun e _).trans (view_staging hs hb'))
    refine ⟨⟨hr.next_le, hvalid, hr.staging, hr.allocs, ?_, hmem, fun cb c h => ?_, fun cb h => ?_⟩, hok,
      hskip, fun h => hn (noFault_append.mp (noFault_append.mp h).2).1, hp⟩
    · exact Option.map_eq_none_iff.mpr hr.batch
    · simp only [List.mem_append, List.mem_singleton, List.mem_map, List.mem_flatMap] at h
      simp at h
      simp [hrec cb c h]
    · simp only [List.mem_append, List.mem_singleton, List.mem_map, List.mem_flatMap] at h
      simp [hcl] at h
      rw [h]
      exact hcb

theorem Ended.trans {s'' : Sys F} {t' : List (Event F)} (h : Ended K s s' t)
    (h' : Ended K s' s'' t') : Ended K s s'' (t ++ t') where
  next_le := le_trans h.next_le h'.next_le
  valid := h'.valid
  staging := h'.staging.trans h.staging
  allocs := h'.allocs.trans h.allocs
  cmd := h'.cmd
  mem := by
    have e : s''.mem = s'.mem := by
      rcases h'.mem with e | e
      · exact e
      · rw [e, Sys.view_closed K h.cmd]
    rw [e]
    exact h.mem
  records cb c hc := by
    rcases List.mem_append.mp hc with hc | hc
    · exact List.mem_append_left _ (h.records cb c hc)
    · exact List.mem_append_right _ (h'.records cb c hc)
  closes cb hc := by
    rcases List.mem_append.mp hc with hc | hc
    · exact h.closes cb hc
    · have h1 := h'.closes cb hc
      rw [h.cmd] at h1
      cases h1

/-- **An abort** closes the context and runs nothing, also when there is nothing to abort. -/
theorem abortBatch_post (hs : s.Valid) :
    Post (abortBatch E) s fun _ s' t => Ended E.kernel s s' t ∧ s'.mem = s.mem := by
  cases ho : s.openCmd with
  | none => exact post_run (run_finishBatch_closed false ho) ⟨.refl hs ho, rfl⟩
  | some cb => exact post_mono (finishBatch_post false hs ho) fun r s' t h => ⟨h.1, h.2.2.1 rfl⟩

end End

/-! ## 3. A whole batch -/

/-- The context after a batch that was submitted: the view has become the memory. -/
structure Settled (K : Kernel F) (s s' : Sys F) : Prop where
  next_le : s.next ≤ s'.next
  staging : s'.staging = s.staging
  cmd : s'.openCmd = none
  mem : s'.mem = s.view K

section Session

variable {K : Kernel F} {k : Nat} {W : List Nat} {s s1 s2 s3 : Sys F} {t1 t2 t3 : List (Event F)}

theorem Settled.priv (h : Settled K s s1) {m : Nat} (hm : s.Private m) : s1.Private m :=
  ⟨lt_of_lt_of_le hm.1 h.next_le, fun st hst => hm.2 st (h.staging ▸ hst)⟩

theorem Holds.settled {b : GpuBuffer} {xs : List F} (h : Holds K s b xs) (hs : Settled K s s1) :
    Holds K s1 b xs where
  priv := hs.priv h.priv
  view := by rw [Sys.view_closed K hs.cmd, hs.mem, h.view]
  size := h.size

theorem Opened.holds (ho : s.openCmd = none) (h : Opened s s1 t1) {b : GpuBuffer} {xs : List F}
    (hb : Holds K s b xs) : Holds K s1 b xs where
  priv := h.priv hb.priv
  view := by rw [h.view, ← Sys.view_closed K ho, hb.view]
  size := hb.size

/-- **From opening to end** the closed context is extended, however the batch ended. -/
theorem extends_session (ho : s.openCmd = none) (h1 : Opened s s1 t1) (h2 : Extends K k W s1 s2 t2)
    (h3 : Ended K s2 s3 t3) : Extends K 0 W s s3 (t1 ++ (t2 ++ t3)) := by
  obtain ⟨cb1, hcb, hbegun, hopened⟩ := h1.opened
  have hne : s1.openCmd ≠ none := by rw [hcb]; exact Option.some_ne_none _
  refine ⟨le_trans h1.next_le (le_trans h2.next_le h3.next_le), h3.valid, fun m hm => ?_,
    fun m hm hmW => ?_, fun h => absurd ho h, by rw [h3.cmd, ho], fun p => ?_, fun cb c hc => Or.inr ?_,
    fun cb hc => ?_⟩
  · have hp := h2.priv m (h1.priv hm)
    exact ⟨lt_of_lt_of_le hp.1 h3.next_le, fun st hst => hp.2 st (h3.staging ▸ hst)⟩
  · rw [Sys.view_closed K h3.cmd, Sys.view_closed K ho]
    rcases h3.mem with e | e
    · rw [e, h2.mem hne m (h1.priv hm), h1.mem]
    · rw [e, h2.view m (h1.priv hm) hmW, h1.view]
  · have hb : s3.batch = none := Option.map_eq_none_iff.mp h3.cmd
    unfold Sys.tracked Sys.batchSets
    rw [hb]
    exact Nat.zero_le _
  · rcases List.mem_append.mp hc with hc | hc
    · exact absurd hc (h1.quiet.1 cb c)
    rcases List.mem_append.mp hc with hc | hc
    · rcases h2.records cb c hc with e | e
      · rw [hcb] at e
        cases e
        exact List.mem_append_left _ hbegun
      · exact List.mem_append_right _ (List.mem_append_left _ e)
    · exact List.mem_append_right _ (List.mem_append_right _ (h3.records cb c hc))
  · rcases List.mem_append.mp hc with hc | hc
    · exact absurd hc (h1.quiet.2 cb)
    rcases List.mem_append.mp hc with hc | hc
    · exact List.mem_append_right _ (List.mem_append_left _ (h2.closes cb hc))
    · have e := h3.closes cb hc
      rw [h2.cmd, hcb] at e
      cases e
      exact List.mem_append_left _ hopened

variable {α V : Type} {owned : List GpuBuffer} {v : Option V} {R S : Sys F → α → V → Prop}

/-- What the pass of a batch leaves: a run, and after an error perhaps an abort of its own. -/
def Passed (E : Env F) (k : Nat) (W : List Nat) (s : Sys F) (v : Option V)
    (R : Sys F → α → V → Prop) (r : Except GpuErr α) (p : Sys F × List GpuBuffer)
    (t : List (Event F)) : Prop :=
  match r with
  | .ok a => Runs E.kernel k W s v R (.ok a) p.1 t
  | .error e => ∃ s2 t2 t3, t = t2 ++ t3 ∧ Runs E.kernel k W s v R (.error e) s2 t2 ∧
      Post (abortBatch E) p.1 fun _ s3 t4 => Ended E.kernel s2 s3 (t3 ++ t4)

theorem passed_of_meets {pass : Guarded F α}
    (h : Meets Prod.fst E.kernel k W (s, owned) v R pass) :
    Post pass (s, owned) (Passed E k W s v R) := by
  refine post_mono h fun r p t hr => ?_
  cases r with
  | ok a => exact hr
  | error e =>
    exact ⟨p.1, t, [], (List.append_nil t).symm, hr,
      post_mono (abortBatch_post hr.ext.valid) fun _ _ _ h' => h'.1⟩

/-- The abort in front of the error. -/
theorem passed_abortOnError {pass : Guarded F α}
    (h : Meets Prod.fst E.kernel k W (s, owned) v R pass) :
    Post (abortOnError E pass) (s, owned) (Passed E k W s v R) := by
  refine post_onError h (fun a p t hr => hr) fun e p t hr => ?_
  refine post_lift (post_mono (abortBatch_post hr.ext.valid) fun _ s3 t' h' => ?_)
  refine ⟨p.1, t, t', rfl, hr, ?_⟩
  exact post_mono (abortBatch_post h'.1.valid) fun _ s4 t4 h4 => h'.1.trans h4.1

/-- **What runs while the guard is armed**: the pass on the device, then the memory as the pass
    left the view; any error leaves a closed context. -/
theorem armedBatch_meets {o : List GpuBuffer} {pass : Guarded F α} (hs : s.Valid)
    (ho : s.openCmd = none) (hk : k ≤ 63)
    (hpass : ∀ s1 t, Opened s s1 t → Post pass (s1, o) (Passed E k W s1 v R))
    (hrel : ∀ s2 s3 a x, Settled E.kernel s2 s3 → R s2 a x → S s3 a x) :
    Meets Prod.fst E.kernel 0 W (s, o) v S (armedBatch E pass) := by
  unfold armedBatch
  refine post_bind (post_lifted (beginBatch_post (K := E.kernel) hs ho)) ?_ ?_
  · rintro ⟨⟩ ⟨s1, owned1⟩ t1 ⟨⟨-, h1⟩ | ⟨⟨e, he, -⟩, -⟩, rfl⟩
    · refine post_onError (M := fun r p t => (∀ a, r = .ok a → Runs E.kernel 0 W s v S (.ok a) p.1
        (t1 ++ t)) ∧ ∀ e, r = .error e → Post (abortBatch E) p.1 fun _ s' t' =>
          Runs E.kernel 0 W s v S (.error e : Except GpuErr α) s' (t1 ++ (t ++ t')))
        (post_bind (hpass s1 t1 h1) (fun a p2 t2 h2 => ?_) (fun e p2 t2 h2 => ?_))
        (fun a p t h => h.1 a rfl) fun e p t h => post_lift (h.2 e rfl)
      · have hval := h2.ext.valid
        obtain ⟨cb, hcb, -⟩ := h1.opened
        refine post_bind (post_lifted (finishBatch_post true hval (h2.ext.cmd.trans hcb))) ?_ ?_
        · rintro ⟨⟩ ⟨s3, owned3⟩ t3 ⟨⟨h3, hmem, -⟩, -⟩
          refine post_pure ⟨fun a' ha => ?_, fun _ he => (nomatch he)⟩
          cases ha
          refine ⟨by simpa using extends_session ho h1 h2.ext h3, fun a' ha => ?_,
            fun _ _ => Or.inl ⟨a, rfl⟩, nofun⟩
          obtain ⟨x, hx, hr⟩ := h2.sound a' ha
          exact ⟨x, hx, hrel _ _ _ _ ⟨h3.next_le, h3.staging, h3.cmd, hmem rfl rfl⟩ hr⟩
        · rintro e ⟨s3, owned3⟩ t3 ⟨⟨h3, -, -, hn, hp⟩, -⟩
          refine ⟨fun _ ha => (nomatch ha), fun e' he => ?_⟩
          cases he
          refine post_mono (abortBatch_post h3.valid) fun _ s4 t4 h4 => ?_
          refine Runs.failed (by simpa using extends_session ho h1 h2.ext (h3.trans h4.1))
            (fun h => ?_) (hp e rfl)
          simp only [noFault_append] at h
          cases hn h.2.1.2
      · obtain ⟨s2, t2', t3, rfl, hr, hab⟩ := h2
        refine ⟨fun _ ha => (nomatch ha), fun _ he => post_mono hab fun _ s3 t4 h3 => ?_⟩
        cases he
        refine ⟨by simpa using extends_session ho h1 hr.ext h3, fun _ hb => (nomatch hb),
          fun hn _ => ?_, hr.proper⟩
        simp only [noFault_append] at hn
        refine hr.answers hn.2.1.1 fun q => ?_
        rw [h1.uses q]
        omega
    · cases he
  · rintro e ⟨s1, owned1⟩ t1 ⟨⟨he, -⟩ | ⟨⟨e', he, hp⟩, h1, hn⟩, -⟩
    · cases he
    · cases he
      exact Runs.failed (h1.mono le_rfl fun _ h => absurd h List.not_mem_nil) hn hp

end Session

/-- With no batch open no set is tracked, so nothing adds up. -/
theorem Meets.closed {σ α V : Type} {sys : σ → Sys F} {K : Kernel F} {k : Nat} {W : List Nat} {p : σ}
    {v : Option V} {R : Sys F → α → V → Prop} {m : Prog σ GpuErr (Event F) α}
    (h : Meets sys K k W p v R m) (ho : (sys p).openCmd = none) (hk : k ≤ 63) :
    Meets sys K 0 W p v R m := by
  have hz {s : Sys F} (ho : s.openCmd = none) (q : Nat) : s.tracked q = 0 := by
    unfold Sys.tracked Sys.batchSets
    rw [Option.map_eq_none_iff.mp ho]
    rfl
  refine post_mono h fun r p' t hr => ⟨{ hr.ext with uses := fun q => ?_ }, hr.sound,
    fun hn _ => ?_, hr.proper⟩
  · rw [hz (hr.ext.cmd.trans ho)]
    exact Nat.zero_le _
  · refine hr.answers hn fun q => ?_
    rw [hz ho]
    omega

/-! ## 4. Owned buffers -/

section Scopes

variable {K : Kernel F} {s : Sys F} {α V : Type} {v : Option V}

/-- Releasing owned buffers changes nothing that is in use. -/
theorem dropAll_post (owned : List GpuBuffer) (hs : s.Valid) :
    Post (dropAll destroyBuffer owned) s fun r s' t => r = .ok () ∧ Extends K 0 [] s s' t := by
  unfold dropAll
  generalize owned.reverse = bufs
  induction bufs generalizing s with
  | nil => exact post_pure ⟨rfl, Extends.refl hs⟩
  | cons b bufs ih =>
    refine post_bind (destroyBuffer_post (K := K) hs b) (fun _ s1 t1 h1 => ?_) fun e s1 t1 h1 => ?_
    · refine post_mono (ih h1.2.1.valid) fun r s2 t2 h2 => ⟨h2.1, ?_⟩
      exact h1.2.1.trans h2.2 fun _ h => absurd h List.not_mem_nil
    · cases h1.1

/-- **A scope**: its buffers are released, its value stays. -/
theorem withOwner_meets {k : Nat} {R : Sys F → α → V → Prop} {body : Guarded F α}
    (h : Meets Prod.fst K k [] (s, []) v R body)
    (hrel : ∀ s1 s2 t a x, Extends K 0 [] s1 s2 t → R s1 a x → R s2 a x) :
    Meets id K k [] s v R (withOwner destroyBuffer body) := by
  refine post_withOwner h fun r s1 owned t h1 => ?_
  refine post_mono (dropAll_post (K := K) owned h1.ext.valid) fun _ s2 t2 h2 => ?_
  refine ⟨h1.ext.trans h2.2 fun _ h => absurd h List.not_mem_nil, fun a ha => ?_, fun hn hu => ?_,
    h1.proper⟩
  · obtain ⟨x, hx, hr⟩ := h1.sound a ha
    exact ⟨x, hx, hrel _ _ _ _ _ h2.2 hr⟩
  · exact h1.answers (noFault_append.mp hn).1 hu

/-- **A scope that hands over**: the value stays, with the buffers it needs. -/
theorem handOver_meets {k : Nat} {R : Sys F → α → V → Prop} {body : Guarded F α}
    (h : Meets Prod.fst K k [] (s, []) v R body) :
    Meets id K k [] s v (fun s' a x => R s' a.2 x) (handOver destroyBuffer body) := by
  refine post_handOver h (fun a s1 owned t h1 => ?_) fun e s1 owned t h1 => ?_
  · refine ⟨h1.ext, fun p hp => ?_, fun hn hu => Or.inl ⟨_, rfl⟩, nofun⟩
    cases hp
    exact h1.sound a rfl
  · refine post_mono (dropAll_post (K := K) owned h1.ext.valid) fun _ s2 t2 h2 => ?_
    refine ⟨h1.ext.trans h2.2 fun _ h => absurd h List.not_mem_nil, fun _ hb => (nomatch hb),
      fun hn hu => ?_, fun e' h => ?_⟩
    swap
    · cases h
      exact h1.proper e rfl
    rcases h1.answers (noFault_append.mp hn).1 hu with ⟨a, ha⟩ | ⟨hv, e', he, hr⟩
    · cases ha
    · cases he
      exact Or.inr ⟨hv, e, rfl, hr⟩

end Scopes

/-! ## 5. Readbacks -/

section Readback

variable {K : Kernel F} {s : Sys F}

/-- A new staging buffer. -/
theorem extends_staging {s0 s1 : Sys F} {t : List (Event F)} {b : GpuBuffer}
    (ho : s1.openCmd = none) (he : Extends K 0 [] s0 s1 t) (hb : s0.next ≤ b.memory)
    (hlt : b.memory < s1.next) (hlen : (s1.mem b.memory).length = b.size / 4)  :
    Extends K 0 [] s0 { s1 with staging := some b } t := by
  have hp : s1.pending = [] := by
    unfold Sys.pending
    rw [Option.map_eq_none_iff.mp ho]
  refine ⟨he.next_le, ⟨he.valid.cmd_lt, fun c hc => ?_, he.valid.sets, he.valid.handles,
    he.valid.handle_lt, he.valid.pipes, fun b' h => ?_⟩, fun m hm => ⟨(he.priv m hm).1, fun st h => ?_⟩,
    he.view, he.mem, he.cmd, he.uses, he.records, he.closes⟩
  · rw [show Sys.pending { s1 with staging := some b } = s1.pending from rfl, hp] at hc
    cases hc
  · cases h
    exact ⟨hlt, hlen⟩
  · cases h
    exact Nat.ne_of_gt (lt_of_lt_of_le hm.1 hb)

/-- A staging buffer that holds at least `n` words. -/
def Staged (n : Nat) (s : Sys F) (b : GpuBuffer) : Prop :=
  s.staging = some b ∧ n ≤ (s.mem b.memory).length ∧ s.openCmd = none

theorem newStaging_meets (hs : s.Valid) (ho : s.openCmd = none) (n : Nat) :
    Meets id E.kernel 0 [] s (some ()) (fun s' b _ => Staged n s' b) (newStaging E (4 * n)) := by
  have hnil {s : Sys F} : ∀ m ∈ ([] : List Nat), s.Private m → m ∈ ([] : List Nat) := fun _ h _ => h
  -- the state after an allocation, then the cell
  have hput {s1 s2 : Sys F} {t t' : List (Event F)} {b : GpuBuffer} (h0 : Extends E.kernel 0 [] s s1 t)
      (h1 : Runs E.kernel 0 [] s1 (some (fit n (E.junk s1.allocs)))
        (fun s' b xs => Holds E.kernel s' b xs ∧ s1.next ≤ b.buffer ∧ s1.next ≤ b.memory ∧
          s'.allocs = s1.allocs + 1 ∧ s'.pending = s1.pending) (.ok b) s2 t') :
      Extends E.kernel 0 [] s { s2 with staging := some b } (t ++ t') ∧
        Staged n { s2 with staging := some b } b := by
    obtain ⟨_, hx, hb, -, hnew, -⟩ := h1.sound b rfl
    cases hx
    have he := h0.trans h1.ext hnil
    have ho2 : s2.openCmd = none := by rw [he.cmd, ho]
    have hmem : s2.mem b.memory = fit n (E.junk s1.allocs) := by
      rw [← hb.view, Sys.view_closed _ ho2]
    refine ⟨extends_staging ho2 he (le_trans h0.next_le hnew) hb.priv.1 ?_, rfl, ?_, ho2⟩
    · rw [hmem, hb.size, Nat.mul_div_cancel_left _ (by decide)]
    · exact le_of_eq ((congrArg List.length hmem).trans (fit_length _ _)).symm
  let M (r : Except GpuErr (Except GpuErr GpuBuffer)) (s' : Sys F) (t : List (Event F)) : Prop :=
    ∃ r', r = .ok r' ∧ Runs E.kernel 0 [] s (some (fit n (E.junk s.allocs)))
      (fun s' b xs => Holds E.kernel s' b xs ∧ s.next ≤ b.buffer ∧ s.next ≤ b.memory ∧
        s'.allocs = s.allocs + 1 ∧ s'.pending = s.pending) r' s' t
  unfold newStaging
  refine post_bind (M := M) (post_observe (post_mono (allocBuffer_meets hs n).run
    fun r s' t h => ⟨r, rfl, h⟩)) ?_ ?_
  · rintro first s1 t1 ⟨r', hr, h1⟩
    cases hr
    cases first with
    | ok b =>
      obtain ⟨he, hst⟩ := hput (Extends.refl hs) h1
      exact post_step rfl (post_step (run_update _ _) (post_pure (Runs.answer (by simpa using he) hst)))
    | error e =>
      -- the fallback
      refine post_bind (allocBuffer_meets h1.ext.valid n).run (fun b s2 t2 h2 => ?_)
        fun e' s2 t2 h2 => (h2.carry le_rfl hnil).after h1.ext hnil
      obtain ⟨he, hst⟩ := hput h1.ext h2
      exact post_step (run_update _ _) (post_pure (Runs.answer (by simpa using he) hst))
  · rintro e s1 t1 ⟨r', hr, -⟩
    cases hr

/-- **The staging buffer** is large enough, cached or new. -/
theorem readbackStaging_meets (hs : s.Valid) (ho : s.openCmd = none) (n : Nat) :
    Meets id E.kernel 0 [] s (some ()) (fun s' b _ => Staged n s' b) (readbackStaging E (4 * n)) := by
  unfold readbackStaging
  refine post_step (run_gets _ _) ?_
  cases hst : s.staging with
  | none => exact newStaging_meets hs ho n
  | some st =>
    obtain ⟨h1, h2⟩ := hs.staging st hst
    dsimp only
    by_cases hsz : st.size < 4 * n
    · rw [if_pos hsz]
      have he : Extends E.kernel 0 [] s { s with staging := none } (st.res.map .released) := by
        refine ⟨le_rfl, ⟨hs.cmd_lt, fun c hc m hm => ⟨(hs.pending c hc m hm).1, fun _ h => (nomatch h)⟩,
          hs.sets, hs.handles, hs.handle_lt, hs.pipes, fun _ h => (nomatch h)⟩,
          fun m hm => ⟨hm.1, fun _ h => (nomatch h)⟩, fun _ _ _ => rfl, fun _ _ _ => rfl, rfl,
          fun _ => le_rfl, ?_, ?_⟩
        all_goals simp
      refine post_step (run_update _ _) (post_step (t := st.res.map .released) (a := ()) rfl ?_)
      refine post_mono (newStaging_meets he.valid ho n) fun r s2 t2 h2 => ?_
      exact h2.after he fun _ h _ => h
    · rw [if_neg hsz]
      have hlen : n ≤ (s.mem st.memory).length := by
        rw [h2, Nat.le_div_iff_mul_le (by decide), Nat.mul_comm]
        exact Nat.not_lt.mp hsz
      exact post_pure (Runs.answer (Extends.refl hs) ⟨hst, hlen, ho⟩)

omit [Zero F] in
/-- Words `n`, `n + 1`, .. of a memory, overwritten. -/
theorem splice_words {dst src : List F} {n : Nat} :
    splice dst src (4 * n) (4 * src.length) = dst.take n ++ src ++ dst.drop (n + src.length) := by
  unfold splice
  rw [Nat.mul_div_cancel_left _ (by decide), Nat.mul_div_cancel_left _ (by decide), List.take_length]

/-- The copies of a readback, one behind the other. -/
theorem execCmds_readback {staging : GpuBuffer} {bufs : List GpuBuffer} {vals : List (List F)}
    {mem : Nat → List F}
    (h : List.Forall₂ (fun b xs => b.memory ≠ staging.memory ∧ mem b.memory = xs ∧
      b.size = 4 * xs.length) bufs vals) (n : Nat)
    (hlen : n + vals.flatten.length ≤ (mem staging.memory).length) :
    execCmds K mem (readbackCopies staging (4 * n) bufs) staging.memory =
      (mem staging.memory).take n ++ vals.flatten ++
        (mem staging.memory).drop (n + vals.flatten.length) := by
  induction bufs generalizing vals n mem with
  | nil =>
    cases h
    rw [List.flatten_nil, List.append_nil, List.length_nil, Nat.add_zero, List.take_append_drop]
    rfl
  | cons b bufs ih =>
    cases h with
    | cons hb hrest =>
      rename_i xs vals
      obtain ⟨hne, rfl, hsize⟩ := hb
      rw [List.flatten_cons, List.length_append] at hlen
      let mem1 := store mem staging.memory
        (splice (mem staging.memory) (mem b.memory) (4 * n) (4 * (mem b.memory).length))
      have h1 : mem1 staging.memory = (mem staging.memory).take n ++ mem b.memory ++
          (mem staging.memory).drop (n + (mem b.memory).length) :=
        (Function.update_self _ _ _).trans splice_words
      have hhead : ((mem staging.memory).take n ++ mem b.memory).length =
          n + (mem b.memory).length := by
        rw [List.length_append, List.length_take]
        omega
      have hl1 : (mem1 staging.memory).length = (mem staging.memory).length := by
        rw [h1, List.length_append, hhead, List.length_drop]
        omega
      have hrest1 : List.Forall₂ (fun b xs => b.memory ≠ staging.memory ∧ mem1 b.memory = xs ∧
          b.size = 4 * xs.length) bufs vals := by
        refine hrest.imp fun b' xs' h' => ⟨h'.1, ?_, h'.2.2⟩
        exact (Function.update_of_ne h'.1 _ _).trans h'.2.1
      have hoff : 4 * n + b.size = 4 * (n + (mem b.memory).length) := by
        rw [hsize, Nat.mul_add]
      have hstep : execCmds K mem (readbackCopies staging (4 * n) (b :: bufs)) =
          execCmds K mem1 (readbackCopies staging (4 * (n + (mem b.memory).length)) bufs) := by
        rw [← hoff]
        show execCmds K (execCmd K mem (.copy b staging (4 * n) b.size)) _ = _
        unfold execCmd
        rw [hsize]
      have hdrop (k : Nat) : (mem1 staging.memory).drop (n + (mem b.memory).length + k) =
          (mem staging.memory).drop (n + ((mem b.memory).length + k)) := by
        rw [h1, ← List.drop_drop, List.drop_left' hhead, List.drop_drop, Nat.add_assoc]
      rw [hstep, ih hrest1 _ (by omega), hdrop, h1, List.take_left' hhead, List.flatten_cons,
        List.length_append, List.append_assoc _ _ vals.flatten]

omit [Zero F] in
theorem readbackWords_eq {bufs : List GpuBuffer} {vals : List (List F)}
    (h : List.Forall₂ (fun b xs => b.size = 4 * xs.length) bufs vals) (words rest : List F) (n : Nat)
    (hw : words.drop n = vals.flatten ++ rest) : readbackWords words (4 * n) bufs = vals := by
  induction h generalizing n with
  | nil => rfl
  | @cons b xs bufs vals hb _ ih =>
    rw [List.flatten_cons, List.append_assoc] at hw
    have hoff : 4 * n + b.size = 4 * (n + xs.length) := by rw [hb, Nat.mul_add]
    have hd : words.drop (n + xs.length) = vals.flatten ++ rest := by
      rw [← List.drop_drop, hw, List.drop_left' rfl]
    unfold readbackWords
    rw [hoff, ih _ hd, hb, Nat.mul_div_cancel_left _ (by decide),
      Nat.mul_div_cancel_left _ (by decide), hw, List.take_left' rfl]

omit [Zero F] in
theorem readbackCopies_writes {staging : GpuBuffer} {bufs : List GpuBuffer} {off : Nat} {c : Cmd F}
    (hc : c ∈ readbackCopies staging off bufs) : c.writes = [staging.memory] := by
  induction bufs generalizing off with
  | nil => cases hc
  | cons b bufs ih =>
    rcases List.mem_cons.mp hc with rfl | hc
    · rfl
    · exact ih hc

/-- **A readback** answers the contents of the buffers. -/
theorem readbackF32All_meets (hs : s.Valid) (ho : s.openCmd = none) {bufs : List GpuBuffer}
    {vals : List (List F)} (h : List.Forall₂ (Holds E.kernel s) bufs vals) :
    Meets id E.kernel 0 [] s (some vals) (fun _ a x => a = x) (readbackF32All E bufs) := by
  have hnil {s : Sys F} : ∀ m ∈ ([] : List Nat), s.Private m → m ∈ ([] : List Nat) := fun _ h _ => h
  have hsizes : List.Forall₂ (fun b xs => b.size = 4 * xs.length) bufs vals :=
    h.imp fun b xs hb => hb.size
  have htotal : (bufs.map GpuBuffer.size).sum = 4 * vals.flatten.length := by
    clear h
    induction hsizes with
    | nil => rfl
    | cons hb _ ih =>
      rw [List.map_cons, List.sum_cons, ih, hb, List.flatten_cons, List.length_append, Nat.mul_add]
  unfold readbackF32All
  dsimp only
  rw [htotal]
  refine post_bind (readbackStaging_meets hs ho _).run (fun st s1 t1 h1 => ?_)
    fun e s1 t1 h1 => h1.carry le_rfl hnil
  obtain ⟨_, -, hst, hlen, ho1⟩ := h1.sound st rfl
  have hbufs : List.Forall₂ (fun b xs => b.memory ≠ st.memory ∧ s1.mem b.memory = xs ∧
      b.size = 4 * xs.length) bufs vals := by
    refine h.imp fun b xs hb => ?_
    have hb1 := hb.stable h1.ext List.not_mem_nil
    exact ⟨fun e => hb1.priv.2 st hst e.symm, by rw [← Sys.view_closed _ ho1, hb1.view], hb1.size⟩
  have hcopy := execCmds_readback (K := E.kernel) hbufs 0 (by rwa [Nat.zero_add])
  rw [Nat.mul_zero, List.take_zero, List.nil_append, Nat.zero_add] at hcopy
  refine post_bind (oneShot_post _ _) (fun _ s2 t2 h2 => ?_) fun e s2 t2 h2 => ?_
  all_goals
    have he2 := extends_submitted (K := E.kernel) (W := []) h1.ext.valid ho1 h2
      (fun m hm _ => execCmds_other E.kernel fun c hc hmc => by
        rw [readbackCopies_writes hc, List.mem_singleton] at hmc
        exact hm.2 st hst hmc.symm) fun b hb => by
        rw [hst] at hb
        cases hb
        rw [hcopy, List.length_append, List.length_drop]
        omega
    have hall := h1.ext.trans he2 hnil
  · have hext (n : Nat) (ev : List (Event F)) (hq : Quiet ev) :
        Extends E.kernel 0 [] s { s2 with tick := n } (t1 ++ t2 ++ ev) :=
      hall.trans (extends_tick hall.valid n hq) hnil
    refine post_attempt (fun code => ?_) ?_
    · exact Runs.failed (by simpa using hext _ _ (quiet_failed _ _)) (not_noFault (List.mem_append_right
        _ (List.mem_append_right _ (List.mem_singleton.mpr rfl)))) (GpuErr.proper_driver _ _)
    refine post_attempt (fun code => ?_) (post_gets ?_)
    · exact Runs.failed (by simpa using hext _ _ (quiet_failed _ _)) (not_noFault (List.mem_append_right
        _ (List.mem_append_right _ (List.mem_singleton.mpr rfl)))) (GpuErr.proper_driver _ _)
    · refine Runs.answer (by simpa using hext _ [] ⟨by simp, by simp⟩) ?_
      have hmem := (congrFun (h2.ran rfl) st.memory).trans hcopy
      exact readbackWords_eq hsizes _ ((s1.mem st.memory).drop vals.flatten.length) 0 hmem
  · refine Runs.failed (by simpa using hall) (fun hn => ?_) (h2.proper e rfl)
    cases h2.answers (noFault_append.mp hn).2

end Readback

end Ssimulacra2
