/-
  File:      Ssimulacra2/Vulkan/Frame.lean
  Subject:   What a step of the engine may change, and the rules to compose such steps.

  `Sys.view` is the memory as it will be once the open batch has run: recording a command changes
  the view at once, submitting the batch does not change it. A step extends a state (`Extends`)
  when it leaves the buffers of others alone, in the memory and in the view, keeps the batch open
  or closed, and keeps the state well formed (`Valid`). `Meets` adds to that the value a program
  answers; it composes along `>>=` and over owned lists.
-/
import Ssimulacra2.Vulkan.Engine

namespace Ssimulacra2

open Fallible Prog

variable {F : Type} [Zero F]

/-! ## 1. The memory commands touch -/

/-- The memories a command reads or writes. -/
def Cmd.mems : Cmd F → List Nat
  | .copy src dst _ _ => [src.memory, dst.memory]
  | .barrier => []
  | .dispatch _ _ set _ => set.bufs.map GpuBuffer.memory

/-- The memories a command writes; a dispatch is given every buffer it is bound to. -/
def Cmd.writes : Cmd F → List Nat
  | .copy _ dst _ _ => [dst.memory]
  | .barrier => []
  | .dispatch _ _ set _ => set.bufs.map GpuBuffer.memory

section Commands

variable (K : Kernel F) {mem : Nat → List F} {m : Nat} {xs : List F}

theorem storeAll_other {bufs : List GpuBuffer} (hm : m ∉ bufs.map GpuBuffer.memory)
    (xss : List (List F)) : storeAll mem bufs xss m = mem m := by
  induction bufs generalizing mem xss with
  | nil => rfl
  | cons b bufs ih =>
    rw [List.map_cons, List.mem_cons, not_or] at hm
    cases xss with
    | nil => rfl
    | cons xs xss =>
      unfold storeAll
      rw [ih hm.2]
      exact Function.update_of_ne hm.1 _ _

theorem storeAll_store {bufs : List GpuBuffer} (hm : m ∉ bufs.map GpuBuffer.memory)
    (xss : List (List F)) :
    storeAll (store mem m xs) bufs xss = store (storeAll mem bufs xss) m xs := by
  induction bufs generalizing mem xss with
  | nil => rfl
  | cons b bufs ih =>
    rw [List.map_cons, List.mem_cons, not_or] at hm
    cases xss with
    | nil => rfl
    | cons ys xss =>
      have hc : store (store mem m xs) b.memory (fit (b.size / 4) ys) =
          store (store mem b.memory (fit (b.size / 4) ys)) m xs :=
        Function.update_comm hm.1 _ _ _
      unfold storeAll
      rw [hc, ih hm.2]

theorem execCmd_other {c : Cmd F} (hm : m ∉ c.writes) : execCmd K mem c m = mem m := by
  cases c with
  | copy src dst dstOff size =>
    rw [Cmd.writes, List.mem_singleton] at hm
    exact Function.update_of_ne hm _ _
  | barrier => rfl
  | dispatch shader push set groups => exact storeAll_other hm _

/-- A command does not see a memory it does not touch. -/
theorem execCmd_store {c : Cmd F} (hm : m ∉ c.mems) :
    execCmd K (store mem m xs) c = store (execCmd K mem c) m xs := by
  cases c with
  | copy src dst dstOff size =>
    rw [Cmd.mems, List.mem_cons, List.mem_singleton, not_or] at hm
    have h1 : store mem m xs src.memory = mem src.memory := Function.update_of_ne (Ne.symm hm.1) _ _
    have h2 : store mem m xs dst.memory = mem dst.memory := Function.update_of_ne (Ne.symm hm.2) _ _
    simp only [execCmd, h1, h2]
    exact Function.update_comm hm.2 _ _ _
  | barrier => rfl
  | dispatch shader push set groups =>
    have h : (set.bufs.map fun b => store mem m xs b.memory) =
        set.bufs.map fun b => mem b.memory := by
      refine List.map_congr_left fun b hb => Function.update_of_ne (fun h => hm ?_) _ _
      rw [← h]
      exact List.mem_map_of_mem hb
    simp only [execCmd, h]
    exact storeAll_store hm _

theorem execCmds_other {cmds : List (Cmd F)} (hm : ∀ c ∈ cmds, m ∉ c.writes) :
    execCmds K mem cmds m = mem m := by
  induction cmds generalizing mem with
  | nil => rfl
  | cons c cmds ih =>
    show execCmds K (execCmd K mem c) cmds m = mem m
    rw [ih fun c' hc' => hm c' (List.mem_cons_of_mem _ hc'),
      execCmd_other K (hm c List.mem_cons_self)]

theorem execCmds_store {cmds : List (Cmd F)} (hm : ∀ c ∈ cmds, m ∉ c.mems) :
    execCmds K (store mem m xs) cmds = store (execCmds K mem cmds) m xs := by
  induction cmds generalizing mem with
  | nil => rfl
  | cons c cmds ih =>
    show execCmds K (execCmd K (store mem m xs) c) cmds = store (execCmds K (execCmd K mem c) cmds) m xs
    rw [execCmd_store K (hm c List.mem_cons_self), ih fun c' hc' => hm c' (List.mem_cons_of_mem _ hc')]

theorem execCmds_append (cmds cmds' : List (Cmd F)) :
    execCmds K mem (cmds ++ cmds') = execCmds K (execCmds K mem cmds) cmds' :=
  List.foldl_append

end Commands

/-! ## 2. States -/

/-- The commands of the open batch. -/
def Sys.pending (s : Sys F) : List (Cmd F) :=
  match s.batch with
  | some st => s.recorded st.cmd
  | none => []

/-- The memory once the open batch has run. -/
def Sys.view (K : Kernel F) (s : Sys F) : Nat → List F := execCmds K s.mem s.pending

/-- A memory in use that is not the cached staging memory. -/
def Sys.Private (s : Sys F) (m : Nat) : Prop :=
  m < s.next ∧ ∀ st, s.staging = some st → st.memory ≠ m

/-- How many of the sets belong to a pool. -/
def inPool (p : Nat) (sets : List DescSet) : Nat := (sets.filter fun d => d.pool = p).length

theorem inPool_append (p : Nat) (sets sets' : List DescSet) :
    inPool p (sets ++ sets') = inPool p sets + inPool p sets' := by
  unfold inPool
  rw [List.filter_append, List.length_append]

/-- The allocated sets of a pool. -/
def Sys.live (s : Sys F) (p : Nat) : Nat := inPool p s.sets

/-- The sets that the open batch tracks. -/
def Sys.batchSets (s : Sys F) : List DescSet :=
  match s.batch with
  | some st => st.sets
  | none => []

/-- The sets of a pool that the open batch tracks. -/
def Sys.tracked (s : Sys F) (p : Nat) : Nat := inPool p s.batchSets

/-- Whether a batch is open, by its command buffer. -/
def Sys.openCmd (s : Sys F) : Option Nat := s.batch.map Batch.cmd

omit [Zero F] in
/-- No set is tracked while no batch is open. -/
theorem Sys.tracked_closed {s : Sys F} (ho : s.openCmd = none) (p : Nat) : s.tracked p + 0 ≤ 63 := by
  unfold Sys.tracked Sys.batchSets
  rw [Option.map_eq_none_iff.mp ho]
  exact Nat.zero_le 63

/-- **The invariant of the context.** -/
structure Sys.Valid (s : Sys F) : Prop where
  cmd_lt : ∀ cb, s.openCmd = some cb → cb < s.next
  pending : ∀ c ∈ s.pending, ∀ m ∈ c.mems, s.Private m
  /-- At most one set of a pool is left from before the batch. -/
  sets : ∃ kept, s.sets = kept ++ s.batchSets ∧ ∀ p, inPool p kept ≤ 1
  handles : (s.sets.map DescSet.handle).Nodup
  handle_lt : ∀ d ∈ s.sets, d.handle < s.next
  pipes : ∀ k o, s.pipes.lookup k = some o → o.shader = k.shader
  staging : ∀ b, s.staging = some b → b.memory < s.next ∧ (s.mem b.memory).length = b.size / 4

omit [Zero F] in
theorem Sys.Valid.live_le {s : Sys F} (hs : s.Valid) (p : Nat) : s.live p ≤ s.tracked p + 1 := by
  obtain ⟨kept, hk, hle⟩ := hs.sets
  have h := hle p
  unfold Sys.live Sys.tracked
  rw [hk, inPool_append]
  omega

theorem Sys.view_closed (K : Kernel F) {s : Sys F} (h : s.openCmd = none) : s.view K = s.mem := by
  unfold Sys.view Sys.pending
  unfold Sys.openCmd at h
  rw [Option.map_eq_none_iff] at h
  rw [h]
  rfl

/-- No driver call failed. -/
def NoFault (t : List (Event F)) : Prop := ∀ c st, Event.failed c st ∉ t

omit [Zero F] in
theorem noFault_append {t t' : List (Event F)} :
    NoFault (t ++ t') ↔ NoFault t ∧ NoFault t' := by
  unfold NoFault
  simp only [List.mem_append, not_or, forall_and]

/-! ## 3. Extensions -/

/-- **What a step may change**: of the buffers in use only those in `W`, in the view; with a batch
    open no memory in use at all. It tracks at most `k` sets of a pool more, records only into the
    open batch or into what it began itself, and closes only what it opened. -/
structure Extends (K : Kernel F) (k : Nat) (W : List Nat) (s s' : Sys F) (t : List (Event F)) :
    Prop where
  next_le : s.next ≤ s'.next
  valid : s'.Valid
  priv : ∀ m, s.Private m → s'.Private m
  view : ∀ m, s.Private m → m ∉ W → s'.view K m = s.view K m
  mem : s.openCmd ≠ none → ∀ m, s.Private m → s'.mem m = s.mem m
  cmd : s'.openCmd = s.openCmd
  uses : ∀ p, s'.tracked p ≤ s.tracked p + k
  records : ∀ cb c, Event.recorded cb c ∈ t → s.openCmd = some cb ∨ Event.begun cb ∈ t
  closes : ∀ cb, Event.closed cb ∈ t → Event.opened cb ∈ t

section Extends

variable {K : Kernel F} {k j : Nat} {W Z : List Nat} {s s' s'' : Sys F} {t t' : List (Event F)}

theorem Extends.refl (hs : s.Valid) : Extends K 0 [] s s [] where
  next_le := le_rfl
  valid := hs
  priv _ h := h
  view _ _ _ := rfl
  mem _ _ _ := rfl
  cmd := rfl
  uses _ := le_rfl
  records _ _ h := absurd h List.not_mem_nil
  closes _ h := absurd h List.not_mem_nil

/-- **Steps compose**, as long as the second one changes what the first may change or what was not
    in use before. -/
theorem Extends.trans (h : Extends K k W s s' t) (h' : Extends K j Z s' s'' t')
    (hW : ∀ m ∈ Z, s.Private m → m ∈ W) : Extends K (k + j) W s s'' (t ++ t') where
  next_le := le_trans h.next_le h'.next_le
  valid := h'.valid
  priv m hm := h'.priv m (h.priv m hm)
  view m hm hmW := by
    rw [h'.view m (h.priv m hm) fun hm' => hmW (hW m hm' hm), h.view m hm hmW]
  mem ho m hm := by
    rw [h'.mem (by rw [h.cmd]; exact ho) m (h.priv m hm), h.mem ho m hm]
  cmd := h'.cmd.trans h.cmd
  uses p := by
    have h1 := h.uses p
    have h2 := h'.uses p
    omega
  records cb c hc := by
    rcases List.mem_append.mp hc with hc | hc
    · rcases h.records cb c hc with e | e
      · exact Or.inl e
      · exact Or.inr (List.mem_append_left _ e)
    · rcases h'.records cb c hc with e | e
      · exact Or.inl (h.cmd ▸ e)
      · exact Or.inr (List.mem_append_right _ e)
  closes cb hc := by
    rcases List.mem_append.mp hc with hc | hc
    · exact List.mem_append_left _ (h.closes cb hc)
    · exact List.mem_append_right _ (h'.closes cb hc)

theorem Extends.mono (h : Extends K k W s s' t) (hk : k ≤ j)
    (hW : ∀ m ∈ W, s.Private m → m ∈ Z) : Extends K j Z s s' t where
  next_le := h.next_le
  valid := h.valid
  priv := h.priv
  view m hm hmW := h.view m hm fun hm' => hmW (hW m hm' hm)
  mem := h.mem
  cmd := h.cmd
  uses p := le_trans (h.uses p) (Nat.add_le_add_left hk _)
  records := h.records
  closes := h.closes

/-- Events that neither record nor close. -/
def Quiet (t : List (Event F)) : Prop := (∀ cb c, Event.recorded cb c ∉ t) ∧ ∀ cb, Event.closed cb ∉ t

theorem Extends.quietly {u : List (Event F)} (h : Extends K k W s s' t) (ht : Quiet u) :
    Extends K k W s s' (t ++ u) where
  next_le := h.next_le
  valid := h.valid
  priv := h.priv
  view := h.view
  mem := h.mem
  cmd := h.cmd
  uses := h.uses
  records cb c hc := by
    rcases List.mem_append.mp hc with hc | hc
    · exact (h.records cb c hc).imp_right (List.mem_append_left _)
    · exact absurd hc (ht.1 cb c)
  closes cb hc := by
    rcases List.mem_append.mp hc with hc | hc
    · exact List.mem_append_left _ (h.closes cb hc)
    · exact absurd hc (ht.2 cb)

end Extends

/-! ## 4. Values -/

/-- An error the engine decides on by itself. -/
def GpuErr.Refusal (e : GpuErr) : Prop :=
  (∃ groups maxX, e = .dispatchLimit groups maxX) ∨ ∃ text, e = .panic text

/-- An error that is not about a batch that is open or missing. -/
def GpuErr.Proper (e : GpuErr) : Prop := e ≠ .nestedBatch ∧ e ≠ .noBatchOpen

theorem GpuErr.proper_driver (c : Call) (code : String) : (GpuErr.driver c code).Proper :=
  ⟨nofun, nofun⟩

theorem GpuErr.Refusal.proper {e : GpuErr} (h : e.Refusal) : e.Proper := by
  rcases h with ⟨groups, maxX, rfl⟩ | ⟨text, rfl⟩
  · exact ⟨nofun, nofun⟩
  · exact ⟨nofun, nofun⟩

/-- A buffer in use and its contents in the view. -/
structure Holds (K : Kernel F) (s : Sys F) (b : GpuBuffer) (xs : List F) : Prop where
  priv : s.Private b.memory
  view : s.view K b.memory = xs
  size : b.size = 4 * xs.length

theorem Holds.stable {K : Kernel F} {k : Nat} {W : List Nat} {s s' : Sys F} {t : List (Event F)}
    {b : GpuBuffer} {xs : List F} (h : Holds K s b xs) (he : Extends K k W s s' t)
    (hW : b.memory ∉ W) : Holds K s' b xs where
  priv := he.priv _ h.priv
  view := by rw [he.view _ h.priv hW, h.view]
  size := h.size

/-- **What a run answers**: it extends the state; an answer is the value `v`, related to it by
    `R`; and without a driver error there is one, unless `v` is missing. -/
structure Runs {α V : Type} (K : Kernel F) (k : Nat) (W : List Nat) (s : Sys F) (v : Option V)
    (R : Sys F → α → V → Prop) (r : Except GpuErr α) (s' : Sys F) (t : List (Event F)) :
    Prop where
  ext : Extends K k W s s' t
  sound : ∀ a, r = .ok a → ∃ x, v = some x ∧ R s' a x
  answers : NoFault t → (∀ p, s.tracked p + k ≤ 63) →
    (∃ a, r = .ok a) ∨ v = none ∧ ∃ e, r = .error e ∧ e.Refusal
  proper : ∀ e, r = .error e → e.Proper

section Runs

variable {α V : Type} {K : Kernel F} {k : Nat} {W : List Nat} {s s' : Sys F} {t : List (Event F)}
  {R : Sys F → α → V → Prop}

theorem Runs.answer {a : α} {x : V} (he : Extends K k W s s' t) (h : R s' a x) :
    Runs K k W s (some x) R (.ok a) s' t where
  ext := he
  sound b hb := by
    cases hb
    exact ⟨x, rfl, h⟩
  answers _ _ := Or.inl ⟨a, rfl⟩
  proper _ h := nomatch h

theorem Runs.failed {e : GpuErr} {v : Option V} (he : Extends K k W s s' t) (hf : ¬NoFault t)
    (hp : e.Proper) : Runs K k W s v R (.error e) s' t where
  ext := he
  sound _ hb := nomatch hb
  answers hn _ := absurd hn hf
  proper e' h := by
    cases h
    exact hp

/-- The error of one program is the error of another. -/
theorem Runs.carry {β U : Type} {e : GpuErr} {x : V} {u : Option U} {S : Sys F → β → U → Prop}
    {j : Nat} {Z : List Nat} (h : Runs K k W s (some x) R (.error e) s' t) (hk : k ≤ j)
    (hW : ∀ m ∈ W, s.Private m → m ∈ Z) : Runs K j Z s u S (.error e) s' t where
  ext := h.ext.mono hk hW
  sound _ hb := nomatch hb
  answers hn hu := by
    rcases h.answers hn fun p => le_trans (Nat.add_le_add_left hk _) (hu p) with ⟨a, ha⟩ | ⟨hx, -⟩
    · cases ha
    · cases hx
  proper e' h' := by
    cases h'
    exact h.proper e rfl

theorem Runs.mono {r : Except GpuErr α} {v : Option V} {j : Nat} {Z : List Nat}
    {S : Sys F → α → V → Prop} (h : Runs K k W s v R r s' t) (hk : k ≤ j)
    (hW : ∀ m ∈ W, s.Private m → m ∈ Z) (hrel : ∀ a x, R s' a x → S s' a x) :
    Runs K j Z s v S r s' t where
  ext := h.ext.mono hk hW
  sound a ha := by
    obtain ⟨x, hx, hx'⟩ := h.sound a ha
    exact ⟨x, hx, hrel a x hx'⟩
  answers hn hu := h.answers hn fun q => le_trans (Nat.add_le_add_left hk _) (hu q)
  proper := h.proper

/-- A run after a step. -/
theorem Runs.after {r : Except GpuErr α} {v : Option V} {j : Nat} {Z : List Nat} {s'' : Sys F}
    {t' : List (Event F)} (he : Extends K k W s s' t) (h : Runs K j Z s' v R r s'' t')
    (hW : ∀ m ∈ Z, s.Private m → m ∈ W) : Runs K (k + j) W s v R r s'' (t ++ t') where
  ext := he.trans h.ext hW
  sound := h.sound
  answers hn hu := h.answers (noFault_append.mp hn).2 fun p => by
    have h1 := he.uses p
    have h2 := hu p
    omega
  proper := h.proper

theorem Runs.refused {e : GpuErr} (he : Extends K k W s s' t) (hr : e.Refusal) :
    Runs K k W s (none : Option V) R (.error e) s' t where
  ext := he
  sound _ hb := nomatch hb
  answers _ _ := Or.inr ⟨rfl, e, rfl, hr⟩
  proper e' h := by
    cases h
    exact hr.proper

end Runs

/-- A program over states that contain the driver's meets a value. -/
def Meets {σ α V : Type} (sys : σ → Sys F) (K : Kernel F) (k : Nat) (W : List Nat) (p : σ)
    (v : Option V) (R : Sys F → α → V → Prop) (m : Prog σ GpuErr (Event F) α) : Prop :=
  Post m p fun r p' t => Runs K k W (sys p) v R r (sys p') t

section Meets

variable {σ α β V U : Type} {sys : σ → Sys F} {K : Kernel F} {k j : Nat} {W Z : List Nat} {p : σ}
  {v : Option V} {R : Sys F → α → V → Prop} {m : Prog σ GpuErr (Event F) α}

theorem Meets.pure {a : α} {x : V} (hs : (sys p).Valid) (h : R (sys p) a x) :
    Meets sys K 0 [] p (some x) R (Pure.pure a : Prog σ GpuErr (Event F) α) :=
  post_pure (Runs.answer (Extends.refl hs) h)

/-- A refusal. -/
theorem Meets.refuse {e : GpuErr} (hs : (sys p).Valid) (he : e.Refusal) :
    Meets sys K 0 [] p (none : Option V) R (fail e : Prog σ GpuErr (Event F) α) :=
  post_fail (Runs.refused (Extends.refl hs) he)

/-- **Sequencing**; what the second part changes may depend on the value of the first. -/
theorem Meets.then {f : α → Prog σ GpuErr (Event F) β} {g : V → Option U}
    {S : Sys F → β → U → Prop} (h : Meets sys K k W p v R m)
    (hf : ∀ a x p' t, Extends K k W (sys p) (sys p') t → R (sys p') a x →
      ∃ Z, (∀ m ∈ Z, (sys p).Private m → m ∈ W) ∧ Meets sys K j Z p' (g x) S (f a)) :
    Meets sys K (k + j) W p (v.bind g) S (m >>= f) := by
  refine post_bind h (fun a p' t hr => ?_) (fun e p' t hr => ?_)
  · obtain ⟨x, hx, hrel⟩ := hr.sound a rfl
    obtain ⟨Z, hW, hm⟩ := hf a x p' t hr.ext hrel
    refine post_mono hm fun r p'' t' hr' => Runs.mk (hr.ext.trans hr'.ext hW) ?_ ?_ hr'.proper
    · intro b hb
      obtain ⟨y, hy, hrel'⟩ := hr'.sound b hb
      exact ⟨y, by rw [hx, Option.bind_some, hy], hrel'⟩
    · intro hn hu
      have hn' := noFault_append.mp hn
      rcases hr'.answers hn'.2 (fun q => by have h1 := hr.ext.uses q; have h2 := hu q; omega) with
        hb | ⟨hv, he⟩
      · exact Or.inl hb
      · exact Or.inr ⟨by rw [hx, Option.bind_some, hv], he⟩
  · refine Runs.mk (hr.ext.mono (Nat.le_add_right k j) fun m hm _ => hm)
      (fun b hb => nomatch hb) (fun hn hu => ?_) fun e' h => by
        cases h
        exact hr.proper e rfl
    rcases hr.answers hn (fun q => by have h2 := hu q; omega) with ⟨a, ha⟩ | ⟨hv, e', he, hr'⟩
    · cases ha
    · exact Or.inr ⟨by rw [hv, Option.bind_none], e, rfl, by cases he; exact hr'⟩

/-- **Sequencing.** -/
theorem Meets.bind {f : α → Prog σ GpuErr (Event F) β} {g : V → Option U}
    {S : Sys F → β → U → Prop} (h : Meets sys K k W p v R m)
    (hf : ∀ a x p' t, Extends K k W (sys p) (sys p') t → R (sys p') a x →
      Meets sys K j Z p' (g x) S (f a))
    (hW : ∀ m ∈ Z, (sys p).Private m → m ∈ W) :
    Meets sys K (k + j) W p (v.bind g) S (m >>= f) :=
  h.then fun a x p' t he hx => ⟨Z, hW, hf a x p' t he hx⟩

theorem Meets.mono {S : Sys F → α → V → Prop} (h : Meets sys K k W p v R m) (hk : k ≤ j)
    (hW : ∀ m ∈ W, (sys p).Private m → m ∈ Z) (hrel : ∀ s a x, R s a x → S s a x) :
    Meets sys K j Z p v S m :=
  post_mono h fun _ _ _ hr => hr.mono hk hW fun _ _ => hrel _ _ _

theorem Meets.congr {v' : Option V} (h : Meets sys K k W p v R m) (e : v = v') :
    Meets sys K k W p v' R m := e ▸ h

/-- The value of an answer is the one met. -/
theorem Meets.known (h : Meets sys K k W p v R m) :
    Meets sys K k W p v (fun s a x => R s a x ∧ v = some x) m :=
  post_mono h fun r p' t hr =>
    { ext := hr.ext
      sound := fun a ha => by
        obtain ⟨x, hx, hx'⟩ := hr.sound a ha
        exact ⟨x, hx, hx', hx⟩
      answers := hr.answers
      proper := hr.proper }

/-- What every extension keeps also holds of the state answered in. -/
theorem Meets.frame {P : Sys F → Prop} (h : Meets sys K k W p v R m)
    (hP : ∀ s' t, Extends K k W (sys p) s' t → P s') :
    Meets sys K k W p v (fun s a x => R s a x ∧ P s) m :=
  post_mono h fun r p' t hr =>
    { ext := hr.ext
      sound := fun a ha => by
        obtain ⟨x, hx, hx'⟩ := hr.sound a ha
        exact ⟨x, hx, hx', hP _ _ hr.ext⟩
      answers := hr.answers
      proper := hr.proper }

/-- The value under a function. -/
theorem Meets.map {g : V → U} {S : Sys F → α → U → Prop} (h : Meets sys K k W p v R m)
    (hrel : ∀ s a x, R s a x → S s a (g x)) : Meets sys K k W p (v.map g) S m :=
  post_mono h fun r p' t hr =>
    { ext := hr.ext
      sound := fun a ha => by
        obtain ⟨x, rfl, hx⟩ := hr.sound a ha
        exact ⟨g x, rfl, hrel _ _ _ hx⟩
      answers := fun hn hu => (hr.answers hn hu).imp_right fun h => ⟨by rw [h.1]; rfl, h.2⟩
      proper := hr.proper }

/-- A program over the driver's own states. -/
theorem Meets.run {s : Sys F} {m : Gpu F α} (h : Meets id K k W s v R m) :
    Post m s (Runs K k W s v R) := h

/-- The step a program makes, whatever it answers. -/
theorem Meets.extends (h : Meets sys K k W p v R m) :
    Post m p fun _ p' t => Extends K k W (sys p) (sys p') t :=
  post_mono h fun _ _ _ hr => hr.ext

end Meets

section Owned

variable {α V : Type} {K : Kernel F} {k : Nat} {W : List Nat} {s : Sys F} {o : List GpuBuffer}
  {v : Option V}

theorem Meets.lift {R : Sys F → α → V → Prop} {m : Gpu F α} (h : Meets id K k W s v R m) :
    Meets Prod.fst K k W (s, o) v R (lift m : Guarded F α) := post_lift h

theorem Meets.keep {R : Sys F → GpuBuffer → V → Prop} {m : Gpu F GpuBuffer}
    (h : Meets id K k W s v R m) :
    Meets Prod.fst K k W (s, o) v R (keep m : Guarded F GpuBuffer) :=
  post_keep h (fun _ _ _ h => h) (fun _ _ _ h => h)

end Owned

end Ssimulacra2
