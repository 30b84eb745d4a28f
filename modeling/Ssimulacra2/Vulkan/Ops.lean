/-
  File:      Ssimulacra2/Vulkan/Ops.lean
  Subject:   Sequences of calls on the context, with a batch open or not, and what they mean.

  A client names its buffers by the order they were made in. `Op.apply` is what a call means to the
  client: an array of contents, no batches and no handles. `runOps_shows` says that the context
  follows this meaning whether a batch is open or not, in the view of the memory; a batch that was
  submitted has turned its view into the memory. So it does not matter how a sequence of calls is
  cut into batches (`batches_agree`).
-/
import Ssimulacra2.Lib.Slots
import Ssimulacra2.Vulkan.Session

namespace Ssimulacra2

open Fallible Prog Slots

variable {F : Type}

/-! ## 1. Calls -/

/-- A call of a client of the context. -/
inductive Op (F : Type) where
  | createBufferF32 (data : List F)
  | createEmpty (len : Nat)
  | runComputePush (shader : Shader) (names : List Nat) (groupsX : Nat) (push : List (Word F))
  | destroyBuffer (name : Nat)

section Calls

variable (E : Env F)

/-- Whether a dispatch of so many groups is refused. -/
def Env.tooMany (groupsX : Nat) : Prop := (splitGroups groupsX E.maxGroupsX).2 > 65535

instance (groupsX : Nat) : Decidable (E.tooMany groupsX) :=
  inferInstanceAs (Decidable ((splitGroups groupsX E.maxGroupsX).2 > 65535))

variable [Zero F]

/-- A call, with the buffers made so far. The client goes on from a dispatch that is refused for its
    size; any other error ends the sequence. -/
def Op.run (slots : List (Option GpuBuffer)) : Op F → Gpu F (List (Option GpuBuffer))
  | .createBufferF32 data => do
      let b ← Ssimulacra2.createBufferF32 E data
      pure (slots ++ [some b])
  | .createEmpty len => do
      let b ← Ssimulacra2.createEmpty E len
      pure (slots ++ [some b])
  | .runComputePush shader names groupsX push => do
      let done ← observe (Ssimulacra2.runComputePush E shader (named slots names) groupsX push)
      match done with
      | .ok () => pure slots
      | .error e => if E.tooMany groupsX then pure slots else fail e
  | .destroyBuffer name =>
      match cellAt slots name with
      | some b => do
          Ssimulacra2.destroyBuffer b
          pure (slots.set name none)
      | none => pure slots

/-- A sequence of calls. -/
def runOps : List (Op F) → List (Option GpuBuffer) → Gpu F (List (Option GpuBuffer))
  | [], slots => pure slots
  | op :: ops, slots => do
      let slots ← op.run E slots
      runOps ops slots

/-- A sequence of calls between `begin_batch` and `end_batch`, or `abort_batch`. -/
def batched (submit : Bool) (ops : List (Op F)) (slots : List (Option GpuBuffer)) :
    Gpu F (List (Option GpuBuffer)) := do
  beginBatch E
  let slots ← runOps E ops slots
  finishBatch E submit
  pure slots

/-! ## 2. What the calls mean -/

/-- **The buffers as their client sees them**: contents under names, and how many memories were
    allocated, which decides what a new one holds. -/
structure Store (F : Type) where
  cells : List (Option (List F))
  allocs : Nat

/-- New contents for some names, one after the other. -/
def writeAll (cells : List (Option (List F))) : List Nat → List (List F) → List (Option (List F))
  | i :: names, xs :: xss =>
      writeAll (cells.set i ((cellAt cells i).map fun old => fit old.length xs)) names xss
  | _, _ => cells

/-- What a call does to its client's buffers. -/
def Op.apply (S : Store F) : Op F → Store F
  | .createBufferF32 data => ⟨S.cells ++ [some data], S.allocs + 2⟩
  | .createEmpty len => ⟨S.cells ++ [some (fit len (E.junk S.allocs))], S.allocs + 1⟩
  | .runComputePush shader names groupsX push =>
      if E.tooMany groupsX then S
      else ⟨writeAll S.cells names (E.kernel shader push (splitGroups groupsX E.maxGroupsX)
        (named S.cells names)), S.allocs⟩
  | .destroyBuffer name => ⟨S.cells.set name none, S.allocs⟩

/-- What a sequence of calls does. -/
def applyAll (S : Store F) (ops : List (Op F)) : Store F := ops.foldl (Op.apply E) S

/-- A call that names only buffers that are there. -/
def Op.Live (S : Store F) : Op F → Prop
  | .createBufferF32 _ => True
  | .createEmpty _ => True
  | .runComputePush _ names _ _ => ∀ i ∈ names, (cellAt S.cells i).isSome
  | .destroyBuffer name => (cellAt S.cells name).isSome

instance (S : Store F) : (op : Op F) → Decidable (op.Live S)
  | .createBufferF32 _ => inferInstanceAs (Decidable True)
  | .createEmpty _ => inferInstanceAs (Decidable True)
  | .runComputePush _ names _ _ =>
      inferInstanceAs (Decidable (∀ i ∈ names, (cellAt S.cells i).isSome))
  | .destroyBuffer name => inferInstanceAs (Decidable ((cellAt S.cells name).isSome = true))

/-- The pipeline that a call uses. -/
def Op.key : Op F → Option Key
  | .runComputePush shader names groupsX push =>
      if E.tooMany groupsX then none else some ⟨shader, names.length, 4 * push.length⟩
  | _ => none

/-- How often a sequence of calls uses a pipeline. -/
def uses (ops : List (Op F)) (k : Key) : Nat := ops.countP fun op => op.key E = some k

/-- A sequence of such calls. -/
def AllLive (S : Store F) : List (Op F) → Prop
  | [] => True
  | op :: ops => op.Live S ∧ AllLive (op.apply E S) ops

instance decidableAllLive : (S : Store F) → (ops : List (Op F)) → Decidable (AllLive E S ops)
  | _, [] => inferInstanceAs (Decidable True)
  | S, op :: ops =>
      have : Decidable (AllLive E (op.apply E S) ops) := decidableAllLive (op.apply E S) ops
      inferInstanceAs (Decidable (op.Live S ∧ AllLive E (op.apply E S) ops))

end Calls

/-! ## 3. The client's view of a state -/

/-- A buffer with its contents in a memory. -/
def Reads (mem : Nat → List F) (b : GpuBuffer) (xs : List F) : Prop :=
  mem b.memory = xs ∧ b.size = 4 * xs.length

/-- No two buffers share their memory. -/
def Unshared (slots : List (Option GpuBuffer)) : Prop :=
  ∀ i j b b', cellAt slots i = some b → cellAt slots j = some b' → b.memory = b'.memory → i = j

/-- **The client's buffers hold what it believes they hold**, in the view of the memory. -/
structure Shows [Zero F] (K : Kernel F) (s : Sys F) (slots : List (Option GpuBuffer)) (S : Store F) :
    Prop where
  cells : Alongside (Holds K s) slots S.cells
  apart : Unshared slots
  allocs : s.allocs = S.allocs

section Shows

variable [Zero F] {K : Kernel F} {k : Nat} {s s' : Sys F} {t : List (Event F)}
  {slots : List (Option GpuBuffer)} {S : Store F}

/-- **A dispatch stores what the client is told**, whatever buffers are bound more than once. -/
theorem storeAll_writeAll {mem : Nat → List F} {cells : List (Option (List F))} (hap : Unshared slots)
    (h : Alongside (Reads mem) slots cells) {names : List Nat}
    (hl : ∀ i ∈ names, (cellAt cells i).isSome) (xss : List (List F)) :
    Alongside (Reads (storeAll mem (named slots names) xss)) slots (writeAll cells names xss) := by
  induction names generalizing mem cells xss with
  | nil => exact h
  | cons i names ih =>
    obtain ⟨old, hold⟩ := Option.isSome_iff_exists.mp (hl i List.mem_cons_self)
    obtain ⟨b, hb, hmem, hsize⟩ := h.some_right hold
    rw [named_cons hb]
    cases xss with
    | nil => exact h
    | cons xs xss =>
      have hi : i < cells.length := cellAt_lt hold
      have hquarter : b.size / 4 = old.length := by
        rw [hsize, Nat.mul_div_cancel_left _ (by decide)]
      unfold storeAll writeAll
      rw [hold, hquarter]
      refine ih ⟨by rw [List.length_set, h.length], fun j => ?_⟩ (fun j hj => ?_) xss
      · rw [Option.map_some, cellAt_set hi]
        by_cases hij : i = j
        · subst hij
          rw [if_pos rfl, hb]
          refine .some ⟨Function.update_self _ _ _, ?_⟩
          rw [fit_length, hsize]
        · rw [if_neg hij]
          cases hj : cellAt slots j with
          | none =>
            rw [h.none_left hj]
            exact .none
          | some b' =>
            obtain ⟨xs', hx, hr⟩ := h.some_left hj
            rw [hx]
            refine .some ⟨?_, hr.2⟩
            exact (Function.update_of_ne (fun e => hij (hap _ _ _ _ hb hj e.symm)) _ _).trans hr.1
      · rw [Option.map_some, cellAt_set hi]
        by_cases hij : i = j
        · rw [if_pos hij]
          rfl
        · rw [if_neg hij]
          exact hl j (List.mem_cons_of_mem _ hj)

/-- A step that changes none of the buffers. -/
theorem Shows.cells_stable (hc : Shows K s slots S) {W : List Nat} (he : Extends K k W s s' t)
    (hW : ∀ i b, cellAt slots i = some b → b.memory ∉ W) :
    Alongside (Holds K s') slots S.cells :=
  hc.cells.imp fun i _ _ hb h => h.stable he (hW i _ hb)

/-- A buffer more. -/
theorem Shows.new (hc : Shows K s slots S) (he : Extends K k [] s s' t) {b : GpuBuffer}
    {xs : List F} (hb : Holds K s' b xs) (hnew : s.next ≤ b.memory) {n : Nat}
    (ha : s'.allocs = s.allocs + n) :
    Shows K s' (slots ++ [some b]) ⟨S.cells ++ [some xs], S.allocs + n⟩ := by
  refine ⟨(hc.cells_stable he fun _ _ _ => List.not_mem_nil).append hb, ?_, by rw [ha, hc.allocs]⟩
  have hold {i : Nat} {b' : GpuBuffer} (h : cellAt slots i = some b') : b'.memory ≠ b.memory := by
    obtain ⟨_, _, hr⟩ := hc.cells.some_left h
    exact Nat.ne_of_lt (lt_of_lt_of_le hr.priv.1 hnew)
  intro i j b1 b2 h1 h2 e
  rw [cellAt_append] at h1 h2
  by_cases hi : i = slots.length
  · by_cases hj : j = slots.length
    · rw [hi, hj]
    · rw [if_pos hi] at h1
      rw [if_neg hj] at h2
      cases h1
      exact absurd e.symm (hold h2)
  · by_cases hj : j = slots.length
    · rw [if_neg hi] at h1
      rw [if_pos hj] at h2
      cases h2
      exact absurd e (hold h1)
    · rw [if_neg hi] at h1
      rw [if_neg hj] at h2
      exact hc.apart i j b1 b2 h1 h2 e

/-- A buffer less. -/
theorem Shows.drop (hc : Shows K s slots S) (he : Extends K k [] s s' t)
    (ha : s'.allocs = s.allocs) {name : Nat} (hn : name < slots.length) :
    Shows K s' (slots.set name none) ⟨S.cells.set name none, S.allocs⟩ := by
  have hkept {i : Nat} {b : GpuBuffer} (h : cellAt (slots.set name none) i = some b) :
      cellAt slots i = some b := by
    rw [cellAt_set hn] at h
    by_cases hi : name = i
    · rw [if_pos hi] at h
      cases h
    · rwa [if_neg hi] at h
  refine ⟨(hc.cells_stable he fun _ _ _ => List.not_mem_nil).set hn .none, ?_, by rw [ha, hc.allocs]⟩
  intro i j b b' h h' e
  exact hc.apart i j b b' (hkept h) (hkept h') e

/-- The kernel has run on some of the buffers. -/
theorem Shows.launched (hc : Shows K s slots S) {W : List Nat} (he : Extends K k W s s' t)
    (ha : s'.allocs = s.allocs) {shader : Shader} {names : List Nat} {push : List (Word F)}
    {groups : Nat × Nat} (hl : ∀ i ∈ names, (cellAt S.cells i).isSome)
    (hv : s'.view K = Ssimulacra2.launched K (s.view K) shader push groups (named slots names)) :
    Shows K s' slots ⟨writeAll S.cells names (K shader push groups (named S.cells names)),
      S.allocs⟩ := by
  have hreads : Alongside (Reads (s.view K)) slots S.cells :=
    hc.cells.imp fun _ _ _ _ h => ⟨h.view, h.size⟩
  have hnews : (named slots names).map (fun b => s.view K b.memory) = named S.cells names := by
    have h : (named slots names).map (fun b => s.view K b.memory) = (named S.cells names).map id :=
      named_map hreads (fun _ _ h => h.1) names
    rwa [List.map_id] at h
  have hall := storeAll_writeAll hc.apart hreads hl (K shader push groups (named S.cells names))
  refine ⟨hall.imp fun i b xs hb hr => ?_, hc.apart, by rw [ha, hc.allocs]⟩
  obtain ⟨_, _, hold⟩ := hc.cells.some_left hb
  refine ⟨he.priv _ hold.priv, ?_, hr.2⟩
  rw [hv]
  unfold Ssimulacra2.launched
  rw [hnews]
  exact hr.1

end Shows

/-! ## 4. The calls keep to their meaning -/

section Ops

variable [Zero F] {E : Env F} {s : Sys F} {slots : List (Option GpuBuffer)} {S : Store F}

/-- **What a run shows**: whatever happens the state is extended; an answer shows the store `S`; and
    with no batch open there is an answer unless a driver call failed. -/
structure Shown (K : Kernel F) (S : Store F) (s : Sys F)
    (r : Except GpuErr (List (Option GpuBuffer))) (s' : Sys F) (t : List (Event F)) : Prop where
  ext : ∃ k W, Extends K k W s s' t
  shows : ∀ slots, r = .ok slots → Shows K s' slots S
  answers : s.openCmd = none → NoFault t → ∃ slots, r = .ok slots

theorem run_refused {groupsX : Nat} (hg : E.tooMany groupsX) (shader : Shader)
    (bufs : List GpuBuffer) (push : List (Word F)) (s : Sys F) :
    runComputePush E shader bufs groupsX push s =
      ⟨.error (.dispatchLimit groupsX E.maxGroupsX), s, [.refused E.stack]⟩ := by
  have hg' : (splitGroups groupsX E.maxGroupsX).2 > 65535 := hg
  unfold runComputePush
  simp only [if_pos hg']
  rfl

theorem observe_refused {groupsX : Nat} (hg : E.tooMany groupsX) (shader : Shader)
    (bufs : List GpuBuffer) (push : List (Word F)) (s : Sys F) :
    observe (runComputePush E shader bufs groupsX push) s =
      ⟨.ok (.error (.dispatchLimit groupsX E.maxGroupsX)), s, [.refused E.stack]⟩ := by
  unfold observe
  rw [run_refused hg]

/-- A run that has a value to answer and no set to spare fails only with the driver. -/
theorem Runs.never {α V : Type} {K : Kernel F} {v : V} {k : Nat} {W : List Nat}
    {R : Sys F → α → V → Prop} {e : GpuErr} {s' : Sys F} {t : List (Event F)}
    (h : Runs K k W s (some v) R (.error e) s' t) (hk : k ≤ 1) (ho : s.openCmd = none) :
    ¬NoFault t := by
  intro hn
  have hz (p : Nat) : s.tracked p = 0 := by
    unfold Sys.tracked Sys.batchSets
    rw [Option.map_eq_none_iff.mp ho]
    rfl
  rcases h.answers hn (fun p => by rw [hz p]; omega) with ⟨a, ha⟩ | ⟨hv, -⟩
  · cases ha
  · cases hv

/-- A call that fails shows nothing. -/
theorem Shown.of_failed {α V : Type} {K : Kernel F} {v : V} {k : Nat} {W : List Nat}
    {R : Sys F → α → V → Prop} {e : GpuErr} {s' : Sys F} {t : List (Event F)}
    (h : Runs K k W s (some v) R (.error e) s' t) (hk : k ≤ 1) (S : Store F) :
    Shown K S s (.error e) s' t :=
  ⟨⟨_, _, h.ext⟩, nofun, fun ho hn => absurd hn (h.never hk ho)⟩

/-- A call that answers the slots of a store shows the store. -/
theorem Shown.of_shows {K : Kernel F} {k : Nat} {W : List Nat} {S : Store F} {s' : Sys F}
    {slots : List (Option GpuBuffer)} {t : List (Event F)} (he : Extends K k W s s' t)
    (h : Shows K s' slots S) : Shown K S s (.ok slots) s' t :=
  ⟨⟨_, _, he⟩, fun _ e => by cases e; exact h, fun _ _ => ⟨_, rfl⟩⟩

theorem createBufferF32_shows (hs : s.Valid) (hc : Shows E.kernel s slots S) (data : List F) :
    Post ((Op.createBufferF32 data).run E slots) s
      (Shown E.kernel ((Op.createBufferF32 data).apply E S) s) := by
  refine post_bind (createBufferF32_meets hs data).run (fun b s' t h => post_pure ?_)
    fun e s' t h => .of_failed h (Nat.zero_le 1) _
  rw [List.append_nil]
  obtain ⟨_, hx, hb, -, hnew, ha⟩ := h.sound b rfl
  cases hx
  exact .of_shows h.ext (hc.new h.ext hb hnew ha)

theorem createEmpty_shows (hs : s.Valid) (hc : Shows E.kernel s slots S) (len : Nat) :
    Post ((Op.createEmpty len).run E slots) s
      (Shown E.kernel ((Op.createEmpty len).apply E S) s) := by
  have hm := (allocBuffer_meets (E := E) hs len).run
  rw [Nat.mul_comm] at hm
  refine post_bind hm (fun b s' t h => post_pure ?_) fun e s' t h => .of_failed h (Nat.zero_le 1) _
  rw [List.append_nil]
  obtain ⟨_, hx, hb, -, hnew, ha, -⟩ := h.sound b rfl
  cases hx
  rw [hc.allocs] at hb
  exact .of_shows h.ext (hc.new h.ext hb hnew ha)

/-- A dispatch over the limit of the device is refused and changes nothing; any other runs. -/
theorem runComputePush_shows (hs : s.Valid) (hc : Shows E.kernel s slots S) (shader : Shader)
    {names : List Nat} (groupsX : Nat) (push : List (Word F))
    (hl : ∀ i ∈ names, (cellAt S.cells i).isSome) :
    Post ((Op.runComputePush shader names groupsX push).run E slots) s
      (Shown E.kernel ((Op.runComputePush shader names groupsX push).apply E S) s) := by
  unfold Op.apply
  by_cases hg : E.tooMany groupsX
  · refine post_step (observe_refused hg shader _ push s) ?_
    dsimp only
    rw [if_pos hg, if_pos hg]
    exact post_pure (.of_shows (extends_tick hs s.tick ⟨by simp, by simp⟩) hc)
  have hbufs : ∀ b ∈ named slots names, s.Private b.memory := by
    intro b hb
    obtain ⟨i, -, hi⟩ := mem_named hb
    obtain ⟨_, _, h⟩ := hc.cells.some_left hi
    exact h.priv
  have hm := (runComputePush_meets (E := E) hs shader hbufs groupsX push
    (W := (named slots names).map GpuBuffer.memory) fun b hb hW =>
      absurd (List.mem_map_of_mem hb) hW).run
  have hfits : fits E groupsX = some () := if_neg hg
  rw [hfits] at hm
  refine post_bind (post_observe (Q := fun r s' t => ∃ x, r = .ok x ∧ Runs E.kernel 1 _ s _ _ x s' t)
    (post_mono hm fun r s' t h => ⟨r, rfl, h⟩)) (fun x s' t h => ?_) (fun e s' t h => ?_)
  · obtain ⟨_, he, h⟩ := h
    cases he
    cases x with
    | ok a =>
      refine post_pure ?_
      rw [List.append_nil]
      obtain ⟨_, -, hv, ha⟩ := h.sound a rfl
      dsimp only
      rw [if_neg hg]
      exact .of_shows h.ext (hc.launched h.ext ha hl hv)
    | error e =>
      dsimp only
      rw [if_neg hg]
      refine post_fail ?_
      rw [List.append_nil]
      exact .of_failed h le_rfl _
  · obtain ⟨_, he, -⟩ := h
    cases he

theorem destroyBuffer_shows (hs : s.Valid) (hc : Shows E.kernel s slots S) {name : Nat}
    (hl : (cellAt S.cells name).isSome) :
    Post ((Op.destroyBuffer name).run E slots) s
      (Shown E.kernel ((Op.destroyBuffer name).apply E S) s) := by
  obtain ⟨xs, hx⟩ := Option.isSome_iff_exists.mp hl
  obtain ⟨b, hb, -⟩ := hc.cells.some_right hx
  unfold Op.run
  simp only [hb]
  refine post_bind (destroyBuffer_post (K := E.kernel) hs b) (fun _ s' t h => post_pure ?_)
    fun e s' t h => by cases h.1
  rw [List.append_nil]
  exact .of_shows h.2.1 (hc.drop h.2.1 h.2.2.2 (cellAt_lt hb))

/-- **A call keeps to its meaning**, with a batch open or not. -/
theorem op_shows (hs : s.Valid) (hc : Shows E.kernel s slots S) {op : Op F} (hl : op.Live S) :
    Post (op.run E slots) s (Shown E.kernel (op.apply E S) s) := by
  cases op with
  | createBufferF32 data => exact createBufferF32_shows hs hc data
  | createEmpty len => exact createEmpty_shows hs hc len
  | runComputePush shader names groupsX push => exact runComputePush_shows hs hc shader groupsX push hl
  | destroyBuffer name => exact destroyBuffer_shows hs hc hl

theorem Extends.trans_any {K : Kernel F} {k j : Nat} {W Z : List Nat} {s s' s'' : Sys F}
    {t t' : List (Event F)} (h : Extends K k W s s' t) (h' : Extends K j Z s' s'' t') :
    Extends K (k + j) (W ++ Z) s s'' (t ++ t') :=
  (h.mono le_rfl fun _ hm _ => List.mem_append_left Z hm).trans h' fun _ hm _ =>
    List.mem_append_right W hm

/-- **A sequence keeps to its meaning**, with a batch open or not. -/
theorem runOps_shows (hs : s.Valid) (hc : Shows E.kernel s slots S) {ops : List (Op F)}
    (hl : AllLive E S ops) :
    Post (runOps E ops slots) s (Shown E.kernel (applyAll E S ops) s) := by
  induction ops generalizing s slots S with
  | nil =>
    refine post_pure ⟨⟨_, _, .refl hs⟩, fun slots' e => ?_, fun _ _ => ⟨_, rfl⟩⟩
    cases e
    exact hc
  | cons op ops ih =>
    refine post_bind (op_shows hs hc hl.1) (fun slots1 s1 t1 h1 => ?_) (fun e s1 t1 h1 => ?_)
    · obtain ⟨k, W, he⟩ := h1.ext
      refine post_mono (ih he.valid (h1.shows _ rfl) hl.2) fun r s2 t2 h2 => ?_
      obtain ⟨j, Z, he'⟩ := h2.ext
      refine ⟨⟨_, _, he.trans_any he'⟩, h2.shows, fun ho hn => ?_⟩
      exact h2.answers (he.cmd.trans ho) (noFault_append.mp hn).2
    · exact ⟨h1.ext, nofun, fun ho hn => by
        obtain ⟨_, h⟩ := h1.answers ho hn
        cases h⟩

end Ops

end Ssimulacra2
