/-
  File:      Ssimulacra2/Lib/Fallible.lean
  Subject:   Programs over a state that may fail and leave a trace, with clean-up.

  A program maps a state to its result, the state it leaves (also on failure) and the list of the
  events it emitted. The control structures are those of a language with destructors:

  * `observe` -- run and look at the result (`match r`);
  * `ensure` -- a clean-up on every path;
  * `onError` -- a clean-up on the error path only;
  * `mapError` -- another type of errors;
  * `Owning`, `lift`, `keep` -- programs beside a list of values they own, and `dropAll`,
    `withOwner`, `handOver`, which release the list when the scope ends.

  `Post m s Q` says that the run of `m` from `s` ends in `Q`; the `post_*` rules are the pre- and
  postcondition rules of the structures above. `Emits P m` says that no run of `m` emits an event
  outside `P`, and `Fails P m` that no run of `m` fails with an error outside `P`; the `emits_*` and
  `fails_*` rules follow the same structures.
-/
import Mathlib

namespace Fallible

/-! ## 1. Programs -/

/-- What a run leaves. -/
structure Ran (σ ε ω α : Type) where
  result : Except ε α
  state : σ
  trace : List ω

/-- A program that may fail, over a state, with a trace. -/
def Prog (σ ε ω α : Type) : Type := σ → Ran σ ε ω α

variable {σ ε ω α β γ : Type}

namespace Prog

/-- Answer a value. -/
def ret (a : α) : Prog σ ε ω α := fun s => ⟨.ok a, s, []⟩

/-- One after the other; an error ends the run. -/
def andThen (m : Prog σ ε ω α) (f : α → Prog σ ε ω β) : Prog σ ε ω β := fun s =>
  let o := m s
  match o.result with
  | .ok a =>
      let o' := f a o.state
      ⟨o'.result, o'.state, o.trace ++ o'.trace⟩
  | .error e => ⟨.error e, o.state, o.trace⟩

instance : Monad (Prog σ ε ω) where
  pure := ret
  bind := andThen

def fail (e : ε) : Prog σ ε ω α := fun s => ⟨.error e, s, []⟩

/-- An event. -/
def emit (w : ω) : Prog σ ε ω Unit := fun s => ⟨.ok (), s, [w]⟩

/-- A read of the state. -/
def gets (f : σ → α) : Prog σ ε ω α := fun s => ⟨.ok (f s), s, []⟩

/-- An update of the state. -/
def update (f : σ → σ) : Prog σ ε ω Unit := fun s => ⟨.ok (), f s, []⟩

/-- Run and answer the result, good or bad. -/
def observe (m : Prog σ ε ω α) : Prog σ ε ω (Except ε α) := fun s =>
  let o := m s
  ⟨.ok o.result, o.state, o.trace⟩

/-- `fin` runs after `m` on every path; its own result is dropped. -/
def ensure (fin : Prog σ ε ω Unit) (m : Prog σ ε ω α) : Prog σ ε ω α := fun s =>
  let o := m s
  let o' := fin o.state
  ⟨o.result, o'.state, o.trace ++ o'.trace⟩

/-- `undo` runs after `m` when `m` fails; its own result is dropped. -/
def onError (undo : Prog σ ε ω Unit) (m : Prog σ ε ω α) : Prog σ ε ω α := fun s =>
  let o := m s
  match o.result with
  | .ok a => ⟨.ok a, o.state, o.trace⟩
  | .error e =>
      let o' := undo o.state
      ⟨.error e, o'.state, o.trace ++ o'.trace⟩

/-- The same run with another type of errors. -/
def mapError {ε' : Type} (g : ε → ε') (m : Prog σ ε ω α) : Prog σ ε' ω α := fun s =>
  let o := m s
  ⟨o.result.mapError g, o.state, o.trace⟩

/-- `m` for every element, in order. -/
def each (f : α → Prog σ ε ω Unit) : List α → Prog σ ε ω Unit
  | [] => ret ()
  | a :: as => andThen (f a) fun _ => each f as

end Prog

open Prog

/-! ## 2. Pre- and postconditions -/

/-- The run of `m` from `s` ends in `Q`. -/
def Post (m : Prog σ ε ω α) (s : σ) (Q : Except ε α → σ → List ω → Prop) : Prop :=
  Q (m s).result (m s).state (m s).trace

section Rules

variable {m : Prog σ ε ω α} {f : α → Prog σ ε ω β} {s : σ}

theorem bind_ok (f : α → Prog σ ε ω β) {a : α} (h : (m s).result = .ok a) :
    (m >>= f) s = ⟨(f a (m s).state).result, (f a (m s).state).state,
      (m s).trace ++ (f a (m s).state).trace⟩ := by
  show andThen m f s = _
  simp only [andThen, h]

theorem bind_error (f : α → Prog σ ε ω β) {e : ε} (h : (m s).result = .error e) :
    (m >>= f) s = ⟨.error e, (m s).state, (m s).trace⟩ := by
  show andThen m f s = _
  simp only [andThen, h]

theorem post_mono {Q R : Except ε α → σ → List ω → Prop} (h : Post m s Q)
    (hQ : ∀ r s' t, Q r s' t → R r s' t) : Post m s R := hQ _ _ _ h

theorem post_and {Q R : Except ε α → σ → List ω → Prop} (h : Post m s Q) (h' : Post m s R) :
    Post m s fun r s' t => Q r s' t ∧ R r s' t := ⟨h, h'⟩

theorem post_pure {a : α} {Q : Except ε α → σ → List ω → Prop} (h : Q (.ok a) s []) :
    Post (pure a : Prog σ ε ω α) s Q := h

theorem post_fail {e : ε} {Q : Except ε α → σ → List ω → Prop} (h : Q (.error e) s []) :
    Post (fail e : Prog σ ε ω α) s Q := h

theorem post_emit {w : ω} {Q : Except ε Unit → σ → List ω → Prop} (h : Q (.ok ()) s [w]) :
    Post (emit w) s Q := h

theorem post_gets {g : σ → α} {Q : Except ε α → σ → List ω → Prop} (h : Q (.ok (g s)) s []) :
    Post (gets g) s Q := h

/-- **Sequencing**: the error ends the run, a value is handed on and the traces add up. -/
theorem post_bind {Q : Except ε β → σ → List ω → Prop}
    {M : Except ε α → σ → List ω → Prop} (h : Post m s M)
    (hok : ∀ a s' t, M (.ok a) s' t → Post (f a) s' fun r s'' t' => Q r s'' (t ++ t'))
    (herr : ∀ e s' t, M (.error e) s' t → Q (.error e) s' t) : Post (m >>= f) s Q := by
  unfold Post at h ⊢
  cases hr : (m s).result with
  | ok a =>
    rw [hr] at h
    rw [bind_ok f hr]
    exact hok a _ _ h
  | error e =>
    rw [hr] at h
    rw [bind_error f hr]
    exact herr e _ _ h

theorem run_gets (g : σ → α) (s : σ) : (gets g : Prog σ ε ω α) s = ⟨.ok (g s), s, []⟩ := rfl

theorem run_update (g : σ → σ) (s : σ) : (update g : Prog σ ε ω Unit) s = ⟨.ok (), g s, []⟩ := rfl

theorem run_emit (w : ω) (s : σ) : (emit w : Prog σ ε ω Unit) s = ⟨.ok (), s, [w]⟩ := rfl

/-- The run of a sequence, after a first part whose run is known. -/
theorem run_bind {s' : σ} {t : List ω} {a : α} (hm : m s = ⟨.ok a, s', t⟩) :
    (m >>= f) s = ⟨(f a s').result, (f a s').state, t ++ (f a s').trace⟩ := by
  have hr : (m s).result = .ok a := by rw [hm]
  rw [bind_ok f hr, hm]

/-- A last step whose run is known. -/
theorem post_run {r : Except ε α} {s' : σ} {t : List ω} {Q : Except ε α → σ → List ω → Prop}
    (hm : m s = ⟨r, s', t⟩) (h : Q r s' t) : Post m s Q := by
  unfold Post
  rw [hm]
  exact h

/-- A step whose run is known. -/
theorem post_step {s' : σ} {t : List ω} {a : α} {Q : Except ε β → σ → List ω → Prop}
    (hm : m s = ⟨.ok a, s', t⟩) (h : Post (f a) s' fun r s'' t' => Q r s'' (t ++ t')) :
    Post (m >>= f) s Q := by
  unfold Post at h ⊢
  rw [run_bind hm]
  exact h

/-- A failing step whose run is known. -/
theorem post_stop {s' : σ} {t : List ω} {e : ε} {Q : Except ε β → σ → List ω → Prop}
    (hm : m s = ⟨.error e, s', t⟩) (h : Q (.error e) s' t) : Post (m >>= f) s Q := by
  have hr : (m s).result = .error e := by rw [hm]
  unfold Post
  rw [bind_error f hr, hm]
  exact h

theorem post_observe {Q : Except ε (Except ε α) → σ → List ω → Prop}
    (h : Post m s fun r s' t => Q (.ok r) s' t) : Post (observe m) s Q := h

/-- **Clean-up on every path.** -/
theorem post_ensure {fin : Prog σ ε ω Unit} {Q M : Except ε α → σ → List ω → Prop}
    (h : Post m s M)
    (hfin : ∀ r s' t, M r s' t → Post fin s' fun _ s'' t' => Q r s'' (t ++ t')) :
    Post (ensure fin m) s Q := hfin _ _ _ h

/-- **Clean-up on the error path.** -/
theorem post_onError {undo : Prog σ ε ω Unit} {Q M : Except ε α → σ → List ω → Prop}
    (h : Post m s M) (hok : ∀ a s' t, M (.ok a) s' t → Q (.ok a) s' t)
    (herr : ∀ e s' t, M (.error e) s' t →
      Post undo s' fun _ s'' t' => Q (.error e) s'' (t ++ t')) :
    Post (onError undo m) s Q := by
  unfold Post at h ⊢
  cases hr : (m s).result with
  | ok a =>
    rw [hr] at h
    simp only [onError, hr]
    exact hok a _ _ h
  | error e =>
    rw [hr] at h
    simp only [onError, hr]
    exact herr e _ _ h

theorem post_mapError {ε' : Type} {g : ε → ε'} {Q : Except ε' α → σ → List ω → Prop}
    (h : Post m s fun r s' t => Q (r.mapError g) s' t) : Post (mapError g m) s Q := h

end Rules

/-! ## 3. Owners -/

/-- A program beside a list of values it owns. -/
abbrev Owning (κ σ ε ω α : Type) : Type := Prog (σ × List κ) ε ω α

section Owners

variable {κ : Type}

/-- A program that does not touch the list. -/
def lift (m : Prog σ ε ω α) : Owning κ σ ε ω α := fun s =>
  let o := m s.1
  ⟨o.result, (o.state, s.2), o.trace⟩

/-- A program whose value the list owns from now on. -/
def keep (m : Prog σ ε ω κ) : Owning κ σ ε ω κ := fun s =>
  let o := m s.1
  match o.result with
  | .ok b => ⟨.ok b, (o.state, s.2 ++ [b]), o.trace⟩
  | .error e => ⟨.error e, (o.state, s.2), o.trace⟩

/-- The release of a list, last first. -/
def dropAll (drop : κ → Prog σ ε ω Unit) (owned : List κ) : Prog σ ε ω Unit :=
  each drop owned.reverse

/-- A scope: whatever the body owns is released when it ends. -/
def withOwner (drop : κ → Prog σ ε ω Unit) (body : Owning κ σ ε ω α) : Prog σ ε ω α := fun s =>
  let o := body (s, [])
  let o' := dropAll drop o.state.2 o.state.1
  ⟨o.result, o'.state, o.trace ++ o'.trace⟩

/-- A scope that answers what its body owns, and releases it when the body fails. -/
def handOver (drop : κ → Prog σ ε ω Unit) (body : Owning κ σ ε ω α) :
    Prog σ ε ω (List κ × α) := fun s =>
  let o := body (s, [])
  match o.result with
  | .ok a => ⟨.ok (o.state.2, a), o.state.1, o.trace⟩
  | .error e =>
      let o' := dropAll drop o.state.2 o.state.1
      ⟨.error e, o'.state, o.trace ++ o'.trace⟩

variable {s : σ} {owned : List κ}

theorem post_lift {m : Prog σ ε ω α} {Q : Except ε α → σ × List κ → List ω → Prop}
    (h : Post m s fun r s' t => Q r (s', owned) t) : Post (lift m) (s, owned) Q := h

theorem post_lifted {m : Prog σ ε ω α} {M : Except ε α → σ → List ω → Prop} (h : Post m s M) :
    Post (lift m : Owning κ σ ε ω α) (s, owned) fun r p t => M r p.1 t ∧ p.2 = owned := ⟨h, rfl⟩

theorem post_keep {m : Prog σ ε ω κ} {Q : Except ε κ → σ × List κ → List ω → Prop}
    {M : Except ε κ → σ → List ω → Prop} (h : Post m s M)
    (hok : ∀ b s' t, M (.ok b) s' t → Q (.ok b) (s', owned ++ [b]) t)
    (herr : ∀ e s' t, M (.error e) s' t → Q (.error e) (s', owned) t) :
    Post (keep m) (s, owned) Q := by
  unfold Post at h ⊢
  cases hr : (m s).result with
  | ok a =>
    rw [hr] at h
    simp only [keep, hr]
    exact hok a _ _ h
  | error e =>
    rw [hr] at h
    simp only [keep, hr]
    exact herr e _ _ h

/-- **A scope releases what it owns.** -/
theorem post_withOwner {drop : κ → Prog σ ε ω Unit} {body : Owning κ σ ε ω α}
    {M : Except ε α → σ × List κ → List ω → Prop} {Q : Except ε α → σ → List ω → Prop}
    (h : Post body (s, []) M)
    (hdrop : ∀ r s' owned t, M r (s', owned) t →
      Post (dropAll drop owned) s' fun _ s'' t' => Q r s'' (t ++ t')) :
    Post (withOwner drop body) s Q := hdrop _ _ _ _ h

/-- **A scope that hands over** releases only when its body fails. -/
theorem post_handOver {drop : κ → Prog σ ε ω Unit} {body : Owning κ σ ε ω α}
    {M : Except ε α → σ × List κ → List ω → Prop}
    {Q : Except ε (List κ × α) → σ → List ω → Prop} (h : Post body (s, []) M)
    (hok : ∀ a s' owned t, M (.ok a) (s', owned) t → Q (.ok (owned, a)) s' t)
    (herr : ∀ e s' owned t, M (.error e) (s', owned) t →
      Post (dropAll drop owned) s' fun _ s'' t' => Q (.error e) s'' (t ++ t')) :
    Post (handOver drop body) s Q := by
  unfold Post at h ⊢
  cases hr : (body (s, [])).result with
  | ok a =>
    rw [hr] at h
    simp only [handOver, hr]
    exact hok a _ _ _ h
  | error e =>
    rw [hr] at h
    simp only [handOver, hr]
    exact herr e _ _ _ h

end Owners

/-! ## 4. Traces -/

/-- Whatever the state, a run of `m` emits only events of `P`. -/
def Emits (P : ω → Prop) (m : Prog σ ε ω α) : Prop := ∀ s, ∀ w ∈ (m s).trace, P w

section Traces

variable {κ : Type} {P : ω → Prop} {m : Prog σ ε ω α}

theorem emits_pure (a : α) : Emits P (pure a : Prog σ ε ω α) := fun _ _ h => absurd h List.not_mem_nil

theorem emits_fail (e : ε) : Emits P (fail e : Prog σ ε ω α) := fun _ _ h => absurd h List.not_mem_nil

theorem emits_gets (g : σ → α) : Emits P (gets g : Prog σ ε ω α) := fun _ _ h =>
  absurd h List.not_mem_nil

theorem emits_update (g : σ → σ) : Emits P (update g : Prog σ ε ω Unit) := fun _ _ h =>
  absurd h List.not_mem_nil

theorem emits_emit {w : ω} (h : P w) : Emits P (emit w : Prog σ ε ω Unit) := fun _ _ hw => by
  rw [run_emit, List.mem_singleton] at hw
  rw [hw]
  exact h

theorem emits_bind {f : α → Prog σ ε ω β} (h : Emits P m) (hf : ∀ a, Emits P (f a)) :
    Emits P (m >>= f) := by
  intro s w hw
  cases hr : (m s).result with
  | ok a =>
    rw [bind_ok f hr] at hw
    rcases List.mem_append.mp hw with hw | hw
    · exact h s w hw
    · exact hf a _ w hw
  | error e =>
    rw [bind_error f hr] at hw
    exact h s w hw

/-- Nothing follows an error. -/
theorem emits_stop (e : ε) (f : α → Prog σ ε ω β) : Emits P ((fail e : Prog σ ε ω α) >>= f) :=
  fun _ _ h => absurd h List.not_mem_nil

theorem emits_observe (h : Emits P m) : Emits P (observe m) := h

theorem emits_mapError {ε' : Type} {g : ε → ε'} (h : Emits P m) : Emits P (mapError g m) := h

theorem emits_ensure {fin : Prog σ ε ω Unit} (hfin : Emits P fin) (h : Emits P m) :
    Emits P (ensure fin m) := by
  intro s w hw
  rcases List.mem_append.mp hw with hw | hw
  · exact h s w hw
  · exact hfin _ w hw

theorem emits_onError {undo : Prog σ ε ω Unit} (hundo : Emits P undo) (h : Emits P m) :
    Emits P (onError undo m) := by
  intro s w hw
  cases hr : (m s).result with
  | ok a =>
    simp only [onError, hr] at hw
    exact h s w hw
  | error e =>
    simp only [onError, hr] at hw
    rcases List.mem_append.mp hw with hw | hw
    · exact h s w hw
    · exact hundo _ w hw

theorem emits_each {f : α → Prog σ ε ω Unit} (hf : ∀ a, Emits P (f a)) (as : List α) :
    Emits P (each f as) := by
  induction as with
  | nil => exact emits_pure ()
  | cons a as ih => exact emits_bind (hf a) fun _ => ih

theorem emits_lift (h : Emits P m) : Emits P (lift m : Owning κ σ ε ω α) := fun s => h s.1

theorem emits_keep {m : Prog σ ε ω κ} (h : Emits P m) : Emits P (keep m) := by
  intro s w hw
  refine h s.1 w ?_
  cases hr : (m s.1).result with
  | ok a => simpa only [keep, hr] using hw
  | error e => simpa only [keep, hr] using hw

theorem emits_withOwner {drop : κ → Prog σ ε ω Unit} {body : Owning κ σ ε ω α}
    (hdrop : ∀ b, Emits P (drop b)) (h : Emits P body) : Emits P (withOwner drop body) := by
  intro s w hw
  rcases List.mem_append.mp hw with hw | hw
  · exact h _ w hw
  · exact emits_each hdrop _ _ w hw

theorem emits_handOver {drop : κ → Prog σ ε ω Unit} {body : Owning κ σ ε ω α}
    (hdrop : ∀ b, Emits P (drop b)) (h : Emits P body) : Emits P (handOver drop body) := by
  intro s w hw
  cases hr : (body (s, [])).result with
  | ok a =>
    simp only [handOver, hr] at hw
    exact h _ w hw
  | error e =>
    simp only [handOver, hr] at hw
    rcases List.mem_append.mp hw with hw | hw
    · exact h _ w hw
    · exact emits_each hdrop _ _ w hw

end Traces

/-! ## 5. Errors -/

/-- Whatever the state, a run of `m` fails only with errors of `P`. -/
def Fails (P : ε → Prop) (m : Prog σ ε ω α) : Prop := ∀ s e, (m s).result = .error e → P e

section Errors

variable {κ : Type} {P : ε → Prop} {m : Prog σ ε ω α}

theorem fails_pure (a : α) : Fails P (pure a : Prog σ ε ω α) := fun _ _ h => nomatch h

theorem fails_gets (g : σ → α) : Fails P (gets g : Prog σ ε ω α) := fun _ _ h => nomatch h

theorem fails_update (g : σ → σ) : Fails P (update g : Prog σ ε ω Unit) := fun _ _ h => nomatch h

theorem fails_emit (w : ω) : Fails P (emit w : Prog σ ε ω Unit) := fun _ _ h => nomatch h

theorem fails_fail {e : ε} (h : P e) : Fails P (fail e : Prog σ ε ω α) := by
  rintro s e' he
  cases he
  exact h

theorem fails_bind {f : α → Prog σ ε ω β} (h : Fails P m) (hf : ∀ a, Fails P (f a)) :
    Fails P (m >>= f) := by
  intro s e he
  cases hr : (m s).result with
  | ok a =>
    rw [bind_ok f hr] at he
    exact hf a _ e he
  | error e' =>
    rw [bind_error f hr] at he
    cases he
    exact h s e hr

/-- Sequencing, for the errors: the second part starts where the first one ended. -/
theorem fails_bind_post {f : α → Prog σ ε ω β} {s : σ} {M : Except ε α → σ → List ω → Prop}
    (h : Post m s M) (hm : Fails P m)
    (hf : ∀ a s' t, M (.ok a) s' t → Post (f a) s' fun r _ _ => ∀ e, r = .error e → P e) :
    Post (m >>= f) s fun r _ _ => ∀ e, r = .error e → P e := by
  have herr : Post m s fun r _ _ => ∀ e, r = .error e → P e := hm s
  refine post_bind (post_and h herr) (fun a s' t h => hf a s' t h.1) fun e s' t h e' he => ?_
  cases he
  exact h.2 e rfl

/-- A program that looks at the result of another one. -/
theorem fails_observe_bind {f : Except ε α → Prog σ ε ω β} (h : Fails P m)
    (hok : ∀ a, Fails P (f (.ok a))) (herr : ∀ e, P e → Fails P (f (.error e))) :
    Fails P (observe m >>= f) := by
  intro s e he
  cases hr : (m s).result with
  | ok a =>
    have ho : (observe m s).result = .ok (.ok a) := congrArg Except.ok hr
    rw [bind_ok f ho] at he
    exact hok a _ e he
  | error e' =>
    have ho : (observe m s).result = .ok (.error e') := congrArg Except.ok hr
    rw [bind_ok f ho] at he
    exact herr e' (h s e' hr) _ e he

/-- The result of the clean-up is dropped. -/
theorem fails_ensure {fin : Prog σ ε ω Unit} (h : Fails P m) : Fails P (ensure fin m) := h

theorem fails_onError {undo : Prog σ ε ω Unit} (h : Fails P m) : Fails P (onError undo m) := by
  intro s e he
  cases hr : (m s).result with
  | ok a =>
    simp only [onError, hr] at he
    cases he
  | error e' =>
    simp only [onError, hr] at he
    cases he
    exact h s e hr

theorem fails_each {f : α → Prog σ ε ω Unit} (hf : ∀ a, Fails P (f a)) (as : List α) :
    Fails P (each f as) := by
  induction as with
  | nil => exact fails_pure ()
  | cons a as ih => exact fails_bind (hf a) fun _ => ih

theorem fails_lift (h : Fails P m) : Fails P (lift m : Owning κ σ ε ω α) := fun s => h s.1

theorem fails_keep {m : Prog σ ε ω κ} (h : Fails P m) : Fails P (keep m) := by
  intro s e he
  refine h s.1 e ?_
  cases hr : (m s.1).result with
  | ok a =>
    simp only [keep, hr] at he
    cases he
  | error e' => simpa only [keep, hr] using he

end Errors

end Fallible
