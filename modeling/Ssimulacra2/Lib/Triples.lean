/-
  File:      Ssimulacra2/Lib/Triples.lean
  Subject:   Programs that keep an invariant, and programs that answer unless an event is a fault.

  `Keeps I P Q m` says of every run of `m` from a state of `I` that it ends in a state of `I`,
  emits only events of `P` and answers only values of `Q`. The rules follow the control structures
  of `Fallible`; the values a step answers are known to the step after it.

  `Smooth fine m s Q` says of the run of `m` from `s` that it answers, in `Q`, when all its events
  are fine. Such a run never takes an error path, so its rules need no case for one.
-/
import Ssimulacra2.Lib.Fallible

namespace Fallible

open Prog

variable {σ ε ω α β : Type}

/-- **Invariant, events and answers** of a program. -/
def Keeps (I : σ → Prop) (P : ω → Prop) (Q : α → Prop) (m : Prog σ ε ω α) : Prop :=
  ∀ s, I s → I (m s).state ∧ (∀ w ∈ (m s).trace, P w) ∧ ∀ a, (m s).result = .ok a → Q a

/-- No answer in particular. -/
def anyAnswer (_ : α) : Prop := True

theorem error_ne_ok {e : ε} {a : α} : (Except.error e : Except ε α) ≠ .ok a := nofun

/-! ## 1. Invariants -/

section Rules

variable {I : σ → Prop} {P : ω → Prop} {Q : α → Prop} {R : β → Prop} {m : Prog σ ε ω α}

theorem Keeps.mono {Q' : α → Prop} (h : Keeps I P Q m) (hQ : ∀ a, Q a → Q' a) : Keeps I P Q' m :=
  fun s hs => ⟨(h s hs).1, (h s hs).2.1, fun a ha => hQ a ((h s hs).2.2 a ha)⟩

theorem Keeps.any (h : Keeps I P Q m) : Keeps I P anyAnswer m := h.mono fun _ _ => trivial

theorem keeps_pure {a : α} (h : Q a) : Keeps I P Q (pure a : Prog σ ε ω α) :=
  fun _ hs => ⟨hs, fun _ hw => absurd hw List.not_mem_nil, fun _ ha => Except.ok.inj ha ▸ h⟩

theorem keeps_fail (e : ε) : Keeps I P Q (fail e : Prog σ ε ω α) :=
  fun _ hs => ⟨hs, fun _ hw => absurd hw List.not_mem_nil, fun _ ha => absurd ha error_ne_ok⟩

theorem keeps_gets {g : σ → α} (h : ∀ s, I s → Q (g s)) :
    Keeps I P Q (gets g : Prog σ ε ω α) :=
  fun s hs => ⟨hs, fun _ hw => absurd hw List.not_mem_nil, fun _ ha => Except.ok.inj ha ▸ h s hs⟩

theorem keeps_update {g : σ → σ} (h : ∀ s, I s → I (g s)) :
    Keeps I P anyAnswer (update g : Prog σ ε ω Unit) :=
  fun s hs => ⟨h s hs, fun _ hw => absurd hw List.not_mem_nil, fun _ _ => trivial⟩

theorem keeps_emit {w : ω} (h : P w) : Keeps I P anyAnswer (emit w : Prog σ ε ω Unit) :=
  fun s hs => ⟨hs, fun w' hw => by
    rw [run_emit, List.mem_singleton] at hw
    rw [hw]
    exact h, fun _ _ => trivial⟩

/-- **Sequencing.** -/
theorem keeps_bind {f : α → Prog σ ε ω β} (h : Keeps I P Q m)
    (hf : ∀ a, Q a → Keeps I P R (f a)) : Keeps I P R (m >>= f) := by
  intro s hs
  obtain ⟨h1, h2, h3⟩ := h s hs
  cases hr : (m s).result with
  | ok a =>
    obtain ⟨k1, k2, k3⟩ := hf a (h3 a hr) _ h1
    rw [bind_ok f hr]
    exact ⟨k1, fun w hw => (List.mem_append.mp hw).elim (h2 w) (k2 w), k3⟩
  | error e =>
    rw [bind_error f hr]
    exact ⟨h1, h2, fun _ ha => absurd ha error_ne_ok⟩

theorem keeps_observe (h : Keeps I P Q m) :
    Keeps I P (fun r => ∀ a, r = .ok a → Q a) (observe m) :=
  fun s hs => ⟨(h s hs).1, (h s hs).2.1, fun _ hr a ha => (h s hs).2.2 a
    ((Except.ok.inj hr).trans ha)⟩

/-- **Clean-up on every path.** -/
theorem keeps_ensure {fin : Prog σ ε ω Unit} (hfin : Keeps I P anyAnswer fin)
    (h : Keeps I P Q m) : Keeps I P Q (ensure fin m) := by
  intro s hs
  obtain ⟨h1, h2, h3⟩ := h s hs
  obtain ⟨k1, k2, -⟩ := hfin _ h1
  exact ⟨k1, fun w hw => (List.mem_append.mp hw).elim (h2 w) (k2 w), h3⟩

/-- **Clean-up on the error path.** -/
theorem keeps_onError {undo : Prog σ ε ω Unit} (hundo : Keeps I P anyAnswer undo)
    (h : Keeps I P Q m) : Keeps I P Q (onError undo m) := by
  intro s hs
  obtain ⟨h1, h2, h3⟩ := h s hs
  cases hr : (m s).result with
  | ok a =>
    simp only [onError, hr]
    exact ⟨h1, h2, fun b hb => h3 b (hr.trans hb)⟩
  | error e =>
    obtain ⟨k1, k2, -⟩ := hundo _ h1
    simp only [onError, hr]
    exact ⟨k1, fun w hw => (List.mem_append.mp hw).elim (h2 w) (k2 w), fun _ ha => absurd ha error_ne_ok⟩

theorem keeps_each {f : α → Prog σ ε ω Unit} {as : List α}
    (hf : ∀ a ∈ as, Keeps I P anyAnswer (f a)) : Keeps I P anyAnswer (each f as) := by
  induction as with
  | nil => exact keeps_pure trivial
  | cons a as ih =>
    exact keeps_bind (hf a List.mem_cons_self) fun _ _ =>
      ih fun b hb => hf b (List.mem_cons_of_mem _ hb)

end Rules

/-! ## 2. Runs without a fault -/

/-- **A run without a fault answers**, in `Q`. -/
def Smooth (fine : ω → Prop) (m : Prog σ ε ω α) (s : σ) (Q : α → σ → List ω → Prop) : Prop :=
  (∀ w ∈ (m s).trace, fine w) → ∃ a, (m s).result = .ok a ∧ Q a (m s).state (m s).trace

section Smooth

variable {fine : ω → Prop} {m : Prog σ ε ω α} {f : α → Prog σ ε ω β} {s : σ}

theorem smooth_mono {Q R : α → σ → List ω → Prop} (h : Smooth fine m s Q)
    (hQ : ∀ a s' t, Q a s' t → R a s' t) : Smooth fine m s R := by
  intro hw
  obtain ⟨a, ha, hq⟩ := h hw
  exact ⟨a, ha, hQ _ _ _ hq⟩

/-- What is so of every run is so of a run without a fault. -/
theorem smooth_and {Q : α → σ → List ω → Prop} {R : Except ε α → σ → List ω → Prop}
    (h : Smooth fine m s Q) (h' : Post m s R) :
    Smooth fine m s fun a s' t => Q a s' t ∧ R (.ok a) s' t := by
  intro hw
  obtain ⟨a, ha, hq⟩ := h hw
  unfold Post at h'
  rw [ha] at h'
  exact ⟨a, ha, hq, h'⟩

/-- A run that is known. -/
theorem smooth_run {a : α} {s' : σ} {t : List ω} {Q : α → σ → List ω → Prop}
    (hm : m s = ⟨.ok a, s', t⟩) (h : Q a s' t) : Smooth fine m s Q := by
  intro _
  rw [hm]
  exact ⟨a, rfl, h⟩

theorem smooth_pure {a : α} {Q : α → σ → List ω → Prop} (h : Q a s []) :
    Smooth fine (pure a : Prog σ ε ω α) s Q := smooth_run rfl h

/-- **Sequencing**: a run without a fault has two parts without one. -/
theorem smooth_bind {M : α → σ → List ω → Prop} {Q : β → σ → List ω → Prop}
    (h : Smooth fine m s M)
    (hf : ∀ a s' t, M a s' t → Smooth fine (f a) s' fun b s'' t' => Q b s'' (t ++ t')) :
    Smooth fine (m >>= f) s Q := by
  intro hw
  cases hr : (m s).result with
  | ok a =>
    rw [bind_ok f hr] at hw ⊢
    obtain ⟨hw1, hw2⟩ := List.forall_mem_append.mp hw
    obtain ⟨a', ha, hM⟩ := h hw1
    rw [hr] at ha
    cases ha
    exact hf a _ _ hM hw2
  | error e =>
    rw [bind_error f hr] at hw
    obtain ⟨a, ha, -⟩ := h hw
    rw [hr] at ha
    cases ha

/-- A step whose run is known. -/
theorem smooth_step {a : α} {s' : σ} {t : List ω} {Q : β → σ → List ω → Prop}
    (hm : m s = ⟨.ok a, s', t⟩) (h : Smooth fine (f a) s' fun b s'' t' => Q b s'' (t ++ t')) :
    Smooth fine (m >>= f) s Q :=
  smooth_bind (M := fun a' s'' t' => a' = a ∧ s'' = s' ∧ t' = t) (smooth_run hm ⟨rfl, rfl, rfl⟩)
    fun a' s'' t' hM => by
      obtain ⟨rfl, rfl, rfl⟩ := hM
      exact h

theorem smooth_observe {Q : Except ε α → σ → List ω → Prop}
    (h : Smooth fine m s fun a s' t => Q (.ok a) s' t) : Smooth fine (observe m) s Q := by
  intro hw
  obtain ⟨a, ha, hq⟩ := h hw
  exact ⟨.ok a, congrArg Except.ok ha, hq⟩

/-- A clean-up whose run is known. -/
theorem smooth_ensure {fin : Prog σ ε ω Unit} {M Q : α → σ → List ω → Prop}
    (h : Smooth fine m s M)
    (hfin : ∀ a s' t, M a s' t → Q a (fin s').state (t ++ (fin s').trace)) :
    Smooth fine (ensure fin m) s Q := by
  intro hw
  obtain ⟨a, ha, hM⟩ := h (List.forall_mem_append.mp hw).1
  exact ⟨a, ha, hfin a _ _ hM⟩

/-- What a failure would undo stays. -/
theorem smooth_onError {undo : Prog σ ε ω Unit} {Q : α → σ → List ω → Prop}
    (h : Smooth fine m s Q) : Smooth fine (onError undo m) s Q := by
  intro hw
  cases hr : (m s).result with
  | ok a =>
    simp only [onError, hr] at hw ⊢
    obtain ⟨a', ha, hq⟩ := h hw
    rw [hr] at ha
    cases ha
    exact ⟨a, rfl, hq⟩
  | error e =>
    simp only [onError, hr] at hw
    obtain ⟨a, ha, -⟩ := h (List.forall_mem_append.mp hw).1
    rw [hr] at ha
    cases ha

end Smooth

end Fallible
