/-
  File:      Ssimulacra2/Scales.lean
  Subject:   The scale loop: what holds of a round holds of the run.

  * `scaleLoop_append` -- the scales already pushed stay in front;
  * `scaleLoop_bind` -- a round in two parts is a loop over the first part and a pass over its
    results;
  * `scaleLoop_run` -- an invariant of the levels, and what a round answers under it.
-/
import Ssimulacra2.Images

namespace Ssimulacra2

variable {F : Type} [F32 F] {α β : Type}

theorem nextLevel_zero (l : Level F) : nextLevel 0 l = some l := rfl

/-- **The scales already pushed stay in front.** -/
theorem scaleLoop_append (round : Level F → Option α) (left scale : Nat) (l : Level F)
    (acc : List α) :
    scaleLoop round left scale l acc = (scaleLoop round left scale l []).map (acc ++ ·) := by
  induction left generalizing scale l acc with
  | zero =>
    unfold scaleLoop
    rw [Option.map_some, List.append_nil]
  | succ left ih =>
    unfold scaleLoop
    split
    · rw [Option.map_some, List.append_nil]
    · rw [Option.bind_eq_bind, Option.bind_eq_bind, Option.map_bind]
      refine congrArg _ (funext fun l' => ?_)
      rw [Function.comp_apply, Option.map_bind]
      refine congrArg _ (funext fun a => ?_)
      rw [Function.comp_apply, ih, ih _ _ ([] ++ [a]), Option.map_map]
      refine congrArg (Option.map · _) (funext fun t => ?_)
      simp

/-- One round and the rest. -/
theorem scaleLoop_succ (round : Level F → Option α) (left scale : Nat) (l : Level F)
    (h : ¬(l.w < 8 ∨ l.h < 8)) :
    scaleLoop round (left + 1) scale l [] =
      (nextLevel scale l).bind fun l' => (round l').bind fun a =>
        (scaleLoop round left (scale + 1) l' []).map (a :: ·) := by
  conv => left; unfold scaleLoop
  rw [if_neg h]
  refine congrArg _ (funext fun l' => congrArg _ (funext fun a => ?_))
  rw [scaleLoop_append, List.nil_append]
  rfl

theorem scaleLoop_break (round : Level F → Option α) (left scale : Nat) (l : Level F)
    (h : l.w < 8 ∨ l.h < 8) : scaleLoop round left scale l [] = some [] := by
  cases left with
  | zero => rfl
  | succ left =>
    unfold scaleLoop
    rw [if_pos h]

/-- A level that does not end the loop is one of its scales. -/
theorem scaleLoop_ne_nil {round : Level F → Option α} {left scale : Nat} {l : Level F} {t : List α}
    (h : ¬(l.w < 8 ∨ l.h < 8)) (ht : scaleLoop round (left + 1) scale l [] = some t) : t ≠ [] := by
  rw [scaleLoop_succ _ _ _ _ h] at ht
  obtain ⟨l', -, ht⟩ := Option.bind_eq_some_iff.mp ht
  obtain ⟨a, -, ht⟩ := Option.bind_eq_some_iff.mp ht
  obtain ⟨t', -, rfl⟩ := Option.map_eq_some_iff.mp ht
  exact List.cons_ne_nil a t'

/-- There are no more scales than rounds. -/
theorem scaleLoop_length {round : Level F → Option α} {left scale : Nat} {l : Level F} {t : List α}
    (ht : scaleLoop round left scale l [] = some t) : t.length ≤ left := by
  induction left generalizing scale l t with
  | zero =>
    cases ht
    exact le_rfl
  | succ left ih =>
    by_cases h : l.w < 8 ∨ l.h < 8
    · rw [scaleLoop_break _ _ _ _ h] at ht
      cases ht
      exact Nat.zero_le _
    · rw [scaleLoop_succ _ _ _ _ h] at ht
      obtain ⟨l', -, ht⟩ := Option.bind_eq_some_iff.mp ht
      obtain ⟨a, -, ht⟩ := Option.bind_eq_some_iff.mp ht
      obtain ⟨t', ht', rfl⟩ := Option.map_eq_some_iff.mp ht
      exact Nat.succ_le_succ (ih ht')

/-- **A round in two parts.** -/
theorem scaleLoop_bind (round : Level F → Option α) (pool : α → Option β) (left scale : Nat)
    (l : Level F) :
    scaleLoop (fun l => (round l).bind pool) left scale l [] =
      (scaleLoop round left scale l []).bind fun t => t.mapM pool := by
  induction left generalizing scale l with
  | zero => rfl
  | succ left ih =>
    by_cases h : l.w < 8 ∨ l.h < 8
    · rw [scaleLoop_break _ _ _ _ h, scaleLoop_break _ _ _ _ h]
      rfl
    · rw [scaleLoop_succ _ _ _ _ h, scaleLoop_succ _ _ _ _ h, Option.bind_assoc]
      refine congrArg _ (funext fun l' => ?_)
      rw [Option.bind_assoc, Option.bind_assoc]
      refine congrArg _ (funext fun a => ?_)
      rw [ih, Option.bind_map]
      cases scaleLoop round left (scale + 1) l' [] with
      | none =>
        cases pool a with
        | none => rfl
        | some b => rfl
      | some t =>
        rw [Option.bind_some, Option.bind_some, Function.comp_apply, List.mapM_cons]
        cases List.mapM pool t with
        | none => rfl
        | some u => rfl

/-- **Runs**: when a round goes through on every level that satisfies `I`, keeps `I` and answers
    something that satisfies `Q`, the loop goes through and every answer satisfies `Q`. -/
theorem scaleLoop_run {round : Level F → Option α} {I : Level F → Prop} {Q : α → Prop}
    (hstep : ∀ scale l, I l → ¬(l.w < 8 ∨ l.h < 8) →
      ∃ l' a, nextLevel scale l = some l' ∧ I l' ∧ round l' = some a ∧ Q a)
    (left scale : Nat) (l : Level F) (hl : I l) :
    ∃ t, scaleLoop round left scale l [] = some t ∧ ∀ a ∈ t, Q a := by
  induction left generalizing scale l with
  | zero => exact ⟨[], rfl, fun a ha => absurd ha List.not_mem_nil⟩
  | succ left ih =>
    by_cases h : l.w < 8 ∨ l.h < 8
    · exact ⟨[], scaleLoop_break _ _ _ _ h, fun a ha => absurd ha List.not_mem_nil⟩
    · obtain ⟨l', a, e, hl', ea, ha⟩ := hstep scale l hl h
      obtain ⟨t, et, ht⟩ := ih (scale + 1) l' hl'
      refine ⟨a :: t, ?_, ?_⟩
      · rw [scaleLoop_succ _ _ _ _ h, e, Option.bind_some, ea, Option.bind_some, et,
          Option.map_some]
      · intro b hb
        rcases List.mem_cons.mp hb with rfl | hb
        · exact ha
        · exact ht b hb

/-- The scales pooled by the engine are the pooled images of its scales. -/
theorem computeWith_maps {D : Type} [F64 D] [Convert F D] (ops : ScaleOps F) (lin1 lin2 : List F)
    (w h : Nat) :
    computeWith D ops lin1 lin2 w h =
      (mapsWith ops lin1 lin2 w h).bind fun t => t.mapM (poolScale D) :=
  scaleLoop_bind _ _ _ _ _

end Ssimulacra2
