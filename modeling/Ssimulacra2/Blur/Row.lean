/-
  File:      Ssimulacra2/Blur/Row.lean
  Subject:   `blur_1d` on one row, over any commutative ring.

  The row is scanned with two kinds of stores: into the output vector, as the source does, and into
  a log of index and value. The log shows which index is written when; that a scan answers at all
  shows that every read was inside the row.
-/
import Ssimulacra2.Blur.Table

namespace Ssimulacra2

open Loop Fill

variable {R : Type} [CommRing R]

/-- A store that only notes down what is written where. -/
def logWrite (i : Int) (v : R) (log : List (Int × R)) : Option (List (Int × R)) :=
  some (log ++ [(i, v)])

/-- The row continued with zeros. -/
def rowInput (src : List R) (i : Int) : R := if 0 ≤ i ∧ i < src.length then cell src i.toNat else 0

theorem pads_rowInput (src : List R) : Pads (readAt src) src.length (rowInput src) where
  inside i h0 h1 := by
    unfold rowInput
    rw [readAt_eq h0 (by omega), if_pos ⟨h0, h1⟩]
  outside i hi := if_neg (by omega)

omit [CommRing R] in
/-- **The log of a loop of stores**: the indices from zero on, one after the other. -/
theorem loopBelow_log (v : Int → R) (len : Nat) (n : Int) (hn : n ≤ len)
    (log : List (Int × R)) :
    (loopBelow len 1 (emitStep logWrite v) n log).map Prod.snd =
      some (log ++ (List.range' n.toNat (len - n.toNat)).map fun i : Nat => ((i : Int), v i)) := by
  induction n using loop_induction (len : Int) (le_refl (1 : Int)) generalizing log with
  | done n hlt =>
    have e : len - n.toNat = 0 := by omega
    rw [loopBelow_done _ hlt, e, List.range'_zero, List.map_nil, List.append_nil]
    rfl
  | round n hlt ih =>
    rw [loopBelow_step le_rfl _ hlt]
    rcases lt_or_ge n 0 with hneg | h0
    · have hstep : emitStep logWrite v n log = some log := if_neg (by omega)
      have e : (n + 1).toNat = n.toNat := by omega
      rw [hstep, Option.bind_some, ih (by omega), e]
    · have hstep : emitStep logWrite v n log = some (log ++ [(n, v n)]) := if_pos h0
      obtain ⟨k, hk⟩ : ∃ k, len - n.toNat = k + 1 := ⟨len - n.toNat - 1, by omega⟩
      have e : (n + 1).toNat = n.toNat + 1 := by omega
      have ek : len - (n.toNat + 1) = k := by omega
      have en : ((n.toNat : Nat) : Int) = n := Int.toNat_of_nonneg h0
      rw [hstep, Option.bind_some, ih (by omega), e, ek, hk, List.range'_succ, List.map_cons, en,
        List.append_assoc, List.singleton_append]

/-- **The unrolled horizontal blur is the plain recurrence**: for any solution `y` of the three
    recurrences on the row continued with zeros, and there is one, `blur_1d` reads inside the row
    only, writes the indices of the row one after the other, each once, and what it writes at
    `n` is the sum of the three `y k n`. -/
theorem blur1d_recurrence {N : Nat} (hN : 1 ≤ N) (h32 : N < 2 ^ 32) (n2 d1 : Fin 3 → R)
    (src dst : List R) (hdst : dst.length = src.length) :
    (∃ y, Solves (RgConst.ofSections N h32 n2 d1) (rowInput src) y) ∧
    ∀ y, Solves (RgConst.ofSections N h32 n2 d1) (rowInput src) y →
      scanRow (readAt src) logWrite (RgConst.ofSections N h32 n2 d1) src.length [] =
          some ((List.range src.length).map fun i : Nat => ((i : Int), ∑ k, y k i)) ∧
        blur1d src dst (RgConst.ofSections N h32 n2 d1) =
          some ((List.range src.length).map fun i : Nat => ∑ k, y k i) := by
  refine ⟨⟨_, response_solves _ _⟩, fun y hy => ?_⟩
  have hrg := expanded_ofSections N h32 n2 d1
  have hsum (n : Int) : (combine fun k => y k n) = ∑ k, y k n := by
    unfold combine
    rw [Fin.sum_univ_three, add_assoc]
  constructor
  · have hr : (RgConst.ofSections N h32 n2 d1).radius = N := rfl
    have e : (-(N : Int) + 1).toNat = 0 := by omega
    rw [scanRow_emits hy (pads_rowInput src) hrg hN, hr,
      loopBelow_log _ _ _ (show -(N : Int) + 1 ≤ src.length by omega), e, Nat.sub_zero,
      ← List.range_eq_range', List.nil_append]
    simp only [hsum]
  · have hf : Fills src.length (fun i => ∑ k, y k (i : Int))
        (fun xs => (loopBelow src.length 1 (emitStep writeAt fun n => combine fun k => y k n)
          (-(N : Int) + 1) xs).map Prod.snd)
        {j | ∃ i : Int, 0 ≤ i ∧ i < src.length ∧ j = i.toNat} := by
      refine fills_emit _ Int.toNat (fun i h0 hi => ?_) (fun i h0 hi xs => ?_) (by omega)
      · rw [hsum, Int.toNat_of_nonneg h0]
        exact ⟨by omega, rfl⟩
      · rw [Int.toNat_of_nonneg h0]
    exact (scanRow_emits hy (pads_rowInput src) hrg hN dst).trans
      (hf.table (fun j hj => ⟨j, by omega, by omega, by omega⟩) dst hdst)

/-- Radius 5 on a row of 20, which goes through all three loops of the scan. -/
theorem blur1d_recurrence_twenty :
    let n2 : Fin 3 → ℤ := fun k => k.val + 1
    let d1 : Fin 3 → ℤ := fun k => 2 - k.val
    let rg := RgConst.ofSections 5 (by decide) n2 d1
    let src : List ℤ := (List.range 20).map fun i : Nat => (i : ℤ) ^ 2 - 7
    ∃ y, Solves rg (rowInput src) y ∧
      scanRow (readAt src) logWrite rg 20 [] =
        some ((List.range 20).map fun i : Nat => ((i : Int), ∑ k, y k i)) ∧
      blur1d src (.replicate 20 0) rg = some ((List.range 20).map fun i : Nat => ∑ k, y k i) := by
  intro n2 d1 rg src
  obtain ⟨⟨y, hy⟩, hall⟩ := blur1d_recurrence (N := 5) (by decide) (by decide) n2 d1 src
    (.replicate 20 0) rfl
  exact ⟨y, hy, hall y hy⟩

end Ssimulacra2
