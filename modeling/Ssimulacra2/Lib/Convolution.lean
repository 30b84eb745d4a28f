/-
  File:      Ssimulacra2/Lib/Convolution.lean
  Subject:   Finite convolutions whose kernel obeys a three-term recurrence.

  A kernel `c` on `-N < m < N` that continues to a solution of `c (m + 1) = t * c m - c (m - 1)`
  with `c N = c (-N) = 0` needs no convolution sum: the convolution obeys a recurrence of its own,
  fed with two samples per step (`conv_recurrence`). Truncated cosines are such kernels.
-/
import Mathlib

namespace Convolution

open Finset

section Ring

variable {R : Type*} [CommRing R]

/-- The convolution of `x` with the kernel `c`, cut to `-N < m < N`. -/
noncomputable def conv (N : Nat) (c x : Int → R) (n : Int) : R := ∑ m ∈ Ioo (-(N : Int)) N, c m * x (n - m)

theorem conv_eq_range {N : Nat} (hN : 1 ≤ N) (c x : Int → R) (n : Int) :
    conv N c x n = ∑ j ∈ range (2 * N - 1), c (j + 1 - N) * x (n + N - 1 - j) := by
  unfold conv
  refine Finset.sum_nbij' (fun m => (m + N - 1).toNat) (fun j => (j : Int) + 1 - N) ?_ ?_ ?_ ?_ ?_
  · intro m hm
    rw [mem_Ioo] at hm
    rw [mem_range]
    omega
  · intro j hj
    rw [mem_range] at hj
    rw [mem_Ioo]
    omega
  · intro m hm
    rw [mem_Ioo] at hm
    omega
  · intro j hj
    omega
  · intro m hm
    rw [mem_Ioo] at hm
    rw [show (((m + N - 1).toNat : Nat) : Int) + 1 - N = m by omega,
      show n + (N : Int) - 1 - ((m + N - 1).toNat : Nat) = n - m by omega]

/-- Nothing comes out before the first sample has come in. -/
theorem conv_before {N : Nat} {c x : Int → R} (hx : ∀ i < 0, x i = 0) {n : Int}
    (hn : n ≤ -(N : Int)) : conv N c x n = 0 := by
  refine Finset.sum_eq_zero fun m hm => ?_
  rw [mem_Ioo] at hm
  rw [hx (n - m) (by omega), mul_zero]

theorem conv_add (N : Nat) (c c' x : Int → R) (n : Int) :
    conv N (fun m => c m + c' m) x n = conv N c x n + conv N c' x n := by
  unfold conv
  rw [← Finset.sum_add_distrib]
  exact Finset.sum_congr rfl fun m _ => add_mul _ _ _

/-- **The recurrence of a convolution**: both ends of the kernel meet a zero, so a step needs the
    two samples entering and leaving there only. -/
theorem conv_recurrence {N : Nat} (hN : 1 ≤ N) {c : Int → R} {t q : R}
    (hc : ∀ m, c (m + 1) = t * c m - c (m - 1)) (hr : c N = 0) (hl : c (-N) = 0)
    (hqr : c (N + 1) = -q) (hql : c (-N - 1) = -q) (x : Int → R) (n : Int) :
    conv N c x n =
      q * (x (n - N - 1) + x (n + N - 1)) + t * conv N c x (n - 1) - conv N c x (n - 2) := by
  obtain ⟨k, hk⟩ : ∃ k : Nat, 2 * N = k + 1 := ⟨2 * N - 1, by omega⟩
  have hk' : 2 * N - 1 = k := by omega
  -- all three sums over the samples `X 0, ..., X (2 N)`
  let X : Nat → R := fun j => x (n + N - 1 - j)
  have h0 : conv N c x n = ∑ j ∈ range (2 * N + 1), c (j + 1 - N) * X j + q * X (2 * N) := by
    rw [conv_eq_range hN, hk', hk, sum_range_succ, sum_range_succ,
      show (k : Int) + 1 - N = N by omega, hr, show ((k + 1 : Nat) : Int) + 1 - N = N + 1 by omega,
      hqr]
    ring
  have h1 : conv N c x (n - 1) = ∑ j ∈ range (2 * N + 1), c (j - N) * X j := by
    have e (j : Nat) : c (j + 1 - N) * x (n - 1 + N - 1 - j) = c ((j + 1 : Nat) - N) * X (j + 1) := by
      simp only [X]
      push_cast
      rw [show n - 1 + (N : Int) - 1 - j = n + N - 1 - (j + 1) by omega]
    rw [conv_eq_range hN, hk', hk, sum_range_succ, sum_range_succ',
      show ((k + 1 : Nat) : Int) - N = N by omega, hr, show ((0 : Nat) : Int) - N = -N by omega, hl,
      sum_congr rfl fun j _ => e j]
    ring
  have h2 : conv N c x (n - 2) =
      ∑ j ∈ range (2 * N + 1), c (j - 1 - N) * X j + q * X 0 := by
    have e (j : Nat) : c (j + 1 - N) * x (n - 2 + N - 1 - j) =
        c ((j + 1 + 1 : Nat) - 1 - N) * X (j + 1 + 1) := by
      simp only [X]
      push_cast
      rw [show n - 2 + (N : Int) - 1 - j = n + N - 1 - (j + 1 + 1) by omega,
        show (j : Int) + 1 - N = j + 1 + 1 - 1 - N by omega]
    rw [conv_eq_range hN, hk', hk, sum_range_succ', sum_range_succ',
      show ((0 + 1 : Nat) : Int) - 1 - N = -N by omega, hl,
      show ((0 : Nat) : Int) - 1 - N = -N - 1 by omega, hql, sum_congr rfl fun j _ => e j]
    ring
  -- and there the kernel's own recurrence cancels term by term
  have hterm : ∑ j ∈ range (2 * N + 1), c (j + 1 - N) * X j =
      t * ∑ j ∈ range (2 * N + 1), c (j - N) * X j -
        ∑ j ∈ range (2 * N + 1), c (j - 1 - N) * X j := by
    rw [mul_sum, ← sum_sub_distrib]
    refine sum_congr rfl fun j _ => ?_
    have hj := hc (j - N)
    rw [show (j : Int) - N + 1 = j + 1 - N by omega,
      show (j : Int) - N - 1 = j - 1 - N by omega] at hj
    rw [hj]
    ring
  have hX0 : X 0 = x (n + N - 1) := by
    simp only [X]
    rw [Nat.cast_zero, sub_zero]
  have hXe : X (2 * N) = x (n - N - 1) := by
    simp only [X]
    push_cast
    rw [show n + (N : Int) - 1 - 2 * N = n - N - 1 by omega]
  rw [h0, h1, h2, hterm, hX0, hXe]
  ring

end Ring

/-! ## Truncated cosines -/

section Cosine

open Real

/-- **A truncated cosine**: with `cos (ω N) = 0` the convolution with `β cos (ω m)` is a recurrence
    with the factors `2 cos ω` and `-β cos (ω (N + 1))`. -/
theorem conv_cos {N : Nat} (hN : 1 ≤ N) (β ω : ℝ) (hω : cos (ω * N) = 0) (x : Int → ℝ) (n : Int) :
    conv N (fun m => β * cos (ω * m)) x n =
      -(β * cos (ω * (N + 1))) * (x (n - N - 1) + x (n + N - 1)) +
        2 * cos ω * conv N (fun m => β * cos (ω * m)) x (n - 1) -
        conv N (fun m => β * cos (ω * m)) x (n - 2) := by
  refine conv_recurrence hN (fun m => ?_) ?_ ?_ ?_ ?_ x n
  · have e1 : ω * ((m + 1 : Int) : ℝ) = ω * m + ω := by push_cast; ring
    have e2 : ω * ((m - 1 : Int) : ℝ) = ω * m - ω := by push_cast; ring
    rw [e1, e2, cos_add, cos_sub]
    ring
  · rw [Int.cast_natCast, hω, mul_zero]
  · rw [Int.cast_neg, Int.cast_natCast, mul_neg, cos_neg, hω, mul_zero]
  · push_cast
    rw [neg_neg]
  · push_cast
    rw [show ω * (-(N : ℝ) - 1) = -(ω * (N + 1)) by ring, cos_neg, neg_neg]

end Cosine

end Convolution
