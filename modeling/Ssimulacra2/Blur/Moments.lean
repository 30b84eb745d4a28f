/-
  File:      Ssimulacra2/Blur/Moments.lean
  Subject:   Mass and variance of the kernel the derivation solves for, at every `sigma`.

  The first two rows of the 3x3 system fix the two moments of the kernel: the sum of the cosines of
  a section is its `p` (`sum_cos_frequency`), and the sum of `m^2` times them is `N^2 p - r`
  (`sum_sq_cos_frequency`).
-/
import Ssimulacra2.Blur.Gaussian

namespace Ssimulacra2

open Finset

/-! ## 1. Second moments of cosines -/

/-- The second moment of the cosines of an odd window, by induction on the window. -/
theorem sin_half_cube_mul_sum (ω : ℝ) (N : Nat) :
    4 * Real.sin (ω / 2) ^ 3 *
        ∑ m ∈ Ioo (-((N + 1 : Nat) : Int)) ((N + 1 : Nat) : Int), (m : ℝ) ^ 2 * Real.cos (ω * m) =
      (4 * (N + 1 / 2 : ℝ) ^ 2 * Real.sin (ω / 2) ^ 2 - Real.sin (ω / 2) ^ 2 -
          2 * Real.cos (ω / 2) ^ 2) * Real.sin (ω * (N + 1) - ω / 2) +
        4 * (N + 1 / 2) * Real.cos (ω / 2) * Real.sin (ω / 2) *
          Real.cos (ω * (N + 1) - ω / 2) := by
  induction N with
  | zero =>
    have e : Ioo (-((0 + 1 : Nat) : Int)) ((0 + 1 : Nat) : Int) = {0} := by decide
    have ea : ω * (((0 : Nat) : ℝ) + 1) - ω / 2 = ω / 2 := by
      push_cast
      ring
    rw [e, sum_singleton, ea]
    push_cast
    ring
  | succ N ih =>
    have hneg : Real.cos (ω * ((-((N + 1 : Nat) : Int) : Int) : ℝ)) = Real.cos (ω * (N + 1)) := by
      push_cast
      rw [← Real.cos_neg]
      congr 1
      ring
    have hnext : ω * (((N + 1 : Nat) : ℝ) + 1) - ω / 2 = ω * (N + 1) + ω / 2 := by
      push_cast
      ring
    rw [Ioo_succ, sum_insert, sum_insert, mul_add, mul_add, ih, hneg, hnext, Real.sin_sub,
      Real.cos_sub, Real.sin_add, Real.cos_add]
    · push_cast
      ring
    · rw [mem_Ioo]
      omega
    · rw [mem_insert, mem_Ioo]
      omega

theorem cos_half_frequency {N : Nat} (hN : 1 ≤ N) (k : Fin 3) :
    Real.cos (frequency N k / 2) ≠ 0 := by
  intro h0
  obtain ⟨n, hn⟩ := Real.cos_eq_zero_iff.mp h0
  have hc := cos_frequency hN k
  have e : frequency N k * N = (((2 * n + 1) * N : Int) : ℝ) * Real.pi := by
    push_cast
    linarith [congrArg (fun t => t * (2 * (N : ℝ))) hn]
  rw [e, Real.cos_int_mul_pi] at hc
  exact zpow_ne_zero _ (by norm_num) hc

/-- The `r` of a section, over the half angle. -/
theorem rOf_frequency {N : Nat} (hN : 1 ≤ N) (k : Fin 3) :
    rOf (omegaOf (N : ℝ)) (pOf (omegaOf (N : ℝ))) k =
      (-1) ^ k.val * (Real.cos (frequency N k / 2) / (2 * Real.sin (frequency N k / 2) ^ 3)) := by
  have hr : rOf (omegaOf (N : ℝ)) (pOf (omegaOf (N : ℝ))) k =
      (-1) ^ k.val * pOf (omegaOf (N : ℝ)) k ^ 2 / Real.sin (omegaOf (N : ℝ) k) := by
    fin_cases k
    · simp [rOf, F64.sin, sq]
    · simp [rOf, F64.sin, sq]
    · simp [rOf, F64.sin, sq]
  have hsq : ((-1 : ℝ) ^ k.val) ^ 2 = 1 := by
    rw [← pow_mul, mul_comm, pow_mul, neg_one_sq, one_pow]
  have hs := sin_half_frequency hN k
  have hc := cos_half_frequency hN k
  have hdouble : Real.sin (frequency N k) =
      2 * Real.sin (frequency N k / 2) * Real.cos (frequency N k / 2) := by
    rw [← Real.sin_two_mul]
    congr 1
    ring
  rw [hr, omegaOf_eq, pOf_frequency, hdouble, mul_pow, hsq, one_mul, mul_div_assoc]
  congr 1
  field_simp

/-- **The second moment of a section** is `N^2 p - r`. -/
theorem sum_sq_cos_frequency {N : Nat} (hN : 1 ≤ N) (k : Fin 3) :
    ∑ m ∈ Ioo (-(N : Int)) N, (m : ℝ) ^ 2 * Real.cos (frequency N k * m) =
      N * N * pOf (omegaOf (N : ℝ)) k - rOf (omegaOf (N : ℝ)) (pOf (omegaOf (N : ℝ))) k := by
  have hs := sin_half_frequency hN k
  rw [pOf_frequency, rOf_frequency hN]
  obtain ⟨M, rfl⟩ : ∃ M, N = M + 1 := ⟨N - 1, by omega⟩
  have h := sin_half_cube_mul_sum (frequency (M + 1) k) M
  have hc := cos_frequency hN k
  have hsn := sin_frequency hN k
  have hone := Real.sin_sq_add_cos_sq (frequency (M + 1) k / 2)
  push_cast at hc hsn
  rw [Real.sin_sub, Real.cos_sub, hc, hsn] at h
  generalize Real.sin (frequency (M + 1) k / 2) = s at *
  generalize Real.cos (frequency (M + 1) k / 2) = c at *
  generalize ((-1 : ℝ) ^ k.val) = e at *
  generalize ∑ m ∈ Ioo (-((M + 1 : Nat) : Int)) ((M + 1 : Nat) : Int),
    (m : ℝ) ^ 2 * Real.cos (frequency (M + 1) k * m) = S at *
  have h4 : 4 * s ^ 3 ≠ 0 := mul_ne_zero (by norm_num) (pow_ne_zero 3 hs)
  refine mul_left_cancel₀ h4 (h.trans ?_)
  push_cast
  field_simp
  linear_combination (-(8 * c * e)) * hone

/-! ## 2. The kernel -/

/-- **The kernel has variance `sigma^2`**: the second equation says so. -/
theorem kernel_variance {N : Nat} (hN : 1 ≤ N) {sigma : ℝ} {omega beta : Fin 3 → ℝ}
    (h : solveWeights sigma (N : ℝ) = some (omega, beta)) :
    ∑ m ∈ Ioo (-(N : Int)) N, (m : ℝ) ^ 2 * kernel N beta m = sigma ^ 2 := by
  obtain ⟨rfl, hp, hr, -⟩ := solveWeights_rows h
  have hs : ∑ m ∈ Ioo (-(N : Int)) N, (m : ℝ) ^ 2 * kernel N beta m =
      ∑ k : Fin 3, beta k * (N * N * pOf (omegaOf (N : ℝ)) k -
        rOf (omegaOf (N : ℝ)) (pOf (omegaOf (N : ℝ))) k) := by
    unfold kernel
    simp only [mul_sum]
    rw [sum_comm]
    refine sum_congr rfl fun k _ => ?_
    rw [← sum_sq_cos_frequency hN, mul_sum]
    exact sum_congr rfl fun m _ => by ring
  rw [hs, Fin.sum_univ_three]
  linear_combination (N : ℝ) ^ 2 * hp - hr

/-- At the radius the kernel is zero, so the closed window sums the same. -/
theorem sum_window {N : Nat} (hN : 1 ≤ N) (beta : Fin 3 → ℝ) (a : Int → ℝ) :
    ∑ m ∈ Icc (-(N : Int)) N, a m * kernel N beta m =
      ∑ m ∈ Ioo (-(N : Int)) N, a m * kernel N beta m := by
  symm
  refine sum_subset (fun m hm => ?_) fun m hm hm' => ?_
  · rw [mem_Ioo] at hm
    rw [mem_Icc]
    omega
  · rw [mem_Icc] at hm
    rw [mem_Ioo] at hm'
    have hz : kernel N beta N = 0 := by
      unfold kernel
      refine sum_eq_zero fun k _ => ?_
      rw [Int.cast_natCast, cos_frequency hN, mul_zero]
    have hend : m = N ∨ m = -N := by omega
    rcases hend with rfl | rfl
    · rw [hz, mul_zero]
    · rw [kernel_neg, hz, mul_zero]

/-! ## 3. The derived filter -/

/-- The radius is a whole number, also as a float. -/
theorem radiusOf_natCast {sigma : ℝ} (hs : 0 < sigma) :
    radiusOf ℝ sigma = (F64.toUsize (radiusOf ℝ sigma) : ℝ) := by
  have hx : (0 : ℝ) ≤ ((3.2795 : ℚ) : ℝ) * sigma + ((0.2546 : ℚ) : ℝ) := by
    have h1 : (0 : ℝ) ≤ ((3.2795 : ℚ) : ℝ) := by norm_num
    have h2 : (0 : ℝ) ≤ ((0.2546 : ℚ) : ℝ) := by norm_num
    have h3 := mul_nonneg h1 hs.le
    linarith
  have hr : radiusOf ℝ sigma =
      (⌊((3.2795 : ℚ) : ℝ) * sigma + ((0.2546 : ℚ) : ℝ) + 1 / 2⌋ : ℝ) := if_pos hx
  have hfloor : (0 : ℤ) ≤ ⌊((3.2795 : ℚ) : ℝ) * sigma + ((0.2546 : ℚ) : ℝ) + 1 / 2⌋ :=
    Int.floor_nonneg.mpr (by linarith)
  have hu (x : ℝ) : F64.toUsize x = ⌊x⌋₊ := rfl
  rw [hr, hu]
  generalize ⌊((3.2795 : ℚ) : ℝ) * sigma + ((0.2546 : ℚ) : ℝ) + 1 / 2⌋ = z at hfloor
  obtain ⟨n, rfl⟩ := Int.eq_ofNat_of_zero_le hfloor
  rw [Int.cast_natCast, Nat.floor_natCast]

/-- **The derived filter is a normalised kernel of the requested variance**: for every `sigma` with
    a radius of at least one for which the 3x3 system is accepted, the constants are those of its
    solution `beta`, the taps sum to one and their second moment is `sigma^2`. -/
theorem derived_moments {sigma : ℝ} (hs : 0 < sigma) {omega beta : Fin 3 → ℝ}
    (hN : 1 ≤ F64.toUsize (radiusOf ℝ sigma))
    (h : solveWeights sigma (radiusOf ℝ sigma) = some (omega, beta)) :
    let N := F64.toUsize (radiusOf ℝ sigma)
    let g : Int → ℝ := fun m => ∑ k, beta k * Real.cos (omega k * m)
    createRecursiveGaussian ℝ sigma = some ((RgConst.ofWeights (N % 2 ^ 32)
      (Nat.mod_lt _ (by decide)) (radiusOf ℝ sigma) omega beta).map narrow) ∧
    (∀ k, omega k = (2 * k.val + 1) * Real.pi / (2 * N)) ∧
    ∑ m ∈ Icc (-(N : Int)) N, g m = 1 ∧ ∑ m ∈ Icc (-(N : Int)) N, (m : ℝ) ^ 2 * g m = sigma ^ 2 := by
  intro N g
  have hr : radiusOf ℝ sigma = (N : ℝ) := radiusOf_natCast hs
  have hw := h
  rw [hr] at hw
  have homega : omega = omegaOf (N : ℝ) := (solveWeights_rows hw).1
  have hg : g = kernel N beta := by
    funext m
    simp only [g, kernel, homega, omegaOf_eq]
  refine ⟨?_, fun k => by rw [homega, omegaOf_eq]; rfl, ?_, ?_⟩
  · unfold createRecursiveGaussian
    simp only [h, Option.map_some]
    rfl
  · have h1 := sum_window hN beta fun _ => 1
    simp only [one_mul] at h1
    rw [hg, h1, kernel_mass hN hw]
  · rw [hg, sum_window hN beta fun m => (m : ℝ) ^ 2, kernel_variance hN hw]

/-- The filter of the engine, `sigma = 1.5`. -/
theorem derived_moments_engine : ∃ beta : Fin 3 → ℝ,
    ∑ m ∈ Icc (-(5 : Int)) 5, ∑ k, beta k * Real.cos (omegaOf (5 : ℝ) k * m) = 1 ∧
    ∑ m ∈ Icc (-(5 : Int)) 5,
      (m : ℝ) ^ 2 * ∑ k, beta k * Real.cos (omegaOf (5 : ℝ) k * m) = 1.5 ^ 2 := by
  obtain ⟨beta, hbeta⟩ := solveWeights_five
  have hs : (F64.lit 1.5 : ℝ) = 1.5 := by norm_num
  have hr : radiusOf ℝ (1.5 : ℝ) = 5 := by rw [← hs, radiusOf_sigma]
  have hN : F64.toUsize (radiusOf ℝ (1.5 : ℝ)) = 5 := by
    have e : F64.toUsize (5 : ℝ) = ⌊(5 : ℝ)⌋₊ := rfl
    rw [hr, e, Nat.floor_ofNat]
  have hm := derived_moments (show (0 : ℝ) < 1.5 by norm_num) (by rw [hN]; decide)
    (by rw [hr]; exact hbeta)
  simp only [hN] at hm
  exact ⟨beta, hm.2.2⟩

end Ssimulacra2
