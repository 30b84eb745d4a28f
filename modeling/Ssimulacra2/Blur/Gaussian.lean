/-
  File:      Ssimulacra2/Blur/Gaussian.lean
  Subject:   The kernel the derivation solves for: its mass, and its signs at `sigma = 1.5`.

  * `sum_cos_frequency` -- the cosines of a section sum to the `p` of the derivation;
  * `inv3x3_solves` -- the weights solve the 3x3 system, whose first row says that the kernel has
    mass one (`kernel_mass`);
  * `gaussian_kernel` -- for the `sigma` the engine uses the derivation succeeds with radius 5 and
    no tap is negative.
-/
import Ssimulacra2.Blur.Kernel

namespace Ssimulacra2

open Finset

/-! ## 1. Sums of cosines -/

theorem Ioo_succ (N : Nat) : Ioo (-((N + 1 + 1 : Nat) : Int)) ((N + 1 + 1 : Nat) : Int) =
    insert ((N + 1 : Nat) : Int) (insert (-((N + 1 : Nat) : Int))
      (Ioo (-((N + 1 : Nat) : Int)) ((N + 1 : Nat) : Int))) := by
  ext m
  simp only [mem_Ioo, mem_insert]
  omega

/-- The sum of the cosines of an odd window, over the half angle. -/
theorem sin_half_mul_sum_cos (ω : ℝ) (N : Nat) :
    Real.sin (ω / 2) * ∑ m ∈ Ioo (-((N + 1 : Nat) : Int)) ((N + 1 : Nat) : Int), Real.cos (ω * m) =
      Real.sin (ω * (N + 1) - ω / 2) := by
  induction N with
  | zero =>
    have e : Ioo (-((0 + 1 : Nat) : Int)) ((0 + 1 : Nat) : Int) = {0} := by decide
    rw [e, sum_singleton]
    push_cast
    rw [mul_zero, Real.cos_zero, mul_one]
    congr 1
    ring
  | succ N ih =>
    rw [Ioo_succ, sum_insert, sum_insert, mul_add, mul_add, ih]
    · have h1 : Real.sin (ω * ((N + 1 : Nat) + 1) - ω / 2) =
          Real.sin (ω * (N + 1)) * Real.cos (ω / 2) + Real.cos (ω * (N + 1)) * Real.sin (ω / 2) := by
        rw [← Real.sin_add]
        congr 1
        push_cast
        ring
      have h2 : Real.cos (ω * ((-((N + 1 : Nat) : Int) : Int) : ℝ)) = Real.cos (ω * (N + 1)) := by
        push_cast
        rw [← Real.cos_neg]
        congr 1
        ring
      rw [h1, h2, Real.sin_sub]
      push_cast
      ring
    · rw [mem_Ioo]
      omega
    · rw [mem_insert, mem_Ioo]
      omega

theorem sin_half_frequency {N : Nat} (hN : 1 ≤ N) (k : Fin 3) :
    Real.sin (frequency N k / 2) ≠ 0 := by
  intro h0
  obtain ⟨n, hn⟩ := Real.sin_eq_zero_iff.mp h0
  have hc := cos_frequency hN k
  have e : frequency N k * N = ((n * N : Int) : ℝ) * (2 * Real.pi) := by
    push_cast
    linarith [hn, congrArg (fun t => t * (2 * (N : ℝ))) hn]
  rw [e, Real.cos_int_mul_two_pi] at hc
  exact one_ne_zero hc

/-- The sign of the sines at the radius. -/
theorem sin_frequency {N : Nat} (hN : 1 ≤ N) (k : Fin 3) :
    Real.sin (frequency N k * N) = (-1) ^ k.val := by
  have hN' : (N : ℝ) ≠ 0 := by
    have h := Nat.pos_iff_ne_zero.mp hN
    exact_mod_cast h
  have e : frequency N k * N = Real.pi / 2 + (k.val : ℕ) * Real.pi := by
    unfold frequency
    field_simp
    ring
  rw [e, Real.sin_add_nat_mul_pi, Real.sin_pi_div_two, mul_one]

/-- The `p` of a section, over the half angle. -/
theorem pOf_frequency (N : Nat) (k : Fin 3) : pOf (omegaOf (N : ℝ)) k =
    (-1) ^ k.val * (Real.cos (frequency N k / 2) / Real.sin (frequency N k / 2)) := by
  have hp : pOf (omegaOf (N : ℝ)) k = (-1) ^ k.val / Real.tan (0.5 * omegaOf (N : ℝ) k) := by
    fin_cases k <;> simp [pOf, F64.tan]
  rw [hp, omegaOf_eq, Real.tan_eq_sin_div_cos,
    show 0.5 * frequency N k = frequency N k / 2 by norm_num; ring, div_div_eq_mul_div,
    mul_div_assoc]

/-- **The cosines of a section sum to its `p`**, `± cot (omega_k / 2)`. -/
theorem sum_cos_frequency {N : Nat} (hN : 1 ≤ N) (k : Fin 3) :
    ∑ m ∈ Ioo (-(N : Int)) N, Real.cos (frequency N k * m) = pOf (omegaOf (N : ℝ)) k := by
  have hs := sin_half_frequency hN k
  have hsum : ∑ m ∈ Ioo (-(N : Int)) N, Real.cos (frequency N k * m) =
      (-1) ^ k.val * (Real.cos (frequency N k / 2) / Real.sin (frequency N k / 2)) := by
    obtain ⟨M, rfl⟩ : ∃ M, N = M + 1 := ⟨N - 1, by omega⟩
    have h := sin_half_mul_sum_cos (frequency (M + 1) k) M
    have e : Real.sin (frequency (M + 1) k * (M + 1) - frequency (M + 1) k / 2) =
        (-1) ^ k.val * Real.cos (frequency (M + 1) k / 2) := by
      have hc := cos_frequency hN k
      have hsn := sin_frequency hN k
      push_cast at hc hsn
      rw [Real.sin_sub, hc, hsn, zero_mul, sub_zero]
    rw [e] at h
    rw [← mul_div_assoc, eq_div_iff hs, mul_comm]
    exact h
  rw [hsum, pOf_frequency]

/-! ## 2. The 3x3 system -/

/-- The cofactors `t` of `inv3x3`. -/
def cofactors (m : Fin 9 → ℝ) : Fin 9 → ℝ := ![
  m 4 * m 8 - m 5 * m 7,
  m 2 * m 7 - m 1 * m 8,
  m 1 * m 5 - m 2 * m 4,
  m 5 * m 6 - m 3 * m 8,
  m 0 * m 8 - m 2 * m 6,
  m 2 * m 3 - m 0 * m 5,
  m 3 * m 7 - m 4 * m 6,
  m 1 * m 6 - m 0 * m 7,
  m 0 * m 4 - m 1 * m 3]

/-- Its determinant. -/
def det3 (m : Fin 9 → ℝ) : ℝ :=
  m 0 * (m 4 * m 8 - m 5 * m 7) + m 1 * (m 5 * m 6 - m 3 * m 8) + m 2 * (m 3 * m 7 - m 4 * m 6)

theorem inv3x3_eq (m : Fin 9 → ℝ) :
    inv3x3 m = if ((1e-10 : ℚ) : ℝ) ≤ |det3 m| then some fun i => cofactors m i * (1 / det3 m)
      else none := by
  have e : inv3x3 m = if decide (((1e-10 : ℚ) : ℝ) ≤ |det3 m|) = true then
      some fun i => cofactors m i * (((1 : Nat) : ℝ) / det3 m) else none := rfl
  rw [e]
  simp only [decide_eq_true_eq, Nat.cast_one]

/-- **The inverse solves the system**, row by row. -/
theorem inv3x3_solves {m a : Fin 9 → ℝ} (h : inv3x3 m = some a) (gamma : Fin 3 → ℝ) :
    (m 0 * betaOf a gamma 0 + m 1 * betaOf a gamma 1 + m 2 * betaOf a gamma 2 = gamma 0) ∧
      (m 3 * betaOf a gamma 0 + m 4 * betaOf a gamma 1 + m 5 * betaOf a gamma 2 = gamma 1) ∧
      (m 6 * betaOf a gamma 0 + m 7 * betaOf a gamma 1 + m 8 * betaOf a gamma 2 = gamma 2) := by
  rw [inv3x3_eq] at h
  split_ifs at h with hdet
  have hne : det3 m ≠ 0 := by
    intro h0
    rw [h0, abs_zero] at hdet
    norm_num at hdet
  obtain rfl := Option.some.inj h
  have b0 : betaOf (fun i => cofactors m i * (1 / det3 m)) gamma 0 =
      0 + (m 4 * m 8 - m 5 * m 7) * (1 / det3 m) * gamma 0 +
        (m 2 * m 7 - m 1 * m 8) * (1 / det3 m) * gamma 1 +
        (m 1 * m 5 - m 2 * m 4) * (1 / det3 m) * gamma 2 := rfl
  have b1 : betaOf (fun i => cofactors m i * (1 / det3 m)) gamma 1 =
      0 + (m 5 * m 6 - m 3 * m 8) * (1 / det3 m) * gamma 0 +
        (m 0 * m 8 - m 2 * m 6) * (1 / det3 m) * gamma 1 +
        (m 2 * m 3 - m 0 * m 5) * (1 / det3 m) * gamma 2 := rfl
  have b2 : betaOf (fun i => cofactors m i * (1 / det3 m)) gamma 2 =
      0 + (m 3 * m 7 - m 4 * m 6) * (1 / det3 m) * gamma 0 +
        (m 1 * m 6 - m 0 * m 7) * (1 / det3 m) * gamma 1 +
        (m 0 * m 4 - m 1 * m 3) * (1 / det3 m) * gamma 2 := rfl
  rw [b0, b1, b2]
  refine ⟨?_, ?_, ?_⟩ <;> field_simp <;> unfold det3 <;> ring

/-- **What the derivation solves**: the three equations of the weights. -/
theorem solveWeights_rows {sigma radiusF : ℝ} {omega beta : Fin 3 → ℝ}
    (h : solveWeights sigma radiusF = some (omega, beta)) :
    let p := pOf omega
    let r := rOf omega p
    let zeta := zetaOf (crossOf p r)
    let rho := rhoOf sigma radiusF omega
    omega = omegaOf radiusF ∧ p 0 * beta 0 + p 1 * beta 1 + p 2 * beta 2 = 1 ∧
      r 0 * beta 0 + r 1 * beta 1 + r 2 * beta 2 = radiusF * radiusF - sigma * sigma ∧
      zeta 0 * beta 0 + zeta 1 * beta 1 + beta 2 = zeta 0 * rho 0 + zeta 1 * rho 1 + rho 2 := by
  unfold solveWeights at h
  obtain ⟨a, ha, hb⟩ := Option.map_eq_some_iff.mp h
  obtain ⟨rfl, rfl⟩ := Prod.mk.inj hb
  intro p r zeta rho
  obtain ⟨h0, h1, h2⟩ := inv3x3_solves ha (gammaOf sigma radiusF zeta rho)
  have e1 : matrixOf p r zeta 8 = 1 := by simp [matrixOf]
  have e2 : gammaOf sigma radiusF zeta rho 0 = 1 := by simp [gammaOf]
  refine ⟨rfl, h0.trans e2, h1, ?_⟩
  rw [e1, one_mul] at h2
  exact h2

/-- **The kernel has mass one**: the first equation says so. -/
theorem kernel_mass {N : Nat} (hN : 1 ≤ N) {sigma : ℝ} {omega beta : Fin 3 → ℝ}
    (h : solveWeights sigma (N : ℝ) = some (omega, beta)) :
    ∑ m ∈ Ioo (-(N : Int)) N, kernel N beta m = 1 := by
  obtain ⟨rfl, hrow, -, -⟩ := solveWeights_rows h
  have hs : ∑ m ∈ Ioo (-(N : Int)) N, kernel N beta m =
      ∑ k : Fin 3, beta k * pOf (omegaOf (N : ℝ)) k := by
    unfold kernel
    rw [sum_comm]
    refine sum_congr rfl fun k _ => ?_
    rw [← mul_sum, sum_cos_frequency hN]
  rw [hs, Fin.sum_univ_three]
  linarith

/-! ## 3. The weights at `sigma = 1.5` -/

section Bounds

/-- `cot` and its relatives at the angles of radius 5, in one place. -/
structure Angles (p0 p1 r0 r1 : ℝ) : Prop where
  p0_lo : 6.3137 < p0
  p0_hi : p0 < 6.3138
  p1_lo : -1.9627 < p1
  p1_hi : p1 < -1.9626
  r0_lo : 129 < r0
  r0_hi : r0 < 129.002
  r1_lo : -4.7612 < r1
  r1_hi : r1 < -4.7611

theorem abs_combination_le {x a y b X A Y B : ℝ} (hx : |x| ≤ X) (ha : |a| ≤ A) (hy : |y| ≤ Y)
    (hb : |b| ≤ B) : |x * a + y * b| ≤ X * A + Y * B := by
  calc |x * a + y * b| ≤ |x * a| + |y * b| := abs_add_le _ _
    _ = |x| * |a| + |y| * |b| := by rw [abs_mul, abs_mul]
    _ ≤ X * A + Y * B := by
        have h1 := mul_le_mul hx ha (abs_nonneg a) (le_trans (abs_nonneg x) hx)
        have h2 := mul_le_mul hy hb (abs_nonneg b) (le_trans (abs_nonneg y) hy)
        linarith

/-- A quotient, from a bound on the numerator. -/
theorem abs_le_of_mul {Q d S D q : ℝ} (hq : 0 < q) (hQ : q ≤ Q) (h : |Q * d| ≤ S)
    (hS : S ≤ q * D) (hD : 0 ≤ D) : |d| ≤ D := by
  rw [abs_mul, abs_of_pos (lt_of_lt_of_le hq hQ)] at h
  by_contra hlt
  rw [not_le] at hlt
  have h1 : q * D ≤ Q * D := mul_le_mul_of_nonneg_right hQ hD
  have h2 : Q * D < Q * |d| := mul_lt_mul_of_pos_left hlt (lt_of_lt_of_le hq hQ)
  linarith

variable {p0 p1 r0 r1 d0 d1 d2 e1 e2 : ℝ}

/-- **Small residues mean small corrections**: `d` solves the system with right sides `e1`, `e2`
    and zero; `q` is the cross product of the first two rows. -/
theorem correction_bounds (h : Angles p0 p1 r0 r1) (h1 : p0 * d0 + p1 * d1 + d2 = e1)
    (h2 : r0 * d0 + r1 * d1 + d2 = e2)
    (h3 : (p1 - r1) * d0 + (r0 - p0) * d1 + (p0 * r1 - r0 * p1) * d2 = 0)
    (he1 : |e1| ≤ 0.003) (he2 : |e2| ≤ 0.02) : |d0| ≤ 0.001 ∧ |d1| ≤ 0.003 ∧ |d2| ≤ 0.002 := by
  obtain ⟨hp0, hp0', hp1, hp1', hr0, hr0', hr1, hr1'⟩ := h
  obtain ⟨q0, hq0⟩ : ∃ q, q = p1 - r1 := ⟨_, rfl⟩
  obtain ⟨q1, hq1⟩ : ∃ q, q = r0 - p0 := ⟨_, rfl⟩
  obtain ⟨q2, hq2⟩ : ∃ q, q = p0 * r1 - r0 * p1 := ⟨_, rfl⟩
  have b0 : |q0| ≤ 2.8 := abs_le.mpr ⟨by linarith, by linarith⟩
  have b1 : |q1| ≤ 122.7 := abs_le.mpr ⟨by linarith, by linarith⟩
  have l1 : 122.6 ≤ q1 := by linarith
  have l2 : 223 ≤ q2 := by nlinarith
  have b2 : |q2| ≤ 223.2 := abs_le.mpr ⟨by linarith, by nlinarith⟩
  have bp0 : |p0| ≤ 6.3138 := abs_le.mpr ⟨by linarith, by linarith⟩
  have bp1 : |p1| ≤ 1.9627 := abs_le.mpr ⟨by linarith, by linarith⟩
  have br0 : |r0| ≤ 129.002 := abs_le.mpr ⟨by linarith, by linarith⟩
  have br1 : |r1| ≤ 4.7612 := abs_le.mpr ⟨by linarith, by linarith⟩
  have hone : |(1 : ℝ)| ≤ 1 := by rw [abs_one]
  have hneg : |(-1 : ℝ)| ≤ 1 := by rw [abs_neg, abs_one]
  have hQ : (64000 : ℝ) ≤ q0 ^ 2 + q1 ^ 2 + q2 ^ 2 := by nlinarith [sq_nonneg q0]
  -- Cramer's rule, with the third row replaced by the cross product
  have s0 : (q0 ^ 2 + q1 ^ 2 + q2 ^ 2) * d0 =
      e1 * (r1 * q2 + -1 * q1) + e2 * (1 * q1 + -p1 * q2) := by
    rw [hq0, hq1, hq2, ← h1, ← h2]
    linear_combination (p1 - r1) * h3
  have s1 : (q0 ^ 2 + q1 ^ 2 + q2 ^ 2) * d1 =
      e1 * (1 * q0 + -r0 * q2) + e2 * (p0 * q2 + -1 * q0) := by
    rw [hq0, hq1, hq2, ← h1, ← h2]
    linear_combination (r0 - p0) * h3
  have s2 : (q0 ^ 2 + q1 ^ 2 + q2 ^ 2) * d2 =
      e1 * (r0 * q1 + -r1 * q0) + e2 * (p1 * q0 + -p0 * q1) := by
    rw [hq0, hq1, hq2, ← h1, ← h2]
    linear_combination (p0 * r1 - r0 * p1) * h3
  have np0 : |-p0| ≤ 6.3138 := by rw [abs_neg]; exact bp0
  have np1 : |-p1| ≤ 1.9627 := by rw [abs_neg]; exact bp1
  have nr0 : |-r0| ≤ 129.002 := by rw [abs_neg]; exact br0
  have nr1 : |-r1| ≤ 4.7612 := by rw [abs_neg]; exact br1
  have t0 := abs_combination_le he1 (abs_combination_le br1 b2 hneg b1) he2
    (abs_combination_le hone b1 np1 b2)
  have t1 := abs_combination_le he1 (abs_combination_le hone b0 nr0 b2) he2
    (abs_combination_le bp0 b2 hneg b0)
  have t2 := abs_combination_le he1 (abs_combination_le br0 b1 nr1 b0) he2
    (abs_combination_le bp1 b0 np0 b1)
  rw [← s0] at t0
  rw [← s1] at t1
  rw [← s2] at t2
  exact ⟨abs_le_of_mul (by norm_num) hQ t0 (by norm_num) (by norm_num),
    abs_le_of_mul (by norm_num) hQ t1 (by norm_num) (by norm_num),
    abs_le_of_mul (by norm_num) hQ t2 (by norm_num) (by norm_num)⟩

end Bounds

/-! ## 4. Radius five -/

section RadiusFive

open Real

theorem one_div_tan_half {x : ℝ} (h : sin x ≠ 0) : 1 / tan (0.5 * x) = (1 + cos x) / sin x := by
  obtain ⟨y, rfl⟩ : ∃ y, x = 2 * y := ⟨x / 2, by ring⟩
  rw [show (0.5 : ℝ) * (2 * y) = y by norm_num; ring]
  rw [sin_two_mul] at h ⊢
  have hs : sin y ≠ 0 := fun h0 => h (by rw [h0]; ring)
  have hc : cos y ≠ 0 := fun h0 => h (by rw [h0]; ring)
  rw [cos_two_mul, tan_eq_sin_div_cos]
  field_simp
  ring

theorem sqrt_five_bounds : 2.236067 < √5 ∧ √5 < 2.236068 := by
  constructor
  · rw [lt_sqrt (by norm_num)]
    norm_num
  · rw [sqrt_lt' (by norm_num)]
    norm_num

/-- The sines and cosines of `π / 10` and `3 π / 10`. -/
structure TenthAngles (c1 s1 c3 s3 : ℝ) : Prop where
  c1_lo : 0.951056 < c1
  c1_hi : c1 < 0.951057
  s1_lo : 0.3090167 < s1
  s1_hi : s1 < 0.3090171
  c3_lo : 0.587785 < c3
  c3_hi : c3 < 0.587786
  s3_lo : 0.8090167 < s3
  s3_hi : s3 < 0.8090171

theorem sqrt_between {x y lo hi : ℝ} (hx : 0 ≤ x) (hhi : 0 ≤ hi) (h : x ^ 2 = y)
    (h1 : lo ^ 2 < y) (h2 : y < hi ^ 2) : lo < x ∧ x < hi := by
  rw [← h] at h1 h2
  exact ⟨lt_of_pow_lt_pow_left₀ 2 hx h1, lt_of_pow_lt_pow_left₀ 2 hhi h2⟩

theorem tenthAngles :
    TenthAngles (cos (π / 10)) (sin (π / 10)) (cos (3 * π / 10)) (sin (3 * π / 10)) := by
  obtain ⟨h5, h5'⟩ := sqrt_five_bounds
  have hpi := pi_pos
  have es3 : sin (3 * π / 10) = (1 + √5) / 4 := by
    rw [← cos_pi_div_five, ← cos_pi_div_two_sub]
    congr 1
    ring
  have es1 : sin (π / 10) = (√5 - 1) / 4 := by
    have h2 : sin (π / 10) = cos (2 * (π / 5)) := by
      rw [← cos_pi_div_two_sub]
      congr 1
      ring
    rw [h2, cos_two_mul, cos_pi_div_five]
    have hsq : √5 ^ 2 = 5 := sq_sqrt (by norm_num)
    linear_combination hsq / 8
  have q1 : cos (π / 10) ^ 2 = 1 - sin (π / 10) ^ 2 := cos_sq' _
  have q3 : cos (3 * π / 10) ^ 2 = 1 - sin (3 * π / 10) ^ 2 := cos_sq' _
  have n1 : 0 ≤ cos (π / 10) := cos_nonneg_of_mem_Icc ⟨by linarith, by linarith⟩
  have n3 : 0 ≤ cos (3 * π / 10) := cos_nonneg_of_mem_Icc ⟨by linarith, by linarith⟩
  have ls1 : 0.30901675 ≤ sin (π / 10) := by rw [es1]; norm_num; linarith
  have us1 : sin (π / 10) ≤ 0.309017 := by rw [es1]; norm_num; linarith
  have ls3 : 0.80901675 ≤ sin (3 * π / 10) := by rw [es3]; norm_num; linarith
  have us3 : sin (3 * π / 10) ≤ 0.809017 := by rw [es3]; norm_num; linarith
  obtain ⟨lc1, uc1⟩ := sqrt_between n1 (by norm_num) q1
    (show (0.951056 : ℝ) ^ 2 < _ by nlinarith) (show _ < (0.951057 : ℝ) ^ 2 by nlinarith)
  obtain ⟨lc3, uc3⟩ := sqrt_between n3 (by norm_num) q3
    (show (0.587785 : ℝ) ^ 2 < _ by nlinarith) (show _ < (0.587786 : ℝ) ^ 2 by nlinarith)
  exact ⟨lc1, uc1, by linarith, by linarith, lc3, uc3, by linarith, by linarith⟩

theorem omegaOf_five : omegaOf (5 : ℝ) 0 = π / 10 ∧ omegaOf (5 : ℝ) 1 = 3 * π / 10 ∧
    omegaOf (5 : ℝ) 2 = π / 2 := by
  have e (k : Fin 3) : omegaOf (5 : ℝ) k = (2 * k.val + 1) * π / 10 := by
    have h := omegaOf_eq 5 k
    rw [Nat.cast_ofNat] at h
    rw [h]
    unfold frequency
    norm_num
  refine ⟨?_, ?_, ?_⟩
  · rw [e]
    simp
  · rw [e]
    norm_num
  · rw [e]
    norm_num
    ring

/-- **The first two rows of the system** for radius five; the third column is one. -/
theorem angles_five :
    Angles (pOf (omegaOf (5 : ℝ)) 0) (pOf (omegaOf (5 : ℝ)) 1)
        (rOf (omegaOf (5 : ℝ)) (pOf (omegaOf 5)) 0) (rOf (omegaOf (5 : ℝ)) (pOf (omegaOf 5)) 1) ∧
      pOf (omegaOf (5 : ℝ)) 2 = 1 ∧ rOf (omegaOf (5 : ℝ)) (pOf (omegaOf 5)) 2 = 1 := by
  obtain ⟨w0, w1, w2⟩ := omegaOf_five
  obtain ⟨lc1, uc1, ls1, us1, lc3, uc3, ls3, us3⟩ := tenthAngles
  have hs1 : sin (π / 10) ≠ 0 := by linarith
  have hs3 : sin (3 * π / 10) ≠ 0 := by linarith
  have e0 : pOf (omegaOf (5 : ℝ)) 0 = (1 + cos (π / 10)) / sin (π / 10) := by
    rw [← one_div_tan_half hs1, ← w0]
    simp [pOf, F64.tan]
  have e1 : pOf (omegaOf (5 : ℝ)) 1 = -((1 + cos (3 * π / 10)) / sin (3 * π / 10)) := by
    have h : pOf (omegaOf (5 : ℝ)) 1 = -1 / tan (0.5 * omegaOf (5 : ℝ) 1) := by
      simp [pOf, F64.tan]
    rw [h, neg_div, w1, one_div_tan_half hs3]
  have e2 : pOf (omegaOf (5 : ℝ)) 2 = 1 := by
    have h : 1 / tan (0.5 * (π / 2)) = 1 := by
      rw [show (0.5 : ℝ) * (π / 2) = π / 4 by norm_num; ring, tan_pi_div_four, div_one]
    rw [← h, ← w2]
    simp [pOf, F64.tan]
  have f0 : rOf (omegaOf (5 : ℝ)) (pOf (omegaOf 5)) 0 =
      pOf (omegaOf (5 : ℝ)) 0 * pOf (omegaOf (5 : ℝ)) 0 / sin (π / 10) := by
    rw [← w0]
    rfl
  have f1 : rOf (omegaOf (5 : ℝ)) (pOf (omegaOf 5)) 1 =
      -pOf (omegaOf (5 : ℝ)) 1 * pOf (omegaOf (5 : ℝ)) 1 / sin (3 * π / 10) := by
    rw [← w1]
    rfl
  have f2 : rOf (omegaOf (5 : ℝ)) (pOf (omegaOf 5)) 2 = 1 := by
    have h : rOf (omegaOf (5 : ℝ)) (pOf (omegaOf 5)) 2 =
        pOf (omegaOf (5 : ℝ)) 2 * pOf (omegaOf (5 : ℝ)) 2 / sin (omegaOf (5 : ℝ) 2) := rfl
    rw [h, e2, w2, sin_pi_div_two]
    norm_num
  have p1 : 0 < sin (π / 10) := by linarith
  have p3 : 0 < sin (3 * π / 10) := by linarith
  have l0 : 6.31374 < pOf (omegaOf (5 : ℝ)) 0 := by rw [e0, lt_div_iff₀ p1]; linarith
  have u0 : pOf (omegaOf (5 : ℝ)) 0 < 6.31377 := by rw [e0, div_lt_iff₀ p1]; linarith
  have l1 : -1.96262 < pOf (omegaOf (5 : ℝ)) 1 := by
    rw [e1, neg_lt_neg_iff, div_lt_iff₀ p3]
    linarith
  have u1 : pOf (omegaOf (5 : ℝ)) 1 < -1.962605 := by
    rw [e1, neg_lt_neg_iff, lt_div_iff₀ p3]
    linarith
  refine ⟨⟨by linarith, by linarith, by linarith, by linarith, ?_, ?_, ?_, ?_⟩, e2, f2⟩
  · rw [f0, lt_div_iff₀ p1]
    nlinarith
  · rw [f0, div_lt_iff₀ p1]
    nlinarith
  · rw [f1, lt_div_iff₀ p3]
    nlinarith
  · rw [f1, div_lt_iff₀ p3]
    nlinarith

/-- The third row of the system. -/
theorem zeta_five :
    zetaOf (crossOf (pOf (omegaOf (5 : ℝ))) (rOf (omegaOf 5) (pOf (omegaOf 5)))) 0 =
        (pOf (omegaOf (5 : ℝ)) 1 - rOf (omegaOf (5 : ℝ)) (pOf (omegaOf 5)) 1) *
          (1 / (pOf (omegaOf (5 : ℝ)) 0 * rOf (omegaOf (5 : ℝ)) (pOf (omegaOf 5)) 1 -
            rOf (omegaOf (5 : ℝ)) (pOf (omegaOf 5)) 0 * pOf (omegaOf (5 : ℝ)) 1)) ∧
      zetaOf (crossOf (pOf (omegaOf (5 : ℝ))) (rOf (omegaOf 5) (pOf (omegaOf 5)))) 1 =
        (rOf (omegaOf (5 : ℝ)) (pOf (omegaOf 5)) 0 - pOf (omegaOf (5 : ℝ)) 0) *
          (1 / (pOf (omegaOf (5 : ℝ)) 0 * rOf (omegaOf (5 : ℝ)) (pOf (omegaOf 5)) 1 -
            rOf (omegaOf (5 : ℝ)) (pOf (omegaOf 5)) 0 * pOf (omegaOf (5 : ℝ)) 1)) := by
  obtain ⟨-, hp2, hr2⟩ := angles_five
  constructor
  · simp [zetaOf, crossOf, hp2, hr2]
  · simp [zetaOf, crossOf, hp2, hr2]

/-- `exp (-σ² ω² / 2)` of the first section. -/
theorem exp_bounds : 0.8949 < exp (-1.125 * (π / 10) ^ 2) ∧ exp (-1.125 * (π / 10) ^ 2) < 0.89493 := by
  have hp := pi_gt_d4
  have hp' := pi_lt_d4
  have lx : -0.1110336 ≤ -1.125 * (π / 10) ^ 2 := by nlinarith
  have ux : -1.125 * (π / 10) ^ 2 ≤ -0.111026 := by nlinarith
  constructor
  · have h := exp_bound (x := -0.1110336) (by rw [abs_le]; norm_num) (n := 5) (by norm_num)
    have h1 := (abs_le.mp h).1
    rw [abs_of_neg (by norm_num)] at h1
    have h2 : 0.8949 < exp (-0.1110336) := by
      norm_num [Finset.sum_range_succ, Nat.factorial] at h1 ⊢
      linarith
    exact lt_of_lt_of_le h2 (exp_le_exp.mpr lx)
  · have h := exp_bound (x := -0.111026) (by rw [abs_le]; norm_num) (n := 5) (by norm_num)
    have h1 := (abs_le.mp h).2
    rw [abs_of_neg (by norm_num)] at h1
    have h2 : exp (-0.111026) < 0.89493 := by
      norm_num [Finset.sum_range_succ, Nat.factorial] at h1 ⊢
      linarith
    exact lt_of_le_of_lt (exp_le_exp.mpr ux) h2

theorem pow_between {x lo hi : ℝ} (h0 : 0 ≤ lo) (h1 : lo < x) (h2 : x < hi) (n : Nat) :
    lo ^ n ≤ x ^ n ∧ x ^ n ≤ hi ^ n :=
  ⟨pow_le_pow_left₀ h0 h1.le n, pow_le_pow_left₀ (le_trans h0 h1.le) h2.le n⟩

/-- **The weights a sampled Gaussian would have**, before the correction. -/
theorem rho_five :
    (0.17898 ≤ rhoOf (1.5 : ℝ) 5 (omegaOf 5) 0 ∧ rhoOf (1.5 : ℝ) 5 (omegaOf 5) 0 ≤ 0.178986) ∧
      (0.0736 ≤ rhoOf (1.5 : ℝ) 5 (omegaOf 5) 1 ∧ rhoOf (1.5 : ℝ) 5 (omegaOf 5) 1 ≤ 0.07365) ∧
      (0.0124 ≤ rhoOf (1.5 : ℝ) 5 (omegaOf 5) 2 ∧ rhoOf (1.5 : ℝ) 5 (omegaOf 5) 2 ≤ 0.0125) := by
  obtain ⟨w0, w1, w2⟩ := omegaOf_five
  obtain ⟨hE, hE'⟩ := exp_bounds
  have e (i : Fin 3) : rhoOf (1.5 : ℝ) 5 (omegaOf 5) i =
      exp (-1.125 * (omegaOf (5 : ℝ) i) ^ 2) / 5 := by
    simp only [rhoOf, F64.exp, exact_lit64, exact_ofNat64]
    rw [show -((0.5 : ℚ) : ℝ) * 1.5 * 1.5 * omegaOf (5 : ℝ) i * omegaOf (5 : ℝ) i =
      -1.125 * (omegaOf (5 : ℝ) i) ^ 2 by push_cast; ring]
    push_cast
    ring
  have e1 : exp (-1.125 * (3 * π / 10) ^ 2) = exp (-1.125 * (π / 10) ^ 2) ^ 9 := by
    rw [← exp_nat_mul]
    congr 1
    push_cast
    ring
  have e2 : exp (-1.125 * (π / 2) ^ 2) = exp (-1.125 * (π / 10) ^ 2) ^ 25 := by
    rw [← exp_nat_mul]
    congr 1
    push_cast
    ring
  obtain ⟨b9, b9'⟩ := pow_between (by norm_num) hE hE' 9
  obtain ⟨b25, b25'⟩ := pow_between (by norm_num) hE hE' 25
  rw [e, e, e, w0, w1, w2, e1, e2]
  generalize exp (-1.125 * (π / 10) ^ 2) = E at *
  norm_num at b9 b9' b25 b25' ⊢
  refine ⟨⟨?_, ?_⟩, ⟨?_, ?_⟩, ?_, ?_⟩ <;> linarith

/-- The weights lie near the sampled Gaussian. -/
theorem weights_five {omega beta : Fin 3 → ℝ}
    (h : solveWeights (1.5 : ℝ) 5 = some (omega, beta)) :
    (0.1779 ≤ beta 0 ∧ beta 0 ≤ 0.18) ∧ (0.0706 ≤ beta 1 ∧ beta 1 ≤ 0.0767) ∧
      (0.0104 ≤ beta 2 ∧ beta 2 ≤ 0.0145) := by
  obtain ⟨rfl, h1, h2, h3⟩ := solveWeights_rows h
  obtain ⟨hA, hp2, hr2⟩ := angles_five
  obtain ⟨⟨l0, u0⟩, ⟨l1, u1⟩, l2, u2⟩ := rho_five
  obtain ⟨hz0, hz1⟩ := zeta_five
  rw [hz0, hz1] at h3
  rw [hp2, one_mul] at h1
  rw [hr2, one_mul] at h2
  generalize pOf (omegaOf (5 : ℝ)) 0 = p0 at *
  generalize pOf (omegaOf (5 : ℝ)) 1 = p1 at *
  generalize rOf (omegaOf (5 : ℝ)) (pOf (omegaOf 5)) 0 = r0 at *
  generalize rOf (omegaOf (5 : ℝ)) (pOf (omegaOf 5)) 1 = r1 at *
  generalize rhoOf (1.5 : ℝ) 5 (omegaOf 5) 0 = g0 at *
  generalize rhoOf (1.5 : ℝ) 5 (omegaOf 5) 1 = g1 at *
  generalize rhoOf (1.5 : ℝ) 5 (omegaOf 5) 2 = g2 at *
  have hA' := hA
  obtain ⟨hp0, hp0', hp1, hp1', hr0, hr0', hr1, hr1'⟩ := hA'
  have hq : p0 * r1 - r0 * p1 ≠ 0 := by nlinarith
  have hcross : (p1 - r1) * (beta 0 - g0) + (r0 - p0) * (beta 1 - g1) +
      (p0 * r1 - r0 * p1) * (beta 2 - g2) = 0 := by
    generalize p0 * r1 - r0 * p1 = q at hq h3 ⊢
    field_simp at h3
    linear_combination h3
  have he1 : |1 - (p0 * g0 + p1 * g1 + g2)| ≤ 0.003 := by
    rw [abs_le]
    constructor <;> nlinarith
  have he2 : |22.75 - (r0 * g0 + r1 * g1 + g2)| ≤ 0.02 := by
    rw [abs_le]
    constructor <;> nlinarith
  have hrow1 : p0 * (beta 0 - g0) + p1 * (beta 1 - g1) + (beta 2 - g2) =
      1 - (p0 * g0 + p1 * g1 + g2) := by
    rw [← h1]
    ring
  have hrow2 : r0 * (beta 0 - g0) + r1 * (beta 1 - g1) + (beta 2 - g2) =
      22.75 - (r0 * g0 + r1 * g1 + g2) := by
    norm_num at h2 ⊢
    linarith
  obtain ⟨b0, b1, b2⟩ := correction_bounds hA hrow1 hrow2 hcross he1 he2
  rw [abs_le] at b0 b1 b2
  refine ⟨⟨?_, ?_⟩, ⟨?_, ?_⟩, ?_, ?_⟩ <;> linarith

/-- The cosines of the three sections at a tap, by the angles of radius five. -/
theorem cos_taps :
    (∀ k, cos (frequency 5 k * ((0 : Int) : ℝ)) = 1) ∧
      (cos (frequency 5 0 * ((1 : Int) : ℝ)) = cos (π / 10) ∧
        cos (frequency 5 1 * ((1 : Int) : ℝ)) = cos (3 * π / 10) ∧
        cos (frequency 5 2 * ((1 : Int) : ℝ)) = 0) ∧
      (cos (frequency 5 0 * ((2 : Int) : ℝ)) = sin (3 * π / 10) ∧
        cos (frequency 5 1 * ((2 : Int) : ℝ)) = -sin (π / 10) ∧
        cos (frequency 5 2 * ((2 : Int) : ℝ)) = -1) ∧
      (cos (frequency 5 0 * ((3 : Int) : ℝ)) = cos (3 * π / 10) ∧
        cos (frequency 5 1 * ((3 : Int) : ℝ)) = -cos (π / 10) ∧
        cos (frequency 5 2 * ((3 : Int) : ℝ)) = 0) ∧
      (cos (frequency 5 0 * ((4 : Int) : ℝ)) = sin (π / 10) ∧
        cos (frequency 5 1 * ((4 : Int) : ℝ)) = -sin (3 * π / 10) ∧
        cos (frequency 5 2 * ((4 : Int) : ℝ)) = 1) := by
  have f0 : frequency 5 0 = π / 10 := by unfold frequency; norm_num
  have f1 : frequency 5 1 = 3 * π / 10 := by unfold frequency; norm_num
  have f2 : frequency 5 2 = π / 2 := by unfold frequency; norm_num; ring
  rw [f0, f1, f2]
  push_cast
  refine ⟨fun k => by rw [mul_zero, cos_zero], ⟨?_, ?_, ?_⟩, ⟨?_, ?_, ?_⟩, ⟨?_, ?_, ?_⟩, ?_, ?_, ?_⟩
  · rw [mul_one]
  · rw [mul_one]
  · rw [mul_one, cos_pi_div_two]
  · rw [← cos_pi_div_two_sub]
    congr 1
    ring
  · rw [← cos_add_pi_div_two]
    congr 1
    ring
  · rw [show π / 2 * 2 = π by ring, cos_pi]
  · congr 1
    ring
  · rw [← cos_pi_sub]
    congr 1
    ring
  · rw [show π / 2 * 3 = π / 2 + π by ring, cos_add_pi, cos_pi_div_two, neg_zero]
  · rw [← cos_pi_div_two_sub]
    congr 1
    ring
  · rw [show 3 * π / 10 * 4 = π / 5 + π by ring, cos_add_pi, ← cos_pi_div_two_sub]
    congr 2
    ring
  · rw [show π / 2 * 4 = 2 * π by ring, cos_two_pi]

theorem kernel_neg (N : Nat) (beta : Fin 3 → ℝ) (m : Int) : kernel N beta (-m) = kernel N beta m := by
  unfold kernel
  refine sum_congr rfl fun k _ => ?_
  rw [Int.cast_neg, mul_neg, cos_neg]

/-- **No tap is negative.** -/
theorem kernel_nonneg {omega beta : Fin 3 → ℝ} (h : solveWeights (1.5 : ℝ) 5 = some (omega, beta))
    {m : Int} (hm : m ∈ Ioo (-((5 : Nat) : Int)) ((5 : Nat) : Int)) : 0 ≤ kernel 5 beta m := by
  obtain ⟨⟨l0, u0⟩, ⟨l1, u1⟩, l2, u2⟩ := weights_five h
  obtain ⟨lc1, uc1, ls1, us1, lc3, uc3, ls3, us3⟩ := tenthAngles
  obtain ⟨t0, ⟨t10, t11, t12⟩, ⟨t20, t21, t22⟩, ⟨t30, t31, t32⟩, t40, t41, t42⟩ := cos_taps
  have hpos : ∀ j : Int, 0 ≤ j → j < 5 → 0 ≤ kernel 5 beta j := by
    intro j hj0 hj5
    have hj : j = 0 ∨ j = 1 ∨ j = 2 ∨ j = 3 ∨ j = 4 := by omega
    unfold kernel
    rw [Fin.sum_univ_three]
    rcases hj with rfl | rfl | rfl | rfl | rfl
    · rw [t0, t0, t0]
      linarith
    · rw [t10, t11, t12]
      nlinarith
    · rw [t20, t21, t22]
      nlinarith
    · rw [t30, t31, t32]
      nlinarith
    · rw [t40, t41, t42]
      nlinarith
  rw [mem_Ioo] at hm
  rcases le_or_gt 0 m with h0 | h0
  · exact hpos m h0 (by omega)
  · rw [← kernel_neg]
    exact hpos (-m) (by omega) (by omega)

/-- The determinant is far from zero. -/
theorem solveWeights_five : ∃ beta, solveWeights (1.5 : ℝ) 5 = some (omegaOf 5, beta) := by
  obtain ⟨⟨hp0, hp0', hp1, hp1', hr0, hr0', hr1, hr1'⟩, hp2, hr2⟩ := angles_five
  obtain ⟨hz0, hz1⟩ := zeta_five
  have hdet : det3 (matrixOf (pOf (omegaOf (5 : ℝ))) (rOf (omegaOf 5) (pOf (omegaOf 5)))
      (zetaOf (crossOf (pOf (omegaOf 5)) (rOf (omegaOf 5) (pOf (omegaOf 5)))))) =
      pOf (omegaOf (5 : ℝ)) 0 * (rOf (omegaOf (5 : ℝ)) (pOf (omegaOf 5)) 1 -
          zetaOf (crossOf (pOf (omegaOf (5 : ℝ))) (rOf (omegaOf 5) (pOf (omegaOf 5)))) 1) +
        pOf (omegaOf (5 : ℝ)) 1 *
          (zetaOf (crossOf (pOf (omegaOf (5 : ℝ))) (rOf (omegaOf 5) (pOf (omegaOf 5)))) 0 -
            rOf (omegaOf (5 : ℝ)) (pOf (omegaOf 5)) 0) +
        (rOf (omegaOf (5 : ℝ)) (pOf (omegaOf 5)) 0 *
            zetaOf (crossOf (pOf (omegaOf (5 : ℝ))) (rOf (omegaOf 5) (pOf (omegaOf 5)))) 1 -
          rOf (omegaOf (5 : ℝ)) (pOf (omegaOf 5)) 1 *
            zetaOf (crossOf (pOf (omegaOf (5 : ℝ))) (rOf (omegaOf 5) (pOf (omegaOf 5)))) 0) := by
    simp [det3, matrixOf, hp2, hr2]
  unfold solveWeights
  dsimp only
  rw [inv3x3_eq, if_pos]
  · exact ⟨_, rfl⟩
  · rw [hdet, hz0, hz1]
    generalize pOf (omegaOf (5 : ℝ)) 0 = p0 at *
    generalize pOf (omegaOf (5 : ℝ)) 1 = p1 at *
    generalize rOf (omegaOf (5 : ℝ)) (pOf (omegaOf 5)) 0 = r0 at *
    generalize rOf (omegaOf (5 : ℝ)) (pOf (omegaOf 5)) 1 = r1 at *
    have hq : 1 ≤ p0 * r1 - r0 * p1 := by nlinarith
    have hi : 0 < 1 / (p0 * r1 - r0 * p1) := one_div_pos.mpr (by linarith)
    generalize 1 / (p0 * r1 - r0 * p1) = t at hi ⊢
    -- the determinant is the cross product of two rows plus squares over it
    have h1 : p0 * (r1 - (r0 - p0) * t) + p1 * ((p1 - r1) * t - r0) +
        (r0 * ((r0 - p0) * t) - r1 * ((p1 - r1) * t)) =
        (p0 * r1 - r0 * p1) + ((r0 - p0) ^ 2 + (p1 - r1) ^ 2) * t := by ring
    have h2 : 0 ≤ ((r0 - p0) ^ 2 + (p1 - r1) ^ 2) * t := by positivity
    rw [h1, abs_of_nonneg (by linarith)]
    norm_num
    linarith

theorem radiusOf_sigma : radiusOf ℝ (F64.lit 1.5 : ℝ) = 5 := by
  have h : (F32.round (5.17385 : ℝ) : ℝ) = 5 := by
    have e : (F32.round (5.17385 : ℝ) : ℝ) = roundHalfAway 5.17385 := rfl
    rw [e]
    unfold roundHalfAway
    rw [if_pos (by norm_num)]
    norm_num [Int.floor_eq_iff]
  unfold radiusOf
  rw [exact_widen, exact_narrow, ← h]
  congr 1
  norm_num

end RadiusFive

/-- **The kernel of the engine**: at `sigma = 1.5` the derivation succeeds, its constants are those
    of radius five and some weights, no tap is negative and the taps sum to one. -/
theorem gaussian_kernel : ∃ beta, createRecursiveGaussian ℝ (F64.lit 1.5 : ℝ) =
      some (derived 5 (by decide) beta) ∧
    (∀ m ∈ Ioo (-((5 : Nat) : Int)) ((5 : Nat) : Int), 0 ≤ kernel 5 beta m) ∧
    ∑ m ∈ Ioo (-((5 : Nat) : Int)) ((5 : Nat) : Int), kernel 5 beta m = 1 := by
  obtain ⟨beta, hbeta⟩ := solveWeights_five
  have hs : (F64.lit 1.5 : ℝ) = 1.5 := by norm_num
  refine ⟨beta, ?_, fun m hm => kernel_nonneg hbeta hm, ?_⟩
  · have hr : F64.toUsize (5 : ℝ) % 2 ^ 32 = 5 := by
      have e : F64.toUsize (5 : ℝ) = ⌊(5 : ℝ)⌋₊ := rfl
      rw [e, Nat.floor_ofNat]
      decide
    unfold createRecursiveGaussian
    dsimp only
    have hr' : radiusOf ℝ (1.5 : ℝ) = 5 := by rw [← hs, radiusOf_sigma]
    simp only [hs, hr', hbeta, Option.map_some, hr]
    simp only [derived, Nat.cast_ofNat]
  · exact kernel_mass (N := 5) (by norm_num) (by rw [Nat.cast_ofNat]; exact hbeta)

end Ssimulacra2
