/-
  File:      Ssimulacra2/Lib/Weights.lean
  Subject:   Weighted means with non-negative weights of mass at most one.

  The mass may fall short of one, so a mean is not an expectation; what survives is all a
  similarity index needs:

  * `mean_mem` -- means of values in `[0, 1]` lie in `[0, 1]`;
  * `var_nonneg` -- `mean (x²) - (mean x)²` is not negative;
  * `two_cov_le` -- twice the covariance is at most the sum of the variances, in either sign;
  * `ratio_bounds`, `error_bounds` -- the quotient `(2 cov + k) / (var + var + k)` and the error
    built from it.
-/
import Mathlib

namespace Weights

open Finset

/-! ## 1. Weights -/

/-- Non-negative weights on a finite set, of mass at most one. -/
structure SubWeights (ι : Type*) where
  support : Finset ι
  weight : ι → ℝ
  nonneg : ∀ i ∈ support, 0 ≤ weight i
  mass_le : ∑ i ∈ support, weight i ≤ 1

namespace SubWeights

variable {ι κ : Type*}

/-- The weighted sum of `x`. -/
def mean (W : SubWeights ι) (x : ι → ℝ) : ℝ := ∑ i ∈ W.support, W.weight i * x i

/-- Products of weights are weights. -/
def prod (W : SubWeights ι) (V : SubWeights κ) : SubWeights (ι × κ) where
  support := W.support ×ˢ V.support
  weight p := W.weight p.1 * V.weight p.2
  nonneg p hp := by
    obtain ⟨h1, h2⟩ := mem_product.mp hp
    exact mul_nonneg (W.nonneg _ h1) (V.nonneg _ h2)
  mass_le := by
    have hW : 0 ≤ ∑ i ∈ W.support, W.weight i := sum_nonneg W.nonneg
    rw [sum_product, ← sum_mul_sum]
    calc (∑ i ∈ W.support, W.weight i) * ∑ j ∈ V.support, V.weight j
        ≤ (∑ i ∈ W.support, W.weight i) * 1 := mul_le_mul_of_nonneg_left V.mass_le hW
      _ ≤ 1 := by rw [mul_one]; exact W.mass_le

theorem mean_prod (W : SubWeights ι) (V : SubWeights κ) (x : ι × κ → ℝ) :
    (W.prod V).mean x =
      ∑ i ∈ W.support, ∑ j ∈ V.support, W.weight i * V.weight j * x (i, j) := by
  unfold mean prod
  rw [sum_product]

variable (W : SubWeights ι)

theorem mean_add (x y : ι → ℝ) : W.mean (fun i => x i + y i) = W.mean x + W.mean y := by
  unfold mean
  rw [← sum_add_distrib]
  exact sum_congr rfl fun i _ => mul_add _ _ _

theorem mean_smul (a : ℝ) (x : ι → ℝ) : W.mean (fun i => a * x i) = a * W.mean x := by
  unfold mean
  rw [mul_sum]
  exact sum_congr rfl fun i _ => by ring

theorem mean_nonneg {x : ι → ℝ} (hx : ∀ i ∈ W.support, 0 ≤ x i) : 0 ≤ W.mean x :=
  sum_nonneg fun i hi => mul_nonneg (W.nonneg i hi) (hx i hi)

/-- **Means of values in the unit interval stay there.** -/
theorem mean_mem {x : ι → ℝ} (hx : ∀ i ∈ W.support, 0 ≤ x i ∧ x i ≤ 1) :
    0 ≤ W.mean x ∧ W.mean x ≤ 1 := by
  refine ⟨W.mean_nonneg fun i hi => (hx i hi).1, le_trans (sum_le_sum fun i hi => ?_) W.mass_le⟩
  exact mul_le_of_le_one_right (W.nonneg i hi) (hx i hi).2

/-! ## 2. Variance and covariance -/

/-- `mean (x²) - (mean x)²`. -/
def var (x : ι → ℝ) : ℝ := W.mean (fun i => x i * x i) - W.mean x * W.mean x

/-- `mean (x y) - mean x mean y`. -/
def cov (x y : ι → ℝ) : ℝ := W.mean (fun i => x i * y i) - W.mean x * W.mean y

/-- **The variance is not negative**, even where mass is missing: the square of the mean is
    counted with weight `2 - mass ≥ 1`. -/
theorem var_nonneg (x : ι → ℝ) : 0 ≤ W.var x := by
  have hsq : 0 ≤ W.mean fun i => (x i - W.mean x) * (x i - W.mean x) :=
    W.mean_nonneg fun i _ => mul_self_nonneg _
  have hexp : (W.mean fun i => (x i - W.mean x) * (x i - W.mean x)) =
      W.mean (fun i => x i * x i) - 2 * (W.mean x * W.mean x) +
        W.mean x * W.mean x * ∑ i ∈ W.support, W.weight i := by
    have h2 : 2 * (W.mean x * W.mean x) =
        ∑ i ∈ W.support, W.weight i * (2 * W.mean x * x i) := by
      rw [show 2 * (W.mean x * W.mean x) = 2 * W.mean x * W.mean x by ring, ← W.mean_smul]
      rfl
    rw [h2, mul_sum]
    unfold mean
    rw [← sum_sub_distrib, ← sum_add_distrib]
    exact sum_congr rfl fun i _ => by ring
  have hm := mul_le_mul_of_nonneg_left W.mass_le (mul_self_nonneg (W.mean x))
  unfold var
  linarith

theorem var_add (x y : ι → ℝ) :
    W.var (fun i => x i + y i) = W.var x + W.var y + 2 * W.cov x y := by
  have h : W.mean (fun i => (x i + y i) * (x i + y i)) =
      W.mean (fun i => x i * x i) + W.mean (fun i => y i * y i) +
        2 * W.mean fun i => x i * y i := by
    rw [← W.mean_smul, ← W.mean_add, ← W.mean_add]
    exact congrArg W.mean (funext fun i => by ring)
  unfold var cov
  rw [h, W.mean_add]
  ring

theorem var_neg (x : ι → ℝ) : W.var (fun i => -1 * x i) = W.var x := by
  unfold var
  rw [W.mean_smul]
  have h : (fun i => -1 * x i * (-1 * x i)) = fun i => x i * x i := funext fun i => by ring
  rw [h]
  ring

theorem cov_neg (x y : ι → ℝ) : W.cov x (fun i => -1 * y i) = -W.cov x y := by
  unfold cov
  rw [W.mean_smul]
  have h : (fun i => x i * (-1 * y i)) = fun i => -1 * (x i * y i) := funext fun i => by ring
  rw [h, W.mean_smul]
  ring

/-- **Twice the covariance is bounded by the variances**, in either sign. -/
theorem two_cov_le (x y : ι → ℝ) : |2 * W.cov x y| ≤ W.var x + W.var y := by
  have hp := W.var_nonneg fun i => x i + y i
  have hm := W.var_nonneg fun i => x i + -1 * y i
  rw [W.var_add] at hp
  rw [W.var_add, W.var_neg, W.cov_neg] at hm
  rw [abs_le]
  constructor
  · linarith
  · linarith

end SubWeights

/-! ## 3. The similarity quotient -/

/-- **The quotient of a similarity index** lies in `(-1, 1]`. -/
theorem ratio_bounds {v c k : ℝ} (hc : |c| ≤ v) (hk : 0 < k) :
    -1 < (c + k) / (v + k) ∧ (c + k) / (v + k) ≤ 1 := by
  obtain ⟨h1, h2⟩ := abs_le.mp hc
  have hv : 0 < v + k := by linarith [abs_nonneg c]
  constructor
  · rw [lt_div_iff₀ hv]
    linarith
  · rw [div_le_one hv]
    linarith

/-- **The error** `1 - m q` of a factor `m` in `[0, 1]` and a quotient `q` in `(-1, 1]`. -/
theorem error_bounds {m q : ℝ} (h0 : 0 ≤ m) (h1 : m ≤ 1) (hq : -1 < q) (hq1 : q ≤ 1) :
    0 ≤ 1 - m * q ∧ 1 - m * q < 2 := by
  have hupper : m * q ≤ 1 := by
    calc m * q ≤ m * 1 := mul_le_mul_of_nonneg_left hq1 h0
      _ ≤ 1 := by linarith
  have hlower : -1 < m * q := by
    rcases eq_or_lt_of_le h0 with rfl | hm
    · norm_num
    · calc -1 ≤ m * -1 := by linarith
        _ < m * q := mul_lt_mul_of_pos_left hq hm
  constructor
  · linarith
  · linarith

end Weights
