/-
  File:      Ssimulacra2/Blur/Kernel.lean
  Subject:   Over exact arithmetic the recursive blur is a finite separable convolution.

  The recurrences of `create_recursive_gaussian` have their poles on the unit circle; what stops
  the response after `N` samples is `cos (omega_k N) = 0`, together with the fold of the two
  inputs. The kernel is `kernel N beta`, a sum of three truncated cosines.
-/
import Ssimulacra2.Lib.Convolution
import Ssimulacra2.Blur.Table

namespace Ssimulacra2

open Finset Convolution

/-! ## 1. The kernel -/

/-- `(2 k - 1) π / (2 N)` for `k = 1, 2, 3`. -/
noncomputable def frequency (N : Nat) (k : Fin 3) : ℝ := (2 * k.val + 1) * Real.pi / (2 * N)

/-- `g(m)`, the sum of the weighted cosines. -/
noncomputable def kernel (N : Nat) (beta : Fin 3 → ℝ) (m : Int) : ℝ :=
  ∑ k : Fin 3, beta k * Real.cos (frequency N k * m)

/-- The constants `create_recursive_gaussian` derives for radius `N` from the weights `beta`. -/
noncomputable def derived (N : Nat) (hN : N < 2 ^ 32) (beta : Fin 3 → ℝ) : RgConst ℝ :=
  (RgConst.ofWeights N hN (N : ℝ) (omegaOf (N : ℝ)) beta).map narrow

theorem omegaOf_eq (N : Nat) (k : Fin 3) : omegaOf (N : ℝ) k = frequency N k := by
  unfold omegaOf frequency
  have h3 : ((3 : Nat) : ℝ) = 3 := by norm_num
  have h5 : ((5 : Nat) : ℝ) = 5 := by norm_num
  have h2 : ((2 : Nat) : ℝ) = 2 := by norm_num
  fin_cases k
  · simp [F64.pi]
  · simp [F64.pi]
    ring
  · simp [F64.pi]
    ring

/-- **The zero of the cosines** at the radius. -/
theorem cos_frequency {N : Nat} (hN : 1 ≤ N) (k : Fin 3) : Real.cos (frequency N k * N) = 0 := by
  have hN' : (N : ℝ) ≠ 0 := by
    have h := Nat.pos_iff_ne_zero.mp hN
    exact_mod_cast h
  rw [Real.cos_eq_zero_iff]
  refine ⟨k.val, ?_⟩
  unfold frequency
  push_cast
  field_simp

theorem derived_expanded (N : Nat) (hN : N < 2 ^ 32) (beta : Fin 3 → ℝ) :
    Expanded (derived N hN beta) := expanded_ofSections N hN _ _

/-! ## 2. One dimension -/

section Scan

variable {N : Nat} (hN : 1 ≤ N) (h32 : N < 2 ^ 32) (beta : Fin 3 → ℝ)

include hN

/-- **The truncated cosines solve the recurrences.** -/
theorem conv_solves {x : Int → ℝ} (hx : ∀ i < 0, x i = 0) :
    Solves (derived N h32 beta) x fun k =>
      conv N (fun m => beta k * Real.cos (frequency N k * m)) x where
  start k n hn := conv_before hx hn
  step k n _ := by
    have e1 : (derived N h32 beta).n2 k = -(beta k * Real.cos (frequency N k * (N + 1))) := by
      rw [← omegaOf_eq N k]
      simp [derived, RgConst.map, RgConst.ofWeights, RgConst.ofSections, F64.cos]
    have e2 : (derived N h32 beta).d1 k = -2 * Real.cos (frequency N k) := by
      rw [← omegaOf_eq N k]
      simp [derived, RgConst.map, RgConst.ofWeights, RgConst.ofSections, F64.cos]
    have hr : (derived N h32 beta).radius = N := rfl
    rw [e1, e2, hr, conv_cos hN (beta k) (frequency N k) (cos_frequency hN k) x n]
    ring

/-- A scan stores the convolution. -/
theorem scanValue_derived {x : Int → ℝ} (hx : ∀ i < 0, x i = 0) (n : Int) :
    scanValue (derived N h32 beta) x n = conv N (kernel N beta) x n := by
  have hu (k : Fin 3) := (response_solves (derived N h32 beta) x).unique
    (conv_solves hN h32 beta hx) k n
  unfold scanValue combine
  simp only [hu]
  rw [← conv_add, ← conv_add]
  unfold conv
  refine Finset.sum_congr rfl fun m _ => ?_
  unfold kernel
  rw [Fin.sum_univ_three, add_assoc]

end Scan

/-! ## 3. Two dimensions -/

/-- The sample at a signed position; zero outside the image. -/
def sample {R : Type} [Zero R] (img : List R) (w h c : Nat) (y x : Int) : R :=
  if 0 ≤ y ∧ y < h ∧ 0 ≤ x ∧ x < w then img.getD (flat w h c y.toNat x.toNat) 0 else 0

theorem padded_before {f : Nat → ℝ} {base stride len : Nat} (i : Int) (hi : i < 0) :
    padded f base stride len i = 0 := if_neg (by omega)

/-- The row pass, read by the column pass at row `i` of column `x`. -/
theorem padded_rowValue {N : Nat} (hN : 1 ≤ N) (h32 : N < 2 ^ 32) (beta : Fin 3 → ℝ)
    (img : List ℝ) {w h c x : Nat} (hx : x < w) (i : Int) :
    padded (rowValue (derived N h32 beta) w (cell img)) (flat w h c 0 x) w h i =
      ∑ j ∈ Ioo (-(N : Int)) N, kernel N beta j * sample img w h c i (x - j) := by
  unfold padded
  split_ifs with hi
  · have e : flat w h c 0 x + i.toNat * w = flat w h c i.toNat x := by
      unfold flat
      ring
    rw [e, rowValue_flat hx, scanValue_derived hN h32 beta padded_before]
    unfold conv
    refine Finset.sum_congr rfl fun j _ => ?_
    congr 1
    unfold padded sample
    by_cases hj : 0 ≤ (x : Int) - j ∧ (x : Int) - j < w
    · rw [if_pos hj, if_pos ⟨hi.1, hi.2, hj.1, hj.2⟩, Nat.mul_one]
      rfl
    · rw [if_neg hj, if_neg fun h => hj ⟨h.2.2.1, h.2.2.2⟩]
  · symm
    refine Finset.sum_eq_zero fun j _ => ?_
    unfold sample
    rw [if_neg fun h => hi ⟨h.1, h.2.1⟩, mul_zero]

/-- The value of both passes at a sample. -/
theorem colValue_derived {N : Nat} (hN : 1 ≤ N) (h32 : N < 2 ^ 32) (beta : Fin 3 → ℝ) {w h : Nat}
    (img : List ℝ) {c y x : Nat} (hy : y < h) (hx : x < w) :
    colValue (derived N h32 beta) w h (rowValue (derived N h32 beta) w (cell img)) (flat w h c y x) =
      ∑ i ∈ Ioo (-(N : Int)) N, ∑ j ∈ Ioo (-(N : Int)) N,
        kernel N beta i * kernel N beta j * sample img w h c (y - i) (x - j) := by
  rw [colValue_flat hy hx, scanValue_derived hN h32 beta padded_before]
  unfold conv
  refine Finset.sum_congr rfl fun i _ => ?_
  rw [padded_rowValue hN h32 beta img hx, Finset.mul_sum]
  exact Finset.sum_congr rfl fun j _ => (mul_assoc _ _ _).symm

/-- **The recursive blur is a finite separable convolution**, at every sample of every image: no
    residue of the infinite impulse response is left, on either side. -/
theorem blurPlanesCpu_convolution {N : Nat} (hN : 1 ≤ N) (h32 : N < 2 ^ 32) (beta : Fin 3 → ℝ)
    (w h : Nat) (img : List ℝ) (hi : img.length = 3 * w * h) :
    ∃ out, blurPlanesCpu img w h (derived N h32 beta) = some out ∧ out.length = 3 * w * h ∧
      ∀ c < 3, ∀ y < h, ∀ x < w, out[flat w h c y x]? =
        some (∑ i ∈ Ioo (-(N : Int)) N, ∑ j ∈ Ioo (-(N : Int)) N,
          kernel N beta i * kernel N beta j * sample img w h c (y - i) (x - j)) := by
  have hr : 1 ≤ (derived N h32 beta).radius := hN
  have ht := blurPlanesCpu_table hr w h (derived_expanded N h32 beta) hi
  refine ⟨_, ht, by rw [List.length_map, List.length_range], ?_⟩
  intro c hc y hy x hx
  rw [List.getElem?_map, List.getElem?_range (flat_lt hc hy hx), Option.map_some,
    colValue_derived hN h32 beta img hy hx]

/-- A ramp of seven by four pixels, under radius 5: every sample of a row and of a column is in reach
    of every other. -/
theorem blurPlanesCpu_convolution_ramp :
    let img : List ℝ := (List.range 84).map fun i : Nat => (i : ℝ) / 83
    let rg := derived 5 (by decide) fun k => k.val + 1
    ∃ out, blurPlanesCpu img 7 4 rg = some out ∧ out.length = 84 ∧
      out[flat 7 4 1 2 3]? = some (∑ i ∈ Ioo (-5 : Int) 5, ∑ j ∈ Ioo (-5 : Int) 5,
        kernel 5 (fun k => k.val + 1) i * kernel 5 (fun k => k.val + 1) j *
          sample img 7 4 1 (2 - i) (3 - j)) := by
  intro img rg
  obtain ⟨out, e, hl, hs⟩ := blurPlanesCpu_convolution (N := 5) (by decide) (by decide)
    (fun k => k.val + 1) 7 4 img (by rw [List.length_map, List.length_range])
  exact ⟨out, e, hl, hs 1 (by decide) 2 (by decide) 3 (by decide)⟩

end Ssimulacra2
