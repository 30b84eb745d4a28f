/-
  File:      Ssimulacra2/Blur/Lines.lean
  Subject:   A pass of the blur over a line of samples is a linear operator, the same one for rows
             and for columns.

  * `scan_linear` -- the scan is linear in its padded input;
  * `lineBlur_sum` -- so a pass is a sum with weights that depend on the two indices alone;
  * `blurSample_swap` -- rows first or columns first makes no difference;
  * `blurPlanesCpu_lines` -- the blur of an image, sample by sample, for every section constants.
-/
import Ssimulacra2.Blur.Table
import Ssimulacra2.Images

namespace Ssimulacra2

open Finset

variable {R : Type} [CommRing R]

/-! ## 1. Linearity -/

theorem Solves.add {rg : RgConst R} {x y : Int → R} {z u : Fin 3 → Int → R} (hz : Solves rg x z)
    (hu : Solves rg y u) : Solves rg (x + y) fun k n => z k n + u k n where
  start k n h := by rw [hz.start k n h, hu.start k n h, add_zero]
  step k n h := by
    rw [hz.step k n h, hu.step k n h]
    simp only [Pi.add_apply]
    ring

theorem Solves.smul {rg : RgConst R} {x : Int → R} {z : Fin 3 → Int → R} (a : R)
    (hz : Solves rg x z) : Solves rg (a • x) fun k n => a * z k n where
  start k n h := by rw [hz.start k n h, mul_zero]
  step k n h := by
    rw [hz.step k n h]
    simp only [Pi.smul_apply, smul_eq_mul]
    ring

/-- **The scan is linear in its input.** -/
def scanLinear (rg : RgConst R) (n : Int) : (Int → R) →ₗ[R] R where
  toFun x := scanValue rg x n
  map_add' x y := by
    have h (k : Fin 3) := (response_solves rg (x + y)).unique
      ((response_solves rg x).add (response_solves rg y)) k n
    unfold scanValue combine
    simp only [h]
    ring
  map_smul' a x := by
    have h (k : Fin 3) := (response_solves rg (a • x)).unique
      ((response_solves rg x).smul a) k n
    unfold scanValue combine
    simp only [h, RingHom.id_apply, smul_eq_mul]
    ring

/-! ## 2. A pass over a line -/

/-- A line of samples, continued with zeros. -/
def lineInput (len : Nat) (g : Nat → R) (i : Int) : R :=
  if 0 ≤ i ∧ i < len then g i.toNat else 0

/-- Sample `n` of a blurred line. -/
def lineBlur (rg : RgConst R) (len : Nat) (g : Nat → R) (n : Nat) : R :=
  scanValue rg (lineInput len g) n

/-- What sample `j` contributes to sample `n`. -/
def lineWeight (rg : RgConst R) (j n : Nat) : R := scanValue rg (Pi.single (j : Int) 1) n

theorem lineInput_sum (len : Nat) (g : Nat → R) :
    lineInput len g = ∑ j ∈ range len, g j • (Pi.single (j : Int) 1 : Int → R) := by
  funext i
  rw [Finset.sum_apply]
  simp only [Pi.smul_apply, smul_eq_mul, Pi.single_apply]
  unfold lineInput
  by_cases hi : 0 ≤ i ∧ i < len
  · have hj : i.toNat ∈ range len := by
      rw [mem_range]
      omega
    have hcast : i = (i.toNat : Int) := by omega
    rw [if_pos hi, Finset.sum_eq_single_of_mem i.toNat hj, if_pos hcast, mul_one]
    intro j _ hne
    rw [if_neg (by omega), mul_zero]
  · rw [if_neg hi, Finset.sum_eq_zero]
    intro j hj
    rw [mem_range] at hj
    rw [if_neg (by omega), mul_zero]

/-- **A pass is a weighted sum** of the samples of the line. -/
theorem lineBlur_sum (rg : RgConst R) (len : Nat) (g : Nat → R) (n : Nat) :
    lineBlur rg len g n = ∑ j ∈ range len, g j * lineWeight rg j n := by
  have h : lineBlur rg len g n = scanLinear rg n (lineInput len g) := rfl
  rw [h, lineInput_sum, map_sum]
  refine Finset.sum_congr rfl fun j _ => ?_
  rw [map_smul, smul_eq_mul]
  rfl

theorem lineBlur_congr (rg : RgConst R) {len : Nat} {f g : Nat → R} (h : ∀ i < len, f i = g i)
    (n : Nat) : lineBlur rg len f n = lineBlur rg len g n := by
  rw [lineBlur_sum, lineBlur_sum]
  refine Finset.sum_congr rfl fun j hj => ?_
  rw [h j (mem_range.mp hj)]

/-! ## 3. Two passes -/

/-- Sample `(y, x)` of plane `c` of the blurred image: the rows first, then the columns. -/
def blurSample (rg : RgConst R) (w h : Nat) (f : Nat → Nat → Nat → R) (c y x : Nat) : R :=
  lineBlur rg h (fun i => lineBlur rg w (f c i) x) y

/-- The image with rows and columns exchanged. -/
def swapped (f : Nat → Nat → Nat → R) (c y x : Nat) : R := f c x y

/-- **Rows and columns may be exchanged.** -/
theorem blurSample_swap (rg : RgConst R) (w h : Nat) (f : Nat → Nat → Nat → R) :
    blurSample rg h w (swapped f) = swapped (blurSample rg w h f) := by
  funext c y x
  have hleft : blurSample rg h w (swapped f) c y x =
      ∑ i ∈ range w, ∑ j ∈ range h, f c j i * lineWeight rg j x * lineWeight rg i y := by
    unfold blurSample
    rw [lineBlur_sum]
    refine Finset.sum_congr rfl fun i _ => ?_
    rw [lineBlur_sum, Finset.sum_mul]
    rfl
  have hright : swapped (blurSample rg w h f) c y x =
      ∑ j ∈ range h, ∑ i ∈ range w, f c j i * lineWeight rg i y * lineWeight rg j x := by
    unfold swapped blurSample
    rw [lineBlur_sum]
    refine Finset.sum_congr rfl fun j _ => ?_
    rw [lineBlur_sum, Finset.sum_mul]
  rw [hleft, hright, Finset.sum_comm]
  refine Finset.sum_congr rfl fun j _ => Finset.sum_congr rfl fun i _ => ?_
  exact mul_right_comm _ _ _

/-- **The blur of an image**, sample by sample. -/
theorem blurPlanesCpu_lines {rg : RgConst R} (hN : 1 ≤ rg.radius) (hrg : Expanded rg) (w h : Nat)
    (f : Nat → Nat → Nat → R) :
    blurPlanesCpu (image w h f) w h rg = some (image w h (blurSample rg w h f)) := by
  rw [blurPlanesCpu_table hN w h hrg (image_length f)]
  refine congrArg some (image_ext (by rw [List.length_map, List.length_range])
    (image_length _) fun c hc y hy x hx => ?_)
  have hrow (i : Nat) (hi : i < h) :
      rowValue rg w (cell (image w h f)) (flat w h c 0 x + i * w) = lineBlur rg w (f c i) x := by
    have e : flat w h c 0 x + i * w = flat w h c i x := by
      unfold flat
      ring
    have hline : padded (cell (image w h f)) (c * w * h + i * w) 1 w = lineInput w (f c i) := by
      funext j
      unfold padded lineInput
      by_cases hj : 0 ≤ j ∧ j < w
      · rw [if_pos hj, if_pos hj, Nat.mul_one]
        exact cell_image f hc hi (by omega)
      · rw [if_neg hj, if_neg hj]
    rw [e, rowValue_flat hx, hline]
    rfl
  rw [image_getElem _ hc hy hx, List.getElem?_map, List.getElem?_range (flat_lt hc hy hx),
    Option.map_some, colValue_flat hy hx]
  refine congrArg some ?_
  have hcol := lineBlur_congr rg hrow y
  exact hcol

end Ssimulacra2
