/-
  File:      Ssimulacra2/Ssim.lean
  Subject:   The corrected SSIM formula is well defined on every pair of linear images in `[0, 1]`.

  With non-negative taps of mass at most one a blur is a weighted mean over the window, cut by
  zeros at the borders. The blurred products less the products of the blurs are then variances and
  a covariance of sub-probability weights, whatever the image, and the quotient is bounded.
-/
import Ssimulacra2.Lib.Weights
import Ssimulacra2.Blur.Gaussian
import Ssimulacra2.Range
import Ssimulacra2.Scales

namespace Ssimulacra2

open Finset Weights Lists

/-! ## 1. The blur as a mean -/

/-- The sample at a signed position; zero outside the image. -/
noncomputable def padded2 (w h : Nat) (f : Nat → Nat → Nat → ℝ) (c : Nat) (y x : Int) : ℝ :=
  if 0 ≤ y ∧ y < h ∧ 0 ≤ x ∧ x < w then f c y.toNat x.toNat else 0

section Window

variable {w h : Nat} (f g : Nat → Nat → Nat → ℝ) (c : Nat) (y x : Int)

theorem sample_image (hc : c < 3) : sample (image w h f) w h c y x = padded2 w h f c y x := by
  unfold sample padded2
  split_ifs with hin
  · exact cell_image f hc (by omega) (by omega)
  · rfl

theorem padded2_mul : padded2 w h (fun c y x => f c y x * g c y x) c y x =
    padded2 w h f c y x * padded2 w h g c y x := by
  unfold padded2
  split_ifs with hin
  · rfl
  · rw [mul_zero]

theorem padded2_mem (hf : ∀ c y x, 0 ≤ f c y x ∧ f c y x ≤ 1) :
    0 ≤ padded2 w h f c y x ∧ padded2 w h f c y x ≤ 1 := by
  unfold padded2
  split_ifs with hin
  · exact hf _ _ _
  · exact ⟨le_rfl, zero_le_one⟩

end Window

/-- The taps of a kernel as weights. -/
noncomputable def taps {N : Nat} {beta : Fin 3 → ℝ}
    (hn : ∀ m ∈ Ioo (-(N : Int)) (N : Int), 0 ≤ kernel N beta m)
    (hm : ∑ m ∈ Ioo (-(N : Int)) (N : Int), kernel N beta m ≤ 1) : SubWeights Int where
  support := Ioo (-(N : Int)) N
  weight := kernel N beta
  nonneg := hn
  mass_le := hm

/-- The mean over the window at a sample. -/
noncomputable def windowMean (W : SubWeights Int) (w h : Nat) (f : Nat → Nat → Nat → ℝ)
    (c y x : Nat) : ℝ :=
  (W.prod W).mean fun p => padded2 w h f c ((y : Int) - p.1) ((x : Int) - p.2)

/-- **The blur of an image is the mean over the window**, sample by sample. -/
theorem blurPlanesCpu_image {N : Nat} (hN : 1 ≤ N) (h32 : N < 2 ^ 32) {beta : Fin 3 → ℝ}
    (hn : ∀ m ∈ Ioo (-(N : Int)) (N : Int), 0 ≤ kernel N beta m)
    (hm : ∑ m ∈ Ioo (-(N : Int)) (N : Int), kernel N beta m ≤ 1) (w h : Nat)
    (f : Nat → Nat → Nat → ℝ) :
    blurPlanesCpu (image w h f) w h (derived N h32 beta) =
      some (image w h (windowMean (taps hn hm) w h f)) := by
  have ht := blurPlanesCpu_table (show 1 ≤ (derived N h32 beta).radius from hN) w h
    (derived_expanded N h32 beta) (image_length f)
  have hlen : ((List.range (3 * w * h)).map (colValue (derived N h32 beta) w h
      (rowValue (derived N h32 beta) w (cell (image w h f))))).length = 3 * w * h := by
    rw [List.length_map, List.length_range]
  rw [ht]
  refine congrArg some (image_ext hlen (image_length _) fun c hc y hy x hx => ?_)
  rw [List.getElem?_map, List.getElem?_range (flat_lt hc hy hx), Option.map_some,
    colValue_derived hN h32 beta _ hy hx, image_getElem _ hc hy hx]
  unfold windowMean
  rw [SubWeights.mean_prod]
  refine congrArg some (sum_congr rfl fun i _ => sum_congr rfl fun j _ => ?_)
  rw [sample_image f c _ _ hc]
  rfl

/-! ## 2. A pixel -/

/-- What the pooling loop may rely on at a pixel. -/
structure Sound (p : Pixel ℝ) : Prop where
  x1_mem : 0 ≤ p.x1 ∧ p.x1 ≤ 1
  x2_mem : 0 ≤ p.x2 ∧ p.x2 ≤ 1
  denomS_ge : kC2 ≤ p.denomS
  numM_mem : 0 ≤ p.numM ∧ p.numM ≤ 1
  error_mem : 0 ≤ p.error ℝ ∧ p.error ℝ < 2
  ssimD_eq : p.ssimD ℝ = p.error ℝ

theorem kC2_pos : 0 < (kC2 : ℝ) := by
  unfold kC2
  rw [exact_lit32]
  norm_num

/-- **The formula on weighted means** of values in the unit interval. -/
theorem sound_of_means {ι : Type} (W : SubWeights ι) {u v : ι → ℝ} {a b : ℝ}
    (hu : ∀ i ∈ W.support, 0 ≤ u i ∧ u i ≤ 1) (hv : ∀ i ∈ W.support, 0 ≤ v i ∧ v i ≤ 1)
    (ha : 0 ≤ a ∧ a ≤ 1) (hb : 0 ≤ b ∧ b ≤ 1) :
    Sound ⟨a, b, W.mean fun i => u i * u i, W.mean fun i => v i * v i, W.mean fun i => u i * v i,
      W.mean u, W.mean v⟩ := by
  obtain ⟨hu0, hu1⟩ := W.mean_mem hu
  obtain ⟨hv0, hv1⟩ := W.mean_mem hv
  have hk := kC2_pos
  have hvu := W.var_nonneg u
  have hvv := W.var_nonneg v
  have hcov := W.two_cov_le u v
  let p : Pixel ℝ := ⟨a, b, W.mean fun i => u i * u i, W.mean fun i => v i * v i,
    W.mean fun i => u i * v i, W.mean u, W.mean v⟩
  have hden : p.denomS = W.var u + W.var v + kC2 := rfl
  have hnum : p.numS = 2 * W.cov u v + kC2 := by
    unfold Pixel.numS
    rw [exact_ofNat32, Nat.cast_ofNat]
    rfl
  have hm : p.numM = 1 - (W.mean u - W.mean v) * (W.mean u - W.mean v) := by
    unfold Pixel.numM
    rw [exact_ofNat32, Nat.cast_one]
  have hm01 : 0 ≤ p.numM ∧ p.numM ≤ 1 := by
    rw [hm]
    constructor
    · nlinarith
    · nlinarith [mul_self_nonneg (W.mean u - W.mean v)]
  obtain ⟨hq, hq1⟩ := ratio_bounds hcov hk
  have herr : p.error ℝ =
      1 - p.numM * ((2 * W.cov u v + kC2) / (W.var u + W.var v + kC2)) := by
    unfold Pixel.error
    rw [exact_widen, exact_ofNat64, Nat.cast_one, hnum, hden, mul_div_assoc]
  have hbounds := error_bounds hm01.1 hm01.2 hq hq1
  rw [← herr] at hbounds
  exact ⟨ha, hb, by rw [hden]; linarith, hm01, hbounds, max_eq_left hbounds.1⟩

/-! ## 3. A scale -/

/-- A level whose two images have their samples in the unit interval. -/
def UnitLevel (l : Level ℝ) : Prop :=
  1 ≤ l.w ∧ 1 ≤ l.h ∧ ∃ f g : Nat → Nat → Nat → ℝ, (∀ c y x, 0 ≤ f c y x ∧ f c y x ≤ 1) ∧
    (∀ c y x, 0 ≤ g c y x ∧ g c y x ≤ 1) ∧ l.a = image l.w l.h f ∧ l.b = image l.w l.h g

theorem boxSample_mem {iw ih : Nat} {f : Nat → Nat → Nat → ℝ}
    (hf : ∀ c y x, 0 ≤ f c y x ∧ f c y x ≤ 1) (c oy ox : Nat) :
    0 ≤ boxSample iw ih f c oy ox ∧ boxSample iw ih f c oy ox ≤ 1 := by
  have hs (iy ix : Nat) := hf c (min (oy * 2 + iy) (ih - 1)) (min (ox * 2 + ix) (iw - 1))
  have h00 := hs 0 0
  have h01 := hs 0 1
  have h10 := hs 1 0
  have h11 := hs 1 1
  unfold boxSample
  rw [exact_lit32]
  push_cast
  constructor
  · linarith
  · linarith

/-- **The halving keeps the unit interval.** -/
theorem nextLevel_unit (scale : Nat) {l : Level ℝ} (hl : UnitLevel l) :
    ∃ l', nextLevel scale l = some l' ∧ UnitLevel l' := by
  obtain ⟨hw, hh, f, g, hf, hg, ea, eb⟩ := hl
  unfold nextLevel
  by_cases h0 : scale > 0
  · rw [if_pos h0, ea, eb, downsampleCpu_image hw hh, downsampleCpu_image hw hh]
    refine ⟨_, rfl, ?_, ?_, _, _, boxSample_mem hf, boxSample_mem hg, rfl, rfl⟩
    · show 1 ≤ (l.w + 1) / 2
      omega
    · show 1 ≤ (l.h + 1) / 2
      omega
  · rw [if_neg h0]
    exact ⟨l, rfl, hw, hh, f, g, hf, hg, ea, eb⟩

/-- What the pooling of a scale may rely on. -/
def SoundMaps (m : ScaleMaps ℝ) : Prop :=
  ∀ c < 3, ∀ y < m.h, ∀ x < m.w,
    ∃ p, m.pixel (c * (m.w * m.h) + y * m.w + x) = some p ∧ Sound p

section Kernel

variable {N : Nat} {beta : Fin 3 → ℝ} (hN : 1 ≤ N) (h32 : N < 2 ^ 32)
  (hn : ∀ m ∈ Ioo (-(N : Int)) (N : Int), 0 ≤ kernel N beta m)
  (hm : ∑ m ∈ Ioo (-(N : Int)) (N : Int), kernel N beta m ≤ 1)

include hN hn hm

/-- **One scale**: the images exist and every pixel of theirs is sound. -/
theorem scaleMaps_sound {l : Level ℝ} (hl : UnitLevel l) :
    ∃ m, scaleMaps (cpuOps ℝ cbrtAddExact (derived N h32 beta)) l.a l.b l.w l.h = some m ∧
      SoundMaps m := by
  obtain ⟨-, -, f, g, hf, hg, ea, eb⟩ := hl
  let ops := cpuOps ℝ cbrtAddExact (derived N h32 beta)
  have hblur : ∀ f, ops.blur (image l.w l.h f) l.w l.h =
      some (image l.w l.h (windowMean (taps hn hm) l.w l.h f)) :=
    blurPlanesCpu_image hN h32 hn hm l.w l.h
  have hs := scaleMaps_image hblur f g
  rw [ea, eb]
  refine ⟨_, hs, fun c hc y hy x hx => ?_⟩
  refine ⟨_, pixel_image _ hc hy hx, ?_⟩
  have hx1 : ∀ c y x, 0 ≤ xybSample (xybPixel ℝ cbrtAddExact) f c y x ∧
      xybSample (xybPixel ℝ cbrtAddExact) f c y x ≤ 1 := fun c y x =>
    positiveXyb_mem (hf 0 y x) (hf 1 y x) (hf 2 y x) c
  have hx2 : ∀ c y x, 0 ≤ xybSample (xybPixel ℝ cbrtAddExact) g c y x ∧
      xybSample (xybPixel ℝ cbrtAddExact) g c y x ≤ 1 := fun c y x =>
    positiveXyb_mem (hg 0 y x) (hg 1 y x) (hg 2 y x) c
  have hsound := sound_of_means ((taps hn hm).prod (taps hn hm))
    (u := fun p => padded2 l.w l.h (xybSample (xybPixel ℝ cbrtAddExact) f) c ((y : Int) - p.1)
      ((x : Int) - p.2))
    (v := fun p => padded2 l.w l.h (xybSample (xybPixel ℝ cbrtAddExact) g) c ((y : Int) - p.1)
      ((x : Int) - p.2))
    (fun p _ => padded2_mem _ c _ _ hx1) (fun p _ => padded2_mem _ c _ _ hx2) (hx1 c y x)
    (hx2 c y x)
  simp only [← padded2_mul] at hsound
  exact hsound

/-- **Every scale** of the loop. -/
theorem mapsWith_sound (left scale : Nat) {l : Level ℝ} (hl : UnitLevel l) :
    ∃ t, scaleLoop (fun l => scaleMaps (cpuOps ℝ cbrtAddExact (derived N h32 beta)) l.a l.b l.w l.h)
      left scale l [] = some t ∧ ∀ m ∈ t, SoundMaps m := by
  refine scaleLoop_run (fun scale l hl _ => ?_) left scale l hl
  obtain ⟨l', e, hl'⟩ := nextLevel_unit scale hl
  obtain ⟨m, em, hm'⟩ := scaleMaps_sound hN h32 hn hm hl'
  exact ⟨l', m, e, hl', em, hm'⟩

end Kernel

/-- A scale whose pixels exist is pooled. -/
theorem poolScale_isSome {m : ScaleMaps ℝ} (hm : SoundMaps m) : ∃ sn, poolScale ℝ m = some sn := by
  have hc (c : Nat) (hc : c < 3) : ∃ s, poolChannel ℝ m c = some s := by
    obtain ⟨s, e, -⟩ := foldlM_isSome (P := fun _ => True)
      (fun (s : (ℝ × ℝ) × (ℝ × ℝ × ℝ × ℝ)) (y : Nat) =>
        (List.range m.w).foldlM (fun s (x : Nat) => do
          let p ← m.pixel (c * (m.w * m.h) + y * m.w + x)
          some (addSsim s.1 (p.ssimD ℝ), addEdge s.2 (p.edgeD1 ℝ))) s) (List.range m.h)
      (fun s y hy _ => foldlM_isSome _ _ (fun s x hx _ => by
        obtain ⟨p, e, -⟩ := hm c hc y (List.mem_range.mp hy) x (List.mem_range.mp hx)
        exact ⟨_, by rw [e]; rfl, trivial⟩) s trivial) ((0, 0), (0, 0, 0, 0)) trivial
    exact ⟨s, e⟩
  obtain ⟨s0, e0⟩ := hc 0 (by decide)
  obtain ⟨s1, e1⟩ := hc 1 (by decide)
  obtain ⟨s2, e2⟩ := hc 2 (by decide)
  unfold poolScale
  rw [e0, e1, e2]
  exact ⟨_, rfl⟩

/-! ## 4. The engine -/

/-- The samples of a vector in the unit interval, as a function. -/
theorem cell_unit {lin : List ℝ} (hl : ∀ v ∈ lin, 0 ≤ v ∧ v ≤ 1) (j : Nat) :
    0 ≤ cell lin j ∧ cell lin j ≤ 1 := by
  unfold cell
  rcases Nat.lt_or_ge j lin.length with hj | hj
  · rw [List.getD_eq_getElem _ _ hj]
    exact hl _ (List.getElem_mem hj)
  · rw [List.getD_eq_default _ _ hj]
    exact ⟨le_rfl, zero_le_one⟩

/-- **The corrected SSIM formula is well defined.** For every two linear images with samples in
    `[0, 1]` the engine pools the images of its scales, and at every pixel of every channel of each:
    the positive XYB samples lie in `[0, 1]`, the denominator is at least `KC2 > 0`, `num_m` lies in
    `[0, 1]`, the error lies in `[0, 2)` and the clamp does not change it. -/
theorem ssim_wellDefined {w h : Nat} (hw : 8 ≤ w) (hh : 8 ≤ h) {lin1 lin2 : List ℝ}
    (hl1 : lin1.length = 3 * w * h) (hl2 : lin2.length = 3 * w * h)
    (h1 : ∀ v ∈ lin1, 0 ≤ v ∧ v ≤ 1) (h2 : ∀ v ∈ lin2, 0 ≤ v ∧ v ≤ 1) :
    0 < (kC2 : ℝ) ∧ ∃ rg t scales, createRecursiveGaussian ℝ (F64.lit 1.5 : ℝ) = some rg ∧
      mapsWith (cpuOps ℝ cbrtAddExact rg) lin1 lin2 w h = some t ∧
      t.mapM (poolScale ℝ) = some scales ∧
      computeSsimulacra2Cpu ℝ cbrtAddExact lin1 lin2 w h = some scales ∧
      t ≠ [] ∧
      ∀ m ∈ t, ∀ c < 3, ∀ y < m.h, ∀ x < m.w,
        ∃ p, m.pixel (c * (m.w * m.h) + y * m.w + x) = some p ∧ Sound p := by
  obtain ⟨beta, hrg, hn, hm⟩ := gaussian_kernel
  have hl : UnitLevel ⟨lin1, lin2, w, h⟩ := ⟨by show 1 ≤ w; omega, by show 1 ≤ h; omega, _, _,
    fun c y x => cell_unit h1 (flat w h c y x), fun c y x => cell_unit h2 (flat w h c y x),
    eq_image hl1, eq_image hl2⟩
  obtain ⟨t, et, ht⟩ := mapsWith_sound (by decide) (by decide) hn hm.le 6 0 hl
  have hpool : ∃ scales, t.mapM (poolScale ℝ) = some scales := by
    have hall : ∀ m ∈ t, ∃ sn, poolScale ℝ m = some sn := fun m hm => poolScale_isSome (ht m hm)
    clear et ht
    induction t with
    | nil => exact ⟨[], rfl⟩
    | cons m t ih =>
      obtain ⟨sn, e⟩ := hall m List.mem_cons_self
      obtain ⟨scales, es⟩ := ih fun m hm => hall m (List.mem_cons_of_mem _ hm)
      exact ⟨sn :: scales, by rw [List.mapM_cons, e, es]; rfl⟩
  obtain ⟨scales, es⟩ := hpool
  refine ⟨kC2_pos, _, t, scales, hrg, et, es, ?_, ?_, ht⟩
  · unfold computeSsimulacra2Cpu
    rw [hrg, Option.bind_eq_bind, Option.bind_some, computeWith_maps]
    unfold mapsWith
    rw [et]
    exact es
  · refine scaleLoop_ne_nil (fun h8 => ?_) et
    rcases h8 with h8 | h8
    · exact absurd hw (Nat.not_le.mpr h8)
    · exact absurd hh (Nat.not_le.mpr h8)

/-- Two ramps of the least size. -/
theorem ssim_wellDefined_ramps : ∃ rg t,
    mapsWith (cpuOps ℝ cbrtAddExact rg) (ramp 1) (ramp (1 / 2)) 8 8 = some t ∧ t ≠ [] ∧
      ∀ m ∈ t, SoundMaps m := by
  obtain ⟨-, rg, t, -, -, ht, -, -, hne, hs⟩ := ssim_wellDefined (w := 8) (h := 8) le_rfl le_rfl
    (ramp_length 1) (ramp_length (1 / 2)) (ramp_unit zero_le_one le_rfl)
    (ramp_unit (by norm_num) (by norm_num))
  exact ⟨rg, t, ht, hne, hs⟩

end Ssimulacra2
