/-
  File:      Ssimulacra2/Range.lean
  Subject:   The positive XYB samples of linear samples in `[0, 1]` lie in `[0, 1]`.

  Exact arithmetic, with the cube-root helper read as the real cube root plus its addend. The rows
  of the opsin matrix sum to one and share their bias, so every comparison of the three cube roots
  is a comparison of their cubes (`cube_gap`, `cube_scale`).
-/
import Ssimulacra2.Images

namespace Ssimulacra2

/-! ## 1. Comparing cubes -/

/-- `cbrt_and_add` without rounding. -/
noncomputable def cbrtAddExact (x add : ℝ) : ℝ := realCbrt x + add

theorem realCbrt_nonneg {x : ℝ} (hx : 0 ≤ x) : 0 ≤ realCbrt x := by
  unfold realCbrt
  rw [if_pos hx]
  exact Real.rpow_nonneg hx _

theorem realCbrt_cube {x : ℝ} (hx : 0 ≤ x) : realCbrt x ^ 3 = x := by
  unfold realCbrt
  rw [if_pos hx, ← Real.rpow_natCast, ← Real.rpow_mul hx]
  norm_num

section Cubes

variable {a b : ℝ}

theorem cube_le (hb : 0 ≤ b) (h : a ^ 3 ≤ b ^ 3) : a ≤ b := by
  by_contra hlt
  rw [not_le] at hlt
  have hp := pow_lt_pow_left₀ hlt hb (by norm_num : 3 ≠ 0)
  linarith

/-- A cube root scales with the cube root of the factor. -/
theorem cube_scale {k : ℝ} (hb : 0 ≤ b) (h : k ^ 3 * a ^ 3 ≤ b ^ 3) : k * a ≤ b := by
  refine cube_le hb ?_
  rw [mul_pow]
  exact h

/-- **The gap of two cube roots**: cubes that differ by at most `q t` and are at least `l t`, with
    `t` in `[0, 1]`. -/
theorem cube_gap {t q l d : ℝ} (hb : 0 ≤ b) (ht : 0 ≤ t) (ht1 : t ≤ 1) (hl : 0 ≤ l)
    (hd : 0 < d) (hgap : a ^ 3 - b ^ 3 ≤ q * t) (hlow : l * t ≤ b ^ 3)
    (hq : q ^ 3 < 27 * d ^ 3 * l ^ 2) : a - b ≤ d := by
  by_contra hlt
  rw [not_le] at hlt
  have hab : b < a := by linarith
  -- the difference of the cubes is at least `3 d b²`
  have h1 : 3 * d * b ^ 2 ≤ q * t := by
    have e : a ^ 3 - b ^ 3 = (a - b) * (a ^ 2 + a * b + b ^ 2) := by ring
    have h2 : 3 * b ^ 2 ≤ a ^ 2 + a * b + b ^ 2 := by nlinarith
    calc 3 * d * b ^ 2 = d * (3 * b ^ 2) := by ring
      _ ≤ (a - b) * (a ^ 2 + a * b + b ^ 2) :=
          mul_le_mul hlt.le h2 (by positivity) (by linarith)
      _ ≤ q * t := by rw [← e]; exact hgap
  -- cubed, against the square of the lower bound
  have h3 : 27 * d ^ 3 * l ^ 2 * t ^ 2 ≤ q ^ 3 * t ^ 2 := by
    have hlow2 : (l * t) ^ 2 ≤ (b ^ 3) ^ 2 :=
      pow_le_pow_left₀ (mul_nonneg hl ht) hlow 2
    have hcube : (3 * d * b ^ 2) ^ 3 ≤ (q * t) ^ 3 := pow_le_pow_left₀ (by positivity) h1 3
    have hqt : 0 ≤ (q * t) ^ 3 := le_trans (by positivity) hcube
    have ht3 : (q * t) ^ 3 ≤ q ^ 3 * t ^ 2 := by
      rcases eq_or_lt_of_le ht with rfl | htp
      · norm_num
      · have hq3 : 0 ≤ q ^ 3 := by
          rw [mul_pow] at hqt
          exact nonneg_of_mul_nonneg_left hqt (by positivity)
        calc (q * t) ^ 3 = q ^ 3 * t ^ 2 * t := by ring
          _ ≤ q ^ 3 * t ^ 2 * 1 := mul_le_mul_of_nonneg_left ht1 (by positivity)
          _ = q ^ 3 * t ^ 2 := mul_one _
    calc 27 * d ^ 3 * l ^ 2 * t ^ 2 = 27 * d ^ 3 * (l * t) ^ 2 := by ring
      _ ≤ 27 * d ^ 3 * (b ^ 3) ^ 2 := mul_le_mul_of_nonneg_left hlow2 (by positivity)
      _ = (3 * d * b ^ 2) ^ 3 := by ring
      _ ≤ q ^ 3 * t ^ 2 := le_trans hcube ht3
  rcases eq_or_lt_of_le ht with rfl | htp
  · have h4 : a ^ 3 ≤ b ^ 3 := by linarith
    have h5 := cube_le hb h4
    linarith
  · have h4 := mul_lt_mul_of_pos_right hq (by positivity : 0 < t ^ 2)
    linarith

end Cubes

/-! ## 2. The range of a pixel -/

/-- The bias `KB0`. -/
noncomputable def bias : ℝ := (0.0037930732552754493 : ℚ)

/-- **The range of positive XYB** over the linear cube, from the cubes of the three roots. -/
theorem xyb_range {r g bl a b c k : ℝ} (hr : 0 ≤ r ∧ r ≤ 1) (hg : 0 ≤ g ∧ g ≤ 1)
    (hbl : 0 ≤ bl ∧ bl ≤ 1) (ha0 : 0 ≤ a) (hb0 : 0 ≤ b) (hc0 : 0 ≤ c) (hk0 : 0 ≤ k)
    (ha : a ^ 3 = 0.30 * r + 0.622 * g + 0.078 * bl + bias)
    (hb : b ^ 3 = 0.23 * r + 0.692 * g + 0.078 * bl + bias)
    (hc : c ^ 3 = 0.24342268924547819 * r + 0.20476744424496821 * g +
      (1 - 0.24342268924547819 - 0.20476744424496821) * bl + bias)
    (hk : k ^ 3 = bias) :
    (0 ≤ 7 * (a - b) + 0.42 ∧ 7 * (a - b) + 0.42 ≤ 1) ∧
      (0 ≤ (a + b) / 2 - k + 0.01 ∧ (a + b) / 2 - k + 0.01 ≤ 1) ∧
      (0 ≤ c - (a + b) / 2 + 0.55 ∧ c - (a + b) / 2 + 0.55 ≤ 1) := by
  obtain ⟨hr0, hr1⟩ := hr
  obtain ⟨hg0, hg1⟩ := hg
  obtain ⟨hl0, hl1⟩ := hbl
  have hbias : bias = 0.0037930732552754493 := by unfold bias; norm_num
  rw [hbias] at ha hb hc hk
  have hka : k ≤ a := cube_le ha0 (by rw [ha, hk]; linarith)
  have hkb : k ≤ b := cube_le hb0 (by rw [hb, hk]; linarith)
  have hk15 : 0.15 ≤ k := cube_le hk0 (by rw [hk]; norm_num)
  have ha1 : a ≤ 1.002 := cube_le (by norm_num) (by rw [ha]; norm_num; linarith)
  have hb1 : b ≤ 1.002 := cube_le (by norm_num) (by rw [hb]; norm_num; linarith)
  have hc1 : c ≤ 1.002 := cube_le (by norm_num) (by rw [hc]; norm_num; linarith)
  refine ⟨⟨?_, ?_⟩, ⟨?_, ?_⟩, ?_, ?_⟩
  · have h := cube_gap (a := b) (b := a) (t := g) (q := 0.07) (l := 0.622) (d := 0.06) ha0 hg0 hg1
      (by norm_num) (by norm_num) (by rw [ha, hb]; linarith) (by rw [ha]; linarith) (by norm_num)
    linarith
  · have h := cube_gap (a := a) (b := b) (t := r) (q := 0.07) (l := 0.23) (d := 0.0828) hb0 hr0 hr1
      (by norm_num) (by norm_num) (by rw [ha, hb]; linarith) (by rw [hb]; linarith) (by norm_num)
    linarith
  · linarith
  · linarith
  · have h1 : 0.66 * a ≤ c := cube_scale hc0 (by rw [ha, hc]; norm_num; linarith)
    have h2 : 0.66 * b ≤ c := cube_scale hc0 (by rw [hb, hc]; norm_num; linarith)
    linarith
  · rcases le_or_gt c 0.9375 with hsmall | hlarge
    · have h1 : 0.52 * c ≤ a := cube_scale ha0 (by rw [ha, hc]; norm_num; linarith)
      have h2 : 0.52 * c ≤ b := cube_scale hb0 (by rw [hb, hc]; norm_num; linarith)
      linarith
    · -- a bright third root needs red or green, which the first two count as well
      have h3 := pow_le_pow_left₀ (by norm_num) hlarge.le 3
      rw [hc] at h3
      have h1 : 0.74 ≤ a := cube_le ha0 (by rw [ha]; norm_num at h3 ⊢; linarith)
      have h2 : 0.69 ≤ b := cube_le hb0 (by rw [hb]; norm_num at h3 ⊢; linarith)
      linarith

/-- The opsin absorbance before the cube root, by row. -/
noncomputable def absorbance (r g b : ℝ) : Fin 3 → ℝ := ![
  0.30 * r + 0.622 * g + 0.078 * b + bias,
  0.23 * r + 0.692 * g + 0.078 * b + bias,
  0.24342268924547819 * r + 0.20476744424496821 * g +
    (1 - 0.24342268924547819 - 0.20476744424496821) * b + bias]

theorem absorbance_nonneg {r g b : ℝ} (hr : 0 ≤ r) (hg : 0 ≤ g) (hb : 0 ≤ b) (c : Fin 3) :
    0 ≤ absorbance r g b c := by
  have hbias : 0 ≤ bias := by unfold bias; norm_num
  fin_cases c <;> simp only [absorbance] <;> norm_num <;> positivity

/-- A row of `mixed` is a real cube root less the root of the bias. -/
theorem mixed_exact {r g b : ℝ} (hr : 0 ≤ r) (hg : 0 ≤ g) (hb : 0 ≤ b) (c : Fin 3) :
    mixed ℝ cbrtAddExact r g b c = realCbrt (absorbance r g b c) - realCbrt bias := by
  have hv := absorbance_nonneg hr hg hb c
  have hm : mixed ℝ cbrtAddExact r g b c =
      cbrtAddExact (max (absorbance r g b c) 0) (-realCbrt bias) := by
    unfold mixed
    fin_cases c <;>
      simp [premulAbsorb, absorbance, opsinBias, negBiasCbrt, bias, F64.cbrt] <;>
      norm_num <;> ring_nf
  rw [hm, max_eq_left hv]
  unfold cbrtAddExact
  ring

/-- **Positive XYB samples lie in the unit interval.** -/
theorem positiveXyb_mem {r g b : ℝ} (hr : 0 ≤ r ∧ r ≤ 1) (hg : 0 ≤ g ∧ g ≤ 1)
    (hb : 0 ≤ b ∧ b ≤ 1) (i : Nat) :
    0 ≤ component (positiveXyb (xybPixel ℝ cbrtAddExact r g b)) i ∧
      component (positiveXyb (xybPixel ℝ cbrtAddExact r g b)) i ≤ 1 := by
  have hbias : 0 ≤ bias := by unfold bias; norm_num
  have hv := absorbance_nonneg hr.1 hg.1 hb.1
  have hn (c : Fin 3) := realCbrt_nonneg (hv c)
  have hc (c : Fin 3) := realCbrt_cube (hv c)
  obtain ⟨hx, hy, hz⟩ := xyb_range hr hg hb (hn 0) (hn 1) (hn 2) (realCbrt_nonneg hbias) (hc 0)
    (hc 1) (hc 2) (realCbrt_cube hbias)
  have hm := mixed_exact hr.1 hg.1 hb.1
  have e0 : component (positiveXyb (xybPixel ℝ cbrtAddExact r g b)) 0 =
      7 * (realCbrt (absorbance r g b 0) - realCbrt (absorbance r g b 1)) + 0.42 := by
    simp only [component, positiveXyb, xybPixel, hm, exact_lit32, exact_ofNat32, if_true]
    push_cast
    ring
  have e1 : component (positiveXyb (xybPixel ℝ cbrtAddExact r g b)) 1 =
      (realCbrt (absorbance r g b 0) + realCbrt (absorbance r g b 1)) / 2 - realCbrt bias +
        0.01 := by
    simp only [component, positiveXyb, xybPixel, hm, exact_lit32, if_true, one_ne_zero, if_false]
    push_cast
    ring
  have e2 (j : Nat) : component (positiveXyb (xybPixel ℝ cbrtAddExact r g b)) (j + 2) =
      realCbrt (absorbance r g b 2) -
        (realCbrt (absorbance r g b 0) + realCbrt (absorbance r g b 1)) / 2 + 0.55 := by
    have h0 : j + 2 ≠ 0 := by omega
    have h1 : j + 2 ≠ 1 := by omega
    simp only [component, positiveXyb, xybPixel, hm, exact_lit32, h0, h1, if_false]
    push_cast
    ring
  match i with
  | 0 => rw [e0]; exact hx
  | 1 => rw [e1]; exact hy
  | j + 2 => rw [e2]; exact hz

/-! ## Ramps -/

/-- A ramp of the least size. -/
noncomputable def ramp (a : ℝ) : List ℝ := (List.range 192).map fun i : Nat => a * (i : ℝ) / 191

theorem ramp_length (a : ℝ) : (ramp a).length = 3 * 8 * 8 := by
  rw [ramp, List.length_map, List.length_range]

theorem ramp_unit {a : ℝ} (h0 : 0 ≤ a) (h1 : a ≤ 1) : ∀ v ∈ ramp a, 0 ≤ v ∧ v ≤ 1 := by
  intro v hv
  obtain ⟨i, hi, rfl⟩ := List.mem_map.mp hv
  have hi : (i : ℝ) ≤ 191 := by
    exact_mod_cast Nat.lt_succ_iff.mp (List.mem_range.mp hi)
  refine ⟨by positivity, (div_le_one (by norm_num)).mpr ?_⟩
  calc a * i ≤ 1 * i := by gcongr
    _ ≤ 191 := by rwa [one_mul]

end Ssimulacra2
