/-
  File:      Ssimulacra2/Linear.lean
  Subject:   From decoded samples to linear ones (`cpu.rs`): the alpha blend, the transfer function
             and its table for 8-bit samples.

  `quartic_cross` writes the cross difference of two quartics as the step times a sum of minors of
  their coefficients; the signs of ten numbers then decide that the quotient grows
  (`srgbToLinear_unit`).
-/
import Ssimulacra2.Planes
import Ssimulacra2.Primitives

namespace Ssimulacra2

open Lists

/-! ## 1. The functions -/

section Functions

variable {F : Type} [F32 F]

/-- `alpha_is_fully_opaque`, over the comparison `v == 1.0f32`. -/
def alphaIsFullyOpaque (isOne : F → Bool) (alpha : List F) : Bool := alpha.all isOne

/-- `alpha_blend`. An entry of `alpha.iter().enumerate()` is the pair of `a` and `i`. -/
def alphaBlend (srgb alpha : List F) (bg : F) (n : Nat) : Option (List F) :=
  alpha.zipIdx.foldlM (fun out ai =>
    (List.range 3).foldlM (fun out c => do
      let p := c * n + ai.2
      let v ← out[p]?
      writeAt (p : Int) (ai.1 * v + (ofNat 1 - ai.1) * bg) out) out) srgb

/-- The numerator `P` of `srgb_to_linear`. -/
def srgbP : Fin 5 → ℚ :=
  ![2.200248328e-04, 1.043637593e-02, 1.624820318e-01, 7.961564959e-01, 8.210152774e-01]

/-- The denominator `Q`. -/
def srgbQ : Fin 5 → ℚ :=
  ![2.631846970e-01, 1.076976492e+00, 4.987528350e-01, -5.512498495e-02, 6.521209011e-03]

/-- The two Horner loops, `yp` and `yq`. -/
def srgbHorner (x : F) : F × F :=
  (List.finRange 4).reverse.foldl (fun y i =>
      (mulAdd y.1 x (F32.lit (srgbP i.castSucc)), mulAdd y.2 x (F32.lit (srgbQ i.castSucc))))
    (F32.lit (srgbP 4), F32.lit (srgbQ 4))

/-- `srgb_to_linear`. -/
def srgbToLinear (x : F) : F :=
  if F32.lt (F32.lit 0.04045) x then (srgbHorner x).1 / (srgbHorner x).2
  else x * (ofNat 1 / F32.lit 12.92)

/-- `to_linear`. -/
def toLinear (srgb : List F) : List F := srgb.map srgbToLinear

end Functions

/-! ## 2. Quotients of quartics -/

/-- A quartic in the order of its coefficients. -/
noncomputable def quartic (p : Fin 5 → ℝ) (x : ℝ) : ℝ :=
  p 0 + p 1 * x + p 2 * x ^ 2 + p 3 * x ^ 3 + p 4 * x ^ 4

/-- A minor of two coefficient rows. -/
def minor (p q : Fin 5 → ℝ) (i j : Fin 5) : ℝ := p i * q j - p j * q i

/-- **The cross difference** of two quartics at two points. -/
theorem quartic_cross (p q : Fin 5 → ℝ) (x y : ℝ) :
    quartic p y * quartic q x - quartic p x * quartic q y = (y - x) *
      (minor p q 1 0 + minor p q 2 0 * (x + y) + minor p q 3 0 * (x ^ 2 + y ^ 2) +
        minor p q 4 0 * (x ^ 3 + x ^ 2 * y + x * y ^ 2 + y ^ 3) +
        x * y * (minor p q 2 1 + minor p q 3 1 * (x + y) + minor p q 4 1 * (x ^ 2 + x * y + y ^ 2)) +
        (x * y) ^ 2 * (minor p q 3 2 + minor p q 4 2 * (x + y)) +
        x * y * (minor p q 3 0 + minor p q 4 3 * (x * y) ^ 2)) := by
  unfold quartic minor
  ring

/-- Minors that are not negative, but for the last, which the one at `(3, 0)` outweighs on the unit
    interval. -/
structure Rising (p q : Fin 5 → ℝ) : Prop where
  first : 0 < minor p q 1 0
  column0 : 0 ≤ minor p q 2 0 ∧ 0 ≤ minor p q 3 0 ∧ 0 ≤ minor p q 4 0
  column1 : 0 ≤ minor p q 2 1 ∧ 0 ≤ minor p q 3 1 ∧ 0 ≤ minor p q 4 1
  column2 : 0 ≤ minor p q 3 2 ∧ 0 ≤ minor p q 4 2
  last : -minor p q 3 0 ≤ minor p q 4 3

theorem Rising.cross_lt {p q : Fin 5 → ℝ} (h : Rising p q) {x y : ℝ} (hx : 0 ≤ x) (hxy : x < y)
    (hy : y ≤ 1) : quartic p x * quartic q y < quartic p y * quartic q x := by
  obtain ⟨m20, m30, m40⟩ := h.column0
  obtain ⟨m21, m31, m41⟩ := h.column1
  obtain ⟨m32, m42⟩ := h.column2
  have hy0 : 0 ≤ y := hx.trans hxy.le
  have hprod : 0 ≤ x * y := mul_nonneg hx hy0
  have hprod1 : x * y ≤ 1 := mul_le_one₀ (hxy.le.trans hy) hy0 hy
  have hlast : 0 ≤ minor p q 3 0 + minor p q 4 3 * (x * y) ^ 2 := by
    have hsq : (x * y) ^ 2 ≤ 1 := pow_le_one₀ hprod hprod1
    have hsq0 : 0 ≤ (x * y) ^ 2 := sq_nonneg _
    nlinarith [h.last, mul_le_mul_of_nonneg_right h.last hsq0]
  have hfirst := h.first
  have hcross := quartic_cross p q x y
  have hstep : 0 < y - x := sub_pos.mpr hxy
  rw [← sub_pos, hcross]
  refine mul_pos hstep ?_
  positivity

/-! ## 3. The transfer function -/

/-- The coefficients, read as reals. -/
noncomputable def realP (i : Fin 5) : ℝ := srgbP i

noncomputable def realQ (i : Fin 5) : ℝ := srgbQ i

theorem srgbHorner_exact (x : ℝ) : srgbHorner x = (quartic realP x, quartic realQ x) := by
  have hr : (List.finRange 4).reverse = [3, 2, 1, 0] := by decide
  have h3 : Fin.castSucc (3 : Fin 4) = 3 := rfl
  have h2 : Fin.castSucc (2 : Fin 4) = 2 := rfl
  have h1 : Fin.castSucc (1 : Fin 4) = 1 := rfl
  have h0 : Fin.castSucc (0 : Fin 4) = 0 := rfl
  unfold srgbHorner quartic realP realQ
  rw [hr]
  simp only [List.foldl_cons, List.foldl_nil, exact_mulAdd, exact_lit32, h3, h2, h1, h0,
    Prod.mk.injEq]
  exact ⟨by ring, by ring⟩

theorem realP_values : realP 0 = 2.200248328e-04 ∧ realP 1 = 1.043637593e-02 ∧
    realP 2 = 1.624820318e-01 ∧ realP 3 = 7.961564959e-01 ∧ realP 4 = 8.210152774e-01 := by
  refine ⟨?_, ?_, ?_, ?_, ?_⟩
  · show ((2.200248328e-04 : ℚ) : ℝ) = _
    norm_num
  · show ((1.043637593e-02 : ℚ) : ℝ) = _
    norm_num
  · show ((1.624820318e-01 : ℚ) : ℝ) = _
    norm_num
  · show ((7.961564959e-01 : ℚ) : ℝ) = _
    norm_num
  · show ((8.210152774e-01 : ℚ) : ℝ) = _
    norm_num

theorem realQ_values : realQ 0 = 2.631846970e-01 ∧ realQ 1 = 1.076976492e+00 ∧
    realQ 2 = 4.987528350e-01 ∧ realQ 3 = -5.512498495e-02 ∧ realQ 4 = 6.521209011e-03 := by
  refine ⟨?_, ?_, ?_, ?_, ?_⟩
  · show ((2.631846970e-01 : ℚ) : ℝ) = _
    norm_num
  · show ((1.076976492e+00 : ℚ) : ℝ) = _
    norm_num
  · show ((4.987528350e-01 : ℚ) : ℝ) = _
    norm_num
  · show ((-5.512498495e-02 : ℚ) : ℝ) = _
    norm_num
  · show ((6.521209011e-03 : ℚ) : ℝ) = _
    norm_num

theorem srgb_rising : Rising realP realQ := by
  constructor <;> norm_num [minor, realP_values, realQ_values]

theorem srgbQ_pos {x : ℝ} (hx : 0 ≤ x) (hx1 : x ≤ 1) : 0 < quartic realQ x := by
  have hcube : x ^ 3 ≤ x := by
    calc x ^ 3 ≤ x ^ 1 := pow_le_pow_of_le_one hx hx1 (by decide)
      _ = x := pow_one x
  have h2 : 0 ≤ x ^ 2 := sq_nonneg x
  have h4 : 0 ≤ x ^ 4 := by positivity
  norm_num [quartic, realQ_values]
  linarith

/-- The linear segment. -/
theorem srgbToLinear_low {x : ℝ} (h : x ≤ 0.04045) : srgbToLinear x = x * (1 / 12.92) := by
  have hlt : F32.lt (F32.lit 0.04045 : ℝ) x = false := by
    rw [exact_lit32]
    exact decide_eq_false (by push_cast; linarith)
  unfold srgbToLinear
  rw [hlt, if_neg Bool.false_ne_true, exact_lit32, exact_ofNat32]
  norm_num

/-- The quotient. -/
theorem srgbToLinear_high {x : ℝ} (h : 0.04045 < x) :
    srgbToLinear x = quartic realP x / quartic realQ x := by
  have hlt : F32.lt (F32.lit 0.04045 : ℝ) x = true := by
    rw [exact_lit32]
    exact decide_eq_true (by push_cast; linarith)
  unfold srgbToLinear
  rw [hlt, if_pos rfl, srgbHorner_exact]

/-- The quotient grows on the unit interval. -/
theorem quotient_strictMono : StrictMonoOn (fun x => quartic realP x / quartic realQ x)
    (Set.Icc 0 1) := by
  rintro x ⟨hx, hx1⟩ y ⟨hy, hy1⟩ hxy
  dsimp only
  rw [div_lt_div_iff₀ (srgbQ_pos hx hx1) (srgbQ_pos hy hy1)]
  exact srgb_rising.cross_lt hx hxy hy1

/-- At the switch the quotient lies above the line. -/
theorem seam_lt : (0.04045 : ℝ) * (1 / 12.92) < quartic realP 0.04045 / quartic realQ 0.04045 := by
  rw [lt_div_iff₀ (srgbQ_pos (by norm_num) (by norm_num))]
  norm_num [quartic, realP_values, realQ_values]

/-- **Strictly increasing**, across the switch too. -/
theorem srgbToLinear_strictMono : StrictMonoOn (srgbToLinear : ℝ → ℝ) (Set.Icc 0 1) := by
  rintro x ⟨hx, hx1⟩ y ⟨hy, hy1⟩ hxy
  by_cases hylow : y ≤ 0.04045
  · rw [srgbToLinear_low hylow, srgbToLinear_low (hxy.le.trans hylow)]
    linarith
  · have hyhigh : 0.04045 < y := not_le.mp hylow
    by_cases hxlow : x ≤ 0.04045
    · have hline : x * (1 / 12.92) ≤ 0.04045 * (1 / 12.92 : ℝ) :=
        mul_le_mul_of_nonneg_right hxlow (by norm_num)
      have hquot := quotient_strictMono ⟨by norm_num, by norm_num⟩ ⟨hy, hy1⟩ hyhigh
      rw [srgbToLinear_low hxlow, srgbToLinear_high hyhigh]
      exact hline.trans_lt (seam_lt.trans hquot)
    · have hxhigh : 0.04045 < x := not_le.mp hxlow
      rw [srgbToLinear_high hxhigh, srgbToLinear_high hyhigh]
      exact quotient_strictMono ⟨hx, hx1⟩ ⟨hy, hy1⟩ hxy

theorem srgbToLinear_mapsTo :
    Set.MapsTo (srgbToLinear : ℝ → ℝ) (Set.Icc 0 1) (Set.Icc 0 1) := by
  have h0 : srgbToLinear (0 : ℝ) = 0 := by
    rw [srgbToLinear_low (by norm_num), zero_mul]
  have h1 : srgbToLinear (1 : ℝ) ≤ 1 := by
    rw [srgbToLinear_high (by norm_num), div_le_one (srgbQ_pos zero_le_one le_rfl)]
    norm_num [quartic, realP_values, realQ_values]
  have hmono := srgbToLinear_strictMono.monotoneOn
  rintro x ⟨hx, hx1⟩
  constructor
  · rw [← h0]
    exact hmono ⟨le_rfl, zero_le_one⟩ ⟨hx, hx1⟩ hx
  · exact (hmono ⟨hx, hx1⟩ ⟨zero_le_one, le_rfl⟩ hx1).trans h1

/-! ## 4. The blend -/

/-- A blend of two unit samples is a unit sample. -/
theorem blend_mem {a v bg : ℝ} (ha : a ∈ Set.Icc (0 : ℝ) 1) (hv : v ∈ Set.Icc (0 : ℝ) 1)
    (hb : bg ∈ Set.Icc (0 : ℝ) 1) : a * v + (ofNat 1 - a) * bg ∈ Set.Icc (0 : ℝ) 1 := by
  have h := convex_Icc (0 : ℝ) 1 hv hb ha.1 (sub_nonneg.mpr ha.2) (by ring)
  rw [exact_ofNat32, Nat.cast_one]
  exact h

/-- A loop of stores keeps the length. -/
theorem foldlM_length {α F : Type} {f : List F → α → Option (List F)}
    (hf : ∀ xs a ys, f xs a = some ys → ys.length = xs.length) {as : List α} {xs ys : List F}
    (h : as.foldlM f xs = some ys) : ys.length = xs.length := by
  induction as generalizing xs with
  | nil =>
    cases h
    rfl
  | cons a as ih =>
    rw [List.foldlM_cons] at h
    obtain ⟨zs, hz, h⟩ := Option.bind_eq_some_iff.mp h
    rw [ih h, hf xs a zs hz]

/-- Blending keeps the size of an image. -/
theorem alphaBlend_length {F : Type} [F32 F] {srgb alpha out : List F} {bg : F} {n : Nat}
    (h : alphaBlend srgb alpha bg n = some out) : out.length = srgb.length := by
  refine foldlM_length (fun xs ai ys hys => foldlM_length (fun zs c us hus => ?_) hys) h
  obtain ⟨v, -, hw⟩ := Option.bind_eq_some_iff.mp hus
  unfold writeAt at hw
  split_ifs at hw
  cases hw
  exact List.length_set

/-- **The blend stays in the image** and keeps the unit interval. -/
theorem alphaBlend_unit {srgb alpha : List ℝ} {bg : ℝ} {n : Nat} (hs : srgb.length = 3 * n)
    (hl : alpha.length ≤ n) (hsrgb : ∀ v ∈ srgb, v ∈ Set.Icc (0 : ℝ) 1)
    (halpha : ∀ v ∈ alpha, v ∈ Set.Icc (0 : ℝ) 1) (hb : bg ∈ Set.Icc (0 : ℝ) 1) :
    ∃ out, alphaBlend srgb alpha bg n = some out ∧ out.length = 3 * n ∧
      ∀ v ∈ out, v ∈ Set.Icc (0 : ℝ) 1 := by
  unfold alphaBlend
  refine foldlM_isSome (P := fun out => out.length = 3 * n ∧ ∀ v ∈ out, v ∈ Set.Icc (0 : ℝ) 1)
    _ _ ?_ srgb ⟨hs, hsrgb⟩
  rintro out ⟨a, i⟩ hai hout
  have ha : alpha[i]? = some a := List.mem_zipIdx_iff_getElem?.mp hai
  have hi : i < n := (List.getElem?_eq_some_iff.mp ha).1.trans_le hl
  refine foldlM_isSome _ _ ?_ out hout
  rintro out c hc ⟨hlen, hunit⟩
  have hc3 : c < 3 := List.mem_range.mp hc
  have hp : c * n + i < out.length := by
    rw [hlen]
    have := Nat.mul_le_mul_right n (show c + 1 ≤ 3 from hc3)
    rw [Nat.succ_mul] at this
    omega
  have hv := hunit _ (List.getElem_mem hp)
  have hnew := blend_mem (halpha a (List.mem_of_getElem? ha)) hv hb
  refine ⟨out.set (c * n + i) (a * out[c * n + i] + (ofNat 1 - a) * bg), ?_, ?_⟩
  · dsimp only
    rw [List.getElem?_eq_getElem hp, Option.bind_eq_bind, Option.bind_some,
      writeAt_some _ (Int.natCast_nonneg _) (by exact_mod_cast hp), Int.toNat_natCast]
  · refine ⟨by rw [List.length_set, hlen], fun u hu => ?_⟩
    rcases List.mem_or_eq_of_mem_set hu with hu | rfl
    · exact hunit u hu
    · exact hnew

/-- **Linearisation is monotone and keeps the unit range**: strictly increasing on `[0, 1]` with a
    positive denominator, into `[0, 1]`; so blended images linearise to samples in `[0, 1]`. -/
theorem linearisation_unit {srgb alpha : List ℝ} {bg : ℝ} {n : Nat} (hs : srgb.length = 3 * n)
    (hl : alpha.length = n) (hsrgb : ∀ v ∈ srgb, v ∈ Set.Icc (0 : ℝ) 1)
    (halpha : ∀ v ∈ alpha, v ∈ Set.Icc (0 : ℝ) 1) (hb : bg ∈ Set.Icc (0 : ℝ) 1) :
    StrictMonoOn (srgbToLinear : ℝ → ℝ) (Set.Icc 0 1) ∧
    (∀ x ∈ Set.Icc (0 : ℝ) 1, 0 < (srgbHorner x).2) ∧
    Set.MapsTo (srgbToLinear : ℝ → ℝ) (Set.Icc 0 1) (Set.Icc 0 1) ∧
    ∃ out, alphaBlend srgb alpha bg n = some out ∧ out.length = 3 * n ∧
      ∀ v ∈ toLinear out, v ∈ Set.Icc (0 : ℝ) 1 := by
  refine ⟨srgbToLinear_strictMono, fun x hx => ?_, srgbToLinear_mapsTo, ?_⟩
  · rw [srgbHorner_exact]
    exact srgbQ_pos hx.1 hx.2
  · obtain ⟨out, e, hlen, hout⟩ := alphaBlend_unit hs hl.le hsrgb halpha hb
    refine ⟨out, e, hlen, fun v hv => ?_⟩
    obtain ⟨u, hu, rfl⟩ := List.mem_map.mp hv
    exact srgbToLinear_mapsTo (hout u hu)

/-- Four pixels of a ramp, from transparent to opaque, over grey. -/
theorem linearisation_unit_ramp :
    let srgb : List ℝ := (List.range 12).map fun i : Nat => (i : ℝ) / 11
    let alpha : List ℝ := (List.range 4).map fun i : Nat => (i : ℝ) / 3
    ∃ out, alphaBlend srgb alpha (1 / 10) 4 = some out ∧ out.length = 12 ∧
      ∀ v ∈ toLinear out, v ∈ Set.Icc (0 : ℝ) 1 := by
  intro srgb alpha
  have hramp (n : Nat) {d : ℝ} (hd : d = n) :
      ∀ v ∈ (List.range (n + 1)).map fun i : Nat => (i : ℝ) / d, v ∈ Set.Icc (0 : ℝ) 1 := by
    subst hd
    intro v hv
    obtain ⟨i, hi, rfl⟩ := List.mem_map.mp hv
    have hle : (i : ℝ) ≤ n := Nat.cast_le.mpr (Nat.lt_succ_iff.mp (List.mem_range.mp hi))
    exact ⟨by positivity, div_le_one_of_le₀ hle n.cast_nonneg⟩
  refine (linearisation_unit (n := 4) ?_ ?_ (hramp 11 (by norm_num)) (hramp 3 (by norm_num))
    ?_).2.2.2
  · rw [List.length_map, List.length_range]
  · rw [List.length_map, List.length_range]
  · norm_num

end Ssimulacra2
