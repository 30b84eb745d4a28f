/-
  File:      Ssimulacra2/Bytes.lean
  Subject:   Samples on the grid of the bytes, in `f32`.

  A decoded sample is the rounded product `k * (1 / 255)`. `Binary32` is what is used of IEEE 754:
  one rounding is off by at most one part in `2 ^ 24`. Three roundings are too small to move the
  nearest integer, so the byte comes back (`round_byteValue`), the table answers the value of the
  function (`lutEntry_byteValue`), and only the byte 255 is an alpha of one.
-/
import Ssimulacra2.Vulkan.Pair

namespace Ssimulacra2

open Lists

variable {F : Type} [F32 F]

/-! ## 1. Binary32 -/

/-- The relative error of one rounding. -/
noncomputable def unitRoundoff : ℝ := 1 / 2 ^ 24

/-- A number whose rounding is neither too small nor too large for a normal float. -/
def InRange (t : ℝ) : Prop := 1 / 2 ^ 126 ≤ |t| ∧ |t| ≤ 2 ^ 127

/-- **What is used of IEEE 754**: `value` is the number that a finite float stands for, and an
    operation on finite floats answers a number close to the exact result. -/
structure Binary32 (F : Type) [F32 F] where
  finite : F → Prop
  value : F → ℝ
  ofNat_zero : (ofNat 0 : F) = 0
  ofNat_finite : ∀ n < 2 ^ 24, finite (ofNat n)
  ofNat_value : ∀ n < 2 ^ 24, value (ofNat n) = n
  lit_finite : ∀ q : ℚ, 1 / 2 ^ 126 ≤ q → q ≤ 1 → finite (F32.lit q) ∧ 0 < value (F32.lit q)
  mul : ∀ a b, finite a → finite b → InRange (value a * value b) →
    finite (a * b) ∧ |value (a * b) - value a * value b| ≤ unitRoundoff * |value a * value b|
  div : ∀ a b, finite a → finite b → InRange (value a / value b) →
    finite (a / b) ∧ |value (a / b) - value a / value b| ≤ unitRoundoff * |value a / value b|
  lt : ∀ a b, finite a → finite b → (F32.lt a b = true ↔ value a < value b)
  round : ∀ x, finite x → 0 ≤ value x → value x < 2 ^ 22 →
    finite (F32.round x) ∧ value (F32.round x) = ⌊value x + 1 / 2⌋₊
  toUsize : ∀ x, finite x → 0 ≤ value x → value x < 2 ^ 63 → F32.toUsize x = ⌊value x⌋₊
  one_sub_one : (ofNat 1 : F) - ofNat 1 = 0
  one_mul : ∀ x : F, finite x → ofNat 1 * x = x
  zero_mul : ∀ b : F, finite b → 0 < value b → 0 * b = 0
  add_zero : ∀ x : F, x = 0 ∨ finite x ∧ 0 < value x → x + 0 = x

/-! ## 2. The grid -/

/-- The table on a list of bytes, when it answers the value of the function on each. -/
theorem toLinear8bit_of_table
    (h : ∀ b : UInt8, lutEntry linearizeLut (byteValue b.toNat : F) =
      some (srgbToLinear (byteValue b.toNat))) (bs : List UInt8) :
    toLinear8bit (bs.map fun b => (byteValue b.toNat : F)) linearizeLut =
      some (toLinear (bs.map fun b => (byteValue b.toNat : F))) := by
  unfold toLinear8bit toLinear
  induction bs with
  | nil => rfl
  | cons b bs ih =>
    rw [List.map_cons, List.mapM_cons, h b, ih]
    rfl

namespace Binary32

variable (B : Binary32 F) {k : Nat}

theorem zero_finite : B.finite 0 := by
  rw [← B.ofNat_zero]
  exact B.ofNat_finite 0 (by decide)

theorem zero_value : B.value 0 = 0 := by
  rw [← B.ofNat_zero, B.ofNat_value 0 (by decide), Nat.cast_zero]

theorem inRange_of_le {t : ℝ} (h : 1 / 2 ^ 20 ≤ t) (h' : t ≤ 2 ^ 20) : InRange t := by
  have ht : 0 ≤ t := le_trans (by positivity) h
  unfold InRange
  rw [abs_of_nonneg ht]
  exact ⟨le_trans (by norm_num) h, le_trans h' (by norm_num)⟩

/-- The factor `1.0f32 / 255.0f32`. -/
theorem factor_close : B.finite (ofNat 1 / ofNat 255 : F) ∧
    |B.value (ofNat 1 / ofNat 255) - 1 / 255| ≤ unitRoundoff * (1 / 255) := by
  have h1 := B.ofNat_value 1 (by decide)
  have h255 := B.ofNat_value 255 (by decide)
  rw [Nat.cast_one] at h1
  rw [Nat.cast_ofNat] at h255
  have h := B.div (ofNat 1) (ofNat 255) (B.ofNat_finite 1 (by decide)) (B.ofNat_finite 255 (by decide))
  rw [h1, h255] at h
  have hr := h (inRange_of_le (by norm_num) (by norm_num))
  rw [abs_of_pos (show (0 : ℝ) < 1 / 255 by norm_num)] at hr
  exact hr

theorem factor_pos : 0 < B.value (ofNat 1 / ofNat 255 : F) := by
  have h := (abs_le.mp B.factor_close.2).1
  unfold unitRoundoff at h
  linarith

include B in
/-- The byte 0. -/
theorem byteValue_zero : (byteValue 0 : F) = 0 := by
  unfold byteValue
  rw [B.ofNat_zero]
  exact B.zero_mul _ B.factor_close.1 B.factor_pos

/-- **A sample on the grid**: two roundings from `k / 255`. -/
theorem byteValue_close (h1 : 1 ≤ k) (hk : k < 256) : B.finite (byteValue k) ∧
    |B.value (byteValue k) - k / 255| ≤ 3 * unitRoundoff * (k / 255) := by
  have hk1 : (1 : ℝ) ≤ k := by exact_mod_cast h1
  have hk' : (k : ℝ) ≤ 255 := by exact_mod_cast Nat.le_of_lt_succ hk
  obtain ⟨hr, hrv⟩ := B.factor_close
  have hkv := B.ofNat_value k (by omega)
  unfold byteValue
  generalize (ofNat 1 / ofNat 255 : F) = r at hr hrv
  have hrv := abs_le.mp hrv
  unfold unitRoundoff at hrv ⊢
  have hprod : |(k : ℝ) * B.value r - k / 255| ≤ 1 / 2 ^ 24 * (k / 255) := by
    rw [abs_le]
    constructor <;> nlinarith
  have hprod' := abs_le.mp hprod
  have hpos : 0 < (k : ℝ) * B.value r := by
    have : 0 < B.value r := by linarith
    positivity
  have hm := B.mul (ofNat k) r (B.ofNat_finite k (by omega)) hr
  rw [hkv] at hm
  obtain ⟨hf, hv⟩ := hm (inRange_of_le (by linarith) (by linarith))
  refine ⟨hf, ?_⟩
  rw [abs_of_pos hpos] at hv
  unfold unitRoundoff at hv
  have hv := abs_le.mp hv
  rw [abs_le]
  constructor <;> linarith

theorem byteValue_pos (h1 : 1 ≤ k) (hk : k < 256) : 0 < B.value (byteValue k) := by
  have hk1 : (1 : ℝ) ≤ k := by exact_mod_cast h1
  have h := (abs_le.mp (B.byteValue_close h1 hk).2).1
  unfold unitRoundoff at h
  linarith

/-- A sample on the grid is `+0` or positive. -/
theorem byteValue_nonneg (hk : k < 256) :
    (byteValue k : F) = 0 ∨ B.finite (byteValue k) ∧ 0 < B.value (byteValue k) := by
  rcases Nat.eq_zero_or_pos k with rfl | h1
  · exact Or.inl B.byteValue_zero
  · exact Or.inr ⟨(B.byteValue_close h1 hk).1, B.byteValue_pos h1 hk⟩

theorem byteValue_finite (hk : k < 256) : B.finite (byteValue k) := by
  rcases B.byteValue_nonneg hk with h | h
  · rw [h]
    exact B.zero_finite
  · exact h.1

/-- The sample times 255 is less than one half away from the byte. -/
theorem scaled_close (hk : k < 256) : B.finite (byteValue k * ofNat 255) ∧
    0 ≤ B.value (byteValue k * ofNat 255) ∧ |B.value (byteValue k * ofNat 255) - k| < 1 / 2 := by
  have h255 := B.ofNat_value 255 (by decide)
  have h255f := B.ofNat_finite 255 (by decide)
  rw [Nat.cast_ofNat] at h255
  rcases Nat.eq_zero_or_pos k with rfl | h1
  · rw [B.byteValue_zero, B.zero_mul _ h255f (by rw [h255]; norm_num), B.zero_value]
    exact ⟨B.zero_finite, le_rfl, by norm_num⟩
  · have hk1 : (1 : ℝ) ≤ k := by exact_mod_cast h1
    have hk' : (k : ℝ) ≤ 255 := by exact_mod_cast Nat.le_of_lt_succ hk
    obtain ⟨hf, hv⟩ := B.byteValue_close h1 hk
    have hv := abs_le.mp hv
    unfold unitRoundoff at hv
    have hpos := B.byteValue_pos h1 hk
    have hm := B.mul (byteValue k) (ofNat 255) hf h255f
    rw [h255] at hm
    obtain ⟨hpf, hpv⟩ := hm (inRange_of_le (by linarith) (by linarith))
    rw [abs_of_pos (show 0 < B.value (byteValue k) * 255 by positivity)] at hpv
    unfold unitRoundoff at hpv
    have hpv := abs_le.mp hpv
    refine ⟨hpf, by linarith, ?_⟩
    rw [abs_lt]
    constructor <;> linarith

/-- **The byte comes back** from the rounded product. -/
theorem round_byteValue (hk : k < 256) : B.finite (F32.round (byteValue k * ofNat 255 : F)) ∧
    B.value (F32.round (byteValue k * ofNat 255 : F)) = k := by
  have hk' : (k : ℝ) ≤ 255 := by exact_mod_cast Nat.le_of_lt_succ hk
  obtain ⟨hf, h0, hv⟩ := B.scaled_close hk
  have hv := abs_lt.mp hv
  obtain ⟨hr, hrv⟩ := B.round _ hf h0 (by linarith)
  refine ⟨hr, ?_⟩
  rw [hrv]
  have hfloor : ⌊B.value (byteValue k * ofNat 255) + 1 / 2⌋₊ = k := by
    rw [Nat.floor_eq_iff (by linarith)]
    constructor <;> linarith
  rw [hfloor]

include B in
/-- The index of a sample. -/
theorem toUsize_byteValue (hk : k < 256) :
    F32.toUsize (F32.round (byteValue k * ofNat 255 : F)) = k := by
  have hk' : (k : ℝ) ≤ 255 := by exact_mod_cast Nat.le_of_lt_succ hk
  obtain ⟨hr, hrv⟩ := B.round_byteValue hk
  rw [B.toUsize _ hr (by rw [hrv]; positivity) (by rw [hrv]; linarith), hrv, Nat.floor_natCast]

include B in
/-- The clamp of the index does nothing. -/
theorem clamp_byteValue (hk : k < 256) :
    clampF32 (F32.round (byteValue k * ofNat 255 : F)) 0 (ofNat 255) =
      F32.round (byteValue k * ofNat 255) := by
  have hk' : (k : ℝ) ≤ 255 := by exact_mod_cast Nat.le_of_lt_succ hk
  obtain ⟨hr, hrv⟩ := B.round_byteValue hk
  have h255 := B.ofNat_value 255 (by decide)
  have hlow : ¬F32.lt (F32.round (byteValue k * ofNat 255 : F)) 0 = true := by
    rw [B.lt _ _ hr B.zero_finite, hrv, B.zero_value, not_lt]
    positivity
  have hhigh : ¬F32.lt (ofNat 255) (F32.round (byteValue k * ofNat 255 : F)) = true := by
    rw [B.lt _ _ (B.ofNat_finite 255 (by decide)) hr, hrv, h255, not_lt, Nat.cast_ofNat]
    exact hk'
  unfold clampF32
  rw [if_neg hlow, if_neg hhigh]

include B in
/-- **The table answers the value of the function** on a sample of the grid. -/
theorem lutEntry_byteValue (hk : k < 256) :
    lutEntry linearizeLut (byteValue k : F) = some (srgbToLinear (byteValue k)) := by
  unfold lutEntry
  dsimp only
  rw [B.clamp_byteValue hk, B.toUsize_byteValue hk]
  unfold linearizeLut
  rw [List.getElem?_map, List.getElem?_range hk, Option.map_some]

include B in
/-- Only the byte 255 is an alpha of one. -/
theorem eq_255_of_byteValue_eq_one (hk : k < 256) (h : (byteValue k : F) = ofNat 1) : k = 255 := by
  have h1 := B.ofNat_value 1 (by decide)
  rw [Nat.cast_one] at h1
  rcases Nat.eq_zero_or_pos k with rfl | hpos
  · rw [B.byteValue_zero] at h
    rw [← h, B.zero_value] at h1
    norm_num at h1
  · have hv := (abs_le.mp (B.byteValue_close hpos hk).2).2
    rw [h, h1] at hv
    unfold unitRoundoff at hv
    by_contra hne
    have hk' : (k : ℝ) ≤ 254 := by exact_mod_cast (show k ≤ 254 by omega)
    linarith

/-! ## 3. Lists of samples -/

include B in
/-- A list of bytes as samples. -/
theorem toLinear8bit_bytes (bs : List UInt8) :
    toLinear8bit (bs.map fun b => (byteValue b.toNat : F)) linearizeLut =
      some (toLinear (bs.map fun b => (byteValue b.toNat : F))) :=
  toLinear8bit_of_table (fun b => B.lutEntry_byteValue b.toNat_lt) bs

/-- **An opaque pixel is what it was**, over any background. -/
theorem blend_opaque {bg : F} (hbg : B.finite bg ∧ 0 < B.value bg) (hk : k < 256) :
    ofNat 1 * byteValue k + (ofNat 1 - ofNat 1) * bg = (byteValue k : F) := by
  rw [B.one_mul _ (B.byteValue_finite hk), B.one_sub_one, B.zero_mul bg hbg.1 hbg.2,
    B.add_zero _ (B.byteValue_nonneg hk)]

/-- **An opaque image is what it was**: the loop writes back every sample it reads. -/
theorem alphaBlend_opaque {bg : F} (hbg : B.finite bg ∧ 0 < B.value bg) {bs : List UInt8}
    {alpha : List F} {n : Nat} (hs : bs.length = 3 * n) (hl : alpha.length ≤ n)
    (hone : ∀ a ∈ alpha, a = ofNat 1) :
    alphaBlend (bs.map fun b => (byteValue b.toNat : F)) alpha bg n =
      some (bs.map fun b => (byteValue b.toNat : F)) := by
  unfold alphaBlend
  refine foldlM_still _ fun ai hai => foldlM_still _ fun c hc => ?_
  obtain ⟨hi, ha⟩ := List.mem_zipIdx' hai
  have hc3 := List.mem_range.mp hc
  have hp : c * n + ai.2 < bs.length := by
    rw [hs]
    have : c * n ≤ 2 * n := Nat.mul_le_mul_right n (by omega)
    omega
  have hread : (bs.map fun b => (byteValue b.toNat : F))[c * n + ai.2]? =
      some (byteValue (bs[c * n + ai.2]).toNat) := by
    rw [List.getElem?_map, List.getElem?_eq_getElem hp, Option.map_some]
  have h1 : ai.1 = ofNat 1 := hone _ (by rw [ha]; exact List.getElem_mem _)
  dsimp only
  rw [hread, Option.bind_eq_bind, Option.bind_some, h1, B.blend_opaque hbg (UInt8.toNat_lt _),
    writeAt_some _ (Int.natCast_nonneg _) (by rw [List.length_map]; exact_mod_cast hp),
    Int.toNat_natCast]
  refine congrArg some (List.ext_getElem? fun j => ?_)
  rw [List.getElem?_set]
  split_ifs with hj hlt
  · rw [← hj, hread]
  · rw [List.length_map] at hlt
    exact absurd hp hlt
  · rfl

end Binary32

/-! ## 4. Exact arithmetic -/

/-- Without rounding every law holds. -/
noncomputable def exactBinary32 : Binary32 ℝ where
  finite _ := True
  value x := x
  ofNat_zero := by rw [exact_ofNat32, Nat.cast_zero]
  ofNat_finite _ _ := trivial
  ofNat_value _ _ := rfl
  lit_finite q h _ := by
    have hq : (0 : ℚ) < q := lt_of_lt_of_le (by positivity) h
    exact ⟨trivial, by rw [exact_lit32]; exact_mod_cast hq⟩
  mul a b _ _ _ := by
    rw [sub_self, abs_zero]
    exact ⟨trivial, mul_nonneg (by unfold unitRoundoff; positivity) (abs_nonneg _)⟩
  div a b _ _ _ := by
    rw [sub_self, abs_zero]
    exact ⟨trivial, mul_nonneg (by unfold unitRoundoff; positivity) (abs_nonneg _)⟩
  lt _ _ _ _ := decide_eq_true_iff
  round x _ h0 _ := by
    refine ⟨trivial, ?_⟩
    show roundHalfAway x = _
    unfold roundHalfAway
    rw [if_pos h0, natCast_floor_eq_intCast_floor (by linarith)]
  toUsize _ _ _ _ := rfl
  one_sub_one := sub_self _
  one_mul x _ := by
    rw [exact_ofNat32, Nat.cast_one]
    exact one_mul x
  zero_mul b _ _ := zero_mul b
  add_zero x _ := add_zero x

end Ssimulacra2
