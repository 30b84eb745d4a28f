/-
  File:      Ssimulacra2/Cbrt.lean
  Subject:   The accuracy of the cube-root helper (`cbrt_and_add`).

  The seed is integer arithmetic on the bit pattern of the argument; the rounds after it are read
  over exact arithmetic, with the two constants as the `f32` numbers they are. Multiplied by the
  cube root every round is a polynomial in one variable near 1 (`round_eq`), and the seed starts it
  in `[0.7937, 1.06]` whatever the exponent (`seed_start`).

  * `newton_gap` -- how far from 1 a round lands;
  * `cbrtSeed_toNat`, `seed_start` -- the seed, by the residue of the exponent modulo 3;
  * `cbrtAndAdd_accuracy` -- the result.
-/
import Ssimulacra2.Primitives

namespace Ssimulacra2

/-! ## 1. The helper -/

/-- The seed: `0x5480_0000 - (m1 >> 23) * 0x002A_AAAA`, wrapping, the shift arithmetic. -/
def cbrtSeed (m1 : BitVec 32) : BitVec 32 := 0x54800000#32 - m1.sshiftRight 23 * 0x2AAAAA#32

section Helper

variable {F : Type} [F32 F]

/-- A round of the loop. -/
def cbrtRound (k43 xa3 r : F) : F :=
  let r2 := r * r
  let r4 := r2 * r2
  mulAdd (-xa3) r4 (k43 * r)

/-- `cbrt_and_add`, on the bit pattern of its argument. `value` is `f32::from_bits`; `k13`, `k43` are
    the constants `1.0 / 3.0` and `4.0 / 3.0`. -/
def cbrtAndAdd (value : BitVec 32 → F) (k13 k43 : F) (x : BitVec 32) (add : F) : F :=
  let m1 := x
  let r := if m1 = 0 then 0 else value (cbrtSeed m1)
  let x := value x
  let xa3 := k13 * x
  let r := (List.range 3).foldl (fun r _ => cbrtRound k43 xa3 r) r
  let r2 := r * r
  let r4 := r2 * r2
  let r := mulAdd k13 (mulAdd (-x) r4 r) r
  let r2 := r * r
  mulAdd r2 x add

end Helper

/-! ## 2. Bit patterns -/

/-- The number a finite bit pattern stands for. -/
noncomputable def f32Value (b : BitVec 32) : ℝ :=
  let e : Nat := b.toNat / 2 ^ 23 % 2 ^ 8
  let m : Nat := b.toNat % 2 ^ 23
  let a : ℝ := if e = 0 then m * 2 ^ (-149 : ℤ) else (2 ^ 23 + m) * 2 ^ ((e : ℤ) - 150)
  if b.msb then -a else a

/-- The bit patterns of the positive normal numbers. -/
structure PosNormal (b : BitVec 32) : Prop where
  lower : 2 ^ 23 ≤ b.toNat
  upper : b.toNat < 255 * 2 ^ 23

theorem PosNormal.msb_eq {b : BitVec 32} (h : PosNormal b) : b.msb = false := by
  have hu := h.upper
  rw [BitVec.msb_eq_decide]
  exact decide_eq_false (by omega)

/-- A positive normal number, from its exponent and its mantissa. -/
theorem PosNormal.value {b : BitVec 32} (h : PosNormal b) {e m : Nat}
    (hb : b.toNat = e * 2 ^ 23 + m) (hm : m < 2 ^ 23) :
    f32Value b = (2 ^ 23 + m) * 2 ^ ((e : ℤ) - 150) := by
  have hl := h.lower
  have hu := h.upper
  have he : b.toNat / 2 ^ 23 % 2 ^ 8 = e := by omega
  have hmod : b.toNat % 2 ^ 23 = m := by omega
  unfold f32Value
  rw [he, hmod, h.msb_eq]
  dsimp only
  rw [if_neg Bool.false_ne_true, if_neg (by omega)]

theorem PosNormal.value_pos {b : BitVec 32} (h : PosNormal b) : 0 < f32Value b := by
  rw [h.value (Nat.div_add_mod' _ _).symm (Nat.mod_lt _ (by decide))]
  positivity

/-- `1.0 / 3.0` and `4.0 / 3.0` as `f32`. -/
noncomputable def k13 : ℝ := f32Value 0x3EAAAAAB#32

noncomputable def k43 : ℝ := f32Value 0x3FAAAAAB#32

theorem k13_eq : k13 = 11184811 / 2 ^ 25 := by
  have h : PosNormal 0x3EAAAAAB#32 := ⟨by decide, by decide⟩
  unfold k13
  rw [h.value (e := 125) (m := 2796203) (by decide) (by decide)]
  norm_num

theorem k43_eq : k43 = 11184811 / 2 ^ 23 := by
  have h : PosNormal 0x3FAAAAAB#32 := ⟨by decide, by decide⟩
  unfold k43
  rw [h.value (e := 127) (m := 2796203) (by decide) (by decide)]
  norm_num

/-! ## 3. The seed -/

/-- The seed as a number: the exponent, divided by three, taken off. -/
theorem cbrtSeed_toNat {x : BitVec 32} (hx : PosNormal x) :
    (cbrtSeed x).toNat = 169 * 2 ^ 23 - x.toNat / 2 ^ 23 * 2796202 := by
  have hl := hx.lower
  have hu := hx.upper
  have hshift : (x.sshiftRight 23).toNat = x.toNat / 2 ^ 23 := by
    rw [BitVec.sshiftRight_eq_of_msb_false hx.msb_eq, BitVec.toNat_ushiftRight,
      Nat.shiftRight_eq_div_pow]
  have hmul : (x.sshiftRight 23 * 0x2AAAAA#32).toNat = x.toNat / 2 ^ 23 * 2796202 := by
    rw [BitVec.toNat_mul, hshift]
    exact Nat.mod_eq_of_lt (by show x.toNat / 2 ^ 23 * 2796202 < 2 ^ 32; omega)
  unfold cbrtSeed
  rw [BitVec.toNat_sub, hmul]
  show (2 ^ 32 - x.toNat / 2 ^ 23 * 2796202 + 1417674752) % 2 ^ 32 = _
  omega

/-- **The seed is a positive normal number.** -/
theorem cbrtSeed_normal {x : BitVec 32} (hx : PosNormal x) : PosNormal (cbrtSeed x) := by
  have h := cbrtSeed_toNat hx
  have hu := hx.upper
  constructor
  · rw [h]
    omega
  · rw [h]
    omega

/-- The cube of a number `s` times a number `x`, by the bounds of the mantissa of `s`. -/
theorem cube_bounds {k m i j c : Nat} {a b : ℤ} (hab : 3 * a + b = -(c : ℤ)) (hm : m < 2 ^ 23)
    (hlo : i ≤ k) (hhi : k ≤ j) :
    let v : ℝ := ((2 ^ 23 + k) * 2 ^ a) ^ 3 * ((2 ^ 23 + m) * 2 ^ b)
    (2 ^ 23 + (i : ℝ)) ^ 3 * 2 ^ 23 / 2 ^ c ≤ v ∧ v ≤ (2 ^ 23 + (j : ℝ)) ^ 3 * 2 ^ 24 / 2 ^ c := by
  intro v
  have hpow : ((2 : ℝ) ^ a) ^ 3 * 2 ^ b = 1 / 2 ^ c := by
    rw [← zpow_natCast, ← zpow_mul, ← zpow_add₀ (by norm_num), Nat.cast_ofNat, mul_comm a 3, hab,
      zpow_neg, zpow_natCast, one_div]
  have hv : v = (2 ^ 23 + (k : ℝ)) ^ 3 * (2 ^ 23 + m) / 2 ^ c := by
    calc v = (2 ^ 23 + (k : ℝ)) ^ 3 * (2 ^ 23 + m) * (((2 : ℝ) ^ a) ^ 3 * 2 ^ b) := by
          simp only [v]
          ring
      _ = _ := by rw [hpow, mul_one_div]
  have hklo : (i : ℝ) ≤ k := by exact_mod_cast hlo
  have hkhi : (k : ℝ) ≤ j := by exact_mod_cast hhi
  have hm0 : (0 : ℝ) ≤ m := Nat.cast_nonneg m
  have hm1 : (m : ℝ) ≤ 2 ^ 23 := by exact_mod_cast hm.le
  rw [hv]
  constructor
  · gcongr
    linarith
  · gcongr
    linarith

/-- **Where the rounds start**: the cube of the seed times the argument. -/
theorem seed_start {x : BitVec 32} (hx : PosNormal x) :
    1 / 2 ≤ f32Value (cbrtSeed x) ^ 3 * f32Value x ∧
      f32Value (cbrtSeed x) ^ 3 * f32Value x ≤ 1.19 := by
  have hl := hx.lower
  have hu := hx.upper
  have hseed := cbrtSeed_toNat hx
  obtain ⟨m, hm⟩ : ∃ m, m = x.toNat % 2 ^ 23 := ⟨_, rfl⟩
  obtain ⟨q, hq⟩ : ∃ q, q = x.toNat / 2 ^ 23 / 3 := ⟨_, rfl⟩
  have hm23 : m < 2 ^ 23 := by omega
  have hq84 : q ≤ 84 := by omega
  -- three exponents take off `2 ^ 23 - 2`: a mantissa that depends on the residue, and a drift
  have hres : x.toNat / 2 ^ 23 % 3 = 0 ∨ x.toNat / 2 ^ 23 % 3 = 1 ∨ x.toNat / 2 ^ 23 % 3 = 2 := by
    omega
  rcases hres with h0 | h1 | h2
  · have hs := (cbrtSeed_normal hx).value (e := 169 - q) (m := 2 * q) (by omega) (by omega)
    have hv := hx.value (e := 3 * q) (m := m) (by omega) hm23
    have hb := cube_bounds (k := 2 * q) (m := m) (i := 0) (j := 168) (c := 93)
      (a := ((169 - q : Nat) : ℤ) - 150) (b := ((3 * q : Nat) : ℤ) - 150) (by omega) hm23
      (by omega) (by omega)
    rw [hs, hv]
    exact ⟨le_trans (by norm_num) hb.1, hb.2.trans (by norm_num)⟩
  · have hs := (cbrtSeed_normal hx).value (e := 168 - q) (m := 5592406 + 2 * q) (by omega) (by omega)
    have hv := hx.value (e := 3 * q + 1) (m := m) (by omega) hm23
    have hb := cube_bounds (k := 5592406 + 2 * q) (m := m) (i := 5592406) (j := 5592574) (c := 95)
      (a := ((168 - q : Nat) : ℤ) - 150) (b := ((3 * q + 1 : Nat) : ℤ) - 150) (by omega) hm23
      (by omega) (by omega)
    rw [hs, hv]
    exact ⟨le_trans (by norm_num) hb.1, hb.2.trans (by norm_num)⟩
  · have hs := (cbrtSeed_normal hx).value (e := 168 - q) (m := 2796204 + 2 * q) (by omega) (by omega)
    have hv := hx.value (e := 3 * q + 2) (m := m) (by omega) hm23
    have hb := cube_bounds (k := 2796204 + 2 * q) (m := m) (i := 2796204) (j := 2796372) (c := 94)
      (a := ((168 - q : Nat) : ℤ) - 150) (b := ((3 * q + 2 : Nat) : ℤ) - 150) (by omega) hm23
      (by omega) (by omega)
    rw [hs, hv]
    exact ⟨le_trans (by norm_num) hb.1, hb.2.trans (by norm_num)⟩

/-! ## 4. The rounds -/

/-- The round in the variable `u = r * cbrt x`. -/
noncomputable def newton (u : ℝ) : ℝ := k43 * u - k13 * u ^ 4

theorem round_eq (c r : ℝ) : cbrtRound k43 (k13 * c ^ 3) r * c = newton (r * c) := by
  unfold cbrtRound newton
  rw [exact_mulAdd]
  ring

/-- **How far from 1 a round lands**: the square of how far it starts. -/
theorem newton_gap (u : ℝ) :
    newton u = (1 + 1 / 2 ^ 25) * (1 - (1 - u) ^ 2 * (3 + 2 * u + u ^ 2) / 3) := by
  unfold newton
  rw [k13_eq, k43_eq]
  ring

theorem newton_le (u : ℝ) (hu : 0 ≤ u) : newton u ≤ 1 + 1 / 2 ^ 25 := by
  have h : 0 ≤ (1 - u) ^ 2 * (3 + 2 * u + u ^ 2) / 3 := by positivity
  rw [newton_gap]
  linarith

/-- The first round, from anywhere the seed may start. -/
theorem newton_first {u : ℝ} (h : 0.7937 ≤ u) (h' : u ≤ 1.06) : 1 - 0.07402 ≤ newton u := by
  have hgap : (1 - u) ^ 2 * (3 + 2 * u + u ^ 2) / 3 ≤ 0.07402 := by
    by_cases h1 : u ≤ 1
    · have hfall : (1 - u) * (3 + 2 * u + u ^ 2) ≤ 1.0764 := by
        nlinarith [mul_nonneg (sub_nonneg.mpr h) (sub_nonneg.mpr h),
          mul_nonneg (mul_nonneg (sub_nonneg.mpr h) (sub_nonneg.mpr h)) (sub_nonneg.mpr h)]
      have h0 : 0 ≤ 1 - u := sub_nonneg.mpr h1
      nlinarith [mul_le_mul_of_nonneg_left hfall h0]
    · have hsq : (1 - u) ^ 2 ≤ 0.0036 := by nlinarith
      have hfac : 3 + 2 * u + u ^ 2 ≤ 6.25 := by nlinarith
      have hfac0 : 0 ≤ 3 + 2 * u + u ^ 2 := by nlinarith
      nlinarith [mul_le_mul hsq hfac hfac0 (by norm_num)]
  rw [newton_gap]
  nlinarith

/-- The gap after a round that starts at most `d` below 1 and hardly above. -/
theorem gap_le {u d : ℝ} (h : 1 - d ≤ u) (h' : u ≤ 1 + 1 / 2 ^ 25) (hd : 1 / 2 ^ 25 ≤ d)
    (hd1 : d ≤ 1 / 2) : (1 - u) ^ 2 * (3 + 2 * u + u ^ 2) / 3 ≤ 2.00001 * d ^ 2 := by
  have hsq : (1 - u) ^ 2 ≤ d ^ 2 := by
    rw [sq_le_sq, abs_of_nonneg (le_trans (by norm_num) hd), abs_le]
    constructor
    · linarith
    · linarith
  have hu0 : 0 ≤ u := by linarith
  have hfac : (3 + 2 * u + u ^ 2) / 3 ≤ 2.00001 := by
    have husq : u ^ 2 ≤ (1 + 1 / 2 ^ 25) ^ 2 := pow_le_pow_left₀ hu0 h' 2
    norm_num at husq h' ⊢
    linarith
  have hfac0 : 0 ≤ (3 + 2 * u + u ^ 2) / 3 := by positivity
  calc (1 - u) ^ 2 * (3 + 2 * u + u ^ 2) / 3 = (1 - u) ^ 2 * ((3 + 2 * u + u ^ 2) / 3) := by ring
    _ ≤ d ^ 2 * 2.00001 := mul_le_mul hsq hfac hfac0 (sq_nonneg d)
    _ = 2.00001 * d ^ 2 := mul_comm _ _

theorem newton_next {u d : ℝ} (h : 1 - d ≤ u) (h' : u ≤ 1 + 1 / 2 ^ 25) (hd : 1 / 2 ^ 25 ≤ d)
    (hd1 : d ≤ 1 / 2) : 1 - 2.00001 * d ^ 2 ≤ newton u := by
  have hgap := gap_le h h' hd hd1
  have hsq : d ^ 2 ≤ 1 / 4 := by nlinarith
  rw [newton_gap]
  nlinarith

/-- **Three rounds** from anywhere the seed may start. -/
theorem newton_three {u : ℝ} (h : 0.7937 ≤ u) (h' : u ≤ 1.06) :
    1 - 0.00024021 ≤ newton (newton (newton u)) ∧
      newton (newton (newton u)) ≤ 1 + 1 / 2 ^ 25 := by
  have l1 := newton_first h h'
  have u1 := newton_le u (le_trans (by norm_num) h)
  have l2 := newton_next l1 u1 (by norm_num) (by norm_num)
  have u2 := newton_le (newton u) (le_trans (by norm_num) l1)
  have l2' : 1 - 0.010959 ≤ newton (newton u) := le_trans (by norm_num) l2
  have l3 := newton_next l2' u2 (by norm_num) (by norm_num)
  exact ⟨le_trans (by norm_num) l3, newton_le _ (le_trans (by norm_num) l2')⟩

/-- The last round, written `r + k13 * (r - x * r ^ 4)`. -/
theorem last_round {u : ℝ} (h : 1 - 0.00024021 ≤ u) (h' : u ≤ 1 + 1 / 2 ^ 25) :
    |(u + k13 * (u - u ^ 4)) ^ 2 - 1| ≤ 1 / 2 ^ 22 := by
  have hgap := gap_le h h' (by norm_num) (by norm_num)
  have hgap0 : 0 ≤ (1 - u) ^ 2 * (3 + 2 * u + u ^ 2) / 3 := by
    have : 0 ≤ u := le_trans (by norm_num) h
    positivity
  have hw : u + k13 * (u - u ^ 4) =
      1 - (1 - u) ^ 2 * (3 + 2 * u + u ^ 2) / 3 + (u - u ^ 4) / (3 * 2 ^ 25) := by
    rw [k13_eq]
    ring
  have hrest : |u - u ^ 4| ≤ 0.001 := by
    have hfac : u - u ^ 4 = (1 - u) * (u + u ^ 2 + u ^ 3) := by ring
    have hu0 : 0 ≤ u := le_trans (by norm_num) h
    have husq : u ^ 2 ≤ (1 + 1 / 2 ^ 25) ^ 2 := pow_le_pow_left₀ hu0 h' 2
    have hucu : u ^ 3 ≤ (1 + 1 / 2 ^ 25) ^ 3 := pow_le_pow_left₀ hu0 h' 3
    have hsum : u + u ^ 2 + u ^ 3 ≤ 4 := by
      norm_num at husq hucu h' ⊢
      linarith
    have hsum0 : 0 ≤ u + u ^ 2 + u ^ 3 := by positivity
    have habs : |1 - u| ≤ 0.00024021 := by
      rw [abs_le]
      norm_num at h' ⊢
      constructor
      · linarith
      · linarith
    rw [hfac, abs_mul, abs_of_nonneg hsum0]
    calc |1 - u| * (u + u ^ 2 + u ^ 3) ≤ 0.00024021 * 4 := mul_le_mul habs hsum hsum0 (by norm_num)
      _ ≤ 0.001 := by norm_num
  obtain ⟨hr0, hr1⟩ := abs_le.mp hrest
  have hlow : 1 - 0.00000011542 ≤ u + k13 * (u - u ^ 4) := by
    rw [hw]
    norm_num at hgap ⊢
    linarith
  have hhigh : u + k13 * (u - u ^ 4) ≤ 1 + 0.0000000001 := by
    rw [hw]
    norm_num at hgap0 ⊢
    linarith
  rw [abs_le]
  constructor
  · nlinarith
  · nlinarith

/-! ## 5. The accuracy -/

/-- **The cube-root approximation meets its accuracy for every exponent.** -/
theorem cbrtAndAdd_accuracy {x : BitVec 32} (hx : PosNormal x) :
    PosNormal (cbrtSeed x) ∧
    ∀ add : ℝ, |cbrtAndAdd f32Value k13 k43 x add - (f32Value x ^ (1 / 3 : ℝ) + add)| ≤
      2 ^ (-22 : ℤ) * f32Value x ^ (1 / 3 : ℝ) := by
  refine ⟨cbrtSeed_normal hx, fun add => ?_⟩
  have hpos := hx.value_pos
  obtain ⟨c, hc⟩ : ∃ c, c = f32Value x ^ (1 / 3 : ℝ) := ⟨_, rfl⟩
  have hc0 : 0 < c := by
    rw [hc]
    exact Real.rpow_pos_of_pos hpos _
  have hc3 : c ^ 3 = f32Value x := by
    rw [hc, ← Real.rpow_natCast, ← Real.rpow_mul hpos.le]
    norm_num
  have hne : x ≠ 0 := by
    intro h0
    have := hx.lower
    rw [h0] at this
    exact absurd this (by decide)
  obtain ⟨hlo, hhi⟩ := seed_start hx
  obtain ⟨r, hr⟩ : ∃ r, r = f32Value (cbrtSeed x) := ⟨_, rfl⟩
  have hr0 : 0 < r := by
    rw [hr]
    exact (cbrtSeed_normal hx).value_pos
  have hcube : (r * c) ^ 3 = f32Value (cbrtSeed x) ^ 3 * f32Value x := by
    rw [mul_pow, hc3, hr]
  rw [← hcube] at hlo hhi
  have hu0 : 0 < r * c := mul_pos hr0 hc0
  have hstart : 0.7937 ≤ r * c :=
    le_of_pow_le_pow_left₀ (n := 3) (by decide) hu0.le (le_trans (by norm_num) hlo)
  have hstart' : r * c ≤ 1.06 :=
    le_of_pow_le_pow_left₀ (n := 3) (by decide) (by norm_num) (hhi.trans (by norm_num))
  obtain ⟨hl, hh⟩ := newton_three hstart hstart'
  have hlast := last_round hl hh
  obtain ⟨s, hs⟩ : ∃ s, s = cbrtRound k43 (k13 * c ^ 3) (cbrtRound k43 (k13 * c ^ 3)
      (cbrtRound k43 (k13 * c ^ 3) r)) := ⟨_, rfl⟩
  have hsc : s * c = newton (newton (newton (r * c))) := by
    rw [hs, round_eq, round_eq, round_eq]
  rw [← hsc] at hlast
  have hval : cbrtAndAdd f32Value k13 k43 x add =
      (s + k13 * (s - c ^ 3 * s ^ 4)) ^ 2 * c ^ 3 + add := by
    unfold cbrtAndAdd
    dsimp only
    rw [if_neg hne, ← hc3, ← hr]
    simp only [List.range_succ, List.range_zero, List.nil_append, List.cons_append, List.foldl_cons,
      List.foldl_nil, ← hs, exact_mulAdd]
    ring
  have hdiff : cbrtAndAdd f32Value k13 k43 x add - (c + add) =
      ((s * c + k13 * (s * c - (s * c) ^ 4)) ^ 2 - 1) * c := by
    rw [hval]
    ring
  rw [← hc, hdiff, abs_mul, abs_of_pos hc0]
  refine mul_le_mul_of_nonneg_right (hlast.trans ?_) hc0.le
  norm_num

/-- At 1. -/
theorem cbrtAndAdd_accuracy_one :
    |cbrtAndAdd f32Value k13 k43 0x3F800000#32 0 - (f32Value 0x3F800000#32 ^ (1 / 3 : ℝ) + 0)| ≤
      2 ^ (-22 : ℤ) * f32Value 0x3F800000#32 ^ (1 / 3 : ℝ) :=
  (cbrtAndAdd_accuracy ⟨by decide, by decide⟩).2 0

end Ssimulacra2
