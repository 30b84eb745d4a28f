/-
  File:      Ssimulacra2/Vulkan/NoWrap.lean
  Subject:   Inside the range no index of a kernel wraps around.

  For images of at most `2 ^ 30` samples, and a radius up to `2 ^ 30`, the kernels in 32-bit
  arithmetic do what the kernels on the naturals do: one lemma for each `main`, over one for each
  loop body.
-/
import Ssimulacra2.Vulkan.Kernels
import Ssimulacra2.Vulkan.Shaders32

namespace Ssimulacra2.Shader32

open Words

variable {F : Type} {D : Type} {σ : Type}

/-! ## 1. The elementwise kernels -/

section Elementwise

variable [F32 F] [F64 D] [Convert F D]

theorem mulMain_eq (a b : List F) {n i : Nat} (hn : n < 2 ^ 32) (hi : i < 2 ^ 32) (o : List F) :
    mulMain a b (UInt32.ofNat n) (UInt32.ofNat i) o = Shader.mulMain a b n i o := by
  unfold mulMain Shader.mulMain
  rw [toNat_ofNat hi]
  exact if_congr (ofNat_lt hi hn) rfl rfl

theorem xybMain_eq (cbrtAdd : F → F → F) (k : Shader.XybConsts F) (lin : List F) {i : Nat}
    (hn : 3 * k.n < 2 ^ 32) (hi : i < 2 ^ 32) (xyb : List F) :
    xybMain cbrtAdd k lin (UInt32.ofNat k.n) (UInt32.ofNat i) xyb =
      Shader.xybMain cbrtAdd k lin i xyb := by
  unfold xybMain Shader.xybMain
  by_cases h : i ≥ k.n
  · rw [if_pos ((ofNat_le (by omega) hi).mpr h), if_pos h]
  · have e1 : (UInt32.ofNat k.n + UInt32.ofNat i).toNat = k.n + i := by
      rw [← UInt32.ofNat_add, toNat_ofNat (by omega)]
    have e2 : (2 * UInt32.ofNat k.n + UInt32.ofNat i).toNat = 2 * k.n + i := by
      rw [show (2 : UInt32) = UInt32.ofNat 2 from rfl, ← UInt32.ofNat_mul, ← UInt32.ofNat_add,
        toNat_ofNat (by omega)]
    rw [if_neg fun hc => h ((ofNat_le (by omega) hi).mp hc), if_neg h]
    simp only [e1, e2, toNat_ofNat hi]

theorem tripleCount_eq (n : Nat) : tripleCount (UInt32.ofNat n) = UInt32.ofNat (3 * n) := by
  rw [UInt32.ofNat_mul]
  rfl

theorem mapsMain_eq (m : ScaleMaps F) {n i : Nat} (hn : 3 * n < 2 ^ 32) (hi : i < 2 ^ 32)
    (out : List F × List F) :
    mapsMain D m (UInt32.ofNat n) (UInt32.ofNat i) out = Shader.mapsMain D m n i out := by
  unfold mapsMain Shader.mapsMain
  rw [tripleCount_eq]
  by_cases h : i ≥ 3 * n
  · rw [if_pos ((ofNat_le hn hi).mpr h), if_pos h]
  · have hb : i / n * n + i % n = i := Nat.div_add_mod' i n
    have e : (UInt32.ofNat i / UInt32.ofNat n * UInt32.ofNat n +
        UInt32.ofNat i % UInt32.ofNat n).toNat = i / n * n + i % n := by
      rw [← UInt32.ofNat_div hi (by omega), ← UInt32.ofNat_mod hi (by omega), ← UInt32.ofNat_mul,
        ← UInt32.ofNat_add, toNat_ofNat (by omega)]
    rw [if_neg fun hc => h ((ofNat_le hn hi).mp hc), if_neg h]
    simp only [e]

theorem downsampleCount_eq (ow oh : Nat) :
    downsampleCount (UInt32.ofNat ow) (UInt32.ofNat oh) = UInt32.ofNat (3 * ow * oh) := by
  rw [UInt32.ofNat_mul, UInt32.ofNat_mul]
  rfl

/-- The halves of a size. -/
theorem halves_le (iw ih : Nat) : 3 * ((iw + 1) / 2) * ((ih + 1) / 2) ≤ 3 * iw * ih := by
  rcases Nat.eq_zero_or_pos iw with rfl | hw
  · simp
  rcases Nat.eq_zero_or_pos ih with rfl | hh
  · simp
  exact Nat.mul_le_mul (Nat.mul_le_mul_left 3 (by omega)) (by omega)

theorem downsampleMain_eq (src : List F) {iw ih i : Nat} (hw : 1 ≤ iw) (hh : 1 ≤ ih)
    (hin : 3 * iw * ih ≤ 2 ^ 30) (hi : i < 2 ^ 32) (dst : List F) :
    downsampleMain src (UInt32.ofNat iw) (UInt32.ofNat ih) (UInt32.ofNat ((iw + 1) / 2))
        (UInt32.ofNat ((ih + 1) / 2)) (UInt32.ofNat i) dst =
      Shader.downsampleMain src iw ih ((iw + 1) / 2) ((ih + 1) / 2) i dst := by
  have hle := halves_le iw ih
  have hiw : 3 * iw ≤ 3 * iw * ih := Nat.le_mul_of_pos_right _ hh
  have hih : ih ≤ 3 * iw * ih := Nat.le_mul_of_pos_left _ (by omega)
  generalize how : (iw + 1) / 2 = ow at *
  generalize hoh : (ih + 1) / 2 = oh at *
  unfold downsampleMain Shader.downsampleMain
  rw [downsampleCount_eq]
  by_cases h : i ≥ 3 * ow * oh
  · rw [if_pos ((ofNat_le (by omega) hi).mpr h), if_pos h]
  · have hplane : ow * oh ≤ 3 * ow * oh := Nat.mul_le_mul_right _ (by omega)
    have hc : i / (ow * oh) < 3 := Nat.div_lt_of_lt_mul (by
      calc i < 3 * ow * oh := by omega
        _ = ow * oh * 3 := by ring)
    have hp : i % (ow * oh) / ow ≤ i := (Nat.div_le_self _ _).trans (Nat.mod_le _ _)
    have hq : i % (ow * oh) % ow ≤ i := (Nat.mod_le _ _).trans (Nat.mod_le _ _)
    have hmod : i % (ow * oh) < 2 ^ 32 := (Nat.mod_le _ _).trans_lt hi
    rw [if_neg fun hc => h ((ofNat_le (by omega) hi).mp hc), if_neg h]
    have e1 : UInt32.ofNat ow * UInt32.ofNat oh = UInt32.ofNat (ow * oh) :=
      (UInt32.ofNat_mul _ _).symm
    have e2 : UInt32.ofNat i / UInt32.ofNat (ow * oh) = UInt32.ofNat (i / (ow * oh)) :=
      (UInt32.ofNat_div hi (by omega)).symm
    have e3 : UInt32.ofNat i % UInt32.ofNat (ow * oh) = UInt32.ofNat (i % (ow * oh)) :=
      (UInt32.ofNat_mod hi (by omega)).symm
    have e4 (m : Nat) (hm : m < 2 ^ 32) :
        UInt32.ofNat m / UInt32.ofNat ow = UInt32.ofNat (m / ow) :=
      (UInt32.ofNat_div hm (by omega)).symm
    have e5 (m : Nat) (hm : m < 2 ^ 32) :
        UInt32.ofNat m % UInt32.ofNat ow = UInt32.ofNat (m % ow) :=
      (UInt32.ofNat_mod hm (by omega)).symm
    -- the four samples of a box, clamped to the image
    have e6 (a b k : Nat) (ha : a < 2 ^ 30) (hk : k < 2) (hb : 1 ≤ b) (hb' : b ≤ 2 ^ 30) :
        min (UInt32.ofNat a * 2 + UInt32.ofNat k) (UInt32.ofNat b - 1) =
          UInt32.ofNat (min (a * 2 + k) (b - 1)) := by
      rw [show (2 : UInt32) = UInt32.ofNat 2 from rfl, show (1 : UInt32) = UInt32.ofNat 1 from rfl,
        ← UInt32.ofNat_mul, ← UInt32.ofNat_add, ← UInt32.ofNat_sub hb,
        min_ofNat (by omega) (by omega)]
    have e7 (y x : Nat) (hy : y < ih) (hx : x < iw) :
        (UInt32.ofNat (i / (ow * oh)) * (UInt32.ofNat iw * UInt32.ofNat ih) +
          UInt32.ofNat y * UInt32.ofNat iw + UInt32.ofNat x).toNat =
            i / (ow * oh) * (iw * ih) + y * iw + x := by
      have hrow := row_lt (w := iw) hc hy
      rw [mul_assoc _ iw ih] at hrow
      simp only [← UInt32.ofNat_mul, ← UInt32.ofNat_add]
      exact toNat_ofNat (by omega)
    simp only [e1, e2, e3, e4 _ hmod, e5 _ hmod, toNat_ofNat hi]
    congr 1
    refine Shader.foldlM_congr _ (fun sum iy hiy =>
      Shader.foldlM_congr _ (fun sum ix hix => ?_) _) _
    rw [e6 _ _ _ (by omega) (List.mem_range.mp hiy) hh (by omega),
      e6 _ _ _ (by omega) (List.mem_range.mp hix) hw (by omega),
      e7 _ _ (by omega) (by omega)]

end Elementwise

/-! ## 2. The loop bodies of the blur -/

/-- An accessor of integer indices at a word. -/
def addr {α : Type} (f : Int → α) (u : UInt32) : α := f u.toNat

/-- A guarded access at a signed offset. -/
theorem ite_addr {α : Type} (f : Int → α) {p q : Prop} [Decidable p] [Decidable q] (hpq : p ↔ q)
    {b : Nat} {e : Int} (he : q → 0 ≤ e ∧ b + e < 2 ^ 32) (x : α) :
    (if p then addr f (UInt32.ofNat b + (Int32.ofInt e).toUInt32) else x) =
      if q then f (b + e) else x := by
  by_cases hq : q
  · rw [if_pos (hpq.mpr hq), if_pos hq, addr, toNat_offset (he hq).1 (he hq).2]
  · rw [if_neg fun hp => hq (hpq.mp hp), if_neg hq]

theorem toInt32_eq (w : Nat) : (UInt32.ofNat w).toInt32 = Int32.ofInt w :=
  UInt32.toInt32_ofNat'.trans Int32.ofInt_eq_ofNat.symm

section Bodies

variable [FmaOps F] (rd : Int → Option F) (wr : Int → F → σ → Option σ) (rg : Nat → F)

/-- The coefficients a kernel can reach. -/
def coeffs (rg : Nat → F) (i : Fin 64) : F := rg i.val

variable {w base N : Nat} {n : Int}

/-- The two offsets of a folded input. -/
theorem left_eq (n : Int) (N : Nat) :
    Int32.ofInt n - Int32.ofInt N - 1 = Int32.ofInt (n - N - 1) := by
  rw [Int32.ofInt_sub, Int32.ofInt_sub]
  rfl

theorem right_eq (n : Int) (N : Nat) :
    Int32.ofInt n + Int32.ofInt N - 1 = Int32.ofInt (n + N - 1) := by
  rw [Int32.ofInt_sub, Int32.ofInt_add]
  rfl

theorem step0_eq (hN : N ≤ 2 ^ 30) (hw : w < 2 ^ 30) (hb : base + w ≤ 2 ^ 32)
    (hlo : -(N : Int) + 1 ≤ n) (hn : n < w) (y1 y2 : Fin 3 → F) :
    step0 (addr rd) (coeffs rg) (UInt32.ofNat w) (UInt32.ofNat base) (Int32.ofInt n)
      (Int32.ofInt N) y1 y2 = Shader.step0 rd rg w base n N y1 y2 := by
  have hl := ite_addr rd (b := base) (e := n - N - 1)
    (ofInt_le (a := 0) (b := n - N - 1) ⟨by omega, by omega⟩ ⟨by omega, by omega⟩)
    (fun h => ⟨h, by omega⟩) (some 0)
  have hr := ite_addr rd (b := base) (e := n + N - 1)
    (ofInt_lt (a := n + N - 1) (b := w) ⟨by omega, by omega⟩ ⟨by omega, by omega⟩)
    (fun h => ⟨by omega, by omega⟩) (some 0)
  unfold step0 Shader.step0
  simp only [left_eq, right_eq, toInt32_eq]
  rw [← hl, ← hr]
  rfl

theorem borderStep_eq (hN : N ≤ 2 ^ 30) (hw : w < 2 ^ 30) (hb : base + w ≤ 2 ^ 32)
    (hlo : -(N : Int) + 1 ≤ n) (hn : n < w) (s : Scan F σ) :
    borderStep (addr rd) (addr wr) (coeffs rg) (UInt32.ofNat w) (UInt32.ofNat base) (Int32.ofInt N)
      (Int32.ofInt n) s = Shader.borderStep rd wr rg w base N n s := by
  have hout (v : F) := ite_addr (fun i => wr i v s.out) (b := base)
    (ofInt_le (a := 0) (b := n) ⟨by omega, by omega⟩ ⟨by omega, by omega⟩)
    (fun h => ⟨h, by omega⟩) (some s.out)
  unfold borderStep Shader.borderStep
  rw [step0_eq rd rg hN hw hb hlo hn]
  simp only [← hout]
  rfl

theorem remainderStep_eq (hN : N ≤ 2 ^ 30) (hw : w < 2 ^ 30) (hb : base + w ≤ 2 ^ 32)
    (hlo : -(N : Int) + 1 ≤ n) (h0 : 0 ≤ n) (hn : n < w) (s : Scan F σ) :
    remainderStep (addr rd) (addr wr) (coeffs rg) (UInt32.ofNat w) (UInt32.ofNat base)
      (Int32.ofInt N) (Int32.ofInt n) s = Shader.remainderStep rd wr rg w base N n s := by
  unfold remainderStep Shader.remainderStep
  rw [step0_eq rd rg hN hw hb hlo hn]
  simp only [addr, toNat_offset h0 (show base + n < 2 ^ 32 by omega)]

theorem sumAt_eq (hN : N ≤ 2 ^ 30) (hlo : (N : Int) + 1 ≤ n) (hn : base + (n + 3 + N) < 2 ^ 32)
    (j : Fin 4) : sumAt (addr rd) (UInt32.ofNat base) (Int32.ofInt N) (Int32.ofInt n) j =
      Shader.sumAt rd base N n j := by
  have hj := j.isLt
  have el : ((UInt32.ofNat base + (Int32.ofInt n + Int32.ofInt j.val).toUInt32 -
      (Int32.ofInt N + 1).toUInt32).toNat : Int) = base + (n + j.val) - (N + 1) := by
    rw [show (1 : Int32) = Int32.ofInt 1 from rfl, ← Int32.ofInt_add, ← Int32.ofInt_add,
      ofInt_toUInt32 (by omega), ofInt_toUInt32 (by omega), ← UInt32.ofNat_add,
      ← UInt32.ofNat_sub (by omega), toNat_ofNat (by omega)]
    omega
  have er : ((UInt32.ofNat base + (Int32.ofInt n + Int32.ofInt j.val + Int32.ofInt N -
      1).toUInt32).toNat : Int) = base + (n + j.val + N - 1) := by
    rw [← Int32.ofInt_add, right_eq, toNat_offset (by omega) (by omega)]
  unfold sumAt Shader.sumAt addr
  rw [el, er]

theorem unrolledStep_eq (hN : N ≤ 2 ^ 30) (hlo : (N : Int) + 1 ≤ n)
    (hn : base + (n + 3 + N) < 2 ^ 32) (s : Scan F σ) :
    unrolledStep (addr rd) (addr wr) (coeffs rg) (UInt32.ofNat base) (Int32.ofInt N)
      (Int32.ofInt n) s = Shader.unrolledStep rd wr rg base N n s := by
  have hout (j : Int) (h0 : 0 ≤ j) (h3 : j ≤ 3) :
      ((UInt32.ofNat base + (Int32.ofInt n + Int32.ofInt j).toUInt32).toNat : Int) =
        base + (n + j) := by
    rw [← Int32.ofInt_add, toNat_offset (by omega) (by omega)]
  unfold unrolledStep Shader.unrolledStep
  simp only [sumAt_eq rd hN hlo hn, addr]
  rw [← hout 0 (by omega) (by omega), ← hout 1 (by omega) (by omega),
    ← hout 2 (by omega) (by omega), ← hout 3 (by omega) (by omega)]
  rfl

variable {h : Nat}

theorem columnSum_eq (hN : N ≤ 2 ^ 30) (hh : h < 2 ^ 30)
    (hb : ∀ i : Int, 0 ≤ i → i < h → base + i * w < 2 ^ 32) (hlo : -(N : Int) + 1 ≤ n)
    (hn : n < h) :
    columnSum (addr rd) (UInt32.ofNat w) (UInt32.ofNat base) (Int32.ofInt N) (Int32.ofInt h)
      (Int32.ofInt n) = Shader.columnSum rd w base N h n := by
  have ht : Int32.ofInt (n - N - 1) < 0 ↔ n - N - 1 < 0 :=
    ofInt_lt (b := 0) ⟨by omega, by omega⟩ ⟨by omega, by omega⟩
  have hlt := ofInt_lt (a := n + N - 1) (b := h) ⟨by omega, by omega⟩ ⟨by omega, by omega⟩
  have hge := ofInt_le (a := h) (b := n + N - 1) ⟨by omega, by omega⟩ ⟨by omega, by omega⟩
  have hrd (e : Int) (h0 : 0 ≤ e) (he : e < h) :
      addr rd (UInt32.ofNat base + (Int32.ofInt e).toUInt32 * UInt32.ofNat w) =
        rd (base + e * w) := by
    rw [addr, toNat_stride h0 (hb e h0 he)]
  unfold columnSum Shader.columnSum
  simp only [left_eq, right_eq]
  by_cases h1 : n - N - 1 < 0
  · rw [if_pos (ht.mpr h1), if_pos h1]
    by_cases h2 : n + N - 1 < h
    · rw [if_pos (hlt.mpr h2), if_pos h2, hrd _ (by omega) h2]
    · rw [if_neg fun hc => h2 (hlt.mp hc), if_neg h2]
  · rw [if_neg fun hc => h1 (ht.mp hc), if_neg h1, hrd _ (by omega) (by omega)]
    by_cases h2 : n + N - 1 ≥ h
    · rw [if_pos (hge.mpr h2), if_pos h2]
    · rw [if_neg fun hc => h2 (hge.mp hc), if_neg h2, hrd _ (by omega) (by omega)]

theorem columnStep_eq (hN : N ≤ 2 ^ 30) (hh : h < 2 ^ 30)
    (hb : ∀ i : Int, 0 ≤ i → i < h → base + i * w < 2 ^ 32) (hlo : -(N : Int) + 1 ≤ n)
    (hn : n < h) (s : Scan F σ) :
    columnStep (addr rd) (addr wr) (coeffs rg) (UInt32.ofNat w) (UInt32.ofNat base)
      (Int32.ofInt N) (Int32.ofInt h) (Int32.ofInt n) s =
        Shader.columnStep rd wr rg w base N h n s := by
  have hout (v : F) : (if Int32.ofInt n ≥ 0 then
      addr wr (UInt32.ofNat base + (Int32.ofInt n).toUInt32 * UInt32.ofNat w) v s.out
      else some s.out) = if n ≥ 0 then wr (base + n * w) v s.out else some s.out := by
    have h0 : (0 : Int32) ≤ Int32.ofInt n ↔ 0 ≤ n :=
      ofInt_le (a := 0) ⟨by omega, by omega⟩ ⟨by omega, by omega⟩
    by_cases hc : n ≥ 0
    · rw [if_pos (h0.mpr hc), if_pos hc, addr, toNat_stride hc (hb n hc hn)]
    · rw [if_neg fun h => hc (h0.mp h), if_neg hc]
  unfold columnStep Shader.columnStep
  rw [columnSum_eq rd hN hh hb hlo hn]
  simp only [hout]
  rfl

end Bodies

/-! ## 3. The blur kernels -/

/-- An element of a column. -/
theorem column_bound {w h c x : Nat} (hin : 3 * w * h ≤ 2 ^ 30) (hc : c < 3) (hx : x < w) (i : Int)
    (h0 : 0 ≤ i) (hi : i < h) : ((c * w * h + x : Nat) : Int) + i * w < 2 ^ 32 := by
  obtain ⟨e, hlt⟩ := column_lt hc hx h0 hi
  push_cast
  omega

theorem start_eq (N : Nat) : -Int32.ofInt N + 1 = Int32.ofInt (-(N : Int) + 1) := by
  rw [Int32.ofInt_add, Int32.ofInt_neg]
  rfl

section Blur

variable [FmaOps F] (rd : Int → Option F) (wr : Int → F → σ → Option σ) (rg : Nat → F)

variable {w h N r : Nat} (hw : 1 ≤ w) (hh : 1 ≤ h) (hin : 3 * w * h ≤ 2 ^ 30) (hN : N ≤ 2 ^ 30)
  (hr : r < 2 ^ 32)

include hw hh hin hN hr

theorem blurVMain_eq (out : σ) :
    blurVMain (addr rd) (addr wr) (coeffs rg) (UInt32.ofNat w) (UInt32.ofNat h) (UInt32.ofNat N)
      (UInt32.ofNat r) out = Shader.blurVMain rd wr rg w h N r out := by
  have h3w : 3 * w ≤ 3 * w * h := Nat.le_mul_of_pos_right _ hh
  have h3h : 3 * h ≤ 3 * w * h := Nat.mul_le_mul_right _ (by omega)
  unfold blurVMain Shader.blurVMain
  rw [tripleCount_eq]
  by_cases hi : r ≥ 3 * w
  · rw [if_pos ((ofNat_le (by omega) hr).mpr hi), if_pos hi]
  have hc : r / w < 3 := Nat.div_lt_of_lt_mul (by omega)
  have hx : r % w < w := Nat.mod_lt _ hw
  have ebase : UInt32.ofNat r / UInt32.ofNat w * UInt32.ofNat w * UInt32.ofNat h +
      UInt32.ofNat r % UInt32.ofNat w = UInt32.ofNat (r / w * w * h + r % w) := by
    rw [← UInt32.ofNat_div hr (by omega), ← UInt32.ofNat_mod hr (by omega)]
    simp only [UInt32.ofNat_mul, UInt32.ofNat_add]
  rw [if_neg fun hc => hi ((ofNat_le (by omega) hr).mp hc), if_neg hi]
  simp only [ebase, toInt32_eq, start_eq]
  rw [show (1 : Int32) = Int32.ofInt 1 from rfl, loopBelow_eq le_rfl (by omega) (by omega)
    (l := -(N : Int) + 1) (by omega)
    (fun n s hlo hn => columnStep_eq rd wr rg hN (by omega) (column_bound hin hc hx) hlo hn s)
    le_rfl (by omega), Option.bind_eq_bind, Option.bind_map]
  rfl

theorem blurHMain_eq (out : σ) :
    blurHMain (addr rd) (addr wr) (coeffs rg) (UInt32.ofNat w) (UInt32.ofNat h) (UInt32.ofNat N)
      (UInt32.ofNat r) out = Shader.blurHMain rd wr rg w h N r out := by
  have h3w : 3 * w ≤ 3 * w * h := Nat.le_mul_of_pos_right _ hh
  have h3h : 3 * h ≤ 3 * w * h := Nat.mul_le_mul_right _ (by omega)
  unfold blurHMain Shader.blurHMain
  rw [tripleCount_eq]
  by_cases hi : r ≥ 3 * h
  · rw [if_pos ((ofNat_le (by omega) hr).mpr hi), if_pos hi]
  have hc : r / h < 3 := Nat.div_lt_of_lt_mul (by omega)
  have hy : r % h < h := Nat.mod_lt _ hh
  have hrow := row_lt (w := w) hc hy
  have ebase : UInt32.ofNat r / UInt32.ofNat h * UInt32.ofNat w * UInt32.ofNat h +
      UInt32.ofNat r % UInt32.ofNat h * UInt32.ofNat w =
        UInt32.ofNat (r / h * w * h + r % h * w) := by
    rw [← UInt32.ofNat_div hr (by omega), ← UInt32.ofNat_mod hr (by omega)]
    simp only [UInt32.ofNat_mul, UInt32.ofNat_add]
  have efirst : (Int32.ofInt N + 1 + 3) / 4 * 4 = Int32.ofInt (((N : Int) + 1 + 3) / 4 * 4) := by
    rw [Int32.ofInt_mul, ← ofInt_div ⟨by omega, by omega⟩ (by omega) ⟨by omega, by omega⟩,
      Int32.ofInt_add, Int32.ofInt_add]
    rfl
  have elast : Int32.ofInt w - Int32.ofInt N + 1 - 3 = Int32.ofInt ((w : Int) - N + 1 - 3) := by
    rw [Int32.ofInt_sub, Int32.ofInt_add, Int32.ofInt_sub]
    rfl
  rw [if_neg fun hc => hi ((ofNat_le (by omega) hr).mp hc), if_neg hi]
  simp only [ebase, toInt32_eq, start_eq, efirst, elast]
  generalize r / h * w * h + r % h * w = base at *
  rw [min_ofInt ⟨by omega, by omega⟩ ⟨by omega, by omega⟩,
    show (1 : Int32) = Int32.ofInt 1 from rfl, show (4 : Int32) = Int32.ofInt 4 from rfl]
  generalize hu : min (((N : Int) + 1 + 3) / 4 * 4) (w : Int) = u
  rw [loopBelow_eq le_rfl (by omega) (by omega) (l := -(N : Int) + 1) (by omega)
    (fun n s hlo hn => borderStep_eq rd wr rg hN (by omega) (by omega) hlo (by omega) s) le_rfl
    (by omega), Option.bind_eq_bind, Option.bind_map, Option.bind_eq_bind]
  -- the border ends at the first aligned index or at the end of the row
  refine Option.bind_congr fun p hp => ?_
  have hp1 := (Loop.loopBelow_exit le_rfl _ hp).2
  have hp2 := Loop.loopBelow_index le_rfl (I := fun n => n < 2 ^ 31) (fun n hn _ => by omega) _ hp
    (by omega)
  dsimp only [Function.comp_apply]
  rw [loopBelow_eq (by omega) (by omega) (by omega) (l := u) (by omega)
    (fun n s hlo hn => unrolledStep_eq rd wr rg hN (by omega) (by omega) s) hp1 hp2,
    Option.bind_map]
  -- the groups of four move the index on
  refine Option.bind_congr fun q hq => ?_
  have hq1 := Loop.loopBelow_index (by omega) (I := fun n => u ≤ n ∧ n < 2 ^ 31)
    (fun n hn hI => ⟨by omega, by omega⟩) _ hq ⟨hp1, hp2⟩
  dsimp only [Function.comp_apply]
  rw [loopBelow_eq le_rfl (by omega) (by omega) (l := u) (by omega)
    (fun n s hlo hn =>
      remainderStep_eq rd wr rg hN (by omega) (by omega) (by omega) (by omega) hn s)
    hq1.1 hq1.2, Option.bind_map]
  rfl

end Blur

end Ssimulacra2.Shader32
