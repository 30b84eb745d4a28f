/-
  File:      Ssimulacra2/Vulkan/Bounds.lean
  Subject:   No kernel leaves its buffers.

  Over buffers of the sizes the engine allocates every invocation of every kernel answers and
  keeps the sizes, whatever the buffers hold and whatever the arithmetic is.
-/
import Ssimulacra2.Blur.Agree
import Ssimulacra2.Vulkan.Kernels

namespace Ssimulacra2.Shader

open Loop Lists

variable {F : Type} {D : Type} {σ : Type}

/-! ## 1. The elementwise kernels -/

section Elementwise

variable [F32 F] [F64 D] [Convert F D]

theorem mulMain_isSome {n : Nat} {a b o : List F} (ha : a.length = n) (hb : b.length = n)
    (ho : o.length = n) (i : Nat) : ∃ o', mulMain a b n i o = some o' ∧ o'.length = n := by
  unfold mulMain
  by_cases hi : i < n
  · rw [if_pos hi, cell_eq (by omega), cell_eq (by omega)]
    exact writeAt_length _ (by omega) (by omega) ho
  · rw [if_neg hi]
    exact ⟨o, rfl, ho⟩

theorem xybMain_isSome (cbrtAdd : F → F → F) (k : XybConsts F) {lin xyb : List F}
    (hl : lin.length = 3 * k.n) (hx : xyb.length = 3 * k.n) (i : Nat) :
    ∃ xyb', xybMain cbrtAdd k lin i xyb = some xyb' ∧ xyb'.length = 3 * k.n := by
  unfold xybMain
  by_cases hi : i ≥ k.n
  · rw [if_pos hi]
    exact ⟨xyb, rfl, hx⟩
  · rw [if_neg hi]
    dsimp only
    rw [cell_eq (j := i) (by omega), cell_eq (j := k.n + i) (by omega),
      cell_eq (j := 2 * k.n + i) (by omega)]
    simp only [Option.bind_eq_bind, Option.bind_some]
    generalize xybMainPixel cbrtAdd k _ _ _ = v
    obtain ⟨x1, e1, h1⟩ := writeAt_length (i := (i : Int)) v.1 (by omega) (by omega) hx
    obtain ⟨x2, e2, h2⟩ := writeAt_length (i := ((k.n + i : Nat) : Int)) v.2.1 (by omega)
      (by omega) h1
    rw [e1, Option.bind_some, e2, Option.bind_some]
    exact writeAt_length v.2.2 (by omega) (by omega) h2

theorem mapsMain_isSome {n : Nat} {m : ScaleMaps F}
    (hm : ∀ xs ∈ [m.x1, m.x2, m.mu1, m.mu2, m.s11, m.s22, m.s12], xs.length = 3 * n)
    {o : List F × List F} (h1 : o.1.length = 3 * n) (h2 : o.2.length = 3 * n) (i : Nat) :
    ∃ out', mapsMain D m n i o = some out' ∧ out'.1.length = 3 * n ∧
      out'.2.length = 3 * n := by
  unfold mapsMain
  by_cases hi : i ≥ 3 * n
  · rw [if_pos hi]
    exact ⟨o, rfl, h1, h2⟩
  · have hb : i / n * n + i % n = i := Nat.div_add_mod' i n
    rw [if_neg hi]
    dsimp only
    rw [hb, pixel_cells hm (by omega), Option.bind_eq_bind, Option.bind_some]
    generalize mapsMainPixel (F := F) D _ = v
    obtain ⟨x1, e1, h1⟩ := writeAt_length (i := (i : Int)) v.1 (by omega) (by omega) h1
    obtain ⟨x2, e2, h2⟩ := writeAt_length (i := (i : Int)) v.2 (by omega) (by omega) h2
    rw [e1, Option.bind_eq_bind, Option.bind_some, e2, Option.bind_some]
    exact ⟨_, rfl, h1, h2⟩

theorem downsampleMain_isSome {iw ih : Nat} (hw : 1 ≤ iw) (hh : 1 ≤ ih) {src dst : List F}
    (hs : src.length = 3 * iw * ih)
    (hd : dst.length = 3 * ((iw + 1) / 2) * ((ih + 1) / 2)) (i : Nat) :
    ∃ dst', downsampleMain src iw ih ((iw + 1) / 2) ((ih + 1) / 2) i dst = some dst' ∧
      dst'.length = 3 * ((iw + 1) / 2) * ((ih + 1) / 2) := by
  generalize (iw + 1) / 2 = ow at *
  generalize (ih + 1) / 2 = oh at *
  unfold downsampleMain
  by_cases hi : i ≥ 3 * ow * oh
  · rw [if_pos hi]
    exact ⟨dst, rfl, hd⟩
  · have hc : i / (ow * oh) < 3 := Nat.div_lt_of_lt_mul (by
      calc i < 3 * ow * oh := by omega
        _ = ow * oh * 3 := by ring)
    rw [if_neg hi]
    dsimp only
    generalize i / (ow * oh) = c at *
    have hread (y x : Nat) (hy : y < ih) (hx : x < iw) (sum : F) :
        ∃ sum', (do
          let v ← src[c * (iw * ih) + y * iw + x]?
          some (sum + v)) = some sum' ∧ True := by
      have hrow := row_lt (w := iw) hc hy
      rw [mul_assoc c iw ih] at hrow
      rw [cell_eq (by omega)]
      exact ⟨_, rfl, trivial⟩
    obtain ⟨sum, e, -⟩ := foldlM_isSome (P := fun _ => True) _ (List.range 2)
      (fun sum iy _ _ => foldlM_isSome _ (List.range 2) (fun sum ix _ _ =>
        hread (min (i % (ow * oh) / ow * 2 + iy) (ih - 1))
          (min (i % (ow * oh) % ow * 2 + ix) (iw - 1)) (by omega) (by omega) sum) sum trivial)
      (0 : F) trivial
    rw [e, Option.bind_eq_bind, Option.bind_some]
    exact writeAt_length _ (by omega) (by omega) hd

end Elementwise

/-! ## 2. The blur kernels -/

section Blur

variable [FmaOps F] {rd : Int → Option F} {wr : Int → F → σ → Option σ} (rg : Nat → F)
variable {w base N : Nat} {P : σ → Prop} {n : Int}

section Row

variable (hrd : ∀ i : Int, 0 ≤ i → i < w → (rd (base + i)).isSome)
  (hwr : ∀ (i : Int) v s, 0 ≤ i → i < w → P s → ∃ s', wr (base + i) v s = some s' ∧ P s')

include hrd

theorem step0_isSome (h1 : -(N : Int) + 1 ≤ n) (h2 : n < w) (y1 y2 : Fin 3 → F) :
    ∃ o, step0 rd rg w base n N y1 y2 = some o := by
  obtain ⟨sum, hsum⟩ : ∃ v, borderSum (fun i => rd (base + i)) N w n = some v :=
    borderSum_isSome hrd h1 (by omega)
  have e : step0 rd rg w base n N y1 y2 =
      (borderSum (fun i => rd (base + i)) N w n).bind fun sum => some fun k =>
        mulAdd (rg (24 + 4 * k.val)) (y1 k)
          (mulAdd (rg (36 + 4 * k.val)) (y2 k) (sum * rg (48 + 4 * k.val))) := by
    unfold step0 borderSum
    simp only [Option.bind_eq_bind, Option.bind_assoc, Option.bind_some]
  rw [e, hsum]
  exact ⟨_, rfl⟩

include hwr

theorem borderStep_isSome (h1 : -(N : Int) + 1 ≤ n) (h2 : n < w) (s : Scan F σ) (hs : P s.out) :
    ∃ s', borderStep rd wr rg w base N n s = some s' ∧ P s'.out := by
  obtain ⟨o, ho⟩ := step0_isSome rg hrd h1 h2 s.y1 s.y2
  unfold borderStep
  rw [ho, Option.bind_eq_bind, Option.bind_some]
  split_ifs with h0
  · obtain ⟨out, hout, hP⟩ := hwr n (o 0 + (o 1 + o 2)) s.out h0 h2 hs
    exact ⟨_, by rw [hout, Option.bind_eq_bind, Option.bind_some], hP⟩
  · exact ⟨_, rfl, hs⟩

theorem remainderStep_isSome (h1 : -(N : Int) + 1 ≤ n) (h0 : 0 ≤ n) (h2 : n < w) (s : Scan F σ)
    (hs : P s.out) : ∃ s', remainderStep rd wr rg w base N n s = some s' ∧ P s'.out := by
  obtain ⟨o, ho⟩ := step0_isSome rg hrd h1 h2 s.y1 s.y2
  obtain ⟨out, hout, hP⟩ := hwr n (o 0 + (o 1 + o 2)) s.out h0 h2 hs
  unfold remainderStep
  rw [ho, Option.bind_eq_bind, Option.bind_some, hout, Option.bind_eq_bind, Option.bind_some]
  exact ⟨_, rfl, hP⟩

theorem unrolledStep_isSome (hN : 1 ≤ N) (h1 : (N : Int) + 1 ≤ n) (h2 : n < w - N + 1 - 3)
    (s : Scan F σ) (hs : P s.out) :
    ∃ s', unrolledStep rd wr rg base N n s = some s' ∧ P s'.out := by
  have hsum (j : Fin 4) : ∃ v, sumAt rd base N n j = some v := by
    have hj := j.isLt
    obtain ⟨a, ha⟩ := Option.isSome_iff_exists.mp
      (hrd (n + j.val - (N + 1)) (by omega) (by omega))
    obtain ⟨b, hb⟩ := Option.isSome_iff_exists.mp
      (hrd (n + j.val + N - 1) (by omega) (by omega))
    unfold sumAt
    rw [show (base : Int) + (n + j.val) - (N + 1) = base + (n + j.val - (N + 1)) by omega, ha, hb]
    exact ⟨_, rfl⟩
  have hw (j : Int) (h0 : 0 ≤ j) (h3 : j ≤ 3) (v : F) (out : σ) (ho : P out) :
      ∃ out', wr (base + (n + j)) v out = some out' ∧ P out' :=
    hwr _ v out (by omega) (by omega) ho
  obtain ⟨s0, e0⟩ := hsum 0
  obtain ⟨s1, e1⟩ := hsum 1
  obtain ⟨s2, e2⟩ := hsum 2
  obtain ⟨s3, e3⟩ := hsum 3
  unfold unrolledStep
  simp only [e0, e1, e2, e3, Option.bind_eq_bind, Option.bind_some]
  generalize outs rg ![s0, s1, s2, s3] s.y1 s.y2 = o
  obtain ⟨o0, w0, p0⟩ := hw 0 le_rfl (by omega) (o 0 0 + (o 1 0 + o 2 0)) s.out hs
  obtain ⟨o1, w1, p1⟩ := hw 1 (by omega) (by omega) (o 0 1 + (o 1 1 + o 2 1)) o0 p0
  obtain ⟨o2, w2, p2⟩ := hw 2 (by omega) (by omega) (o 0 2 + (o 1 2 + o 2 2)) o1 p1
  obtain ⟨o3, w3, p3⟩ := hw 3 (by omega) (by omega) (o 0 3 + (o 1 3 + o 2 3)) o2 p2
  exact ⟨_, by rw [w0, Option.bind_some, w1, Option.bind_some, w2, Option.bind_some, w3,
    Option.bind_some], p3⟩

end Row

theorem columnStep_isSome {h : Nat} (hrd : ∀ i : Int, 0 ≤ i → i < h → (rd (base + i * w)).isSome)
    (hwr : ∀ (i : Int) v s, 0 ≤ i → i < h → P s → ∃ s', wr (base + i * w) v s = some s' ∧ P s')
    (h1 : -(N : Int) + 1 ≤ n) (h2 : n < h) (s : Scan F σ) (hs : P s.out) :
    ∃ s', columnStep rd wr rg w base N h n s = some s' ∧ P s'.out := by
  obtain ⟨sum, hsum⟩ : ∃ v, verticalSum (fun i => rd (base + i * w)) N h n = some v :=
    verticalSum_isSome hrd h1 h2 (by omega)
  have e : columnSum rd w base N h n = some sum := hsum
  unfold columnStep
  rw [e, Option.bind_eq_bind, Option.bind_some]
  dsimp only
  split_ifs with h0
  · obtain ⟨out, ho, hP⟩ := hwr n _ s.out h0 h2 hs
    exact ⟨_, by rw [ho, Option.bind_eq_bind, Option.bind_some], hP⟩
  · exact ⟨_, rfl, hs⟩

variable (rd wr)

/-- **`blur_h` stays in its row.** -/
theorem blurHMain_isSome {h r : Nat} (hN : 1 ≤ N)
    (hrd : ∀ i : Int, 0 ≤ i → i < (3 * w * h : Nat) → (rd i).isSome)
    (hwr : ∀ (i : Int) v s, 0 ≤ i → i < (3 * w * h : Nat) → P s →
      ∃ s', wr i v s = some s' ∧ P s') (out : σ) (hout : P out) :
    ∃ out', blurHMain rd wr rg w h N r out = some out' ∧ P out' := by
  unfold blurHMain
  by_cases hr : r ≥ 3 * h
  · rw [if_pos hr]
    exact ⟨out, rfl, hout⟩
  have hrow := row_lt (w := w) (show r / h < 3 from Nat.div_lt_of_lt_mul (by omega))
    (Nat.mod_lt r (show 0 < h by omega))
  rw [if_neg hr]
  dsimp only
  generalize r / h * w * h + r % h * w = base at *
  have hrd' (i : Int) (h0 : 0 ≤ i) (hi : i < w) : (rd (base + i)).isSome :=
    hrd _ (by omega) (by omega)
  have hwr' (i : Int) (v : F) (s : σ) (h0 : 0 ≤ i) (hi : i < w) :=
    hwr (base + i) v s (by omega) (by omega)
  obtain ⟨p, q, t, e1, e2, e3, hP⟩ := phases_isSome (N := N) (show (0 : Int) ≤ w by omega)
    (I := fun s : Scan F σ => P s.out)
    (fun n s h1 h2 hs => borderStep_isSome rg hrd' hwr' h1 h2 s hs)
    (fun n s h1 h2 hs => unrolledStep_isSome rg hrd' hwr' hN h1 h2 s hs)
    (fun n s h0 h2 hs => remainderStep_isSome (N := N) rg hrd' hwr' (by omega) h0 h2 s hs)
    (Scan.start out) hout (by omega)
  have efirst : ((N : Int) + 1 + 3) / 4 * 4 = firstAligned N := rfl
  simp only [efirst, Option.bind_eq_bind, e1, e2, e3, Option.bind_some]
  exact ⟨_, rfl, hP⟩

/-- **`blur_v` stays in its column.** -/
theorem blurVMain_isSome {h q : Nat} (hrd : ∀ i : Int, 0 ≤ i → i < (3 * w * h : Nat) → (rd i).isSome)
    (hwr : ∀ (i : Int) v s, 0 ≤ i → i < (3 * w * h : Nat) → P s →
      ∃ s', wr i v s = some s' ∧ P s') (out : σ) (hout : P out) :
    ∃ out', blurVMain rd wr rg w h N q out = some out' ∧ P out' := by
  unfold blurVMain
  by_cases hq : q ≥ 3 * w
  · rw [if_pos hq]
    exact ⟨out, rfl, hout⟩
  have hc : q / w < 3 := Nat.div_lt_of_lt_mul (by omega)
  have hx : q % w < w := Nat.mod_lt q (by omega)
  rw [if_neg hq]
  dsimp only
  generalize q / w = c at *
  generalize q % w = x at *
  have hcol (i : Int) (h0 : 0 ≤ i) (hi : i < h) :
      (0 : Int) ≤ (c * w * h + x : Nat) + i * w ∧
        ((c * w * h + x : Nat) + i * w : Int) < (3 * w * h : Nat) := by
    obtain ⟨e, hlt⟩ := column_lt hc hx h0 hi
    have ebase : ((c * w * h + x : Nat) : Int) = c * w * h + x := by push_cast; rfl
    omega
  obtain ⟨n, s, e, hI, -⟩ := loopBelow_inv (u := h) le_rfl
    (b := columnStep rd wr rg w (c * w * h + x) N h)
    (I := fun n s => -(N : Int) + 1 ≤ n ∧ P s.out)
    (fun n s hn hI => by
      obtain ⟨s', hs', hP⟩ := columnStep_isSome rg
        (fun i h0 hi => hrd _ (hcol i h0 hi).1 (hcol i h0 hi).2)
        (fun i v s h0 hi => hwr _ v s (hcol i h0 hi).1 (hcol i h0 hi).2) hI.1 hn s hI.2
      exact ⟨s', hs', by omega, hP⟩)
    (-(N : Int) + 1) (Scan.start out) ⟨le_rfl, hout⟩
  rw [e, Option.bind_eq_bind, Option.bind_some]
  exact ⟨_, rfl, hI.2⟩

end Blur

end Ssimulacra2.Shader
