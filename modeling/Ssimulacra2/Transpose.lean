/-
  File:      Ssimulacra2/Transpose.lean
  Subject:   The metric does not prefer rows over columns.

  The two error formulas of a pixel are taken as arbitrary functions (`PixelErrors`); the engine is
  the case of its own two formulas (`computeFormulas_engine`). Exchanging rows and columns of both
  images exchanges them in the images of every scale, and a pooled sum does not see the order of
  its terms.

  * `scaleLoop_related` -- two runs whose levels stay related answer the same list;
  * `poolScale_sum` -- the pooling of a scale as sums over its samples;
  * `compute_transpose` -- the result.
-/
import Ssimulacra2.Blur.Lines
import Ssimulacra2.Scales
import Ssimulacra2.Blur.Gaussian

namespace Ssimulacra2

open Finset

/-! ## 1. Arbitrary error formulas -/

section Formulas

variable {F : Type} {D : Type} [F32 F] [F64 D] [Convert F D]

/-- The two errors of a pixel. -/
structure PixelErrors (F : Type) (D : Type) where
  ssim : Pixel F → D
  edge : Pixel F → D

/-- The formulas of the engine. -/
def engineErrors (F : Type) (D : Type) [F32 F] [F64 D] [Convert F D] : PixelErrors F D :=
  ⟨Pixel.ssimD D, Pixel.edgeD1 D⟩

/-- The pooling loop of one channel, over the error formulas. -/
def poolChannelWith (e : PixelErrors F D) (m : ScaleMaps F) (c : Nat) :
    Option ((D × D) × (D × D × D × D)) :=
  (List.range m.h).foldlM (fun s (y : Nat) =>
    (List.range m.w).foldlM (fun s (x : Nat) => do
      let p ← m.pixel (c * (m.w * m.h) + y * m.w + x)
      some (addSsim s.1 (e.ssim p), addEdge s.2 (e.edge p))) s) ((0, 0), (0, 0, 0, 0))

/-- The norms of a scale, over the error formulas. -/
def poolScaleWith (e : PixelErrors F D) (m : ScaleMaps F) : Option (ScaleNorms D) := do
  let onePer : D := ofNat 1 / ofNat (m.w * m.h)
  let p0 ← poolChannelWith e m 0
  let p1 ← poolChannelWith e m 1
  let p2 ← poolChannelWith e m 2
  let p := ![p0, p1, p2]
  some ⟨channels2 fun c => ssimAverages onePer (p c).1,
    channels4 fun c => edgeAverages onePer (p c).2⟩

/-- The scale loop, over its callees and the error formulas. -/
def computeFormulas (ops : ScaleOps F) (e : PixelErrors F D) (lin1 lin2 : List F) (w h : Nat) :
    Option (List (ScaleNorms D)) :=
  scaleLoop (fun l => (scaleMaps ops l.a l.b l.w l.h).bind (poolScaleWith e)) 6 0
    ⟨lin1, lin2, w, h⟩ []

theorem computeFormulas_engine (ops : ScaleOps F) (lin1 lin2 : List F) (w h : Nat) :
    computeFormulas ops (engineErrors F D) lin1 lin2 w h = computeWith D ops lin1 lin2 w h := rfl

end Formulas

/-! ## 2. Two runs side by side -/

section Related

variable {F : Type} [F32 F] {α : Type}

/-- **Two runs whose levels stay related answer the same list.** -/
theorem scaleLoop_related {round : Level F → Option α} {I : Level F → Level F → Prop}
    (hbreak : ∀ l l', I l l' → ((l.w < 8 ∨ l.h < 8) ↔ (l'.w < 8 ∨ l'.h < 8)))
    (hstep : ∀ scale l l', I l l' → ¬(l.w < 8 ∨ l.h < 8) →
      ∃ m m' a, nextLevel scale l = some m ∧ nextLevel scale l' = some m' ∧ I m m' ∧
        round m = some a ∧ round m' = some a)
    (left scale : Nat) {l l' : Level F} (hl : I l l') :
    ∃ t, scaleLoop round left scale l [] = some t ∧ scaleLoop round left scale l' [] = some t := by
  induction left generalizing scale l l' with
  | zero => exact ⟨[], rfl, rfl⟩
  | succ left ih =>
    by_cases h : l.w < 8 ∨ l.h < 8
    · exact ⟨[], scaleLoop_break _ _ _ _ h, scaleLoop_break _ _ _ _ ((hbreak l l' hl).mp h)⟩
    · have h' : ¬(l'.w < 8 ∨ l'.h < 8) := fun h' => h ((hbreak l l' hl).mpr h')
      obtain ⟨m, m', a, em, em', hm, ea, ea'⟩ := hstep scale l l' hl h
      obtain ⟨t, et, et'⟩ := ih (scale + 1) hm
      refine ⟨a :: t, ?_, ?_⟩
      · rw [scaleLoop_succ _ _ _ _ h, em, Option.bind_some, ea, Option.bind_some, et,
          Option.map_some]
      · rw [scaleLoop_succ _ _ _ _ h', em', Option.bind_some, ea', Option.bind_some, et',
          Option.map_some]

end Related

/-! ## 3. Pooling as a sum -/

/-- A loop that adds `g i` in round `i`. -/
theorem foldlM_sum {M : Type} [AddCommMonoid M] {f : M → Nat → Option M} {g : Nat → M} {n : Nat}
    (h : ∀ s, ∀ i < n, f s i = some (s + g i)) (s : M) :
    (List.range n).foldlM f s = some (s + ∑ i ∈ range n, g i) := by
  induction n with
  | zero =>
    rw [Finset.sum_range_zero, add_zero]
    rfl
  | succ n ih =>
    rw [List.range_succ, List.foldlM_append, ih fun s i hi => h s i (by omega), Option.bind_eq_bind,
      Option.bind_some, List.foldlM_cons, h _ n (by omega), Finset.sum_range_succ, add_assoc]
    rfl

/-- What a pixel adds to the six sums. -/
noncomputable def contribution (e : PixelErrors ℝ ℝ) (p : Pixel ℝ) : (ℝ × ℝ) × (ℝ × ℝ × ℝ × ℝ) :=
  (addSsim (0, 0) (e.ssim p), addEdge (0, 0, 0, 0) (e.edge p))

/-- Sample `(c, y, x)` of the seven images. -/
def ScaleImages.at {F : Type} (s : ScaleImages F) (c y x : Nat) : Pixel F :=
  ⟨s.x1 c y x, s.x2 c y x, s.s11 c y x, s.s22 c y x, s.s12 c y x, s.mu1 c y x, s.mu2 c y x⟩

section Pool

variable (e : PixelErrors ℝ ℝ) (w h : Nat) (s : ScaleImages ℝ)

theorem poolChannel_sum {c : Nat} (hc : c < 3) :
    poolChannelWith e (s.maps w h) c =
      some (∑ y ∈ range h, ∑ x ∈ range w, contribution e (s.at c y x)) := by
  have hadd (t : (ℝ × ℝ) × (ℝ × ℝ × ℝ × ℝ)) (p : Pixel ℝ) :
      (addSsim t.1 (e.ssim p), addEdge t.2 (e.edge p)) = t + contribution e p := by
    unfold contribution addSsim addEdge
    simp only [zero_add]
    rfl
  have hrow (y : Nat) (hy : y < h) (t : (ℝ × ℝ) × (ℝ × ℝ × ℝ × ℝ)) :
      (List.range w).foldlM (fun t (x : Nat) => do
        let p ← (s.maps w h).pixel (c * (w * h) + y * w + x)
        some (addSsim t.1 (e.ssim p), addEdge t.2 (e.edge p))) t =
      some (t + ∑ x ∈ range w, contribution e (s.at c y x)) := by
    refine foldlM_sum (fun t x hx => ?_) t
    rw [pixel_image s hc hy hx, Option.bind_eq_bind, Option.bind_some, hadd]
    rfl
  have hall := foldlM_sum (fun t y hy => hrow y hy t) 0
  rw [zero_add] at hall
  exact hall

/-- The norms of a scale from the three channel sums. -/
noncomputable def channelNorms (w h : Nat) (t : Fin 3 → (ℝ × ℝ) × (ℝ × ℝ × ℝ × ℝ)) : ScaleNorms ℝ :=
  let onePer : ℝ := ofNat 1 / ofNat (w * h)
  let p := ![t 0, t 1, t 2]
  ⟨channels2 fun c => ssimAverages onePer (p c).1, channels4 fun c => edgeAverages onePer (p c).2⟩

theorem poolScale_sum :
    poolScaleWith e (s.maps w h) = some (channelNorms w h fun c =>
      ∑ y ∈ range h, ∑ x ∈ range w, contribution e (s.at c.val y x)) := by
  unfold poolScaleWith
  rw [poolChannel_sum e w h s (by decide), poolChannel_sum e w h s (by decide),
    poolChannel_sum e w h s (by decide)]
  rfl

end Pool

/-! ## 4. Rows and columns exchanged -/

/-- The seven images with rows and columns exchanged. -/
def ScaleImages.swapped {F : Type} (s : ScaleImages F) : ScaleImages F :=
  ⟨fun c y x => s.x1 c x y, fun c y x => s.x2 c x y, fun c y x => s.s11 c x y,
    fun c y x => s.s22 c x y, fun c y x => s.s12 c x y, fun c y x => s.mu1 c x y,
    fun c y x => s.mu2 c x y⟩

/-- **The pooled norms do not see the order of the samples.** -/
theorem poolScale_swapped (e : PixelErrors ℝ ℝ) (w h : Nat) (s : ScaleImages ℝ) :
    poolScaleWith e (s.swapped.maps h w) = poolScaleWith e (s.maps w h) := by
  rw [poolScale_sum, poolScale_sum]
  have hsum (c : Fin 3) :
      ∑ y ∈ range w, ∑ x ∈ range h, contribution e (s.swapped.at c.val y x) =
        ∑ y ∈ range h, ∑ x ∈ range w, contribution e (s.at c.val y x) := by
    rw [Finset.sum_comm]
    rfl
  unfold channelNorms
  simp only [hsum, Nat.mul_comm]

/-- The halving treats rows and columns alike. -/
theorem boxSample_swap (iw ih : Nat) (f : Nat → Nat → Nat → ℝ) :
    boxSample ih iw (swapped f) = swapped (boxSample iw ih f) := by
  funext c y x
  unfold swapped boxSample
  dsimp only
  ring

/-- The seven images of exchanged samples are the exchanged images. -/
theorem scaleImages_swap (pixel : ℝ → ℝ → ℝ → ℝ × ℝ × ℝ) (rg : RgConst ℝ) (w h : Nat)
    (f g : Nat → Nat → Nat → ℝ) :
    scaleImages pixel (blurSample rg h w) (swapped f) (swapped g) =
      (scaleImages pixel (blurSample rg w h) f g).swapped := by
  have hb (k : Nat → Nat → Nat → ℝ) := blurSample_swap rg w h k
  unfold scaleImages ScaleImages.swapped
  simp only [ScaleImages.mk.injEq]
  exact ⟨rfl, rfl, hb _, hb _, hb _, hb _, hb _⟩

/-- Two levels, the second with rows and columns exchanged. -/
def Exchanged (l l' : Level ℝ) : Prop :=
  l'.w = l.h ∧ l'.h = l.w ∧ ∃ f g, l.a = image l.w l.h f ∧ l.b = image l.w l.h g ∧
    l'.a = image l.h l.w (swapped f) ∧ l'.b = image l.h l.w (swapped g)

/-- **The halving keeps two levels exchanged.** -/
theorem nextLevel_exchanged (scale : Nat) {l l' : Level ℝ} (hl : Exchanged l l')
    (h8 : ¬(l.w < 8 ∨ l.h < 8)) :
    ∃ m m', nextLevel scale l = some m ∧ nextLevel scale l' = some m' ∧ Exchanged m m' := by
  by_cases h0 : scale > 0
  · obtain ⟨ew, eh, f, g, ea, eb, ea', eb'⟩ := hl
    have hw : 1 ≤ l.w := by omega
    have hh : 1 ≤ l.h := by omega
    unfold nextLevel
    rw [if_pos h0, if_pos h0, ea, eb, ea', eb', ew, eh, downsampleCpu_image hw hh,
      downsampleCpu_image hw hh, downsampleCpu_image hh hw, downsampleCpu_image hh hw,
      boxSample_swap, boxSample_swap]
    exact ⟨_, _, rfl, rfl, rfl, rfl, _, _, rfl, rfl, rfl, rfl⟩
  · unfold nextLevel
    rw [if_neg h0, if_neg h0]
    exact ⟨l, l', rfl, rfl, hl⟩

/-- The vector with rows and columns exchanged. -/
noncomputable def transpose (w h : Nat) (lin : List ℝ) : List ℝ :=
  image h w fun c y x => cell lin (flat w h c x y)

/-- The two runs of the scale loop, for every constants whose expansion is right. -/
theorem formulas_transpose (pixel : ℝ → ℝ → ℝ → ℝ × ℝ × ℝ) (e : PixelErrors ℝ ℝ) {rg : RgConst ℝ}
    (hN : 1 ≤ rg.radius) (hrg : Expanded rg) {w h : Nat} {lin1 lin2 : List ℝ}
    (h1 : lin1.length = 3 * w * h) (h2 : lin2.length = 3 * w * h) :
    let ops : ScaleOps ℝ := ⟨pixel, fun img w h => blurPlanesCpu img w h rg⟩
    ∃ t, computeFormulas ops e lin1 lin2 w h = some t ∧
      computeFormulas ops e (transpose w h lin1) (transpose w h lin2) h w = some t := by
  intro ops
  have hblur (w h : Nat) (f : Nat → Nat → Nat → ℝ) :
      ops.blur (image w h f) w h = some (image w h (blurSample rg w h f)) :=
    blurPlanesCpu_lines hN hrg w h f
  refine scaleLoop_related (I := Exchanged) ?_ ?_ 6 0 ?_
  · rintro l l' ⟨ew, eh, -⟩
    rw [ew, eh]
    exact or_comm
  · intro scale l l' hl h8
    obtain ⟨m, m', em, em', hm⟩ := nextLevel_exchanged scale hl h8
    obtain ⟨ew, eh, f, g, ea, eb, ea', eb'⟩ := id hm
    obtain ⟨a, hs⟩ : ∃ a, poolScaleWith e
        ((scaleImages pixel (blurSample rg m.w m.h) f g).maps m.w m.h) = some a :=
      ⟨_, poolScale_sum e m.w m.h _⟩
    have hpool := poolScale_swapped e m.w m.h (scaleImages pixel (blurSample rg m.w m.h) f g)
    rw [← scaleImages_swap, hs] at hpool
    refine ⟨m, m', a, em, em', hm, ?_, ?_⟩
    · rw [ea, eb, scaleMaps_image (hblur m.w m.h) f g, Option.bind_some]
      exact hs
    · rw [ea', eb', ew, eh, scaleMaps_image (hblur m.h m.w), Option.bind_some]
      exact hpool
  · exact ⟨rfl, rfl, _, _, eq_image h1, eq_image h2, rfl, rfl⟩

/-- **The metric does not prefer rows over columns**: with arbitrary formulas at a pixel, and with
    those of the engine, the norms of two transposed images are the norms of the images, and so is
    the score. -/
theorem compute_transpose {w h : Nat} {lin1 lin2 : List ℝ} (h1 : lin1.length = 3 * w * h)
    (h2 : lin2.length = 3 * w * h) :
    (∀ (pixel : ℝ → ℝ → ℝ → ℝ × ℝ × ℝ) (e : PixelErrors ℝ ℝ) (N : Nat) (h32 : N < 2 ^ 32)
      (n2 d1 : Fin 3 → ℝ), 1 ≤ N →
      let ops : ScaleOps ℝ :=
        ⟨pixel, fun img w h => blurPlanesCpu img w h (RgConst.ofSections N h32 n2 d1)⟩
      ∃ t, computeFormulas ops e lin1 lin2 w h = some t ∧
        computeFormulas ops e (transpose w h lin1) (transpose w h lin2) h w = some t) ∧
    ∀ cbrtAdd : ℝ → ℝ → ℝ, ∃ t : List (ScaleNorms ℝ),
      computeSsimulacra2Cpu ℝ cbrtAdd lin1 lin2 w h = some t ∧
      computeSsimulacra2Cpu ℝ cbrtAdd (transpose w h lin1) (transpose w h lin2) h w = some t ∧
      (computeSsimulacra2Cpu ℝ cbrtAdd (transpose w h lin1) (transpose w h lin2) h w).bind score =
        (computeSsimulacra2Cpu ℝ cbrtAdd lin1 lin2 w h).bind (score (D := ℝ)) := by
  constructor
  · intro pixel e N h32 n2 d1 hN
    exact formulas_transpose pixel e hN (expanded_ofSections N h32 n2 d1) h1 h2
  · intro cbrtAdd
    obtain ⟨beta, hrg, -⟩ := gaussian_kernel
    obtain ⟨t, et, et'⟩ := formulas_transpose (xybPixel ℝ cbrtAdd) (engineErrors ℝ ℝ)
      (show 1 ≤ (derived 5 (by decide) beta).radius from (by decide : 1 ≤ 5)) (derived_expanded 5 _ beta) h1 h2
    have hc : computeSsimulacra2Cpu ℝ cbrtAdd lin1 lin2 w h = some t := by
      unfold computeSsimulacra2Cpu
      rw [hrg]
      exact et
    have hc' :
        computeSsimulacra2Cpu ℝ cbrtAdd (transpose w h lin1) (transpose w h lin2) h w = some t := by
      unfold computeSsimulacra2Cpu
      rw [hrg]
      exact et'
    refine ⟨t, hc, hc', ?_⟩
    rw [hc, hc']

/-- A ramp of 9 rows and 8 columns against its negative. -/
theorem compute_transpose_ramp :
    let lin : List ℝ := (List.range (3 * 8 * 9)).map fun i : Nat => (i : ℝ)
    let neg : List ℝ := (List.range (3 * 8 * 9)).map fun i : Nat => -(i : ℝ)
    ∀ cbrtAdd : ℝ → ℝ → ℝ, ∃ t : List (ScaleNorms ℝ),
      computeSsimulacra2Cpu ℝ cbrtAdd lin neg 8 9 = some t ∧
      computeSsimulacra2Cpu ℝ cbrtAdd (transpose 8 9 lin) (transpose 8 9 neg) 9 8 = some t := by
  intro lin neg cbrtAdd
  have hl : lin.length = 3 * 8 * 9 := by rw [List.length_map, List.length_range]
  have hn : neg.length = 3 * 8 * 9 := by rw [List.length_map, List.length_range]
  clear_value lin neg
  obtain ⟨t, e, e', -⟩ := (compute_transpose hl hn).2 cbrtAdd
  exact ⟨t, e, e'⟩

end Ssimulacra2
