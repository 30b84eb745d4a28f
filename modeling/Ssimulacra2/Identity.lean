/-
  File:      Ssimulacra2/Identity.lean
  Subject:   An image compared with itself, over uninterpreted arithmetic: the CPU engine.

  The operations of `f32` and `f64` stay symbols; `SelfLaws` are the few equations they obey. When
  both images are one, the five blurred planes of a scale are three, numerator and denominator of
  the error have one value, and every norm is 0.

  * `Pixel.Twin` -- a pixel of an image against itself; `twin_ssimD`, `twin_edgeD1`;
  * `mapsWith_twin` -- every pixel of every scale is one;
  * `score_perfect` -- without an error the score is 100.
-/
import Ssimulacra2.Scales
import Ssimulacra2.ScoreOrder
import Ssimulacra2.Blur.Agree

namespace Ssimulacra2

open Lists

variable {F : Type} {D : Type} [F32 F] [F64 D] [Convert F D]

/-! ## 1. The laws -/

/-- The equations of one number type. -/
structure RingLaws (A : Type) [RingOps A] [Div A] : Prop where
  sub_self : ∀ x : A, x - x = 0
  one_sub_zero : (ofNat 1 : A) - 0 = ofNat 1
  one_mul : ∀ x : A, ofNat 1 * x = x
  two_mul : ∀ x : A, ofNat 2 * x = x + x
  div_self : ∀ x : A, x ≠ 0 → x / x = ofNat 1
  zero_add_zero : (0 : A) + 0 = 0
  zero_mul : ∀ x : A, 0 * x = 0
  mul_zero : ∀ x : A, x * 0 = 0
  neg_zero : -(0 : A) = 0

/-- The equations of both number types and of the conversions. -/
structure SelfLaws (F D : Type) [F32 F] [F64 D] [Convert F D] : Prop where
  single : RingLaws F
  double : RingLaws D
  max_zero32 : F32.max (0 : F) 0 = 0
  max_zero64 : F64.max (0 : D) 0 = 0
  abs_zero : F64.abs (0 : D) = 0
  sqrt_zero : F64.sqrt (0 : D) = 0
  widen_zero : (widen (0 : F) : D) = 0
  widen_one : (widen (ofNat 1 : F) : D) = ofNat 1
  widen_ne : ∀ x : F, x ≠ 0 → (widen x : D) ≠ 0
  narrow_zero : (narrow (0 : D) : F) = 0
  narrow_one : (narrow (ofNat 1 : D) : F) = ofNat 1
  one_add_abs : ∀ t : F, (ofNat 1 + widen (F32.abs t) : D) ≠ 0
  /-- `0.0 > 0.0` is false. -/
  not_pos : F64.lt (0 : D) 0 = false

variable (laws : SelfLaws F D)

/-! ## 2. A pixel of an image against itself -/

/-- Both sides of the pixel are one. -/
structure Pixel.Twin (p : Pixel F) : Prop where
  x : p.x2 = p.x1
  s22 : p.s22 = p.s11
  s12 : p.s12 = p.s11
  m : p.m2 = p.m1

section Twin

variable {p : Pixel F} (h : p.Twin)

include laws h

theorem twin_numM : p.numM = ofNat 1 := by
  have hs := laws.single
  unfold Pixel.numM
  dsimp only
  rw [h.m, hs.sub_self, hs.zero_mul, hs.one_sub_zero]

/-- Numerator and denominator are written differently and have one value. -/
theorem twin_numS : p.numS = p.denomS := by
  unfold Pixel.numS Pixel.denomS
  rw [h.m, h.s12, h.s22, laws.single.two_mul]

theorem twin_ssimD (hd : p.denomS ≠ 0) : p.ssimD D = 0 := by
  have hquot : p.numM * p.numS / p.denomS = ofNat 1 := by
    rw [twin_numM laws h, laws.single.one_mul, twin_numS laws h, laws.single.div_self _ hd]
  unfold Pixel.ssimD Pixel.error
  rw [hquot, laws.widen_one, laws.double.sub_self, laws.max_zero64]

theorem twin_edgeD1 : p.edgeD1 D = 0 := by
  unfold Pixel.edgeD1
  rw [h.x, h.m]
  dsimp only
  rw [laws.double.div_self _ (laws.one_add_abs _), laws.double.sub_self]

end Twin

/-! ## 3. Sums of zeros -/

/-- The norms of a scale without an error. -/
def ScaleNorms.zero (D : Type) [F64 D] : ScaleNorms D := ⟨fun _ => 0, fun _ => 0⟩

section Zeros

include laws

theorem tothe4th_zero : tothe4th (0 : D) = 0 := by
  unfold tothe4th
  dsimp only
  rw [laws.double.zero_mul, laws.double.zero_mul]

theorem addSsim_zero : addSsim ((0 : D), (0 : D)) 0 = (0, 0) := by
  unfold addSsim
  rw [tothe4th_zero laws, laws.double.zero_add_zero]

theorem addEdge_zero : addEdge ((0 : D), (0 : D), (0 : D), (0 : D)) 0 = (0, 0, 0, 0) := by
  unfold addEdge
  dsimp only
  rw [laws.double.neg_zero, laws.max_zero64, tothe4th_zero laws, laws.double.zero_add_zero]

theorem norm4_zero (onePer : D) : norm4 onePer 0 = 0 := by
  unfold norm4
  rw [laws.double.mul_zero, laws.sqrt_zero, laws.sqrt_zero]

theorem ssimAverages_zero (onePer : D) : ssimAverages onePer (0, 0) = (0, 0) := by
  unfold ssimAverages
  rw [norm4_zero laws, laws.double.mul_zero]

theorem edgeAverages_zero (onePer : D) : edgeAverages onePer (0, 0, 0, 0) = (0, 0, 0, 0) := by
  unfold edgeAverages
  rw [norm4_zero laws, laws.double.mul_zero]

omit laws [F64 D] in
theorem channels2_const (z : D) : channels2 (fun _ => (z, z)) = fun _ => z := by
  funext j
  fin_cases j <;> rfl

omit laws [F64 D] in
theorem channels4_const (z : D) : channels4 (fun _ => (z, z, z, z)) = fun _ => z := by
  funext j
  fin_cases j <;> rfl

/-- The norms from sums of zeros. -/
theorem norms_of_zeros (onePer : D) : (⟨channels2 fun _ => ssimAverages onePer (0, 0),
    channels4 fun _ => edgeAverages onePer (0, 0, 0, 0)⟩ : ScaleNorms D) = .zero D := by
  rw [ssimAverages_zero laws, edgeAverages_zero laws, channels2_const, channels4_const]
  rfl

end Zeros

/-! ## 4. The score -/

/-- The result of a comparison without an error. -/
structure Perfect (scales : List (ScaleNorms D)) : Prop where
  nonempty : scales ≠ []
  zero : ∀ sn ∈ scales, sn = .zero D
  score : score scales = some (ofNat 100)

section Score

include laws

theorem addTerm_zero {i : Nat} (hi : i < 108) : addTerm (0 : D) (0, i) = some (0, i + 1) := by
  have hw : i < weights.length := hi
  unfold addTerm
  rw [List.getElem?_eq_getElem hw, Option.bind_eq_bind, Option.bind_some, laws.abs_zero,
    laws.double.mul_zero, laws.double.zero_add_zero]

/-- Terms that are all zero. -/
theorem terms_zero {xs : List D} (hx : ∀ x ∈ xs, x = 0) {i : Nat} (hi : i + xs.length ≤ 108) :
    xs.foldlM (fun s a => addTerm a s) ((0 : D), i) = some (0, i + xs.length) := by
  induction xs generalizing i with
  | nil => rfl
  | cons x xs ih =>
    rw [List.length_cons] at hi
    rw [List.foldlM_cons, hx x List.mem_cons_self, addTerm_zero laws (by omega), Option.bind_eq_bind,
      Option.bind_some, ih (fun y hy => hx y (List.mem_cons_of_mem _ hy)) (by omega),
      List.length_cons, Nat.add_right_comm]
    rfl

omit laws in
/-- The norms of scales without an error. -/
theorem norms_zero {scales : List (ScaleNorms D)} (h : ∀ sn ∈ scales, sn = .zero D) :
    ∀ x ∈ norms scales, x = 0 := by
  intro x hx
  obtain ⟨sc, hsc, c, j, rfl⟩ := mem_norms hx
  rw [h sc hsc]
  fin_cases j <;> rfl

/-- **The polynomial at zero.** -/
theorem weightedThenPoly_zero : weightedThenPoly (0 : D) = ofNat 100 := by
  have hd := laws.double
  unfold weightedThenPoly
  simp only [hd.zero_mul, hd.mul_zero, hd.sub_self, hd.zero_add_zero, laws.not_pos,
    Bool.false_eq_true, if_false]

/-- **Without an error the score is 100.** -/
theorem score_perfect {scales : List (ScaleNorms D)} (hne : scales ≠ []) (hlen : scales.length ≤ 6)
    (h : ∀ sn ∈ scales, sn = .zero D) : Perfect scales := by
  refine ⟨hne, h, ?_⟩
  have hbound : 0 + (norms scales).length ≤ 108 := by
    rw [norms_length]
    omega
  unfold Ssimulacra2.score
  rw [weightedSum_norms, terms_zero laws (norms_zero h) hbound, Option.map_some, Option.map_some,
    weightedThenPoly_zero laws]

end Score

/-! ## 5. The CPU engine -/

section Engine

/-- The blur of an image is an image. -/
theorem blur_images {rg : RgConst F} (hN : 1 ≤ rg.radius) (w h : Nat) :
    ∃ b : (Nat → Nat → Nat → F) → Nat → Nat → Nat → F,
      ∀ f, blurPlanesCpu (image w h f) w h rg = some (image w h (b f)) := by
  have hb (f : Nat → Nat → Nat → F) : ∃ g, blurPlanesCpu (image w h f) w h rg =
      some (image w h g) := by
    obtain ⟨out, e, hout⟩ := blurPlanesCpu_isSome rg w h hN (image_length f)
    refine ⟨fun c y x => cell out (flat w h c y x), ?_⟩
    rw [e]
    exact congrArg some (eq_image hout)
  choose b hb using hb
  exact ⟨b, hb⟩

/-- A level of an image against itself. -/
def TwinLevel (l : Level F) : Prop := l.b = l.a ∧ ∃ f, l.a = image l.w l.h f

theorem nextLevel_twin (scale : Nat) {l : Level F} (hl : TwinLevel l)
    (h8 : ¬(l.w < 8 ∨ l.h < 8)) : ∃ l', nextLevel scale l = some l' ∧ TwinLevel l' := by
  obtain ⟨eb, f, ea⟩ := hl
  unfold nextLevel
  by_cases h0 : scale > 0
  · rw [if_pos h0, eb, ea, downsampleCpu_image (by omega) (by omega)]
    exact ⟨_, rfl, rfl, _, rfl⟩
  · rw [if_neg h0]
    exact ⟨l, rfl, eb, f, ea⟩

/-- The images of a scale whose pixels are of an image against itself. -/
def TwinMaps (m : ScaleMaps F) : Prop :=
  ∀ c < 3, ∀ y < m.h, ∀ x < m.w, ∃ p, m.pixel (c * (m.w * m.h) + y * m.w + x) = some p ∧ p.Twin

/-- **The five blurred planes are three.** -/
theorem scaleMaps_twin {rg : RgConst F} (hN : 1 ≤ rg.radius) (cbrtAdd : F → F → F) {l : Level F}
    (hl : TwinLevel l) :
    ∃ m, scaleMaps (cpuOps D cbrtAdd rg) l.a l.b l.w l.h = some m ∧ TwinMaps m := by
  obtain ⟨eb, f, ea⟩ := hl
  obtain ⟨b, hb⟩ := blur_images hN l.w l.h
  have hblur : ∀ f, (cpuOps D cbrtAdd rg).blur (image l.w l.h f) l.w l.h =
      some (image l.w l.h (b f)) := hb
  have hs := scaleMaps_image hblur f f
  rw [eb, ea, hs]
  exact ⟨_, rfl, fun c hc y hy x hx => ⟨_, pixel_image _ hc hy hx, rfl, rfl, rfl, rfl⟩⟩

theorem mapsWith_twin {rg : RgConst F} (hN : 1 ≤ rg.radius) (cbrtAdd : F → F → F)
    {lin : List F} {w h : Nat} (hl : lin.length = 3 * w * h) :
    ∃ t, mapsWith (cpuOps D cbrtAdd rg) lin lin w h = some t ∧ ∀ m ∈ t, TwinMaps m := by
  refine scaleLoop_run (I := TwinLevel) (fun scale l hl h8 => ?_) 6 0 _ ⟨rfl, _, eq_image hl⟩
  obtain ⟨l', e, hl'⟩ := nextLevel_twin scale hl h8
  obtain ⟨m, em, hm⟩ := scaleMaps_twin (D := D) hN cbrtAdd hl'
  exact ⟨l', m, e, hl', em, hm⟩

include laws

/-- The pooling of an image against itself. -/
theorem poolScale_twin {m : ScaleMaps F} (hm : TwinMaps m)
    (hd : ∀ i p, m.pixel i = some p → p.denomS ≠ 0) : poolScale D m = some (.zero D) := by
  have hc (c : Nat) (hc : c < 3) : poolChannel D m c = some ((0, 0), (0, 0, 0, 0)) := by
    refine foldlM_still _ fun y hy => foldlM_still _ fun x hx => ?_
    obtain ⟨p, e, hp⟩ := hm c hc y (List.mem_range.mp hy) x (List.mem_range.mp hx)
    rw [e, Option.bind_eq_bind, Option.bind_some, twin_ssimD laws hp (hd _ p e),
      twin_edgeD1 laws hp, addSsim_zero laws, addEdge_zero laws]
  unfold poolScale
  rw [hc 0 (by decide), hc 1 (by decide), hc 2 (by decide)]
  have hv (z : (D × D) × (D × D × D × D)) (c : Fin 3) : ![z, z, z] c = z := by
    fin_cases c <;> rfl
  dsimp only [Option.bind_eq_bind, Option.bind_some]
  simp only [hv]
  exact congrArg some (norms_of_zeros laws _)

omit laws in
/-- Scales that are pooled to zeros. -/
theorem mapM_zero {t : List (ScaleMaps F)} (h : ∀ m ∈ t, poolScale D m = some (.zero D)) :
    t.mapM (poolScale D) = some (List.replicate t.length (.zero D)) := by
  induction t with
  | nil => rfl
  | cons m t ih =>
    rw [List.mapM_cons, h m List.mem_cons_self, ih fun m' hm => h m' (List.mem_cons_of_mem _ hm)]
    rfl

/-- **The CPU engine on an image against itself**: no error at any pixel of any scale, norms that
    are all zero, and a score of 100. -/
theorem cpu_identity {rg : RgConst F} (hrg : createRecursiveGaussian F (F64.lit 1.5 : D) = some rg)
    (hN : 1 ≤ rg.radius) (cbrtAdd : F → F → F) {lin : List F} {w h : Nat} (hw : 8 ≤ w) (hh : 8 ≤ h)
    (hl : lin.length = 3 * w * h)
    (hd : ∀ t, mapsWith (cpuOps D cbrtAdd rg) lin lin w h = some t →
      ∀ m ∈ t, ∀ i p, m.pixel i = some p → p.denomS ≠ 0) :
    ∃ t scales, mapsWith (cpuOps D cbrtAdd rg) lin lin w h = some t ∧
      (∀ m ∈ t, ∀ c < 3, ∀ y < m.h, ∀ x < m.w, ∃ p,
        m.pixel (c * (m.w * m.h) + y * m.w + x) = some p ∧ p.ssimD D = 0 ∧ p.edgeD1 D = 0) ∧
      computeSsimulacra2Cpu D cbrtAdd lin lin w h = some scales ∧ scales.length = t.length ∧
      Perfect scales := by
  obtain ⟨t, ht, htwin⟩ := mapsWith_twin (D := D) hN cbrtAdd hl
  have hnone := hd t ht
  have hpool := mapM_zero fun m hm => poolScale_twin laws (htwin m hm) (hnone m hm)
  have hne : t ≠ [] := by
    refine scaleLoop_ne_nil (fun h8 => ?_) ht
    rcases h8 with h8 | h8
    · exact absurd hw (Nat.not_le.mpr h8)
    · exact absurd hh (Nat.not_le.mpr h8)
  have hlen : t.length ≤ 6 := scaleLoop_length ht
  refine ⟨t, List.replicate t.length (.zero D), ht, ?_, ?_, List.length_replicate, ?_⟩
  · intro m hm c hc y hy x hx
    obtain ⟨p, e, hp⟩ := htwin m hm c hc y hy x hx
    exact ⟨p, e, twin_ssimD laws hp (hnone m hm _ p e), twin_edgeD1 laws hp⟩
  · unfold computeSsimulacra2Cpu
    rw [hrg, Option.bind_eq_bind, Option.bind_some, computeWith_maps, ht]
    exact hpool
  · refine score_perfect laws ?_ ?_ fun sn hsn => List.eq_of_mem_replicate hsn
    · rw [ne_eq, List.replicate_eq_nil_iff, List.length_eq_zero_iff]
      exact hne
    · rw [List.length_replicate]
      exact hlen

end Engine

end Ssimulacra2
