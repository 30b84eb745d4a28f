/-
  File:      Ssimulacra2/Vulkan/SelfComparison.lean
  Subject:   An image compared with itself: a score of 100 on every engine.

  The laws of the arithmetic and a denominator that is nowhere zero are all the theorem assumes;
  over exact arithmetic both are facts (`exact_laws`, `regular_exact`).
-/
import Ssimulacra2.Ssim
import Ssimulacra2.Vulkan.Engines
import Ssimulacra2.Vulkan.Identity

namespace Ssimulacra2

open Lists

/-! ## 1. Settled results -/

section Results

variable {F : Type} {D : Type} [F32 F] [F64 D] [Convert F D]

/-- The result of an engine: `P` of its answer, or a refusal that `served` excludes. -/
def Settles {α : Type} (P : α → Prop) (served : Prop) (r : Except GpuErr α) : Prop :=
  (∃ a, r = .ok a ∧ P a) ∨ Refused r ∧ ¬served

/-- What the engines need besides an image: the constants of the blur, and grids for `N` samples. -/
def Served (D : Type) [F64 D] [Convert F D] (E : Env F) (N : Nat) : Prop :=
  (createRecursiveGaussian F (F64.lit 1.5 : D)).isSome ∧ Denote.Fits E N

variable {E : Env F} {f : Launches F} {N w h : Nat} {lin : List F}

/-- A program that meets a value settles on what holds of the value. -/
theorem settles_of_meets {α : Type} (hc : Computes D E f N) {m : Env F → Gpu F α} {v : Option α}
    {P : α → Prop} {served : Prop} (hP : ∀ x, v = some x → P x) (hserved : served → v.isSome)
    (hm : ∀ sched junk (s : Sys F), s.Valid → s.openCmd = none →
      Meets id E.kernel 0 [] s v (fun _ a x => a = x) (m (E.on sched junk))) :
    Always D E N m (Settles P served) := by
  have hall := always_of_meets hc hm
  intro sched junk c hr hn
  cases hv : v with
  | some x => exact Or.inl ⟨x, hall.1 x hv sched junk c hr hn, hP x hv⟩
  | none =>
    refine Or.inr ⟨hall.2 hv sched junk c hr hn, fun hs => ?_⟩
    have hsome := hserved hs
    rw [hv] at hsome
    cases hsome

/-- A batch is answered when its single shots are. -/
theorem scoreBatch_isSome {variants : List (List F)}
    (h0 : (Denote.compute D E f lin lin w h).isSome)
    (hv : ∀ v ∈ variants, (Denote.compute D E f lin v w h).isSome) :
    (Denote.scoreBatch D E f lin w h variants).isSome := by
  cases hps : Denote.prep D E f lin w h with
  | none =>
    rw [Denote.compute_comparePrep, hps, Option.bind_none] at h0
    cases h0
  | some ps =>
    cases hm : variants.mapM fun v => Denote.comparePrep D E f ps v w h with
    | some outs =>
      unfold Denote.scoreBatch
      rw [hps, Option.bind_eq_bind, Option.bind_some, hm]
      rfl
    | none =>
      obtain ⟨v, hmem, hnone⟩ := mapM_none hm
      have hsome := hv v hmem
      rw [Denote.compute_comparePrep, hps, Option.bind_some, hnone] at hsome
      cases hsome

end Results

/-! ## 2. Exact arithmetic -/

section Exact

open Finset (Ioo)

theorem exact_ring32 : @RingLaws ℝ exactF32.toRingOps exactF32.toDiv where
  sub_self x := sub_self x
  one_sub_zero := sub_zero _
  one_mul x := by rw [exact_ofNat32, Nat.cast_one]; exact one_mul x
  two_mul x := by rw [exact_ofNat32]; exact two_mul x
  div_self x hx := by rw [exact_ofNat32, Nat.cast_one]; exact div_self hx
  zero_add_zero := add_zero _
  zero_mul x := zero_mul x
  mul_zero x := mul_zero x
  neg_zero := neg_zero

theorem exact_ring64 : @RingLaws ℝ exactF64.toRingOps exactF64.toDiv where
  sub_self x := sub_self x
  one_sub_zero := sub_zero _
  one_mul x := by rw [exact_ofNat64, Nat.cast_one]; exact one_mul x
  two_mul x := by rw [exact_ofNat64]; exact two_mul x
  div_self x hx := by rw [exact_ofNat64, Nat.cast_one]; exact div_self hx
  zero_add_zero := add_zero _
  zero_mul x := zero_mul x
  mul_zero x := mul_zero x
  neg_zero := neg_zero

/-- **Exact arithmetic obeys the laws.** -/
theorem exact_laws : SelfLaws ℝ ℝ where
  single := exact_ring32
  double := exact_ring64
  max_zero32 := max_self _
  max_zero64 := max_self _
  abs_zero := abs_zero
  sqrt_zero := Real.sqrt_zero
  widen_zero := rfl
  widen_one := rfl
  widen_ne _ h := h
  narrow_zero := rfl
  narrow_one := rfl
  one_add_abs t := by
    rw [exact_ofNat64, Nat.cast_one, exact_widen, exact_abs32]
    exact (add_pos_of_pos_of_nonneg one_pos (abs_nonneg t)).ne'
  not_pos := decide_eq_false (lt_irrefl (0 : ℝ))

variable {E : Env ℝ} {f : Launches ℝ} {N : Nat} (hc : Computes ℝ E f N)
  (hr : RunsShaders ℝ E cbrtAddExact N)

/-- Samples in the unit interval. -/
def UnitImage (a : List ℝ) (w h : Nat) : Prop :=
  ∃ g : Nat → Nat → Nat → ℝ, (∀ c y x, 0 ≤ g c y x ∧ g c y x ≤ 1) ∧ a = image w h g

/-- The pixels of sound images have a denominator that is not zero. -/
theorem SoundMaps.denomS_ne {m : ScaleMaps ℝ} (hm : SoundMaps m) (hl : m.x1.length = 3 * m.w * m.h)
    {i : Nat} {v : Pixel ℝ} (hv : m.pixel i = some v) : v.denomS ≠ 0 := by
  have hi : i < 3 * m.w * m.h := by
    obtain ⟨_, -, hv⟩ := Option.bind_eq_some_iff.mp hv
    obtain ⟨_, -, hv⟩ := Option.bind_eq_some_iff.mp hv
    obtain ⟨_, -, hv⟩ := Option.bind_eq_some_iff.mp hv
    obtain ⟨_, -, hv⟩ := Option.bind_eq_some_iff.mp hv
    obtain ⟨_, -, hv⟩ := Option.bind_eq_some_iff.mp hv
    obtain ⟨_, hx1, -⟩ := Option.bind_eq_some_iff.mp hv
    obtain ⟨hlt, -⟩ := List.getElem?_eq_some_iff.mp hx1
    omega
  obtain ⟨c, y, x, hc, hy, hx, rfl⟩ := exists_flat hi
  obtain ⟨p, hp, hs⟩ := hm c hc y hy x hx
  rw [flat_eq_planes, ← Nat.add_assoc, hp] at hv
  cases hv
  exact (kC2_pos.trans_le hs.denomS_ge).ne'

/-- Every scale of the CPU engine is sound, and its images are full. -/
theorem mapsWith_full {beta : Fin 3 → ℝ}
    (hn : ∀ m ∈ Ioo (-((5 : Nat) : Int)) ((5 : Nat) : Int), 0 ≤ kernel 5 beta m)
    (hm : ∑ m ∈ Ioo (-((5 : Nat) : Int)) ((5 : Nat) : Int), kernel 5 beta m = 1) {lin : List ℝ}
    {w h : Nat} (hl : UnitLevel ⟨lin, lin, w, h⟩) {t : List (ScaleMaps ℝ)}
    (ht : mapsWith (cpuOps ℝ cbrtAddExact (derived 5 (by decide) beta)) lin lin w h = some t) :
    ∀ m ∈ t, SoundMaps m ∧ m.x1.length = 3 * m.w * m.h := by
  have hN : 1 ≤ (derived 5 (by decide) beta).radius := show 1 ≤ 5 by decide
  have hexp := derived_expanded 5 (by decide) beta
  have hstep (scale : Nat) (l : Level ℝ) (hl : UnitLevel l) (_ : ¬(l.w < 8 ∨ l.h < 8)) :
      ∃ l' m, nextLevel scale l = some l' ∧ UnitLevel l' ∧
        scaleMaps (cpuOps ℝ cbrtAddExact (derived 5 (by decide) beta)) l'.a l'.b l'.w l'.h = some m ∧
        (SoundMaps m ∧ m.x1.length = 3 * m.w * m.h) := by
    obtain ⟨l', e, hl'⟩ := nextLevel_unit scale hl
    obtain ⟨m, em, hsound⟩ := scaleMaps_sound (by decide) (by decide) hn hm.le hl'
    obtain ⟨-, -, g1, g2, -, -, ea, eb⟩ := id hl'
    have hround := scaleMaps_round hN hexp cbrtAddExact l'.w l'.h g1 g2
    rw [← ea, ← eb] at hround
    cases Option.some.inj (em.symm.trans hround)
    exact ⟨l', _, e, hl', em, hsound, image_length _⟩
  obtain ⟨t', ht', hall⟩ := scaleLoop_run hstep 6 0 _ hl
  cases Option.some.inj (ht.symm.trans ht')
  exact hall

include hc hr

section Kernel

variable {beta : Fin 3 → ℝ}
  (hn : ∀ m ∈ Ioo (-((5 : Nat) : Int)) ((5 : Nat) : Int), 0 ≤ kernel 5 beta m)
  (hm : ∑ m ∈ Ioo (-((5 : Nat) : Int)) ((5 : Nat) : Int), kernel 5 beta m = 1)

include hn hm

/-- A round of the preparation leaves sound images. -/
theorem prepRound_sound {a : List ℝ} {w h : Nat} (hw : 1 ≤ w) (hh : 1 ≤ h) (hb : 3 * w * h ≤ N)
    (ha : UnitImage a w h) {p : Denote.Prep ℝ}
    (hp : Denote.prepRound E f (derived 5 (by decide) beta) a w h = some p) :
    SoundMaps (Denote.twinMaps p) ∧ (Denote.twinMaps p).x1.length = 3 * p.w * p.h := by
  obtain ⟨g, hg, rfl⟩ := ha
  have hN : 1 ≤ (derived 5 (by decide) beta).radius := show 1 ≤ 5 by decide
  have hexp := derived_expanded 5 (by decide) beta
  obtain ⟨x, hx, hp⟩ := Option.bind_eq_some_iff.mp hp
  obtain ⟨m, hm', hp⟩ := Option.bind_eq_some_iff.mp hp
  obtain ⟨s, hs, hp⟩ := Option.bind_eq_some_iff.mp hp
  obtain ⟨mu, hmu, hp⟩ := Option.bind_eq_some_iff.mp hp
  cases launch_xyb hc hr hb g hx
  cases launch_mul hc hr hb _ _ hm'
  cases launch_blur hc hr hN hexp hw hh hb _ hs
  cases launch_blur hc hr hN hexp hw hh hb _ hmu
  cases hp
  have hl : UnitLevel ⟨image w h g, image w h g, w, h⟩ := ⟨hw, hh, g, g, hg, hg, rfl, rfl⟩
  obtain ⟨m, em, hsound⟩ := scaleMaps_sound (by decide) (by decide) hn hm.le hl
  have hround := scaleMaps_round hN hexp cbrtAddExact w h g g
  cases Option.some.inj (em.symm.trans hround)
  exact ⟨hsound, image_length _⟩

omit hn hm in
/-- The next image of the preparation. -/
theorem halved1_unit {a b : List ℝ} {w h cw ch : Nat} (hw : 1 ≤ w) (hh : 1 ≤ h)
    (hb : 3 * w * h ≤ N) (ha : UnitImage a w h) {scale : Nat}
    (hs : Denote.halved1 E f scale a w h = some (b, cw, ch)) :
    UnitImage b cw ch ∧ 1 ≤ cw ∧ 1 ≤ ch ∧ 3 * cw * ch ≤ N := by
  unfold Denote.halved1 at hs
  by_cases h0 : scale > 0
  · rw [if_pos h0] at hs
    obtain ⟨d, hd, hs⟩ := Option.bind_eq_some_iff.mp hs
    obtain ⟨g, hg, rfl⟩ := ha
    cases launch_downsample hc hr hw hh hb g hd
    cases hs
    exact ⟨⟨_, boxSample_mem hg, rfl⟩, by omega, by omega, halved_bound hb⟩
  · rw [if_neg h0] at hs
    cases hs
    exact ⟨ha, hw, hh, hb⟩

/-- Every scale of the preparation is sound, by induction on the rounds to go. -/
theorem prepLoop_sound (left scale : Nat) {a : List ℝ} {w h : Nat} (hw : 1 ≤ w) (hh : 1 ≤ h)
    (hb : 3 * w * h ≤ N) (ha : UnitImage a w h) {acc ps : List (Denote.Prep ℝ)}
    (hacc : ∀ p ∈ acc, SoundMaps (Denote.twinMaps p) ∧
      (Denote.twinMaps p).x1.length = 3 * p.w * p.h)
    (hps : Denote.prepLoop E f (derived 5 (by decide) beta) left scale a w h acc = some ps) :
    ∀ p ∈ ps, SoundMaps (Denote.twinMaps p) ∧
      (Denote.twinMaps p).x1.length = 3 * p.w * p.h := by
  induction left generalizing scale a w h acc with
  | zero =>
    cases hps
    exact hacc
  | succ left ih =>
    unfold Denote.prepLoop at hps
    by_cases h8 : w < 8 ∨ h < 8
    · rw [if_pos h8] at hps
      cases hps
      exact hacc
    · rw [if_neg h8] at hps
      obtain ⟨⟨b, cw, ch⟩, hhalf, hps⟩ := Option.bind_eq_some_iff.mp hps
      obtain ⟨p, hp, hps⟩ := Option.bind_eq_some_iff.mp hps
      obtain ⟨hbu, hcw, hch, hcb⟩ := halved1_unit hc hr hw hh hb ha hhalf
      refine ih (scale + 1) hcw hch hcb hbu (fun q hq => ?_) hps
      rcases List.mem_append.mp hq with hq | hq
      · exact hacc q hq
      · rw [List.mem_singleton.mp hq]
        exact prepRound_sound hc hr hn hm hcw hch hcb hbu hp

end Kernel

/-- **Without rounding no denominator is zero.** -/
theorem regular_exact {lin : List ℝ} {w h : Nat} (hw : 1 ≤ w) (hh : 1 ≤ h) (hb : 3 * w * h ≤ N)
    (hl : lin.length = 3 * w * h) (h01 : ∀ v ∈ lin, 0 ≤ v ∧ v ≤ 1) :
    Denote.Regular E f ℝ lin w h := by
  intro ps hps p hp i v hv
  obtain ⟨beta, hrg, hn, hm⟩ := gaussian_kernel
  have hu : UnitImage lin w h := ⟨_, fun c y x => cell_unit h01 (flat w h c y x), eq_image hl⟩
  unfold Denote.prep Denote.sized at hps
  rw [if_pos hl, hrg] at hps
  obtain ⟨hs, hlen⟩ := prepLoop_sound hc hr hn hm 6 0 hw hh hb hu
    (fun q hq => absurd hq List.not_mem_nil) hps p hp
  exact hs.denomS_ne hlen hv

end Exact

/-! ## 3. Every engine -/

section Engines

variable {F : Type} {D : Type} [F32 F] [F64 D] [Convert F D] {w h : Nat} {lin : List F}

/-- **Comparing an image with itself scores exactly 100 on every engine.** `RingLaws` and
    `SelfLaws` are all that is known of the arithmetic. On the CPU: no error at any pixel of any
    channel and scale, norms that are all zero, and a score of 100. On a GPU whose
    `maps_combine` runs its shader: two zero maps at every scale, and the same norms and score from
    the single shot and from the batch, at every place of the original among the variants. -/
theorem self_comparison (laws : SelfLaws F D) (hw : 8 ≤ w) (hh : 8 ≤ h)
    (hl : lin.length = 3 * w * h) :
    (∀ cbrtAdd rg, createRecursiveGaussian F (F64.lit 1.5 : D) = some rg → 1 ≤ rg.radius →
      (∀ t, mapsWith (cpuOps D cbrtAdd rg) lin lin w h = some t →
        ∀ m ∈ t, ∀ i p, m.pixel i = some p → p.denomS ≠ 0) →
      ∃ t scales, mapsWith (cpuOps D cbrtAdd rg) lin lin w h = some t ∧
        (∀ m ∈ t, ∀ c < 3, ∀ y < m.h, ∀ x < m.w, ∃ p,
          m.pixel (c * (m.w * m.h) + y * m.w + x) = some p ∧ p.ssimD D = 0 ∧ p.edgeD1 D = 0) ∧
        computeSsimulacra2Cpu D cbrtAdd lin lin w h = some scales ∧ scales.length = t.length ∧
        Perfect scales) ∧
    ∀ (E : Env F) (f : Launches F) (N : Nat), Computes D E f N → f.CombinesMaps D →
      3 * w * h ≤ N → Denote.Regular E f D lin w h →
      (∀ rg ps, createRecursiveGaussian F (F64.lit 1.5 : D) = some rg →
        Denote.prep D E f lin w h = some ps → ∀ p ∈ ps, ∀ both,
          Denote.compareMaps E f rg p p = some both → both = Denote.zeroMaps p.w p.h) ∧
      Always D E N (fun E => computeSsimulacra2Gpu E D lin lin w h)
        (Settles Perfect (Served D E N)) ∧
      ∀ variants : List (List F), Always D E N (fun E => scoreBatchGpu E D lin w h variants)
        (Settles (fun outs : List (List (ScaleNorms D)) => outs.length = variants.length ∧
          ∀ (i : Nat) scales, variants[i]? = some lin → outs[i]? = some scales → Perfect scales)
          (Served D E N ∧ ∀ v ∈ variants, v.length = 3 * w * h)) := by
  refine ⟨fun cbrtAdd rg hrg hN hd => cpu_identity laws hrg hN cbrtAdd hw hh hl hd, ?_⟩
  intro E f N hc hmaps hb hd
  have hcw := hc.mono hb
  have hperfect : ∀ t, Denote.compute D E f lin lin w h = some t → Perfect t := fun t ht =>
    Denote.compute_perfect laws hmaps hw hh hd ht
  have hfits (hs : Served D E N) {v : List F} (hv : v.length = 3 * w * h) :
      (Denote.compute D E f lin v w h).isSome := by
    obtain ⟨t, ht⟩ := Denote.compute_fits (f := f) hs.2 hb hs.1 hl hv
    rw [ht]
    rfl
  refine ⟨fun rg ps hrg hps p hp both hboth => ?_, ?_, fun variants => ?_⟩
  · exact Denote.compareMaps_twin laws hmaps ((Denote.prep_scales hw hh hrg hps).1 p hp)
      (hd ps hps p hp) hboth
  · exact settles_of_meets hc hperfect (fun hs => hfits hs hl) fun sched junk s hs ho =>
      computeSsimulacra2Gpu_meets hs ho lin lin w h (hcw.on sched junk)
  · refine settles_of_meets (v := Denote.scoreBatch D E f lin w h variants) hc (fun outs hb => ?_)
      (fun hs => ?_) fun sched junk s hs ho =>
        (scoreBatchGpu_meets hs ho lin w h variants (hcw.on sched junk)).congr (by rw [scoreBatch_on])
    · have hall := Denote.scoreBatch_some E f lin w h hb
      exact ⟨hall.length_eq.symm, fun i scales hi ho =>
        hperfect scales (forall₂_getElem? hall hi ho)⟩
    · exact scoreBatch_isSome (hfits hs.1 hl) fun v hv => hfits hs.1 (hs.2 v hv)

/-- The device that runs the shaders runs `maps_combine`. -/
theorem shading_combines (cbrtAdd : F → F → F) :
    ((shading D cbrtAdd).launches D).CombinesMaps D := by
  intro n x1 x2 mu1 mu2 s11 s22 s12 sd ed hl
  have hs : sd.length = 3 * n := hl sd (by simp)
  have he : ed.length = 3 * n := hl ed (by simp)
  have hl7 : ∀ xs ∈ [x1, x2, mu1, mu2, s11, s22, s12], xs.length = 3 * n := fun xs hxs =>
    hl xs (List.mem_append_left [sd, ed] hxs)
  have hv (i : Nat) (hi : i < 3 * n) :=
    pixel_cells (m := ⟨n, 1, x1, x2, s11, s22, s12, mu1, mu2⟩) hl7 hi
  rw [maps_runs (shading_computes cbrtAdd (3 * n)) (shading_runs cbrtAdd (3 * n)) le_rfl hl7 hv,
    Shader.cover_maps hv hs he]

/-- A ramp against itself, without rounding: on the CPU, on the device that runs the shaders, and as
    the second and third of a batch of variants. -/
theorem self_comparison_ramps :
    let E := shading ℝ cbrtAddExact
    let lin := ramp 1
    (∃ t, computeSsimulacra2Cpu ℝ cbrtAddExact lin lin 8 8 = some t ∧ Perfect t) ∧
    (∃ t, (computeSsimulacra2Gpu E ℝ lin lin 8 8 (.fresh ℝ)).result = .ok t ∧ Perfect t) ∧
    ∃ t t' t'', (scoreBatchGpu E ℝ lin 8 8 [ramp (1 / 2), lin, lin] (.fresh ℝ)).result =
      .ok [t, t', t''] ∧ Perfect t' ∧ Perfect t'' := by
  intro E lin
  have hc : Computes ℝ E (E.launches ℝ) 192 := shading_computes _ 192
  have hr : RunsShaders ℝ E cbrtAddExact 192 := shading_runs _ 192
  have hl : lin.length = 3 * 8 * 8 := ramp_length 1
  have h01 : ∀ v ∈ lin, 0 ≤ v ∧ v ≤ 1 := ramp_unit zero_le_one le_rfl
  clear_value lin
  have hreg : Denote.Regular E (E.launches ℝ) ℝ lin 8 8 :=
    regular_exact hc hr (by decide) (by decide) le_rfl hl h01
  have hE : E.Healthy := fun _ => rfl
  have hf : Denote.Fits E 192 := shading_fits _ (by decide)
  obtain ⟨hcpu, hgpu⟩ := self_comparison exact_laws (w := 8) (h := 8) le_rfl le_rfl hl
  obtain ⟨beta, hrg, hn, hm'⟩ := gaussian_kernel
  have hserved : Served ℝ E 192 := ⟨by rw [hrg]; rfl, hf⟩
  obtain ⟨-, hsingle, hbatch⟩ := hgpu E _ 192 hc (shading_combines _) le_rfl hreg
  refine ⟨?_, ?_, ?_⟩
  · have hu : UnitLevel ⟨lin, lin, 8, 8⟩ := ⟨show 1 ≤ 8 by decide, show 1 ≤ 8 by decide, _, _,
      fun c y x => cell_unit h01 (flat 8 8 c y x), fun c y x => cell_unit h01 (flat 8 8 c y x),
      eq_image hl, eq_image hl⟩
    obtain ⟨_, t, -, -, ht, -, hp⟩ := hcpu cbrtAddExact _ hrg (show 1 ≤ 5 by decide)
      fun t ht m hm _ _ hp => (mapsWith_full hn hm' hu ht m hm).1.denomS_ne
        (mapsWith_full hn hm' hu ht m hm).2 hp
    exact ⟨t, ht, hp⟩
  · have hn := noFault_of_emits (computeSsimulacra2Gpu_fine (D := ℝ) hE lin lin 8 8) (.fresh ℝ)
    rcases hsingle E.sched E.junk (.fresh ℝ) .fresh hn with h | ⟨-, h⟩
    · exact h
    · exact absurd hserved h
  · have hn := noFault_of_emits
      (scoreBatchGpu_fine (D := ℝ) hE lin 8 8 [ramp (1 / 2), lin, lin]) (.fresh ℝ)
    rcases hbatch [ramp (1 / 2), lin, lin] E.sched E.junk (.fresh ℝ) .fresh hn with
      ⟨outs, e, hlen, hall⟩ | ⟨-, h⟩
    · match outs, hlen with
      | [t, t', t''], _ => exact ⟨t, t', t'', e, hall 1 t' rfl rfl, hall 2 t'' rfl rfl⟩
    · refine absurd ⟨hserved, fun v hv => ?_⟩ h
      simp only [List.mem_cons, List.not_mem_nil, or_false] at hv
      rcases hv with rfl | rfl | rfl
      · exact ramp_length _
      · exact hl
      · exact hl

end Engines

end Ssimulacra2
