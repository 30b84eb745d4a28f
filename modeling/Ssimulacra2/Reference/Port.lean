/-
  File:      Ssimulacra2/Reference/Port.lean
  Subject:   From decoded planes to the score, the CPU engine is the reference metric.

  The front ends blend and linearise sample by sample (`start_tracks`); with the scale loop
  (`Agree`) and the sums of the score (`score_norms`) both programs build one value.
-/
import Ssimulacra2.Reference.Agree

namespace Ssimulacra2.Reference

open Cells

variable {F : Type} {D : Type} [F32 F]

/-! ## 1. The front end -/

/-- An alpha plane as a vector. -/
def alphaPlane (w h : Nat) (a : Nat → Nat → F) : List F :=
  (List.range (w * h)).map fun i => a (i / w) (i % w)

/-- **Both programs decoded the same image.** -/
structure SameImage (d : Decoded F) (io : ImageBundle F) : Prop where
  xsize : io.color.xsize = d.w
  ysize : io.color.ysize = d.h
  color : d.srgb = image d.w d.h io.color.row
  alpha : d.alpha = io.alpha.map fun a => alphaPlane d.w d.h a.row

/-- The step of `alpha_blend` at entry `i` of the alpha plane and channel `c`. -/
def blendStep (n : Nat) (alpha : Nat → F) (bg : F) (i c : Nat) (out : List F) : List F :=
  out.modify (c * n + i) fun v => blendSample (alpha i) v bg

section AlphaBlend

variable (w h : Nat) (f : Nat → Nat → Nat → F) (a : Nat → Nat → F) (bg : F)

omit [F32 F] in
theorem zipIdx_alphaPlane :
    (alphaPlane w h a).zipIdx = (List.range (w * h)).map fun i => (a (i / w) (i % w), i) := by
  refine List.ext_getElem? fun i => ?_
  rw [List.getElem?_zipIdx, List.getElem?_map]
  unfold alphaPlane
  rw [List.getElem?_map, Option.map_map]
  rcases Nat.lt_or_ge i (w * h) with hi | hi
  · rw [List.getElem?_range hi, Option.map_some, Option.map_some, Function.comp_apply, Nat.zero_add]
  · rw [List.getElem?_eq_none (by rw [List.length_range]; exact hi)]
    rfl

/-- The loop never fails: it stays inside the three planes. -/
theorem alphaBlend_loop :
    Ssimulacra2.alphaBlend (image w h f) (alphaPlane w h a) bg (w * h) =
      some (forCells (w * h) 3 (blendStep (w * h) (fun i => a (i / w) (i % w)) bg) (image w h f)) := by
  unfold Ssimulacra2.alphaBlend
  rw [zipIdx_alphaPlane, List.foldlM_map]
  refine foldlM_forCells (P := fun out => out.length = 3 * (w * h)) (fun i hi c hc out hout => ?_)
    (by rw [image_length, Nat.mul_assoc])
  have hp : c * (w * h) + i < out.length := by
    have hle : c * (w * h) ≤ 2 * (w * h) := Nat.mul_le_mul_right _ (by omega)
    omega
  refine ⟨?_, (List.length_modify _ _ _).trans hout⟩
  dsimp only
  rw [List.getElem?_eq_getElem hp, Option.bind_eq_bind, Option.bind_some,
    writeAt_some _ (Int.natCast_nonneg _) (by exact_mod_cast hp), Int.toNat_natCast]
  unfold blendStep
  rw [List.modify_eq_set_getElem?, List.getElem?_eq_getElem hp]
  rfl

/-- **`alpha_blend` rewrites every sample once.** -/
theorem alphaBlend_image :
    Ssimulacra2.alphaBlend (image w h f) (alphaPlane w h a) bg (w * h) =
      some (image w h fun c y x => blendSample (a y x) (f c y x) bg) := by
  have hlength : (forCells (w * h) 3 (blendStep (w * h) (fun i => a (i / w) (i % w)) bg)
      (image w h f)).length = 3 * w * h :=
    forCells_keeps (P := fun out : List F => out.length = 3 * w * h)
      (fun _ _ _ hout => (List.length_modify _ _ _).trans hout) (w * h) 3 (image_length f)
  rw [alphaBlend_loop]
  refine congrArg some (image_ext hlength (image_length _) fun c hc y hy x hx => ?_)
  have hview := forCells_view (fun (out : List F) i c => out[c * (w * h) + i]?)
    (blendStep (w * h) (fun i => a (i / w) (i % w)) bg)
    (fun i _ v => v.map fun v => blendSample (a (i / w) (i % w)) v bg)
    (fun i c out => List.getElem?_modify_eq _ _ _)
    -- the planes do not overlap
    (fun i c i' c' out hi hi' hne => List.getElem?_modify_ne _ _ (by
      obtain ⟨hi, hc⟩ := hi
      obtain ⟨hi', hc'⟩ := hi'
      interval_cases c <;> interval_cases c' <;> omega)) (image w h f) (inPlane_lt hy hx) hc
  rw [flat_eq_planes, hview, ← flat_eq_planes, image_getElem f hc hy hx, image_getElem _ hc hy hx,
    Option.map_some, inPlane_div hx, inPlane_mod hx]

end AlphaBlend

theorem toLinear_image (w h : Nat) (f : Nat → Nat → Nat → F) :
    toLinear (image w h f) = image w h fun c y x => srgbToLinear (f c y x) := by
  unfold toLinear image
  rw [List.map_map]
  rfl

/-- **The functions of libjxl are those of the port**: the transfer of a sample, which the port also
    tabulates for the bytes, the conversion of a pixel, and the blur of a plane. -/
structure CommonFunctions [F64 D] [Convert F D] (cbrtAdd : F → F → F) (rg : RgConst F) (L : Lib F D) :
    Prop where
  transfer : L.transfer = srgbToLinear
  table : ∀ b : UInt8, lutEntry linearizeLut (byteSample b : F) = some (L.transfer (byteSample b))
  toXyb : L.toXyb = xybPixel D cbrtAdd
  kernel : createRecursiveGaussian F (F64.lit 1.5 : D) = some rg
  radius : 1 ≤ rg.radius
  gaussian : L.gaussian = blurPlane rg

section FrontEnd

variable [F64 D] [Convert F D] {cbrtAdd : F → F → F} {rg : RgConst F} {L : Lib F D}
  (hL : CommonFunctions cbrtAdd rg L)

include hL

/-- The bytes of an image without alpha, through the table. -/
theorem CommonFunctions.toLinear8bit (bs : List UInt8) :
    toLinear8bit (bs.map byteSample : List F) linearizeLut = some (toLinear (bs.map byteSample)) := by
  refine toLinear8bit_of_table (fun b => ?_) bs
  rw [← hL.transfer]
  exact hL.table b

/-- **The linear planes of an image**, in both programs. -/
theorem front_shows {d : Decoded F} {io : ImageBundle F} (hd : d.OnGrid) (h : SameImage d io)
    (bg : F) :
    ∃ f, linearizeFrontEnd d bg (d.w * d.h) = some (image d.w d.h f) ∧
      Shows (transformTo L (io.alpha.elim io.color fun a => alphaBlend io.color a bg)) d.w d.h f := by
  have hcolor : Shows io.color d.w d.h io.color.row := ⟨h.xsize, h.ysize, fun _ _ _ _ _ _ => rfl⟩
  cases ha : io.alpha with
  | none =>
    have hnone : d.alpha = none := by rw [h.alpha, ha, Option.map_none]
    obtain ⟨bs, hbs, -⟩ := hd.samples
    refine ⟨fun c y x => srgbToLinear (io.color.row c y x), ?_, ?_⟩
    · unfold linearizeFrontEnd
      rw [hnone]
      dsimp only
      rw [hbs, hL.toLinear8bit, ← hbs, h.color, toLinear_image]
    · rw [← hL.transfer]
      exact transformTo_shows L hcolor
  | some a =>
    have hsome : d.alpha = some (alphaPlane d.w d.h a.row) := by rw [h.alpha, ha, Option.map_some]
    refine ⟨fun c y x => srgbToLinear (blendSample (a.row y x) (io.color.row c y x) bg), ?_, ?_⟩
    · unfold linearizeFrontEnd
      rw [hsome]
      dsimp only
      rw [h.color, alphaBlend_image, Option.map_some, toLinear_image]
    · rw [← hL.transfer]
      exact transformTo_shows L (alphaBlend_shows hcolor a bg)

/-- **The state before the loop.** -/
theorem start_tracks {a b : Decoded F} {io1 io2 : ImageBundle F} (ha : a.OnGrid) (hb : b.OnGrid)
    (h1 : SameImage a io1) (h2 : SameImage b io2) (hw : a.w = b.w) (hh : a.h = b.h) (bg : F) :
    ∃ l1 l2 f g, linearizeFrontEnd a bg (a.w * a.h) = some l1 ∧
      linearizeFrontEnd b bg (a.w * a.h) = some l2 ∧
      Tracks L (start L io1 io2 bg) ⟨l1, l2, a.w, a.h⟩ f g := by
  obtain ⟨f, hf, hsf⟩ := front_shows hL ha h1 bg
  obtain ⟨g, hg, hsg⟩ := front_shows hL hb h2 bg
  rw [← hw, ← hh] at hg hsg
  exact ⟨_, _, f, g, hf, hg, rfl, rfl, hsf, hsg, makePositiveXyb_shows L hsf h1.xsize h1.ysize,
    makePositiveXyb_shows L hsg h1.xsize h1.ysize⟩

/-- The callees of a scale. -/
theorem CommonFunctions.common (hround : ∀ x : F, (narrow (ofNat 1 - widen x : D) : F) = ofNat 1 - x) :
    Common L (cpuOps D cbrtAdd rg) where
  pixel := hL.toXyb.symm
  blur w h f := by
    rw [hL.gaussian]
    exact blurPlanesCpu_planes hL.radius w h f
  plane w h p q hpq := by
    rw [hL.gaussian]
    exact blurPlane_congr rg hpq
  round := hround

end FrontEnd

/-! ## 2. The score -/

section Score

variable [F64 D]

/-- **The sums of the score**, with the running index into the weights. -/
theorem weightedNorms_port (scales : List (MsssimScale D)) :
    (weightedNorms scales).map Prod.fst = weightedSum (scales.map MsssimScale.norms) := by
  let terms (c : Fin 3) (s : D × Nat) (sc : MsssimScale D) : Option (D × Nat) :=
    (List.finRange 2).foldlM (fun s n => do
      let s ← addTerm (sc.norms.avgSsim ⟨c.val * 2 + n.val, by omega⟩) s
      let s ← addTerm (sc.norms.avgEdgediff ⟨c.val * 4 + n.val, by omega⟩) s
      addTerm (sc.norms.avgEdgediff ⟨c.val * 4 + n.val + 2, by omega⟩) s) s
  have hport : weightedSum (scales.map MsssimScale.norms) =
      ((List.finRange 3).foldlM (fun s c => scales.foldlM (terms c) s) ((0 : D), 0)).map Prod.fst := by
    unfold weightedSum
    simp only [List.foldlM_map]
    exact Option.map_eq_bind.symm
  have hreference : weightedNorms scales =
      (List.finRange 3).foldlM (fun s c => scales.foldlM (terms c) s) ((0 : D), 0) :=
    congrArg (fun body => (List.finRange 3).foldlM body ((0 : D), 0)) (funext fun s => funext fun c =>
      foldlM_range_getElem? (terms c) scales s)
  rw [hport, hreference]

/-- **The score** of any number of scales. -/
theorem score_port (scales : List (MsssimScale D)) :
    score scales = Ssimulacra2.score (scales.map MsssimScale.norms) := by
  unfold Ssimulacra2.score
  rw [← weightedNorms_port, Option.map_map]
  rfl

end Score

/-! ## 3. The command -/

section Command

variable [F64 D] [Convert F D] {cbrtAdd : F → F → F} {rg : RgConst F} {L : Lib F D}
  {a b : Decoded F} {io1 io2 : ImageBundle F}

/-- **Both programs have the same scales** over a background: as many, of the same sizes, and with
    the same norms. `l1`, `l2` are the linear planes of the port, `ms` its pooled images. -/
structure SameScales (cbrtAdd : F → F → F) (rg : RgConst F) (L : Lib F D) (a b : Decoded F)
    (io1 io2 : ImageBundle F) (bg : F) (l1 l2 : List F) (ms : List (ScaleMaps F)) : Prop where
  lin1 : linearizeFrontEnd a bg (a.w * a.h) = some l1
  lin2 : linearizeFrontEnd b bg (a.w * a.h) = some l2
  pooled : mapsWith (cpuOps D cbrtAdd rg) l1 l2 a.w a.h = some ms
  sizes : ms.map (fun m => (m.w, m.h)) = scaleSizes L kNumScales 0 (start L io1 io2 bg)
  norms : computeSsimulacra2Cpu D cbrtAdd l1 l2 a.w a.h =
    some ((computeSSIMULACRA2 L io1 io2 bg).map MsssimScale.norms)

/-- **Over every background** both programs have the same scales. -/
theorem same_scales (hL : CommonFunctions cbrtAdd rg L)
    (hround : ∀ x : F, (narrow (ofNat 1 - widen x : D) : F) = ofNat 1 - x) (ha : a.OnGrid)
    (hb : b.OnGrid) (h1 : SameImage a io1) (h2 : SameImage b io2) (hw : a.w = b.w) (hh : a.h = b.h)
    (bg : F) : ∃ l1 l2 ms, SameScales cbrtAdd rg L a b io1 io2 bg l1 l2 ms := by
  obtain ⟨l1, l2, f, g, e1, e2, htracks⟩ := start_tracks hL ha hb h1 h2 hw hh bg
  obtain ⟨ms, scs, hmaps, hsizes, hpool, hscales⟩ :=
    scaleLoop_tracks (hL.common hround) kNumScales 0 htracks
  refine ⟨l1, l2, ms, e1, e2, hmaps, hsizes, ?_⟩
  have hnorms : computeSSIMULACRA2 L io1 io2 bg = scs := hscales.trans (List.nil_append scs)
  unfold computeSsimulacra2Cpu
  rw [hL.kernel, Option.bind_eq_bind, Option.bind_some, computeWith_maps, hnorms]
  exact (congrArg (Option.bind · _) hmaps).trans hpool

section Pair

variable {bg : F} {l1 l2 : List F} {ms : List (ScaleMaps F)}
  (h : SameScales cbrtAdd rg L a b io1 io2 bg l1 l2 ms)

include h

/-- There are weights for every scale. -/
theorem SameScales.score_some : ∃ s, score (computeSSIMULACRA2 L io1 io2 bg) = some s := by
  rw [score_port]
  refine score_answers ?_
  obtain ⟨rg', -, hrun⟩ := Option.bind_eq_some_iff.mp h.norms
  exact scaleLoop_length hrun

/-- A pair over a background, on the CPU. -/
theorem SameScales.scorePair (E : Env F) :
    scorePair D E cbrtAdd a b bg none =
      (score (computeSSIMULACRA2 L io1 io2 bg)).map fun s => (s, none) := by
  have hscales : pipeline D E cbrtAdd l1 l2 a.w a.h none =
      some ((computeSSIMULACRA2 L io1 io2 bg).map MsssimScale.norms, none) := by
    unfold pipeline
    dsimp only
    rw [h.norms, Option.map_some]
  rw [score_port]
  unfold Ssimulacra2.scorePair
  rw [h.lin1, h.lin2]
  show (pipeline D E cbrtAdd l1 l2 a.w a.h none).bind _ = _
  rw [hscales]
  exact Option.map_eq_bind.symm

end Pair

/-- **From decoded planes to the score, the CPU engine is the reference metric**: over every
    background the scales are the same, a list of scales has the same score, and the commands answer
    the same. -/
theorem port_is_reference (hL : CommonFunctions cbrtAdd rg L)
    (hround : ∀ x : F, (narrow (ofNat 1 - widen x : D) : F) = ofNat 1 - x) (ha : a.OnGrid)
    (hb : b.OnGrid) (h1 : SameImage a io1) (h2 : SameImage b io2) (hw : a.w = b.w) (hh : a.h = b.h) :
    (∀ bg, ∃ l1 l2 ms, SameScales cbrtAdd rg L a b io1 io2 bg l1 l2 ms) ∧
    (∀ scales : List (MsssimScale D),
      score scales = Ssimulacra2.score (scales.map MsssimScale.norms)) ∧
    ∀ E : Env F, ∃ s, scoreImages D E cbrtAdd a b none = some (s, none) ∧ main L io1 io2 = some s := by
  have hscales := same_scales hL hround ha hb h1 h2 hw hh
  have halpha : a.alpha.isSome = io1.alpha.isSome := by rw [h1.alpha, Option.isSome_map]
  refine ⟨hscales, score_port, fun E => ?_⟩
  have hpair (bg : F) : ∃ s, scorePair D E cbrtAdd a b bg none = some (s, none) ∧
      score (computeSSIMULACRA2 L io1 io2 bg) = some s := by
    obtain ⟨l1, l2, ms, hsame⟩ := hscales bg
    obtain ⟨s, hs⟩ := hsame.score_some
    exact ⟨s, by rw [hsame.scorePair E, hs, Option.map_some], hs⟩
  unfold scoreImages main
  cases hsome : io1.alpha with
  | none =>
    rw [halpha, hsome]
    exact hpair _
  | some al =>
    rw [halpha, hsome]
    obtain ⟨s0, hp0, hs0⟩ := hpair (F32.lit 0.1)
    obtain ⟨s1, hp1, hs1⟩ := hpair (F32.lit 0.9)
    refine ⟨F64.min s0 s1, ?_, ?_⟩
    · show (scorePair D E cbrtAdd a b _ none).bind _ = _
      rw [hp0]
      show ((scorePair D E cbrtAdd a b _ none).bind _) = _
      rw [hp1]
      rfl
    · rw [if_neg (by simp), hs0, hs1]
      rfl

end Command

/-- The image, as the port decodes it. -/
def ImageBundle.decoded (io : ImageBundle F) : Decoded F :=
  ⟨io.color.xsize, io.color.ysize, image io.color.xsize io.color.ysize io.color.row,
    io.alpha.map fun a => alphaPlane io.color.xsize io.color.ysize a.row⟩

omit [F32 F] in
theorem ImageBundle.sameImage (io : ImageBundle F) : SameImage io.decoded io := ⟨rfl, rfl, rfl, rfl⟩

/-- A diagonal ramp of bytes, and a coverage that grows from left to right. -/
def ramp (transparent : Bool) : ImageBundle F :=
  ⟨⟨17, 9, fun c y x => byteSample (UInt8.ofNat (c + y + x))⟩,
    if transparent then some ⟨17, 9, fun _ x => byteSample (UInt8.ofNat x)⟩ else none⟩

theorem ramp_onGrid (transparent : Bool) : (ramp transparent : ImageBundle F).decoded.OnGrid where
  samples := by
    refine ⟨(List.range (3 * 17 * 9)).map fun j =>
      UInt8.ofNat (j / (17 * 9) + j % (17 * 9) / 17 + j % 17), ?_, ?_⟩
    · rw [List.map_map]
      rfl
    · rw [List.length_map, List.length_range]
      rfl
  alpha a ha := by
    cases transparent with
    | false => cases ha
    | true =>
      cases ha
      exact (List.length_map _).trans List.length_range

/-- The functions of the port, as a libjxl without rounding; new memory is zero. -/
noncomputable def exactLib (rg : RgConst ℝ) : Lib ℝ ℝ where
  transfer := srgbToLinear
  toXyb := xybPixel ℝ cbrtAddExact
  gaussian := blurPlane rg
  fresh _ _ _ := 0
  freshScale := ⟨fun _ => 0, fun _ => 0⟩

/-- A transparent original of two scales, and the opaque image. -/
theorem port_is_reference_ramp : ∃ rg : RgConst ℝ, ∀ E : Env ℝ, ∃ s : ℝ,
    scoreImages ℝ E cbrtAddExact (ramp true).decoded (ramp false).decoded none = some (s, none) ∧
    main (exactLib rg) (ramp true) (ramp false) = some s := by
  obtain ⟨beta, hrg, -, -⟩ := gaussian_kernel
  have hL : CommonFunctions cbrtAddExact (derived 5 (by decide) beta)
      (exactLib (derived 5 (by decide) beta)) :=
    ⟨rfl, fun b => exactBinary32.lutEntry_byteValue b.toNat_lt, rfl, hrg, show 1 ≤ 5 by decide, rfl⟩
  exact ⟨_, (port_is_reference hL (fun _ => rfl) (ramp_onGrid true) (ramp_onGrid false)
    (ramp true).sameImage (ramp false).sameImage rfl rfl).2.2⟩

end Ssimulacra2.Reference
