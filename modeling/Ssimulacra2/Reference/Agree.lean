/-
  File:      Ssimulacra2/Reference/Agree.lean
  Subject:   From decoded planes to the score, the CPU engine is the reference metric.

  `Shows img w h f` reads an image of the reference as the samples `f`; every pass of the reference
  shows what the vectors of the port hold (`Images`). `Tracks` relates the images that live across
  the scales to a level of the port, a round keeps it (`round_tracks`), and so does the loop.
-/
import Ssimulacra2.Blur.Plane
import Ssimulacra2.Png.Neutral
import Ssimulacra2.Reference.Metric

namespace Ssimulacra2.Reference

open Cells Lists

variable {F : Type} {D : Type}

/-! ## 1. Images -/

/-- **The image shows the samples `f`.** -/
structure Shows (img : Image3F F) (w h : Nat) (f : Nat → Nat → Nat → F) : Prop where
  xsize : img.xsize = w
  ysize : img.ysize = h
  row : ∀ c < 3, ∀ y < h, ∀ x < w, img.row c y x = f c y x

theorem Shows.congr {img : Image3F F} {w h : Nat} {f g : Nat → Nat → Nat → F} (hf : Shows img w h f)
    (hfg : ∀ c < 3, ∀ y < h, ∀ x < w, f c y x = g c y x) : Shows img w h g :=
  ⟨hf.xsize, hf.ysize, fun c hc y hy x hx => (hf.row c hc y hy x hx).trans (hfg c hc y hy x hx)⟩

/-- **A pass that rewrites every sample** from what it was. -/
theorem forSamples_shows (g : Nat → Nat → Nat → F → F) {src img : Image3F F} {w h : Nat}
    {f : Nat → Nat → Nat → F} (hw : src.xsize = w) (hh : src.ysize = h) (hi : Shows img w h f) :
    Shows (forSamples src (fun c y x img => img.store c y x (g c y x (img.row c y x))) img) w h
      fun c y x => g c y x (f c y x) := by
  have hflat : forSamples src (fun c y x img => img.store c y x (g c y x (img.row c y x))) img =
      (List.product (List.range 3) (List.product (List.range h) (List.range w))).foldl
        (fun s p => s.store p.1 p.2.1 p.2.2 (g p.1 p.2.1 p.2.2 (s.row p.1 p.2.1 p.2.2))) img := by
    unfold forSamples
    rw [hw, hh]
    simp only [forCells_product]
    conv => right; unfold List.product
    rw [List.foldl_flatMap]
    simp only [List.foldl_map]
    rfl
  have hnodup : (List.product (List.range 3) (List.product (List.range h) (List.range w))).Nodup :=
    List.nodup_range.product (List.nodup_range.product List.nodup_range)
  have hsize : (forSamples src (fun c y x img => img.store c y x (g c y x (img.row c y x)))
      img).xsize = w ∧ (forSamples src (fun c y x img => img.store c y x (g c y x (img.row c y x)))
      img).ysize = h := by
    rw [hflat]
    exact List.foldlRecOn (motive := fun s : Image3F F => s.xsize = w ∧ s.ysize = h) _ _ ⟨hi.xsize, hi.ysize⟩
      fun s hs p _ => hs
  refine ⟨hsize.1, hsize.2, fun c hc y hy x hx => ?_⟩
  have hmem : (c, y, x) ∈ List.product (List.range 3) (List.product (List.range h) (List.range w)) :=
    List.mem_product.mpr ⟨List.mem_range.mpr hc,
      List.mem_product.mpr ⟨List.mem_range.mpr hy, List.mem_range.mpr hx⟩⟩
  have hrow := (foldl_view (fun (s : Image3F F) (p : Nat × Nat × Nat) => s.row p.1 p.2.1 p.2.2)
    (fun p s => s.store p.1 p.2.1 p.2.2 (g p.1 p.2.1 p.2.2 (s.row p.1 p.2.1 p.2.2)))
    (fun p => g p.1 p.2.1 p.2.2) (S := fun _ => True) (fun p _ s => if_pos ⟨rfl, rfl, rfl⟩)
    (fun p q _ _ hne s => if_neg fun e => hne (Prod.ext e.1 (Prod.ext e.2.1 e.2.2))) hnodup
    (fun _ _ => trivial) img (j := (c, y, x)) trivial).1 hmem
  rw [hflat]
  exact hrow.trans (congrArg _ (hi.row c hc y hy x hx))

/-- The three samples of a pixel. -/
def Image3F.pixel (img : Image3F F) (y x : Nat) : F × F × F := (img.row 0 y x, img.row 1 y x, img.row 2 y x)

/-- **A pass that rewrites every pixel** from what it was. -/
theorem forCells_shows {body : Nat → Nat → Image3F F → Image3F F}
    (g : Nat → Nat → F × F × F → F × F × F)
    (hsize : ∀ y x s, (body y x s).xsize = s.xsize ∧ (body y x s).ysize = s.ysize)
    (hself : ∀ y x s, (body y x s).pixel y x = g y x (s.pixel y x))
    (hother : ∀ y x y' x' s, ¬(y' = y ∧ x' = x) → (body y x s).pixel y' x' = s.pixel y' x')
    {img : Image3F F} {w h : Nat} (hw : img.xsize = w) (hh : img.ysize = h) :
    Shows (forCells h w body img) w h fun c y x => component (g y x (img.pixel y x)) c := by
  have hkeep : (forCells h w body img).xsize = w ∧ (forCells h w body img).ysize = h :=
    forCells_keeps (P := fun s => s.xsize = w ∧ s.ysize = h) (fun y x s hs =>
      ⟨(hsize y x s).1.trans hs.1, (hsize y x s).2.trans hs.2⟩) h w ⟨hw, hh⟩
  refine ⟨hkeep.1, hkeep.2, fun c hc y hy x hx => ?_⟩
  have hpixel := forCells_view Image3F.pixel body g hself
    (fun y x y' x' s _ _ => hother y x y' x' s) img hy hx
  rw [← hpixel]
  have hc3 : c = 0 ∨ c = 1 ∨ c = 2 := by omega
  rcases hc3 with rfl | rfl | rfl <;> rfl

/-! ## 2. The passes -/

section Passes

variable (L : Lib F D) {img mul : Image3F F} {w h : Nat} {f g : Nat → Nat → Nat → F}

theorem transformTo_shows (hi : Shows img w h f) :
    Shows (transformTo L img) w h fun c y x => L.transfer (f c y x) :=
  forSamples_shows (fun _ _ _ v => L.transfer v) hi.xsize hi.ysize hi

/-- The blur of an image, over a blur that sees the samples of its plane only. -/
theorem blur_shows (hg : ∀ p q : Nat → Nat → F, (∀ y < h, ∀ x < w, p y x = q y x) →
    L.gaussian w h p = L.gaussian w h q) (hi : Shows img w h f) :
    Shows (blur L img) w h fun c => L.gaussian w h (f c) := by
  refine ⟨hi.xsize, hi.ysize, fun c hc y _ x _ => ?_⟩
  unfold blur
  dsimp only
  rw [if_pos hc, hi.xsize, hi.ysize, hg _ _ (hi.row c hc)]

variable [F32 F]

theorem multiply_shows {a b : Image3F F} (ha : Shows a w h f) (hb : Shows b w h g)
    (hw : mul.xsize = w) (hh : mul.ysize = h) :
    Shows (multiply a b mul) w h fun c y x => f c y x * g c y x := by
  refine (forSamples_shows (fun c y x _ => a.row c y x * b.row c y x) ha.xsize ha.ysize
    (f := mul.row) ⟨hw, hh, fun _ _ _ _ _ _ => rfl⟩).congr fun c hc y hy x hx => ?_
  rw [ha.row c hc y hy x hx, hb.row c hc y hy x hx]

theorem boxSum_eq (hi : Shows img w h f) (h1 : 1 ≤ w) (h2 : 1 ≤ h) {c : Nat} (hc : c < 3)
    (oy ox : Nat) : boxSum img 2 2 c oy ox * F32.lit 0.25 = boxSample w h f c oy ox := by
  have hrow (y x : Nat) : img.row c (min y (h - 1)) (min x (w - 1)) =
      f c (min y (h - 1)) (min x (w - 1)) := hi.row c hc _ (by omega) _ (by omega)
  have hr : List.range 2 = [0, 1] := by decide
  unfold boxSum boxSample forCells
  rw [hi.xsize, hi.ysize, hr]
  simp only [List.foldl_cons, List.foldl_nil, hrow]

theorem downsample_shows (hi : Shows img w h f) (h1 : 1 ≤ w) (h2 : 1 ≤ h) :
    Shows (downsample L img 2 2) ((w + 1) / 2) ((h + 1) / 2) (boxSample w h f) := by
  have hquarter : (1 / (2 * 2 : Nat) : ℚ) = 0.25 := by norm_num
  have hout : Shows (newImage L ((w + 1) / 2) ((h + 1) / 2)) ((w + 1) / 2) ((h + 1) / 2) L.fresh :=
    ⟨rfl, rfl, fun _ _ _ _ _ _ => rfl⟩
  unfold downsample
  rw [hi.xsize, hi.ysize, hquarter]
  refine (forSamples_shows (fun c oy ox _ => boxSum img 2 2 c oy ox * F32.lit 0.25) rfl rfl
    hout).congr fun c hc oy _ ox _ => boxSum_eq hi h1 h2 hc oy ox

/-- The conversion of an image, and the rescale. -/
theorem makePositiveXyb_shows (hi : Shows img w h f) (hw : mul.xsize = w) (hh : mul.ysize = h) :
    Shows (makePositiveXyb (toXyb L img mul)) w h (xybSample L.toXyb f) := by
  have hxyb : Shows (toXyb L img mul) w h fun c y x =>
      component (L.toXyb (img.row 0 y x) (img.row 1 y x) (img.row 2 y x)) c := by
    unfold toXyb
    rw [hi.xsize, hi.ysize]
    refine forCells_shows (fun y x _ => L.toXyb (img.row 0 y x) (img.row 1 y x) (img.row 2 y x))
      (fun y x s => ?_) (fun y x s => ?_) (fun y x y' x' s hne => ?_) hw hh
    · exact ⟨rfl, rfl⟩
    · simp [Image3F.pixel, Image3F.store]
    · simp [Image3F.pixel, Image3F.store, hne]
  have hpos : Shows (makePositiveXyb (toXyb L img mul)) w h fun c y x =>
      component (positiveXyb ((toXyb L img mul).pixel y x)) c := by
    unfold makePositiveXyb
    rw [hxyb.xsize, hxyb.ysize]
    refine forCells_shows (fun y x p => positiveXyb p) (fun y x s => ?_) (fun y x s => ?_)
      (fun y x y' x' s hne => ?_) hxyb.xsize hxyb.ysize
    · exact ⟨rfl, rfl⟩
    · simp [Image3F.pixel, Image3F.store, positiveXyb]
    · simp [Image3F.pixel, Image3F.store, hne]
  refine hpos.congr fun c hc y hy x hx => ?_
  have hpixel : (toXyb L img mul).pixel y x = L.toXyb (f 0 y x) (f 1 y x) (f 2 y x) := by
    unfold Image3F.pixel
    rw [hxyb.row 0 (by decide) y hy x hx, hxyb.row 1 (by decide) y hy x hx,
      hxyb.row 2 (by decide) y hy x hx, hi.row 0 (by decide) y hy x hx,
      hi.row 1 (by decide) y hy x hx, hi.row 2 (by decide) y hy x hx]
    rfl
  rw [hpixel]
  rfl

/-- A sample over the background. -/
def blendSample (a v bg : F) : F := a * v + (ofNat 1 - a) * bg

theorem alphaBlend_shows (hi : Shows img w h f) (a : ImageF F) (bg : F) :
    Shows (alphaBlend img a bg) w h fun c y x => blendSample (a.row y x) (f c y x) bg := by
  have hblend : Shows (alphaBlend img a bg) w h fun c y x =>
      component (blendSample (a.row y x) (img.pixel y x).1 bg,
        blendSample (a.row y x) (img.pixel y x).2.1 bg,
        blendSample (a.row y x) (img.pixel y x).2.2 bg) c := by
    unfold alphaBlend
    rw [hi.xsize, hi.ysize]
    refine forCells_shows (fun y x p => (blendSample (a.row y x) p.1 bg,
      blendSample (a.row y x) p.2.1 bg, blendSample (a.row y x) p.2.2 bg))
      (fun y x s => ?_) (fun y x s => ?_) (fun y x y' x' s hne => ?_) hi.xsize hi.ysize
    · exact ⟨rfl, rfl⟩
    · simp [Image3F.pixel, Image3F.store, blendSample]
    · simp [Image3F.pixel, Image3F.store, hne]
  refine hblend.congr fun c hc y hy x hx => ?_
  have hc3 : c = 0 ∨ c = 1 ∨ c = 2 := by omega
  rcases hc3 with rfl | rfl | rfl
  · exact congrArg (blendSample (a.row y x) · bg) (hi.row 0 hc y hy x hx)
  · exact congrArg (blendSample (a.row y x) · bg) (hi.row 1 hc y hy x hx)
  · exact congrArg (blendSample (a.row y x) · bg) (hi.row 2 hc y hy x hx)

end Passes

/-! ## 3. The maps -/

section Maps

variable [F32 F] [F64 D] [Convert F D]

/-- The values at one pixel of the seven images. -/
def pixelAt (s : ScaleImages F) (c y x : Nat) : Pixel F :=
  ⟨s.x1 c y x, s.x2 c y x, s.s11 c y x, s.s22 c y x, s.s12 c y x, s.mu1 c y x, s.mu2 c y x⟩

/-- The two sums of the error map of channel `c`. -/
def ssimSums (D : Type) [F64 D] [Convert F D] (s : ScaleImages F) (w h c : Nat) : D × D :=
  forCells h w (fun y x sum => addSsim sum ((pixelAt s c y x).ssimD D)) (0, 0)

/-- The four sums of the edge map of channel `c`. -/
def edgeSums (D : Type) [F64 D] [Convert F D] (s : ScaleImages F) (w h c : Nat) : D × D × D × D :=
  forCells h w (fun y x sum => addEdge sum ((pixelAt s c y x).edgeD1 D)) (0, 0, 0, 0)

/-- The norms of a scale from its sums. -/
def scaleNorms (D : Type) [F64 D] [Convert F D] (s : ScaleImages F) (w h : Nat) : ScaleNorms D :=
  ⟨channels2 fun c => ssimAverages (ofNat 1 / ofNat (w * h)) (ssimSums D s w h c),
    channels4 fun c => edgeAverages (ofNat 1 / ofNat (w * h)) (edgeSums D s w h c)⟩

/-- **The fused loop of the port** computes the sums of both maps. -/
theorem poolScale_sums (s : ScaleImages F) (w h : Nat) :
    poolScale D (s.maps w h) = some (scaleNorms D s w h) := by
  have hchannel (c : Nat) (hc : c < 3) : poolChannel D (s.maps w h) c =
      some (ssimSums D s w h c, edgeSums D s w h c) := by
    have hloop := foldlM_forCells (h := h) (w := w) (f := fun y x (t : (D × D) × (D × D × D × D)) => do
        let p ← (s.maps w h).pixel (c * (w * h) + y * w + x)
        some (addSsim t.1 (p.ssimD D), addEdge t.2 (p.edgeD1 D)))
      (g := fun y x t => (addSsim t.1 ((pixelAt s c y x).ssimD D),
        addEdge t.2 ((pixelAt s c y x).edgeD1 D)))
      (P := fun _ => True) (fun y hy x hx t _ => ⟨by rw [pixel_image s hc hy hx]; rfl, trivial⟩)
      (s := ((0, 0), (0, 0, 0, 0))) trivial
    have hpair := forCells_pair h w
      (fun y x (t : D × D) => addSsim t ((pixelAt s c y x).ssimD D))
      (fun y x (t : D × D × D × D) => addEdge t ((pixelAt s c y x).edgeD1 D)) (0, 0) (0, 0, 0, 0)
    exact hloop.trans (congrArg some hpair)
  unfold poolScale
  rw [hchannel 0 (by decide), hchannel 1 (by decide), hchannel 2 (by decide)]
  rfl

omit [F64 D] in
/-- The stores of the averages of the error map. -/
theorem foldl_channels2 (f : Fin 3 → D × D) (init : Fin 6 → D) :
    (List.finRange 3).foldl (fun averages (c : Fin 3) =>
      Function.update (Function.update averages (ssimSlot c 0) (f c).1)
        (ssimSlot c 1) (f c).2) init = channels2 f := by
  funext i
  fin_cases i <;> rfl

omit [F64 D] in
/-- The stores of the averages of the edge map. -/
theorem foldl_channels4 (f : Fin 3 → D × D × D × D) (init : Fin 12 → D) :
    (List.finRange 3).foldl (fun averages (c : Fin 3) =>
      Function.update (Function.update (Function.update (Function.update averages
        (edgeSlot c 0) (f c).1) (edgeSlot c 1) (f c).2.1)
        (edgeSlot c 2) (f c).2.2.1) (edgeSlot c 3) (f c).2.2.2) init =
      channels4 f := by
  funext i
  fin_cases i <;> rfl

/-- The seven images of a scale, as the reference holds them. -/
structure ShowsScale (s : ScaleImages F) (w h : Nat) (x1 x2 s11 s22 s12 mu1 mu2 : Image3F F) :
    Prop where
  x1 : Shows x1 w h s.x1
  x2 : Shows x2 w h s.x2
  s11 : Shows s11 w h s.s11
  s22 : Shows s22 w h s.s22
  s12 : Shows s12 w h s.s12
  mu1 : Shows mu1 w h s.mu1
  mu2 : Shows mu2 w h s.mu2

section Sums

variable {s : ScaleImages F} {w h : Nat} {x1 x2 s11 s22 s12 mu1 mu2 : Image3F F}
  (hs : ShowsScale s w h x1 x2 s11 s22 s12 mu1 mu2)

include hs

/-- **The error map.** Only the rounding of `num_m` differs from the port. -/
theorem ssimMap_sums (hround : ∀ x : F, (narrow (ofNat 1 - widen x : D) : F) = ofNat 1 - x)
    (init : Fin 6 → D) : ssimMap mu1 mu2 s11 s22 s12 init = (scaleNorms D s w h).avgSsim := by
  have herror {c y x : Nat} (hc : c < 3) (hy : y < h) (hx : x < w) :
      ssimError D (mu1.row c y x) (mu2.row c y x) (s11.row c y x) (s22.row c y x) (s12.row c y x) =
        (pixelAt s c y x).ssimD D := by
    rw [hs.mu1.row c hc y hy x hx, hs.mu2.row c hc y hy x hx, hs.s11.row c hc y hy x hx,
      hs.s22.row c hc y hy x hx, hs.s12.row c hc y hy x hx]
    unfold ssimError numM
    rw [hround]
    rfl
  have hsums (c : Fin 3) : forCells h w (fun y x (sum : D × D) =>
      let d := ssimError D (mu1.row c y x) (mu2.row c y x) (s11.row c y x) (s22.row c y x)
        (s12.row c y x)
      (sum.1 + d, sum.2 + Reference.tothe4th d)) (0, 0) = ssimSums D s w h c :=
    forCells_congr (fun y hy x hx sum => by
      dsimp only
      rw [herror c.isLt hy hx]
      rfl) _
  unfold ssimMap
  rw [hs.mu1.xsize, hs.mu1.ysize, Nat.mul_comm h w]
  simp only [hsums]
  exact foldl_channels2 (fun c => ssimAverages (ofNat 1 / ofNat (w * h)) (ssimSums D s w h c)) init

/-- **The edge map.** -/
theorem edgeDiffMap_sums (init : Fin 12 → D) :
    edgeDiffMap x1 mu1 x2 mu2 init = (scaleNorms D s w h).avgEdgediff := by
  have hedge {c y x : Nat} (hc : c < 3) (hy : y < h) (hx : x < w) :
      edgeDiff D (x1.row c y x) (mu1.row c y x) (x2.row c y x) (mu2.row c y x) =
        (pixelAt s c y x).edgeD1 D := by
    rw [hs.mu1.row c hc y hy x hx, hs.mu2.row c hc y hy x hx, hs.x1.row c hc y hy x hx,
      hs.x2.row c hc y hy x hx]
    rfl
  have hsums (c : Fin 3) : forCells h w (fun y x (sum : D × D × D × D) =>
      let d1 : D := edgeDiff D (x1.row c y x) (mu1.row c y x) (x2.row c y x) (mu2.row c y x)
      let artifact := F64.max d1 0
      let detail_lost := F64.max (-d1) 0
      (sum.1 + artifact, sum.2.1 + Reference.tothe4th artifact, sum.2.2.1 + detail_lost,
        sum.2.2.2 + Reference.tothe4th detail_lost)) (0, 0, 0, 0) = edgeSums D s w h c :=
    forCells_congr (fun y hy x hx sum => by
      dsimp only
      rw [hedge c.isLt hy hx]
      rfl) _
  unfold edgeDiffMap
  rw [hs.x1.xsize, hs.x1.ysize, Nat.mul_comm h w]
  simp only [hsums]
  exact foldl_channels4 (fun c => edgeAverages (ofNat 1 / ofNat (w * h)) (edgeSums D s w h c)) init

end Sums

end Maps

/-! ## 4. The scale loop -/

/-- The norms of a scale, as the port stores them. -/
def MsssimScale.norms (s : MsssimScale D) : ScaleNorms D := ⟨s.avgSsim, s.avgEdgediff⟩

section Loop

variable [F32 F] [F64 D] [Convert F D]

/-- **The state of the reference at a level of the port**: the two linear images, and their
    conversions. -/
structure Tracks (L : Lib F D) (s : State F D) (l : Level F) (f g : Nat → Nat → Nat → F) : Prop where
  a : l.a = image l.w l.h f
  b : l.b = image l.w l.h g
  orig2 : Shows s.orig2 l.w l.h f
  dist2 : Shows s.dist2 l.w l.h g
  img1 : Shows s.img1 l.w l.h (xybSample L.toXyb f)
  img2 : Shows s.img2 l.w l.h (xybSample L.toXyb g)

/-- The callees of the port's scale are the functions of libjxl. -/
structure Common (L : Lib F D) (ops : ScaleOps F) : Prop where
  pixel : ops.pixel = L.toXyb
  blur : ∀ w h f, ops.blur (image w h f) w h = some (image w h fun c => L.gaussian w h (f c))
  plane : ∀ w h (p q : Nat → Nat → F), (∀ y < h, ∀ x < w, p y x = q y x) →
    L.gaussian w h p = L.gaussian w h q
  round : ∀ x : F, (narrow (ofNat 1 - widen x : D) : F) = ofNat 1 - x

variable {L : Lib F D} {ops : ScaleOps F} {s : State F D} {l : Level F} {f g : Nat → Nat → Nat → F}

omit [F64 D] [Convert F D] in
/-- Halving. -/
theorem halve_tracks (h : Tracks L s l f g) (h8 : ¬(l.w < 8 ∨ l.h < 8)) {scale : Nat}
    (hscale : 0 < scale) :
    ∃ l' f' g', nextLevel scale l = some l' ∧ Tracks L (halve L s) l' f' g' := by
  have ho := downsample_shows L h.orig2 (by omega) (by omega)
  have hd := downsample_shows L h.dist2 (by omega) (by omega)
  refine ⟨⟨image ((l.w + 1) / 2) ((l.h + 1) / 2) (boxSample l.w l.h f),
    image ((l.w + 1) / 2) ((l.h + 1) / 2) (boxSample l.w l.h g), (l.w + 1) / 2, (l.h + 1) / 2⟩,
    boxSample l.w l.h f, boxSample l.w l.h g, ?_, rfl, rfl, ho, hd, ?_, ?_⟩
  · unfold nextLevel
    rw [if_pos hscale, h.a, h.b, downsampleCpu_image (by omega) (by omega),
      downsampleCpu_image (by omega) (by omega)]
    rfl
  · exact makePositiveXyb_shows L ho ho.xsize ho.ysize
  · exact makePositiveXyb_shows L hd ho.xsize ho.ysize

/-- **The passes of a scale.** -/
theorem measure_tracks (hc : Common L ops) (h : Tracks L s l f g) :
    Tracks L (measure L s) l f g ∧
    ∃ m sc, scaleMaps ops l.a l.b l.w l.h = some m ∧ (m.w, m.h) = (s.img1.xsize, s.img1.ysize) ∧
      poolScale D m = some sc.norms ∧ (measure L s).scales = s.scales ++ [sc] := by
  have hsize : (s.mul.shrinkTo s.img1.xsize s.img1.ysize).xsize = l.w ∧
      (s.mul.shrinkTo s.img1.xsize s.img1.ysize).ysize = l.h := ⟨h.img1.xsize, h.img1.ysize⟩
  have m11 := multiply_shows h.img1 h.img1 hsize.1 hsize.2
  have m22 := multiply_shows h.img2 h.img2 m11.xsize m11.ysize
  have m12 := multiply_shows h.img1 h.img2 m22.xsize m22.ysize
  have hs : ShowsScale (scaleImages ops.pixel (fun f c => L.gaussian l.w l.h (f c)) f g) l.w l.h
      s.img1 s.img2 _ _ _ _ _ :=
    ⟨hc.pixel ▸ h.img1, hc.pixel ▸ h.img2, hc.pixel ▸ blur_shows L (hc.plane l.w l.h) m11,
      hc.pixel ▸ blur_shows L (hc.plane l.w l.h) m22, hc.pixel ▸ blur_shows L (hc.plane l.w l.h) m12,
      hc.pixel ▸ blur_shows L (hc.plane l.w l.h) h.img1,
      hc.pixel ▸ blur_shows L (hc.plane l.w l.h) h.img2⟩
  refine ⟨⟨h.a, h.b, h.orig2, h.dist2, h.img1, h.img2⟩,
    (scaleImages ops.pixel (fun f c => L.gaussian l.w l.h (f c)) f g).maps l.w l.h, ⟨_, _⟩, ?_, ?_,
    ?_, rfl⟩
  · rw [h.a, h.b]
    exact scaleMaps_image (hc.blur l.w l.h) f g
  · exact Prod.ext h.img1.xsize.symm h.img1.ysize.symm
  · rw [poolScale_sums]
    unfold MsssimScale.norms
    rw [ssimMap_sums hs hc.round, edgeDiffMap_sums hs]

/-- **A round** of the reference is a round of the port. -/
theorem round_tracks (hc : Common L ops) (h : Tracks L s l f g) (h8 : ¬(l.w < 8 ∨ l.h < 8))
    (scale : Nat) :
    ∃ l' f' g', nextLevel scale l = some l' ∧ Tracks L (round L scale s) l' f' g' ∧
    ∃ m sc, scaleMaps ops l'.a l'.b l'.w l'.h = some m ∧
      (m.w, m.h) = ((round L scale s).img1.xsize, (round L scale s).img1.ysize) ∧
      poolScale D m = some sc.norms ∧ (round L scale s).scales = s.scales ++ [sc] := by
  unfold round
  by_cases h0 : scale ≠ 0
  · rw [if_pos h0]
    obtain ⟨l', f', g', hl, hhalf⟩ := halve_tracks h h8 (Nat.pos_of_ne_zero h0)
    obtain ⟨htracks, hmeasure⟩ := measure_tracks hc hhalf
    exact ⟨l', f', g', hl, htracks, hmeasure⟩
  · rw [if_neg h0, not_not.mp h0]
    obtain ⟨htracks, hmeasure⟩ := measure_tracks hc h
    exact ⟨l, f, g, nextLevel_zero l, htracks, hmeasure⟩

/-- **The loop**, by induction on the rounds to go: the maps of the port have the sizes of the
    reference, and their norms are its scales. -/
theorem scaleLoop_tracks (hc : Common L ops) (left scale : Nat) {s : State F D} {l : Level F}
    {f g : Nat → Nat → Nat → F} (h : Tracks L s l f g) :
    ∃ ms scs, Ssimulacra2.scaleLoop (fun l => scaleMaps ops l.a l.b l.w l.h) left scale l [] = some ms ∧
      ms.map (fun m => (m.w, m.h)) = scaleSizes L left scale s ∧
      ms.mapM (poolScale D) = some (scs.map MsssimScale.norms) ∧
      (scaleLoop L left scale s).scales = s.scales ++ scs := by
  induction left generalizing scale s l f g with
  | zero => exact ⟨[], [], rfl, rfl, rfl, (List.append_nil _).symm⟩
  | succ left ih =>
    have hsize : (s.img1.xsize < 8 ∨ s.img1.ysize < 8) ↔ (l.w < 8 ∨ l.h < 8) := by
      rw [h.img1.xsize, h.img1.ysize]
    unfold scaleSizes scaleLoop
    by_cases h8 : l.w < 8 ∨ l.h < 8
    · rw [if_pos (hsize.mpr h8), if_pos (hsize.mpr h8), scaleLoop_break _ _ _ _ h8]
      exact ⟨[], [], rfl, rfl, rfl, (List.append_nil _).symm⟩
    · obtain ⟨l', f', g', hl, htracks, m, sc, hm, hwh, hpool, hscales⟩ := round_tracks hc h h8 scale
      obtain ⟨ms, scs, hrun, hsizes, hpools, hrest⟩ := ih (scale + 1) htracks
      rw [if_neg (mt hsize.mp h8), if_neg (mt hsize.mp h8), scaleLoop_succ _ _ _ _ h8, hl]
      refine ⟨m :: ms, sc :: scs, ?_, ?_, ?_, ?_⟩
      · rw [Option.bind_some, hm, Option.bind_some, hrun, Option.map_some]
      · rw [List.map_cons, hwh, hsizes]
      · rw [List.mapM_cons, hpool, hpools]
        rfl
      · rw [hrest, hscales, List.append_assoc, List.singleton_append]

end Loop

end Ssimulacra2.Reference
