/-
  File:      Ssimulacra2/Reference/Metric.lean
  Subject:   The reference metric (`ssimulacra2.cc`, and `main` of `ssimulacra2_main.cc`).

  Images are rewritten in place and shrunk from scale to scale: what lies behind the new size stays
  in memory, and a new image holds whatever its memory held (`Lib.fresh`). Each map is a pass of its
  own over the images.

  The functions of libjxl are the fields of `Lib`: the transfer of a sample to linear
  (`TransformTo`), the conversion of a pixel (`ToXYB`) and the blur of a plane (`FastGaussian`). The
  scratch image of the blur and the dumps are left out. `2 * x` and `14.f * x` are products with the
  converted integer; `std::max(x, 0.0)` and `std::min` are the operations of `F64`.
-/
import Ssimulacra2.Lib.Cells
import Ssimulacra2.Score

namespace Ssimulacra2.Reference

open Cells

variable {F : Type} {D : Type} [F32 F] [F64 D] [Convert F D]

/-! ## 1. Images -/

/-- `Image3F`: three planes of one size; `row c y x` is `PlaneRow(c, y)[x]`. -/
structure Image3F (F : Type) where
  xsize : Nat
  ysize : Nat
  row : Nat → Nat → Nat → F

/-- `ImageF`. -/
structure ImageF (F : Type) where
  xsize : Nat
  ysize : Nat
  row : Nat → Nat → F

namespace Image3F

/-- `PlaneRow(c, y)[x] = v`. -/
def store (c y x : Nat) (v : F) (img : Image3F F) : Image3F F :=
  { img with row := fun c' y' x' => if c' = c ∧ y' = y ∧ x' = x then v else img.row c' y' x' }

/-- `Plane(c)`. -/
def plane (img : Image3F F) (c : Nat) : ImageF F := ⟨img.xsize, img.ysize, img.row c⟩

/-- `ShrinkTo`. -/
def shrinkTo (xsize ysize : Nat) (img : Image3F F) : Image3F F := ⟨xsize, ysize, img.row⟩

end Image3F

/-- `MsssimScale`. -/
structure MsssimScale (D : Type) where
  avgSsim : Fin 6 → D
  avgEdgediff : Fin 12 → D

theorem ssimSlot_lt (c : Fin 3) (n : Fin 2) : c.val * 2 + n.val < 6 := by omega

theorem edgeSlot_lt (c : Fin 3) (n : Fin 4) : c.val * 4 + n.val < 12 := by omega

/-- `avg_ssim[c * 2 + n]`. -/
def ssimSlot (c : Fin 3) (n : Fin 2) : Fin 6 := ⟨c.val * 2 + n.val, ssimSlot_lt c n⟩

/-- `avg_edgediff[c * 4 + n]`. -/
def edgeSlot (c : Fin 3) (n : Fin 4) : Fin 12 := ⟨c.val * 4 + n.val, edgeSlot_lt c n⟩

/-- The functions of libjxl, and what new memory holds. -/
structure Lib (F D : Type) where
  transfer : F → F
  toXyb : F → F → F → F × F × F
  gaussian : Nat → Nat → (Nat → Nat → F) → Nat → Nat → F
  fresh : Nat → Nat → Nat → F
  freshScale : MsssimScale D

variable (L : Lib F D)

/-- `Image3F(xsize, ysize)`. -/
def newImage (xsize ysize : Nat) : Image3F F := ⟨xsize, ysize, L.fresh⟩

/-- `for c, y, x { body }` over the samples of an image. -/
def forSamples {σ : Type} (img : Image3F F) (body : Nat → Nat → Nat → σ → σ) (s : σ) : σ :=
  (List.range 3).foldl (fun s c => forCells img.ysize img.xsize (body c) s) s

/-! ## 2. The passes -/

/-- The loop over the `fx` by `fy` samples under an output. -/
def boxSum (inp : Image3F F) (fx fy c oy ox : Nat) : F :=
  forCells fy fx (fun iy ix sum =>
    let x := min (ox * fx + ix) (inp.xsize - 1)
    let y := min (oy * fy + iy) (inp.ysize - 1)
    sum + inp.row c y x) 0

/-- `Downsample`; `1.0f / (fx * fy)` is folded. -/
def downsample (inp : Image3F F) (fx fy : Nat) : Image3F F :=
  let outXsize := (inp.xsize + fx - 1) / fx
  let outYsize := (inp.ysize + fy - 1) / fy
  let out := newImage L outXsize outYsize
  let normalize : F := F32.lit (1 / (fx * fy : Nat))
  forSamples out (fun c oy ox out => out.store c oy ox (boxSum inp fx fy c oy ox * normalize)) out

/-- `Multiply`. -/
def multiply (a b mul : Image3F F) : Image3F F :=
  forSamples a (fun c y x mul => mul.store c y x (a.row c y x * b.row c y x)) mul

/-- `Blur::operator()` on three planes. -/
def blur (inp : Image3F F) : Image3F F :=
  let out := newImage L inp.xsize inp.ysize
  { out with row := fun c => if c < 3 then L.gaussian inp.xsize inp.ysize (inp.row c) else out.row c }

/-- `tothe4th`. -/
def tothe4th (x : D) : D :=
  let x := x * x
  x * x

/-- `kC2`. -/
def kC2 : F := F32.lit 0.0009

/-- `num_m`: the difference in `double`, rounded to `float`. -/
def numM (D : Type) [F64 D] [Convert F D] (mu1 mu2 : F) : F :=
  narrow (ofNat 1 - widen ((mu1 - mu2) * (mu1 - mu2)) : D)

/-- The error of a pixel in `SSIMMap`. -/
def ssimError (D : Type) [F64 D] [Convert F D] (mu1 mu2 s11 s22 s12 : F) : D :=
  let mu11 := mu1 * mu1
  let mu22 := mu2 * mu2
  let mu12 := mu1 * mu2
  let num_m := numM D mu1 mu2
  let num_s := ofNat 2 * (s12 - mu12) + kC2
  let denom_s := (s11 - mu11) + (s22 - mu22) + kC2
  let d : D := ofNat 1 - widen (num_m * num_s / denom_s)
  F64.max d 0

/-- `SSIMMap`; `planeAverages` is written in place. -/
def ssimMap (m1 m2 s11 s22 s12 : Image3F F) (planeAverages : Fin 6 → D) : Fin 6 → D :=
  let onePerPixels : D := ofNat 1 / ofNat (m1.ysize * m1.xsize)
  (List.finRange 3).foldl (fun planeAverages (c : Fin 3) =>
    let sum1 : D × D := forCells m1.ysize m1.xsize (fun y x sum1 =>
      let d := ssimError D (m1.row c y x) (m2.row c y x) (s11.row c y x) (s22.row c y x)
        (s12.row c y x)
      (sum1.1 + d, sum1.2 + tothe4th d)) (0, 0)
    let planeAverages := Function.update planeAverages (ssimSlot c 0) (onePerPixels * sum1.1)
    Function.update planeAverages (ssimSlot c 1)
      (F64.sqrt (F64.sqrt (onePerPixels * sum1.2)))) planeAverages

/-- `d1` of a pixel in `EdgeDiffMap`. -/
def edgeDiff (D : Type) [F64 D] [Convert F D] (v1 mu1 v2 mu2 : F) : D :=
  (ofNat 1 + widen (F32.abs (v2 - mu2))) / (ofNat 1 + widen (F32.abs (v1 - mu1))) - ofNat 1

/-- `EdgeDiffMap`; `planeAverages` is written in place. -/
def edgeDiffMap (img1 mu1 img2 mu2 : Image3F F) (planeAverages : Fin 12 → D) : Fin 12 → D :=
  let onePerPixels : D := ofNat 1 / ofNat (img1.ysize * img1.xsize)
  (List.finRange 3).foldl (fun planeAverages (c : Fin 3) =>
    let sum1 : D × D × D × D := forCells img1.ysize img1.xsize (fun y x sum1 =>
      let d1 : D := edgeDiff D (img1.row c y x) (mu1.row c y x) (img2.row c y x) (mu2.row c y x)
      let artifact := F64.max d1 0
      let detail_lost := F64.max (-d1) 0
      (sum1.1 + artifact, sum1.2.1 + tothe4th artifact, sum1.2.2.1 + detail_lost,
        sum1.2.2.2 + tothe4th detail_lost)) (0, 0, 0, 0)
    let planeAverages := Function.update planeAverages (edgeSlot c 0) (onePerPixels * sum1.1)
    let planeAverages := Function.update planeAverages (edgeSlot c 1)
      (F64.sqrt (F64.sqrt (onePerPixels * sum1.2.1)))
    let planeAverages := Function.update planeAverages (edgeSlot c 2)
      (onePerPixels * sum1.2.2.1)
    Function.update planeAverages (edgeSlot c 3)
      (F64.sqrt (F64.sqrt (onePerPixels * sum1.2.2.2)))) planeAverages

/-- `MakePositiveXYB`, in place. -/
def makePositiveXyb (img : Image3F F) : Image3F F :=
  forCells img.ysize img.xsize (fun y x img =>
    let img := img.store 2 y x ((img.row 2 y x - img.row 1 y x) + F32.lit 0.55)
    let img := img.store 0 y x (img.row 0 y x * ofNat 14 + F32.lit 0.42)
    img.store 1 y x (img.row 1 y x + F32.lit 0.01)) img

/-- `ToXYB`: the pixels of `inp` are converted into `img`. -/
def toXyb (inp img : Image3F F) : Image3F F :=
  forCells inp.ysize inp.xsize (fun y x img =>
    let p := L.toXyb (inp.row 0 y x) (inp.row 1 y x) (inp.row 2 y x)
    ((img.store 0 y x p.1).store 1 y x p.2.1).store 2 y x p.2.2) img

/-- `ImageBundle`: the colours, and the alpha channel. -/
structure ImageBundle (F : Type) where
  color : Image3F F
  alpha : Option (ImageF F)

/-- `AlphaBlend` of the colours with the alpha channel `a`, in place. -/
def alphaBlend (img : Image3F F) (a : ImageF F) (bg : F) : Image3F F :=
  forCells img.ysize img.xsize (fun y x img =>
    let a := a.row y x
    let img := img.store 0 y x (a * img.row 0 y x + (ofNat 1 - a) * bg)
    let img := img.store 1 y x (a * img.row 1 y x + (ofNat 1 - a) * bg)
    img.store 2 y x (a * img.row 2 y x + (ofNat 1 - a) * bg)) img

/-- `TransformTo(LinearSRGB)`, in place. -/
def transformTo (img : Image3F F) : Image3F F :=
  forSamples img (fun c y x img => img.store c y x (L.transfer (img.row c y x))) img

/-! ## 3. `ComputeSSIMULACRA2` -/

/-- The images that live across the scales, and the scales so far. -/
structure State (F D : Type) where
  orig2 : Image3F F
  dist2 : Image3F F
  img1 : Image3F F
  img2 : Image3F F
  mul : Image3F F
  scales : List (MsssimScale D)

/-- `if (scale) { .. }`. -/
def halve (s : State F D) : State F D :=
  let orig2 := downsample L s.orig2 2 2
  let dist2 := downsample L s.dist2 2 2
  let img1 := s.img1.shrinkTo orig2.xsize orig2.ysize
  let img2 := s.img2.shrinkTo orig2.xsize orig2.ysize
  { s with
    orig2 := orig2
    dist2 := dist2
    img1 := makePositiveXyb (toXyb L orig2 img1)
    img2 := makePositiveXyb (toXyb L dist2 img2) }

/-- The passes of a scale over `img1` and `img2`. -/
def measure (s : State F D) : State F D :=
  let mul := s.mul.shrinkTo s.img1.xsize s.img1.ysize
  let mul := multiply s.img1 s.img1 mul
  let sigma1_sq := blur L mul
  let mul := multiply s.img2 s.img2 mul
  let sigma2_sq := blur L mul
  let mul := multiply s.img1 s.img2 mul
  let sigma12 := blur L mul
  let mu1 := blur L s.img1
  let mu2 := blur L s.img2
  let sscale := L.freshScale
  let sscale := { sscale with
    avgSsim := ssimMap mu1 mu2 sigma1_sq sigma2_sq sigma12 sscale.avgSsim }
  let sscale := { sscale with
    avgEdgediff := edgeDiffMap s.img1 mu1 s.img2 mu2 sscale.avgEdgediff }
  { s with mul := mul, scales := s.scales ++ [sscale] }

/-- The body of the loop. -/
def round (scale : Nat) (s : State F D) : State F D :=
  measure L (if scale ≠ 0 then halve L s else s)

/-- `for (scale = 0; scale < kNumScales; scale++)`, with `left` rounds to go. -/
def scaleLoop : Nat → Nat → State F D → State F D
  | 0, _, s => s
  | left + 1, scale, s =>
      if s.img1.xsize < 8 ∨ s.img1.ysize < 8 then s
      else scaleLoop left (scale + 1) (round L scale s)

/-- The sizes of `img1` in the rounds of the loop. -/
def scaleSizes : Nat → Nat → State F D → List (Nat × Nat)
  | 0, _, _ => []
  | left + 1, scale, s =>
      if s.img1.xsize < 8 ∨ s.img1.ysize < 8 then []
      else
        let s := round L scale s
        (s.img1.xsize, s.img1.ysize) :: scaleSizes left (scale + 1) s

/-- What `ComputeSSIMULACRA2` does before the loop. -/
def start (orig dist : ImageBundle F) (bg : F) : State F D :=
  let img1 := newImage L orig.color.xsize orig.color.ysize
  let img2 := newImage L img1.xsize img1.ysize
  let linear (img : ImageBundle F) : Image3F F :=
    transformTo L (img.alpha.elim img.color fun a => alphaBlend img.color a bg)
  let orig2 := linear orig
  let dist2 := linear dist
  let img1 := makePositiveXyb (toXyb L orig2 img1)
  let img2 := makePositiveXyb (toXyb L dist2 img2)
  ⟨orig2, dist2, img1, img2, newImage L img1.xsize img1.ysize, []⟩

/-- `kNumScales`. -/
def kNumScales : Nat := 6

/-- `ComputeSSIMULACRA2`: `msssim.scales`. -/
def computeSSIMULACRA2 (orig dist : ImageBundle F) (bg : F) : List (MsssimScale D) :=
  (scaleLoop L kNumScales 0 (start L orig dist bg)).scales

/-! ## 4. The score -/

/-- `ssim += weight[i++] * std::abs(a)`; the table is that of the port, which extracts it from this
    source. -/
def addWeighted (a : D) (s : D × Nat) : Option (D × Nat) := do
  let weight ← weights[s.2]?
  some (s.1 + F64.lit weight * F64.abs a, s.2 + 1)

/-- The three loops of `Msssim::Score`, with one running index into the weights. -/
def weightedNorms (scales : List (MsssimScale D)) : Option (D × Nat) :=
  (List.finRange 3).foldlM (fun s c =>
    (List.range scales.length).foldlM (fun s scale => do
      let sc ← scales[scale]?
      (List.finRange 2).foldlM (fun s n => do
        let s ← addWeighted (sc.avgSsim (ssimSlot c n)) s
        let s ← addWeighted (sc.avgEdgediff (edgeSlot c (n.castAdd 2))) s
        addWeighted (sc.avgEdgediff (edgeSlot c (n.addNat 2))) s) s) s) (0, 0)

/-- The transform after the loops. -/
def transform (ssim : D) : D :=
  let ssim := ssim * F64.lit 0.9562382616834844
  let ssim := F64.lit 2.326765642916932 * ssim - F64.lit 0.020884521182843837 * ssim * ssim +
    F64.lit 6.248496625763138e-05 * ssim * ssim * ssim
  if F64.lt 0 ssim then ofNat 100 - ofNat 10 * F64.powf ssim (F64.lit 0.6276336467831387)
  else ofNat 100

/-- `Msssim::Score`. -/
def score (scales : List (MsssimScale D)) : Option D :=
  (weightedNorms scales).map fun s => transform s.1

/-- `main`, on two images of one size: the score it prints. -/
def main (io1 io2 : ImageBundle F) : Option D :=
  if io1.alpha.isNone then score (computeSSIMULACRA2 L io1 io2 (F32.lit 0.5))
  else do
    let s0 ← score (computeSSIMULACRA2 L io1 io2 (F32.lit 0.1))
    let s1 ← score (computeSSIMULACRA2 L io1 io2 (F32.lit 0.9))
    some (F64.min s0 s1)

end Ssimulacra2.Reference
