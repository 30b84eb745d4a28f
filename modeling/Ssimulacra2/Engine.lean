/-
  File:      Ssimulacra2/Engine.lean
  Subject:   The CPU engine (`cpu.rs`, with the constants of `xyb.rs`).

  From linear planes to the norms of every scale: `downsampleCpu`, `xybPlanesCpu`, the products and
  blurs of a scale, the fused pooling loop and the scale loop with its break rule.

  Two callees are arguments: `cbrtAdd`, the cube-root helper `cbrt_and_add`, and, from
  `ScaleOps` on, the pixel conversion and the blur of a three-plane image;
  `computeSsimulacra2Cpu` puts in the functions of this repository. An index out of bounds and a
  failed assertion are the panic `none`.
-/
import Ssimulacra2.Score
import Ssimulacra2.Planes
import Ssimulacra2.Blur.Cpu

namespace Ssimulacra2

variable {F : Type} {D : Type} [F32 F] [F64 D] [Convert F D]

/-! ## 1. Linear RGB to positive XYB -/

/-- `premul_absorb(255.0)`: the opsin matrix, its complements computed by subtraction. -/
def premulAbsorb (intensityTarget : F) : Fin 9 → F :=
  let s := intensityTarget / ofNat 255
  let km00 : F := F32.lit 0.30
  let km02 : F := F32.lit 0.078
  let km01 : F := ofNat 1 - km02 - km00
  let km10 : F := F32.lit 0.23
  let km12 : F := F32.lit 0.078
  let km11 : F := ofNat 1 - km12 - km10
  let km20 : F := F32.lit 0.24342268924547819
  let km21 : F := F32.lit 0.20476744424496821
  let km22 : F := ofNat 1 - km20 - km21
  ![km00 * s, km01 * s, km02 * s, km10 * s, km11 * s, km12 * s, km20 * s, km21 * s, km22 * s]

/-- `KB0`, the three entries of `opsin_bias`. -/
def opsinBias : F := F32.lit 0.0037930732552754493

/-- `neg_bias_cbrt`, computed in `f64`. -/
def negBiasCbrt (D : Type) [F64 D] [Convert F D] : F := -narrow (F64.cbrt (widen (opsinBias : F) : D))

/-- Row `c` of the opsin absorbance: the fused chain, the clamp and the cube root. -/
def mixed (D : Type) [F64 D] [Convert F D] (cbrtAdd : F → F → F) (r g b : F) (c : Fin 3) : F :=
  let m : Fin 9 → F := premulAbsorb (ofNat 255)
  let v := mulAdd (m ⟨3 * c.val, by omega⟩) r
    (mulAdd (m ⟨3 * c.val + 1, by omega⟩) g (mulAdd (m ⟨3 * c.val + 2, by omega⟩) b opsinBias))
  let v := F32.max v 0
  cbrtAdd v (negBiasCbrt D)

/-- The conversion of one pixel to XYB. -/
def xybPixel (D : Type) [F64 D] [Convert F D] (cbrtAdd : F → F → F) (r g b : F) : F × F × F :=
  let mx := mixed D cbrtAdd r g b
  (F32.lit 0.5 * (mx 0 - mx 1), F32.lit 0.5 * (mx 0 + mx 1), mx 2)

/-- The positive rescale: `B` first, from the unshifted `Y`. -/
def positiveXyb (p : F × F × F) : F × F × F :=
  let (x, y, bb) := p
  let bb := (bb - y) + F32.lit 0.55
  let x := x * ofNat 14 + F32.lit 0.42
  let y := y + F32.lit 0.01
  (x, y, bb)

/-- `xyb_planes_cpu`, over the conversion of a pixel. -/
def xybPlanesCpu (pixel : F → F → F → F × F × F) (lin : List F) (w h : Nat) (positive : Bool) :
    Option (List F) :=
  let n := w * h
  (List.range n).foldlM (fun out (i : Nat) => do
    let r ← lin[i]?
    let g ← lin[n + i]?
    let b ← lin[2 * n + i]?
    let p := pixel r g b
    let p := if positive then positiveXyb p else p
    let out ← writeAt i p.1 out
    let out ← writeAt ((n + i : Nat) : Int) p.2.1 out
    writeAt ((2 * n + i : Nat) : Int) p.2.2 out) (List.replicate (3 * n) 0)

/-! ## 2. Downsampling -/

/-- `for c, y, x { dst[c * w * h + y * w + x] = f(c, y, x) }` on a vector of zeros. -/
def fillPlanes (w h : Nat) (f : Nat → Nat → Nat → Option F) : Option (List F) :=
  (List.range 3).foldlM (fun dst c =>
    (List.range h).foldlM (fun dst y =>
      (List.range w).foldlM (fun dst x => do
        let v ← f c y x
        writeAt ((flat w h c y x : Nat) : Int) v dst) dst) dst) (List.replicate (3 * w * h) 0)

/-- The four samples under output `(oy, ox)`, summed in order, edges clamped. -/
def boxSum (src : List F) (iw ih c oy ox : Nat) : Option F :=
  (List.range 2).foldlM (fun sum iy => do
    let y := min (oy * 2 + iy) (ih - 1)
    (List.range 2).foldlM (fun sum ix => do
      let x := min (ox * 2 + ix) (iw - 1)
      let v ← src[c * iw * ih + y * iw + x]?
      some (sum + v)) sum) 0

/-- `downsample_cpu`. -/
def downsampleCpu (src : List F) (iw ih : Nat) : Option (List F × Nat × Nat) := do
  let ow := (iw + 1) / 2
  let oh := (ih + 1) / 2
  let dst ← fillPlanes ow oh fun c oy ox => do
    let sum ← boxSum src iw ih c oy ox
    some (sum * F32.lit 0.25)
  some (dst, ow, oh)

/-! ## 3. One scale -/

/-- The callees of a scale. -/
structure ScaleOps (F : Type) where
  pixel : F → F → F → F × F × F
  blur : List F → Nat → Nat → Option (List F)

/-- The seven images a scale is pooled from. -/
structure ScaleMaps (F : Type) where
  w : Nat
  h : Nat
  x1 : List F
  x2 : List F
  s11 : List F
  s22 : List F
  s12 : List F
  mu1 : List F
  mu2 : List F

/-- `mul`. -/
def mul (p q : List F) : List F := p.zipWith (fun x y => x * y) q

/-- The conversions, products and blurs of a scale. -/
def scaleMaps (ops : ScaleOps F) (a b : List F) (cw ch : Nat) : Option (ScaleMaps F) := do
  let x1 ← xybPlanesCpu ops.pixel a cw ch true
  let x2 ← xybPlanesCpu ops.pixel b cw ch true
  let s11 ← ops.blur (mul x1 x1) cw ch
  let s22 ← ops.blur (mul x2 x2) cw ch
  let s12 ← ops.blur (mul x1 x2) cw ch
  let mu1 ← ops.blur x1 cw ch
  let mu2 ← ops.blur x2 cw ch
  some ⟨cw, ch, x1, x2, s11, s22, s12, mu1, mu2⟩

/-- The values at one pixel of the seven images. -/
structure Pixel (F : Type) where
  x1 : F
  x2 : F
  s11 : F
  s22 : F
  s12 : F
  m1 : F
  m2 : F

/-- Reading index `i` of the seven images. -/
def ScaleMaps.pixel (m : ScaleMaps F) (i : Nat) : Option (Pixel F) := do
  let m1 ← m.mu1[i]?
  let m2 ← m.mu2[i]?
  let s12 ← m.s12[i]?
  let s11 ← m.s11[i]?
  let s22 ← m.s22[i]?
  let x1 ← m.x1[i]?
  let x2 ← m.x2[i]?
  some ⟨x1, x2, s11, s22, s12, m1, m2⟩

/-- `KC2`. -/
def kC2 : F := F32.lit 0.0009

namespace Pixel

def numM (p : Pixel F) : F :=
  let dm := p.m1 - p.m2
  ofNat 1 - dm * dm

def numS (p : Pixel F) : F := ofNat 2 * (p.s12 - p.m1 * p.m2) + kC2

def denomS (p : Pixel F) : F := (p.s11 - p.m1 * p.m1) + (p.s22 - p.m2 * p.m2) + kC2

/-- The error before the clamp. -/
def error (D : Type) [F64 D] [Convert F D] (p : Pixel F) : D :=
  ofNat 1 - widen (p.numM * p.numS / p.denomS)

/-- `d`. -/
def ssimD (D : Type) [F64 D] [Convert F D] (p : Pixel F) : D := F64.max (p.error D) 0

/-- `d1`. -/
def edgeD1 (D : Type) [F64 D] [Convert F D] (p : Pixel F) : D :=
  let t1 := F32.abs (p.x1 - p.m1)
  let t2 := F32.abs (p.x2 - p.m2)
  (ofNat 1 + widen t2) / (ofNat 1 + widen t1) - ofNat 1

end Pixel

/-- The fused pooling loop of one channel. -/
def poolChannel (D : Type) [F64 D] [Convert F D] (m : ScaleMaps F) (c : Nat) :
    Option ((D × D) × (D × D × D × D)) :=
  (List.range m.h).foldlM (fun s (y : Nat) =>
    (List.range m.w).foldlM (fun s (x : Nat) => do
      let p ← m.pixel (c * (m.w * m.h) + y * m.w + x)
      some (addSsim s.1 (p.ssimD D), addEdge s.2 (p.edgeD1 D))) s) ((0, 0), (0, 0, 0, 0))

/-- The norms of a scale. -/
def poolScale (D : Type) [F64 D] [Convert F D] (m : ScaleMaps F) : Option (ScaleNorms D) := do
  let onePer : D := ofNat 1 / ofNat (m.w * m.h)
  let p0 ← poolChannel D m 0
  let p1 ← poolChannel D m 1
  let p2 ← poolChannel D m 2
  let p := ![p0, p1, p2]
  some ⟨channels2 fun c => ssimAverages onePer (p c).1,
    channels4 fun c => edgeAverages onePer (p c).2⟩

/-! ## 4. The scale loop -/

/-- The two images at the entry of a round, and their size. -/
structure Level (F : Type) where
  a : List F
  b : List F
  w : Nat
  h : Nat

/-- `if scale > 0 { .. }`: both images halved. -/
def nextLevel (scale : Nat) (l : Level F) : Option (Level F) :=
  if scale > 0 then do
    let (da, ow, oh) ← downsampleCpu l.a l.w l.h
    let (db, _, _) ← downsampleCpu l.b l.w l.h
    some ⟨da, db, ow, oh⟩
  else some l

/-- The loop over the scales, with `left` rounds to go: the break rule looks at the size before the
    halving. `round` is what a round computes from its two images. -/
def scaleLoop {α : Type} (round : Level F → Option α) :
    Nat → Nat → Level F → List α → Option (List α)
  | 0, _, _, scales => some scales
  | left + 1, scale, l, scales =>
      if l.w < 8 ∨ l.h < 8 then some scales
      else do
        let l ← nextLevel scale l
        let sn ← round l
        scaleLoop round left (scale + 1) l (scales ++ [sn])

/-- The scale loop of `compute_ssimulacra2_cpu`, over its callees. -/
def computeWith (D : Type) [F64 D] [Convert F D] (ops : ScaleOps F) (lin1 lin2 : List F)
    (w h : Nat) : Option (List (ScaleNorms D)) :=
  scaleLoop (fun l => (scaleMaps ops l.a l.b l.w l.h).bind (poolScale D)) 6 0 ⟨lin1, lin2, w, h⟩ []

/-- The images pooled by `computeWith`, scale by scale. -/
def mapsWith (ops : ScaleOps F) (lin1 lin2 : List F) (w h : Nat) : Option (List (ScaleMaps F)) :=
  scaleLoop (fun l => scaleMaps ops l.a l.b l.w l.h) 6 0 ⟨lin1, lin2, w, h⟩ []

/-- The pixel conversion and the blur of this repository. -/
def cpuOps (D : Type) [F64 D] [Convert F D] (cbrtAdd : F → F → F) (rg : RgConst F) : ScaleOps F where
  pixel := xybPixel D cbrtAdd
  blur img w h := blurPlanesCpu img w h rg

/-- `compute_ssimulacra2_cpu`. -/
def computeSsimulacra2Cpu (D : Type) [F64 D] [Convert F D] (cbrtAdd : F → F → F)
    (lin1 lin2 : List F) (w h : Nat) : Option (List (ScaleNorms D)) := do
  let rg ← createRecursiveGaussian F (F64.lit 1.5 : D)
  computeWith D (cpuOps D cbrtAdd rg) lin1 lin2 w h

end Ssimulacra2
