/-
  File:      Ssimulacra2/Vulkan/Engine.lean
  Subject:   The GPU engine (`gpu_pipeline.rs`, `blur_planes`, `xyb_convert`).

  The five launches, the single-shot scale loop, the split into `prepGpu` and `compareGpu`, the
  fused `comparePrepGpu` and `scoreBatchGpu`. A `BufGuard` or a `PrepImage` is the list a program
  owns (`withOwner`, `handOver`). The profile is left out: it only measures.
-/
import Ssimulacra2.Engine
import Ssimulacra2.Vulkan.Context

namespace Ssimulacra2

open Fallible Prog

variable {F : Type} {D : Type} [F32 F] [F64 D] [Convert F D] (E : Env F)

/-! ## 1. Launches -/

/-- `n.div_ceil(64)`. -/
def groupsOf (n : Nat) : Nat := (n + 63) / 64

/-- A helper's own output is destroyed when the dispatch fails. -/
def dispatchInto (out : GpuBuffer) (run : Gpu F Unit) : Gpu F GpuBuffer := do
  onError (destroyBuffer out) run
  pure out

/-- `downsample`. -/
def downsample (src : GpuBuffer) (iw ih : Nat) : Gpu F GpuBuffer := do
  let ow := (iw + 1) / 2
  let oh := (ih + 1) / 2
  let dst ← createEmpty E (3 * ow * oh)
  dispatchInto dst (runComputePush E .downsampleBox2 [src, dst]
    (E.asU32 (groupsOf (3 * ow * oh)))
    [.u32 (E.asU32 iw), .u32 (E.asU32 ih), .u32 (E.asU32 ow), .u32 (E.asU32 oh)])

/-- `mul`. -/
def mulGpu (a b : GpuBuffer) (n : Nat) : Gpu F GpuBuffer := do
  let o ← createEmpty E n
  dispatchInto o (runComputePush E .mulPlanes [a, b, o] (E.asU32 (groupsOf n)) [.u32 (E.asU32 n)])

/-- `XybPush`: the matrix, the bias, the negated root of the bias, the pixel count, the flag. -/
def xybPush (D : Type) [F64 D] [Convert F D] (n : Nat) (positive : Bool) : List (Word F) :=
  let m : Fin 9 → F := premulAbsorb (ofNat 255)
  [.f32 (m 0), .f32 (m 1), .f32 (m 2), .f32 (m 3), .f32 (m 4), .f32 (m 5), .f32 (m 6), .f32 (m 7),
    .f32 (m 8), .f32 opsinBias, .f32 opsinBias, .f32 opsinBias, .f32 (negBiasCbrt D),
    .f32 (negBiasCbrt D), .f32 (negBiasCbrt D), .u32 n, .u32 (if positive then 1 else 0)]

/-- `xyb_convert`. -/
def xybConvert (D : Type) [F64 D] [Convert F D] (linear : GpuBuffer) (n : Nat) (positive : Bool) :
    Gpu F GpuBuffer := do
  let out ← createEmpty E (3 * n)
  dispatchInto out (runComputePush E .xybPositive [linear, out] (groupsOf (E.asU32 n))
    (xybPush D (E.asU32 n) positive))

/-- `push_bytes`. -/
def pushBytes (rg : RgConst F) (w h : Nat) : List (Word F) := [.u32 w, .u32 h, .u32 rg.radius]

/-- `blur_planes`: the uploaded constants, the buffer between the two passes and the output are
    the function's own until it returns; an early return does not destroy them. -/
def blurPlanes (rg : RgConst F) (input : GpuBuffer) (w h : Nat) : Gpu F GpuBuffer := do
  let E := E.enter .blurPlanes
  let n := 3 * w * h
  let rgbuf ← createBufferF32 E (rgUpload rg)
  let temp ← createEmpty E n
  let out ← createEmpty E n
  let push := pushBytes rg (E.asU32 w) (E.asU32 h)
  let r ← observe do
    runComputePush E .blurH [input, temp, rgbuf] (groupsOf (E.asU32 (3 * h))) push
    runComputePush E .blurV [temp, out, rgbuf] (groupsOf (E.asU32 (3 * w))) push
  destroyBuffer rgbuf
  destroyBuffer temp
  match r with
  | .ok () => pure out
  | .error e => fail e

/-- The dispatch of `maps_combine`. -/
def mapsCombine (x1 x2 mu1 mu2 s11 s22 s12 sd ed : GpuBuffer) (n : Nat) : Gpu F Unit :=
  runComputePush E .mapsCombine [x1, x2, mu1, mu2, s11, s22, s12, sd, ed]
    (groupsOf (E.asU32 (3 * n))) [.u32 (E.asU32 n)]

/-! ## 2. Norms of a readback -/

/-- `&v[c * n..(c + 1) * n]` for the three channels. -/
def slices (n : Nat) (v : List F) : Option (Fin 3 → List F) :=
  if 3 * n ≤ v.length then some fun c => (v.drop (c.val * n)).take n else none

/-- The norms of the two maps; a missing vector is the empty one. -/
def normsOf (D : Type) [F64 D] [Convert F D] (both : List (List F)) (w h : Nat) :
    Option (ScaleNorms D) := do
  let sdv ← slices (w * h) (both.getD 0 [])
  let edv ← slices (w * h) (both.getD 1 [])
  some ⟨ssimNorms sdv w h, edgeNorms edv w h⟩

/-- A pure step that may panic. -/
def orPanic {σ α : Type} (text : String) (x : Option α) : Prog σ GpuErr (Event F) α :=
  match x with
  | some a => pure a
  | none => fail (.panic text)

/-- The error of a slice out of range. -/
def rangeText : String := "range end index out of range"

/-- The error of a failed assertion. -/
def assertText : String := "assertion `left == right` failed"

/-- `create_recursive_gaussian(1.5)`. -/
def gaussian (D : Type) [F64 D] [Convert F D] {σ : Type} : Prog σ GpuErr (Event F) (RgConst F) :=
  orPanic "singular matrix" (createRecursiveGaussian F (F64.lit 1.5 : D))

/-- `assert_eq!(lin.len(), 3 * w * h)`. -/
def assertLen {σ : Type} (lin : List F) (w h : Nat) : Prog σ GpuErr (Event F) Unit :=
  if lin.length = 3 * w * h then pure () else fail (.panic assertText)

/-! ## 3. The single shot -/

/-- The two images of a round on the device, and their size. -/
structure LevelGpu where
  l1 : GpuBuffer
  l2 : GpuBuffer
  cw : Nat
  ch : Nat

/-- The pass of a round of `compute_ssimulacra2_gpu_profiled`. -/
def computePass (D : Type) [F64 D] [Convert F D] (rg : RgConst F) (scale : Nat) (l : LevelGpu) :
    Guarded F (GpuBuffer × GpuBuffer × LevelGpu) := do
  let l ← (if scale > 0 then do
      let d1 ← keep (downsample E l.l1 l.cw l.ch)
      let d2 ← keep (downsample E l.l2 l.cw l.ch)
      pure ⟨d1, d2, (l.cw + 1) / 2, (l.ch + 1) / 2⟩
    else pure l : Guarded F LevelGpu)
  let n := l.cw * l.ch
  let x1 ← keep (xybConvert E D l.l1 n true)
  let x2 ← keep (xybConvert E D l.l2 n true)
  let m11 ← keep (mulGpu E x1 x1 (3 * n))
  let m22 ← keep (mulGpu E x2 x2 (3 * n))
  let m12 ← keep (mulGpu E x1 x2 (3 * n))
  let s11 ← keep (blurPlanes E rg m11 l.cw l.ch)
  let s22 ← keep (blurPlanes E rg m22 l.cw l.ch)
  let s12 ← keep (blurPlanes E rg m12 l.cw l.ch)
  let mu1 ← keep (blurPlanes E rg x1 l.cw l.ch)
  let mu2 ← keep (blurPlanes E rg x2 l.cw l.ch)
  let sd ← keep (createEmpty E (3 * n))
  let ed ← keep (createEmpty E (3 * n))
  lift (mapsCombine E x1 x2 mu1 mu2 s11 s22 s12 sd ed n)
  pure (sd, ed, l)

/-- The readback of the two maps and their norms. -/
def readNorms (D : Type) [F64 D] [Convert F D] (sd ed : GpuBuffer) (w h : Nat) :
    Guarded F (ScaleNorms D) := do
  let both ← lift (readbackF32All E [sd, ed])
  orPanic rangeText (normsOf D both w h)

/-- The scale loop of `compute_ssimulacra2_gpu_profiled`, with `left` rounds to go. -/
def computeLoop (D : Type) [F64 D] [Convert F D] (rg : RgConst F) :
    Nat → Nat → LevelGpu → List (ScaleNorms D) → Guarded F (List (ScaleNorms D))
  | 0, _, _, scales => pure scales
  | left + 1, scale, l, scales =>
      if l.cw < 8 ∨ l.ch < 8 then pure scales
      else do
        let (sd, ed, l) ← armedBatch E (computePass E D rg scale l)
        let sn ← readNorms E D sd ed l.cw l.ch
        computeLoop D rg left (scale + 1) l (scales ++ [sn])

/-- `compute_ssimulacra2_gpu_profiled`. -/
def computeSsimulacra2Gpu (D : Type) [F64 D] [Convert F D] (lin1 lin2 : List F) (w h : Nat) :
    Gpu F (List (ScaleNorms D)) := do
  assertLen lin1 w h
  assertLen lin2 w h
  let rg ← gaussian D
  withOwner destroyBuffer do
    let l1 ← keep (createBufferF32 E lin1)
    let l2 ← keep (createBufferF32 E lin2)
    computeLoop E D rg 6 0 ⟨l1, l2, w, h⟩ []

/-! ## 4. Preparation and comparison -/

/-- `ScalePrep`. -/
structure ScalePrep where
  x : GpuBuffer
  s : GpuBuffer
  mu : GpuBuffer
  w : Nat
  h : Nat

/-- `PrepImage`. -/
structure PrepImage where
  bufs : List GpuBuffer
  scales : List ScalePrep

/-- Its `drop`. -/
def dropPrep (img : PrepImage) : Gpu F Unit := dropAll destroyBuffer img.bufs

/-- The pass of a round of `prep_gpu`. -/
def prepPass (D : Type) [F64 D] [Convert F D] (rg : RgConst F) (l : GpuBuffer) (cw ch : Nat) :
    Guarded F ScalePrep := do
  let n := cw * ch
  let x ← keep (xybConvert E D l n true)
  let m ← keep (mulGpu E x x (3 * n))
  let s ← keep (blurPlanes E rg m cw ch)
  let mu ← keep (blurPlanes E rg x cw ch)
  pure ⟨x, s, mu, cw, ch⟩

/-- The scale loop of `prep_gpu`; the downsample runs before the batch is opened. -/
def prepLoop (D : Type) [F64 D] [Convert F D] (rg : RgConst F) :
    Nat → Nat → GpuBuffer → Nat → Nat → List ScalePrep → Guarded F (List ScalePrep)
  | 0, _, _, _, _, scales => pure scales
  | left + 1, scale, l, cw, ch, scales =>
      if cw < 8 ∨ ch < 8 then pure scales
      else do
        let (l, cw, ch) ← (if scale > 0 then do
            let d ← keep (downsample E l cw ch)
            pure (d, (cw + 1) / 2, (ch + 1) / 2)
          else pure (l, cw, ch) : Guarded F (GpuBuffer × Nat × Nat))
        let prep ← armedBatch E (abortOnError E (prepPass E D rg l cw ch))
        prepLoop D rg left (scale + 1) l cw ch (scales ++ [prep])

/-- `prep_gpu`. -/
def prepGpu (D : Type) [F64 D] [Convert F D] (lin : List F) (w h : Nat) : Gpu F PrepImage := do
  assertLen lin w h
  let rg ← gaussian D
  let (bufs, scales) ← handOver destroyBuffer do
    let l ← keep (createBufferF32 E lin)
    prepLoop E D rg 6 0 l w h []
  pure ⟨bufs, scales⟩

/-- The pass of a round of `compare_gpu`. -/
def comparePass (rg : RgConst F) (sa sb : ScalePrep) : Guarded F (GpuBuffer × GpuBuffer) := do
  let n := sa.w * sa.h
  let m12 ← keep (mulGpu E sa.x sb.x (3 * n))
  let s12 ← keep (blurPlanes E rg m12 sa.w sa.h)
  let sd ← keep (createEmpty E (3 * n))
  let ed ← keep (createEmpty E (3 * n))
  lift (mapsCombine E sa.x sb.x sa.mu sb.mu sa.s sb.s s12 sd ed n)
  pure (sd, ed)

/-- The loop of `compare_gpu`, over the zipped scales. -/
def compareLoop (D : Type) [F64 D] [Convert F D] (rg : RgConst F) :
    List (ScalePrep × ScalePrep) → List (ScaleNorms D) → Guarded F (List (ScaleNorms D))
  | [], scales => pure scales
  | (sa, sb) :: rest, scales => do
      let (sd, ed) ← armedBatch E (abortOnError E (comparePass E rg sa sb))
      let sn ← readNorms E D sd ed sa.w sa.h
      compareLoop D rg rest (scales ++ [sn])

/-- `compare_gpu`. -/
def compareGpu (D : Type) [F64 D] [Convert F D] (a b : PrepImage) :
    Gpu F (List (ScaleNorms D)) := do
  let rg ← gaussian D
  withOwner destroyBuffer (compareLoop E D rg (a.scales.zip b.scales) [])

/-- The pass of a round of `compare_prep_gpu`. -/
def comparePrepPass (D : Type) [F64 D] [Convert F D] (rg : RgConst F) (si : Nat) (os : ScalePrep)
    (l : GpuBuffer) (cw ch : Nat) :
    Guarded F (GpuBuffer × GpuBuffer × GpuBuffer × Nat × Nat) := do
  let (l, cw, ch) ← (if si > 0 then do
      let d ← keep (downsample E l cw ch)
      pure (d, (cw + 1) / 2, (ch + 1) / 2)
    else pure (l, cw, ch) : Guarded F (GpuBuffer × Nat × Nat))
  if os.w = cw ∧ os.h = ch then pure () else fail (.panic assertText)
  let n := cw * ch
  let vx ← keep (xybConvert E D l n true)
  let vm ← keep (mulGpu E vx vx (3 * n))
  let vs ← keep (blurPlanes E rg vm cw ch)
  let vmu ← keep (blurPlanes E rg vx cw ch)
  let m12 ← keep (mulGpu E os.x vx (3 * n))
  let s12 ← keep (blurPlanes E rg m12 cw ch)
  let sd ← keep (createEmpty E (3 * n))
  let ed ← keep (createEmpty E (3 * n))
  lift (mapsCombine E os.x vx os.mu vmu os.s vs s12 sd ed n)
  pure (sd, ed, l, cw, ch)

/-- The loop of `compare_prep_gpu`, over the scales of the original. -/
def comparePrepLoop (D : Type) [F64 D] [Convert F D] (rg : RgConst F) :
    List ScalePrep → Nat → GpuBuffer → Nat → Nat → List (ScaleNorms D) →
      Guarded F (List (ScaleNorms D))
  | [], _, _, _, _, out => pure out
  | os :: rest, si, l, cw, ch, out => do
      let (sd, ed, l, cw, ch) ←
        armedBatch E (abortOnError E (comparePrepPass E D rg si os l cw ch))
      let sn ← readNorms E D sd ed cw ch
      comparePrepLoop D rg rest (si + 1) l cw ch (out ++ [sn])

/-- `compare_prep_gpu`. -/
def comparePrepGpu (D : Type) [F64 D] [Convert F D] (orig : PrepImage) (vlin : List F)
    (w h : Nat) : Gpu F (List (ScaleNorms D)) := do
  assertLen vlin w h
  let rg ← gaussian D
  withOwner destroyBuffer do
    let l ← keep (createBufferF32 E vlin)
    comparePrepLoop E D rg orig.scales 0 l w h []

/-- The loop of `score_batch_gpu`. -/
def scoreBatchLoop (D : Type) [F64 D] [Convert F D] (orig : PrepImage) (w h : Nat) :
    List (List F) → List (List (ScaleNorms D)) → Gpu F (List (List (ScaleNorms D)))
  | [], out => pure out
  | v :: variants, out => do
      let scales ← comparePrepGpu E D orig v w h
      scoreBatchLoop D orig w h variants (out ++ [scales])

/-- `score_batch_gpu`. -/
def scoreBatchGpu (D : Type) [F64 D] [Convert F D] (origLin : List F) (w h : Nat)
    (variants : List (List F)) : Gpu F (List (List (ScaleNorms D))) := do
  let orig ← prepGpu E D origLin w h
  ensure (dropPrep orig) (scoreBatchLoop E D orig w h variants [])

end Ssimulacra2
