/-
  File:      Ssimulacra2/Blur/Cpu.lean
  Subject:   The CPU blur of the port (`blur.rs`: `blur_1d`, `blur_planes_cpu`).

  The scans are written over accessors: `rd i` is what the source reads at signed index `i` of its
  row or column (`none`: out of bounds, a panic), `wr i v out` the write of an output. `blur1d`
  and `blurPlanesCpu` instantiate them with slices of a vector, index arithmetic included.
-/
import Ssimulacra2.Planes
import Ssimulacra2.Blur.Coeffs

namespace Ssimulacra2

open Loop

variable {F : Type} [FmaOps F] {σ : Type}

/-! ## 1. The horizontal scan -/

/-- The state a scan carries from step to step: the outputs written so far and the last two values
    of each section. -/
structure Scan (F : Type) (σ : Type) where
  out : σ
  y1 : Fin 3 → F
  y2 : Fin 3 → F

/-- The start: zero state. -/
def Scan.start (out : σ) : Scan F σ := ⟨out, fun _ => 0, fun _ => 0⟩

/-- The value stored for one index: `o[0] + (o[1] + o[2])`. -/
def combine (o : Fin 3 → F) : F := o 0 + (o 1 + o 2)

/-- The folded input of the border loops: a sample outside the row counts as zero. -/
def borderSum (rd : Int → Option F) (nw len n : Int) : Option F := do
  let left := n - nw - 1
  let right := n + nw - 1
  let lv ← (if left ≥ 0 then rd left else some 0)
  let rv ← (if right < len then rd right else some 0)
  some (lv + rv)

/-- One step of a section in lane-0 form. -/
def lane0 (rg : RgConst F) (sum : F) (y1 y2 : Fin 3 → F) (k : Fin 3) : F :=
  mulAdd (rg.mulPrev k 0) (y1 k) (mulAdd (rg.mulPrev2 k 0) (y2 k) (sum * rg.mulIn k 0))

/-- The body of the border loop: outputs are written from index 0 on. -/
def borderStep (rd : Int → Option F) (wr : Int → F → σ → Option σ) (rg : RgConst F) (len n : Int)
    (s : Scan F σ) : Option (Scan F σ) := do
  let sum ← borderSum rd rg.radius len n
  let o := lane0 rg sum s.y1 s.y2
  let out ← (if n ≥ 0 then wr n (combine o) s.out else some s.out)
  some ⟨out, o, s.y1⟩

/-- The body of the remainder loop. -/
def remainderStep (rd : Int → Option F) (wr : Int → F → σ → Option σ) (rg : RgConst F)
    (len n : Int) (s : Scan F σ) : Option (Scan F σ) := do
  let sum ← borderSum rd rg.radius len n
  let o := lane0 rg sum s.y1 s.y2
  let out ← wr n (combine o) s.out
  some ⟨out, o, s.y1⟩

/-- Output `l` of section `k` in a group of four, from the four input sums and the two outputs
    before the group. -/
def unrolled (rg : RgConst F) (sums : Fin 4 → F) (y1 y2 : Fin 3 → F) (k : Fin 3) (l : Fin 4) : F :=
  let c (j : Fin 4) : F := if j ≤ l then rg.mulIn k (l - j) else 0
  let o := sums 0 * rg.mulIn k l
  let o := mulAdd (c 1) (sums 1) o
  let o := mulAdd (c 2) (sums 2) o
  let o := mulAdd (c 3) (sums 3) o
  let o := mulAdd (rg.mulPrev2 k l) (y2 k) o
  mulAdd (rg.mulPrev k l) (y1 k) o

/-- The input sum at `n + j` of the unrolled loop: no bounds check. -/
def innerSum (rd : Int → Option F) (nw n : Int) (j : Fin 4) : Option F := do
  let a ← rd (n + j.val - nw - 1)
  let b ← rd (n + j.val + nw - 1)
  some (a + b)

/-- The four input sums of a group. -/
def innerSums (rd : Int → Option F) (nw n : Int) : Option (Fin 4 → F) := do
  let s0 ← innerSum rd nw n 0
  let s1 ← innerSum rd nw n 1
  let s2 ← innerSum rd nw n 2
  let s3 ← innerSum rd nw n 3
  some ![s0, s1, s2, s3]

/-- The four stores of a group. -/
def store4 (wr : Int → F → σ → Option σ) (n : Int) (v : Fin 4 → F) (out : σ) : Option σ := do
  let out ← wr (n + 0) (v 0) out
  let out ← wr (n + 1) (v 1) out
  let out ← wr (n + 2) (v 2) out
  wr (n + 3) (v 3) out

/-- The body of the unrolled loop. -/
def unrolledStep (rd : Int → Option F) (wr : Int → F → σ → Option σ) (rg : RgConst F) (n : Int)
    (s : Scan F σ) : Option (Scan F σ) := do
  let sums ← innerSums rd rg.radius n
  let outs := unrolled rg sums s.y1 s.y2
  let out ← store4 wr n (fun l => combine fun k => outs k l) s.out
  some ⟨out, fun k => outs k 3, fun k => outs k 2⟩

/-- `first_aligned`: `N + 1` rounded up to a multiple of four. -/
def firstAligned (nw : Int) : Int := ((nw + 1 + 3) / 4) * 4

/-- `blur_1d` over accessors: border, groups of four, remainder; the index runs on from one loop
    to the next. -/
def scanRow (rd : Int → Option F) (wr : Int → F → σ → Option σ) (rg : RgConst F) (len : Int)
    (out : σ) : Option σ := do
  let nw : Int := rg.radius
  let (n, s) ← loopBelow (min (firstAligned nw) len) 1 (borderStep rd wr rg len) (-nw + 1)
    (Scan.start out)
  let (n, s) ← loopBelow (len - nw + 1 - 3) 4 (unrolledStep rd wr rg) n s
  let (_, s) ← loopBelow len 1 (remainderStep rd wr rg len) n s
  some s.out

/-- `blur_1d`. -/
def blur1d (src dst : List F) (rg : RgConst F) : Option (List F) :=
  scanRow (readAt src) writeAt rg src.length dst

/-! ## 2. The vertical scan -/

/-- The input of the vertical pass: above the image there is no addition, below it the missing row
    is added as zero. -/
def verticalSum (rd : Int → Option F) (nw h n : Int) : Option F :=
  let top := n - nw - 1
  let bottom := n + nw - 1
  if top < 0 then
    if bottom < h then rd bottom else some 0
  else if bottom ≥ h then do
    let a ← rd top
    some (a + 0)
  else do
    let a ← rd top
    let b ← rd bottom
    some (a + b)

/-- One step of a section in the vertical form. -/
def section2 (rg : RgConst F) (sum : F) (y1 y2 : Fin 3 → F) (k : Fin 3) : F :=
  mulAdd (rg.n2 k) sum (mulAdd (-rg.d1 k) (y1 k) (-y2 k))

/-- The body of the vertical loop. -/
def verticalStep (rd : Int → Option F) (wr : Int → F → σ → Option σ) (rg : RgConst F) (h n : Int)
    (s : Scan F σ) : Option (Scan F σ) := do
  let sum ← verticalSum rd rg.radius h n
  let o := section2 rg sum s.y1 s.y2
  let out ← (if n ≥ 0 then wr n (combine o) s.out else some s.out)
  some ⟨out, o, s.y1⟩

/-- The vertical loop of `blur_planes_cpu` for one column. -/
def scanColumn (rd : Int → Option F) (wr : Int → F → σ → Option σ) (rg : RgConst F) (h : Int)
    (out : σ) : Option σ := do
  let nw : Int := rg.radius
  let (_, s) ← loopBelow h 1 (verticalStep rd wr rg h) (-(nw - 1)) (Scan.start out)
  some s.out

/-! ## 3. The three planes -/

/-- The rows of plane `c`, from `img` into `temp`. -/
def blurRows (img : List F) (w h : Nat) (rg : RgConst F) (c : Nat) (temp : List F) :
    Option (List F) :=
  (List.range h).foldlM (fun temp (y : Nat) =>
    scanRow (readSlice img (c * w * h + y * w) w) (writeSlice (c * w * h + y * w) w) rg w temp) temp

/-- The columns of plane `c`, from `temp` into `out`. -/
def blurColumns (temp : List F) (w h : Nat) (rg : RgConst F) (c : Nat) (out : List F) :
    Option (List F) :=
  (List.range w).foldlM (fun out (x : Nat) =>
    scanColumn (fun i => readAt temp (c * w * h + i * w + x))
      (fun i => writeAt (c * w * h + i * w + x)) rg h out) out

/-- `blur_planes_cpu`: for each plane the rows into `temp`, then the columns of `temp` into
    `out`. -/
def blurPlanesCpu (img : List F) (w h : Nat) (rg : RgConst F) : Option (List F) := do
  let n := 3 * w * h
  if img.length ≠ n then none
  let (_, out) ← (List.range 3).foldlM (fun (temp, out) c => do
    let temp ← blurRows img w h rg c temp
    let out ← blurColumns temp w h rg c out
    some (temp, out)) (List.replicate n 0, List.replicate n 0)
  some out

end Ssimulacra2
