/-
  File:      Ssimulacra2/Blur/Reference.lean
  Subject:   The reference blur (`gauss_blur.cc`: `FastGaussian1D`, `VerticalBlock`,
             `VerticalStrip`).

  The horizontal scan works on vectors of four lanes (`HWY_CAPPED(float, 4)` on a target with at
  least four), so `V` is `Fin 4 → F` with the vector operations lane by lane. The vertical scan
  processes one column per lane; it is written for one lane, with its ring buffer of
  `3 * kMod` floats addressed by the unsigned counter `ctr`. `NegMulSub(a, b, c)` is
  `fma(-a, b, -c)`. The coefficient struct is the port's `RgConst` (`n2` and `d1` hold the same
  value in each of their four lanes).
-/
import Ssimulacra2.Blur.Cpu

namespace Ssimulacra2.Reference

open Loop

variable {F : Type} [FmaOps F] {σ : Type}

/-! ## 1. Vectors of four lanes -/

abbrev V (F : Type) := Fin 4 → F

def vSet (x : F) : V F := fun _ => x
def vAdd (a b : V F) : V F := fun l => a l + b l
def vMul (a b : V F) : V F := fun l => a l * b l
def vMulAdd (a b c : V F) : V F := fun l => mulAdd (a l) (b l) (c l)
def broadcast (i : Fin 4) (v : V F) : V F := fun _ => v i
def getLane (v : V F) : F := v 0

/-- `ShiftLeftLanes<j>`: towards the higher lanes, zeros move in. -/
def shiftLeftLanes (j : Fin 4) (v : V F) : V F := fun l => if j ≤ l then v (l - j) else 0

/-- `LoadU(d, in + i)`. -/
def loadU (rd : Int → Option F) (i : Int) : Option (V F) := do
  let a ← rd i
  let b ← rd (i + 1)
  let c ← rd (i + 2)
  let e ← rd (i + 3)
  some ![a, b, c, e]

/-- `Store(v, d, out + i)`. -/
def store (wr : Int → F → σ → Option σ) (i : Int) (v : V F) (out : σ) : Option σ := do
  let out ← wr i (v 0) out
  let out ← wr (i + 1) (v 1) out
  let out ← wr (i + 2) (v 2) out
  wr (i + 3) (v 3) out

/-! ## 2. The horizontal scan -/

/-- `out`, `prev_k`, `prev2_k`. -/
structure VScan (F : Type) (σ : Type) where
  out : σ
  prev : Fin 3 → V F
  prev2 : Fin 3 → V F

/-- `out_k` of the border and remainder loops: all lanes are computed, lane 0 is meant. -/
def borderOut (rg : RgConst F) (sum : V F) (prev prev2 : Fin 3 → V F) (k : Fin 3) : V F :=
  let out := vMul sum (rg.mulIn k)
  let out := vMulAdd (rg.mulPrev2 k) (prev2 k) out
  vMulAdd (rg.mulPrev k) (prev k) out

/-- `left_val + right_val` in every lane. -/
def borderInput (rd : Int → Option F) (N width n : Int) : Option (V F) := do
  let left := n - N - 1
  let right := n + N - 1
  let leftVal ← (if left ≥ 0 then rd left else some 0)
  let rightVal ← (if right < width then rd right else some 0)
  some (vSet (leftVal + rightVal))

def leftStep (rd : Int → Option F) (wr : Int → F → σ → Option σ) (rg : RgConst F)
    (width n : Int) (s : VScan F σ) : Option (VScan F σ) := do
  let sum ← borderInput rd rg.radius width n
  let o := borderOut rg sum s.prev s.prev2
  let out ← (if n ≥ 0 then wr n (getLane (vAdd (o 0) (vAdd (o 1) (o 2)))) s.out else some s.out)
  some ⟨out, o, s.prev⟩

def rightStep (rd : Int → Option F) (wr : Int → F → σ → Option σ) (rg : RgConst F)
    (width n : Int) (s : VScan F σ) : Option (VScan F σ) := do
  let sum ← borderInput rd rg.radius width n
  let o := borderOut rg sum s.prev s.prev2
  let out ← wr n (getLane (vAdd (o 0) (vAdd (o 1) (o 2)))) s.out
  some ⟨out, o, s.prev⟩

/-- `out_k` of the unrolled loop. -/
def innerOut (rg : RgConst F) (sum : V F) (prev prev2 : Fin 3 → V F) (k : Fin 3) : V F :=
  let out := vMul (broadcast 0 sum) (rg.mulIn k)
  let out := vMulAdd (shiftLeftLanes 1 (rg.mulIn k)) (broadcast 1 sum) out
  let out := vMulAdd (shiftLeftLanes 2 (rg.mulIn k)) (broadcast 2 sum) out
  let out := vMulAdd (shiftLeftLanes 3 (rg.mulIn k)) (broadcast 3 sum) out
  let out := vMulAdd (rg.mulPrev2 k) (prev2 k) out
  vMulAdd (rg.mulPrev k) (prev k) out

def innerStep (rd : Int → Option F) (wr : Int → F → σ → Option σ) (rg : RgConst F) (n : Int)
    (s : VScan F σ) : Option (VScan F σ) := do
  let a ← loadU rd (n - rg.radius - 1)
  let b ← loadU rd (n + rg.radius - 1)
  let o := innerOut rg (vAdd a b) s.prev s.prev2
  let out ← store wr n (vAdd (o 0) (vAdd (o 1) (o 2))) s.out
  some ⟨out, fun k => broadcast 3 (o k), fun k => broadcast 2 (o k)⟩

/-- `FastGaussian1D` with `Lanes(d) = 4`. -/
def fastGaussian1D (rd : Int → Option F) (wr : Int → F → σ → Option σ) (rg : RgConst F)
    (width : Int) (out : σ) : Option σ := do
  let N : Int := rg.radius
  let firstAligned : Int := ((N + 1 + (4 - 1)) / 4) * 4
  let (n, s) ← loopBelow (min firstAligned width) 1 (leftStep rd wr rg width) (-N + 1)
    ⟨out, fun _ => vSet 0, fun _ => vSet 0⟩
  let s : VScan F σ := ⟨s.out, fun k => broadcast 0 (s.prev k), fun k => broadcast 0 (s.prev2 k)⟩
  let (n, s) ← loopBelow (width - N + 1 - (4 - 1)) 4 (innerStep rd wr rg) n s
  let (_, s) ← loopBelow width 1 (rightStep rd wr rg width) n s
  some s.out

/-! ## 3. The vertical scan -/

def kMod : Nat := 4
def kPrefetchRows : Nat := 8

/-- `out`, the ring buffer (`y_k` starts at `k * kMod`) and the counter. -/
structure Ring (F : Type) (σ : Type) where
  out : σ
  ring : Nat → F
  ctr : Nat

/-- A `size_t`. -/
def wrap64 (n : Int) : Nat := (n % 2 ^ 64).toNat

/-- `static_cast<ssize_t>` of a `size_t`. -/
def toSigned64 (n : Nat) : Int := if n < 2 ^ 63 then n else (n : Int) - 2 ^ 64

/-- `VerticalBlock` for one lane: `output` is the functor applied to the sum of the sections. -/
def verticalBlock (rg : RgConst F) (sum : F) (output : F → σ → Option σ) (s : Ring F σ) :
    Option (Ring F σ) := do
  let ctr := wrap64 (s.ctr + 1)
  let n_0 := ctr % kMod
  let n_1 := wrap64 (ctr - 1) % kMod
  let n_2 := wrap64 (ctr - 2) % kMod
  let y (k : Fin 3) : F :=
    mulAdd (rg.n2 k) sum
      (mulAdd (-rg.d1 k) (s.ring (k.val * kMod + n_1)) (-s.ring (k.val * kMod + n_2)))
  let ring := Function.update (Function.update (Function.update s.ring (0 * kMod + n_0) (y 0))
    (1 * kMod + n_0) (y 1)) (2 * kMod + n_0) (y 2)
  let out ← output (y 0 + (y 1 + y 2)) s.out
  some ⟨out, ring, ctr⟩

/-- `SingleInput` at `bottom`, a row of zeros below the image. -/
def singleInput (rd : Int → Option F) (ysize bottom : Int) : Option F :=
  if bottom < ysize then rd bottom else some 0

/-- Warm-up: `OutputNone`. -/
def warmupStep (rd : Int → Option F) (rg : RgConst F) (ysize n : Int) (s : Ring F σ) :
    Option (Ring F σ) := do
  let sum ← singleInput rd ysize (n + rg.radius - 1)
  verticalBlock rg sum (fun _ out => some out) s

/-- The rows whose top neighbour is still outside. -/
def topStep (rd : Int → Option F) (wr : Int → F → σ → Option σ) (rg : RgConst F) (ysize n : Int)
    (s : Ring F σ) : Option (Ring F σ) := do
  let sum ← singleInput rd ysize (n + rg.radius - 1)
  verticalBlock rg sum (wr n) s

/-- The interior: `TwoInputs` without bounds checks. -/
def interiorStep (rd : Int → Option F) (wr : Int → F → σ → Option σ) (rg : RgConst F) (n : Int)
    (s : Ring F σ) : Option (Ring F σ) := do
  let a ← rd (n - rg.radius - 1)
  let b ← rd (n + rg.radius - 1)
  verticalBlock rg (a + b) (wr n) s

/-- The bottom border: `TwoInputs` with a row of zeros below the image. -/
def bottomStep (rd : Int → Option F) (wr : Int → F → σ → Option σ) (rg : RgConst F)
    (ysize n : Int) (s : Ring F σ) : Option (Ring F σ) := do
  let a ← rd (n - rg.radius - 1)
  let b ← (if n + rg.radius - 1 < ysize then rd (n + rg.radius - 1) else some 0)
  verticalBlock rg (a + b) (wr n) s

/-- `ysize - N + 1 - kPrefetchRows` as the source computes it: in `size_t`, then cast. -/
def interiorEnd (N ysize : Nat) : Int :=
  toSigned64 (wrap64 ((ysize : Int) - N + 1 - kPrefetchRows))

/-- `VerticalStrip` for one column. -/
def verticalStrip (rd : Int → Option F) (wr : Int → F → σ → Option σ) (rg : RgConst F)
    (ysize : Nat) (out : σ) : Option σ := do
  let N := rg.radius
  let (n, s) ← loopBelow 0 1 (warmupStep rd rg ysize) (-(N : Int) + 1) ⟨out, fun _ => 0, 0⟩
  let (n, s) ← loopBelow (min (N + 1) ysize : Nat) 1 (topStep rd wr rg ysize) n s
  let (n, s) ← loopBelow (interiorEnd N ysize) 1 (interiorStep rd wr rg) n s
  let (_, s) ← loopBelow ysize 1 (bottomStep rd wr rg ysize) n s
  some s.out

end Ssimulacra2.Reference
