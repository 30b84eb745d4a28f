/-
  File:      Ssimulacra2/Blur/Shaders.lean
  Subject:   The two blur kernels (`blur_h.comp`, `blur_v.comp`), per invocation.

  `blurHMain`, `blurVMain` are `main()` for the flat index `r` (`q`): the guard, the recovery of
  plane and row (column) by division, and the scan. `rd`, `wr` access the buffers `src` and `dst`
  at their element index, `rg` is the coefficient buffer of `rgUpload`. Element indices are
  computed on the naturals.
-/
import Ssimulacra2.Blur.Cpu

namespace Ssimulacra2.Shader

open Loop

variable {F : Type} [FmaOps F] {σ : Type}

/-! ## 1. `blur_h` -/

/-- `step0`: the folded input and the three sections in lane-0 form. -/
def step0 (rd : Int → Option F) (rg : Nat → F) (w base : Nat) (n N : Int) (y1 y2 : Fin 3 → F) :
    Option (Fin 3 → F) := do
  let left := n - N - 1
  let right := n + N - 1
  let lv ← (if left ≥ 0 then rd (base + left) else some 0)
  let rv ← (if right < w then rd (base + right) else some 0)
  let sum := lv + rv
  some fun k =>
    let t := sum * rg (48 + 4 * k.val)
    let t := mulAdd (rg (36 + 4 * k.val)) (y2 k) t
    mulAdd (rg (24 + 4 * k.val)) (y1 k) t

/-- The border loop. -/
def borderStep (rd : Int → Option F) (wr : Int → F → σ → Option σ) (rg : Nat → F)
    (w base : Nat) (N n : Int) (s : Scan F σ) : Option (Scan F σ) := do
  let o ← step0 rd rg w base n N s.y1 s.y2
  let out ← (if n ≥ 0 then wr (base + n) (o 0 + (o 1 + o 2)) s.out else some s.out)
  some ⟨out, o, s.y1⟩

/-- `outs[k][l]`: only the inputs up to `l` enter. -/
def outs (rg : Nat → F) (sums : Fin 4 → F) (y1 y2 : Fin 3 → F) (k : Fin 3) (l : Fin 4) : F :=
  let o := sums 0 * rg (48 + 4 * k.val + l.val)
  let o := (List.finRange 4).foldl (fun o j =>
    if 1 ≤ j ∧ j ≤ l then mulAdd (rg (48 + 4 * k.val + (l.val - j.val))) (sums j) o else o) o
  let o := mulAdd (rg (36 + 4 * k.val + l.val)) (y2 k) o
  mulAdd (rg (24 + 4 * k.val + l.val)) (y1 k) o

/-- `sums[j]`. -/
def sumAt (rd : Int → Option F) (base : Nat) (N n : Int) (j : Fin 4) : Option F := do
  let a ← rd (base + (n + j.val) - (N + 1))
  let b ← rd (base + (n + j.val + N - 1))
  some (a + b)

/-- The unrolled loop. -/
def unrolledStep (rd : Int → Option F) (wr : Int → F → σ → Option σ) (rg : Nat → F) (base : Nat)
    (N n : Int) (s : Scan F σ) : Option (Scan F σ) := do
  let s0 ← sumAt rd base N n 0
  let s1 ← sumAt rd base N n 1
  let s2 ← sumAt rd base N n 2
  let s3 ← sumAt rd base N n 3
  let o := outs rg ![s0, s1, s2, s3] s.y1 s.y2
  let out ← wr (base + (n + 0)) (o 0 0 + (o 1 0 + o 2 0)) s.out
  let out ← wr (base + (n + 1)) (o 0 1 + (o 1 1 + o 2 1)) out
  let out ← wr (base + (n + 2)) (o 0 2 + (o 1 2 + o 2 2)) out
  let out ← wr (base + (n + 3)) (o 0 3 + (o 1 3 + o 2 3)) out
  some ⟨out, fun k => o k 3, fun k => o k 2⟩

/-- The remainder loop. -/
def remainderStep (rd : Int → Option F) (wr : Int → F → σ → Option σ) (rg : Nat → F)
    (w base : Nat) (N n : Int) (s : Scan F σ) : Option (Scan F σ) := do
  let o ← step0 rd rg w base n N s.y1 s.y2
  let out ← wr (base + n) (o 0 + (o 1 + o 2)) s.out
  some ⟨out, o, s.y1⟩

/-- `main()` of `blur_h.comp`. -/
def blurHMain (rd : Int → Option F) (wr : Int → F → σ → Option σ) (rg : Nat → F)
    (w h radius r : Nat) (out : σ) : Option σ :=
  if r ≥ 3 * h then some out
  else do
    let c := r / h
    let row := r % h
    let base := c * w * h + row * w
    let N : Int := radius
    let len : Int := w
    let firstAligned : Int := ((N + 1 + 3) / 4) * 4
    let (n, s) ← loopBelow (min firstAligned len) 1 (borderStep rd wr rg w base N) (-N + 1)
      (Scan.start out)
    let (n, s) ← loopBelow (len - N + 1 - 3) 4 (unrolledStep rd wr rg base N) n s
    let (_, s) ← loopBelow len 1 (remainderStep rd wr rg w base N) n s
    some s.out

/-! ## 2. `blur_v` -/

/-- `sum` of the vertical pass. -/
def columnSum (rd : Int → Option F) (w base : Nat) (N len n : Int) : Option F :=
  let top := n - N - 1
  let bottom := n + N - 1
  if top < 0 then
    if bottom < len then rd (base + bottom * w) else some 0
  else if bottom ≥ len then do
    let a ← rd (base + top * w)
    some (a + 0)
  else do
    let a ← rd (base + top * w)
    let b ← rd (base + bottom * w)
    some (a + b)

/-- The body of the column loop. -/
def columnStep (rd : Int → Option F) (wr : Int → F → σ → Option σ) (rg : Nat → F) (w base : Nat)
    (N len n : Int) (s : Scan F σ) : Option (Scan F σ) := do
  let sum ← columnSum rd w base N len n
  let o : Fin 3 → F := fun k =>
    let t := mulAdd (-rg (12 + 4 * k.val)) (s.y1 k) (-s.y2 k)
    mulAdd (rg (4 * k.val)) sum t
  let out ← (if n ≥ 0 then wr (base + n * w) (o 0 + (o 1 + o 2)) s.out else some s.out)
  some ⟨out, o, s.y1⟩

/-- `main()` of `blur_v.comp`. -/
def blurVMain (rd : Int → Option F) (wr : Int → F → σ → Option σ) (rg : Nat → F)
    (w h radius q : Nat) (out : σ) : Option σ :=
  if q ≥ 3 * w then some out
  else do
    let c := q / w
    let col := q % w
    let base := c * w * h + col
    let N : Int := radius
    let len : Int := h
    let (_, s) ← loopBelow len 1 (columnStep rd wr rg w base N len) (-N + 1) (Scan.start out)
    some s.out

end Ssimulacra2.Shader
