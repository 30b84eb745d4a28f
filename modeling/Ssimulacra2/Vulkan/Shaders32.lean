/-
  File:      Ssimulacra2/Vulkan/Shaders32.lean
  Subject:   The six kernels in 32-bit arithmetic.

  `Shader` computes flat and element indices on the naturals; here they are the `uint` and `int`
  of the shaders, which wrap around. The buffers are read and written at the words the source
  computes, the coefficient buffer at indices below 64. A launch inside the range does the same in
  both (`downsampleMain_eq` and its like), so nothing wraps around there.
-/
import Ssimulacra2.Lib.Words
import Ssimulacra2.Blur.Shaders
import Ssimulacra2.Vulkan.Shaders

namespace Ssimulacra2.Shader32

open Fill Words

variable {F : Type} {D : Type} {σ : Type}

/-! ## 1. The guards -/

/-- `3u * ow * oh`. -/
def downsampleCount (ow oh : UInt32) : UInt32 := 3 * ow * oh

/-- `3u * n`, of `maps_combine`; the guards of the two blurs are `3u * h` and `3u * w`. -/
def tripleCount (n : UInt32) : UInt32 := 3 * n

/-! ## 2. The elementwise kernels -/

section Elementwise

variable [F32 F] [F64 D] [Convert F D]

/-- `main()` of `downsample_box2.comp`. -/
def downsampleMain (src : List F) (iw ih ow oh i : UInt32) (dst : List F) : Option (List F) :=
  if i ≥ downsampleCount ow oh then some dst
  else do
    let plane := ow * oh
    let c := i / plane
    let p := i % plane
    let ox := p % ow
    let oy := p / ow
    let inplane := iw * ih
    let sum ← (List.range 2).foldlM (fun sum iy => do
      let y := min (oy * 2 + UInt32.ofNat iy) (ih - 1)
      (List.range 2).foldlM (fun sum ix => do
        let x := min (ox * 2 + UInt32.ofNat ix) (iw - 1)
        let v ← src[(c * inplane + y * iw + x).toNat]?
        some (sum + v)) sum) (0 : F)
    writeAt i.toNat (sum * F32.lit 0.25) dst

/-- `main()` of `mul_planes.comp`. -/
def mulMain (a b : List F) (n i : UInt32) (o : List F) : Option (List F) :=
  if i < n then do
    let x ← a[i.toNat]?
    let y ← b[i.toNat]?
    writeAt i.toNat (x * y) o
  else some o

/-- `main()` of `xyb_positive.comp`; `n` is the word `k.n`. -/
def xybMain (cbrtAdd : F → F → F) (k : Shader.XybConsts F) (lin : List F) (n i : UInt32)
    (xyb : List F) : Option (List F) :=
  if i ≥ n then some xyb
  else do
    let plane := n
    let r ← lin[i.toNat]?
    let g ← lin[(plane + i).toNat]?
    let b ← lin[(2 * plane + i).toNat]?
    let v := Shader.xybMainPixel cbrtAdd k r g b
    let xyb ← writeAt i.toNat v.1 xyb
    let xyb ← writeAt (plane + i).toNat v.2.1 xyb
    writeAt (2 * plane + i).toNat v.2.2 xyb

/-- `main()` of `maps_combine.comp`. -/
def mapsMain (D : Type) [F64 D] [Convert F D] (m : ScaleMaps F) (n i : UInt32)
    (out : List F × List F) : Option (List F × List F) :=
  if i ≥ tripleCount n then some out
  else do
    let c := i / n
    let p := i % n
    let b := c * n + p
    let v ← m.pixel b.toNat
    let maps := Shader.mapsMainPixel D v
    let ssimd ← writeAt b.toNat maps.1 out.1
    let edged ← writeAt b.toNat maps.2 out.2
    some (ssimd, edged)

end Elementwise

/-! ## 3. The blur kernels -/

section Blur

variable [FmaOps F]

/-- `step0`. -/
def step0 (rd : UInt32 → Option F) (rg : Fin 64 → F) (w base : UInt32) (n N : Int32)
    (y1 y2 : Fin 3 → F) : Option (Fin 3 → F) := do
  let left := n - N - 1
  let right := n + N - 1
  let lv ← (if left ≥ 0 then rd (base + left.toUInt32) else some 0)
  let rv ← (if right < w.toInt32 then rd (base + right.toUInt32) else some 0)
  let sum := lv + rv
  some fun k =>
    let t := sum * rg ⟨48 + 4 * k.val, by omega⟩
    let t := mulAdd (rg ⟨36 + 4 * k.val, by omega⟩) (y2 k) t
    mulAdd (rg ⟨24 + 4 * k.val, by omega⟩) (y1 k) t

/-- The border loop of `blur_h`. -/
def borderStep (rd : UInt32 → Option F) (wr : UInt32 → F → σ → Option σ) (rg : Fin 64 → F)
    (w base : UInt32) (N n : Int32) (s : Scan F σ) : Option (Scan F σ) := do
  let o ← step0 rd rg w base n N s.y1 s.y2
  let out ← (if n ≥ 0 then wr (base + n.toUInt32) (o 0 + (o 1 + o 2)) s.out else some s.out)
  some ⟨out, o, s.y1⟩

/-- `outs[k][l]`. -/
def outs (rg : Fin 64 → F) (sums : Fin 4 → F) (y1 y2 : Fin 3 → F) (k : Fin 3) (l : Fin 4) : F :=
  let o := sums 0 * rg ⟨48 + 4 * k.val + l.val, by omega⟩
  let o := (List.finRange 4).foldl (fun o j =>
    if 1 ≤ j ∧ j ≤ l then mulAdd (rg ⟨48 + 4 * k.val + (l.val - j.val), by omega⟩) (sums j) o
    else o) o
  let o := mulAdd (rg ⟨36 + 4 * k.val + l.val, by omega⟩) (y2 k) o
  mulAdd (rg ⟨24 + 4 * k.val + l.val, by omega⟩) (y1 k) o

/-- `sums[j]`. -/
def sumAt (rd : UInt32 → Option F) (base : UInt32) (N n : Int32) (j : Fin 4) : Option F := do
  let a ← rd (base + (n + Int32.ofInt j.val).toUInt32 - (N + 1).toUInt32)
  let b ← rd (base + (n + Int32.ofInt j.val + N - 1).toUInt32)
  some (a + b)

/-- The unrolled loop of `blur_h`. -/
def unrolledStep (rd : UInt32 → Option F) (wr : UInt32 → F → σ → Option σ) (rg : Fin 64 → F)
    (base : UInt32) (N n : Int32) (s : Scan F σ) : Option (Scan F σ) := do
  let s0 ← sumAt rd base N n 0
  let s1 ← sumAt rd base N n 1
  let s2 ← sumAt rd base N n 2
  let s3 ← sumAt rd base N n 3
  let o := outs rg ![s0, s1, s2, s3] s.y1 s.y2
  let out ← wr (base + (n + 0).toUInt32) (o 0 0 + (o 1 0 + o 2 0)) s.out
  let out ← wr (base + (n + 1).toUInt32) (o 0 1 + (o 1 1 + o 2 1)) out
  let out ← wr (base + (n + 2).toUInt32) (o 0 2 + (o 1 2 + o 2 2)) out
  let out ← wr (base + (n + 3).toUInt32) (o 0 3 + (o 1 3 + o 2 3)) out
  some ⟨out, fun k => o k 3, fun k => o k 2⟩

/-- The remainder loop of `blur_h`. -/
def remainderStep (rd : UInt32 → Option F) (wr : UInt32 → F → σ → Option σ) (rg : Fin 64 → F)
    (w base : UInt32) (N n : Int32) (s : Scan F σ) : Option (Scan F σ) := do
  let o ← step0 rd rg w base n N s.y1 s.y2
  let out ← wr (base + n.toUInt32) (o 0 + (o 1 + o 2)) s.out
  some ⟨out, o, s.y1⟩

/-- `main()` of `blur_h.comp`. -/
def blurHMain (rd : UInt32 → Option F) (wr : UInt32 → F → σ → Option σ) (rg : Fin 64 → F)
    (w h radius r : UInt32) (out : σ) : Option σ :=
  if r ≥ tripleCount h then some out
  else do
    let c := r / h
    let row := r % h
    let base := c * w * h + row * w
    let N := radius.toInt32
    let len := w.toInt32
    let firstAligned := ((N + 1 + 3) / 4) * 4
    let border ← loopBelow (min firstAligned len) 1 (borderStep rd wr rg w base N) (-N + 1)
      (Scan.start out)
    let inner ← loopBelow (len - N + 1 - 3) 4 (unrolledStep rd wr rg base N) border.1 border.2
    let rest ← loopBelow len 1 (remainderStep rd wr rg w base N) inner.1 inner.2
    some rest.2.out

/-- `sum` of the vertical pass. -/
def columnSum (rd : UInt32 → Option F) (w base : UInt32) (N len n : Int32) : Option F :=
  let top := n - N - 1
  let bottom := n + N - 1
  if top < 0 then
    if bottom < len then rd (base + bottom.toUInt32 * w) else some 0
  else if bottom ≥ len then do
    let a ← rd (base + top.toUInt32 * w)
    some (a + 0)
  else do
    let a ← rd (base + top.toUInt32 * w)
    let b ← rd (base + bottom.toUInt32 * w)
    some (a + b)

/-- The body of the column loop. -/
def columnStep (rd : UInt32 → Option F) (wr : UInt32 → F → σ → Option σ) (rg : Fin 64 → F)
    (w base : UInt32) (N len n : Int32) (s : Scan F σ) : Option (Scan F σ) := do
  let sum ← columnSum rd w base N len n
  let o : Fin 3 → F := fun k =>
    let t := mulAdd (-rg ⟨12 + 4 * k.val, by omega⟩) (s.y1 k) (-s.y2 k)
    mulAdd (rg ⟨4 * k.val, by omega⟩) sum t
  let out ← (if n ≥ 0 then wr (base + n.toUInt32 * w) (o 0 + (o 1 + o 2)) s.out else some s.out)
  some ⟨out, o, s.y1⟩

/-- `main()` of `blur_v.comp`. -/
def blurVMain (rd : UInt32 → Option F) (wr : UInt32 → F → σ → Option σ) (rg : Fin 64 → F)
    (w h radius q : UInt32) (out : σ) : Option σ :=
  if q ≥ tripleCount w then some out
  else do
    let c := q / w
    let col := q % w
    let base := c * w * h + col
    let N := radius.toInt32
    let len := h.toInt32
    let column ← loopBelow len 1 (columnStep rd wr rg w base N len) (-N + 1) (Scan.start out)
    some column.2.out

end Blur

end Ssimulacra2.Shader32
