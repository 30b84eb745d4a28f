/-
  File:      Ssimulacra2/Vulkan/Shaders.lean
  Subject:   The elementwise kernels, per invocation (`downsample_box2.comp`, `mul_planes.comp`,
             `xyb_positive.comp`, `maps_combine.comp`).

  A `main` is a step on the contents of the buffers it writes, for one flat index: the guard, the
  recovery of plane, row and column by division, and the stores; `none` is an access outside a
  buffer. `cover` is a launch that covers its elements once. Flat and element indices are computed
  on the naturals.
-/
import Ssimulacra2.Engine

namespace Ssimulacra2.Shader

open Fill

variable {F : Type} {D : Type} [F32 F] [F64 D] [Convert F D]

/-- A launch: every flat index below `count`, once. -/
def cover {σ : Type} (count : Nat) (main : Nat → σ → Option σ) (out : σ) : Option σ :=
  (List.range count).foldlM (fun out i => main i out) out

/-! ## 1. Downsampling and products -/

/-- `main()` of `downsample_box2.comp`. -/
def downsampleMain (src : List F) (iw ih ow oh i : Nat) (dst : List F) : Option (List F) :=
  if i ≥ 3 * ow * oh then some dst
  else do
    let plane := ow * oh
    let c := i / plane
    let p := i % plane
    let ox := p % ow
    let oy := p / ow
    let inplane := iw * ih
    let sum ← (List.range 2).foldlM (fun sum iy => do
      let y := min (oy * 2 + iy) (ih - 1)
      (List.range 2).foldlM (fun sum ix => do
        let x := min (ox * 2 + ix) (iw - 1)
        let v ← src[c * inplane + y * iw + x]?
        some (sum + v)) sum) (0 : F)
    writeAt (i : Int) (sum * F32.lit 0.25) dst

/-- `main()` of `mul_planes.comp`. -/
def mulMain (a b : List F) (n i : Nat) (o : List F) : Option (List F) :=
  if i < n then do
    let x ← a[i]?
    let y ← b[i]?
    writeAt (i : Int) (x * y) o
  else some o

/-! ## 2. Conversion to XYB -/

/-- The push constants of `xyb_positive.comp`. -/
structure XybConsts (F : Type) where
  m : Fin 9 → F
  bias : Fin 3 → F
  negcbrt : Fin 3 → F
  n : Nat
  positive : Bool

/-- The conversion of the pixel `(r, g, b)`. -/
def xybMainPixel (cbrtAdd : F → F → F) (k : XybConsts F) (r g b : F) : F × F × F :=
  let mixed0 := mulAdd (k.m 0) r (mulAdd (k.m 1) g (mulAdd (k.m 2) b (k.bias 0)))
  let mixed1 := mulAdd (k.m 3) r (mulAdd (k.m 4) g (mulAdd (k.m 5) b (k.bias 1)))
  let mixed2 := mulAdd (k.m 6) r (mulAdd (k.m 7) g (mulAdd (k.m 8) b (k.bias 2)))
  let mixed0 := F32.max mixed0 0
  let mixed1 := F32.max mixed1 0
  let mixed2 := F32.max mixed2 0
  let mixed0 := cbrtAdd mixed0 (k.negcbrt 0)
  let mixed1 := cbrtAdd mixed1 (k.negcbrt 1)
  let mixed2 := cbrtAdd mixed2 (k.negcbrt 2)
  let x := F32.lit 0.5 * (mixed0 - mixed1)
  let y := F32.lit 0.5 * (mixed0 + mixed1)
  let bb := mixed2
  if k.positive then
    let bb := (bb - y) + F32.lit 0.55
    let xp := x * RingOps.ofNat 14 + F32.lit 0.42
    (xp, y + F32.lit 0.01, bb)
  else (x, y, bb)

/-- `main()` of `xyb_positive.comp`. -/
def xybMain (cbrtAdd : F → F → F) (k : XybConsts F) (lin : List F) (i : Nat) (xyb : List F) :
    Option (List F) :=
  if i ≥ k.n then some xyb
  else do
    let plane := k.n
    let r ← lin[i]?
    let g ← lin[plane + i]?
    let b ← lin[2 * plane + i]?
    let v := xybMainPixel cbrtAdd k r g b
    let xyb ← writeAt (i : Int) v.1 xyb
    let xyb ← writeAt ((plane + i : Nat) : Int) v.2.1 xyb
    writeAt ((2 * plane + i : Nat) : Int) v.2.2 xyb

/-! ## 3. The error maps -/

/-- The two values of a pixel: the quotient and the edge ratio go through `double`. -/
def mapsMainPixel (D : Type) [F64 D] [Convert F D] (v : Pixel F) : F × F :=
  let mu11 := v.m1 * v.m1
  let mu22 := v.m2 * v.m2
  let mu12 := v.m1 * v.m2
  let dm := v.m1 - v.m2
  let dmsq := dm * dm
  let numM := RingOps.ofNat 1 - dmsq
  let delta := v.s12 - mu12
  let numS := delta + delta + kC2
  let denomS := (v.s11 - mu11) + (v.s22 - mu22) + kC2
  let prod := numM * numS
  let q : F := narrow (widen prod / widen denomS : D)
  let d := RingOps.ofNat 1 - q
  let t1 := F32.abs (v.x1 - v.m1)
  let t2 := F32.abs (v.x2 - v.m2)
  let e1 : D := RingOps.ofNat 1 + widen t1
  let e2 : D := RingOps.ofNat 1 + widen t2
  (F32.max d 0, narrow (e2 / e1 - RingOps.ofNat 1))

/-- `main()` of `maps_combine.comp`. -/
def mapsMain (D : Type) [F64 D] [Convert F D] (m : ScaleMaps F) (n i : Nat)
    (out : List F × List F) : Option (List F × List F) :=
  if i ≥ 3 * n then some out
  else do
    let c := i / n
    let p := i % n
    let b := c * n + p
    let v ← m.pixel b
    let maps := mapsMainPixel D v
    let ssimd ← writeAt (b : Int) maps.1 out.1
    let edged ← writeAt (b : Int) maps.2 out.2
    some (ssimd, edged)

/-! ## 4. Launches -/

section Launches

omit [F32 F]

/-- **A launch state by state.** -/
theorem cover_steps {σ : Type} (main : Nat → σ → Option σ) {n : Nat} (S : Nat → σ)
    (h : ∀ i < n, main i (S i) = some (S (i + 1))) : cover n main (S 0) = some (S n) := by
  unfold cover
  induction n with
  | zero => rfl
  | succ n ih =>
    rw [List.range_succ, List.foldlM_append, ih fun i hi => h i (by omega), Option.bind_eq_bind,
      Option.bind_some, List.foldlM_cons, h n (by omega)]
    rfl

/-- A vector whose first `k` cells are filled. -/
def filled (g : Nat → F) (out : List F) (k : Nat) : List F := (List.range k).map g ++ out.drop k

theorem filled_length (g : Nat → F) {out : List F} {k : Nat} (hk : k ≤ out.length) :
    (filled g out k).length = out.length := by
  unfold filled
  rw [List.length_append, List.length_map, List.length_range, List.length_drop]
  omega

theorem filled_all (g : Nat → F) {out : List F} {n : Nat} (hout : out.length = n) :
    filled g out n = (List.range n).map g := by
  unfold filled
  rw [List.drop_of_length_le hout.le, List.append_nil]

/-- One more cell. -/
theorem filled_set (g : Nat → F) {out : List F} {k : Nat} (hk : k < out.length) :
    (filled g out k).set k (g k) = filled g out (k + 1) := by
  have hl : ((List.range k).map g).length = k := by rw [List.length_map, List.length_range]
  unfold filled
  rw [List.set_append_right _ _ hl.le, hl, Nat.sub_self, List.drop_eq_getElem_cons hk,
    List.set_cons_zero, List.range_succ, List.map_append, List.map_singleton, List.append_assoc,
    List.singleton_append]

variable {n : Nat}

/-- **A launch whose invocations store one value each** fills the output. -/
theorem cover_table {main : Nat → List F → Option (List F)} {g : Nat → F}
    (h : ∀ i < n, ∀ out : List F, out.length = n → main i out = some (out.set i (g i)))
    {out : List F} (hout : out.length = n) :
    cover n main out = some ((List.range n).map g) := by
  have hs := cover_steps main (n := n) (fun k => filled g out k) fun i hi => by
    rw [h i hi _ (by rw [filled_length g (by omega), hout]), filled_set g (by omega)]
  rw [filled_all g hout] at hs
  exact hs

/-- The same for two outputs. -/
theorem cover_tables {main : Nat → List F × List F → Option (List F × List F)}
    {g : Nat → F × F}
    (h : ∀ i < n, ∀ out : List F × List F, out.1.length = n → out.2.length = n →
      main i out = some (out.1.set i (g i).1, out.2.set i (g i).2))
    {out : List F × List F} (h1 : out.1.length = n) (h2 : out.2.length = n) :
    cover n main out =
      some ((List.range n).map fun i => (g i).1, (List.range n).map fun i => (g i).2) := by
  have hs := cover_steps main (n := n)
    (fun k => (filled (fun i => (g i).1) out.1 k, filled (fun i => (g i).2) out.2 k)) fun i hi => by
      rw [h i hi _ (by rw [filled_length _ (by omega), h1]) (by rw [filled_length _ (by omega), h2])]
      dsimp only
      rw [filled_set (fun i => (g i).1) (by omega), filled_set (fun i => (g i).2) (by omega)]
  rw [filled_all _ h1, filled_all _ h2] at hs
  exact hs

end Launches

/-- The launch of `maps_combine`, over images whose pixels are there. -/
theorem cover_maps {m : ScaleMaps F} {n : Nat} {v : Nat → Pixel F}
    (hv : ∀ i < 3 * n, m.pixel i = some (v i)) {sd ed : List F} (h1 : sd.length = 3 * n)
    (h2 : ed.length = 3 * n) :
    cover (3 * n) (mapsMain D m n) (sd, ed) =
      some ((List.range (3 * n)).map fun i => (mapsMainPixel D (v i)).1,
        (List.range (3 * n)).map fun i => (mapsMainPixel D (v i)).2) := by
  refine cover_tables (g := fun i => mapsMainPixel D (v i)) (fun i hi out ho1 ho2 => ?_) h1 h2
  have hb : i / n * n + i % n = i := Nat.div_add_mod' i n
  unfold mapsMain
  rw [if_neg (by omega)]
  dsimp only
  rw [hb, hv i hi, Option.bind_eq_bind, Option.bind_some, writeAt_some _ (by omega) (by omega),
    writeAt_some _ (by omega) (by omega)]
  rfl

end Ssimulacra2.Shader
