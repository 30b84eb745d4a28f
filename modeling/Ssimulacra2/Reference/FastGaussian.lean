/-
  File:      Ssimulacra2/Reference/FastGaussian.lean
  Subject:   The blur of the reference (`gauss_blur.cc`: `FastGaussian`; `ssimulacra2.cc`: `Blur`).

  The vertical pass takes strips of a cache line as long as one fits the row, and strips of one vector
  after that; the last one reads and writes padding. `MulAdd` and `NegMulSub` are read as fused, as in
  the strips. The thread pool is left out (it is null). One `Blur` lives through all scales, with a
  scratch image that only shrinks.
-/
import Ssimulacra2.Blur.Gaussian
import Ssimulacra2.Reference.Strips

namespace Ssimulacra2.Reference

open Loop Fill Full

variable {F : Type} [FmaOps F] {kVN : Nat}

/-! ## 1. The passes -/

/-- `FastGaussianHorizontal`; a row is its samples, without the padding. -/
def fastGaussianHorizontal (rg : RgConst F) (inp out : Plane F kVN) : Option (Plane F kVN) := do
  if inp.sameSize out = false then none
  let cells ← (List.range inp.ysize).foldlM (fun cells (y : Nat) =>
    fastGaussian1D (readSlice inp.cells (y * inp.stride) inp.xsize)
      (writeSlice (y * out.stride) out.xsize) rg inp.xsize cells) out.cells
  out.withCells cells

/-- `FastGaussianVertical`. -/
def fastGaussianVertical (rg : RgConst F) (inp out : Plane F kVN) : Option (Plane F kVN) := do
  if inp.sameSize out = false then none
  let kFastPace : Int := (kCacheLineVectors kVN * kVN : Nat)
  -- `x + kFastPace <= xsize`
  let (x, cells) ← loopBelow (inp.xsize - kFastPace + 1) kFastPace
    (fun x => Full.verticalStrip (kCacheLineVectors kVN) kVN rg inp.rd out.wr inp.ysize x) 0 out.cells
  let (_, cells) ← loopBelow inp.xsize kVN
    (fun x => Full.verticalStrip 1 kVN rg inp.rd out.wr inp.ysize x) x cells
  out.withCells cells

/-- `FastGaussian`: the rows of `inp` into `temp`, then the columns of `temp` into `out`. -/
def fastGaussian (rg : RgConst F) (inp temp out : Plane F kVN) :
    Option (Plane F kVN × Plane F kVN) := do
  let temp ← fastGaussianHorizontal rg inp temp
  let out ← fastGaussianVertical rg temp out
  some (temp, out)

section Passes

variable {rg : RgConst F} (hN : 1 ≤ rg.radius)

omit [FmaOps F] in
theorem Plane.withCells_some {p : Plane F kVN} {cells : List F} (h : cells.length = p.cells.length) :
    p.withCells cells = some { p with cells := cells, room := h.trans p.room } := dif_pos h

omit [FmaOps F] in
theorem Plane.sameSize_of {p q : Plane F kVN} (hw : p.xsize = q.xsize) (hh : p.ysize = q.ysize) :
    p.sameSize q = true := decide_eq_true ⟨hw, hh⟩

omit [FmaOps F] in
/-- A row that is not empty has room for a vector at its last sample. -/
theorem Plane.le_stride (p : Plane F kVN) (hw : 0 < p.xsize) (hh : 0 < p.ysize) :
    p.xsize + kVN ≤ p.stride + 1 := by
  have h := p.padded (by have := p.width; omega) (by have := p.height; omega)
  have := p.width
  omega

/-- What a pass keeps of the plane it writes. -/
structure Plane.SameShape (p q : Plane F kVN) : Prop where
  xsize : p.xsize = q.xsize
  ysize : p.ysize = q.ysize
  origXsize : p.origXsize = q.origXsize
  origYsize : p.origYsize = q.origYsize

include hN

/-- A row, whatever is in the padding. -/
theorem fastGaussian1D_row {inp out : Plane F kVN} (hw : inp.xsize = out.xsize)
    (hh : inp.ysize = out.ysize) (hV : 0 < kVN) {y : Nat} (hy : y < inp.ysize) {xs : List F}
    (hxs : xs.length = out.cells.length) :
    ∃ xs', fastGaussian1D (readSlice inp.cells (y * inp.stride) inp.xsize)
        (writeSlice (y * out.stride) out.xsize) rg inp.xsize xs = some xs' ∧
      Stored (fun x => y * out.stride + x) xs inp.xsize xs' (rowOut rg inp.xsize (inp.sample y)) := by
  have hin (x : Nat) (hx : x < inp.xsize) : x < inp.stride := by
    have := inp.le_stride (by omega) (by omega)
    omega
  have hout (x : Nat) (hx : x < inp.xsize) : x < out.stride := by
    have := out.le_stride (by omega) (by omega)
    omega
  have hread : readSlice inp.cells (y * inp.stride) inp.xsize = lineAt inp.xsize (inp.sample y) := by
    funext i
    unfold readSlice lineAt
    by_cases hi : 0 ≤ i ∧ i < inp.xsize
    · have hcell := inp.cell_lt hy (hin i.toNat (by omega))
      have e : ((y * inp.stride : Nat) : Int) + i = (y * inp.stride + i.toNat : Nat) := by omega
      rw [if_pos hi, if_pos hi, e, readAt_eq (by omega) (by omega), Int.toNat_natCast]
      rfl
    · rw [if_neg hi, if_neg hi]
  have hwrites : Writes (F := F) out.cells.length inp.xsize (fun x => y * out.stride + x)
      (writeSlice (y * out.stride) out.xsize) := by
    refine ⟨fun x hx => out.cell_lt (by omega) (hout x hx), fun i j e => by omega,
      fun i h0 h1 v xs => ?_⟩
    rw [writeSlice, if_pos (by omega)]
    congr 1
    omega
  have hrd (i : Int) (h0 : 0 ≤ i) (h1 : i < inp.xsize) :
      (lineAt inp.xsize (inp.sample y) i).isSome := by
    rw [lineAt, if_pos ⟨h0, h1⟩]
    rfl
  obtain ⟨xs', o, e, eo, hst⟩ := scanRow_stored hwrites hxs hrd hN
  have hrow : rowOut rg inp.xsize (inp.sample y) = o := by
    unfold rowOut
    rw [eo]
    rfl
  rw [hread]
  exact ⟨xs', (scanRow_eq_fastGaussian1D _ _ rg _ xs).symm.trans e, hrow ▸ hst⟩

/-- **The horizontal pass** scans the rows. -/
theorem fastGaussianHorizontal_rows {inp out : Plane F kVN} (hw : inp.xsize = out.xsize)
    (hh : inp.ysize = out.ysize) (hV : 0 < kVN) :
    ∃ out', fastGaussianHorizontal rg inp out = some out' ∧ out'.SameShape out ∧
      ∀ y < inp.ysize, ∀ x < inp.xsize,
        out'.sample y x = rowOut rg inp.xsize (inp.sample y) x := by
  have hout (y : Nat) (hy : y < inp.ysize) (x : Nat) (hx : x < inp.xsize) : x < out.stride := by
    have := out.le_stride (by omega) (by omega)
    omega
  have hval (y : Nat) (hy : y < inp.ysize) (x : Nat) (hx : x < inp.xsize) :
      rowOut rg inp.xsize (inp.sample ((y * out.stride + x) / out.stride))
        ((y * out.stride + x) % out.stride) = rowOut rg inp.xsize (inp.sample y) x := by
    rw [inPlane_div (hout y hy x hx), inPlane_mod (hout y hy x hx)]
  have hfills (y : Nat) (hy : y ∈ List.range inp.ysize) : Fills out.cells.length
      (fun c => rowOut rg inp.xsize (inp.sample (c / out.stride)) (c % out.stride))
      (fastGaussian1D (readSlice inp.cells (y * inp.stride) inp.xsize)
        (writeSlice (y * out.stride) out.xsize) rg inp.xsize)
      {c | ∃ x < inp.xsize, c = y * out.stride + x} :=
    fills_of_stored (fun xs hxs => fastGaussian1D_row hN hw hh hV (List.mem_range.mp hy) hxs)
      fun x hx => hval y (List.mem_range.mp hy) x hx
  obtain ⟨cells', e, hlen, hstored, -⟩ := fills_foldlM _ _ _ hfills out.cells rfl
  refine ⟨{ out with cells := cells', room := hlen.trans out.room }, ?_, ⟨rfl, rfl, rfl, rfl⟩,
    fun y hy x hx => ?_⟩
  · unfold fastGaussianHorizontal
    rw [if_neg (by rw [Plane.sameSize_of hw hh]; decide)]
    exact (congrArg (Option.bind · _) e).trans (Plane.withCells_some hlen)
  · have hcell := hstored (y * out.stride + x) ⟨y, List.mem_range.mpr hy, x, hx, rfl⟩
      (out.cell_lt (by omega) (hout y hy x hx))
    show cell cells' (y * out.stride + x) = _
    unfold cell
    rw [List.getD_eq_getElem?_getD, hcell, Option.getD_some]
    exact hval y hy x hx

/-- **The vertical pass** scans the columns: strips of a cache line, then of a vector. -/
theorem fastGaussianVertical_columns (inp out : Plane F kVN) (hw : inp.xsize = out.xsize)
    (hh : inp.ysize = out.ysize) (hV : 0 < kVN) (hy : 0 < inp.ysize) :
    ∃ out', fastGaussianVertical rg inp out = some out' ∧ out'.SameShape out ∧
      ∀ y < inp.ysize, ∀ x < inp.xsize,
        out'.sample y x = columnOut rg inp.ysize (column inp x) y := by
  have hvectors : 0 < kCacheLineVectors kVN := by
    unfold kCacheLineVectors
    split_ifs with h
    · exact Nat.div_pos (by omega) hV
    · decide
  have hpace : 0 < kCacheLineVectors kVN * kVN := Nat.mul_pos hvectors hV
  have hstart : ColumnsDone rg inp out 0 out.cells := ⟨le_rfl, rfl, fun y _ c _ hc => absurd hc (by omega)⟩
  have hin (h : 0 < inp.xsize) := inp.le_stride h hy
  have hout (h : 0 < inp.xsize) := out.le_stride (hw ▸ h) (hh ▸ hy)
  obtain ⟨n1, cells1, e1, h1, -⟩ := loopBelow_inv
    (u := (inp.xsize : Int) - (kCacheLineVectors kVN * kVN : Nat) + 1)
    (d := (kCacheLineVectors kVN * kVN : Nat)) (by omega)
    (b := fun x => Full.verticalStrip (kCacheLineVectors kVN) kVN rg inp.rd out.wr inp.ysize x)
    (I := fun n cells => ColumnsDone rg inp out n cells)
    (fun n cells hn h => by
      have h0 := h.index
      exact h.next hN rfl hpace hh (by omega) (by omega) (by omega)) 0 out.cells hstart
  obtain ⟨n2, cells2, e2, h2, hx2⟩ := loopBelow_inv (u := (inp.xsize : Int)) (d := (kVN : Int))
    (by omega) (b := fun x => Full.verticalStrip 1 kVN rg inp.rd out.wr inp.ysize x)
    (I := fun n cells => ColumnsDone rg inp out n cells)
    (fun n cells hn h => by
      have h0 := h.index
      exact h.next hN (Nat.one_mul kVN).symm hV hh (by omega) (by omega) (by omega)) n1 cells1 h1
  refine ⟨{ out with cells := cells2, room := h2.length.trans out.room }, ?_, ⟨rfl, rfl, rfl, rfl⟩,
    fun y hy x hx => ?_⟩
  · unfold fastGaussianVertical
    rw [if_neg (by rw [Plane.sameSize_of hw hh]; decide)]
    simp only [Option.bind_eq_bind, e1, Option.bind_some, e2]
    exact Plane.withCells_some h2.length
  · show cell cells2 (y * out.stride + x) = _
    unfold cell
    rw [List.getD_eq_getElem?_getD, h2.stored y hy x hx (by omega), Option.getD_some]

/-- **`FastGaussian` is the blur of a plane**: the strips, the padding and the scratch image leave no
    trace in the samples. -/
theorem fastGaussian_plane (inp temp out : Plane F kVN) (hw : inp.xsize = temp.xsize)
    (hh : inp.ysize = temp.ysize) (hw' : inp.xsize = out.xsize) (hh' : inp.ysize = out.ysize)
    (hV : 0 < kVN) (hy : 0 < inp.ysize) :
    ∃ temp' out', fastGaussian rg inp temp out = some (temp', out') ∧ temp'.SameShape temp ∧
      out'.SameShape out ∧ ∀ y < inp.ysize, ∀ x < inp.xsize,
        out'.sample y x = blurPlane rg inp.xsize inp.ysize inp.sample y x := by
  obtain ⟨temp', e, ht, hrows⟩ := fastGaussianHorizontal_rows hN hw hh hV
  obtain ⟨out', e', ho, hcolumns⟩ := fastGaussianVertical_columns hN temp' out
    (ht.xsize.trans (hw.symm.trans hw')) (ht.ysize.trans (hh.symm.trans hh')) hV
    (by rw [ht.ysize, ← hh]; exact hy)
  refine ⟨temp', out', ?_, ht, ho, fun y hy x hx => ?_⟩
  · unfold fastGaussian
    simp only [Option.bind_eq_bind, e, Option.bind_some, e']
  · have hw1 : temp'.xsize = inp.xsize := ht.xsize.trans hw.symm
    have hh1 : temp'.ysize = inp.ysize := ht.ysize.trans hh.symm
    have hline : lineAt inp.ysize (column temp' x) =
        lineAt inp.ysize fun i => rowOut rg inp.xsize (inp.sample i) x :=
      lineAt_congr fun i hi => hrows i hi x hx
    rw [hcolumns y (hh1 ▸ hy) x (hw1 ▸ hx), hh1]
    unfold blurPlane columnOut
    rw [hline]

end Passes

/-! ## 2. The blur of the metric -/

/-- `Blur`: the coefficients and the scratch image. -/
structure Blur (F : Type) (kVN : Nat) where
  rg : RgConst F
  temp : Plane F kVN

/-- `Blur::ShrinkTo`. -/
def Blur.shrinkTo (xsize ysize : Nat) (b : Blur F kVN) : Option (Blur F kVN) :=
  (b.temp.shrinkTo xsize ysize).map fun temp => { b with temp := temp }

/-- `Blur::operator()` on three planes; `fresh c` is what the memory of plane `c` of a new image
    holds. -/
def Blur.apply (fresh : Nat → Nat → F) (inp : Nat → Plane F kVN) (b : Blur F kVN) :
    Option (Blur F kVN × (Nat → Plane F kVN)) := do
  let out (c : Nat) : Plane F kVN := Plane.new kVN (inp 0).xsize (inp 0).ysize (fresh c)
  let p0 ← fastGaussian b.rg (inp 0) b.temp (out 0)
  let p1 ← fastGaussian b.rg (inp 1) p0.1 (out 1)
  let p2 ← fastGaussian b.rg (inp 2) p1.1 (out 2)
  some (⟨b.rg, p2.1⟩, fun c => if c = 0 then p0.2 else if c = 1 then p1.2 else p2.2)

/-- What the metric does with the blur. -/
inductive BlurCall (F : Type) (kVN : Nat) where
  | shrinkTo (xsize ysize : Nat)
  | apply (inp : Nat → Plane F kVN)

/-- The image a call blurs. -/
def BlurCall.input : BlurCall F kVN → Option (Nat → Plane F kVN)
  | .shrinkTo _ _ => none
  | .apply inp => some inp

/-- The calls, one after another: the images they answer. -/
def Blur.calls (fresh : Nat → Nat → F) :
    List (BlurCall F kVN) → Blur F kVN → Option (List (Nat → Plane F kVN))
  | [], _ => some []
  | .shrinkTo xsize ysize :: calls, b => do
      let b ← b.shrinkTo xsize ysize
      b.calls fresh calls
  | .apply inp :: calls, b => do
      let p ← b.apply fresh inp
      let outs ← p.1.calls fresh calls
      some (p.2 :: outs)

/-- **Three planes of one size**, with a row at least. -/
structure IsImage (inp : Nat → Plane F kVN) (w h : Nat) : Prop where
  xsize : ∀ c < 3, (inp c).xsize = w
  ysize : ∀ c < 3, (inp c).ysize = h
  rows : 0 < h

/-- **Calls that keep to the sizes**: no size is above the first one, `W` by `H`, and every image has
    the size of the scratch image, `w` by `h` now. -/
def Sized (W H : Nat) : Nat → Nat → List (BlurCall F kVN) → Prop
  | _, _, [] => True
  | _, _, .shrinkTo w h :: calls => (w ≤ W ∧ h ≤ H) ∧ Sized W H w h calls
  | w, h, .apply inp :: calls => IsImage inp w h ∧ Sized W H w h calls

/-- The samples of an image, as the port holds them. -/
def samples (inp : Nat → Plane F kVN) : List F :=
  image (inp 0).xsize (inp 0).ysize fun c => (inp c).sample

/-- The port blurs `inp` to `out`. -/
def PortBlurs (rg : RgConst F) (inp out : Nat → Plane F kVN) : Prop :=
  blurPlanesCpu (samples inp) (inp 0).xsize (inp 0).ysize rg = some (samples out)

section Object

variable {b : Blur F kVN} (hN : 1 ≤ b.rg.radius) (hV : 0 < kVN) (fresh : Nat → Nat → F)

include hN hV

/-- One call. -/
theorem Blur.apply_port {inp : Nat → Plane F kVN} (h : IsImage inp b.temp.xsize b.temp.ysize) :
    ∃ b' out, b.apply fresh inp = some (b', out) ∧ b'.rg = b.rg ∧ b'.temp.SameShape b.temp ∧
      PortBlurs b.rg inp out := by
  have hplane (c : Nat) (hc : c < 3) (temp : Plane F kVN) (ht : temp.SameShape b.temp) :=
    fastGaussian_plane hN (inp c) temp (Plane.new kVN (inp 0).xsize (inp 0).ysize (fresh c))
      ((h.xsize c hc).trans ht.xsize.symm) ((h.ysize c hc).trans ht.ysize.symm)
      ((h.xsize c hc).trans (h.xsize 0 (by decide)).symm)
      ((h.ysize c hc).trans (h.ysize 0 (by decide)).symm) hV (by rw [h.ysize c hc]; exact h.rows)
  obtain ⟨t0, o0, e0, ht0, ho0, v0⟩ := hplane 0 (by decide) b.temp ⟨rfl, rfl, rfl, rfl⟩
  obtain ⟨t1, o1, e1, ht1, -, v1⟩ := hplane 1 (by decide) t0 ht0
  have hshape1 : t1.SameShape b.temp := ⟨ht1.xsize.trans ht0.xsize, ht1.ysize.trans ht0.ysize,
    ht1.origXsize.trans ht0.origXsize, ht1.origYsize.trans ht0.origYsize⟩
  obtain ⟨t2, o2, e2, ht2, -, v2⟩ := hplane 2 (by decide) t1 hshape1
  refine ⟨⟨b.rg, t2⟩, fun c => if c = 0 then o0 else if c = 1 then o1 else o2, ?_, rfl,
    ⟨ht2.xsize.trans hshape1.xsize, ht2.ysize.trans hshape1.ysize,
      ht2.origXsize.trans hshape1.origXsize, ht2.origYsize.trans hshape1.origYsize⟩, ?_⟩
  · unfold Blur.apply
    simp only [Option.bind_eq_bind, e0, e1, e2, Option.bind_some]
  · have hsize (c : Nat) (hc : c < 3) : (inp c).xsize = (inp 0).xsize ∧ (inp c).ysize = (inp 0).ysize :=
      ⟨(h.xsize c hc).trans (h.xsize 0 (by decide)).symm,
        (h.ysize c hc).trans (h.ysize 0 (by decide)).symm⟩
    unfold PortBlurs samples
    rw [blurPlanesCpu_planes hN]
    show some _ = some (image o0.xsize o0.ysize fun c =>
      (if c = 0 then o0 else if c = 1 then o1 else o2).sample)
    rw [show o0.xsize = (inp 0).xsize from ho0.xsize, show o0.ysize = (inp 0).ysize from ho0.ysize]
    refine congrArg some (image_congr _ _ fun c hc y hy x hx => ?_)
    have hc3 : c = 0 ∨ c = 1 ∨ c = 2 := by omega
    rcases hc3 with rfl | rfl | rfl
    · exact (v0 y hy x hx).symm
    · obtain ⟨hw, hh⟩ := hsize 1 (by decide)
      exact (hw ▸ hh ▸ v1 y (hh ▸ hy) x (hw ▸ hx)).symm
    · obtain ⟨hw, hh⟩ := hsize 2 (by decide)
      exact (hw ▸ hh ▸ v2 y (hh ▸ hy) x (hw ▸ hx)).symm

end Object

/-- **Every image the blur of the reference answers is the port's**: over all calls of one object,
    whatever the padding, the memory of new images and the scratch image hold. -/
theorem blur_calls_port {b : Blur F kVN} (hN : 1 ≤ b.rg.radius) (hV : 0 < kVN)
    (fresh : Nat → Nat → F) (calls : List (BlurCall F kVN))
    (hs : Sized b.temp.origXsize b.temp.origYsize b.temp.xsize b.temp.ysize calls) :
    ∃ outs, b.calls fresh calls = some outs ∧
      List.Forall₂ (PortBlurs b.rg) (calls.filterMap BlurCall.input) outs := by
  induction calls generalizing b with
  | nil => exact ⟨[], rfl, .nil⟩
  | cons call calls ih =>
    cases call with
    | shrinkTo xsize ysize =>
      obtain ⟨hle, hs⟩ := hs
      have hshrink : b.shrinkTo xsize ysize = some { b with temp := { b.temp with
          xsize := xsize, ysize := ysize, width := hle.1, height := hle.2 } } := by
        unfold Blur.shrinkTo Plane.shrinkTo
        rw [dif_pos hle]
        rfl
      obtain ⟨outs, e, hall⟩ := ih (b := { b with temp := { b.temp with
        xsize := xsize, ysize := ysize, width := hle.1, height := hle.2 } }) hN hs
      refine ⟨outs, ?_, hall⟩
      unfold Blur.calls
      rw [hshrink]
      exact e
    | apply inp =>
      obtain ⟨himg, hs⟩ := hs
      obtain ⟨b', out, e, hrg, hshape, hport⟩ := Blur.apply_port hN hV fresh himg
      rw [← hshape.xsize, ← hshape.ysize, ← hshape.origXsize, ← hshape.origYsize] at hs
      obtain ⟨outs, e', hall⟩ := ih (b := b') (hrg ▸ hN) hs
      refine ⟨out :: outs, ?_, ?_⟩
      · unfold Blur.calls
        simp only [Option.bind_eq_bind, e, Option.bind_some, e']
      · exact .cons hport (hrg ▸ hall)

/-- Three ramps. -/
def ramps (w h c : Nat) : Plane ℝ 4 := Plane.new 4 w h fun i => (i + c : Nat)

/-- The kernel of the metric, on two scales: the first has strips of a cache line and of a vector, the
    second of vectors only. -/
theorem blur_calls_port_scales : ∃ rg : RgConst ℝ,
    createRecursiveGaussian ℝ (F64.lit 1.5 : ℝ) = some rg ∧
    ∃ outs, (⟨rg, Plane.new 4 37 9 fun _ => 0⟩ : Blur ℝ 4).calls (fun _ _ => 1)
        [.apply (ramps 37 9), .shrinkTo 13 5, .apply (ramps 13 5)] = some outs ∧
      List.Forall₂ (PortBlurs rg) [ramps 37 9, ramps 13 5] outs := by
  obtain ⟨beta, hrg, -, -⟩ := gaussian_kernel
  have hramps (w h : Nat) (hh : 0 < h) : IsImage (ramps w h) w h := ⟨fun _ _ => rfl, fun _ _ => rfl, hh⟩
  exact ⟨_, hrg, blur_calls_port
    (b := ⟨derived 5 (by decide) beta, Plane.new 4 37 9 fun _ => 0⟩) (show 1 ≤ 5 by decide) (by decide)
    (fun _ _ => 1) [.apply (ramps 37 9), .shrinkTo 13 5, .apply (ramps 13 5)]
    ⟨hramps 37 9 (by decide), ⟨show 13 ≤ 37 by decide, show 5 ≤ 9 by decide⟩, hramps 13 5 (by decide),
      trivial⟩⟩

end Ssimulacra2.Reference
