/-
  File:      Ssimulacra2/Reference/Xyb.lean
  Subject:   The conversion to XYB of libjxl (`enc_xyb.cc`: `LinearSRGBToXYB`), a vector at a time.

  The last vector of a row reads and writes padding. The thread pool is left out (it is null), and so
  are the paths of `ToXYB` for images that are not linear. `cbrtf` is the C library's and
  `ZeroIfNegative` Highway's; `cbrtAdd` is `CubeRootAndAdd` on a lane.

  * `cubeRootAndAdd_port` -- the cube root is `cbrt_and_add`;
  * `linearRGBToXYB_lanes` -- a vector is converted lane by lane;
  * `Converted.next` -- a vector stored in a row;
  * `toXYB_port` -- the image, over one cube root;
  * `linearSRGBToXYB_port` -- the image, over libjxl's cube root there and the port's here.
-/
import Ssimulacra2.Cbrt
import Ssimulacra2.Reference.FastGaussian

namespace Ssimulacra2.Reference.Full

open Loop Fill

variable {F : Type} [F32 F] {kVN : Nat}

/-! ## 1. The conversion -/

/-- `kOpsinAbsorbanceMatrix`. -/
def kOpsinAbsorbanceMatrix : Fin 9 → F :=
  let kM02 : F := F32.lit 0.078
  let kM00 : F := F32.lit 0.30
  let kM01 : F := RingOps.ofNat 1 - kM02 - kM00
  let kM12 : F := F32.lit 0.078
  let kM10 : F := F32.lit 0.23
  let kM11 : F := RingOps.ofNat 1 - kM12 - kM10
  let kM20 : F := F32.lit 0.24342268924547819
  let kM21 : F := F32.lit 0.20476744424496821
  let kM22 : F := RingOps.ofNat 1 - kM20 - kM21
  ![kM00, kM01, kM02, kM10, kM11, kM12, kM20, kM21, kM22]

/-- `kOpsinAbsorbanceBias`, the same three times. -/
def kOpsinAbsorbanceBias : F := F32.lit 0.0037930732552754493

/-- A lane of `CubeRootAndAdd`; `value` is `BitCast` to `float`, and `NegMulAdd(a, b, c)` is
    `mulAdd (-a) b c`. -/
def cubeRootAndAdd (value : BitVec 32 → F) (k1_3 k4_3 : F) (x : BitVec 32) (add : F) : F :=
  let xa := value x
  let xa_3 := k1_3 * xa
  let m1 := x
  -- `IfThenZeroElse`
  let m2 := if m1 = 0 then 0 else 0x54800000#32 - m1.sshiftRight 23 * 0x002AAAAA#32
  let r := value m2
  let r := (List.range 3).foldl (fun r _ =>
    let r2 := r * r
    FmaOps.mulAdd (-xa_3) (r2 * r2) (k4_3 * r)) r
  let r2 := r * r
  let r := FmaOps.mulAdd k1_3 (FmaOps.mulAdd (-xa) (r2 * r2) r) r
  let r2 := r * r
  FmaOps.mulAdd r2 xa add

/-- The port starts from the number zero where libjxl starts from the zero pattern. -/
theorem cubeRootAndAdd_port {value : BitVec 32 → F} (hvalue : value 0 = 0) (k1_3 k4_3 : F)
    (x : BitVec 32) (add : F) :
    cubeRootAndAdd value k1_3 k4_3 x add = cbrtAndAdd value k1_3 k4_3 x add := by
  have hseed : value (if x = 0 then 0 else 0x54800000#32 - x.sshiftRight 23 * 0x002AAAAA#32) =
      if x = 0 then 0 else value (cbrtSeed x) := by
    by_cases hx : x = 0
    · rw [if_pos hx, if_pos hx, hvalue]
    · rw [if_neg hx, if_neg hx]
      rfl
  unfold cubeRootAndAdd cbrtAndAdd
  dsimp only
  rw [hseed]
  rfl

section Convert

variable (cbrtf zeroIfNegative : F → F) (cbrtAdd : F → F → F)

/-- What `ToXYB` broadcasts to slot `i`. -/
def absorb (intensityTarget : F) (i : Fin 12) : F :=
  if h : i.val < 9 then
    kOpsinAbsorbanceMatrix ⟨i.val, h⟩ * (intensityTarget / RingOps.ofNat 255)
  else -cbrtf kOpsinAbsorbanceBias

/-- `premul_absorb`: every slot a vector long. -/
def premulSlots (kVN : Nat) (intensityTarget : F) : List F :=
  (List.finRange 12).flatMap fun i => List.replicate kVN (absorb cbrtf intensityTarget i)

/-- `Load(d, premul_absorb + i * N)`. -/
def loadSlot (premul : List F) (kVN i : Nat) : Option (V F kVN) :=
  load (readAt premul) kVN (i * kVN : Nat)

/-- Row `c` of `OpsinAbsorbance`. -/
def opsinAbsorbance (premul : List F) (r g b : V F kVN) (c : Nat) : Option (V F kVN) := do
  let m0 ← loadSlot premul kVN (3 * c)
  let m1 ← loadSlot premul kVN (3 * c + 1)
  let m2 ← loadSlot premul kVN (3 * c + 2)
  some fun l => FmaOps.mulAdd (m0 l) (r l) (FmaOps.mulAdd (m1 l) (g l)
    (FmaOps.mulAdd (m2 l) (b l) kOpsinAbsorbanceBias))

/-- `LinearRGBToXYB`: what `StoreXYB` stores. -/
def linearRGBToXYB (premul : List F) (r g b : V F kVN) : Option (V F kVN × V F kVN × V F kVN) := do
  let mixed0 ← opsinAbsorbance premul r g b 0
  let mixed1 ← opsinAbsorbance premul r g b 1
  let mixed2 ← opsinAbsorbance premul r g b 2
  let add0 ← loadSlot premul kVN 9
  let add1 ← loadSlot premul kVN 10
  let add2 ← loadSlot premul kVN 11
  let mixed0 : V F kVN := fun l => cbrtAdd (zeroIfNegative (mixed0 l)) (add0 l)
  let mixed1 : V F kVN := fun l => cbrtAdd (zeroIfNegative (mixed1 l)) (add1 l)
  let mixed2 : V F kVN := fun l => cbrtAdd (zeroIfNegative (mixed2 l)) (add2 l)
  let half : F := F32.lit 0.5
  some (fun l => half * (mixed0 l - mixed1 l), fun l => half * (mixed0 l + mixed1 l), mixed2)

/-- The memory of the three planes. -/
abbrev Planes (F : Type) := List F × List F × List F

/-- The body of the loop over a row. -/
def xybStep (premul : List F) (linear xyb : Nat → Plane F kVN) (y : Nat) (x : Int)
    (cells : Planes F) : Option (Planes F) := do
  let r ← load ((linear 0).rd y) kVN x
  let g ← load ((linear 1).rd y) kVN x
  let b ← load ((linear 2).rd y) kVN x
  let v ← linearRGBToXYB zeroIfNegative cbrtAdd premul r g b
  let c0 ← store ((xyb 0).wr y) x v.1 cells.1
  let c1 ← store ((xyb 1).wr y) x v.2.1 cells.2.1
  let c2 ← store ((xyb 2).wr y) x v.2.2 cells.2.2
  some (c0, c1, c2)

/-- `LinearSRGBToXYB`, with the assertion and the constants of `ToXYB`. -/
def linearSRGBToXYB (intensityTarget : F) (linear xyb : Nat → Plane F kVN) :
    Option (Nat → Plane F kVN) := do
  if (linear 0).sameSize (xyb 0) = false then none
  let premul := premulSlots cbrtf kVN intensityTarget
  let cells ← (List.range (linear 0).ysize).foldlM (fun cells (y : Nat) =>
    (loopBelow (linear 0).xsize kVN
      (xybStep zeroIfNegative cbrtAdd premul linear xyb y) 0 cells).map Prod.snd)
    ((xyb 0).cells, (xyb 1).cells, (xyb 2).cells)
  let p0 ← (xyb 0).withCells cells.1
  let p1 ← (xyb 1).withCells cells.2.1
  let p2 ← (xyb 2).withCells cells.2.2
  some fun c => if c = 0 then p0 else if c = 1 then p1 else p2

end Convert

/-! ## 2. A vector -/

section Lanes

variable {cbrtf zeroIfNegative : F → F} {cbrtAdd : F → F → F}

/-- A slot is broadcast. -/
theorem loadSlot_some (intensityTarget : F) (i : Fin 12) :
    loadSlot (premulSlots cbrtf kVN intensityTarget) kVN i.val =
      some fun _ => absorb cbrtf intensityTarget i := by
  unfold loadSlot premulSlots
  refine load_some (f := fun _ => absorb cbrtf intensityTarget i) fun l hl => ?_
  have e : ((i.val * kVN : Nat) : Int) + l = (kVN * i.val + l : Nat) := by push_cast; ring
  have hslot := Lists.flatMap_getElem (m := kVN)
    (f := fun i => List.replicate kVN (absorb cbrtf intensityTarget i))
    (fun _ => List.length_replicate) (List.finRange 12) i.val hl
  rw [e]
  unfold readAt
  rw [if_pos (by omega), Int.toNat_natCast, hslot, List.getElem?_eq_getElem (by simp),
    List.getElem_finRange, Option.bind_some, List.getElem?_replicate, if_pos hl]
  rfl

theorem absorb_port (i : Fin 9) :
    absorb cbrtf (RingOps.ofNat 255) ⟨i.val, by omega⟩ = premulAbsorb (RingOps.ofNat 255 : F) i := by
  unfold absorb
  rw [dif_pos i.isLt]
  fin_cases i <;> rfl

/-- Row `c` of the absorbance, lane by lane. -/
theorem opsinAbsorbance_some (cbrtf : F → F) (r g b : V F kVN) (c : Nat) (hc : 3 * c < 9)
    (hc1 : 3 * c + 1 < 9) (hc2 : 3 * c + 2 < 9) :
    opsinAbsorbance (premulSlots cbrtf kVN (RingOps.ofNat 255)) r g b c =
      some fun l => FmaOps.mulAdd (premulAbsorb (RingOps.ofNat 255) ⟨3 * c, hc⟩) (r l)
        (FmaOps.mulAdd (premulAbsorb (RingOps.ofNat 255) ⟨3 * c + 1, hc1⟩) (g l)
          (FmaOps.mulAdd (premulAbsorb (RingOps.ofNat 255) ⟨3 * c + 2, hc2⟩) (b l) opsinBias)) := by
  have hslot (i : Fin 9) : loadSlot (premulSlots cbrtf kVN (RingOps.ofNat 255)) kVN i.val =
      some fun _ => premulAbsorb (RingOps.ofNat 255 : F) i :=
    (loadSlot_some (RingOps.ofNat 255) ⟨i.val, by omega⟩).trans
      (congrArg (fun v : F => some fun _ : Fin kVN => v) (absorb_port i))
  have h0 := hslot ⟨3 * c, hc⟩
  have h1 := hslot ⟨3 * c + 1, hc1⟩
  have h2 := hslot ⟨3 * c + 2, hc2⟩
  dsimp only at h0 h1 h2
  unfold opsinAbsorbance
  rw [h0, h1, h2]
  rfl

variable {D : Type} [F64 D] [Convert F D]
  (hcbrtf : cbrtf kOpsinAbsorbanceBias = narrow (F64.cbrt (widen (opsinBias : F) : D)))
  (hzero : ∀ v, zeroIfNegative v = F32.max v 0)

include hcbrtf hzero

/-- **A vector is converted lane by lane**, as the port converts a pixel. -/
theorem linearRGBToXYB_lanes (r g b : V F kVN) :
    linearRGBToXYB zeroIfNegative cbrtAdd (premulSlots cbrtf kVN (RingOps.ofNat 255)) r g b =
      some (fun l => (xybPixel D cbrtAdd (r l) (g l) (b l)).1,
        fun l => (xybPixel D cbrtAdd (r l) (g l) (b l)).2.1,
        fun l => (xybPixel D cbrtAdd (r l) (g l) (b l)).2.2) := by
  have hadd (i : Fin 12) (hi : 9 ≤ i.val) :
      loadSlot (premulSlots cbrtf kVN (RingOps.ofNat 255)) kVN i.val =
        some fun _ => (negBiasCbrt D : F) := by
    rw [loadSlot_some]
    unfold absorb negBiasCbrt
    rw [dif_neg (by omega), hcbrtf]
  have h0 := opsinAbsorbance_some cbrtf r g b 0 (by decide) (by decide) (by decide)
  have h1 := opsinAbsorbance_some cbrtf r g b 1 (by decide) (by decide) (by decide)
  have h2 := opsinAbsorbance_some cbrtf r g b 2 (by decide) (by decide) (by decide)
  have h9 := hadd ⟨9, by decide⟩ (show 9 ≤ 9 by decide)
  have h10 := hadd ⟨10, by decide⟩ (show 9 ≤ 10 by decide)
  have h11 := hadd ⟨11, by decide⟩ (show 9 ≤ 11 by decide)
  dsimp only at h0 h1 h2 h9 h10 h11
  unfold linearRGBToXYB
  rw [h0, h1, h2, h9, h10, h11]
  simp only [Option.bind_eq_bind, Option.bind_some, hzero]
  rfl

end Lanes

/-! ## 3. An image -/

/-- The rows above `y` and the columns before `n` of row `y` hold `f`. -/
structure Converted (p : Plane F kVN) (f : Nat → Nat → F) (y : Nat) (n : Int) (cells : List F) :
    Prop where
  length : cells.length = p.cells.length
  stored : ∀ y' < p.ysize, ∀ x' < p.xsize, (y' < y ∨ y' = y ∧ (x' : Int) < n) →
    cells[y' * p.stride + x']? = some (f y' x')

section Rows

variable {p : Plane F kVN} {f : Nat → Nat → F} {y : Nat} {n : Int} {cells : List F}

omit [F32 F] in
/-- The next vector of a row, with what it writes to the padding. -/
theorem Converted.next (h : Converted p f y n cells) (h0 : 0 ≤ n) (hn : n < p.xsize)
    (hy : y < p.ysize) :
    ∃ cells', store (p.wr y) n (fun l : Fin kVN => f y (n.toNat + l.val)) cells = some cells' ∧
      Converted p f y (n + kVN) cells' := by
  obtain ⟨x, rfl⟩ := Int.eq_ofNat_of_zero_le h0
  have hroom := p.le_stride (by omega) (by omega)
  obtain ⟨cells', e, hlen, hin, hout⟩ := fills_store p hy (x := x) (i := 0) (by omega)
    (fun j => f y (x + j)) cells h.length
  simp only [Nat.add_zero, Nat.zero_add] at e hin hout
  refine ⟨cells', e, hlen, fun y' hy' x' hx' hdone => ?_⟩
  by_cases hnew : y' = y ∧ x ≤ x'
  · obtain ⟨rfl, hle⟩ := hnew
    have hcell := hin (y' * p.stride + x') ⟨x' - x, by omega, by omega⟩ (p.cell_lt hy' (by omega))
    exact hcell.trans (congrArg (fun j => some (f y' j)) (by omega))
  · refine (hout _ ?_).trans (h.stored y' hy' x' hx' (by omega))
    rintro ⟨l, hl, e⟩
    -- rows do not overlap
    have hrow := congrArg (· / p.stride) e
    have hcol := congrArg (· % p.stride) e
    simp only [inPlane_div (show x' < p.stride by omega), inPlane_mod (show x' < p.stride by omega),
      inPlane_div (show x + l < p.stride by omega), inPlane_mod (show x + l < p.stride by omega)]
      at hrow hcol
    exact hnew ⟨hrow, by omega⟩

omit [F32 F] in
/-- The next row. -/
theorem Converted.row (h : Converted p f y n cells) (hn : p.xsize ≤ n) :
    Converted p f (y + 1) 0 cells :=
  ⟨h.length, fun y' hy' x' hx' hdone => h.stored y' hy' x' hx' (by omega)⟩

end Rows

section Image

variable {cbrtf zeroIfNegative : F → F} {cbrtAdd : F → F → F} {D : Type} [F64 D] [Convert F D]

/-- The samples of the image, converted as the port converts them. -/
def convertedSample (D : Type) [F64 D] [Convert F D] (cbrtAdd : F → F → F)
    (linear : Nat → Plane F kVN) (c y x : Nat) : F :=
  component (xybPixel D cbrtAdd ((linear 0).sample y x) ((linear 1).sample y x)
    ((linear 2).sample y x)) c

/-- The three planes. -/
structure AllConverted (D : Type) [F64 D] [Convert F D] (cbrtAdd : F → F → F)
    (linear xyb : Nat → Plane F kVN) (y : Nat) (n : Int) (cells : Planes F) : Prop where
  index : 0 ≤ n
  first : Converted (xyb 0) (convertedSample D cbrtAdd linear 0) y n cells.1
  second : Converted (xyb 1) (convertedSample D cbrtAdd linear 1) y n cells.2.1
  third : Converted (xyb 2) (convertedSample D cbrtAdd linear 2) y n cells.2.2

/-- `ToXYB`, over the cube root `jxl`, leaves what `xyb_planes_cpu` answers over `port`, once its
    samples are rescaled by the formulas of `MakePositiveXYB`. -/
def PortedAs (D : Type) [F64 D] [Convert F D] (cbrtf zeroIfNegative : F → F)
    (jxl port : F → F → F) (linear xyb : Nat → Plane F kVN) (w h : Nat) : Prop :=
  ∃ out, linearSRGBToXYB cbrtf zeroIfNegative jxl (RingOps.ofNat 255) linear xyb = some out ∧
    (∀ c < 3, (out c).SameShape (xyb c)) ∧
    xybPlanesCpu (xybPixel D port) (samples linear) w h true =
      some (image w h fun c y x => component
        (positiveXyb ((out 0).sample y x, (out 1).sample y x, (out 2).sample y x)) c)

variable (hcbrtf : cbrtf kOpsinAbsorbanceBias = narrow (F64.cbrt (widen (opsinBias : F) : D)))
  (hzero : ∀ v, zeroIfNegative v = F32.max v 0) {linear xyb : Nat → Plane F kVN} {w h : Nat}
  (hl : IsImage linear w h) (hx : IsImage xyb w h)

include hcbrtf hzero hl hx

/-- The next vector. -/
theorem xybStep_some {y : Nat} (hy : y < h) {n : Int} (hn : n < w) {cells : Planes F}
    (ha : AllConverted D cbrtAdd linear xyb y n cells) :
    ∃ cells', xybStep zeroIfNegative cbrtAdd (premulSlots cbrtf kVN (RingOps.ofNat 255)) linear
        xyb y n cells = some cells' ∧
      AllConverted D cbrtAdd linear xyb y (n + kVN) cells' := by
  have h0 := ha.index
  have hload (c : Nat) (hc : c < 3) : load ((linear c).rd y) kVN n =
      some fun l : Fin kVN => (linear c).sample y (n.toNat + l.val) := by
    have hw := hl.xsize c hc
    have hh := hl.ysize c hc
    have hroom := (linear c).le_stride (by omega) (by omega)
    refine load_some (f := fun l => (linear c).sample y (n.toNat + l)) fun l hlane => ?_
    rw [show n + (l : Int) = (n.toNat + l : Nat) by omega]
    exact (linear c).rd_some (by omega) (by omega)
  have hstore (c : Nat) (hc : c < 3) {xs : List F}
      (hdone : Converted (xyb c) (convertedSample D cbrtAdd linear c) y n xs) :=
    hdone.next h0 (by rw [hx.xsize c hc]; exact hn) (by rw [hx.ysize c hc]; exact hy)
  obtain ⟨c0, e0, h0'⟩ := hstore 0 (by decide) ha.first
  obtain ⟨c1, e1, h1'⟩ := hstore 1 (by decide) ha.second
  obtain ⟨c2, e2, h2'⟩ := hstore 2 (by decide) ha.third
  refine ⟨(c0, c1, c2), ?_, by omega, h0', h1', h2'⟩
  unfold xybStep
  rw [hload 0 (by decide), hload 1 (by decide), hload 2 (by decide)]
  simp only [Option.bind_eq_bind, Option.bind_some, linearRGBToXYB_lanes hcbrtf hzero]
  simp only [convertedSample, component, reduceIte, one_ne_zero, OfNat.ofNat_ne_zero,
    OfNat.ofNat_ne_one] at e0 e1 e2
  simp only [e0, e1, e2, Option.bind_some]

/-- The rows. -/
theorem xybRows_some (cbrtAdd : F → F → F) (hV : 0 < kVN) (m : Nat) (hm : m ≤ h) :
    ∃ cells', (List.range m).foldlM (fun cells (y : Nat) => (loopBelow (linear 0).xsize kVN
        (xybStep zeroIfNegative cbrtAdd (premulSlots cbrtf kVN (RingOps.ofNat 255)) linear xyb y)
        0 cells).map Prod.snd) ((xyb 0).cells, (xyb 1).cells, (xyb 2).cells) = some cells' ∧
      AllConverted D cbrtAdd linear xyb m 0 cells' := by
  induction m with
  | zero =>
    have hstart (c : Nat) : Converted (xyb c) (convertedSample D cbrtAdd linear c) 0 0
        (xyb c).cells := ⟨rfl, fun _ _ _ _ hdone => absurd hdone (by omega)⟩
    exact ⟨_, rfl, le_rfl, hstart 0, hstart 1, hstart 2⟩
  | succ m ih =>
    obtain ⟨cells1, e1, ha⟩ := ih (by omega)
    have hw := hl.xsize 0 (by decide)
    obtain ⟨n, cells2, e2, ha2, hexit⟩ := loopBelow_inv (u := ((linear 0).xsize : Int))
      (d := (kVN : Int)) (by omega)
      (b := xybStep zeroIfNegative cbrtAdd (premulSlots cbrtf kVN (RingOps.ofNat 255)) linear
        xyb m)
      (I := fun n cells => AllConverted D cbrtAdd linear xyb m n cells)
      (fun n cells hn ha => xybStep_some hcbrtf hzero hl hx (by omega) (by omega) ha) 0 cells1 ha
    have hend (c : Nat) (hc : c < 3) : ((xyb c).xsize : Int) ≤ n := by
      rw [hx.xsize c hc]
      omega
    refine ⟨cells2, ?_, le_rfl, ha2.first.row (hend 0 (by decide)),
      ha2.second.row (hend 1 (by decide)), ha2.third.row (hend 2 (by decide))⟩
    rw [List.range_succ, List.foldlM_append, e1, Option.bind_eq_bind, Option.bind_some,
      List.foldlM_cons, e2]
    rfl

/-- Over one cube root for both. -/
theorem toXYB_port (cbrtAdd : F → F → F) (hV : 0 < kVN) :
    PortedAs D cbrtf zeroIfNegative cbrtAdd cbrtAdd linear xyb w h := by
  obtain ⟨cells, e, ha⟩ := xybRows_some hcbrtf hzero hl hx cbrtAdd hV h le_rfl
  have hw := hl.xsize 0 (by decide)
  have hh := hl.ysize 0 (by decide)
  have hsize : (linear 0).sameSize (xyb 0) = true := Plane.sameSize_of
    (hw.trans (hx.xsize 0 (by decide)).symm) (hh.trans (hx.ysize 0 (by decide)).symm)
  let p0 : Plane F kVN :=
    { xyb 0 with cells := cells.1, room := ha.first.length.trans (xyb 0).room }
  let p1 : Plane F kVN :=
    { xyb 1 with cells := cells.2.1, room := ha.second.length.trans (xyb 1).room }
  let p2 : Plane F kVN :=
    { xyb 2 with cells := cells.2.2, room := ha.third.length.trans (xyb 2).room }
  refine ⟨fun c => if c = 0 then p0 else if c = 1 then p1 else p2, ?_, fun c hc => ?_, ?_⟩
  · unfold linearSRGBToXYB
    rw [if_neg (by rw [hsize]; decide), hh]
    simp only [Option.bind_eq_bind, Option.bind_some, e,
      Plane.withCells_some ha.first.length, Plane.withCells_some ha.second.length,
      Plane.withCells_some ha.third.length]
    rfl
  · have hc3 : c = 0 ∨ c = 1 ∨ c = 2 := by omega
    rcases hc3 with rfl | rfl | rfl <;> exact ⟨rfl, rfl, rfl, rfl⟩
  · have hsample (c : Nat) (hc : c < 3) {xs : List F} {y x : Nat} (hy : y < h) (hxw : x < w)
        (hdone : Converted (xyb c) (convertedSample D cbrtAdd linear c) h 0 xs) :
        cell xs (y * (xyb c).stride + x) = convertedSample D cbrtAdd linear c y x := by
      have hcell := hdone.stored y (by rw [hx.ysize c hc]; exact hy) x
        (by rw [hx.xsize c hc]; exact hxw) (Or.inl hy)
      unfold cell
      rw [List.getD_eq_getElem?_getD, hcell, Option.getD_some]
    unfold samples
    rw [hw, hh, xybPlanesCpu_image]
    refine congrArg some (image_congr _ _ fun c _ y hy x hxw => ?_)
    have h0 : p0.sample y x = _ := hsample 0 (by decide) hy hxw ha.first
    have h1 : p1.sample y x = _ := hsample 1 (by decide) hy hxw ha.second
    have h2 : p2.sample y x = _ := hsample 2 (by decide) hy hxw ha.third
    show component (positiveXyb _) c = component (positiveXyb (p0.sample y x, p1.sample y x,
      p2.sample y x)) c
    rw [h0, h1, h2]
    rfl

/-- **`ToXYB` converts as the port does**, whatever the cube root that both use, and so with
    libjxl's cube root there and the port's here. -/
theorem linearSRGBToXYB_port (hV : 0 < kVN) :
    (∀ cbrtAdd, PortedAs D cbrtf zeroIfNegative cbrtAdd cbrtAdd linear xyb w h) ∧
      ∀ (value : BitVec 32 → F) (bits : F → BitVec 32) (k1_3 k4_3 : F), value 0 = 0 →
        PortedAs D cbrtf zeroIfNegative (fun v => cubeRootAndAdd value k1_3 k4_3 (bits v))
          (fun v => cbrtAndAdd value k1_3 k4_3 (bits v)) linear xyb w h := by
  refine ⟨fun cbrtAdd => toXYB_port hcbrtf hzero hl hx cbrtAdd hV,
    fun value bits k1_3 k4_3 hvalue => ?_⟩
  have hcube : (fun v => cubeRootAndAdd value k1_3 k4_3 (bits v)) =
      fun v => cbrtAndAdd value k1_3 k4_3 (bits v) :=
    funext fun v => funext fun add => cubeRootAndAdd_port hvalue k1_3 k4_3 (bits v) add
  rw [hcube]
  exact toXYB_port hcbrtf hzero hl hx _ hV

end Image

/-- Ramps into planes that hold ones, at rows of three vectors and a sample: libjxl's cube root on
    one side, the port's on the other, from a pattern of the number. -/
theorem linearSRGBToXYB_port_ramps :
    let cbrtf : ℝ → ℝ := fun v => narrow (F64.cbrt (widen v : ℝ))
    let bits : ℝ → BitVec 32 := Function.invFun f32Value
    let cbrtAdd : ℝ → ℝ → ℝ := fun v => cbrtAndAdd f32Value k13 k43 (bits v)
    ∃ out, linearSRGBToXYB cbrtf (fun v => F32.max v 0)
        (fun v => cubeRootAndAdd f32Value k13 k43 (bits v)) (RingOps.ofNat 255) (ramps 13 5)
        (fun _ => Plane.new 4 13 5 fun _ => 1) = some out ∧
      xybPlanesCpu (xybPixel ℝ cbrtAdd) (samples (ramps 13 5)) 13 5 true =
        some (image 13 5 fun c y x => component
          (positiveXyb ((out 0).sample y x, (out 1).sample y x, (out 2).sample y x)) c) := by
  intro cbrtf bits cbrtAdd
  have hramps : IsImage (ramps 13 5) 13 5 := ⟨fun _ _ => rfl, fun _ _ => rfl, by decide⟩
  have hones : IsImage (fun _ => Plane.new 4 13 5 fun _ => (1 : ℝ)) 13 5 :=
    ⟨fun _ _ => rfl, fun _ _ => rfl, by decide⟩
  have hvalue : f32Value 0 = 0 := by simp [f32Value]
  obtain ⟨out, e, -, hport⟩ := (linearSRGBToXYB_port (D := ℝ)
    (show cbrtf kOpsinAbsorbanceBias = _ from rfl) (fun _ => rfl) hramps hones
    (by decide)).2 f32Value bits k13 k43 hvalue
  exact ⟨out, e, hport⟩

end Ssimulacra2.Reference.Full
