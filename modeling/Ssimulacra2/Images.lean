/-
  File:      Ssimulacra2/Images.lean
  Subject:   Vectors as images: what the loops of the CPU engine compute.

  `image w h f` is the plane-major vector of the samples `f c y x`. Every operation of a scale maps
  images to images, sample by sample:

  * `xybPlanesCpu_image`, `downsampleCpu_image`, `mul_image` -- the loops of `Engine`;
  * `scaleMaps_image` -- a scale, over a blur that maps images to images;
  * `pixel_image` -- what the pooling loop reads.
-/
import Ssimulacra2.Engine

namespace Ssimulacra2

open Fill

variable {F : Type}

/-! ## 1. Images -/

/-- The vector of the samples `f c y x`. -/
def image (w h : Nat) (f : Nat → Nat → Nat → F) : List F :=
  (List.range (3 * w * h)).map fun j => f (j / (w * h)) (j % (w * h) / w) (j % w)

section Layout

variable {w h c y x : Nat} (f g : Nat → Nat → Nat → F)

@[simp] theorem image_length : (image w h f).length = 3 * w * h := by
  unfold image
  rw [List.length_map, List.length_range]

theorem decode_flat (hy : y < h) (hx : x < w) :
    f (flat w h c y x / (w * h)) (flat w h c y x % (w * h) / w) (flat w h c y x % w) = f c y x := by
  rw [flat_div_plane hy hx, flat_mod_plane hy hx, flat_mod hx, inPlane_div hx]

theorem image_getElem (hc : c < 3) (hy : y < h) (hx : x < w) :
    (image w h f)[flat w h c y x]? = some (f c y x) := by
  unfold image
  rw [List.getElem?_map, List.getElem?_range (flat_lt hc hy hx), Option.map_some,
    decode_flat f hy hx]

theorem cell_image [Zero F] (hc : c < 3) (hy : y < h) (hx : x < w) :
    cell (image w h f) (flat w h c y x) = f c y x := by
  unfold image
  rw [cell_table _ (flat_lt hc hy hx), decode_flat f hy hx]

/-- Two vectors of the size of an image that agree at every sample are equal. -/
theorem image_ext {xs ys : List F} (hx : xs.length = 3 * w * h) (hy : ys.length = 3 * w * h)
    (h' : ∀ c < 3, ∀ y < h, ∀ x < w, xs[flat w h c y x]? = ys[flat w h c y x]?) : xs = ys := by
  refine List.ext_getElem? fun j => ?_
  rcases Nat.lt_or_ge j (3 * w * h) with hj | hj
  · obtain ⟨c, y, x, hc, hy, hx, rfl⟩ := exists_flat hj
    exact h' c hc y hy x hx
  · rw [List.getElem?_eq_none (by omega), List.getElem?_eq_none (by omega)]

theorem image_congr (h' : ∀ c < 3, ∀ y < h, ∀ x < w, f c y x = g c y x) :
    image w h f = image w h g := by
  refine image_ext (image_length f) (image_length g) fun c hc y hy x hx => ?_
  rw [image_getElem f hc hy hx, image_getElem g hc hy hx, h' c hc y hy x hx]

/-- Every vector of the size is the image of its cells. -/
theorem eq_image [Zero F] {xs : List F} (hx : xs.length = 3 * w * h) :
    xs = image w h fun c y x => cell xs (flat w h c y x) := by
  refine image_ext hx (image_length _) fun c hc y hy x hx' => ?_
  have hlt := flat_lt hc hy hx'
  rw [image_getElem _ hc hy hx', cell_eq (by omega)]

end Layout

/-! ## 2. Loops over the samples -/

section Loops

variable [F32 F] {w h : Nat}

/-- A nest of loops that stores `f c y x` in its sample fills the image. -/
theorem fillPlanes_image {f : Nat → Nat → Nat → Option F} {g : Nat → Nat → Nat → F}
    (hf : ∀ c < 3, ∀ y < h, ∀ x < w, f c y x = some (g c y x)) :
    fillPlanes w h f = some (image w h g) := by
  let val : Nat → F := fun j => g (j / (w * h)) (j % (w * h) / w) (j % w)
  have hx (c : Nat) (hc : c < 3) (y : Nat) (hy : y < h) (x : Nat) (hx : x < w) :
      Fills (3 * w * h) val (fun dst => do
        let v ← f c y x
        writeAt ((flat w h c y x : Nat) : Int) v dst) {flat w h c y x} := by
    refine (fills_writeAt (flat_lt hc hy hx) (decode_flat g hy hx)).congr (fun xs _ => ?_)
      (fun _ => Iff.rfl)
    simp only [hf c hc y hy x hx, Option.bind_eq_bind, Option.bind_some]
  have hy (c : Nat) (hc : c < 3) (y : Nat) (hy : y < h) :=
    fills_foldlM (fun x dst => do
      let v ← f c y x
      writeAt ((flat w h c y x : Nat) : Int) v dst) (fun x => {flat w h c y x}) (List.range w)
      fun x hx' => hx c hc y hy x (List.mem_range.mp hx')
  have hc (c : Nat) (hc : c < 3) := fills_foldlM _ _ (List.range h)
    fun y hy' => hy c hc y (List.mem_range.mp hy')
  have hall := fills_foldlM _ _ (List.range 3) fun c hc' => hc c (List.mem_range.mp hc')
  refine hall.table (fun j hj => ?_) _ List.length_replicate
  obtain ⟨c, y, x, hc, hy, hx, e⟩ := exists_flat hj
  exact ⟨c, List.mem_range.mpr hc, y, List.mem_range.mpr hy, x, List.mem_range.mpr hx, e⟩

/-- Component `c` of a pixel. -/
def component (p : F × F × F) (c : Nat) : F :=
  if c = 0 then p.1 else if c = 1 then p.2.1 else p.2.2

/-- The positive XYB samples of linear samples `f`. -/
def xybSample (pixel : F → F → F → F × F × F) (f : Nat → Nat → Nat → F) (c y x : Nat) : F :=
  component (positiveXyb (pixel (f 0 y x) (f 1 y x) (f 2 y x))) c

/-- **`xyb_planes_cpu` converts pixel by pixel.** -/
theorem xybPlanesCpu_image (pixel : F → F → F → F × F × F) (f : Nat → Nat → Nat → F) :
    xybPlanesCpu pixel (image w h f) w h true = some (image w h (xybSample pixel f)) := by
  let val : Nat → F := fun j =>
    xybSample pixel f (j / (w * h)) (j % (w * h) / w) (j % w)
  have hstep (i : Nat) (hi : i < w * h) :
      Fills (3 * w * h) val (fun out => do
        let r ← (image w h f)[i]?
        let g ← (image w h f)[w * h + i]?
        let b ← (image w h f)[2 * (w * h) + i]?
        let p := pixel r g b
        let p := if true then positiveXyb p else p
        let out ← writeAt i p.1 out
        let out ← writeAt ((w * h + i : Nat) : Int) p.2.1 out
        writeAt ((2 * (w * h) + i : Nat) : Int) p.2.2 out)
        (({i} ∪ {w * h + i}) ∪ {2 * (w * h) + i}) := by
    obtain ⟨c, y, x, hc, hy, hx, e⟩ := exists_flat (w := w) (h := h) (j := i) (by
      rw [Nat.mul_assoc]
      omega)
    have hc0 : c = 0 := by
      have hd := flat_div_plane (c := c) hy hx
      rw [← e, Nat.div_eq_of_lt hi] at hd
      exact hd.symm
    have e0 : i = flat w h 0 y x := by rw [e, hc0]
    have e1 : w * h + i = flat w h 1 y x := by
      rw [e0]
      unfold flat
      ring
    have e2 : 2 * (w * h) + i = flat w h 2 y x := by
      rw [e0]
      unfold flat
      ring
    rw [e1, e2, e0, image_getElem f (by decide) hy hx, image_getElem f (by decide) hy hx,
      image_getElem f (by decide) hy hx]
    let p := positiveXyb (pixel (f 0 y x) (f 1 y x) (f 2 y x))
    have w0 : Fills (3 * w * h) val (writeAt ((flat w h 0 y x : Nat) : Int) p.1)
        {flat w h 0 y x} := fills_writeAt (flat_lt (by decide) hy hx) (decode_flat (xybSample pixel f) hy hx)
    have w1 : Fills (3 * w * h) val (writeAt ((flat w h 1 y x : Nat) : Int) p.2.1)
        {flat w h 1 y x} := fills_writeAt (flat_lt (by decide) hy hx) (decode_flat (xybSample pixel f) hy hx)
    have w2 : Fills (3 * w * h) val (writeAt ((flat w h 2 y x : Nat) : Int) p.2.2)
        {flat w h 2 y x} := fills_writeAt (flat_lt (by decide) hy hx) (decode_flat (xybSample pixel f) hy hx)
    refine ((w0.comp w1).comp w2).congr (fun xs _ => ?_) (fun _ => Iff.rfl)
    simp only [Option.bind_eq_bind, Option.bind_some, if_true, Option.bind_assoc]
    rfl
  have hall := fills_foldlM _ _ (List.range (w * h)) fun i hi => hstep i (List.mem_range.mp hi)
  unfold xybPlanesCpu
  refine hall.table (fun j hj => ?_) _ (by rw [List.length_replicate, Nat.mul_assoc])
  obtain ⟨c, y, x, hc, hy, hx, e⟩ := exists_flat hj
  refine ⟨y * w + x, List.mem_range.mpr (inPlane_lt hy hx), ?_⟩
  have hc3 : c = 0 ∨ c = 1 ∨ c = 2 := by omega
  rw [flat_eq_planes] at e
  rcases hc3 with rfl | rfl | rfl
  · exact Or.inl (Or.inl (by rw [e]; simp))
  · exact Or.inl (Or.inr (by rw [e]; simp))
  · exact Or.inr (by rw [e]; simp)

/-- The four samples under an output of the halving, summed in order and scaled. -/
def boxSample (iw ih : Nat) (f : Nat → Nat → Nat → F) (c oy ox : Nat) : F :=
  let s (iy ix : Nat) : F := f c (min (oy * 2 + iy) (ih - 1)) (min (ox * 2 + ix) (iw - 1))
  (0 + s 0 0 + s 0 1 + s 1 0 + s 1 1) * F32.lit 0.25

/-- **`downsample_cpu` halves sample by sample**, with the edges clamped. -/
theorem downsampleCpu_image {iw ih : Nat} (hw : 1 ≤ iw) (hh : 1 ≤ ih)
    (f : Nat → Nat → Nat → F) :
    downsampleCpu (image iw ih f) iw ih =
      some (image ((iw + 1) / 2) ((ih + 1) / 2) (boxSample iw ih f), (iw + 1) / 2, (ih + 1) / 2) := by
  have hread (c : Nat) (hc : c < 3) (y x : Nat) :
      (image iw ih f)[c * iw * ih + min y (ih - 1) * iw + min x (iw - 1)]? =
        some (f c (min y (ih - 1)) (min x (iw - 1))) :=
    image_getElem f hc (by omega) (by omega)
  have hr : List.range 2 = [0, 1] := by decide
  unfold downsampleCpu
  dsimp only
  rw [fillPlanes_image (g := boxSample iw ih f)]
  · rfl
  · intro c hc oy _ ox _
    unfold boxSum boxSample
    simp only [hr, List.foldlM_cons, List.foldlM_nil, hread c hc, Option.bind_eq_bind,
      Option.bind_some, Option.pure_def]

end Loops

/-! ## 3. A scale -/

section Scale

variable [F32 F] {w h : Nat}

theorem mul_image (f g : Nat → Nat → Nat → F) :
    mul (image w h f) (image w h g) = image w h fun c y x => f c y x * g c y x := by
  have hl : (mul (image w h f) (image w h g)).length = 3 * w * h := by
    unfold mul
    rw [List.length_zipWith, image_length, image_length, Nat.min_self]
  refine image_ext hl (image_length _) fun c hc y hy x hx => ?_
  unfold mul
  rw [List.getElem?_zipWith, image_getElem f hc hy hx, image_getElem g hc hy hx,
    image_getElem _ hc hy hx]

/-- The images of a scale, sample by sample; `b` is the blur. -/
structure ScaleImages (F : Type) where
  x1 : Nat → Nat → Nat → F
  x2 : Nat → Nat → Nat → F
  s11 : Nat → Nat → Nat → F
  s22 : Nat → Nat → Nat → F
  s12 : Nat → Nat → Nat → F
  mu1 : Nat → Nat → Nat → F
  mu2 : Nat → Nat → Nat → F

/-- The seven images of a scale from the linear samples. -/
def scaleImages (pixel : F → F → F → F × F × F)
    (b : (Nat → Nat → Nat → F) → Nat → Nat → Nat → F) (f g : Nat → Nat → Nat → F) :
    ScaleImages F :=
  let x1 := xybSample pixel f
  let x2 := xybSample pixel g
  ⟨x1, x2, b fun c y x => x1 c y x * x1 c y x, b fun c y x => x2 c y x * x2 c y x,
    b fun c y x => x1 c y x * x2 c y x, b x1, b x2⟩

/-- The vectors of the seven images. -/
def ScaleImages.maps (w h : Nat) (s : ScaleImages F) : ScaleMaps F :=
  ⟨w, h, image w h s.x1, image w h s.x2, image w h s.s11, image w h s.s22, image w h s.s12,
    image w h s.mu1, image w h s.mu2⟩

/-- **A scale, sample by sample**, over a blur that maps images to images. -/
theorem scaleMaps_image {ops : ScaleOps F} {b : (Nat → Nat → Nat → F) → Nat → Nat → Nat → F}
    (hb : ∀ f, ops.blur (image w h f) w h = some (image w h (b f))) (f g : Nat → Nat → Nat → F) :
    scaleMaps ops (image w h f) (image w h g) w h =
      some ((scaleImages ops.pixel b f g).maps w h) := by
  unfold scaleMaps
  simp only [xybPlanesCpu_image, mul_image, hb, Option.bind_eq_bind, Option.bind_some]
  rfl

omit [F32 F] in
/-- **What the pooling loop reads.** -/
theorem pixel_image (s : ScaleImages F) {c y x : Nat} (hc : c < 3) (hy : y < h) (hx : x < w) :
    (s.maps w h).pixel (c * (w * h) + y * w + x) =
      some ⟨s.x1 c y x, s.x2 c y x, s.s11 c y x, s.s22 c y x, s.s12 c y x, s.mu1 c y x,
        s.mu2 c y x⟩ := by
  have e : c * (w * h) + y * w + x = flat w h c y x := by
    unfold flat
    ring
  unfold ScaleMaps.pixel ScaleImages.maps
  simp only [e, image_getElem _ hc hy hx, Option.bind_eq_bind, Option.bind_some]

omit [F32 F] in
/-- A pixel of seven vectors of one length. -/
theorem pixel_cells [Zero F] {m : ScaleMaps F} {n i : Nat}
    (hl : ∀ xs ∈ [m.x1, m.x2, m.mu1, m.mu2, m.s11, m.s22, m.s12], xs.length = n) (hi : i < n) :
    m.pixel i = some ⟨cell m.x1 i, cell m.x2 i, cell m.s11 i, cell m.s22 i, cell m.s12 i,
      cell m.mu1 i, cell m.mu2 i⟩ := by
  simp only [List.forall_mem_cons, List.not_mem_nil, false_implies, implies_true, and_true] at hl
  obtain ⟨h1, h2, hm1, hm2, h11, h22, h12⟩ := hl
  unfold ScaleMaps.pixel
  rw [cell_eq (by omega), cell_eq (by omega), cell_eq (by omega), cell_eq (by omega),
    cell_eq (by omega), cell_eq (by omega), cell_eq (by omega)]
  rfl

end Scale

end Ssimulacra2
