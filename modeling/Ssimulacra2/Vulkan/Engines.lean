/-
  File:      Ssimulacra2/Vulkan/Engines.lean
  Subject:   The GPU engine and the CPU engine compute one metric, over exact arithmetic.

  The launches of a round leave the images of the CPU round, sample by sample, and pooling the
  two maps that are read back is the fused pooling loop.

  * `blur_runs` -- the two blur kernels, one after the other, are `blur_planes_cpu`;
  * `norms_maps` -- the second pass over the maps is the pooling loop;
  * `computeLoop_scaleLoop` -- the two scale loops, round by round;
  * `pipeline_answers` -- whatever the device does the command has the norms of the CPU engine;
  * `engines_agree` -- the engines, and the routing of the command line.
-/
import Ssimulacra2.Blur.Agree
import Ssimulacra2.Blur.Gaussian
import Ssimulacra2.Blur.Lines
import Ssimulacra2.Blur.Table
import Ssimulacra2.Range
import Ssimulacra2.Scales
import Ssimulacra2.ScoreOrder
import Ssimulacra2.Vulkan.Calls
import Ssimulacra2.Vulkan.Identity
import Ssimulacra2.Vulkan.Kernels
import Ssimulacra2.Vulkan.Pair
import Ssimulacra2.Vulkan.Panics

namespace Ssimulacra2

open Fill Fallible Prog

/-! ## 1. The blur -/

section Passes

variable {R : Type} [CommRing R] {rg : RgConst R} (hN : 1 ≤ rg.radius) (w h : Nat)

include hN

/-- **The horizontal kernel** over every row of every plane. -/
theorem cover_rows (hrg : Expanded rg) {img out : List R} (hi : img.length = 3 * w * h)
    (ho : out.length = 3 * w * h) :
    Shader.cover (3 * h) (Shader.blurHMain (readAt img) writeAt (uploaded rg) w h rg.radius) out =
      some ((List.range (3 * w * h)).map (rowValue rg w (cell img))) := by
  have hfma (s o : R) : mulAdd 0 s o = o := by rw [mulAdd_ring, zero_mul, zero_add]
  have hrow (r : Nat) (hr : r ∈ List.range (3 * h)) : Fills (3 * w * h) (rowValue rg w (cell img))
      (Shader.blurHMain (readAt img) writeAt (uploaded rg) w h rg.radius r)
      {j | ∃ x < w, j = flat w h (r / h) (r % h) x} := by
    have hr := List.mem_range.mp hr
    have hc : r / h < 3 := Nat.div_lt_of_lt_mul (by omega)
    have hy : r % h < h := Nat.mod_lt _ (by omega)
    have e : r = r / h * h + r % h := (Nat.div_add_mod' r h).symm
    generalize r / h = c at *
    generalize r % h = y at *
    subst e
    have hrow := row_lt (w := w) hc hy
    have hscan : Fills (3 * w * h) (rowValue rg w (cell img))
        (fun xs => scanRow (fun i => readAt img ((c * w * h + y * w : Nat) + i))
          (fun i => writeAt ((c * w * h + y * w : Nat) + i)) rg w xs)
        {j | ∃ x < w, j = c * w * h + y * w + x * 1} := by
      refine fills_scanRow hN (f := cell img) (fun i h0 h1 => ?_) (fun i h0 h1 v xs => ?_)
        (fun x hx => ⟨by omega, ?_⟩) hrg
      · rw [readAt_eq (by omega) (by omega)]
        congr 2
        omega
      · congr 1
        omega
      · rw [Nat.mul_one]
        exact rowValue_flat hx rg (cell img)
    refine hscan.congr (fun xs _ => blurHMain_row _ _ rg hfma w h hc hy xs) (fun j => ?_)
    unfold flat
    simp only [Set.mem_ofPred_eq, Nat.mul_one]
  refine (fills_foldlM _ _ (List.range (3 * h)) hrow).table (fun j hj => ?_) out ho
  obtain ⟨c, y, x, hc, hy, hx, e⟩ := exists_flat hj
  have hlt : c * h + y < 3 * h := by nlinarith
  refine ⟨c * h + y, List.mem_range.mpr hlt, x, hx, ?_⟩
  rw [Nat.mul_comm c h, Nat.mul_add_div (by omega), Nat.mul_add_mod, Nat.mod_eq_of_lt hy,
    Nat.div_eq_of_lt hy, Nat.add_zero, e]

/-- **The vertical kernel** over every column of every plane. -/
theorem cover_columns {temp out : List R} (ht : temp.length = 3 * w * h)
    (ho : out.length = 3 * w * h) :
    Shader.cover (3 * w) (Shader.blurVMain (readAt temp) writeAt (uploaded rg) w h rg.radius) out =
      some ((List.range (3 * w * h)).map (colValue rg w h (cell temp))) := by
  have hflat (c x y : Nat) : flat w h c 0 x + y * w = flat w h c y x := by
    unfold flat
    ring
  have hcell (c x : Nat) (hc : c < 3) (hx : x < w) (i : Int) (h0 : 0 ≤ i) (h1 : i < h) :
      ((c * w * h + x : Nat) : Int) + i * w = (flat w h c i.toNat x : Nat) ∧
        flat w h c i.toNat x < 3 * w * h := by
    obtain ⟨e, hlt⟩ := column_lt hc hx h0 h1
    refine ⟨?_, hlt⟩
    rw [← e]
    push_cast
    ring
  have hcol (q : Nat) (hq : q ∈ List.range (3 * w)) : Fills (3 * w * h) (colValue rg w h (cell temp))
      (Shader.blurVMain (readAt temp) writeAt (uploaded rg) w h rg.radius q)
      {j | ∃ y < h, j = flat w h (q / w) 0 (q % w) + y * w} := by
    have hq := List.mem_range.mp hq
    have hc : q / w < 3 := Nat.div_lt_of_lt_mul (by omega)
    have hx : q % w < w := Nat.mod_lt _ (by omega)
    have e : q = q / w * w + q % w := (Nat.div_add_mod' q w).symm
    generalize q / w = c at *
    generalize q % w = x at *
    subst e
    have hscan : Fills (3 * w * h) (colValue rg w h (cell temp))
        (fun xs => scanColumn (fun i => readAt temp ((c * w * h + x : Nat) + i * w))
          (fun i => writeAt ((c * w * h + x : Nat) + i * w)) rg h xs)
        {j | ∃ y < h, j = flat w h c 0 x + y * w} := by
      refine fills_scanColumn hN (f := cell temp) (fun i h0 h1 => ?_) (fun i h0 h1 v xs => ?_)
        (fun y hy => ⟨?_, ?_⟩)
      · obtain ⟨e, hlt⟩ := hcell c x hc hx i h0 h1
        rw [e, readAt_eq (by omega) (by omega), Int.toNat_natCast, hflat]
      · obtain ⟨e, -⟩ := hcell c x hc hx i h0 h1
        rw [e, hflat]
      · rw [hflat]
        exact flat_lt hc hy hx
      · rw [hflat]
        exact colValue_flat hy hx rg (cell temp)
    exact hscan.congr (fun xs _ => blurVMain_column _ _ rg w h hc hx xs) (fun j => Iff.rfl)
  refine (fills_foldlM _ _ (List.range (3 * w)) hcol).table (fun j hj => ?_) out ho
  obtain ⟨c, y, x, hc, hy, hx, e⟩ := exists_flat hj
  have hlt : c * w + x < 3 * w := by nlinarith
  refine ⟨c * w + x, List.mem_range.mpr hlt, y, hy, ?_⟩
  rw [Nat.mul_comm c w, Nat.mul_add_div (by omega), Nat.mul_add_mod, Nat.mod_eq_of_lt hx,
    Nat.div_eq_of_lt hx, Nat.add_zero, hflat, e]

end Passes

/-! ## 2. Pooling in one pass and in two -/

section Pooling

/-- Loops over rows and columns as one loop over flat indices. -/
theorem foldlM_rows {σ : Type} (f : σ → Nat → Option σ) (w h : Nat) (s : σ) :
    (List.range h).foldlM (fun s y => (List.range w).foldlM (fun s x => f s (y * w + x)) s) s =
      (List.range (h * w)).foldlM f s := by
  induction h with
  | zero => rw [Nat.zero_mul]; rfl
  | succ h ih =>
    rw [List.range_succ, List.foldlM_append, ih, Nat.succ_mul, List.range_add, List.foldlM_append]
    refine congrArg _ (funext fun s => ?_)
    rw [List.foldlM_cons, List.foldlM_map, Option.bind_eq_bind]
    exact Option.bind_fun_some _

/-- A loop whose rounds go through. -/
theorem foldlM_pure {α σ : Type} {f : σ → α → Option σ} {g : σ → α → σ} {xs : List α}
    (h : ∀ s, ∀ a ∈ xs, f s a = some (g s a)) (s : σ) : xs.foldlM f s = some (xs.foldl g s) := by
  induction xs generalizing s with
  | nil => rfl
  | cons a xs ih =>
    rw [List.foldlM_cons, h s a List.mem_cons_self, Option.bind_eq_bind, Option.bind_some,
      List.foldl_cons]
    exact ih (fun s b hb => h s b (List.mem_cons_of_mem _ hb)) _

/-- Two accumulators side by side. -/
theorem foldl_both {ι α β : Type} (f : α → ι → α) (g : β → ι → β) (xs : List ι) (a : α) (b : β) :
    xs.foldl (fun s i => (f s.1 i, g s.2 i)) (a, b) = (xs.foldl f a, xs.foldl g b) := by
  induction xs generalizing a b with
  | nil => rfl
  | cons i xs ih => exact ih _ _

/-- The planes of a table. -/
theorem slices_table {α : Type} (n : Nat) (g : Nat → α) :
    slices n ((List.range (3 * n)).map g) =
      some fun c => (List.range n).map fun i => g (c.val * n + i) := by
  have hl : ((List.range (3 * n)).map g).length = 3 * n := by
    rw [List.length_map, List.length_range]
  unfold slices
  rw [if_pos hl.ge]
  refine congrArg some (funext fun c => List.ext_getElem? fun i => ?_)
  have hc : c.val * n + n ≤ 3 * n := by
    have := Nat.mul_le_mul_right n (show c.val + 1 ≤ 3 by omega)
    rwa [Nat.add_mul, Nat.one_mul] at this
  rcases Nat.lt_or_ge i n with hi | hi
  · rw [List.getElem?_take_of_lt hi, List.getElem?_drop, List.getElem?_map, List.getElem?_map,
      List.getElem?_range hi, List.getElem?_range (by omega)]
    rfl
  · rw [List.getElem?_eq_none (by rw [List.length_take]; omega),
      List.getElem?_eq_none (by rw [List.length_map, List.length_range]; exact hi)]

/-- The two formulas of a pixel, without rounding. -/
theorem mapsMainPixel_exact (p : Pixel ℝ) :
    Shader.mapsMainPixel ℝ p = (p.ssimD ℝ, p.edgeD1 ℝ) := by
  have hnum : p.s12 - p.m1 * p.m2 + (p.s12 - p.m1 * p.m2) + kC2 = p.numS := by
    unfold Pixel.numS
    rw [exact_ofNat32, Nat.cast_ofNat]
    ring
  unfold Shader.mapsMainPixel Pixel.ssimD Pixel.error Pixel.edgeD1
  dsimp only
  rw [hnum]
  rfl

variable {m : ScaleMaps ℝ} {v : Nat → Pixel ℝ}
  (hv : ∀ i < 3 * (m.w * m.h), m.pixel i = some (v i))

include hv

/-- The fused loop of a channel as two sums over its plane. -/
theorem poolChannel_sums {c : Nat} (hc : c < 3) : poolChannel ℝ m c =
    some (((List.range (m.w * m.h)).foldl
        (fun s i => addSsim s ((v (c * (m.w * m.h) + i)).ssimD ℝ)) (0, 0)),
      (List.range (m.w * m.h)).foldl
        (fun s i => addEdge s ((v (c * (m.w * m.h) + i)).edgeD1 ℝ)) (0, 0, 0, 0)) := by
  have hplane : c * (m.w * m.h) + m.w * m.h ≤ 3 * (m.w * m.h) := by
    have := Nat.mul_le_mul_right (m.w * m.h) (show c + 1 ≤ 3 by omega)
    rwa [Nat.add_mul, Nat.one_mul] at this
  have hrow := foldlM_rows (fun (s : (ℝ × ℝ) × (ℝ × ℝ × ℝ × ℝ)) i => do
    let p ← m.pixel (c * (m.w * m.h) + i)
    some (addSsim s.1 (p.ssimD ℝ), addEdge s.2 (p.edgeD1 ℝ))) m.w m.h ((0, 0), (0, 0, 0, 0))
  unfold poolChannel
  simp only [Nat.add_assoc]
  rw [hrow, Nat.mul_comm m.h m.w, foldlM_pure fun s i hi => by
    rw [hv _ (by have := List.mem_range.mp hi; omega), Option.bind_eq_bind, Option.bind_some]]
  exact congrArg some (foldl_both
    (fun s i => addSsim s ((v (c * (m.w * m.h) + i)).ssimD ℝ))
    (fun s i => addEdge s ((v (c * (m.w * m.h) + i)).edgeD1 ℝ)) _ _ _)

/-- **Pooling the two maps is the pooling loop.** -/
theorem norms_maps : Denote.norms ℝ
    ((List.range (3 * (m.w * m.h))).map fun i => (Shader.mapsMainPixel ℝ (v i)).1,
      (List.range (3 * (m.w * m.h))).map fun i => (Shader.mapsMainPixel ℝ (v i)).2) m.w m.h =
    poolScale ℝ m := by
  unfold Denote.norms normsOf poolScale
  simp only [List.getD_cons_zero, List.getD_cons_succ, slices_table, Option.bind_eq_bind,
    Option.bind_some, poolChannel_sums hv (show 0 < 3 by decide),
    poolChannel_sums hv (show 1 < 3 by decide), poolChannel_sums hv (show 2 < 3 by decide)]
  refine congrArg some ?_
  unfold ssimNorms edgeNorms
  simp only [mapsMainPixel_exact, List.foldl_map, exact_widen]
  rfl

end Pooling

/-! ## 3. A round -/

section Round

variable {E : Env ℝ} {f : Launches ℝ} {cbrtAdd : ℝ → ℝ → ℝ} {N : Nat} (hc : Computes ℝ E f N)
  (hr : RunsShaders ℝ E cbrtAdd N)

/-- A launch that is not refused leaves its value. -/
theorem launch_some {E : Env ℝ} {α : Type} {g : Nat} {x y : α} (h : Denote.launch E g x = some y) :
    y = x := by
  obtain ⟨_, -, e⟩ := Option.map_eq_some_iff.mp h
  exact e.symm

include hc hr

theorem launch_mul {w h : Nat} (hb : 3 * w * h ≤ N) (g1 g2 : Nat → Nat → Nat → ℝ) {y : List ℝ}
    (hy : Denote.mul E f (image w h g1) (image w h g2) (3 * (w * h)) = some y) :
    y = image w h fun c y x => g1 c y x * g2 c y x := by
  have e : 3 * (w * h) = 3 * w * h := (Nat.mul_assoc 3 w h).symm
  rw [launch_some hy, e, mul_runs hc hr hb (image_length g1) (image_length g2), mul_image,
    fit_self (image_length _)]

theorem launch_xyb {w h : Nat} (hb : 3 * w * h ≤ N) (g : Nat → Nat → Nat → ℝ) {y : List ℝ}
    (hy : Denote.xyb E f (image w h g) (w * h) = some y) :
    y = image w h (xybSample (xybPixel ℝ cbrtAdd) g) := by
  have e : 3 * (w * h) = 3 * w * h := (Nat.mul_assoc 3 w h).symm
  rw [launch_some hy, e, xyb_runs hc hr hb, fit_self (image_length _)]

theorem launch_downsample {w h : Nat} (hw : 1 ≤ w) (hh : 1 ≤ h) (hb : 3 * w * h ≤ N)
    (g : Nat → Nat → Nat → ℝ) {y : List ℝ}
    (hy : Denote.downsample E f (image w h g) w h = some y) :
    y = image ((w + 1) / 2) ((h + 1) / 2) (boxSample w h g) := by
  rw [launch_some hy, downsample_runs hc hr hb hw hh, fit_self (image_length _)]

variable {rg : RgConst ℝ} (hN : 1 ≤ rg.radius) (hrg : Expanded rg)

include hN hrg

/-- **The two kernels are the blur.** -/
theorem blur_runs {w h : Nat} (hw : 1 ≤ w) (hh : 1 ≤ h) (hb : 3 * w * h ≤ N) {img : List ℝ}
    (hi : img.length = 3 * w * h) :
    (f.blurH rg.radius w h (rgUpload rg) img).length = 3 * w * h ∧
      blurPlanesCpu img w h rg =
        some (f.blurV rg.radius w h (rgUpload rg) (f.blurH rg.radius w h (rgUpload rg) img)) := by
  have hz : (List.replicate (3 * w * h) (0 : ℝ)).length = 3 * w * h := List.length_replicate
  have hw' : 3 * w ≤ N := by nlinarith
  have hh' : 3 * h ≤ N := by nlinarith
  have hrows := hr.kernel .blurH [.u32 (E.asU32 w), .u32 (E.asU32 h), .u32 rg.radius]
    (splitGroups (groupsOf (E.asU32 (3 * h))) E.maxGroupsX)
    [img, .replicate (3 * w * h) 0, rgUpload rg]
  simp only [Shader.cleared] at hrows
  rw [clear_zeros, hc.blurH _ w h _ _ _ hb hi hz (rgUpload_length rg), hr.asU32 _ hh',
    hr.asU32 w (by omega), hr.asU32 h (by omega)] at hrows
  simp only [Shader.launch] at hrows
  have htable : Shader.cover (3 * h) (Shader.blurHMain (readAt img) writeAt
      (fun i => (rgUpload rg).getD i 0) w h rg.radius) (.replicate (3 * w * h) 0) =
      some ((List.range (3 * w * h)).map (rowValue rg w (cell img))) := cover_rows hN w h hrg hi hz
  rw [Shader.cover_grid (Shader.blurHMain_idle _ _ _ w h _) (Shader.grid_covers (3 * h) _),
    htable] at hrows
  simp only [List.cons.injEq, true_and, and_true, Option.getD_some] at hrows
  -- the rows are the input of the second kernel
  have ht : ((List.range (3 * w * h)).map (rowValue rg w (cell img))).length = 3 * w * h := by
    rw [List.length_map, List.length_range]
  have hcols := hr.kernel .blurV [.u32 (E.asU32 w), .u32 (E.asU32 h), .u32 rg.radius]
    (splitGroups (groupsOf (E.asU32 (3 * w))) E.maxGroupsX)
    [(List.range (3 * w * h)).map (rowValue rg w (cell img)), .replicate (3 * w * h) 0,
      rgUpload rg]
  simp only [Shader.cleared] at hcols
  rw [clear_zeros, hc.blurV _ w h _ _ _ hb ht hz (rgUpload_length rg), hr.asU32 _ hw',
    hr.asU32 w (by omega), hr.asU32 h (by omega)] at hcols
  simp only [Shader.launch] at hcols
  have htable' : Shader.cover (3 * w) (Shader.blurVMain
      (readAt ((List.range (3 * w * h)).map (rowValue rg w (cell img)))) writeAt
      (fun i => (rgUpload rg).getD i 0) w h rg.radius) (.replicate (3 * w * h) 0) =
      some ((List.range (3 * w * h)).map
        (colValue rg w h (cell ((List.range (3 * w * h)).map (rowValue rg w (cell img)))))) :=
    cover_columns hN w h ht hz
  rw [Shader.cover_grid (Shader.blurVMain_idle _ _ _ w h _) (Shader.grid_covers (3 * w) _),
    htable'] at hcols
  simp only [List.cons.injEq, true_and, and_true, Option.getD_some] at hcols
  rw [hrows, hcols]
  refine ⟨ht, ?_⟩
  refine (blurPlanesCpu_table hN w h hrg hi).trans (congrArg some (List.map_congr_left ?_))
  intro j hj
  obtain ⟨c, y, x, hc, hy, hx, rfl⟩ := exists_flat (List.mem_range.mp hj)
  exact colValue_congr w h (fun y hy x hx => (cell_table _ (flat_lt hc hy hx)).symm) hy hx

theorem launch_blur {w h : Nat} (hw : 1 ≤ w) (hh : 1 ≤ h) (hb : 3 * w * h ≤ N)
    (g : Nat → Nat → Nat → ℝ) {y : List ℝ}
    (hy : Denote.blur E f rg (image w h g) w h = some y) :
    y = image w h (blurSample rg w h g) := by
  obtain ⟨hl, hrun⟩ := blur_runs hc hr hN hrg hw hh hb (image_length g)
  have hout := Option.some.inj (hrun.symm.trans (blurPlanesCpu_lines hN hrg w h g))
  obtain ⟨temp, htemp, hy⟩ := Option.bind_eq_some_iff.mp hy
  rw [launch_some hy, launch_some htemp, fit_self hl, hout, fit_self (image_length _)]

/-- The images of a round of the CPU engine. -/
noncomputable def roundImages (cbrtAdd : ℝ → ℝ → ℝ) (rg : RgConst ℝ) (w h : Nat)
    (g1 g2 : Nat → Nat → Nat → ℝ) : ScaleMaps ℝ :=
  (scaleImages (xybPixel ℝ cbrtAdd) (blurSample rg w h) g1 g2).maps w h

omit hc hr in
theorem scaleMaps_round (cbrtAdd : ℝ → ℝ → ℝ) (w h : Nat) (g1 g2 : Nat → Nat → Nat → ℝ) :
    scaleMaps (cpuOps ℝ cbrtAdd rg) (image w h g1) (image w h g2) w h =
      some (roundImages cbrtAdd rg w h g1 g2) := by
  have hb : ∀ g, (cpuOps ℝ cbrtAdd rg).blur (image w h g) w h =
      some (image w h (blurSample rg w h g)) := blurPlanesCpu_lines hN hrg w h
  exact scaleMaps_image hb g1 g2

omit hN hrg hc hr in
theorem roundImages_length (w h : Nat) (g1 g2 : Nat → Nat → Nat → ℝ) :
    let m := roundImages cbrtAdd rg w h g1 g2
    ∀ xs ∈ [m.x1, m.x2, m.mu1, m.mu2, m.s11, m.s22, m.s12], xs.length = 3 * (w * h) := by
  intro m xs hxs
  have e : 3 * (w * h) = 3 * w * h := (Nat.mul_assoc 3 w h).symm
  simp only [m, roundImages, ScaleImages.maps, List.mem_cons, List.not_mem_nil, or_false] at hxs
  rcases hxs with rfl | rfl | rfl | rfl | rfl | rfl | rfl <;> rw [image_length, e]

omit hN hrg hc hr in
theorem roundImages_pixel (w h : Nat) (g1 g2 : Nat → Nat → Nat → ℝ) : ∃ v : Nat → Pixel ℝ,
    ∀ i < 3 * (w * h), (roundImages cbrtAdd rg w h g1 g2).pixel i = some (v i) :=
  ⟨_, fun _ hi => pixel_cells (roundImages_length w h g1 g2) hi⟩

/-- **A round of the GPU engine** pools the images of the round of the CPU engine. -/
theorem computeMaps_round {w h : Nat} (hw : 1 ≤ w) (hh : 1 ≤ h) (hb : 3 * w * h ≤ N)
    (g1 g2 : Nat → Nat → Nat → ℝ) {both : List ℝ × List ℝ}
    (hboth : Denote.computeMaps E f rg ⟨image w h g1, image w h g2, w, h⟩ = some both) :
    Denote.norms ℝ both w h = poolScale ℝ (roundImages cbrtAdd rg w h g1 g2) := by
  obtain ⟨x1, h1, hboth⟩ := Option.bind_eq_some_iff.mp hboth
  obtain ⟨x2, h2, hboth⟩ := Option.bind_eq_some_iff.mp hboth
  cases launch_xyb hc hr hb g1 h1
  cases launch_xyb hc hr hb g2 h2
  obtain ⟨m11, h11, hboth⟩ := Option.bind_eq_some_iff.mp hboth
  obtain ⟨m22, h22, hboth⟩ := Option.bind_eq_some_iff.mp hboth
  obtain ⟨m12, h12, hboth⟩ := Option.bind_eq_some_iff.mp hboth
  cases launch_mul hc hr hb _ _ h11
  cases launch_mul hc hr hb _ _ h22
  cases launch_mul hc hr hb _ _ h12
  obtain ⟨s11, h11, hboth⟩ := Option.bind_eq_some_iff.mp hboth
  obtain ⟨s22, h22, hboth⟩ := Option.bind_eq_some_iff.mp hboth
  obtain ⟨s12, h12, hboth⟩ := Option.bind_eq_some_iff.mp hboth
  obtain ⟨mu1, h1, hboth⟩ := Option.bind_eq_some_iff.mp hboth
  obtain ⟨mu2, h2, hboth⟩ := Option.bind_eq_some_iff.mp hboth
  cases launch_blur hc hr hN hrg hw hh hb _ h11
  cases launch_blur hc hr hN hrg hw hh hb _ h22
  cases launch_blur hc hr hN hrg hw hh hb _ h12
  cases launch_blur hc hr hN hrg hw hh hb _ h1
  cases launch_blur hc hr hN hrg hw hh hb _ h2
  have hle : 3 * (w * h) ≤ N := by rwa [← Nat.mul_assoc]
  obtain ⟨v, hv⟩ : ∃ v : Nat → Pixel ℝ, ∀ i < 3 * (w * h),
      (roundImages cbrtAdd rg w h g1 g2).pixel i = some (v i) := roundImages_pixel w h g1 g2
  have hmaps := maps_runs hc hr hle (roundImages_length w h g1 g2) hv
  have hlaunch := launch_some hboth
  have htab (g : Nat → ℝ) : ((List.range (3 * (w * h))).map g).length = 3 * (w * h) := by
    rw [List.length_map, List.length_range]
  unfold roundImages ScaleImages.maps scaleImages at hmaps
  dsimp only at hmaps
  rw [hlaunch, hmaps, fit_self (htab _), fit_self (htab _)]
  exact norms_maps (m := roundImages cbrtAdd rg w h g1 g2) hv

end Round

/-! ## 4. The scale loops -/

section Loops

variable {E : Env ℝ} {f : Launches ℝ} {cbrtAdd : ℝ → ℝ → ℝ} {N : Nat} {rg : RgConst ℝ}

/-- A level of two images. -/
structure Imaged (l : Level ℝ) : Prop where
  w_pos : 1 ≤ l.w
  h_pos : 1 ≤ l.h
  a_image : ∃ g, l.a = image l.w l.h g
  b_image : ∃ g, l.b = image l.w l.h g

/-- The next level of the CPU engine. -/
theorem Imaged.next {l : Level ℝ} (hl : Imaged l) (scale : Nat) :
    ∃ l', nextLevel scale l = some l' ∧ Imaged l' := by
  obtain ⟨hw, hh, ⟨g1, ea⟩, g2, eb⟩ := hl
  unfold nextLevel
  by_cases h0 : scale > 0
  · rw [if_pos h0, ea, eb, downsampleCpu_image hw hh, downsampleCpu_image hw hh]
    exact ⟨_, rfl, by show 1 ≤ (l.w + 1) / 2; omega, by show 1 ≤ (l.h + 1) / 2; omega, ⟨_, rfl⟩, _, rfl⟩
  · rw [if_neg h0]
    exact ⟨l, rfl, hw, hh, ⟨g1, ea⟩, g2, eb⟩

/-- The round of the CPU engine. -/
noncomputable def cpuRound (cbrtAdd : ℝ → ℝ → ℝ) (rg : RgConst ℝ) (l : Level ℝ) :
    Option (ScaleNorms ℝ) :=
  (scaleMaps (cpuOps ℝ cbrtAdd rg) l.a l.b l.w l.h).bind (poolScale ℝ)

variable (hN : 1 ≤ rg.radius) (hrg : Expanded rg)

include hN hrg

variable (cbrtAdd) in
/-- A round of the CPU engine goes through. -/
theorem cpuRound_answers {l : Level ℝ} (hl : Imaged l) : ∃ sn, cpuRound cbrtAdd rg l = some sn := by
  obtain ⟨-, -, ⟨g1, ea⟩, g2, eb⟩ := hl
  obtain ⟨v, hv⟩ : ∃ v : Nat → Pixel ℝ, ∀ i < 3 * (l.w * l.h),
    (roundImages cbrtAdd rg l.w l.h g1 g2).pixel i = some (v i) := roundImages_pixel _ _ g1 g2
  unfold cpuRound
  rw [ea, eb, scaleMaps_round hN hrg cbrtAdd, Option.bind_some, ← norms_maps hv]
  unfold Denote.norms normsOf
  simp only [List.getD_cons_zero, List.getD_cons_succ]
  exact ⟨_, by rw [slices_table, slices_table]; rfl⟩

variable (cbrtAdd) in
/-- **The CPU engine never fails** on two images. -/
theorem scaleLoop_answers (left scale : Nat) {l : Level ℝ} (hl : Imaged l) :
    ∃ t, scaleLoop (cpuRound cbrtAdd rg) left scale l [] = some t := by
  have hstep (scale : Nat) (l : Level ℝ) (hl : Imaged l) (_ : ¬(l.w < 8 ∨ l.h < 8)) :
      ∃ l' sn, nextLevel scale l = some l' ∧ Imaged l' ∧ cpuRound cbrtAdd rg l' = some sn ∧ True := by
    obtain ⟨l', e, hl'⟩ := hl.next scale
    obtain ⟨sn, esn⟩ := cpuRound_answers cbrtAdd hN hrg hl'
    exact ⟨l', sn, e, hl', esn, trivial⟩
  obtain ⟨t, ht, -⟩ := scaleLoop_run hstep left scale l hl
  exact ⟨t, ht⟩

variable (hc : Computes ℝ E f N) (hr : RunsShaders ℝ E cbrtAdd N)

include hc hr

omit hN hrg in
/-- The levels of the two engines. -/
theorem halved_next {l l' : Level ℝ} (hl : Imaged l) (hb : 3 * l.w * l.h ≤ N) (scale : Nat)
    (hh : Denote.halved E f scale l = some l') :
    nextLevel scale l = some l' ∧ Imaged l' ∧ 3 * l'.w * l'.h ≤ N := by
  obtain ⟨hw, hh1, ⟨g1, ea⟩, g2, eb⟩ := hl
  unfold Denote.halved at hh
  unfold nextLevel
  by_cases h0 : scale > 0
  · rw [if_pos h0, ea, eb] at hh
    obtain ⟨d1, h1, hh⟩ := Option.bind_eq_some_iff.mp hh
    obtain ⟨d2, h2, hh⟩ := Option.bind_eq_some_iff.mp hh
    cases launch_downsample hc hr hw hh1 hb g1 h1
    cases launch_downsample hc hr hw hh1 hb g2 h2
    cases hh
    rw [if_pos h0, ea, eb, downsampleCpu_image hw hh1, downsampleCpu_image hw hh1]
    exact ⟨rfl, ⟨by show 1 ≤ (l.w + 1) / 2; omega, by show 1 ≤ (l.h + 1) / 2; omega, ⟨_, rfl⟩, _, rfl⟩,
      halved_bound hb⟩
  · rw [if_neg h0] at hh ⊢
    cases hh
    exact ⟨rfl, ⟨hw, hh1, ⟨g1, ea⟩, g2, eb⟩, hb⟩

/-- **The two scale loops**, by induction on the rounds to go. -/
theorem computeLoop_scaleLoop (left scale : Nat) {l : Level ℝ} (hl : Imaged l)
    (hb : 3 * l.w * l.h ≤ N) {out t : List (ScaleNorms ℝ)}
    (ht : Denote.computeLoop ℝ E f rg left scale l out = some t) :
    scaleLoop (cpuRound cbrtAdd rg) left scale l out = some t := by
  induction left generalizing scale l out with
  | zero => exact ht
  | succ left ih =>
    unfold Denote.computeLoop at ht
    unfold scaleLoop
    by_cases h8 : l.w < 8 ∨ l.h < 8
    · rw [if_pos h8] at ht ⊢
      exact ht
    · rw [if_neg h8] at ht ⊢
      obtain ⟨l', el, ht⟩ := Option.bind_eq_some_iff.mp ht
      obtain ⟨both, eboth, ht⟩ := Option.bind_eq_some_iff.mp ht
      obtain ⟨sn, esn, ht⟩ := Option.bind_eq_some_iff.mp ht
      obtain ⟨e, hl', hb'⟩ := halved_next hc hr hl hb scale el
      have hround : cpuRound cbrtAdd rg l' = some sn := by
        obtain ⟨w, h, ⟨g1, ea⟩, g2, eb⟩ := hl'
        obtain ⟨a, b, w', h'⟩ := l'
        dsimp only at ea eb
        subst ea eb
        have hn := computeMaps_round hc hr hN hrg w h hb' g1 g2 eboth
        unfold cpuRound
        rw [scaleMaps_round hN hrg cbrtAdd, Option.bind_some, ← hn, esn]
      rw [e, Option.bind_eq_bind, Option.bind_some, hround, Option.bind_eq_bind, Option.bind_some]
      exact ih (scale + 1) hl' hb' ht

end Loops

/-! ## 5. The engines -/

section Engines

variable {E : Env ℝ} {f : Launches ℝ} {cbrtAdd : ℝ → ℝ → ℝ} {N w h : Nat}

/-- **What the GPU engine answers** is what it computes, on any context between two calls. -/
theorem gpu_answer {F : Type} {D : Type} [F32 F] [F64 D] [Convert F D] {E : Env F} {f : Launches F}
    (hc : Computes D E f (3 * w * h)) {s : Sys F} (hs : s.Valid) (ho : s.openCmd = none)
    {lin1 lin2 : List F} {t : List (ScaleNorms D)}
    (ht : (computeSsimulacra2Gpu E D lin1 lin2 w h s).result = .ok t) :
    Denote.compute D E f lin1 lin2 w h = some t := by
  have hm : Runs E.kernel 0 [] s (Denote.compute D E f lin1 lin2 w h) (fun _ a x => a = x)
      (computeSsimulacra2Gpu E D lin1 lin2 w h s).result
      (computeSsimulacra2Gpu E D lin1 lin2 w h s).state
      (computeSsimulacra2Gpu E D lin1 lin2 w h s).trace :=
    computeSsimulacra2Gpu_meets hs ho lin1 lin2 w h hc
  obtain ⟨x, hx, rfl⟩ := hm.sound t ht
  exact hx

/-- A context between two calls of the engine, if there is one. -/
def Idle {F : Type} [Zero F] (ctx : Option (Sys F)) : Prop :=
  ∀ s, ctx = some s → s.Valid ∧ s.openCmd = none

theorem Idle.none {F : Type} [Zero F] : Idle (Option.none : Option (Sys F)) := by
  intro s h
  cases h

theorem Idle.routed {F : Type} [F32 F] {created : Option (Sys F)} (hi : Idle created)
    (forceCpu forceGpu : Bool) (w h : Nat) : Idle (routedContext forceCpu forceGpu w h created) := by
  unfold routedContext
  split_ifs
  · exact .none
  · exact hi

theorem Reaches.idle {F : Type} {D : Type} [F32 F] [F64 D] [Convert F D] {E : Env F} {f : Launches F}
    {c : Client F} (hreach : Reaches D E N c) (hc : Computes D E f N) : Idle (some c.sys) := by
  have hs := hreach.sound hc
  intro s h
  cases h
  exact ⟨hs.valid, hs.closed⟩

/-- Over exact arithmetic the launches compute what the CPU engine does. -/
theorem denote_eq_cpu (hc : Computes ℝ E f N) (hr : RunsShaders ℝ E cbrtAdd N) (hw : 1 ≤ w)
    (hh : 1 ≤ h) (hb : 3 * w * h ≤ N) {lin1 lin2 : List ℝ} (h1 : lin1.length = 3 * w * h)
    (h2 : lin2.length = 3 * w * h) :
    ∃ t, computeSsimulacra2Cpu ℝ cbrtAdd lin1 lin2 w h = some t ∧
      ∀ t', Denote.compute ℝ E f lin1 lin2 w h = some t' → t' = t := by
  obtain ⟨beta, hrg, -, -⟩ := gaussian_kernel
  have hN : 1 ≤ (derived 5 (by decide) beta).radius := show 1 ≤ 5 by decide
  have hexp := derived_expanded 5 (by decide) beta
  have hl : Imaged ⟨lin1, lin2, w, h⟩ := ⟨hw, hh, ⟨_, eq_image h1⟩, _, eq_image h2⟩
  obtain ⟨t, ht⟩ := scaleLoop_answers cbrtAdd hN hexp 6 0 hl
  refine ⟨t, ?_, fun t' ht' => ?_⟩
  · unfold computeSsimulacra2Cpu
    rw [hrg]
    exact ht
  · unfold Denote.compute Denote.sized at ht'
    rw [if_pos h1, if_pos h2, hrg] at ht'
    have hloop := computeLoop_scaleLoop hN hexp hc hr 6 0 hl hb ht'
    exact Option.some.inj (hloop.symm.trans ht)

/-- **Whatever the device does the command has the norms of the CPU engine**, and so one score: the
    GPU engine answers them, or returns an error and the CPU engine is run. -/
theorem pipeline_answers (hc : Computes ℝ E f N) (hr : RunsShaders ℝ E cbrtAdd N) (hw : 1 ≤ w)
    (hh : 1 ≤ h) (hb : 3 * w * h ≤ N) {lin1 lin2 : List ℝ} (h1 : lin1.length = 3 * w * h)
    (h2 : lin2.length = 3 * w * h) :
    ∃ t v, computeSsimulacra2Cpu ℝ cbrtAdd lin1 lin2 w h = some t ∧ score t = some v ∧
      ∀ sched junk (ctx : Option (Sys ℝ)), Idle ctx → ∃ ctx', Idle ctx' ∧
        ctx'.isSome = ctx.isSome ∧
        pipeline ℝ (E.on sched junk) cbrtAdd lin1 lin2 w h ctx = some (t, ctx') ∧
        pass ℝ (E.on sched junk) cbrtAdd lin1 lin2 w h ctx = some (v, ctx') := by
  obtain ⟨t, ht, hgpu⟩ := denote_eq_cpu hc hr hw hh hb h1 h2
  obtain ⟨beta, hrg, -, -⟩ := gaussian_kernel
  have ht6 : t.length ≤ 6 := by
    unfold computeSsimulacra2Cpu at ht
    rw [hrg] at ht
    exact scaleLoop_length ht
  obtain ⟨v, hv⟩ := score_answers ht6
  refine ⟨t, v, ht, hv, fun sched junk ctx hctx => ?_⟩
  cases ctx with
  | none =>
    have hp : pipeline ℝ (E.on sched junk) cbrtAdd lin1 lin2 w h none = some (t, none) := by
      unfold pipeline
      rw [ht]
      rfl
    exact ⟨none, .none, rfl, hp, pass_of_pipeline _ _ _ hp hv⟩
  | some s =>
    obtain ⟨hs, ho⟩ := hctx s rfl
    have hcw : Computes ℝ (E.on sched junk) f (3 * w * h) := (hc.mono hb).on sched junk
    have hext : Extends E.kernel 0 [] s
        (computeSsimulacra2Gpu (E.on sched junk) ℝ lin1 lin2 w h s).state _ :=
      (computeSsimulacra2Gpu_meets hs ho lin1 lin2 w h hcw).run.ext
    have hpanic := computeSsimulacra2Gpu_returned hs ho hcw (by rw [hrg]; rfl) h1 h2
    have hp : pipeline ℝ (E.on sched junk) cbrtAdd lin1 lin2 w h (some s) =
        some (t, some (computeSsimulacra2Gpu (E.on sched junk) ℝ lin1 lin2 w h s).state) := by
      unfold pipeline
      dsimp only
      cases hres : (computeSsimulacra2Gpu (E.on sched junk) ℝ lin1 lin2 w h s).result with
      | ok t' => rw [hgpu t' (gpu_answer hcw hs ho hres)]
      | error e =>
        cases e with
        | panic text => exact absurd rfl (hpanic _ hres text)
        | _ =>
          rw [ht]
          rfl
    refine ⟨some (computeSsimulacra2Gpu (E.on sched junk) ℝ lin1 lin2 w h s).state, fun s' e => ?_,
      rfl, hp, pass_of_pipeline _ _ _ hp hv⟩
    cases e
    exact ⟨hext.valid, hext.cmd.trans ho⟩

/-- **The two engines compute the same metric**, over exact arithmetic: on every context the GPU
    engine, its shaders run invocation by invocation, answers the norms of the CPU engine, or
    refuses a grid the device does not have. So the command line has the same norms, and with
    them the same score, whichever engine the routing or the fallback picks. -/
theorem engines_agree (hc : Computes ℝ E f N) (hr : RunsShaders ℝ E cbrtAdd N) (hw : 1 ≤ w)
    (hh : 1 ≤ h) (hb : 3 * w * h ≤ N) {lin1 lin2 : List ℝ} (h1 : lin1.length = 3 * w * h)
    (h2 : lin2.length = 3 * w * h) :
    ∃ t v, computeSsimulacra2Cpu ℝ cbrtAdd lin1 lin2 w h = some t ∧ score t = some v ∧
      Always ℝ E N (fun E => computeSsimulacra2Gpu E ℝ lin1 lin2 w h)
        (fun r => r = .ok t ∨ Refused r ∧ ¬Denote.Fits E N) ∧
      -- the routing and the fallback, on any schedule of driver errors
      ∀ sched junk (c : Client ℝ), Reaches ℝ (E.on sched junk) N c →
        ∀ forceCpu forceGpu device : Bool,
          let ctx := routedContext forceCpu forceGpu w h (if device then some c.sys else none)
          ∃ ctx', ctx'.isSome = ctx.isSome ∧
            pipeline ℝ (E.on sched junk) cbrtAdd lin1 lin2 w h ctx = some (t, ctx') ∧
            pass ℝ (E.on sched junk) cbrtAdd lin1 lin2 w h ctx = some (v, ctx') := by
  obtain ⟨t, v, ht, hv, hpipe⟩ := pipeline_answers hc hr hw hh hb h1 h2
  obtain ⟨t₁, ht₁, hgpu⟩ := denote_eq_cpu hc hr hw hh hb h1 h2
  cases ht₁.symm.trans ht
  refine ⟨t, v, ht, hv, ?_, ?_⟩
  · have hall := always_of_meets (v := Denote.compute ℝ E f lin1 lin2 w h) hc
      (m := fun E => computeSsimulacra2Gpu E ℝ lin1 lin2 w h) fun sched junk s hs ho =>
        computeSsimulacra2Gpu_meets hs ho lin1 lin2 w h ((hc.mono hb).on sched junk)
    intro sched junk c hr hn
    cases hv : Denote.compute ℝ E f lin1 lin2 w h with
    | some t' =>
      rw [← hgpu t' hv]
      exact Or.inl (hall.1 t' hv sched junk c hr hn)
    | none =>
      refine Or.inr ⟨hall.2 hv sched junk c hr hn, fun hf => ?_⟩
      obtain ⟨beta, hrg, -, -⟩ := gaussian_kernel
      obtain ⟨t', ht'⟩ := Denote.compute_fits (f := f) hf hb (by rw [hrg]; rfl) h1 h2
      rw [ht'] at hv
      cases hv
  · intro sched junk c hreach forceCpu forceGpu device ctx
    have hidle : Idle (if device then some c.sys else none) := by
      cases device with
      | false => exact .none
      | true => exact hreach.idle (hc.on sched junk)
    obtain ⟨ctx', -, h⟩ := hpipe sched junk ctx (hidle.routed forceCpu forceGpu w h)
    exact ⟨ctx', h⟩

/-- The device that runs the shaders has the grids of a small image. -/
theorem shading_fits {F : Type} {D : Type} [F32 F] [F64 D] [Convert F D] (cbrtAdd : F → F → F)
    (hN : N ≤ 65535) : Denote.Fits (shading D cbrtAdd) N := .of_row rfl (fun _ _ => rfl) hN

/-- A device that is lost at its first call. -/
theorem lost_answer {F : Type} {D : Type} [F32 F] [F64 D] [Convert F D] {E : Env F} {rg : RgConst F}
    {lin1 lin2 : List F} {code : String} (h1 : lin1.length = 3 * w * h)
    (h2 : lin2.length = 3 * w * h)
    (hrg : createRecursiveGaussian F (F64.lit 1.5 : D) = some rg) (hE : E.sched 0 = some code) :
    (computeSsimulacra2Gpu E D lin1 lin2 w h (.fresh F)).result =
      .error (.driver .createBuffer code) := by
  have hfirst : (attempt (E.enter .createBufferF32) .createBuffer (.fresh F)).result =
      .error (.driver .createBuffer code) := by
    have hsched : (E.enter .createBufferF32).sched (Sys.fresh F).tick = some code := hE
    simp only [attempt, hsched]
  have halloc (n : Nat) : (allocBuffer (E.enter .createBufferF32) n (.fresh F)).result =
      .error (.driver .createBuffer code) := by
    unfold allocBuffer
    rw [bind_error _ hfirst]
  have hupload : (createBufferF32 E lin1 (.fresh F)).result = .error (.driver .createBuffer code) := by
    unfold createBufferF32
    rw [bind_error _ (halloc _)]
  have hkeep : (keep (createBufferF32 E lin1) (.fresh F, [])).result =
      .error (.driver .createBuffer code) := by
    simp only [keep, hupload]
  have hrun : Post (computeSsimulacra2Gpu E D lin1 lin2 w h) (.fresh F)
      fun r _ _ => r = .error (.driver .createBuffer code) := by
    unfold computeSsimulacra2Gpu
    refine post_step (run_assertLen h1 _) (post_step (run_assertLen h2 _)
      (post_step (run_gaussian hrg _) ?_))
    show (withOwner destroyBuffer _ (.fresh F)).result = _
    unfold withOwner
    dsimp only
    rw [bind_error _ hkeep]
  exact hrun

/-- Two ramps, on the device that runs the shaders: the single shot, the route of a small image to
    the CPU engine, the device when it is asked for, and the fallback from one that is lost. -/
theorem engines_agree_ramps :
    let E := shading ℝ cbrtAddExact
    let lost := E.on (fun n => if n = 0 then some "lost" else none) fun _ => []
    let device : Option (Sys ℝ) := some (.fresh ℝ)
    ∃ t v, computeSsimulacra2Cpu ℝ cbrtAddExact (ramp 1) (ramp (1 / 2)) 8 8 = some t ∧
      score t = some v ∧
      (computeSsimulacra2Gpu E ℝ (ramp 1) (ramp (1 / 2)) 8 8 (.fresh ℝ)).result = .ok t ∧
      pass ℝ E cbrtAddExact (ramp 1) (ramp (1 / 2)) 8 8 (routedContext false false 8 8 device) =
        some (v, none) ∧
      (∃ ctx, pass ℝ E cbrtAddExact (ramp 1) (ramp (1 / 2)) 8 8
        (routedContext false true 8 8 device) = some (v, some ctx)) ∧
      (computeSsimulacra2Gpu lost ℝ (ramp 1) (ramp (1 / 2)) 8 8 (.fresh ℝ)).result =
        .error (.driver .createBuffer "lost") ∧
      ∃ ctx, pass ℝ lost cbrtAddExact (ramp 1) (ramp (1 / 2)) 8 8
        (routedContext false true 8 8 device) = some (v, some ctx) := by
  intro E lost device
  have hc : Computes ℝ E (E.launches ℝ) 192 := shading_computes _ 192
  have hr : RunsShaders ℝ E cbrtAddExact 192 := shading_runs _ 192
  have hf : Denote.Fits E 192 := shading_fits _ (by decide)
  have hE : E.Healthy := fun _ => rfl
  obtain ⟨t, v, ht, hv, hall, hpipe⟩ := engines_agree hc hr (by decide) (by decide) le_rfl (ramp_length 1)
    (ramp_length (1 / 2))
  refine ⟨t, v, ht, hv, ?_, ?_, ?_, ?_, ?_⟩
  · have hn := noFault_of_emits (computeSsimulacra2Gpu_fine (D := ℝ) hE (ramp 1) (ramp (1 / 2)) 8 8)
      (.fresh ℝ)
    rcases hall E.sched E.junk (.fresh ℝ) .fresh hn with h | ⟨-, h⟩
    · exact h
    · exact absurd hf h
  · obtain ⟨ctx', he, -, h⟩ := hpipe E.sched E.junk (.fresh ℝ) .fresh false false true
    rw [Option.isNone_iff_eq_none.mp (Option.isSome_eq_false_iff.mp he)] at h
    exact h
  · obtain ⟨ctx', he, -, h⟩ := hpipe E.sched E.junk (.fresh ℝ) .fresh false true true
    obtain ⟨ctx, rfl⟩ := Option.isSome_iff_exists.mp he
    exact ⟨ctx, h⟩
  · obtain ⟨beta, hrg, -, -⟩ := gaussian_kernel
    exact lost_answer (ramp_length 1) (ramp_length (1 / 2)) hrg rfl
  · obtain ⟨ctx', he, -, h⟩ := hpipe lost.sched lost.junk (.fresh ℝ) .fresh false true true
    obtain ⟨ctx, rfl⟩ := Option.isSome_iff_exists.mp he
    exact ⟨ctx, h⟩

end Engines

end Ssimulacra2
