/-
  File:      Ssimulacra2/Vulkan/Kernels.lean
  Subject:   The device that runs the shaders.

  A dispatch of `(gx, gy)` groups of 64 invocations runs `main` for every flat index
  `gl_GlobalInvocationID.y * (gx * 64) + gl_GlobalInvocationID.x`; invocations past the last element
  return at once (`cover_grid`), and the grids of the engine reach every element (`grid_covers`).

  * `Shader.launch` -- the six shaders as kernels on the contents of their bindings;
  * `RunsShaders` -- a device that runs them;
  * `mul_runs`, `downsample_runs`, `xyb_runs`, `maps_runs` -- what their launches leave.
-/
import Ssimulacra2.Blur.Shaders
import Ssimulacra2.Images
import Ssimulacra2.Vulkan.Fits
import Ssimulacra2.Vulkan.Shaders

namespace Ssimulacra2

variable {F : Type} {D : Type} [F32 F] [F64 D] [Convert F D]

namespace Shader

/-! ## 1. The grid -/

/-- The invocations of a dispatch. -/
def grid (groups : Nat × Nat) : Nat := groups.1 * 64 * groups.2

/-- **The grids of the engine reach every element.** -/
theorem grid_covers (n maxX : Nat) : n ≤ grid (splitGroups (groupsOf n) maxX) := by
  have hgroups : n ≤ 64 * groupsOf n := by
    unfold groupsOf
    omega
  unfold grid splitGroups
  dsimp only
  generalize hg : max (min (groupsOf n) (max maxX 1)) 1 = gx
  have hgx : 0 < gx := by omega
  have hrows := Nat.lt_mul_div_succ (groupsOf n + gx - 1) hgx
  rw [Nat.mul_add, Nat.mul_one] at hrows
  calc n ≤ 64 * groupsOf n := hgroups
    _ ≤ 64 * (gx * ((groupsOf n + gx - 1) / gx)) := Nat.mul_le_mul_left _ (by omega)
    _ = gx * 64 * ((groupsOf n + gx - 1) / gx) := by ring

/-- **Invocations past the last element return at once.** -/
theorem cover_grid {σ : Type} {main : Nat → σ → Option σ} {n m : Nat}
    (hidle : ∀ i, n ≤ i → ∀ out, main i out = some out) (hm : n ≤ m) (out : σ) :
    cover m main out = cover n main out := by
  obtain ⟨k, rfl⟩ := Nat.exists_eq_add_of_le hm
  induction k with
  | zero => rfl
  | succ k ih =>
    have hlast (out : σ) : [n + k].foldlM (fun out i => main i out) out = some out := by
      rw [List.foldlM_cons, hidle _ (by omega)]
      rfl
    have hstep : cover (n + (k + 1)) main out = (cover (n + k) main out).bind some := by
      unfold cover
      rw [← Nat.add_assoc, List.range_succ, List.foldlM_append]
      exact congrArg _ (funext hlast)
    rw [hstep, Option.bind_fun_some, ih (by omega)]

section Idle

theorem downsampleMain_idle (src : List F) (iw ih ow oh i : Nat) (hi : 3 * ow * oh ≤ i)
    (out : List F) : downsampleMain src iw ih ow oh i out = some out := if_pos hi

theorem mulMain_idle (a b : List F) (n i : Nat) (hi : n ≤ i) (out : List F) :
    mulMain a b n i out = some out := if_neg (by omega)

theorem xybMain_idle (cbrtAdd : F → F → F) (k : XybConsts F) (lin : List F) (i : Nat) (hi : k.n ≤ i)
    (out : List F) : xybMain cbrtAdd k lin i out = some out := if_pos hi

theorem mapsMain_idle (m : ScaleMaps F) (n i : Nat) (hi : 3 * n ≤ i) (out : List F × List F) :
    mapsMain D m n i out = some out := if_pos hi

theorem blurHMain_idle {σ : Type} (rd : Int → Option F) (wr : Int → F → σ → Option σ) (rg : Nat → F)
    (w h radius r : Nat) (hr : 3 * h ≤ r) (out : σ) :
    blurHMain rd wr rg w h radius r out = some out := if_pos hr

theorem blurVMain_idle {σ : Type} (rd : Int → Option F) (wr : Int → F → σ → Option σ) (rg : Nat → F)
    (w h radius q : Nat) (hq : 3 * w ≤ q) (out : σ) :
    blurVMain rd wr rg w h radius q out = some out := if_pos hq

end Idle

/-! ## 2. The shaders as kernels -/

/-- The push constants of `xyb_positive.comp`, read from their words. -/
def xybConsts : List (Word F) → Option (XybConsts F)
  | [.f32 m0, .f32 m1, .f32 m2, .f32 m3, .f32 m4, .f32 m5, .f32 m6, .f32 m7, .f32 m8, .f32 b0,
      .f32 b1, .f32 b2, .f32 c0, .f32 c1, .f32 c2, .u32 n, .u32 positive] =>
      some ⟨![m0, m1, m2, m3, m4, m5, m6, m7, m8], ![b0, b1, b2], ![c0, c1, c2], n, positive ≠ 0⟩
  | _ => none

/-- A dispatch of the six shaders. What a launch that leaves a buffer does to its outputs is not
    defined; here they stay. -/
def launch (D : Type) [F64 D] [Convert F D] (cbrtAdd : F → F → F) : Kernel F
  | .downsampleBox2, [.u32 iw, .u32 ih, .u32 ow, .u32 oh], groups, [src, dst] =>
      [src, (cover (grid groups) (downsampleMain src iw ih ow oh) dst).getD dst]
  | .mulPlanes, [.u32 n], groups, [a, b, o] =>
      [a, b, (cover (grid groups) (mulMain a b n) o).getD o]
  | .xybPositive, push, groups, [lin, xyb] =>
      [lin, ((xybConsts push).bind fun k =>
        cover (grid groups) (xybMain cbrtAdd k lin) xyb).getD xyb]
  | .blurH, [.u32 w, .u32 h, .u32 radius], groups, [src, dst, rg] =>
      [src, (cover (grid groups)
        (blurHMain (readAt src) writeAt (fun i => rg.getD i 0) w h radius) dst).getD dst, rg]
  | .blurV, [.u32 w, .u32 h, .u32 radius], groups, [src, dst, rg] =>
      [src, (cover (grid groups)
        (blurVMain (readAt src) writeAt (fun i => rg.getD i 0) w h radius) dst).getD dst, rg]
  | .mapsCombine, [.u32 n], groups, [x1, x2, mu1, mu2, s11, s22, s12, sd, ed] =>
      let out := (cover (grid groups) (mapsMain D ⟨n, 1, x1, x2, s11, s22, s12, mu1, mu2⟩ n)
        (sd, ed)).getD (sd, ed)
      [x1, x2, mu1, mu2, s11, s22, s12, out.1, out.2]
  | _, _, _, bufs => bufs

/-- The bindings with their outputs cleared. -/
def cleared : Shader → List (List F) → List (List F)
  | .downsampleBox2, [src, dst] => [src, dst.map fun _ => 0]
  | .mulPlanes, [a, b, o] => [a, b, o.map fun _ => 0]
  | .xybPositive, [lin, xyb] => [lin, xyb.map fun _ => 0]
  | .blurH, [src, dst, rg] => [src, dst.map fun _ => 0, rg]
  | .blurV, [src, dst, rg] => [src, dst.map fun _ => 0, rg]
  | .mapsCombine, [x1, x2, mu1, mu2, s11, s22, s12, sd, ed] =>
      [x1, x2, mu1, mu2, s11, s22, s12, sd.map fun _ => 0, ed.map fun _ => 0]
  | _, bufs => bufs

end Shader

/-- **A device that runs the shaders**: on cleared outputs its kernel is the launch of the shader
    (`Computes` has it for whatever else they held), and the sizes of images of `N` samples fit in
    32 bits. -/
structure RunsShaders (D : Type) [F64 D] [Convert F D] (E : Env F) (cbrtAdd : F → F → F)
    (N : Nat) : Prop where
  kernel : ∀ shader push groups bufs, E.kernel shader push groups (shader.cleared bufs) =
    Shader.launch D cbrtAdd shader push groups (shader.cleared bufs)
  asU32 : ∀ m ≤ N, E.asU32 m = m

/-! ## 3. A device -/

/-- The kernels of a device: what their dispatches leave in cleared outputs. -/
def Env.launches (D : Type) [F64 D] [Convert F D] (E : Env F) : Launches F where
  downsample iw ih src :=
    let n := 3 * ((iw + 1) / 2) * ((ih + 1) / 2)
    (E.kernel .downsampleBox2
      [.u32 (E.asU32 iw), .u32 (E.asU32 ih), .u32 (E.asU32 ((iw + 1) / 2)),
        .u32 (E.asU32 ((ih + 1) / 2))]
      (splitGroups (E.asU32 (groupsOf n)) E.maxGroupsX) [src, .replicate n 0]).getD 1 []
  mul n a b :=
    (E.kernel .mulPlanes [.u32 (E.asU32 n)] (splitGroups (E.asU32 (groupsOf n)) E.maxGroupsX)
      [a, b, .replicate n 0]).getD 2 []
  xyb n linear :=
    (E.kernel .xybPositive (xybPush D (E.asU32 n) true)
      (splitGroups (groupsOf (E.asU32 n)) E.maxGroupsX) [linear, .replicate (3 * n) 0]).getD 1 []
  blurH radius w h rg input :=
    (E.kernel .blurH [.u32 (E.asU32 w), .u32 (E.asU32 h), .u32 radius]
      (splitGroups (groupsOf (E.asU32 (3 * h))) E.maxGroupsX)
      [input, .replicate (3 * w * h) 0, rg]).getD 1 []
  blurV radius w h rg temp :=
    (E.kernel .blurV [.u32 (E.asU32 w), .u32 (E.asU32 h), .u32 radius]
      (splitGroups (groupsOf (E.asU32 (3 * w))) E.maxGroupsX)
      [temp, .replicate (3 * w * h) 0, rg]).getD 1 []
  maps n x1 x2 mu1 mu2 s11 s22 s12 :=
    let out := E.kernel .mapsCombine [.u32 (E.asU32 n)]
      (splitGroups (groupsOf (E.asU32 (3 * n))) E.maxGroupsX)
      [x1, x2, mu1, mu2, s11, s22, s12, .replicate (3 * n) 0, .replicate (3 * n) 0]
    (out.getD 7 [], out.getD 8 [])

/-- A device that never fails, clears the outputs of a dispatch and runs the shader; its `u32` has
    no bound. -/
def shading (D : Type) [F64 D] [Convert F D] (cbrtAdd : F → F → F) : Env F where
  sched _ := none
  junk _ := []
  kernel shader push groups bufs :=
    Shader.launch D cbrtAdd shader push groups (shader.cleared bufs)
  maxGroupsX := 65535
  asU32 n := n
  stack := []

section Shading

variable (cbrtAdd : F → F → F)

theorem clear_length {n : Nat} {o : List F} (ho : o.length = n) :
    (o.map fun _ => (0 : F)) = List.replicate n 0 := by
  rw [List.map_const', ho]

/-- A cleared output stays cleared. -/
theorem clear_zeros (n : Nat) :
    (List.replicate n (0 : F)).map (fun _ => (0 : F)) = List.replicate n 0 := by
  rw [List.map_const', List.length_replicate]

/-- Clearing twice is clearing once. -/
theorem cleared_cleared (shader : Shader) (bufs : List (List F)) :
    shader.cleared (shader.cleared bufs) = shader.cleared bufs := by
  fun_cases Shader.cleared shader bufs with
  | case7 _ _ h1 h2 h3 h4 h5 h6 => rw [Shader.cleared.eq_7 _ _ h1 h2 h3 h4 h5 h6]
  | _ => simp only [Shader.cleared, List.map_map, Function.comp_def]

theorem shading_runs (N : Nat) : RunsShaders D (shading D cbrtAdd) cbrtAdd N where
  kernel shader push groups bufs :=
    congrArg (Shader.launch D cbrtAdd shader push groups) (cleared_cleared shader bufs)
  asU32 _ _ := rfl

theorem shading_computes (N : Nat) :
    Computes D (shading D cbrtAdd) ((shading D cbrtAdd).launches D) N where
  downsample iw ih src dst _ _ ho := by
    simp only [Env.launches, shading, Shader.cleared, Shader.launch, clear_length ho, clear_zeros,
      List.getD_cons_succ, List.getD_cons_zero]
  mul n a b o _ _ _ ho := by
    simp only [Env.launches, shading, Shader.cleared, Shader.launch, clear_length ho, clear_zeros,
      List.getD_cons_succ, List.getD_cons_zero]
  xyb n linear out _ _ ho := by
    simp only [Env.launches, shading, Shader.cleared, Shader.launch, clear_length ho, clear_zeros,
      List.getD_cons_succ, List.getD_cons_zero]
  blurH radius w h rg input temp _ _ ht _ := by
    simp only [Env.launches, shading, Shader.cleared, Shader.launch, clear_length ht, clear_zeros,
      List.getD_cons_succ, List.getD_cons_zero]
  blurV radius w h rg temp out _ _ ho _ := by
    simp only [Env.launches, shading, Shader.cleared, Shader.launch, clear_length ho, clear_zeros,
      List.getD_cons_succ, List.getD_cons_zero]
  maps n x1 x2 mu1 mu2 s11 s22 s12 sd ed _ hl := by
    have hs : sd.length = 3 * n := hl sd (by simp)
    have he : ed.length = 3 * n := hl ed (by simp)
    simp only [Env.launches, shading, Shader.cleared, Shader.launch, clear_length hs,
      clear_length he, clear_zeros, List.getD_cons_succ, List.getD_cons_zero]

end Shading

/-! ## 4. Launches over images -/

namespace Shader

omit [F32 F] in
/-- A vector is the table of its cells. -/
theorem table_eq {n : Nat} {g : Nat → F} {xs : List F} (hx : xs.length = n)
    (hg : ∀ i < n, xs[i]? = some (g i)) : (List.range n).map g = xs := by
  refine List.ext_getElem? fun i => ?_
  rcases Nat.lt_or_ge i n with hi | hi
  · rw [List.getElem?_map, List.getElem?_range hi, hg i hi]
    rfl
  · rw [List.getElem?_eq_none (by simpa using hi), List.getElem?_eq_none (by omega)]

/-- **Products.** -/
theorem cover_mul {n : Nat} {a b out : List F} (ha : a.length = n) (hb : b.length = n)
    (ho : out.length = n) : cover n (mulMain a b n) out = some (mul a b) := by
  have hl : (mul a b).length = n := by
    unfold mul
    rw [List.length_zipWith, ha, hb, Nat.min_self]
  have ht := table_eq (g := fun i => cell a i * cell b i) hl fun i hi => by
    unfold mul
    rw [List.getElem?_zipWith, cell_eq (by omega), cell_eq (by omega)]
  rw [← ht]
  refine cover_table (fun i hi out ho => ?_) ho
  unfold mulMain
  rw [if_pos hi, cell_eq (by omega), cell_eq (by omega), Option.bind_eq_bind, Option.bind_some,
    Option.bind_some, writeAt_some _ (by omega) (by omega), Int.toNat_natCast]

/-- **Halving.** -/
theorem cover_downsample {iw ih : Nat} (hw : 1 ≤ iw) (hh : 1 ≤ ih) (g : Nat → Nat → Nat → F)
    {out : List F} (ho : out.length = 3 * ((iw + 1) / 2) * ((ih + 1) / 2)) :
    cover (3 * ((iw + 1) / 2) * ((ih + 1) / 2))
        (downsampleMain (image iw ih g) iw ih ((iw + 1) / 2) ((ih + 1) / 2)) out =
      some (image ((iw + 1) / 2) ((ih + 1) / 2) (boxSample iw ih g)) := by
  generalize hw2 : (iw + 1) / 2 = ow at *
  generalize hh2 : (ih + 1) / 2 = oh at *
  have hread (c : Nat) (hc : c < 3) (y x : Nat) :
      (image iw ih g)[c * (iw * ih) + min y (ih - 1) * iw + min x (iw - 1)]? =
        some (g c (min y (ih - 1)) (min x (iw - 1))) := by
    rw [← Nat.mul_assoc]
    exact image_getElem g hc (by omega) (by omega)
  have hr : List.range 2 = [0, 1] := by decide
  refine cover_table (fun i hi out ho => ?_) ho
  obtain ⟨c, y, x, hc, hy, hx, rfl⟩ := exists_flat hi
  rw [decode_flat (boxSample iw ih g) hy hx]
  unfold downsampleMain boxSample
  rw [if_neg (by omega)]
  dsimp only
  rw [flat_div_plane hy hx, flat_mod_plane hy hx, inPlane_div hx, inPlane_mod hx]
  simp only [hr, List.foldlM_cons, List.foldlM_nil, hread c hc, Option.bind_eq_bind,
    Option.bind_some, Option.pure_def]
  rw [writeAt_some _ (by omega) (by omega), Int.toNat_natCast]

omit [F32 F] in
/-- Two loops over the same elements. -/
theorem foldlM_congr {α σ : Type} {f g : σ → α → Option σ} (xs : List α)
    (h : ∀ s, ∀ a ∈ xs, f s a = g s a) (s : σ) : xs.foldlM f s = xs.foldlM g s := by
  induction xs generalizing s with
  | nil => rfl
  | cons a xs ih =>
    rw [List.foldlM_cons, List.foldlM_cons, h s a List.mem_cons_self]
    exact congrArg _ (funext fun s => ih (fun s b hb => h s b (List.mem_cons_of_mem _ hb)) s)

/-- The push constants of the engine. -/
theorem xybConsts_push (n : Nat) : ∃ k : XybConsts F, xybConsts (xybPush D n true) = some k ∧
    k.n = n ∧ ∀ (cbrtAdd : F → F → F) r g b,
      xybMainPixel cbrtAdd k r g b = positiveXyb (xybPixel D cbrtAdd r g b) :=
  ⟨_, rfl, rfl, fun _ _ _ _ => rfl⟩

/-- **The conversion** is the loop of the CPU engine. -/
theorem cover_xyb (cbrtAdd : F → F → F) {k : XybConsts F} {w h : Nat} (hn : k.n = w * h)
    (hk : ∀ r g b, xybMainPixel cbrtAdd k r g b = positiveXyb (xybPixel D cbrtAdd r g b))
    (lin : List F) :
    cover (w * h) (xybMain cbrtAdd k lin) (List.replicate (3 * (w * h)) 0) =
      xybPlanesCpu (xybPixel D cbrtAdd) lin w h true := by
  unfold cover xybPlanesCpu
  refine foldlM_congr _ (fun out i hi => ?_) _
  unfold xybMain
  rw [hn, if_neg (by have := List.mem_range.mp hi; omega)]
  simp only [hk, if_true]

end Shader

/-! ## 5. What the kernels of the engine compute -/

section Runs

variable {E : Env F} {f : Launches F} {cbrtAdd : F → F → F} {N : Nat} (hc : Computes D E f N)
  (hr : RunsShaders D E cbrtAdd N)

include hc hr

theorem mul_runs {n : Nat} (hn : n ≤ N) {a b : List F} (ha : a.length = n) (hb : b.length = n) :
    f.mul n a b = mul a b := by
  have hz : (List.replicate n (0 : F)).length = n := List.length_replicate
  have hrun := hr.kernel .mulPlanes [.u32 (E.asU32 n)]
    (splitGroups (E.asU32 (groupsOf n)) E.maxGroupsX) [a, b, .replicate n 0]
  unfold Shader.cleared at hrun
  dsimp only at hrun
  rw [clear_zeros, hc.mul n a b _ hn ha hb hz, hr.asU32 n hn,
    hr.asU32 _ (le_trans (groupsOf_le n) hn)] at hrun
  unfold Shader.launch at hrun
  dsimp only at hrun
  rw [Shader.cover_grid (Shader.mulMain_idle a b n) (Shader.grid_covers n _),
    Shader.cover_mul ha hb hz] at hrun
  simp only [List.cons.injEq, true_and, and_true] at hrun
  exact hrun

theorem downsample_runs {iw ih : Nat} (hN : 3 * iw * ih ≤ N) (hw : 1 ≤ iw) (hh : 1 ≤ ih)
    (g : Nat → Nat → Nat → F) :
    f.downsample iw ih (image iw ih g) =
      image ((iw + 1) / 2) ((ih + 1) / 2) (boxSample iw ih g) := by
  let n := 3 * ((iw + 1) / 2) * ((ih + 1) / 2)
  have hz : (List.replicate n (0 : F)).length = n := List.length_replicate
  have hn : n ≤ N := halved_bound hN
  have hiw : iw ≤ N := by nlinarith
  have hih : ih ≤ N := by nlinarith
  have hrun := hr.kernel .downsampleBox2
    [.u32 (E.asU32 iw), .u32 (E.asU32 ih), .u32 (E.asU32 ((iw + 1) / 2)),
      .u32 (E.asU32 ((ih + 1) / 2))]
    (splitGroups (E.asU32 (groupsOf n)) E.maxGroupsX) [image iw ih g, .replicate n 0]
  unfold Shader.cleared at hrun
  dsimp only at hrun
  rw [clear_zeros, hc.downsample iw ih _ _ hN (image_length g) hz, hr.asU32 _ hiw, hr.asU32 _ hih,
    hr.asU32 _ (by omega), hr.asU32 _ (by omega), hr.asU32 _ (le_trans (groupsOf_le n) hn)] at hrun
  unfold Shader.launch at hrun
  dsimp only at hrun
  rw [Shader.cover_grid (Shader.downsampleMain_idle _ iw ih _ _) (Shader.grid_covers n _),
    Shader.cover_downsample hw hh g hz] at hrun
  simp only [List.cons.injEq, true_and, and_true] at hrun
  exact hrun

theorem xyb_runs {w h : Nat} (hN : 3 * w * h ≤ N) (g : Nat → Nat → Nat → F) :
    f.xyb (w * h) (image w h g) = image w h (xybSample (xybPixel D cbrtAdd) g) := by
  have e : 3 * (w * h) = 3 * w * h := (Nat.mul_assoc 3 w h).symm
  have hn : w * h ≤ N := by omega
  have hz : (List.replicate (3 * (w * h)) (0 : F)).length = 3 * (w * h) := List.length_replicate
  obtain ⟨k, ek, hkn, hk⟩ := Shader.xybConsts_push (F := F) (D := D) (w * h)
  have hrun := hr.kernel .xybPositive (xybPush D (E.asU32 (w * h)) true)
    (splitGroups (groupsOf (E.asU32 (w * h))) E.maxGroupsX)
    [image w h g, .replicate (3 * (w * h)) 0]
  unfold Shader.cleared at hrun
  dsimp only at hrun
  rw [clear_zeros, hc.xyb (w * h) _ _ (by omega) (by rw [image_length, e]) hz, hr.asU32 _ hn] at hrun
  unfold Shader.launch at hrun
  dsimp only at hrun
  rw [ek, Option.bind_some, Shader.cover_grid
    (fun i hi => Shader.xybMain_idle cbrtAdd k _ i (hkn.le.trans hi)) (Shader.grid_covers (w * h) _),
    Shader.cover_xyb cbrtAdd hkn (hk cbrtAdd), xybPlanesCpu_image] at hrun
  simp only [List.cons.injEq, true_and, and_true] at hrun
  exact hrun

theorem maps_runs {n : Nat} (hN : 3 * n ≤ N) {x1 x2 mu1 mu2 s11 s22 s12 : List F}
    (hl : ∀ xs ∈ [x1, x2, mu1, mu2, s11, s22, s12], xs.length = 3 * n) {v : Nat → Pixel F}
    (hv : ∀ i < 3 * n, (⟨n, 1, x1, x2, s11, s22, s12, mu1, mu2⟩ : ScaleMaps F).pixel i = some (v i)) :
    f.maps n x1 x2 mu1 mu2 s11 s22 s12 =
      ((List.range (3 * n)).map fun i => (Shader.mapsMainPixel D (v i)).1,
        (List.range (3 * n)).map fun i => (Shader.mapsMainPixel D (v i)).2) := by
  have hz : (List.replicate (3 * n) (0 : F)).length = 3 * n := List.length_replicate
  have hlen : ∀ xs ∈ [x1, x2, mu1, mu2, s11, s22, s12, List.replicate (3 * n) 0,
      List.replicate (3 * n) 0], xs.length = 3 * n := by
    intro xs hxs
    rcases List.mem_append.mp (show xs ∈ [x1, x2, mu1, mu2, s11, s22, s12] ++
      [List.replicate (3 * n) 0, List.replicate (3 * n) 0] from hxs) with h | h
    · exact hl xs h
    · rcases List.mem_pair.mp h with rfl | rfl <;> exact hz
  have hrun := hr.kernel .mapsCombine [.u32 (E.asU32 n)]
    (splitGroups (groupsOf (E.asU32 (3 * n))) E.maxGroupsX)
    [x1, x2, mu1, mu2, s11, s22, s12, .replicate (3 * n) 0, .replicate (3 * n) 0]
  unfold Shader.cleared at hrun
  dsimp only at hrun
  rw [clear_zeros, hc.maps n _ _ _ _ _ _ _ _ _ hN hlen, hr.asU32 _ hN,
    hr.asU32 n (by omega)] at hrun
  unfold Shader.launch at hrun
  dsimp only at hrun
  rw [Shader.cover_grid (Shader.mapsMain_idle _ n) (Shader.grid_covers (3 * n) _),
    Shader.cover_maps hv hz hz] at hrun
  simp only [List.cons.injEq, true_and, and_true, Option.getD_some] at hrun
  exact Prod.ext hrun.1 hrun.2

end Runs

end Ssimulacra2
