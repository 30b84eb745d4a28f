/-
  File:      Ssimulacra2/Blur/Table.lean
  Subject:   What the blur of three planes stores, cell by cell.

  Over a commutative ring each cell of the result has a value fixed by the input alone:
  `rowValue` after the horizontal pass, `colValue` after the vertical one. `blurPlanesCpu` answers
  the table of these values (`blurPlanesCpu_table`).
-/
import Ssimulacra2.Blur.Recurrence

namespace Ssimulacra2

open Loop Fill

variable {R : Type} [CommRing R]

/-! ## 1. Cell values -/

/-- `len` cells from `base` on, `stride` apart, continued with zeros. -/
def padded (f : Nat → R) (base stride len : Nat) (i : Int) : R :=
  if 0 ≤ i ∧ i < len then f (base + i.toNat * stride) else 0

/-- The horizontal pass at flat index `j`. -/
def rowValue (rg : RgConst R) (w : Nat) (f : Nat → R) (j : Nat) : R :=
  scanValue rg (padded f (j / w * w) 1 w) ((j % w : Nat) : Int)

/-- The vertical pass at flat index `j`. -/
def colValue (rg : RgConst R) (w h : Nat) (f : Nat → R) (j : Nat) : R :=
  scanValue rg (padded f (j / (w * h) * (w * h) + j % w) w h) ((j % (w * h) / w : Nat) : Int)

theorem rowValue_flat {w h c y x : Nat} (hx : x < w) (rg : RgConst R) (f : Nat → R) :
    rowValue rg w f (flat w h c y x) =
      scanValue rg (padded f (c * w * h + y * w) 1 w) (x : Int) := by
  unfold rowValue
  rw [flat_div hx, flat_mod hx, show (c * h + y) * w = c * w * h + y * w by ring]

theorem colValue_flat {w h c y x : Nat} (hy : y < h) (hx : x < w) (rg : RgConst R)
    (f : Nat → R) :
    colValue rg w h f (flat w h c y x) =
      scanValue rg (padded f (flat w h c 0 x) w h) (y : Int) := by
  unfold colValue
  rw [flat_div_plane hy hx, flat_mod_plane hy hx, flat_mod hx, inPlane_div hx]
  congr 2
  unfold flat
  ring

/-- Only the samples inside enter a scan. -/
theorem padded_congr {f g : Nat → R} {base stride len : Nat}
    (h : ∀ i < len, f (base + i * stride) = g (base + i * stride)) :
    padded f base stride len = padded g base stride len := by
  funext i
  unfold padded
  split_ifs with hi
  · exact h i.toNat (by omega)
  · rfl

theorem pads_padded {rd : Int → Option R} {f : Nat → R} {base stride len : Nat}
    (h : ∀ i : Int, 0 ≤ i → i < len → rd i = some (f (base + i.toNat * stride))) :
    Pads rd len (padded f base stride len) where
  inside i h0 h1 := by
    unfold padded
    rw [h i h0 h1, if_pos ⟨h0, h1⟩]
  outside i hi := if_neg (by omega)

/-! ## 2. The scans fill their row or column -/

section Scans

variable {L : Nat} {val : Nat → R} {len : Nat}

omit [CommRing R] in
/-- A loop of stores fills the cells it addresses. -/
theorem fills_emit {wr : Int → R → List R → Option (List R)} (v : Int → R) (pos : Int → Nat)
    (hpos : ∀ i : Int, 0 ≤ i → i < len → pos i < L ∧ val (pos i) = v i)
    (hwr : ∀ i : Int, 0 ≤ i → i < len → ∀ xs, wr i (v i) xs = writeAt (pos i) (v i) xs)
    {n : Int} (hn : n ≤ 0) :
    Fills L val (fun xs => (loopBelow len 1 (emitStep wr v) n xs).map Prod.snd)
      {j | ∃ i : Int, 0 ≤ i ∧ i < len ∧ j = pos i} := by
  have hround (i : Int) (_ : n ≤ i) (hi : i < len) :
      Fills L val (emitStep wr v i) {j | 0 ≤ i ∧ j = pos i} := by
    rcases lt_or_ge i 0 with hneg | h0
    · refine fills_nothing.congr (fun xs _ => if_neg (by omega)) (fun j => ?_)
      constructor
      · rintro ⟨h0, _⟩
        omega
      · intro hj
        exact absurd hj (Set.notMem_empty j)
    · obtain ⟨hL, hv⟩ := hpos i h0 hi
      refine (fills_writeAt hL hv).congr (fun xs _ => ?_) (fun j => ?_)
      · unfold emitStep
        rw [if_pos (show i ≥ 0 from h0), hwr i h0 hi]
      · exact ⟨fun h => h.2, fun h => ⟨h0, h⟩⟩
  refine (fills_loopBelow _ _ n hround).congr (fun _ _ => rfl) (fun j => ?_)
  constructor
  · rintro ⟨i, h0, hi, hj⟩
    exact ⟨i, by omega, hi, h0, hj⟩
  · rintro ⟨i, _, hi, h0, hj⟩
    exact ⟨i, h0, hi, hj⟩

variable {rd : Int → Option R} {wr : Int → R → List R → Option (List R)} {rg : RgConst R}
  {f : Nat → R} {base stride : Nat} (hN : 1 ≤ rg.radius)
  (hrd : ∀ i : Int, 0 ≤ i → i < len → rd i = some (f (base + i.toNat * stride)))
  (hwr : ∀ i : Int, 0 ≤ i → i < len → ∀ v xs,
    wr i v xs = writeAt ((base + i.toNat * stride : Nat) : Int) v xs)
  (hval : ∀ i < len, base + i * stride < L ∧
    val (base + i * stride) = scanValue rg (padded f base stride len) (i : Int))

include hN hrd hwr hval

theorem fills_scanColumn :
    Fills L val (fun xs => scanColumn rd wr rg len xs) {j | ∃ i < len, j = base + i * stride} := by
  have hz := response_solves rg (padded f base stride len)
  have he := fills_emit (scanValue rg _) (fun i => base + i.toNat * stride)
    (fun i h0 hi => by
      have h := hval i.toNat (by omega)
      rwa [Int.toNat_of_nonneg h0] at h)
    (fun i h0 hi xs => hwr i h0 hi _ xs) (show -(rg.radius : Int) + 1 ≤ 0 by omega)
  refine he.congr (fun xs _ => scanColumn_emits hz (pads_padded hrd) xs) (fun j => ?_)
  constructor
  · rintro ⟨i, hi, hj⟩
    exact ⟨i, by omega, by omega, hj⟩
  · rintro ⟨i, h0, hi, hj⟩
    exact ⟨i.toNat, by omega, hj⟩

theorem fills_scanRow (hrg : Expanded rg) :
    Fills L val (fun xs => scanRow rd wr rg len xs) {j | ∃ i < len, j = base + i * stride} := by
  have hz := response_solves rg (padded f base stride len)
  refine (fills_scanColumn hN hrd hwr hval).congr (fun xs _ => ?_) (fun j => Iff.rfl)
  rw [scanRow_emits hz (pads_padded hrd) hrg hN xs, scanColumn_emits hz (pads_padded hrd) xs]

end Scans

/-! ## 3. The three planes -/

section Planes

variable {rg : RgConst R} (hN : 1 ≤ rg.radius) (w h : Nat) {c : Nat} (hc : c < 3)

include hN hc

theorem fills_blurRows (hrg : Expanded rg) {img : List R} (hi : img.length = 3 * w * h) :
    Fills (3 * w * h) (rowValue rg w (cell img)) (blurRows img w h rg c)
      {j | ∃ y ∈ List.range h, ∃ x < w, j = flat w h c y x} := by
  refine (fills_foldlM (fun y xs => scanRow (readSlice img (c * w * h + y * w) w)
    (writeSlice (c * w * h + y * w) w) rg w xs)
    (fun y => {j | ∃ x < w, j = c * w * h + y * w + x * 1}) (List.range h) ?_).congr
    (fun _ _ => rfl) (fun j => ?_)
  · intro y hy
    have hrow := row_lt (w := w) hc (List.mem_range.mp hy)
    refine fills_scanRow hN (f := cell img) (fun i h0 h1 => ?_) (fun i h0 h1 v xs => ?_)
      (fun x hx => ⟨by omega, ?_⟩) hrg
    · rw [readSlice, if_pos ⟨h0, h1⟩, readAt_eq (by omega) (by omega)]
      congr 2
      omega
    · rw [writeSlice, if_pos ⟨h0, h1⟩]
      congr 1
      omega
    · rw [Nat.mul_one]
      exact rowValue_flat hx rg (cell img)
  · unfold flat
    simp only [Set.mem_ofPred_eq, Nat.mul_one]

theorem fills_blurColumns {temp : List R} (ht : temp.length = 3 * w * h) :
    Fills (3 * w * h) (colValue rg w h (cell temp)) (blurColumns temp w h rg c)
      {j | ∃ x ∈ List.range w, ∃ y < h, j = flat w h c y x} := by
  have hflat (x y : Nat) : flat w h c 0 x + y * w = flat w h c y x := by
    unfold flat
    ring
  refine (fills_foldlM (fun (x : Nat) xs => scanColumn (fun i => readAt temp (c * w * h + i * w + x))
    (fun i => writeAt (c * w * h + i * w + x)) rg h xs)
    (fun x => {j | ∃ y < h, j = flat w h c 0 x + y * w}) (List.range w) ?_).congr
    (fun _ _ => rfl) (fun j => ?_)
  · intro x hx
    have hx := List.mem_range.mp hx
    refine fills_scanColumn hN (f := cell temp) (fun i h0 h1 => ?_) (fun i h0 h1 v xs => ?_)
      (fun y hy => ⟨?_, ?_⟩)
    · obtain ⟨e, hlt⟩ := column_lt hc hx h0 h1
      rw [e, readAt_eq (by omega) (by omega), Int.toNat_natCast, hflat]
    · obtain ⟨e, -⟩ := column_lt hc hx h0 h1
      rw [e, hflat]
    · rw [hflat]
      exact flat_lt hc hy hx
    · rw [hflat]
      exact colValue_flat hy hx rg (cell temp)
  · simp only [Set.mem_ofPred_eq, hflat]

omit hN hc in
/-- The columns of a plane see that plane only. -/
theorem colValue_congr {f g : Nat → R}
    (hfg : ∀ y < h, ∀ x < w, f (flat w h c y x) = g (flat w h c y x)) {y x : Nat} (hy : y < h)
    (hx : x < w) : colValue rg w h f (flat w h c y x) = colValue rg w h g (flat w h c y x) := by
  rw [colValue_flat hy hx, colValue_flat hy hx]
  congr 1
  refine padded_congr fun i hi => ?_
  have e : flat w h c 0 x + i * w = flat w h c i x := by
    unfold flat
    ring
  rw [e]
  exact hfg i hi x hx

/-- The cells of plane `c`. -/
def planeCells (w h c : Nat) : Set Nat := {j | ∃ y < h, ∃ x < w, j = flat w h c y x}

/-- One round of the plane loop: `temp` holds the rows of the plane, and from it the columns are
    filled. -/
theorem plane_round (hrg : Expanded rg) {img temp : List R} (hi : img.length = 3 * w * h)
    (ht : temp.length = 3 * w * h) :
    ∃ temp', blurRows img w h rg c temp = some temp' ∧ temp'.length = 3 * w * h ∧
      Fills (3 * w * h) (colValue rg w h (rowValue rg w (cell img))) (blurColumns temp' w h rg c)
        (planeCells w h c) := by
  obtain ⟨temp', e, ht', h1, -⟩ := fills_blurRows hN w h hc hrg hi temp ht
  refine ⟨temp', e, ht', ?_⟩
  intro xs hxs
  obtain ⟨ys, e', hys, h2, h3⟩ := fills_blurColumns hN w h hc ht' xs hxs
  refine ⟨ys, e', hys, ?_, ?_⟩
  · rintro j ⟨y, hy, x, hx, rfl⟩ hj
    rw [h2 _ ⟨x, List.mem_range.mpr hx, y, hy, rfl⟩ hj]
    refine congrArg some (colValue_congr w h (fun y hy x hx => ?_) hy hx)
    have hlt := flat_lt hc hy hx
    have hr := h1 _ ⟨y, List.mem_range.mpr hy, x, hx, rfl⟩ hlt
    rw [cell_eq (by omega)] at hr
    exact Option.some.inj hr
  · rintro j hj
    refine h3 j fun hj' => hj ?_
    obtain ⟨x, hx, y, hy, e⟩ := hj'
    exact ⟨y, hy, x, List.mem_range.mp hx, e⟩

omit hc in
/-- **`blur_planes_cpu` answers the table of the cell values.** -/
theorem blurPlanesCpu_table (hrg : Expanded rg) {img : List R} (hi : img.length = 3 * w * h) :
    blurPlanesCpu img w h rg =
      some ((List.range (3 * w * h)).map (colValue rg w h (rowValue rg w (cell img)))) := by
  have hz : (List.replicate (3 * w * h) (0 : R)).length = 3 * w * h := List.length_replicate
  obtain ⟨t0, e0, ht0, f0⟩ := plane_round hN w h (show 0 < 3 by decide) hrg hi hz
  obtain ⟨t1, e1, ht1, f1⟩ := plane_round hN w h (show 1 < 3 by decide) hrg hi ht0
  obtain ⟨t2, e2, ht2, f2⟩ := plane_round hN w h (show 2 < 3 by decide) hrg hi ht1
  have hall := ((f0.comp f1).comp f2).table (fun j hj => ?_) _ hz
  · simp only [Option.bind_eq_some_iff] at hall
    obtain ⟨o1, ⟨o0, c0, c1⟩, c2⟩ := hall
    unfold blurPlanesCpu
    have hr : List.range 3 = [0, 1, 2] := by decide
    simp only [hi, ne_eq, not_true_eq_false, if_false, hr, List.foldlM_cons, List.foldlM_nil,
      Option.bind_eq_bind, e0, e1, e2, c0, c1, c2, Option.bind_some, Option.pure_def]
  · obtain ⟨c, y, x, hc, hy, hx, e⟩ := exists_flat hj
    have hc3 : c = 0 ∨ c = 1 ∨ c = 2 := by omega
    rcases hc3 with rfl | rfl | rfl
    · exact Or.inl (Or.inl ⟨y, hy, x, hx, e⟩)
    · exact Or.inl (Or.inr ⟨y, hy, x, hx, e⟩)
    · exact Or.inr ⟨y, hy, x, hx, e⟩

end Planes

end Ssimulacra2
