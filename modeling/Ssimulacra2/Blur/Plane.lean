/-
  File:      Ssimulacra2/Blur/Plane.lean
  Subject:   The blur of the port works plane by plane, over any arithmetic.

  `rowOut`, `columnOut` are the scans of one line of samples, stored in a function; `blurPlane` is
  the one after the other. A scan that stores in a vector goes in lockstep with the one that stores
  in a function (`Stored`), so `blurPlanesCpu_planes` needs no law of the numbers.
-/
import Ssimulacra2.Blur.Agree
import Ssimulacra2.Images

namespace Ssimulacra2

open Loop Fill

variable {F : Type} [FmaOps F]

/-! ## 1. A line -/

/-- The samples of a line of `len`. -/
def lineAt (len : Nat) (x : Nat → F) (i : Int) : Option F :=
  if 0 ≤ i ∧ i < len then some (x i.toNat) else none

/-- Storing a sample of a line. -/
def putAt (i : Int) (v : F) (out : Nat → F) : Option (Nat → F) :=
  some (Function.update out i.toNat v)

/-- The horizontal scan of a line. -/
def rowOut (rg : RgConst F) (len : Nat) (x : Nat → F) : Nat → F :=
  (scanRow (lineAt len x) putAt rg len fun _ => 0).getD fun _ => 0

/-- The vertical scan of a line. -/
def columnOut (rg : RgConst F) (len : Nat) (x : Nat → F) : Nat → F :=
  (scanColumn (lineAt len x) putAt rg len fun _ => 0).getD fun _ => 0

/-- **The blur of a plane**: its rows, then the columns of the result. -/
def blurPlane (rg : RgConst F) (w h : Nat) (g : Nat → Nat → F) (y x : Nat) : F :=
  columnOut rg h (fun i => rowOut rg w (g i) x) y

omit [FmaOps F] in
theorem lineAt_congr {len : Nat} {x x' : Nat → F} (h : ∀ i < len, x i = x' i) :
    lineAt len x = lineAt len x' := by
  funext i
  unfold lineAt
  by_cases hi : 0 ≤ i ∧ i < len
  · rw [if_pos hi, if_pos hi, h _ (by omega)]
  · rw [if_neg hi, if_neg hi]

/-- The blur of a plane sees the samples of the plane only. -/
theorem blurPlane_congr (rg : RgConst F) {w h : Nat} {g g' : Nat → Nat → F}
    (hg : ∀ y < h, ∀ x < w, g y x = g' y x) : blurPlane rg w h g = blurPlane rg w h g' := by
  funext y x
  unfold blurPlane columnOut
  rw [lineAt_congr fun i hi => ?_]
  unfold rowOut
  rw [lineAt_congr (hg i hi)]

/-! ## 2. A scan into a vector -/

/-- **The first `n` samples are stored**: those of `out`, at the cells `pos i` of the vector, and the
    other cells are as they were. -/
structure Stored (pos : Nat → Nat) (before : List F) (n : Int) (xs : List F) (out : Nat → F) : Prop
    where
  length : xs.length = before.length
  stored : ∀ i : Nat, i < n → xs[pos i]? = some (out i)
  others : ∀ j, (∀ i : Nat, i < n → j ≠ pos i) → xs[j]? = before[j]?

/-- A writer of a line of `len` samples at the cells `pos i`. -/
structure Writes (L len : Nat) (pos : Nat → Nat) (wr : Int → F → List F → Option (List F)) : Prop
    where
  inside : ∀ i < len, pos i < L
  apart : ∀ i j, pos i = pos j → i = j
  write : ∀ i : Int, 0 ≤ i → i < len → ∀ v xs, wr i v xs = writeAt (pos i.toNat : Nat) v xs

omit [FmaOps F] in
/-- The next sample is stored. -/
theorem Stored.next {L len : Nat} {pos : Nat → Nat} {wr : Int → F → List F → Option (List F)}
    (hw : Writes L len pos wr) {before xs : List F} (hL : before.length = L) {n : Int}
    {out : Nat → F} (h : Stored pos before n xs out) (h0 : 0 ≤ n) (hn : n < len) {m : Int}
    (hm : m = n + 1) (v : F) :
    ∃ xs' out', wr n v xs = some xs' ∧ putAt n v out = some out' ∧ Stored pos before m xs' out' := by
  subst hm
  obtain ⟨k, rfl⟩ := Int.eq_ofNat_of_zero_le h0
  have hk : pos k < xs.length := by
    rw [h.length, hL]
    exact hw.inside k (by omega)
  refine ⟨xs.set (pos k) v, Function.update out k v, ?_, rfl, ?_, fun i hi => ?_, fun j hj => ?_⟩
  · rw [hw.write _ h0 hn, Int.toNat_natCast, writeAt_some v (by omega) (by omega), Int.toNat_natCast]
  · rw [List.length_set, h.length]
  · by_cases hik : i = k
    · rw [hik, List.getElem?_set_self hk, Function.update_self]
    · rw [List.getElem?_set_ne fun e => hik (hw.apart _ _ e).symm, Function.update_of_ne hik]
      exact h.stored i (by omega)
  · rw [List.getElem?_set_ne fun e => hj k (by omega) e.symm]
    exact h.others j fun i hi => hj i (by omega)

omit [FmaOps F] in
/-- Before the line there is nothing to store. -/
theorem Stored.skip {pos : Nat → Nat} {before xs : List F} {n : Int} {out : Nat → F}
    (h : Stored pos before n xs out) (hn : n < 0) : Stored pos before (n + 1) xs out :=
  ⟨h.length, fun i hi => h.stored i (by omega), fun j hj => h.others j fun i hi => hj i (by omega)⟩

omit [FmaOps F] in
/-- A finished line. -/
theorem Stored.finished {pos : Nat → Nat} {before xs : List F} {n : Int} {out : Nat → F}
    (h : Stored pos before n xs out) {len : Nat} (hn : len ≤ n) (hn' : n ≤ len) :
    Stored pos before len xs out := by
  have e : n = len := by omega
  exact e ▸ h

/-- Two scans in step. -/
structure InStep (pos : Nat → Nat) (before : List F) (n : Int) (s : Scan F (List F))
    (t : Scan F (Nat → F)) : Prop where
  y1 : s.y1 = t.y1
  y2 : s.y2 = t.y2
  out : Stored pos before n s.out t.out

section Scans

variable {L len : Nat} {pos : Nat → Nat} {rd : Int → Option F}
  {wr : Int → F → List F → Option (List F)} (hw : Writes L len pos wr) {before : List F}
  (hL : before.length = L) {rg : RgConst F} {n : Int} {s : Scan F (List F)} {t : Scan F (Nat → F)}
  (hrd : ∀ i : Int, 0 ≤ i → i < len → (rd i).isSome)

include hw hL hrd

theorem InStep.border (h : InStep pos before n s t) (h1 : -(rg.radius : Int) + 1 ≤ n)
    (h2 : n < len) :
    ∃ s' t', borderStep rd wr rg len n s = some s' ∧ borderStep rd putAt rg len n t = some t' ∧
      InStep pos before (n + 1) s' t' := by
  obtain ⟨sum, hsum⟩ := borderSum_isSome hrd h1 (by omega)
  unfold borderStep
  simp only [hsum, Option.bind_eq_bind, Option.bind_some, h.y1, h.y2]
  by_cases hn : n ≥ 0
  · obtain ⟨xs', out', e1, e2, hst⟩ := h.out.next hw hL hn h2 rfl (combine (lane0 rg sum t.y1 t.y2))
    rw [if_pos hn, if_pos hn, e1, e2]
    exact ⟨_, _, rfl, rfl, rfl, rfl, hst⟩
  · rw [if_neg hn, if_neg hn]
    exact ⟨_, _, rfl, rfl, rfl, rfl, h.out.skip (by omega)⟩

theorem InStep.remainder (h : InStep pos before n s t) (h1 : 0 ≤ n) (h2 : n < len)
    (hN : 1 ≤ rg.radius) :
    ∃ s' t', remainderStep rd wr rg len n s = some s' ∧
      remainderStep rd putAt rg len n t = some t' ∧ InStep pos before (n + 1) s' t' := by
  have hread : ∃ sum, borderSum rd rg.radius len n = some sum :=
    borderSum_isSome hrd (by omega) (by omega)
  obtain ⟨sum, hsum⟩ := hread
  obtain ⟨xs', out', e1, e2, hst⟩ := h.out.next hw hL h1 h2 rfl (combine (lane0 rg sum t.y1 t.y2))
  refine ⟨⟨xs', lane0 rg sum t.y1 t.y2, t.y1⟩, ⟨out', lane0 rg sum t.y1 t.y2, t.y1⟩, ?_, ?_, rfl, rfl,
    hst⟩
  · unfold remainderStep
    simp only [hsum, Option.bind_eq_bind, Option.bind_some, h.y1, h.y2, e1]
  · unfold remainderStep
    simp only [hsum, Option.bind_eq_bind, Option.bind_some, e2]

theorem InStep.unrolled (h : InStep pos before n s t) (h1 : (rg.radius : Int) + 1 ≤ n)
    (h2 : n < len - rg.radius + 1 - 3) (hN : 1 ≤ rg.radius) :
    ∃ s' t', unrolledStep rd wr rg n s = some s' ∧ unrolledStep rd putAt rg n t = some t' ∧
      InStep pos before (n + 4) s' t' := by
  obtain ⟨sums, hsums⟩ := innerSums_isSome hrd h1 (by omega) h2
  let v (l : Fin 4) : F := combine fun k => Ssimulacra2.unrolled rg sums t.y1 t.y2 k l
  obtain ⟨x0, o0, e0, f0, s0⟩ := h.out.next hw hL (by omega) (by omega) (m := n + 1) rfl (v 0)
  obtain ⟨x1, o1, e1, f1, s1⟩ := s0.next hw hL (by omega) (by omega) (m := n + 2) (by omega) (v 1)
  obtain ⟨x2, o2, e2, f2, s2⟩ := s1.next hw hL (by omega) (by omega) (m := n + 3) (by omega) (v 2)
  obtain ⟨x3, o3, e3, f3, s3⟩ := s2.next hw hL (by omega) (by omega) (m := n + 4) (by omega) (v 3)
  refine ⟨⟨x3, fun k => Ssimulacra2.unrolled rg sums t.y1 t.y2 k 3,
    fun k => Ssimulacra2.unrolled rg sums t.y1 t.y2 k 2⟩,
    ⟨o3, fun k => Ssimulacra2.unrolled rg sums t.y1 t.y2 k 3,
    fun k => Ssimulacra2.unrolled rg sums t.y1 t.y2 k 2⟩, ?_, ?_, rfl, rfl, s3⟩
  · unfold unrolledStep store4
    simp only [hsums, Option.bind_eq_bind, Option.bind_some, h.y1, h.y2, add_zero]
    simp only [v] at e0 e1 e2 e3
    simp only [e0, e1, e2, e3, Option.bind_some]
  · unfold unrolledStep store4
    simp only [hsums, Option.bind_eq_bind, Option.bind_some, add_zero]
    simp only [v] at f0 f1 f2 f3
    simp only [f0, f1, f2, f3, Option.bind_some]

theorem InStep.vertical (h : InStep pos before n s t) (h1 : -(rg.radius : Int) + 1 ≤ n)
    (h2 : n < len) :
    ∃ s' t', verticalStep rd wr rg len n s = some s' ∧ verticalStep rd putAt rg len n t = some t' ∧
      InStep pos before (n + 1) s' t' := by
  have hread : ∃ sum, verticalSum rd rg.radius len n = some sum :=
    verticalSum_isSome hrd h1 h2 (by omega)
  obtain ⟨sum, hsum⟩ := hread
  unfold verticalStep
  simp only [hsum, Option.bind_eq_bind, Option.bind_some, h.y1, h.y2]
  by_cases hn : n ≥ 0
  · obtain ⟨xs', out', e1, e2, hst⟩ := h.out.next hw hL hn h2 rfl (combine (section2 rg sum t.y1 t.y2))
    rw [if_pos hn, if_pos hn, e1, e2]
    exact ⟨_, _, rfl, rfl, rfl, rfl, hst⟩
  · rw [if_neg hn, if_neg hn]
    exact ⟨_, _, rfl, rfl, rfl, rfl, h.out.skip (by omega)⟩

/-- **The horizontal scan stores the row** in its cells. -/
theorem scanRow_stored (hN : 1 ≤ rg.radius) :
    ∃ xs' out, scanRow rd wr rg len before = some xs' ∧
      scanRow rd putAt rg len (fun _ => 0) = some out ∧ Stored pos before len xs' out := by
  have hstart : InStep pos before (-(rg.radius : Int) + 1) (Scan.start before)
      (Scan.start fun _ => 0) :=
    ⟨rfl, rfl, rfl, fun i hi => absurd hi (by omega), fun j _ => rfl⟩
  have hfa : (rg.radius : Int) + 1 ≤ firstAligned rg.radius := by unfold firstAligned; omega
  -- border: from `-N + 1`, up to the first aligned index or the end of the row
  obtain ⟨n1, s1, t1, e1, f1, ⟨hlo1, hhi1, h1⟩, hx1⟩ := loopBelow_rel
    (u := min (firstAligned rg.radius) len) (d := 1) le_rfl
    (R := fun n s t => -(rg.radius : Int) + 1 ≤ n ∧ n ≤ max (-(rg.radius : Int) + 1) len ∧
      InStep pos before n s t)
    (fun n s t hn hR => by
      obtain ⟨s', t', es, et, h'⟩ := hR.2.2.border hw hL hrd hR.1 (by omega)
      exact ⟨s', t', es, et, by omega, by omega, h'⟩)
    (-(rg.radius : Int) + 1) _ _ ⟨le_rfl, by omega, hstart⟩
  -- groups of four: entered only from an aligned index above `N`
  obtain ⟨n2, s2, t2, e2, f2, ⟨hlo2, hhi2, h2⟩, -⟩ := loopBelow_rel
    (u := len - rg.radius + 1 - 3) (d := 4) (by omega)
    (R := fun n s t => (0 ≤ n ∧ ((rg.radius : Int) + 1 ≤ n ∨ len ≤ n)) ∧
      n ≤ max (-(rg.radius : Int) + 1) len ∧ InStep pos before n s t)
    (fun n s t hn hR => by
      obtain ⟨s', t', es, et, h'⟩ := hR.2.2.unrolled hw hL hrd (by omega) hn hN
      exact ⟨s', t', es, et, by omega, by omega, h'⟩)
    n1 s1 t1 ⟨by omega, hhi1, h1⟩
  -- remainder
  obtain ⟨n3, s3, t3, e3, f3, ⟨hlo3, hhi3, h3⟩, hx3⟩ := loopBelow_rel
    (u := len) (d := 1) le_rfl
    (R := fun n s t => 0 ≤ n ∧ n ≤ max (-(rg.radius : Int) + 1) len ∧ InStep pos before n s t)
    (fun n s t hn hR => by
      obtain ⟨s', t', es, et, h'⟩ := hR.2.2.remainder hw hL hrd hR.1 hn hN
      exact ⟨s', t', es, et, by omega, by omega, h'⟩)
    n2 s2 t2 ⟨hlo2.1, hhi2, h2⟩
  refine ⟨s3.out, t3.out, ?_, ?_, h3.out.finished (by omega) (by omega)⟩
  · unfold scanRow
    simp only [Option.bind_eq_bind, e1, e2, e3, Option.bind_some]
  · unfold scanRow
    simp only [Option.bind_eq_bind, f1, f2, f3, Option.bind_some]

/-- **The vertical scan stores the column** in its cells. -/
theorem scanColumn_stored (hN : 1 ≤ rg.radius) :
    ∃ xs' out, scanColumn rd wr rg len before = some xs' ∧
      scanColumn rd putAt rg len (fun _ => 0) = some out ∧ Stored pos before len xs' out := by
  have hstart : InStep pos before (-((rg.radius : Int) - 1)) (Scan.start before)
      (Scan.start fun _ => 0) :=
    ⟨rfl, rfl, rfl, fun i hi => absurd hi (by omega), fun j _ => rfl⟩
  obtain ⟨n, s, t, e, f, ⟨hlo, hhi, h⟩, hx⟩ := loopBelow_rel (u := len) (d := 1) le_rfl
    (R := fun n s t => -(rg.radius : Int) + 1 ≤ n ∧ n ≤ max (-(rg.radius : Int) + 1) len ∧
      InStep pos before n s t)
    (fun n s t hn hR => by
      obtain ⟨s', t', es, et, h'⟩ := hR.2.2.vertical hw hL hrd hR.1 hn
      exact ⟨s', t', es, et, by omega, by omega, h'⟩)
    (-((rg.radius : Int) - 1)) _ _ ⟨by omega, by omega, hstart⟩
  refine ⟨s.out, t.out, ?_, ?_, h.out.finished (by omega) (by omega)⟩
  · unfold scanColumn
    simp only [Option.bind_eq_bind, e, Option.bind_some]
  · unfold scanColumn
    simp only [Option.bind_eq_bind, f, Option.bind_some]

end Scans

/-- The vertical scan reads its column only. -/
theorem scanColumn_congr {σ : Type} {rd rd' : Int → Option F} {wr : Int → F → σ → Option σ}
    {rg : RgConst F} {len : Nat} (hrd : ∀ i : Int, 0 ≤ i → i < len → rd i = rd' i) (out : σ) :
    scanColumn rd wr rg len out = scanColumn rd' wr rg len out := by
  have hsum (n : Int) (h1 : -(rg.radius : Int) + 1 ≤ n) (h2 : n < len) :
      verticalSum rd rg.radius len n = verticalSum rd' rg.radius len n := by
    unfold verticalSum
    dsimp only
    split_ifs with ht hb hb
    · exact hrd _ (by omega) hb
    · rfl
    · rw [hrd _ (by omega) (by omega)]
    · rw [hrd _ (by omega) (by omega), hrd _ (by omega) (by omega)]
  unfold scanColumn
  dsimp only
  rw [loopBelow_congr le_rfl (b := verticalStep rd' wr rg len) (l := -((rg.radius : Int) - 1))
    (fun n s h1 h2 => ?_) _ le_rfl]
  unfold verticalStep
  rw [hsum n (by omega) h2]

/-! ## 3. The three planes -/

section Planes

variable {rg : RgConst F} (hN : 1 ≤ rg.radius) {w h c : Nat} (hc : c < 3)

omit [FmaOps F] in
/-- An operation that stores a line fills its cells. -/
theorem fills_of_stored {L len : Nat} {val : Nat → F} {pos : Nat → Nat}
    {op : List F → Option (List F)} {out : Nat → F}
    (hop : ∀ xs, xs.length = L → ∃ xs', op xs = some xs' ∧ Stored pos xs len xs' out)
    (hval : ∀ i < len, val (pos i) = out i) : Fills L val op {j | ∃ i < len, j = pos i} := by
  intro xs hxs
  obtain ⟨xs', e, hst⟩ := hop xs hxs
  refine ⟨xs', e, hst.length.trans hxs, ?_, fun j hj => hst.others j fun i hi e => ?_⟩
  · rintro j ⟨i, hi, rfl⟩ -
    rw [hst.stored i (by omega), hval i hi]
  · exact hj ⟨i, by omega, e⟩

/-- The cells of a line that starts in the vector. -/
theorem flat_apart {y i j : Nat} (e : flat w h c y i = flat w h c y j) : i = j := by
  unfold flat at e
  omega

include hN hc

/-- The rows of a plane. -/
theorem fills_rows (f : Nat → Nat → Nat → F) :
    Fills (3 * w * h) (fun j => rowOut rg w (f (j / (w * h)) (j % (w * h) / w)) (j % w))
      (blurRows (image w h f) w h rg c) {j | ∃ y ∈ List.range h, ∃ x < w, j = flat w h c y x} := by
  refine fills_foldlM (fun (y : Nat) xs => scanRow (readSlice (image w h f) (c * w * h + y * w) w)
    (writeSlice (c * w * h + y * w) w) rg w xs) (fun y => {j | ∃ x < w, j = flat w h c y x})
    (List.range h) fun y hy => ?_
  have hy := List.mem_range.mp hy
  have hread : readSlice (image w h f) (c * w * h + y * w) w = lineAt w (f c y) := by
    funext i
    unfold readSlice lineAt
    by_cases hi : 0 ≤ i ∧ i < w
    · have e : ((c * w * h + y * w : Nat) : Int) + i = (flat w h c y i.toNat : Nat) := by
        unfold flat
        omega
      rw [if_pos hi, if_pos hi, e, readAt, if_pos (by omega), Int.toNat_natCast,
        image_getElem f hc hy (by omega)]
    · rw [if_neg hi, if_neg hi]
  have hw : Writes (F := F) (3 * w * h) w (fun x => flat w h c y x)
      (writeSlice (c * w * h + y * w) w) := by
    refine ⟨fun x hx => flat_lt hc hy hx, fun i j => flat_apart, fun i h0 h1 v xs => ?_⟩
    rw [writeSlice, if_pos ⟨h0, h1⟩]
    congr 1
    unfold flat
    omega
  have hrd (i : Int) (h0 : 0 ≤ i) (h1 : i < w) : (lineAt w (f c y) i).isSome := by
    rw [lineAt, if_pos ⟨h0, h1⟩]
    rfl
  have hstored (xs : List F) (hxs : xs.length = 3 * w * h) :
      ∃ xs', scanRow (lineAt w (f c y)) (writeSlice (c * w * h + y * w) w) rg w xs = some xs' ∧
        Stored (fun x => flat w h c y x) xs w xs' (rowOut rg w (f c y)) := by
    obtain ⟨xs', out, e, eout, hst⟩ := scanRow_stored hw hxs hrd hN
    have hrow : rowOut rg w (f c y) = out := by
      unfold rowOut
      rw [eout]
      rfl
    exact ⟨xs', e, hrow ▸ hst⟩
  rw [hread]
  exact fills_of_stored hstored fun x hx => decode_flat (fun c y x => rowOut rg w (f c y) x) hy hx

/-- The columns of a plane, from its rows. -/
theorem fills_columns (f : Nat → Nat → Nat → F) {temp : List F} {t : Nat → Nat → F}
    (ht : ∀ y < h, ∀ x < w, temp[flat w h c y x]? = some (t y x))
    (hval : ∀ y < h, ∀ x < w, f c y x = columnOut rg h (fun i => t i x) y) :
    Fills (3 * w * h) (fun j => f (j / (w * h)) (j % (w * h) / w) (j % w))
      (blurColumns temp w h rg c) {j | ∃ x ∈ List.range w, ∃ y < h, j = flat w h c y x} := by
  refine fills_foldlM (fun (x : Nat) xs => scanColumn (fun i => readAt temp (c * w * h + i * w + x))
    (fun i => writeAt (c * w * h + i * w + x)) rg h xs) (fun x => {j | ∃ y < h, j = flat w h c y x})
    (List.range w) fun x hx => ?_
  have hx := List.mem_range.mp hx
  have hread (i : Int) (h0 : 0 ≤ i) (h1 : i < h) :
      readAt temp (c * w * h + i * w + x) = lineAt h (fun i => t i x) i := by
    obtain ⟨e, -⟩ := column_lt hc hx h0 h1
    rw [e, readAt, if_pos (by omega), Int.toNat_natCast, ht _ (by omega) _ hx, lineAt,
      if_pos ⟨h0, h1⟩]
  have hw : Writes (F := F) (3 * w * h) h (fun y => flat w h c y x)
      (fun i => writeAt (c * w * h + i * w + x)) := by
    refine ⟨fun y hy => flat_lt hc hy hx, fun i j e => ?_, fun i h0 h1 v xs => ?_⟩
    · rw [flat_eq_rows, flat_eq_rows] at e
      have hrows := Nat.eq_of_mul_eq_mul_right (by omega) (Nat.add_right_cancel e)
      omega
    · obtain ⟨e, -⟩ := column_lt hc hx h0 h1
      rw [e]
  have hrd (i : Int) (h0 : 0 ≤ i) (h1 : i < h) : (lineAt h (fun i => t i x) i).isSome := by
    rw [lineAt, if_pos ⟨h0, h1⟩]
    rfl
  refine fills_of_stored (fun xs hxs => ?_) fun y hy => (decode_flat f hy hx).trans (hval y hy x hx)
  obtain ⟨xs', out, e, eout, hst⟩ := scanColumn_stored hw hxs hrd hN
  have hcol : columnOut rg h (fun i => t i x) = out := by
    unfold columnOut
    rw [eout]
    rfl
  exact ⟨xs', (scanColumn_congr hread xs).trans e, hcol ▸ hst⟩

/-- One round of the plane loop: the rows into `temp`, then the columns of `temp`. -/
theorem fills_plane (f : Nat → Nat → Nat → F) {temp : List F} (ht : temp.length = 3 * w * h) :
    ∃ temp', blurRows (image w h f) w h rg c temp = some temp' ∧ temp'.length = 3 * w * h ∧
      Fills (3 * w * h) (fun j => blurPlane rg w h (f (j / (w * h))) (j % (w * h) / w) (j % w))
        (blurColumns temp' w h rg c) {j | ∃ x ∈ List.range w, ∃ y < h, j = flat w h c y x} := by
  obtain ⟨temp', e, ht', hrows, -⟩ := fills_rows hN hc f temp ht
  refine ⟨temp', e, ht', fills_columns hN hc (fun c => blurPlane rg w h (f c))
    (t := fun y x => rowOut rg w (f c y) x) (fun y hy x hx => ?_) fun y _ x _ => rfl⟩
  rw [hrows _ ⟨y, List.mem_range.mpr hy, x, hx, rfl⟩ (flat_lt hc hy hx)]
  exact congrArg some (decode_flat (fun c y x => rowOut rg w (f c y) x) hy hx)

omit hc in
/-- **The blur of an image blurs its planes**, one by one. -/
theorem blurPlanesCpu_planes (w h : Nat) (f : Nat → Nat → Nat → F) :
    blurPlanesCpu (image w h f) w h rg = some (image w h fun c => blurPlane rg w h (f c)) := by
  have hz : (List.replicate (3 * w * h) (0 : F)).length = 3 * w * h := List.length_replicate
  obtain ⟨t0, e0, ht0, f0⟩ := fills_plane hN (show 0 < 3 by decide) f hz
  obtain ⟨t1, e1, ht1, f1⟩ := fills_plane hN (show 1 < 3 by decide) f ht0
  obtain ⟨t2, e2, ht2, f2⟩ := fills_plane hN (show 2 < 3 by decide) f ht1
  have hall := ((f0.comp f1).comp f2).table (fun j hj => ?_) _ hz
  · simp only [Option.bind_eq_some_iff] at hall
    obtain ⟨o1, ⟨o0, c0, c1⟩, c2⟩ := hall
    unfold blurPlanesCpu
    have hr : List.range 3 = [0, 1, 2] := by decide
    simp only [image_length, ne_eq, not_true_eq_false, if_false, hr, List.foldlM_cons,
      List.foldlM_nil, Option.bind_eq_bind, e0, e1, e2, c0, c1, c2, Option.bind_some,
      Option.pure_def]
    rfl
  · obtain ⟨c, y, x, hc, hy, hx, e⟩ := exists_flat hj
    have hcell : ∃ x ∈ List.range w, ∃ y < h, j = flat w h c y x :=
      ⟨x, List.mem_range.mpr hx, y, hy, e⟩
    have hc3 : c = 0 ∨ c = 1 ∨ c = 2 := by omega
    rcases hc3 with rfl | rfl | rfl
    · exact Or.inl (Or.inl hcell)
    · exact Or.inl (Or.inr hcell)
    · exact Or.inr hcell

end Planes

end Ssimulacra2
