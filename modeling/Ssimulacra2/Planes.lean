/-
  File:      Ssimulacra2/Planes.lean
  Subject:   Vectors of samples: bounds-checked accesses and the plane-major layout.

  `readAt`, `writeAt` and their slices answer `none` where the source panics. `flat` is the index
  the source writes as `c * w * h + y * w + x`: three planes of `h` rows of `w` samples in one
  vector; the lemmas recover plane, row and column from it by division, the way the kernels do.
-/
import Ssimulacra2.Lib.Lists
import Ssimulacra2.Lib.Fill

namespace Ssimulacra2

open Fill

/-! ## 1. Bounds-checked vectors -/

section Vectors

variable {F : Type}

/-- `xs[i as usize]` for a signed `i`. -/
def readAt (xs : List F) (i : Int) : Option F :=
  if 0 ≤ i then xs[i.toNat]? else none

/-- `xs[i as usize] = v`. -/
def writeAt (i : Int) (v : F) (xs : List F) : Option (List F) :=
  if 0 ≤ i ∧ i.toNat < xs.length then some (xs.set i.toNat v) else none

/-- Reading the slice `xs[off..off + len]`. -/
def readSlice (xs : List F) (off len : Nat) (i : Int) : Option F :=
  if 0 ≤ i ∧ i < len then readAt xs (off + i) else none

/-- Writing the slice `xs[off..off + len]`. -/
def writeSlice (off len : Nat) (i : Int) (v : F) (xs : List F) : Option (List F) :=
  if 0 ≤ i ∧ i < len then writeAt (off + i) v xs else none

/-- The content of a cell. -/
def cell [Zero F] (xs : List F) (j : Nat) : F := xs.getD j 0

theorem readAt_isSome {xs : List F} {i : Int} (h0 : 0 ≤ i) (h1 : i < xs.length) :
    (readAt xs i).isSome := by
  unfold readAt
  rw [if_pos h0, List.getElem?_eq_getElem (by omega)]
  rfl

theorem cell_eq [Zero F] {xs : List F} {j : Nat} (h : j < xs.length) :
    xs[j]? = some (cell xs j) := by
  unfold cell
  rw [List.getD_eq_getElem?_getD, List.getElem?_eq_getElem h, Option.getD_some]

theorem readAt_eq [Zero F] {xs : List F} {i : Int} (h0 : 0 ≤ i) (h1 : i.toNat < xs.length) :
    readAt xs i = some (cell xs i.toNat) := by
  unfold readAt
  rw [if_pos h0, cell_eq h1]

theorem cell_table [Zero F] (f : Nat → F) {L j : Nat} (h : j < L) :
    cell ((List.range L).map f) j = f j := by
  unfold cell
  rw [List.getD_eq_getElem?_getD, List.getElem?_map, List.getElem?_range h, Option.map_some,
    Option.getD_some]

theorem writeAt_some {xs : List F} {i : Int} (v : F) (h0 : 0 ≤ i) (h1 : i < xs.length) :
    writeAt i v xs = some (xs.set i.toNat v) := by
  unfold writeAt
  rw [if_pos ⟨h0, by omega⟩]

/-- A write in bounds keeps the length. -/
theorem writeAt_length {xs : List F} {n : Nat} {i : Int} (v : F) (h0 : 0 ≤ i) (h1 : i < n)
    (hx : xs.length = n) : ∃ xs', writeAt i v xs = some xs' ∧ xs'.length = n :=
  ⟨_, writeAt_some v h0 (by omega), by rw [List.length_set, hx]⟩

/-- A write in bounds fills its cell. -/
theorem fills_writeAt {L i : Nat} {val : Nat → F} {v : F} (hi : i < L) (hv : val i = v) :
    Fills L val (writeAt (i : Int) v) {i} := by
  refine (fills_set hi).congr (fun xs hxs => ?_) (fun _ => Iff.rfl)
  rw [writeAt_some v (by omega) (by omega), hv, Int.toNat_natCast]

end Vectors

/-! ## 2. The plane-major layout -/

/-- Plane `c`, row `y`, column `x`. -/
def flat (w h c y x : Nat) : Nat := c * w * h + y * w + x

section Layout

variable {w h c y x : Nat}

theorem flat_eq_rows : flat w h c y x = (c * h + y) * w + x := by
  unfold flat
  ring

theorem flat_eq_planes : flat w h c y x = c * (w * h) + (y * w + x) := by
  unfold flat
  ring

theorem inPlane_lt (hy : y < h) (hx : x < w) : y * w + x < w * h := by
  calc y * w + x < y * w + w := by omega
    _ = (y + 1) * w := by ring
    _ ≤ h * w := Nat.mul_le_mul_right w hy
    _ = w * h := Nat.mul_comm h w

theorem flat_div (hx : x < w) : flat w h c y x / w = c * h + y := by
  rw [flat_eq_rows, Nat.mul_comm, Nat.mul_add_div (by omega), Nat.div_eq_of_lt hx, Nat.add_zero]

theorem flat_mod (hx : x < w) : flat w h c y x % w = x := by
  rw [flat_eq_rows, Nat.mul_comm, Nat.mul_add_mod, Nat.mod_eq_of_lt hx]

theorem flat_div_plane (hy : y < h) (hx : x < w) : flat w h c y x / (w * h) = c := by
  have hp := inPlane_lt hy hx
  rw [flat_eq_planes, Nat.mul_comm, Nat.mul_add_div (by omega), Nat.div_eq_of_lt hp, Nat.add_zero]

theorem flat_mod_plane (hy : y < h) (hx : x < w) : flat w h c y x % (w * h) = y * w + x := by
  have hp := inPlane_lt hy hx
  rw [flat_eq_planes, Nat.mul_comm, Nat.mul_add_mod, Nat.mod_eq_of_lt hp]

theorem inPlane_div (hx : x < w) : (y * w + x) / w = y := by
  rw [Nat.mul_comm, Nat.mul_add_div (by omega), Nat.div_eq_of_lt hx, Nat.add_zero]

theorem inPlane_mod (hx : x < w) : (y * w + x) % w = x := by
  rw [Nat.mul_comm, Nat.mul_add_mod, Nat.mod_eq_of_lt hx]

/-- Row `y` of plane `c` lies inside the vector. -/
theorem row_lt (hc : c < 3) (hy : y < h) : c * w * h + y * w + w ≤ 3 * w * h := by
  calc c * w * h + y * w + w = c * (w * h) + (y + 1) * w := by ring
    _ ≤ c * (w * h) + h * w := by gcongr; omega
    _ = (c + 1) * (w * h) := by ring
    _ ≤ 3 * (w * h) := by gcongr; omega
    _ = 3 * w * h := by ring

theorem flat_lt (hc : c < 3) (hy : y < h) (hx : x < w) : flat w h c y x < 3 * w * h := by
  have h1 := row_lt (w := w) hc hy
  unfold flat
  omega

/-- **Every index has a plane, a row and a column.** -/
theorem exists_flat {j : Nat} (hj : j < 3 * w * h) :
    ∃ c y x, c < 3 ∧ y < h ∧ x < w ∧ j = flat w h c y x := by
  have hwh : 0 < w * h := by
    rcases Nat.eq_zero_or_pos (w * h) with e | e
    · rw [Nat.mul_assoc, e] at hj
      omega
    · exact e
  have hw : 0 < w := Nat.pos_of_mul_pos_right hwh
  refine ⟨j / (w * h), j % (w * h) / w, j % (w * h) % w, ?_, ?_, Nat.mod_lt _ hw, ?_⟩
  · rw [Nat.div_lt_iff_lt_mul hwh, ← Nat.mul_assoc]
    exact hj
  · rw [Nat.div_lt_iff_lt_mul hw, Nat.mul_comm h w]
    exact Nat.mod_lt _ hwh
  · rw [flat_eq_planes, Nat.div_add_mod', Nat.div_add_mod']

/-- Sample `i` of column `x` of plane `c` lies inside the vector. -/
theorem column_lt {i : Int} (hc : c < 3) (hx : x < w) (h0 : 0 ≤ i) (hi : i < h) :
    (c * w * h + i * w + x : Int) = (flat w h c i.toNat x : Nat) ∧
      flat w h c i.toNat x < 3 * w * h := by
  obtain ⟨y, rfl⟩ := Int.eq_ofNat_of_zero_le h0
  refine ⟨?_, flat_lt hc (by omega) hx⟩
  unfold flat
  push_cast
  rfl

end Layout

end Ssimulacra2
