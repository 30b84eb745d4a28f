/-
  File:      Ssimulacra2/Primitives.lean
  Subject:   The primitive operations of `f32` and `f64`, as symbols.

  Every numeric function of the port is written over two types, `F` for `f32` and `D` for `f64`,
  and uses their operations only through the classes below. No law is assumed here:

  * `RingOps`, `FmaOps` -- sums and products, and with them the fused multiply-add of the blur;
  * `F32`, `F64`, `Convert` -- the two number types and the conversions between them;
  * a statement about bit-equality of two programs quantifies over all instances;
  * "over exact arithmetic" is the instance at the reals at the end of the file, where every
    conversion is the identity (`RingOps.ofRing`, `FmaOps.ofRing` are its ring part).

  A decimal constant is `lit q` with `q` the rational the source writes; constant subexpressions
  that the compiler folds exactly (`1.0f / (2 * 2)`) are folded in `q`.
-/
import Mathlib

namespace Ssimulacra2

/-- The index types of the two norms of a map, of the three planes or sections, of the four lanes and
    of the entries of a 3x3 matrix have an element. -/
instance neZero_two : NeZero (2 : Nat) := ⟨by decide⟩

instance neZero_three : NeZero (3 : Nat) := ⟨by decide⟩

instance neZero_four : NeZero (4 : Nat) := ⟨by decide⟩

instance neZero_nine : NeZero (9 : Nat) := ⟨by decide⟩

instance atLeastTwo_two : Nat.AtLeastTwo 2 := ⟨le_rfl⟩

/-- Sums and products. `ofNat n` is `n as f32` or `n as f64`, and the literal `n.0`. -/
class RingOps (D : Type) extends Zero D, Add D, Mul D, Neg D, Sub D where
  ofNat : Nat → D

/-- The operations the recursive blur is made of. `mulAdd a b c` is `a.mul_add(b, c)`. -/
class FmaOps (F : Type) extends Zero F, Add F, Mul F, Neg F where
  mulAdd : F → F → F → F

/-- `f32`. `0` is `+0.0`; `lt a b` is `a < b`; `toUsize` is the saturating `as usize`. -/
class F32 (F : Type) extends RingOps F, FmaOps F, Div F where
  lit : ℚ → F
  abs : F → F
  max : F → F → F
  round : F → F
  lt : F → F → Bool
  toUsize : F → Nat

/-- `f64`. `cbrt`, `powf` and the trigonometric functions are the library's. -/
class F64 (D : Type) extends RingOps D, Div D where
  lit : ℚ → D
  pi : D
  abs : D → D
  max : D → D → D
  min : D → D → D
  sqrt : D → D
  cbrt : D → D
  powf : D → D → D
  sin : D → D
  cos : D → D
  tan : D → D
  exp : D → D
  lt : D → D → Bool
  le : D → D → Bool
  toUsize : D → Nat

/-- `x as f64` and `x as f32`. -/
class Convert (F : Type) (D : Type) where
  widen : F → D
  narrow : D → F

export RingOps (ofNat)
export FmaOps (mulAdd)
export Convert (widen narrow)

/-! ## Exact arithmetic -/

instance (priority := low) RingOps.ofRing (R : Type) [CommRing R] : RingOps R where
  ofNat n := (n : R)

@[simp] theorem ofNat_ring {R : Type} [CommRing R] (n : Nat) : (ofNat n : R) = (n : R) := rfl

/-- Over a commutative ring a fused multiply-add is the polynomial it names. -/
instance (priority := low) FmaOps.ofRing (R : Type) [CommRing R] : FmaOps R where
  mulAdd a b c := a * b + c

@[simp] theorem mulAdd_ring {R : Type} [CommRing R] (a b c : R) :
    mulAdd a b c = a * b + c := rfl

/-- Rounding to the nearest integer, halves away from zero (`f32::round`, `roundf`). -/
noncomputable def roundHalfAway (x : ℝ) : ℝ :=
  if 0 ≤ x then (⌊x + 1 / 2⌋ : ℝ) else (⌈x - 1 / 2⌉ : ℝ)

/-- The real cube root, odd as `cbrt` is. -/
noncomputable def realCbrt (x : ℝ) : ℝ :=
  if 0 ≤ x then x ^ (1 / 3 : ℝ) else -((-x) ^ (1 / 3 : ℝ))

/-- `f32` without rounding. -/
noncomputable instance exactF32 : F32 ℝ where
  lit q := (q : ℝ)
  abs x := |x|
  max x y := Max.max x y
  round := roundHalfAway
  lt x y := decide (x < y)
  toUsize x := ⌊x⌋₊

/-- `f64` without rounding. The constant `PI` of the source is read as the number it stands
    for: its literal has more digits than an `f64` keeps. -/
noncomputable instance exactF64 : F64 ℝ where
  lit q := (q : ℝ)
  pi := Real.pi
  abs x := |x|
  max x y := Max.max x y
  min x y := Min.min x y
  sqrt := Real.sqrt
  cbrt := realCbrt
  powf x y := x ^ y
  sin := Real.sin
  cos := Real.cos
  tan := Real.tan
  exp := Real.exp
  lt x y := decide (x < y)
  le x y := decide (x ≤ y)
  toUsize x := ⌊x⌋₊

noncomputable instance exactConvert : Convert ℝ ℝ where
  widen x := x
  narrow x := x

section Exact

@[simp] theorem exact_lit32 (q : ℚ) : (F32.lit q : ℝ) = (q : ℝ) := rfl
@[simp] theorem exact_lit64 (q : ℚ) : (F64.lit q : ℝ) = (q : ℝ) := rfl
@[simp] theorem exact_ofNat32 (n : Nat) :
    @RingOps.ofNat ℝ exactF32.toRingOps n = (n : ℝ) := rfl
@[simp] theorem exact_ofNat64 (n : Nat) :
    @RingOps.ofNat ℝ exactF64.toRingOps n = (n : ℝ) := rfl
@[simp] theorem exact_abs32 (x : ℝ) : F32.abs x = |x| := rfl
@[simp] theorem exact_abs64 (x : ℝ) : F64.abs x = |x| := rfl
@[simp] theorem exact_max32 (x y : ℝ) : F32.max x y = Max.max x y := rfl
@[simp] theorem exact_max64 (x y : ℝ) : F64.max x y = Max.max x y := rfl
@[simp] theorem exact_widen (x : ℝ) : (widen x : ℝ) = x := rfl
@[simp] theorem exact_narrow (x : ℝ) : (narrow x : ℝ) = x := rfl
@[simp] theorem exact_mulAdd (a b c : ℝ) :
    @FmaOps.mulAdd ℝ exactF32.toFmaOps a b c = a * b + c := rfl

end Exact

end Ssimulacra2
