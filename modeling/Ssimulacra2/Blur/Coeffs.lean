/-
  File:      Ssimulacra2/Blur/Coeffs.lean
  Subject:   The constants of the recursive Gaussian (`blur.rs`: `RgConst`,
             `create_recursive_gaussian`, `inv3x3`, `rg_upload`).

  The derivation runs in `f64` and is cast to `f32` at the end. It is kept in the source's three
  layers, so that a statement can start at any of them:

  * `RgConst.ofSections` -- from the section constants `n2`, `d1` to the expanded coefficients of
    four consecutive outputs, over anything with sums and products;
  * `RgConst.ofWeights` -- from the weights `beta` and the frequencies `omega` to the sections;
  * `createRecursiveGaussian` -- from `sigma` to the weights: the 3x3 system and its inverse.
-/
import Ssimulacra2.Primitives

namespace Ssimulacra2

/-! ## 1. The constants -/

/-- `RgConst`. The twelve-entry arrays of the source are indexed `4 * k + lane`; here `k` and the
    lane are separate. -/
structure RgConst (F : Type) where
  radius : Nat
  /-- The field is a `u32`. -/
  radius_lt : radius < 2 ^ 32
  n2 : Fin 3 → F
  d1 : Fin 3 → F
  mulPrev : Fin 3 → Fin 4 → F
  mulPrev2 : Fin 3 → Fin 4 → F
  mulIn : Fin 3 → Fin 4 → F

/-- The cast of every entry (`as f32`). -/
def RgConst.map {F : Type} {D : Type} (f : D → F) (rg : RgConst D) : RgConst F where
  radius := rg.radius
  radius_lt := rg.radius_lt
  n2 k := f (rg.n2 k)
  d1 k := f (rg.d1 k)
  mulPrev k l := f (rg.mulPrev k l)
  mulPrev2 k l := f (rg.mulPrev2 k l)
  mulIn k l := f (rg.mulIn k l)

section Sections

variable {D : Type} [RingOps D]

/-- `mp`: the factors of the previous output in the next four. -/
def expandPrev (d1d : D) : Fin 4 → D :=
  let d_2 := d1d * d1d
  ![-d1d, d_2 - ofNat 1, -d_2 * d1d + ofNat 2 * d1d, d_2 * d_2 - ofNat 3 * d_2 + ofNat 1]

/-- `mp2`: the factors of the output before the previous one. -/
def expandPrev2 (d1d : D) : Fin 4 → D :=
  let d_2 := d1d * d1d
  ![-ofNat 1, d1d, -d_2 + ofNat 1, d_2 * d1d - ofNat 2 * d1d]

/-- `mi`: the factors of the input sums, nearest first. -/
def expandIn (d1d n2d : D) : Fin 4 → D :=
  let d_2 := d1d * d1d
  ![n2d, -d1d * n2d, d_2 * n2d - n2d, -d_2 * d1d * n2d + ofNat 2 * d1d * n2d]

/-- The constants of three sections. -/
def RgConst.ofSections (radius : Nat) (hr : radius < 2 ^ 32) (n2d d1d : Fin 3 → D) :
    RgConst D where
  radius := radius
  radius_lt := hr
  n2 := n2d
  d1 := d1d
  mulPrev k := expandPrev (d1d k)
  mulPrev2 k := expandPrev2 (d1d k)
  mulIn k := expandIn (d1d k) (n2d k)

end Sections

/-! ## 2. From the weights to the sections -/

section Derive

variable {F : Type} {D : Type} [F32 F] [F64 D] [Convert F D]

/-- The sections of the weights `beta` at the frequencies `omega` (33). -/
def RgConst.ofWeights (radius : Nat) (hr : radius < 2 ^ 32) (radiusF : D)
    (omega beta : Fin 3 → D) : RgConst D :=
  RgConst.ofSections radius hr
    (fun i => -(beta i * F64.cos (omega i * (radiusF + ofNat 1))))
    (fun i => -ofNat 2 * F64.cos (omega i))

/-! ## 3. From `sigma` to the weights -/

/-- `inv3x3`: cofactors over the determinant; the assertion is the `none`. -/
def inv3x3 (m : Fin 9 → D) : Option (Fin 9 → D) :=
  let t : Fin 9 → D := ![
    m 4 * m 8 - m 5 * m 7,
    m 2 * m 7 - m 1 * m 8,
    m 1 * m 5 - m 2 * m 4,
    m 5 * m 6 - m 3 * m 8,
    m 0 * m 8 - m 2 * m 6,
    m 2 * m 3 - m 0 * m 5,
    m 3 * m 7 - m 4 * m 6,
    m 1 * m 6 - m 0 * m 7,
    m 0 * m 4 - m 1 * m 3]
  let det := m 0 * t 0 + m 1 * t 3 + m 2 * t 6
  if F64.le (F64.lit 1e-10) (F64.abs det) then
    let idet := ofNat 1 / det
    some fun i => t i * idet
  else none

/-- `radius_f`: the radius (57), rounded in `f32`. -/
def radiusOf (F : Type) [F32 F] [Convert F D] (sigma : D) : D :=
  widen (F32.round (narrow (F64.lit 3.2795 * sigma + F64.lit 0.2546) : F))

/-- `omega`: the three frequencies of radius `radiusF`. -/
def omegaOf (radiusF : D) : Fin 3 → D :=
  let pd2r := F64.pi / (ofNat 2 * radiusF)
  ![pd2r, ofNat 3 * pd2r, ofNat 5 * pd2r]

/-- `p` (37). -/
def pOf (omega : Fin 3 → D) : Fin 3 → D := ![
  ofNat 1 / F64.tan (F64.lit 0.5 * omega 0),
  -ofNat 1 / F64.tan (F64.lit 0.5 * omega 1),
  ofNat 1 / F64.tan (F64.lit 0.5 * omega 2)]

/-- `r` (44). -/
def rOf (omega p : Fin 3 → D) : Fin 3 → D := ![
  p 0 * p 0 / F64.sin (omega 0),
  -p 1 * p 1 / F64.sin (omega 1),
  p 2 * p 2 / F64.sin (omega 2)]

/-- `d13`, `d35`, `d51` (52): over the index pairs (0,1), (1,2), (2,0). -/
def crossOf (p r : Fin 3 → D) : Fin 3 → D := ![
  p 0 * r 1 - r 0 * p 1,
  p 1 * r 2 - r 1 * p 2,
  p 2 * r 0 - r 2 * p 0]

/-- `zeta15`, `zeta35`. -/
def zetaOf (d : Fin 3 → D) : Fin 2 → D :=
  let recip_d13 := ofNat 1 / d 0
  ![d 1 * recip_d13, d 2 * recip_d13]

/-- The matrix `a` (56). -/
def matrixOf (p r : Fin 3 → D) (zeta : Fin 2 → D) : Fin 9 → D :=
  ![p 0, p 1, p 2, r 0, r 1, r 2, zeta 0, zeta 1, ofNat 1]

/-- `rho` (50). -/
def rhoOf (sigma radiusF : D) (omega : Fin 3 → D) : Fin 3 → D :=
  let ns2 := -F64.lit 0.5 * sigma * sigma
  let recip_r := ofNat 1 / radiusF
  fun i => F64.exp (ns2 * omega i * omega i) * recip_r

/-- `gamma` (55). -/
def gammaOf (sigma radiusF : D) (zeta : Fin 2 → D) (rho : Fin 3 → D) : Fin 3 → D := ![
  ofNat 1,
  radiusF * radiusF - sigma * sigma,
  zeta 0 * rho 0 + zeta 1 * rho 1 + rho 2]

/-- `beta = A * gamma`, each row summed from zero in order (53). -/
def betaOf (a : Fin 9 → D) (gamma : Fin 3 → D) : Fin 3 → D := fun y =>
  let at_ (z : Fin 3) : D := a ⟨y.val * 3 + z.val, by omega⟩
  0 + at_ 0 * gamma 0 + at_ 1 * gamma 1 + at_ 2 * gamma 2

/-- The weights `beta` of `create_recursive_gaussian`, with `omega`; `none` is the panic of
    `inv3x3`. -/
def solveWeights (sigma radiusF : D) : Option ((Fin 3 → D) × (Fin 3 → D)) :=
  let omega := omegaOf radiusF
  let p := pOf omega
  let r := rOf omega p
  let rho := rhoOf sigma radiusF omega
  let zeta := zetaOf (crossOf p r)
  (inv3x3 (matrixOf p r zeta)).map fun a =>
    (omega, betaOf a (gammaOf sigma radiusF zeta rho))

/-- `create_recursive_gaussian`. -/
def createRecursiveGaussian (F : Type) [F32 F] [Convert F D] (sigma : D) :
    Option (RgConst F) :=
  let radiusF := radiusOf F sigma
  let radius := F64.toUsize radiusF % 2 ^ 32
  (solveWeights sigma radiusF).map fun (omega, beta) =>
    (RgConst.ofWeights radius (Nat.mod_lt _ (by decide)) radiusF omega beta).map narrow

end Derive

/-! ## 4. The upload layout -/

/-- Twelve words, index `4 * k + l`. -/
def rgBlock {F : Type} (f : Fin 3 → Fin 4 → F) : List F :=
  [f 0 0, f 0 1, f 0 2, f 0 3, f 1 0, f 1 1, f 1 2, f 1 3, f 2 0, f 2 1, f 2 2, f 2 3]

/-- `rg_upload`: 64 words, `n2` and `d1` broadcast over four lanes, then the expanded
    coefficients, then padding. -/
def rgUpload {F : Type} [Zero F] (rg : RgConst F) : List F :=
  rgBlock (fun k _ => rg.n2 k) ++ rgBlock (fun k _ => rg.d1 k) ++ rgBlock rg.mulPrev ++
    rgBlock rg.mulPrev2 ++ rgBlock rg.mulIn ++ [0, 0, 0, 0]

end Ssimulacra2
