/-
  File:      Ssimulacra2/Vulkan/Values.lean
  Subject:   What the engine computes, without the device.

  `Launches` are the five kernels as functions of the contents of their input buffers;
  `Computes` says that the dispatches of the engine run them: an output depends on the inputs only,
  and the inputs stay. The definitions in `Denote` follow the engine launch by launch on contents
  instead of buffers; `none` is a refusal (a dispatch over the device limit) or a panic.
-/
import Ssimulacra2.Vulkan.Session

namespace Ssimulacra2

variable {F : Type} {D : Type} [F32 F] [F64 D] [Convert F D]

/-! ## 1. The kernels -/

/-- The kernels on contents. A size is in samples of one plane, `n`, or in columns and rows. -/
structure Launches (F : Type) where
  downsample : (iw ih : Nat) → (src : List F) → List F
  mul : (n : Nat) → (a b : List F) → List F
  xyb : (n : Nat) → (linear : List F) → List F
  blurH : (radius w h : Nat) → (rg input : List F) → List F
  blurV : (radius w h : Nat) → (rg temp : List F) → List F
  maps : (n : Nat) → (x1 x2 mu1 mu2 s11 s22 s12 : List F) → List F × List F

/-- **The dispatches of the engine run the kernels**, for images of at most `N` samples: whatever
    an output buffer held, it is a function of the inputs, and the inputs are what they were. -/
structure Computes (D : Type) [F64 D] [Convert F D] (E : Env F) (f : Launches F) (N : Nat) :
    Prop where
  downsample : ∀ iw ih src dst, 3 * iw * ih ≤ N → src.length = 3 * iw * ih →
    dst.length = 3 * ((iw + 1) / 2) * ((ih + 1) / 2) →
    E.kernel .downsampleBox2
      [.u32 (E.asU32 iw), .u32 (E.asU32 ih), .u32 (E.asU32 ((iw + 1) / 2)),
        .u32 (E.asU32 ((ih + 1) / 2))]
      (splitGroups (E.asU32 (groupsOf (3 * ((iw + 1) / 2) * ((ih + 1) / 2)))) E.maxGroupsX)
      [src, dst] = [src, f.downsample iw ih src]
  mul : ∀ n a b o, n ≤ N → a.length = n → b.length = n → o.length = n →
    E.kernel .mulPlanes [.u32 (E.asU32 n)] (splitGroups (E.asU32 (groupsOf n)) E.maxGroupsX)
      [a, b, o] = [a, b, f.mul n a b]
  xyb : ∀ n linear out, 3 * n ≤ N → linear.length = 3 * n → out.length = 3 * n →
    E.kernel .xybPositive (xybPush D (E.asU32 n) true)
      (splitGroups (groupsOf (E.asU32 n)) E.maxGroupsX) [linear, out] = [linear, f.xyb n linear]
  blurH : ∀ radius w h rg input temp, 3 * w * h ≤ N → input.length = 3 * w * h →
    temp.length = 3 * w * h → rg.length = 64 →
    E.kernel .blurH [.u32 (E.asU32 w), .u32 (E.asU32 h), .u32 radius]
      (splitGroups (groupsOf (E.asU32 (3 * h))) E.maxGroupsX) [input, temp, rg] =
      [input, f.blurH radius w h rg input, rg]
  blurV : ∀ radius w h rg temp out, 3 * w * h ≤ N → temp.length = 3 * w * h →
    out.length = 3 * w * h → rg.length = 64 →
    E.kernel .blurV [.u32 (E.asU32 w), .u32 (E.asU32 h), .u32 radius]
      (splitGroups (groupsOf (E.asU32 (3 * w))) E.maxGroupsX) [temp, out, rg] =
      [temp, f.blurV radius w h rg temp, rg]
  maps : ∀ n x1 x2 mu1 mu2 s11 s22 s12 sd ed, 3 * n ≤ N →
    (∀ xs ∈ [x1, x2, mu1, mu2, s11, s22, s12, sd, ed], xs.length = 3 * n) →
    E.kernel .mapsCombine [.u32 (E.asU32 n)] (splitGroups (groupsOf (E.asU32 (3 * n))) E.maxGroupsX)
      [x1, x2, mu1, mu2, s11, s22, s12, sd, ed] =
      [x1, x2, mu1, mu2, s11, s22, s12, (f.maps n x1 x2 mu1 mu2 s11 s22 s12).1,
        (f.maps n x1 x2 mu1 mu2 s11 s22 s12).2]

/-! ## 2. Launches on contents -/

namespace Denote

variable (E : Env F) (f : Launches F)

/-- A dispatch of so many groups that is to give `x`. -/
def launch {α : Type} (groupsX : Nat) (x : α) : Option α := (fits E groupsX).map fun _ => x

def downsample (src : List F) (iw ih : Nat) : Option (List F) :=
  let n := 3 * ((iw + 1) / 2) * ((ih + 1) / 2)
  launch E (E.asU32 (groupsOf n)) (fit n (f.downsample iw ih src))

def mul (a b : List F) (n : Nat) : Option (List F) :=
  launch E (E.asU32 (groupsOf n)) (fit n (f.mul n a b))

def xyb (linear : List F) (n : Nat) : Option (List F) :=
  launch E (groupsOf (E.asU32 n)) (fit (3 * n) (f.xyb n linear))

def blur (rg : RgConst F) (input : List F) (w h : Nat) : Option (List F) := do
  let temp ← launch E (groupsOf (E.asU32 (3 * h)))
    (fit (3 * w * h) (f.blurH rg.radius w h (rgUpload rg) input))
  launch E (groupsOf (E.asU32 (3 * w)))
    (fit (3 * w * h) (f.blurV rg.radius w h (rgUpload rg) temp))

def maps (x1 x2 mu1 mu2 s11 s22 s12 : List F) (n : Nat) : Option (List F × List F) :=
  let both := f.maps n x1 x2 mu1 mu2 s11 s22 s12
  launch E (groupsOf (E.asU32 (3 * n))) (fit (3 * n) both.1, fit (3 * n) both.2)

/-! ## 3. The engine on contents -/

/-- The images of a round: halved after the first one. -/
def halved (scale : Nat) (l : Level F) : Option (Level F) :=
  if scale > 0 then do
    let d1 ← downsample E f l.a l.w l.h
    let d2 ← downsample E f l.b l.w l.h
    some ⟨d1, d2, (l.w + 1) / 2, (l.h + 1) / 2⟩
  else some l

/-- One image of a round. -/
def halved1 (scale : Nat) (a : List F) (w h : Nat) : Option (List F × Nat × Nat) :=
  if scale > 0 then do
    let d ← downsample E f a w h
    some (d, (w + 1) / 2, (h + 1) / 2)
  else some (a, w, h)

variable (D)

/-- The two maps of a round of the single shot. -/
def computeMaps (rg : RgConst F) (l : Level F) : Option (List F × List F) := do
  let n := l.w * l.h
  let x1 ← xyb E f l.a n
  let x2 ← xyb E f l.b n
  let m11 ← mul E f x1 x1 (3 * n)
  let m22 ← mul E f x2 x2 (3 * n)
  let m12 ← mul E f x1 x2 (3 * n)
  let s11 ← blur E f rg m11 l.w l.h
  let s22 ← blur E f rg m22 l.w l.h
  let s12 ← blur E f rg m12 l.w l.h
  let mu1 ← blur E f rg x1 l.w l.h
  let mu2 ← blur E f rg x2 l.w l.h
  maps E f x1 x2 mu1 mu2 s11 s22 s12 n

/-- The norms of the two maps of a round. -/
def norms (both : List F × List F) (w h : Nat) :
    Option (ScaleNorms D) := normsOf D [both.1, both.2] w h

/-- The scale loop of the single shot. -/
def computeLoop (rg : RgConst F) :
    Nat → Nat → Level F → List (ScaleNorms D) → Option (List (ScaleNorms D))
  | 0, _, _, scales => some scales
  | left + 1, scale, l, scales =>
      if l.w < 8 ∨ l.h < 8 then some scales
      else do
        let l ← halved E f scale l
        let both ← computeMaps E f rg l
        let sn ← norms D both l.w l.h
        computeLoop rg left (scale + 1) l (scales ++ [sn])

/-- The assertion on the length of an image. -/
def sized (lin : List F) (w h : Nat) : Option Unit :=
  if lin.length = 3 * w * h then some () else none

/-- The single shot. -/
def compute (lin1 lin2 : List F) (w h : Nat) : Option (List (ScaleNorms D)) := do
  sized lin1 w h
  sized lin2 w h
  let rg ← createRecursiveGaussian F (F64.lit 1.5 : D)
  computeLoop D E f rg 6 0 ⟨lin1, lin2, w, h⟩ []

variable {D}

/-- The contents of a `ScalePrep`. -/
structure Prep (F : Type) where
  x : List F
  s : List F
  mu : List F
  w : Nat
  h : Nat

/-- A round of the preparation. -/
def prepRound (rg : RgConst F) (a : List F) (w h : Nat) : Option (Prep F) := do
  let n := w * h
  let x ← xyb E f a n
  let m ← mul E f x x (3 * n)
  let s ← blur E f rg m w h
  let mu ← blur E f rg x w h
  some ⟨x, s, mu, w, h⟩

/-- The scale loop of the preparation. -/
def prepLoop (rg : RgConst F) :
    Nat → Nat → List F → Nat → Nat → List (Prep F) → Option (List (Prep F))
  | 0, _, _, _, _, scales => some scales
  | left + 1, scale, a, w, h, scales =>
      if w < 8 ∨ h < 8 then some scales
      else do
        let (a, w, h) ← halved1 E f scale a w h
        let p ← prepRound E f rg a w h
        prepLoop rg left (scale + 1) a w h (scales ++ [p])

variable (D)

/-- The preparation. -/
def prep (lin : List F) (w h : Nat) : Option (List (Prep F)) := do
  sized lin w h
  let rg ← createRecursiveGaussian F (F64.lit 1.5 : D)
  prepLoop E f rg 6 0 lin w h []

/-- The two maps of a round of the comparison of two preparations. -/
def compareMaps (rg : RgConst F) (a b : Prep F) : Option (List F × List F) := do
  let n := a.w * a.h
  let m12 ← mul E f a.x b.x (3 * n)
  let s12 ← blur E f rg m12 a.w a.h
  maps E f a.x b.x a.mu b.mu a.s b.s s12 n

/-- The loop of the comparison. -/
def compareLoop (rg : RgConst F) :
    List (Prep F × Prep F) → List (ScaleNorms D) → Option (List (ScaleNorms D))
  | [], scales => some scales
  | (a, b) :: rest, scales => do
      let both ← compareMaps E f rg a b
      let sn ← norms D both a.w a.h
      compareLoop rg rest (scales ++ [sn])

/-- The comparison of two preparations. -/
def compare (a b : List (Prep F)) : Option (List (ScaleNorms D)) := do
  let rg ← createRecursiveGaussian F (F64.lit 1.5 : D)
  compareLoop D E f rg (a.zip b) []

/-- The two maps of a round of the comparison of a preparation with an image. -/
def comparePrepMaps (rg : RgConst F) (o : Prep F) (l : List F) (w h : Nat) :
    Option (List F × List F) :=
  if o.w = w ∧ o.h = h then do
    let n := w * h
    let vx ← xyb E f l n
    let vm ← mul E f vx vx (3 * n)
    let vs ← blur E f rg vm w h
    let vmu ← blur E f rg vx w h
    let m12 ← mul E f o.x vx (3 * n)
    let s12 ← blur E f rg m12 w h
    maps E f o.x vx o.mu vmu o.s vs s12 n
  else none

/-- The loop of the comparison of a preparation with an image. -/
def comparePrepLoop (rg : RgConst F) :
    List (Prep F) → Nat → List F → Nat → Nat → List (ScaleNorms D) → Option (List (ScaleNorms D))
  | [], _, _, _, _, out => some out
  | o :: rest, si, l, w, h, out => do
      let (l, w, h) ← halved1 E f si l w h
      let both ← comparePrepMaps E f rg o l w h
      let sn ← norms D both w h
      comparePrepLoop rg rest (si + 1) l w h (out ++ [sn])

/-- The comparison of a preparation with an image. -/
def comparePrep (orig : List (Prep F)) (vlin : List F) (w h : Nat) :
    Option (List (ScaleNorms D)) := do
  sized vlin w h
  let rg ← createRecursiveGaussian F (F64.lit 1.5 : D)
  comparePrepLoop D E f rg orig 0 vlin w h []

/-- The batch. -/
def scoreBatch (origLin : List F) (w h : Nat) (variants : List (List F)) :
    Option (List (List (ScaleNorms D))) := do
  let orig ← prep D E f origLin w h
  variants.mapM fun v => comparePrep D E f orig v w h

end Denote

end Ssimulacra2
