/-
  File:      Ssimulacra2/Lib/Words.lean
  Subject:   32-bit machine words that stand for numbers, and counted loops over them.

  A word is written as the image of the number it stands for (`UInt32.ofNat a`, `Int32.ofInt e`):
  sums, differences and products of images are images without a side condition, and only where a
  word is compared, divided or used as an address must the number be in range. Nothing here names a
  program:

  * `ofNat_lt`, `min_ofNat`, `ofInt_lt`, `min_ofInt`, `ofInt_div` -- comparisons and quotients;
  * `toNat_offset`, `toNat_stride` -- a signed offset added to an unsigned address;
  * `loopBelow` -- a counted loop over a signed word, and `loopBelow_eq`: inside the range it is
    the loop over the integers.
-/
import Ssimulacra2.Lib.Loop

namespace Words

/-! ## 1. Unsigned words -/

section Unsigned

variable {a b : Nat}

theorem toNat_ofNat (h : a < 2 ^ 32) : (UInt32.ofNat a).toNat = a := UInt32.toNat_ofNat_of_lt' h

theorem ofNat_lt (ha : a < 2 ^ 32) (hb : b < 2 ^ 32) : UInt32.ofNat a < UInt32.ofNat b ↔ a < b :=
  UInt32.ofNat_lt_iff_lt ha hb

theorem ofNat_le (ha : a < 2 ^ 32) (hb : b < 2 ^ 32) : UInt32.ofNat a ≤ UInt32.ofNat b ↔ a ≤ b :=
  UInt32.ofNat_le_iff_le ha hb

theorem min_ofNat (ha : a < 2 ^ 32) (hb : b < 2 ^ 32) :
    min (UInt32.ofNat a) (UInt32.ofNat b) = UInt32.ofNat (min a b) := by
  change (if UInt32.ofNat a ≤ UInt32.ofNat b then UInt32.ofNat a else UInt32.ofNat b) = _
  rw [min_def, apply_ite UInt32.ofNat]
  exact if_congr (ofNat_le ha hb) rfl rfl

end Unsigned

/-! ## 2. Signed words -/

/-- An integer that a signed word can hold. -/
def Fits (e : Int) : Prop := -2 ^ 31 ≤ e ∧ e < 2 ^ 31

section Signed

variable {a b : Int}

theorem ofInt_lt (ha : Fits a) (hb : Fits b) : Int32.ofInt a < Int32.ofInt b ↔ a < b := by
  rw [Int32.lt_iff_toInt_lt, Int32.toInt_ofInt_of_le ha.1 ha.2, Int32.toInt_ofInt_of_le hb.1 hb.2]

theorem ofInt_le (ha : Fits a) (hb : Fits b) : Int32.ofInt a ≤ Int32.ofInt b ↔ a ≤ b := by
  rw [Int32.le_iff_toInt_le, Int32.toInt_ofInt_of_le ha.1 ha.2, Int32.toInt_ofInt_of_le hb.1 hb.2]

theorem min_ofInt (ha : Fits a) (hb : Fits b) :
    min (Int32.ofInt a) (Int32.ofInt b) = Int32.ofInt (min a b) := by
  change (if Int32.ofInt a ≤ Int32.ofInt b then Int32.ofInt a else Int32.ofInt b) = _
  rw [min_def, apply_ite Int32.ofInt]
  exact if_congr (ofInt_le ha hb) rfl rfl

/-- The quotient of words rounds towards zero, so on naturals it is the quotient of integers. -/
theorem ofInt_div (ha : Fits a) (h0 : 0 ≤ a) (hb : Fits b) :
    Int32.ofInt a / Int32.ofInt b = Int32.ofInt (a / b) := by
  obtain ⟨ha1, ha2⟩ := ha
  obtain ⟨hb1, hb2⟩ := hb
  rw [← Int.tdiv_eq_ediv_of_nonneg h0]
  exact (Int32.ofInt_tdiv ha1 (Int.le_sub_one_of_lt ha2) hb1 (Int.le_sub_one_of_lt hb2)).symm

/-- The cast of a word that stands for a natural. -/
theorem ofInt_toUInt32 (h0 : 0 ≤ a) : (Int32.ofInt a).toUInt32 = UInt32.ofNat a.toNat := by
  obtain ⟨n, rfl⟩ := Int.eq_ofNat_of_zero_le h0
  rw [Int.toNat_natCast, Int32.ofInt_eq_ofNat]
  rfl

/-- **A signed offset** added to an address that it does not push out of range. -/
theorem toNat_offset {base : Nat} (h0 : 0 ≤ a) (h : base + a < 2 ^ 32) :
    ((UInt32.ofNat base + (Int32.ofInt a).toUInt32).toNat : Int) = base + a := by
  rw [ofInt_toUInt32 h0, ← UInt32.ofNat_add, toNat_ofNat (by omega)]
  omega

/-- The same in steps of `stride`. -/
theorem toNat_stride {base stride : Nat} (h0 : 0 ≤ a) (h : base + a * stride < 2 ^ 32) :
    ((UInt32.ofNat base + (Int32.ofInt a).toUInt32 * UInt32.ofNat stride).toNat : Int) =
      base + a * stride := by
  obtain ⟨n, rfl⟩ := Int.eq_ofNat_of_zero_le h0
  have hlt : base + n * stride < 2 ^ 32 := by exact_mod_cast h
  rw [ofInt_toUInt32 h0, Int.toNat_natCast, ← UInt32.ofNat_mul, ← UInt32.ofNat_add,
    toNat_ofNat hlt]
  push_cast
  rfl

end Signed

/-! ## 3. Loops -/

section Loops

variable {σ : Type*}

/-- The loop, given up after `fuel` rounds. -/
def loopFuel (hi step : Int32) (body : Int32 → σ → Option σ) :
    Nat → Int32 → σ → Option (Int32 × σ)
  | 0, _, _ => none
  | fuel + 1, n, s =>
      if n < hi then (body n s).bind fun s' => loopFuel hi step body fuel (n + step) s'
      else some (n, s)

/-- `for (; n < hi; n += step) { body }`. A loop still running after `2 ^ 32` rounds has wrapped
    around to an index it had before and never ends. -/
def loopBelow (hi step : Int32) (body : Int32 → σ → Option σ) (n : Int32) (s : σ) :
    Option (Int32 × σ) := loopFuel hi step body (2 ^ 32) n s

/-- **A loop over words is the loop over the integers** while the index stays in range: up to the
    bound the bodies agree, and one step past the bound is still a word. -/
theorem loopBelow_eq {u d : Int} (hd : 1 ≤ d) (hu : -2 ^ 31 ≤ u) (hud : u + d ≤ 2 ^ 31)
    {body : Int32 → σ → Option σ} {b : Int → σ → Option σ} {l : Int} (hl : -2 ^ 31 ≤ l)
    (h : ∀ n s, l ≤ n → n < u → body (Int32.ofInt n) s = b n s) {n : Int} (hn : l ≤ n)
    (hn' : n < 2 ^ 31) (s : σ) :
    loopBelow (Int32.ofInt u) (Int32.ofInt d) body (Int32.ofInt n) s =
      (Loop.loopBelow u d b n s).map fun p => (Int32.ofInt p.1, p.2) := by
  have hlt (m : Int) (h1 : l ≤ m) (h2 : m < 2 ^ 31) : Int32.ofInt m < Int32.ofInt u ↔ m < u :=
    ofInt_lt ⟨by omega, h2⟩ ⟨hu, by omega⟩
  -- on the fuel: `u - n` rounds are left
  have main (fuel : Nat) : ∀ (m : Int) (s : σ), l ≤ m → m < 2 ^ 31 → (u - m).toNat < fuel →
      loopFuel (Int32.ofInt u) (Int32.ofInt d) body fuel (Int32.ofInt m) s =
        (Loop.loopBelow u d b m s).map fun p => (Int32.ofInt p.1, p.2) := by
    induction fuel with
    | zero => exact fun m s _ _ hf => absurd hf (Nat.not_lt_zero _)
    | succ fuel ih =>
      intro m s h1 h2 hf
      unfold loopFuel
      by_cases hm : m < u
      · rw [if_pos ((hlt m h1 h2).mpr hm), h m s h1 hm, Loop.loopBelow_step hd s hm,
          ← Int32.ofInt_add, Option.map_bind]
        congr 1
        funext s'
        exact ih (m + d) s' (by omega) (by omega) (by omega)
      · rw [if_neg fun hc => hm ((hlt m h1 h2).mp hc), Loop.loopBelow_done s hm, Option.map_some]
  exact main (2 ^ 32) n s hn hn' (by omega)

end Loops

end Words
