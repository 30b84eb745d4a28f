/-
  File:      Ssimulacra2/Png/Chunks.lean
  Subject:   The scan for colour-profile chunks (`png_profile_chunk`).

  * `chunks` -- what a PNG byte string holds from an offset on: the chunks one after the other, up
    to and with the first `IEND`, or up to the first one that is cut short;
  * `pngProfileChunk` -- the scan of the source, a cursor in `usize` arithmetic; an overflow, a
    slice out of range and a loop without end are the `none`;
  * `pngProfileChunk_policy` -- the scan answers, and its answer is the documented policy
    (`profilePolicy`) on the chunks.
-/
import Mathlib

namespace Ssimulacra2

/-- A byte slice: it occupies at most `isize::MAX` bytes. -/
structure ByteSlice where
  data : List UInt8
  length_lt : data.length < 2 ^ 63

/-- The chunk names the scan knows. -/
inductive Profile where
  | iCCP
  | gAMA
  | cHRM
  deriving DecidableEq, Repr

namespace Profile

/-- The byte string of the name. -/
def bytes : Profile → List UInt8
  | iCCP => [105, 67, 67, 80]
  | gAMA => [103, 65, 77, 65]
  | cHRM => [99, 72, 82, 77]

/-- The text the scan answers. -/
def text : Profile → String
  | iCCP => "iCCP"
  | gAMA => "gAMA"
  | cHRM => "cHRM"

end Profile

/-- `b"IEND"`. -/
def iendName : List UInt8 := [73, 69, 78, 68]

theorem bytes_ne_iend (p : Profile) : p.bytes ≠ iendName := by
  cases p <;> decide

/-- `u32::from_be_bytes`, on a slice of any length. -/
def beNat (bs : List UInt8) : Nat := bs.foldl (fun n b => n * 256 + b.toNat) 0

theorem beNat_foldl_lt (bs : List UInt8) (n : Nat) :
    bs.foldl (fun n b => n * 256 + b.toNat) n < (n + 1) * 256 ^ bs.length := by
  induction bs generalizing n with
  | nil =>
    rw [List.foldl_nil, List.length_nil, pow_zero]
    omega
  | cons b bs ih =>
    have hb := b.toNat_lt
    have hle : n * 256 + b.toNat + 1 ≤ (n + 1) * 256 := by omega
    calc (b :: bs).foldl (fun n b => n * 256 + b.toNat) n
        < (n * 256 + b.toNat + 1) * 256 ^ bs.length := ih _
      _ ≤ (n + 1) * 256 * 256 ^ bs.length := Nat.mul_le_mul_right _ hle
      _ = (n + 1) * 256 ^ (b :: bs).length := by
        rw [List.length_cons, pow_succ]
        ring

/-- Four bytes are a `u32`. -/
theorem beNat_lt {bs : List UInt8} (h : bs.length = 4) : beNat bs < 2 ^ 32 := by
  have := beNat_foldl_lt bs 0
  rw [h] at this
  exact this

/-! ## 1. The chunks of a byte string -/

/-- A chunk: its type and its data. -/
structure Chunk where
  type : List UInt8
  data : List UInt8
  deriving DecidableEq, Repr

/-- The next chunk and what follows its checksum: a length in four bytes, a type in four, the data,
    and a checksum in four, which may be missing. -/
def readChunk (rest : List UInt8) : Option (Chunk × List UInt8) :=
  let len := beNat (rest.take 4)
  if 8 ≤ rest.length ∧ 8 + len ≤ rest.length then
    some (⟨(rest.drop 4).take 4, (rest.drop 8).take len⟩, rest.drop (12 + len))
  else none

theorem readChunk_shorter {rest tail : List UInt8} {c : Chunk}
    (h : readChunk rest = some (c, tail)) : tail.length < rest.length := by
  unfold readChunk at h
  dsimp only at h
  split at h
  · next hlen =>
    cases h
    rw [List.length_drop]
    omega
  · cases h

/-- The chunks from here on: the first `IEND` is the last one. -/
def chunks (rest : List UInt8) : List Chunk :=
  match _h : readChunk rest with
  | none => []
  | some (c, tail) => if c.type = iendName then [c] else c :: chunks tail
termination_by rest.length
decreasing_by exact readChunk_shorter _h

theorem chunks_none {rest : List UInt8} (h : readChunk rest = none) : chunks rest = [] := by
  unfold chunks
  split
  · rfl
  · next e => rw [h] at e; cases e

theorem chunks_some {rest tail : List UInt8} {c : Chunk} (h : readChunk rest = some (c, tail)) :
    chunks rest = if c.type = iendName then [c] else c :: chunks tail := by
  conv => left; unfold chunks
  split
  · next e => rw [h] at e; cases e
  · next e =>
    rw [h] at e
    cases e
    rfl

/-- Some chunk has the name. -/
def hasChunk (name : List UInt8) (cs : List Chunk) : Bool := cs.any fun c => c.type = name

/-- **The documented policy**: `iCCP` is always fatal, `gAMA` and `cHRM` unless pixel-neutral chunks
    are tolerated. -/
def profilePolicy (toleratePixelNeutral : Bool) (cs : List Chunk) : Option Profile :=
  if hasChunk Profile.iCCP.bytes cs then some .iCCP
  else if toleratePixelNeutral then none
  else if hasChunk Profile.gAMA.bytes cs then some .gAMA
  else if hasChunk Profile.cHRM.bytes cs then some .cHRM
  else none

/-! ## 2. The scan -/

/-- `a + b` on 64-bit `usize`, checked. -/
def addUsize (a b : Nat) : Option Nat := if a + b < 2 ^ 64 then some (a + b) else none

theorem addUsize_some {a b : Nat} (h : a + b < 2 ^ 64) : addUsize a b = some (a + b) := if_pos h

/-- `&bytes[a..b]`. -/
def slice (bytes : List UInt8) (a b : Nat) : Option (List UInt8) :=
  if a ≤ b ∧ b ≤ bytes.length then some ((bytes.drop a).take (b - a)) else none

theorem slice_some {bytes : List UInt8} {a b : Nat} (h : a ≤ b) (hb : b ≤ bytes.length) :
    slice bytes a b = some ((bytes.drop a).take (b - a)) := if_pos ⟨h, hb⟩

/-- The `while` loop for one name, cut off after `fuel` rounds: whether the name was found. -/
def scanFor (bytes name : List UInt8) : Nat → Nat → Option Bool
  | 0, _ => none
  | fuel + 1, pos => do
    let header ← addUsize pos 8
    if header ≤ bytes.length then do
      let four ← addUsize pos 4
      let lenBytes ← slice bytes pos four
      let len := beNat lenBytes
      let stop ← addUsize header len
      if stop > bytes.length then some false
      else do
        let type ← slice bytes four header
        if type = name then some true
        else if type = iendName then some false
        else do
          let step ← addUsize 12 len
          let pos ← addUsize pos step
          scanFor bytes name fuel pos
    else some false

/-- The loop over the names. -/
def firstProfile (bytes : List UInt8) (toleratePixelNeutral : Bool) :
    List Profile → Option (Option Profile)
  | [] => some none
  | p :: ps =>
    if toleratePixelNeutral ∧ p.bytes.take 2 ≠ [105, 67] then
      firstProfile bytes toleratePixelNeutral ps
    else do
      -- every round of the loop moves the cursor on by twelve bytes at least
      let found ← scanFor bytes p.bytes (bytes.length + 1) 8
      if found then some (some p) else firstProfile bytes toleratePixelNeutral ps

/-- `png_profile_chunk`. -/
def pngProfileChunk (bytes : ByteSlice) (toleratePixelNeutral : Bool) : Option (Option Profile) :=
  firstProfile bytes.data toleratePixelNeutral [.iCCP, .gAMA, .cHRM]

/-! ## 3. The scan reads the chunks -/

/-- What the cursor of the scan sees is the next chunk. -/
theorem readChunk_drop {bytes : List UInt8} {pos : Nat} (h : pos + 8 ≤ bytes.length)
    (hstop : pos + 8 + beNat ((bytes.drop pos).take 4) ≤ bytes.length) :
    readChunk (bytes.drop pos) =
      some (⟨(bytes.drop (pos + 4)).take 4, (bytes.drop (pos + 8)).take (beNat ((bytes.drop pos).take 4))⟩,
        bytes.drop (pos + (12 + beNat ((bytes.drop pos).take 4)))) := by
  unfold readChunk
  rw [if_pos (by rw [List.length_drop]; omega), List.drop_drop, List.drop_drop, List.drop_drop]

theorem readChunk_short {bytes : List UInt8} {pos : Nat} (h : ¬pos + 8 ≤ bytes.length) :
    readChunk (bytes.drop pos) = none := by
  unfold readChunk
  rw [if_neg (by rw [List.length_drop]; omega)]

theorem readChunk_overrun {bytes : List UInt8} {pos : Nat}
    (h : ¬pos + 8 + beNat ((bytes.drop pos).take 4) ≤ bytes.length) :
    readChunk (bytes.drop pos) = none := by
  unfold readChunk
  rw [if_neg (by rw [List.length_drop]; omega)]

/-- **The scan for one name** looks through the chunks from the cursor on. -/
theorem scanFor_eq {bytes name : List UInt8} (hlen : bytes.length < 2 ^ 63) (hname : name ≠ iendName) :
    ∀ (fuel pos : Nat), pos < 2 ^ 63 + 8 → 1 ≤ fuel → bytes.length < fuel + pos →
      scanFor bytes name fuel pos = some (hasChunk name (chunks (bytes.drop pos))) := by
  intro fuel
  induction fuel with
  | zero =>
    intro pos _ h1
    exact absurd h1 (by decide)
  | succ fuel ih =>
    intro pos hpos _ hfuel
    unfold scanFor
    rw [addUsize_some (by omega), Option.bind_eq_bind, Option.bind_some]
    by_cases hhead : pos + 8 ≤ bytes.length
    · have hfour : ((bytes.drop pos).take 4).length = 4 := by
        rw [List.length_take, List.length_drop]
        omega
      have hu32 := beNat_lt hfour
      rw [if_pos hhead, addUsize_some (by omega), Option.bind_eq_bind, Option.bind_some,
        slice_some (by omega) (by omega), Option.bind_some, Nat.add_sub_cancel_left]
      dsimp only
      rw [addUsize_some (by omega), Option.bind_some]
      by_cases hstop : pos + 8 + beNat ((bytes.drop pos).take 4) ≤ bytes.length
      · have hread := readChunk_drop hhead hstop
        have hsub : pos + 8 - (pos + 4) = 4 := by omega
        rw [if_neg (by omega), slice_some (by omega) (by omega), Option.bind_some, hsub,
          chunks_some hread]
        by_cases htype : (bytes.drop (pos + 4)).take 4 = name
        · have hne : (bytes.drop (pos + 4)).take 4 ≠ iendName := fun e => hname (htype.symm.trans e)
          rw [if_pos htype, if_neg hne]
          unfold hasChunk
          rw [List.any_cons, htype, decide_eq_true rfl, Bool.true_or]
        · rw [if_neg htype]
          by_cases hend : (bytes.drop (pos + 4)).take 4 = iendName
          · rw [if_pos hend, if_pos hend]
            unfold hasChunk
            rw [List.any_cons, List.any_nil, decide_eq_false htype, Bool.or_false]
          · rw [if_neg hend, if_neg hend, addUsize_some (by omega), Option.bind_some,
              addUsize_some (by omega), Option.bind_some, ih _ (by omega) (by omega) (by omega)]
            unfold hasChunk
            rw [List.any_cons, decide_eq_false htype, Bool.false_or]
      · rw [if_pos (by omega), chunks_none (readChunk_overrun hstop)]
        rfl
    · rw [if_neg hhead, chunks_none (readChunk_short hhead)]
      rfl

/-- The loop over the names answers what the policy says. -/
theorem firstProfile_policy (bytes : ByteSlice) (toleratePixelNeutral : Bool) :
    firstProfile bytes.data toleratePixelNeutral [.iCCP, .gAMA, .cHRM] =
      some (profilePolicy toleratePixelNeutral (chunks (bytes.data.drop 8))) := by
  have hscan (p : Profile) : scanFor bytes.data p.bytes (bytes.data.length + 1) 8 =
      some (hasChunk p.bytes (chunks (bytes.data.drop 8))) :=
    scanFor_eq bytes.length_lt (bytes_ne_iend p) _ 8 (by decide) (by omega) (by omega)
  have hi : Profile.iCCP.bytes.take 2 = [105, 67] := rfl
  have hg : Profile.gAMA.bytes.take 2 ≠ [105, 67] := by decide
  have hc : Profile.cHRM.bytes.take 2 ≠ [105, 67] := by decide
  unfold profilePolicy
  cases toleratePixelNeutral with
  | true =>
    simp only [firstProfile, hi, hg, hc, hscan, Option.bind_eq_bind, Option.bind_some, ne_eq,
      not_true_eq_false, and_false, not_false_eq_true, and_true, if_true, if_false]
    by_cases h : hasChunk Profile.iCCP.bytes (chunks (bytes.data.drop 8)) = true
    · rw [if_pos h, if_pos h]
    · rw [if_neg h, if_neg h]
  | false =>
    simp only [firstProfile, hscan, Option.bind_eq_bind, Option.bind_some, Bool.false_eq_true,
      false_and, if_false]
    cases hasChunk Profile.iCCP.bytes (chunks (bytes.data.drop 8)) <;>
      cases hasChunk Profile.gAMA.bytes (chunks (bytes.data.drop 8)) <;>
      cases hasChunk Profile.cHRM.bytes (chunks (bytes.data.drop 8)) <;> rfl

/-- **The profile-chunk scan implements the documented policy**: it answers on every byte string,
    without an overflow or an access out of range, and answers what the policy says on the chunks
    after the signature. -/
theorem pngProfileChunk_policy (bytes : ByteSlice) (toleratePixelNeutral : Bool) :
    pngProfileChunk bytes toleratePixelNeutral =
      some (profilePolicy toleratePixelNeutral (chunks (bytes.data.drop 8))) :=
  firstProfile_policy bytes toleratePixelNeutral

end Ssimulacra2
