/-
  File:      Ssimulacra2/Lib/LittleEndian.lean
  Subject:   Numbers as bytes, lowest first, and runs of records of one size. Nothing here names a
             program.

  * `putBytes`, `getBytes` -- a number of `k` bytes, written and read: each undoes the other;
  * `chunksExact_flatMap` -- records written one after another are cut where they were joined;
  * `Codec` -- values of one width, and lists of them.
-/
import Mathlib
import Ssimulacra2.Lib.Lists

namespace LittleEndian

/-! ## 1. Numbers -/

/-- The `k` low bytes of `n`. -/
def putBytes : Nat → Nat → List UInt8
  | 0, _ => []
  | k + 1, n => UInt8.ofNat n :: putBytes k (n / 256)

/-- The number that bytes stand for. -/
def getBytes : List UInt8 → Nat
  | [] => 0
  | b :: bs => b.toNat + 256 * getBytes bs

@[simp] theorem putBytes_length (k n : Nat) : (putBytes k n).length = k := by
  induction k generalizing n with
  | zero => rfl
  | succ k ih => rw [putBytes, List.length_cons, ih]

/-- **Written and read**: the number, cut to `k` bytes. -/
theorem getBytes_putBytes (k n : Nat) : getBytes (putBytes k n) = n % 256 ^ k := by
  induction k generalizing n with
  | zero => exact (Nat.mod_one n).symm
  | succ k ih =>
    have hb : (UInt8.ofNat n).toNat = n % 256 := UInt8.toNat_ofNat'
    rw [putBytes, getBytes, ih, hb, Nat.pow_succ', Nat.mod_mul]

theorem getBytes_putBytes_of_lt {k n : Nat} (h : n < 256 ^ k) : getBytes (putBytes k n) = n := by
  rw [getBytes_putBytes, Nat.mod_eq_of_lt h]

theorem getBytes_lt (bs : List UInt8) : getBytes bs < 256 ^ bs.length := by
  induction bs with
  | nil => exact Nat.one_pos
  | cons b bs ih =>
    have hb := b.toNat_lt
    rw [getBytes, List.length_cons, Nat.pow_succ]
    omega

/-- **Read and written.** -/
theorem putBytes_getBytes (bs : List UInt8) : putBytes bs.length (getBytes bs) = bs := by
  induction bs with
  | nil => rfl
  | cons b bs ih =>
    have hb := b.toNat_lt
    have hlow : UInt8.ofNat (b.toNat + 256 * getBytes bs) = b := by
      refine UInt8.toNat_inj.mp (UInt8.toNat_ofNat'.trans ?_)
      omega
    have hhigh : (b.toNat + 256 * getBytes bs) / 256 = getBytes bs := by omega
    rw [List.length_cons, getBytes, putBytes, hlow, hhigh, ih]

/-! ## 2. Records -/

section Records

variable {α β : Type*} {k : Nat}

/-- The pieces of `k` elements, in order. -/
def chunksExact (k : Nat) (xs : List α) : List (List α) :=
  (List.range (xs.length / k)).map fun i => (xs.drop (i * k)).take k

theorem chunksExact_of_lt {xs : List α} (h : xs.length < k) : chunksExact k xs = [] := by
  unfold chunksExact
  rw [Nat.div_eq_of_lt h]
  rfl

/-- The first piece. -/
theorem chunksExact_append (hk : 0 < k) {a xs : List α} (ha : a.length = k) :
    chunksExact k (a ++ xs) = a :: chunksExact k xs := by
  have hlen : (a ++ xs).length / k = xs.length / k + 1 := by
    rw [List.length_append, ha, Nat.add_comm, Nat.add_div_right _ hk]
  unfold chunksExact
  rw [hlen, List.range_succ_eq_map, List.map_cons, List.map_map]
  congr 1
  · rw [Nat.zero_mul, List.drop_zero, ← ha, List.take_left]
  · refine List.map_congr_left fun i _ => ?_
    have hdrop : (a ++ xs).drop (i.succ * k) = xs.drop (i * k) := by
      rw [Nat.succ_mul, Nat.add_comm, ← List.drop_drop, ← ha, List.drop_left]
    rw [Function.comp_apply, hdrop]

/-- **Records of one size, written one after another**, are cut where they were joined; a rest that is
    shorter than a record is left out. -/
theorem chunksExact_flatMap {f : β → List α} (hf : ∀ b, (f b).length = k) (bs : List β)
    {rest : List α} (hrest : rest.length < k) :
    chunksExact k (bs.flatMap f ++ rest) = bs.map f := by
  induction bs with
  | nil => exact chunksExact_of_lt hrest
  | cons b bs ih =>
    rw [List.flatMap_cons, List.append_assoc, chunksExact_append (by omega) (hf b), ih, List.map_cons]

/-- **The pieces are the list**, but for a rest that is shorter than a piece. -/
theorem chunksExact_flatten (hk : 0 < k) (xs : List α) :
    ∃ rest, xs = (chunksExact k xs).flatten ++ rest ∧ rest.length < k ∧
      ∀ c ∈ chunksExact k xs, c.length = k := by
  obtain ⟨n, hn⟩ : ∃ n, xs.length / k = n := ⟨_, rfl⟩
  induction n generalizing xs with
  | zero =>
    have hlt : xs.length < k := (Nat.div_eq_zero_iff.mp hn).resolve_left (by omega)
    rw [chunksExact_of_lt hlt]
    exact ⟨xs, rfl, hlt, nofun⟩
  | succ n ih =>
    have hle : k ≤ xs.length := by
      by_contra h
      rw [Nat.div_eq_of_lt (by omega)] at hn
      omega
    have htake : (xs.take k).length = k := List.length_take_of_le hle
    have hdrop : (xs.drop k).length / k = n := by
      rw [← Nat.sub_add_cancel hle, Nat.add_div_right _ hk] at hn
      rw [List.length_drop]
      exact Nat.succ.inj hn
    obtain ⟨rest, e, hrest, hall⟩ := ih _ hdrop
    have hsplit : chunksExact k xs = xs.take k :: chunksExact k (xs.drop k) := by
      rw [← chunksExact_append hk htake, List.take_append_drop]
    refine ⟨rest, ?_, hrest, ?_⟩
    · rw [hsplit, List.flatten_cons, List.append_assoc, ← e, List.take_append_drop]
    · rw [hsplit, List.forall_mem_cons]
      exact ⟨htake, hall⟩

end Records

/-! ## 3. Codecs -/

/-- **A codec of `k` bytes**: every value is written to `k` bytes, and every `k` bytes are those of the
    value they are read as. -/
structure Codec (α : Type) (k : Nat) where
  put : α → List UInt8
  get : List UInt8 → α
  put_length : ∀ a, (put a).length = k
  get_put : ∀ a, get (put a) = a
  put_get : ∀ bs, bs.length = k → put (get bs) = bs

namespace Codec

variable {α : Type} {k : Nat} (c : Codec α k)

/-- Values, one after another. -/
def putAll (as : List α) : List UInt8 := as.flatMap c.put

/-- The values that fill the pieces. -/
def getAll (bs : List UInt8) : List α := (chunksExact k bs).map c.get

theorem putAll_length (as : List α) : (c.putAll as).length = k * as.length :=
  Lists.length_flatMap c.put_length as

/-- **The values are read back**, whatever short rest stands behind them. -/
theorem getAll_putAll (as : List α) {rest : List UInt8} (hrest : rest.length < k) :
    c.getAll (c.putAll as ++ rest) = as := by
  unfold getAll putAll
  rw [chunksExact_flatMap c.put_length as hrest, List.map_map]
  exact (List.map_congr_left fun a _ => c.get_put a).trans (List.map_id' as)

/-- **The bytes are those of the values read**, but for a short rest. -/
theorem putAll_getAll (hk : 0 < k) (bs : List UInt8) :
    ∃ rest, rest.length < k ∧ bs = c.putAll (c.getAll bs) ++ rest := by
  obtain ⟨rest, e, hrest, hall⟩ := chunksExact_flatten hk bs
  refine ⟨rest, hrest, ?_⟩
  have hpieces : c.putAll (c.getAll bs) = (chunksExact k bs).flatten := by
    unfold putAll getAll
    rw [List.flatMap_map, List.flatMap_congr fun p hp => c.put_get p (hall p hp), List.flatMap_id']
  rw [hpieces]
  exact e

/-- The value at `o`. -/
def readAt (bs : List UInt8) (o : Nat) : α := c.get ((bs.drop o).take k)

/-- The first value. -/
theorem readAt_head (a : α) (bs : List UInt8) : c.readAt (c.put a ++ bs) 0 = a := by
  unfold readAt
  rw [List.drop_zero, List.take_left' (c.put_length a), c.get_put]

/-- The values behind a first part. -/
theorem readAt_skip {m : Nat} {as : List UInt8} (h : as.length = m) (bs : List UInt8) (o : Nat) :
    c.readAt (as ++ bs) (m + o) = c.readAt bs o := by
  unfold readAt
  rw [← List.drop_drop, List.drop_left' h]

/-- **The value at `o` stands there**, and the other bytes behind it. -/
theorem drop_readAt {bs : List UInt8} {o : Nat} (h : o + k ≤ bs.length) :
    bs.drop o = c.put (c.readAt bs o) ++ bs.drop (o + k) := by
  have htake : ((bs.drop o).take k).length = k := by
    rw [List.length_take, List.length_drop]
    omega
  unfold readAt
  rw [c.put_get _ htake, ← List.drop_drop, List.take_append_drop]

end Codec

end LittleEndian
