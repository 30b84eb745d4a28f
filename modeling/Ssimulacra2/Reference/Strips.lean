/-
  File:      Ssimulacra2/Reference/Strips.lean
  Subject:   Strips of columns in the reference (`gauss_blur.cc`: `VerticalBlock`, `VerticalStrip`;
             `image.cc`: `BytesPerRow`).

  A plane is memory: rows of `stride` samples, of which `xsize` are the image and the others padding
  that holds anything. A strip works on full vectors of `kVN` lanes (`HWY_FULL(float)` on a target
  with at least four), with one interleaved ring buffer for all of them. `RgConst` holds `n2` and `d1`
  once for all lanes, as `LoadDup128` spreads them. `MulAdd` and `NegMulSub` are read as fused, as on
  a target with fused multiply-add. Prefetches are left out.

  * `InLane`, `verticalBlock_lanes` -- a lane of a block is a block of a strip of one column;
  * `OnStrip` -- the invariant of the four loops, and what they leave alone;
  * `verticalStrip_stores` -- a strip stores the vertical scan of each of its columns.
-/
import Ssimulacra2.Blur.Plane

namespace Ssimulacra2.Reference

open Loop Fill

variable {F : Type}

/-! ## 1. Planes in memory -/

/-- `DivCeil(what, align) * align`. -/
def roundUpTo (what align : Nat) : Nat := (what + align - 1) / align * align

/-- `CacheAligned::kAlignment`. -/
def kAlignment : Nat := 128

/-- `CacheAligned::kAlias`. -/
def kAlias : Nat := 2048

/-- `BytesPerRow`, over `VectorSize()`. -/
def bytesPerRow (vecSize xsize sizeofT : Nat) : Nat :=
  let validBytes := xsize * sizeofT
  let validBytes := if vecSize ≠ 0 then validBytes + vecSize - sizeofT else validBytes
  let align := max vecSize kAlignment
  let bytes := roundUpTo validBytes align
  if bytes % kAlias = 0 then bytes + align else bytes

theorem le_roundUpTo (what : Nat) {align : Nat} (h : 0 < align) : what ≤ roundUpTo what align := by
  have hmod := Nat.div_add_mod (what + align - 1) align
  have hlt := Nat.mod_lt (what + align - 1) h
  have hcomm := Nat.mul_comm align ((what + align - 1) / align)
  unfold roundUpTo
  omega

/-- A row has room for an unaligned vector at its last sample. -/
theorem le_bytesPerRow (vecSize xsize sizeofT : Nat) :
    xsize * sizeofT + vecSize - sizeofT ≤ bytesPerRow vecSize xsize sizeofT := by
  have halign : 0 < max vecSize kAlignment := lt_max_of_lt_right (by decide)
  have hle (n : Nat) : n ≤ if roundUpTo n (max vecSize kAlignment) % kAlias = 0 then
      roundUpTo n (max vecSize kAlignment) + max vecSize kAlignment
      else roundUpTo n (max vecSize kAlignment) := by
    have := le_roundUpTo n halign
    split_ifs <;> omega
  unfold bytesPerRow
  by_cases hv : vecSize ≠ 0
  · simp only [if_pos hv]
    exact hle _
  · simp only [if_neg hv]
    exact le_trans (by omega) (hle _)

/-- `ImageF`, with its memory: row `y` starts at `cells[y * stride]`. `ShrinkTo` changes the size and
    nothing else. -/
structure Plane (F : Type) (kVN : Nat) where
  xsize : Nat
  ysize : Nat
  origXsize : Nat
  origYsize : Nat
  stride : Nat
  cells : List F
  width : xsize ≤ origXsize
  height : ysize ≤ origYsize
  padded : origXsize ≠ 0 → origYsize ≠ 0 → origXsize + kVN ≤ stride + 1
  room : cells.length = stride * origYsize

namespace Plane

variable {kVN : Nat}

/-- `ImageF(xsize, ysize)`, over memory that holds `fresh`. -/
def new (kVN xsize ysize : Nat) (fresh : Nat → F) : Plane F kVN :=
  let bytes := if xsize ≠ 0 ∧ ysize ≠ 0 then bytesPerRow (4 * kVN) xsize 4 else 0
  { xsize := xsize
    ysize := ysize
    origXsize := xsize
    origYsize := ysize
    stride := bytes / 4
    cells := (List.range (bytes / 4 * ysize)).map fresh
    width := le_rfl
    height := le_rfl
    padded := fun hx hy => by
      have h := le_bytesPerRow (4 * kVN) xsize 4
      simp only [bytes, if_pos (And.intro hx hy)]
      omega
    room := by rw [List.length_map, List.length_range] }

/-- `ShrinkTo`. -/
def shrinkTo (xsize ysize : Nat) (p : Plane F kVN) : Option (Plane F kVN) :=
  if h : xsize ≤ p.origXsize ∧ ysize ≤ p.origYsize then
    some { p with xsize := xsize, ysize := ysize, width := h.1, height := h.2 }
  else none

/-- The plane with the memory a pass left. -/
def withCells (p : Plane F kVN) (cells : List F) : Option (Plane F kVN) :=
  if h : cells.length = p.cells.length then some { p with cells := cells, room := h.trans p.room }
  else none

/-- `ConstRow(y)[x]`, in the row or its padding. -/
def rd (p : Plane F kVN) (y x : Int) : Option F :=
  if (0 ≤ y ∧ y < p.ysize) ∧ 0 ≤ x ∧ x < p.stride then readAt p.cells (y * p.stride + x) else none

/-- `Row(y)[x] = v`. -/
def wr (p : Plane F kVN) (y x : Int) (v : F) (cells : List F) : Option (List F) :=
  if (0 ≤ y ∧ y < p.ysize) ∧ 0 ≤ x ∧ x < p.stride then writeAt (y * p.stride + x) v cells else none

/-- `SameSize`. -/
def sameSize (p q : Plane F kVN) : Bool := p.xsize = q.xsize ∧ p.ysize = q.ysize

/-- The sample in row `y` and column `x` of the memory. -/
def sample [Zero F] (p : Plane F kVN) (y x : Nat) : F := cell p.cells (y * p.stride + x)

end Plane

/-! ## 2. Full vectors -/

namespace Full

variable [FmaOps F] {σ : Type} {kVN : Nat}

/-- `Vec<HWY_FULL(float)>`. -/
abbrev V (F : Type) (kVN : Nat) := Fin kVN → F

/-- `Load(d, pos + i)`. -/
def load (rd : Int → Option F) (kVN : Nat) (i : Int) : Option (V F kVN) :=
  if h : ∀ l : Fin kVN, (rd (i + l.val)).isSome then some fun l => (rd (i + l.val)).get (h l)
  else none

/-- `Store(v, d, pos + i)`. -/
def store (wr : Int → F → σ → Option σ) (i : Int) (v : V F kVN) (out : σ) : Option σ :=
  (List.finRange kVN).foldlM (fun out l => wr (i + l.val) (v l) out) out

/-- `Store(v, d, ring_buffer + base)`. -/
def storeRing (base : Nat) (v : V F kVN) (ring : Nat → F) : Nat → F := fun i =>
  if h : base ≤ i ∧ i < base + kVN then v ⟨i - base, by omega⟩ else ring i

/-- `y_k + kLanes * n + j`: slot `n` of lane `j` in section `k` of the ring buffer. -/
def slot (kLanes k n j : Nat) : Nat := k * kLanes * kMod + kLanes * n + j

/-- The new values of section `k`: `y1`, `y3`, `y5`. -/
def block (rg : RgConst F) (kLanes n_1 n_2 j : Nat) (sum : V F kVN) (ring : Nat → F) (k : Fin 3) :
    V F kVN := fun l =>
  mulAdd (rg.n2 k) (sum l) (mulAdd (-rg.d1 k) (ring (slot kLanes k n_1 j + l))
    (-ring (slot kLanes k n_2 j + l)))

/-- The stores of `y1`, `y3`, `y5`. -/
def storeBlock (kLanes n_0 j : Nat) (y : Fin 3 → V F kVN) (ring : Nat → F) : Nat → F :=
  storeRing (slot kLanes 2 n_0 j) (y 2) (storeRing (slot kLanes 1 n_0 j) (y 1)
    (storeRing (slot kLanes 0 n_0 j) (y 0) ring))

/-- The body of the loop of `VerticalBlock`. -/
def blockStep (rg : RgConst F) (kLanes n_0 n_1 n_2 : Nat) (input : Nat → Option (V F kVN))
    (output : V F kVN → Nat → σ → Option σ) (idxVec : Nat) (s : σ × (Nat → F)) :
    Option (σ × (Nat → F)) := do
  let j := idxVec * kVN
  let sum ← input j
  let y := block rg kLanes n_1 n_2 j sum s.2
  let out ← output (fun l => y 0 l + (y 1 l + y 2 l)) j s.1
  some (out, storeBlock kLanes n_0 j y s.2)

/-- `VerticalBlock<kVectors>`. -/
def verticalBlock (kVectors kVN : Nat) (rg : RgConst F) (input : Nat → Option (V F kVN))
    (output : V F kVN → Nat → σ → Option σ) (s : Ring F σ) : Option (Ring F σ) := do
  let kLanes := kVectors * kVN
  let ctr := wrap64 (s.ctr + 1)
  let n_0 := ctr % kMod
  let n_1 := wrap64 (ctr - 1) % kMod
  let n_2 := wrap64 (ctr - 2) % kMod
  let (out, ring) ← (List.range kVectors).foldlM
    (fun s idxVec => blockStep rg kLanes n_0 n_1 n_2 input output idxVec s) (s.out, s.ring)
  some ⟨out, ring, ctr⟩

/-- `SingleInput(bottom < ysize ? ConstRow(bottom) + x : zero)`. -/
def singleInput (rd : Int → Int → Option F) (ysize bottom x : Int) (offset : Nat) :
    Option (V F kVN) :=
  if bottom < ysize then load (rd bottom) kVN (x + offset) else some fun _ => 0

/-- `TwoInputs(ConstRow(top) + x, ConstRow(bottom) + x)`. -/
def twoInputs (rd : Int → Int → Option F) (top bottom x : Int) (offset : Nat) :
    Option (V F kVN) := do
  let in1 ← load (rd top) kVN (x + offset)
  let in2 ← load (rd bottom) kVN (x + offset)
  some fun l => in1 l + in2 l

/-- `TwoInputs(ConstRow(top) + x, bottom < ysize ? ConstRow(bottom) + x : zero)`. -/
def borderInputs (rd : Int → Int → Option F) (ysize top bottom x : Int) (offset : Nat) :
    Option (V F kVN) := do
  let in1 ← load (rd top) kVN (x + offset)
  let in2 ← (if bottom < ysize then load (rd bottom) kVN (x + offset) else some fun _ => 0)
  some fun l => in1 l + in2 l

/-- `OutputStore` at `Row(n) + x`. -/
def outputStore (wr : Int → Int → F → σ → Option σ) (n x : Int) (v : V F kVN) (offset : Nat)
    (out : σ) : Option σ := store (wr n) (x + offset) v out

/-- `OutputNone`. -/
def outputNone (_ : V F kVN) (_ : Nat) (out : σ) : Option σ := some out

/-- `VerticalStrip<kVectors>` at column `x`. -/
def verticalStrip (kVectors kVN : Nat) (rg : RgConst F) (rd : Int → Int → Option F)
    (wr : Int → Int → F → σ → Option σ) (ysize : Nat) (x : Int) (out : σ) : Option σ := do
  let N := rg.radius
  let (n, s) ← loopBelow 0 1 (fun n s => verticalBlock kVectors kVN rg
    (singleInput rd ysize (n + N - 1) x) outputNone s) (-(N : Int) + 1) ⟨out, fun _ => 0, 0⟩
  let (n, s) ← loopBelow (min (N + 1) ysize : Nat) 1 (fun n s => verticalBlock kVectors kVN rg
    (singleInput rd ysize (n + N - 1) x) (outputStore wr n x) s) n s
  let (n, s) ← loopBelow (interiorEnd N ysize) 1 (fun n s => verticalBlock kVectors kVN rg
    (twoInputs rd (n - N - 1) (n + N - 1) x) (outputStore wr n x) s) n s
  let (_, s) ← loopBelow ysize 1 (fun n s => verticalBlock kVectors kVN rg
    (borderInputs rd ysize (n - N - 1) (n + N - 1) x) (outputStore wr n x) s) n s
  some s.out

/-- `kCacheLineVectors`. -/
def kCacheLineVectors (kVN : Nat) : Nat := if kVN < 64 / 4 then 64 / 4 / kVN else 4

end Full

/-! ## 3. The ring buffer -/

variable [FmaOps F] {kVN : Nat} {σ : Type}

namespace Full

section Slots

variable {L k k' n n' j j' : Nat}

theorem slot_add (l : Nat) : slot L k n j + l = slot L k n (j + l) := Nat.add_assoc _ _ _

/-- Sections, slots and lanes do not overlap. -/
theorem slot_inj (hn : n < kMod) (hn' : n' < kMod) (hj : j < L) (hj' : j' < L) :
    slot L k n j = slot L k' n' j' ↔ (k = k' ∧ n = n') ∧ j = j' := by
  have hrow (k n j : Nat) : slot L k n j = (k * kMod + n) * L + j := by
    unfold slot
    ring
  refine ⟨fun h => ?_, fun ⟨⟨hk, hn⟩, hj⟩ => by rw [hk, hn, hj]⟩
  rw [hrow, hrow] at h
  have hdiv := congrArg (· / L) h
  have hmod := congrArg (· % L) h
  simp only [inPlane_div hj, inPlane_div hj', inPlane_mod hj, inPlane_mod hj'] at hdiv hmod
  unfold kMod at *
  omega

omit [FmaOps F] in
/-- A store of a vector, slot by slot. -/
theorem storeRing_slot (k k' : Nat) {v : V F kVN} {f : Nat → F} (hv : ∀ l : Fin kVN, v l = f (j + l))
    (ring : Nat → F) (hn : n < kMod) (hn' : n' < kMod) (hj : j + kVN ≤ L) (hj' : j' < L) :
    storeRing (slot L k n j) v ring (slot L k' n' j') =
      if (k = k' ∧ n = n') ∧ j ≤ j' ∧ j' < j + kVN then f j' else ring (slot L k' n' j') := by
  unfold storeRing
  by_cases h : slot L k n j ≤ slot L k' n' j' ∧ slot L k' n' j' < slot L k n j + kVN
  · have e : slot L k n (j + (slot L k' n' j' - slot L k n j)) = slot L k' n' j' := by
      rw [← slot_add]
      omega
    obtain ⟨hkn, ej⟩ := (slot_inj hn hn' (by omega) hj').mp e
    rw [dif_pos h, if_pos ⟨hkn, by omega⟩, hv]
    exact congrArg f ej
  · rw [dif_neg h, if_neg]
    rintro ⟨⟨rfl, rfl⟩, h1, h2⟩
    have e : slot L k n j' = slot L k n j + (j' - j) := by
      rw [slot_add]
      exact congrArg _ (by omega)
    omega

end Slots

section Block

variable (rg : RgConst F) {kVectors L n_0 n_1 n_2 : Nat}

/-- The new value of section `k` in lane `j`, from the input `u` of the lanes. -/
def laneValue (rg : RgConst F) (L n_1 n_2 : Nat) (u : Nat → F) (ring : Nat → F) (j : Nat)
    (k : Fin 3) : F :=
  mulAdd (rg.n2 k) (u j) (mulAdd (-rg.d1 k) (ring (slot L k n_1 j)) (-ring (slot L k n_2 j)))

/-- **The loop over the vectors of a block**: each lane reads the two older slots of its own and
    stores the newest one; the lanes of the vectors to come are as they were. -/
theorem blockSteps (ring : Nat → F) (hL : L = kVectors * kVN) (h0 : n_0 < kMod) (h1 : n_1 < kMod)
    (h2 : n_2 < kMod) {input : Nat → Option (V F kVN)} {output : V F kVN → Nat → σ → Option σ}
    {u : Nat → F} {Q : Nat → σ → Prop}
    (hin : ∀ i < kVectors, input (i * kVN) = some fun l => u (i * kVN + l.val))
    (hout : ∀ i < kVectors, ∀ out, Q i out → ∃ out', output (fun l =>
      combine (laneValue rg L n_1 n_2 u ring (i * kVN + l.val))) (i * kVN) out = some out' ∧
      Q (i + 1) out') {out : σ} (hQ : Q 0 out) (m : Nat) (hm : m ≤ kVectors) :
    ∃ out' ring', (List.range m).foldlM
        (fun s idxVec => blockStep rg L n_0 n_1 n_2 input output idxVec s) (out, ring) =
          some (out', ring') ∧ Q m out' ∧
      ∀ (k : Fin 3) (n j : Nat), n < kMod → j < L → ring' (slot L k n j) =
        if n = n_0 ∧ j < m * kVN then laneValue rg L n_1 n_2 u ring j k
        else ring (slot L k n j) := by
  induction m with
  | zero =>
    refine ⟨out, ring, rfl, hQ, fun k n j _ _ => ?_⟩
    rw [if_neg (by omega)]
  | succ m ih =>
    obtain ⟨out1, ring1, e, hQ1, hring⟩ := ih (by omega)
    have hmL : m * kVN + kVN ≤ L := by
      rw [hL, ← Nat.succ_mul]
      exact Nat.mul_le_mul_right _ hm
    have hvalue (k : Fin 3) (l : Fin kVN) :
        block rg L n_1 n_2 (m * kVN) (fun l => u (m * kVN + l.val)) ring1 k l =
          laneValue rg L n_1 n_2 u ring (m * kVN + l.val) k := by
      have hl := l.isLt
      unfold block laneValue
      rw [slot_add, slot_add, hring k n_1 _ h1 (by omega), hring k n_2 _ h2 (by omega),
        if_neg (by omega), if_neg (by omega)]
    obtain ⟨out2, e2, hQ2⟩ := hout m hm out1 hQ1
    have hstep : blockStep rg L n_0 n_1 n_2 input output m (out1, ring1) = some (out2,
        storeBlock L n_0 (m * kVN)
          (block rg L n_1 n_2 (m * kVN) (fun l : Fin kVN => u (m * kVN + l.val)) ring1) ring1) := by
      have hsum : (fun l : Fin kVN =>
          block rg L n_1 n_2 (m * kVN) (fun l => u (m * kVN + l.val)) ring1 0 l +
            (block rg L n_1 n_2 (m * kVN) (fun l => u (m * kVN + l.val)) ring1 1 l +
              block rg L n_1 n_2 (m * kVN) (fun l => u (m * kVN + l.val)) ring1 2 l)) =
          fun l => combine (laneValue rg L n_1 n_2 u ring (m * kVN + l.val)) :=
        funext fun l => by rw [hvalue, hvalue, hvalue]; rfl
      unfold blockStep
      simp only [hin m hm, Option.bind_eq_bind, Option.bind_some, hsum, e2]
    have hrun : (List.range (m + 1)).foldlM
        (fun s idxVec => blockStep rg L n_0 n_1 n_2 input output idxVec s) (out, ring) =
          blockStep rg L n_0 n_1 n_2 input output m (out1, ring1) := by
      rw [List.range_succ, List.foldlM_append, e, Option.bind_eq_bind, Option.bind_some,
        List.foldlM_cons]
      exact Option.bind_fun_some _
    refine ⟨out2, _, hrun.trans hstep, hQ2, fun k n j hn hj => ?_⟩
    have hsucc : (m + 1) * kVN = m * kVN + kVN := Nat.succ_mul _ _
    have hkk : k = 0 ∨ k = 1 ∨ k = 2 := by omega
    unfold storeBlock
    rw [storeRing_slot 2 k (f := fun j => laneValue rg L n_1 n_2 u ring j 2) (hvalue 2) _ h0 hn hmL hj,
      storeRing_slot 1 k (f := fun j => laneValue rg L n_1 n_2 u ring j 1) (hvalue 1) _ h0 hn hmL hj,
      storeRing_slot 0 k (f := fun j => laneValue rg L n_1 n_2 u ring j 0) (hvalue 0) _ h0 hn hmL hj,
      hring k n j hn hj, hsucc]
    by_cases hnj : n = n_0 ∧ j < m * kVN + kVN
    · by_cases hjm : m * kVN ≤ j
      · rcases hkk with rfl | rfl | rfl <;> simp [hnj, hjm]
      · simp [hnj, hjm, Nat.lt_of_not_le hjm]
    · rw [if_neg hnj, if_neg (by omega), if_neg (by omega), if_neg (by omega), if_neg (by omega)]

/-- **The ring buffer of a lane** of the block is the ring buffer of a strip of one column. -/
structure InLane (L j : Nat) {τ : Type} (s : Ring F σ) (t : Ring F τ) : Prop where
  ctr : s.ctr = t.ctr
  ring : ∀ (k : Fin 3) (n : Nat), n < kMod → s.ring (slot L k n j) = t.ring (k.val * kMod + n)

/-- The value a block stores in lane `j`. -/
def blockValue (rg : RgConst F) (L : Nat) (u : Nat → F) (s : Ring F σ) (j : Nat) : F :=
  combine (laneValue rg L (wrap64 (wrap64 (s.ctr + 1) - 1) % kMod)
    (wrap64 (wrap64 (s.ctr + 1) - 2) % kMod) u s.ring j)

/-- The new value of section `k` in a strip of one column. -/
def columnValue {τ : Type} (rg : RgConst F) (sum : F) (t : Ring F τ) (k : Fin 3) : F :=
  mulAdd (rg.n2 k) sum
    (mulAdd (-rg.d1 k) (t.ring (k.val * kMod + wrap64 (wrap64 (t.ctr + 1) - 1) % kMod))
      (-t.ring (k.val * kMod + wrap64 (wrap64 (t.ctr + 1) - 2) % kMod)))

/-- A block of a strip of one column. -/
theorem verticalBlock_some {τ : Type} {sum : F} {emit : F → τ → Option τ} {t : Ring F τ} {out' : τ}
    (h : emit (combine (columnValue rg sum t)) t.out = some out') :
    ∃ t', Reference.verticalBlock rg sum emit t = some t' ∧ t'.out = out' ∧
      t'.ctr = wrap64 (t.ctr + 1) ∧ ∀ (k : Fin 3) (n : Nat), n < kMod →
        t'.ring (k.val * kMod + n) = if n = wrap64 (t.ctr + 1) % kMod then columnValue rg sum t k
          else t.ring (k.val * kMod + n) := by
  refine ⟨⟨out', Function.update (Function.update (Function.update t.ring
    (0 * kMod + wrap64 (t.ctr + 1) % kMod) (columnValue rg sum t 0))
    (1 * kMod + wrap64 (t.ctr + 1) % kMod) (columnValue rg sum t 1))
    (2 * kMod + wrap64 (t.ctr + 1) % kMod) (columnValue rg sum t 2), wrap64 (t.ctr + 1)⟩, ?_, rfl, rfl,
    fun k n hn => ring_stores t.ring _ (Nat.mod_lt _ (by decide)) hn k⟩
  unfold Reference.verticalBlock
  exact (congrArg (Option.bind · _) h).trans (Option.bind_some _ _)

/-- **A block is a block of every lane**, over what the vectors store. -/
theorem verticalBlock_lanes {τ : Type} (output : V F kVN → Nat → σ → Option σ)
    (hL : L = kVectors * kVN) {input : Nat → Option (V F kVN)} {u : Nat → F}
    (hin : ∀ i < kVectors, input (i * kVN) = some fun l => u (i * kVN + l.val)) {s : Ring F σ}
    {Q : Nat → σ → Prop} (hQ : Q 0 s.out)
    (hout : ∀ i < kVectors, ∀ out, Q i out → ∃ out', output (fun l =>
      blockValue rg L u s (i * kVN + l.val)) (i * kVN) out = some out' ∧ Q (i + 1) out') :
    ∃ s', verticalBlock kVectors kVN rg input output s = some s' ∧ Q kVectors s'.out ∧
      ∀ j < L, ∀ t : Ring F τ, InLane L j s t → ∀ (emit : F → τ → Option τ) (out' : τ),
        emit (blockValue rg L u s j) t.out = some out' →
        ∃ t', Reference.verticalBlock rg (u j) emit t = some t' ∧ t'.out = out' ∧
          InLane L j s' t' := by
  have hmod (n : Nat) : n % kMod < kMod := Nat.mod_lt _ (by decide)
  obtain ⟨out1, ring1, e, hQ1, hring⟩ := blockSteps rg s.ring hL (hmod (wrap64 (s.ctr + 1)))
    (hmod (wrap64 (wrap64 (s.ctr + 1) - 1))) (hmod (wrap64 (wrap64 (s.ctr + 1) - 2))) hin hout
    hQ kVectors le_rfl
  refine ⟨⟨out1, ring1, wrap64 (s.ctr + 1)⟩, ?_, hQ1, fun j hj t ht emit out' hemit => ?_⟩
  · unfold verticalBlock
    simp only [← hL, e, Option.bind_eq_bind, Option.bind_some]
  · have hy (k : Fin 3) : laneValue rg L (wrap64 (wrap64 (s.ctr + 1) - 1) % kMod)
        (wrap64 (wrap64 (s.ctr + 1) - 2) % kMod) u s.ring j k = columnValue rg (u j) t k := by
      unfold laneValue columnValue
      rw [ht.ring k _ (hmod _), ht.ring k _ (hmod _), ht.ctr]
    have hvalue : blockValue rg L u s j = combine (columnValue rg (u j) t) :=
      congrArg combine (funext hy)
    obtain ⟨t', e', hout', hctr, hring'⟩ := verticalBlock_some rg (hvalue ▸ hemit)
    refine ⟨t', e', hout', (congrArg (fun c : Nat => wrap64 (c + 1)) ht.ctr).trans hctr.symm,
      fun k n hn => ?_⟩
    show ring1 (slot L k n j) = _
    rw [hring k n j hn hj, hring' k n hn, ← ht.ctr, ← hL]
    by_cases h : n = wrap64 (s.ctr + 1) % kMod
    · rw [if_pos ⟨h, hj⟩, if_pos h, hy]
    · rw [if_neg fun e => h e.1, if_neg h, ht.ring k n hn]

end Block

/-! ## 4. A strip -/

omit [FmaOps F] in
theorem load_some {rd : Int → Option F} {i : Int} {f : Nat → F}
    (h : ∀ l < kVN, rd (i + l) = some (f l)) : load rd kVN i = some fun l => f l.val := by
  have hsome (l : Fin kVN) : (rd (i + l.val)).isSome := by rw [h l.val l.isLt]; rfl
  unfold load
  rw [dif_pos hsome]
  exact congrArg some (funext fun l => Option.get_of_eq_some _ (h l.val l.isLt))

end Full

namespace Plane

variable {kVN : Nat} {p : Plane F kVN} {y x : Nat}

omit [FmaOps F] in
theorem cell_lt (p : Plane F kVN) (hy : y < p.ysize) (hx : x < p.stride) :
    y * p.stride + x < p.cells.length := by
  have h := inPlane_lt (Nat.lt_of_lt_of_le hy p.height) hx
  rw [p.room]
  exact h

/-- A sample of the image or its padding. -/
theorem rd_some (p : Plane F kVN) (hy : y < p.ysize) (hx : x < p.stride) :
    p.rd y x = some (p.sample y x) := by
  have hcell := p.cell_lt hy hx
  have e : ((y : Int) * p.stride + x) = (y * p.stride + x : Nat) := by push_cast; rfl
  unfold rd sample
  rw [if_pos (by omega), e, readAt_eq (by omega) (by omega), Int.toNat_natCast]

omit [FmaOps F] in
theorem wr_eq (p : Plane F kVN) (hy : y < p.ysize) (hx : x < p.stride) (v : F) (cells : List F) :
    p.wr y x v cells = writeAt (y * p.stride + x : Nat) v cells := by
  have e : ((y : Int) * p.stride + x) = (y * p.stride + x : Nat) := by push_cast; rfl
  unfold wr
  rw [if_pos (by omega), e]

end Plane

namespace Full

omit [FmaOps F] in
/-- A store of a vector in a row. -/
theorem fills_store (p : Plane F kVN) {y x i : Nat} (hy : y < p.ysize) (hx : x + i + kVN ≤ p.stride)
    (f : Nat → F) : Fills p.cells.length (fun c => f (c - (y * p.stride + x)))
      (store (p.wr y) (x + i : Nat) fun l : Fin kVN => f (i + l.val))
      {c | ∃ l < kVN, c = y * p.stride + (x + (i + l))} := by
  refine (fills_foldlM (fun (l : Fin kVN) out => p.wr y ((x + i : Nat) + l.val) (f (i + l.val)) out)
    (fun l => {y * p.stride + (x + (i + l.val))}) (List.finRange kVN) fun l _ => ?_).congr
    (fun _ _ => rfl) fun c => ?_
  · have hl := l.isLt
    have hcol : x + (i + l.val) < p.stride := by omega
    have e : ((x + i : Nat) : Int) + l.val = (x + (i + l.val) : Nat) := by push_cast; ring
    have hval : f (y * p.stride + (x + (i + l.val)) - (y * p.stride + x)) = f (i + l.val) :=
      congrArg f (by omega)
    refine (fills_writeAt (p.cell_lt hy hcol) hval).congr (fun cells _ => ?_) fun _ => Iff.rfl
    rw [e, p.wr_eq hy hcol]
  · constructor
    · rintro ⟨l, hl, rfl⟩
      exact ⟨⟨l, hl⟩, List.mem_finRange _, rfl⟩
    · rintro ⟨l, -, rfl⟩
      exact ⟨l.val, l.isLt, rfl⟩

/-- A row of the strip, with the first `m` lanes stored. -/
structure RowStored (p : Plane F kVN) (y x : Nat) (before : List F) (f : Nat → F) (m : Nat)
    (cells : List F) : Prop where
  length : cells.length = p.cells.length
  stored : ∀ j < m, cells[y * p.stride + (x + j)]? = some (f j)
  others : ∀ c, (∀ j < m, c ≠ y * p.stride + (x + j)) → cells[c]? = before[c]?

omit [FmaOps F] in
/-- The next vector of the row. -/
theorem RowStored.next {p : Plane F kVN} {y x i : Nat} {before cells : List F} {f : Nat → F}
    (h : RowStored p y x before f (i * kVN) cells) (hy : y < p.ysize)
    (hx : x + i * kVN + kVN ≤ p.stride) :
    ∃ cells', outputStore p.wr y x (fun l : Fin kVN => f (i * kVN + l.val)) (i * kVN) cells =
      some cells' ∧ RowStored p y x before f ((i + 1) * kVN) cells' := by
  have hsucc : (i + 1) * kVN = i * kVN + kVN := Nat.succ_mul _ _
  obtain ⟨cells', e, hlen, hin, hout⟩ := fills_store p hy hx f cells h.length
  refine ⟨cells', e, hlen, fun j hj => ?_, fun c hc => ?_⟩
  · by_cases hji : j < i * kVN
    · refine (hout _ ?_).trans (h.stored j hji)
      rintro ⟨l, -, e⟩
      omega
    · have hcell := hin (y * p.stride + (x + j)) ⟨j - i * kVN, by omega, by omega⟩
        (p.cell_lt hy (by omega))
      exact hcell.trans (congrArg (fun j => some (f j)) (by omega))
  · refine (hout c ?_).trans (h.others c fun j hj => hc j (by omega))
    rintro ⟨l, hl, e⟩
    exact hc (i * kVN + l) (by omega) e

/-- **A strip in step with its lane `j`**: the rows below `n` are stored, the cells outside of them
    are as they were. -/
structure OnStrip (p : Plane F kVN) (x L j : Nat) (before : List F) (n : Int) (s : Ring F (List F))
    (t : Ring F (Nat → F)) : Prop where
  lane : InLane L j s t
  length : s.out.length = p.cells.length
  stored : ∀ i : Nat, i < n → s.out[i * p.stride + (x + j)]? = some (t.out i)
  others : ∀ c, (∀ i : Nat, i < n → ∀ l < L, c ≠ i * p.stride + (x + l)) → s.out[c]? = before[c]?

section Strip

variable (rg : RgConst F) {kVectors L : Nat} (hL : L = kVectors * kVN) {p : Plane F kVN} {x j : Nat}
  (hx : x + L ≤ p.stride) (hj : j < L) {before : List F} {n : Int} {s : Ring F (List F)}
  {t : Ring F (Nat → F)} {input : Nat → Option (V F kVN)} {u : Nat → F}
  (hin : ∀ i < kVectors, input (i * kVN) = some fun l => u (i * kVN + l.val))

include hL hj hin

/-- A block that stores nothing. -/
theorem OnStrip.skip (h : OnStrip p x L j before n s t) (hn : n < 0) :
    ∃ s' t', verticalBlock kVectors kVN rg input outputNone s = some s' ∧
      Reference.verticalBlock rg (u j) (fun _ out => some out) t = some t' ∧
      OnStrip p x L j before (n + 1) s' t' := by
  obtain ⟨s', es, hs', hlane⟩ := verticalBlock_lanes (τ := Nat → F) rg outputNone hL hin
    (s := s) (Q := fun _ out => out = s.out) rfl fun _ _ out hout => ⟨out, rfl, hout⟩
  obtain ⟨t', et, ht', hl'⟩ := hlane j hj t h.lane (fun _ out => some out) t.out rfl
  refine ⟨s', t', es, et, hl', ?_, fun i hi => ?_, fun c hc => ?_⟩
  · rw [hs', h.length]
  · rw [hs', ht']
    exact h.stored i (by omega)
  · rw [hs']
    exact h.others c fun i hi => hc i (by omega)

include hx

/-- A block that stores a row. -/
theorem OnStrip.next (h : OnStrip p x L j before n s t) (h0 : 0 ≤ n) (hn : n < p.ysize) :
    ∃ s' t', verticalBlock kVectors kVN rg input (outputStore p.wr n x) s = some s' ∧
      Reference.verticalBlock rg (u j) (putAt n) t = some t' ∧
      OnStrip p x L j before (n + 1) s' t' := by
  obtain ⟨y, rfl⟩ := Int.eq_ofNat_of_zero_le h0
  have hy : y < p.ysize := by omega
  have hvec (i : Nat) (hi : i < kVectors) : x + i * kVN + kVN ≤ p.stride := by
    have := Nat.mul_le_mul_right kVN (Nat.succ_le_of_lt hi)
    rw [Nat.succ_mul] at this
    omega
  obtain ⟨s', es, hs', hlane⟩ := verticalBlock_lanes (τ := Nat → F) rg
    (outputStore p.wr y x) hL hin (s := s)
    (Q := fun i => RowStored p y x s.out (blockValue rg L u s) (i * kVN))
    ⟨h.length, fun l hl => absurd hl (by omega), fun _ _ => rfl⟩
    fun i hi out hout => hout.next hy (hvec i hi)
  rw [← hL] at hs'
  obtain ⟨t', et, ht', hl'⟩ := hlane j hj t h.lane (putAt y) _ rfl
  refine ⟨s', t', es, et, hl', hs'.length, fun i hi => ?_, fun c hc => ?_⟩
  · rw [ht', Int.toNat_natCast]
    by_cases hiy : i = y
    · rw [hiy, Function.update_self]
      exact hs'.stored j hj
    · rw [Function.update_of_ne hiy]
      refine (hs'.others _ fun l hl e => ?_).trans (h.stored i (by omega))
      -- rows do not overlap
      have hrow := congrArg (· / p.stride) e
      simp only [inPlane_div (show x + j < p.stride by omega),
        inPlane_div (show x + l < p.stride by omega)] at hrow
      exact hiy hrow
  · exact (hs'.others c fun l hl => hc y (by omega) l hl).trans
      (h.others c fun i hi => hc i (by omega))

end Strip

section Inputs

variable {inp : Plane F kVN} {x L : Nat} (hx : x + L ≤ inp.stride) {kVectors : Nat}
  (hL : L = kVectors * kVN) {b : Int}

/-- Row `b` of the plane, from column `x` on. -/
def rowFrom (inp : Plane F kVN) (b : Int) (x j : Nat) : F := inp.sample b.toNat (x + j)

/-- Row `b`, or zeros below the image. -/
def rowOrZero (inp : Plane F kVN) (b : Int) (x j : Nat) : F :=
  if b < inp.ysize then rowFrom inp b x j else 0

/-- A column of the plane. -/
def column (inp : Plane F kVN) (c i : Nat) : F := inp.sample i c

theorem lineAt_column {j : Nat} (h0 : 0 ≤ b) (hb : b < inp.ysize) :
    lineAt inp.ysize (column inp (x + j)) b = some (rowFrom inp b x j) := if_pos ⟨h0, hb⟩

theorem singleInput_column {j : Nat} (h0 : 0 ≤ b) :
    Reference.singleInput (lineAt inp.ysize (column inp (x + j))) inp.ysize b =
      some (rowOrZero inp b x j) := by
  unfold Reference.singleInput rowOrZero
  by_cases hb : b < inp.ysize
  · rw [if_pos hb, if_pos hb, lineAt_column h0 hb]
  · rw [if_neg hb, if_neg hb]

include hx hL

/-- The vectors of a row. -/
theorem load_row (h0 : 0 ≤ b) (hb : b < inp.ysize) {i : Nat} (hi : i < kVectors) :
    load (inp.rd b) kVN ((x : Int) + (i * kVN : Nat)) =
      some fun l => rowFrom inp b x (i * kVN + l.val) := by
  have hvec := Nat.mul_le_mul_right kVN (Nat.succ_le_of_lt hi)
  rw [Nat.succ_mul] at hvec
  obtain ⟨y, rfl⟩ := Int.eq_ofNat_of_zero_le h0
  refine load_some (f := fun l => rowFrom inp y x (i * kVN + l)) fun l hl => ?_
  have e : (x : Int) + (i * kVN : Nat) + l = (x + (i * kVN + l) : Nat) := by push_cast; ring
  rw [e]
  exact inp.rd_some (by omega) (by omega)

theorem singleInput_row (h0 : 0 ≤ b) (i : Nat) (hi : i < kVectors) :
    singleInput inp.rd inp.ysize b x (i * kVN) =
      some fun l : Fin kVN => rowOrZero inp b x (i * kVN + l.val) := by
  unfold singleInput rowOrZero
  by_cases hb : b < inp.ysize
  · simp only [if_pos hb]
    exact load_row hx hL h0 hb hi
  · simp only [if_neg hb]

theorem twoInputs_rows {a : Int} (ha0 : 0 ≤ a) (ha : a < inp.ysize) (h0 : 0 ≤ b)
    (hb : b < inp.ysize) (i : Nat) (hi : i < kVectors) : twoInputs inp.rd a b x (i * kVN) =
      some fun l : Fin kVN => rowFrom inp a x (i * kVN + l.val) + rowFrom inp b x (i * kVN + l.val) := by
  unfold twoInputs
  rw [load_row hx hL ha0 ha hi, load_row hx hL h0 hb hi]
  rfl

theorem borderInputs_rows {a : Int} (ha0 : 0 ≤ a) (ha : a < inp.ysize) (h0 : 0 ≤ b) (i : Nat)
    (hi : i < kVectors) : borderInputs inp.rd inp.ysize a b x (i * kVN) =
      some fun l : Fin kVN => rowFrom inp a x (i * kVN + l.val) +
        rowOrZero inp b x (i * kVN + l.val) := by
  unfold borderInputs rowOrZero
  rw [load_row hx hL ha0 ha hi]
  by_cases hb : b < inp.ysize
  · simp only [if_pos hb, load_row hx hL h0 hb hi, Option.bind_eq_bind, Option.bind_some]
  · simp only [if_neg hb, Option.bind_eq_bind, Option.bind_some]

end Inputs

section Steps

variable (rg : RgConst F) {kVectors L : Nat} (hL : L = kVectors * kVN) {inp p : Plane F kVN}
  {x j : Nat} (hxi : x + L ≤ inp.stride) (hj : j < L) {before : List F} {n : Int}
  {s : Ring F (List F)} {t : Ring F (Nat → F)} (h : OnStrip p x L j before n s t)

include hL hxi hj h

/-- A row above the image. -/
theorem warmup_lane (hlo : 0 ≤ n + rg.radius - 1) (hn : n < 0) :
    ∃ s' t', verticalBlock kVectors kVN rg (singleInput inp.rd inp.ysize (n + rg.radius - 1) x)
        outputNone s = some s' ∧
      warmupStep (lineAt inp.ysize (column inp (x + j))) rg inp.ysize n t = some t' ∧
      OnStrip p x L j before (n + 1) s' t' := by
  obtain ⟨s', t', es, et, h'⟩ := h.skip rg hL hj
    (singleInput_row hxi hL (b := n + rg.radius - 1) hlo) hn
  refine ⟨s', t', es, ?_, h'⟩
  unfold warmupStep
  rw [singleInput_column hlo]
  exact et

variable (hh : inp.ysize = p.ysize) (hx : x + L ≤ p.stride) (h0 : 0 ≤ n) (hn : n < inp.ysize)

include hh hx h0 hn

/-- A row whose top neighbour is outside. -/
theorem top_lane (hN : 1 ≤ rg.radius) :
    ∃ s' t', verticalBlock kVectors kVN rg (singleInput inp.rd inp.ysize (n + rg.radius - 1) x)
        (outputStore p.wr n x) s = some s' ∧
      topStep (lineAt inp.ysize (column inp (x + j))) putAt rg inp.ysize n t = some t' ∧
      OnStrip p x L j before (n + 1) s' t' := by
  obtain ⟨s', t', es, et, h'⟩ := h.next rg hL hx hj
    (singleInput_row hxi hL (b := n + rg.radius - 1) (by omega)) h0 (by omega)
  refine ⟨s', t', es, ?_, h'⟩
  unfold topStep
  rw [singleInput_column (by omega)]
  exact et

/-- A row with both neighbours. -/
theorem interior_lane (hN : 1 ≤ rg.radius) (htop : (rg.radius : Int) + 1 ≤ n)
    (hbottom : n + rg.radius - 1 < inp.ysize) :
    ∃ s' t', verticalBlock kVectors kVN rg
        (twoInputs inp.rd (n - rg.radius - 1) (n + rg.radius - 1) x)
        (outputStore p.wr n x) s = some s' ∧
      interiorStep (lineAt inp.ysize (column inp (x + j))) putAt rg n t = some t' ∧
      OnStrip p x L j before (n + 1) s' t' := by
  obtain ⟨s', t', es, et, h'⟩ := h.next rg hL hx hj
    (u := fun j => rowFrom inp (n - rg.radius - 1) x j + rowFrom inp (n + rg.radius - 1) x j)
    (twoInputs_rows hxi hL (a := n - rg.radius - 1) (b := n + rg.radius - 1) (by omega) (by omega)
      (by omega) hbottom) h0 (by omega)
  refine ⟨s', t', es, ?_, h'⟩
  unfold interiorStep
  rw [lineAt_column (by omega) (by omega), lineAt_column (by omega) hbottom]
  exact et

/-- A row whose bottom neighbour may be outside. -/
theorem bottom_lane (hN : 1 ≤ rg.radius) (htop : (rg.radius : Int) + 1 ≤ n) :
    ∃ s' t', verticalBlock kVectors kVN rg
        (borderInputs inp.rd inp.ysize (n - rg.radius - 1) (n + rg.radius - 1) x)
        (outputStore p.wr n x) s = some s' ∧
      bottomStep (lineAt inp.ysize (column inp (x + j))) putAt rg inp.ysize n t = some t' ∧
      OnStrip p x L j before (n + 1) s' t' := by
  obtain ⟨s', t', es, et, h'⟩ := h.next rg hL hx hj
    (u := fun j => rowFrom inp (n - rg.radius - 1) x j + rowOrZero inp (n + rg.radius - 1) x j)
    (borderInputs_rows hxi hL (a := n - rg.radius - 1) (b := n + rg.radius - 1) (by omega)
      (by omega) (by omega)) h0 (by omega)
  refine ⟨s', t', es, ?_, h'⟩
  have hzero : (if n + (rg.radius : Int) - 1 < inp.ysize then
        lineAt inp.ysize (column inp (x + j)) (n + rg.radius - 1) else some 0) =
      some (rowOrZero inp (n + rg.radius - 1) x j) := singleInput_column (by omega)
  unfold bottomStep
  rw [lineAt_column (by omega) (by omega), hzero]
  exact et

end Steps

/-- **A strip stores the vertical scan of each of its columns.** -/
theorem verticalStrip_lane (rg : RgConst F) (hN : 1 ≤ rg.radius) {kVectors L : Nat}
    (hL : L = kVectors * kVN) {inp p : Plane F kVN} (hh : inp.ysize = p.ysize) {x j : Nat}
    (hxi : x + L ≤ inp.stride) (hx : x + L ≤ p.stride) (hj : j < L) {before : List F}
    (hb : before.length = p.cells.length) :
    ∃ cells', verticalStrip kVectors kVN rg inp.rd p.wr inp.ysize x before = some cells' ∧
      cells'.length = p.cells.length ∧
      (∀ y < inp.ysize, cells'[y * p.stride + (x + j)]? =
        some (columnOut rg inp.ysize (column inp (x + j)) y)) ∧
      ∀ c, (∀ y < inp.ysize, ∀ l < L, c ≠ y * p.stride + (x + l)) → cells'[c]? = before[c]? := by
  let rd := lineAt inp.ysize (column inp (x + j))
  have hstart : OnStrip p x L j before (-(rg.radius : Int) + 1) ⟨before, fun _ => 0, 0⟩
      ⟨fun _ => 0, fun _ => 0, 0⟩ :=
    ⟨⟨rfl, fun _ _ _ => rfl⟩, hb, fun i hi => absurd hi (by omega), fun _ _ => rfl⟩
  -- warm-up
  obtain ⟨n1, s1, t1, e1, f1, ⟨hlo1, hhi1, h1⟩, hx1⟩ := loopBelow_rel (u := 0) (d := 1) le_rfl
    (R := fun n s t => -(rg.radius : Int) + 1 ≤ n ∧ n ≤ 0 ∧ OnStrip p x L j before n s t)
    (c := warmupStep rd rg inp.ysize)
    (b := fun n s => verticalBlock kVectors kVN rg
      (singleInput inp.rd inp.ysize (n + rg.radius - 1) x) outputNone s)
    (fun n s t hn ⟨hlo, _, h⟩ => by
      obtain ⟨s', t', es, et, h'⟩ := warmup_lane rg hL hxi hj h (by omega) hn
      exact ⟨s', t', es, et, by omega, by omega, h'⟩)
    _ _ _ ⟨le_rfl, by omega, hstart⟩
  -- the rows whose top neighbour is outside
  obtain ⟨n2, s2, t2, e2, f2, ⟨hlo2, hhi2, h2⟩, hx2⟩ := loopBelow_rel
    (u := ((min (rg.radius + 1) inp.ysize : Nat) : Int)) (d := 1) le_rfl
    (R := fun n s t => 0 ≤ n ∧ n ≤ inp.ysize ∧ OnStrip p x L j before n s t)
    (c := topStep rd putAt rg inp.ysize)
    (b := fun n s => verticalBlock kVectors kVN rg
      (singleInput inp.rd inp.ysize (n + rg.radius - 1) x) (outputStore p.wr n x) s)
    (fun n s t hn ⟨hlo, _, h⟩ => by
      obtain ⟨s', t', es, et, h'⟩ := top_lane rg hL hxi hj h hh hx hlo (by omega) hN
      exact ⟨s', t', es, et, by omega, by omega, h'⟩)
    n1 s1 t1 ⟨by omega, by omega, h1⟩
  -- the interior
  have hend := interiorEnd_le rg.radius inp.ysize rg.radius_lt
  obtain ⟨n3, s3, t3, e3, f3, ⟨hlo3, hhi3, h3⟩, -⟩ := loopBelow_rel
    (u := interiorEnd rg.radius inp.ysize) (d := 1) le_rfl
    (R := fun n s t => (0 ≤ n ∧ ((rg.radius : Int) + 1 ≤ n ∨ inp.ysize ≤ n)) ∧ n ≤ inp.ysize ∧
      OnStrip p x L j before n s t)
    (c := interiorStep rd putAt rg)
    (b := fun n s => verticalBlock kVectors kVN rg
      (twoInputs inp.rd (n - rg.radius - 1) (n + rg.radius - 1) x) (outputStore p.wr n x) s)
    (fun n s t hn ⟨hlo, _, h⟩ => by
      obtain ⟨s', t', es, et, h'⟩ := interior_lane rg hL hxi hj h hh hx hlo.1 (by omega) hN
        (by omega) (by omega)
      exact ⟨s', t', es, et, by omega, by omega, h'⟩)
    n2 s2 t2 ⟨by omega, hhi2, h2⟩
  -- the bottom border
  obtain ⟨n4, s4, t4, e4, f4, ⟨hlo4, hhi4, h4⟩, hx4⟩ := loopBelow_rel
    (u := (inp.ysize : Int)) (d := 1) le_rfl
    (R := fun n s t => (0 ≤ n ∧ ((rg.radius : Int) + 1 ≤ n ∨ inp.ysize ≤ n)) ∧ n ≤ inp.ysize ∧
      OnStrip p x L j before n s t)
    (c := bottomStep rd putAt rg inp.ysize)
    (b := fun n s => verticalBlock kVectors kVN rg
      (borderInputs inp.rd inp.ysize (n - rg.radius - 1) (n + rg.radius - 1) x)
      (outputStore p.wr n x) s)
    (fun n s t hn ⟨hlo, _, h⟩ => by
      obtain ⟨s', t', es, et, h'⟩ := bottom_lane rg hL hxi hj h hh hx hlo.1 hn hN (by omega)
      exact ⟨s', t', es, et, by omega, by omega, h'⟩)
    n3 s3 t3 ⟨hlo3, hhi3, h3⟩
  have hn4 : n4 = inp.ysize := by omega
  have hcolumn : columnOut rg inp.ysize (column inp (x + j)) = t4.out := by
    have hrun : Reference.verticalStrip rd putAt rg inp.ysize (fun _ => 0) = some t4.out := by
      unfold Reference.verticalStrip
      simp only [Option.bind_eq_bind, f1, f2, f3, f4, Option.bind_some]
    unfold columnOut
    rw [scanColumn_eq_verticalStrip]
    exact congrArg (·.getD fun _ => 0) hrun
  refine ⟨s4.out, ?_, h4.length, fun y hy => ?_, fun c hc => h4.others c fun y hy => hc y (by omega)⟩
  · unfold verticalStrip
    simp only [Option.bind_eq_bind, e1, e2, e3, e4, Option.bind_some]
  · rw [hcolumn]
    exact h4.stored y (by omega)

/-- **A strip stores the vertical scans of its columns**, and nothing else. -/
theorem verticalStrip_stores (rg : RgConst F) (hN : 1 ≤ rg.radius) {kVectors L : Nat}
    (hL : L = kVectors * kVN) (hpos : 0 < L) {inp p : Plane F kVN} (hh : inp.ysize = p.ysize) {x : Nat}
    (hxi : x + L ≤ inp.stride) (hx : x + L ≤ p.stride) {before : List F}
    (hb : before.length = p.cells.length) :
    ∃ cells', verticalStrip kVectors kVN rg inp.rd p.wr inp.ysize x before = some cells' ∧
      cells'.length = p.cells.length ∧
      (∀ j < L, ∀ y < inp.ysize, cells'[y * p.stride + (x + j)]? =
        some (columnOut rg inp.ysize (column inp (x + j)) y)) ∧
      ∀ c, (∀ y < inp.ysize, ∀ l < L, c ≠ y * p.stride + (x + l)) → cells'[c]? = before[c]? := by
  obtain ⟨cells', e, hlen, -, hothers⟩ := verticalStrip_lane rg hN hL hh hxi hx hpos hb
  refine ⟨cells', e, hlen, fun j hj => ?_, hothers⟩
  obtain ⟨cells'', e', -, hstored, -⟩ := verticalStrip_lane rg hN hL hh hxi hx hj hb
  rw [e] at e'
  cases e'
  exact hstored

/-- The columns before `n` are stored. -/
structure ColumnsDone (rg : RgConst F) (inp p : Plane F kVN) (n : Int) (cells : List F) : Prop where
  index : 0 ≤ n
  length : cells.length = p.cells.length
  stored : ∀ y < inp.ysize, ∀ c < inp.xsize, c < n →
    cells[y * p.stride + c]? = some (columnOut rg inp.ysize (column inp c) y)

/-- The next strip. -/
theorem ColumnsDone.next {rg : RgConst F} (hN : 1 ≤ rg.radius) {kVectors L : Nat}
    (hL : L = kVectors * kVN) (hpos : 0 < L) {inp p : Plane F kVN} (hh : inp.ysize = p.ysize) {n : Int}
    {cells : List F} (h : ColumnsDone rg inp p n cells) (hxi : n + L ≤ inp.stride)
    (hx : n + L ≤ p.stride) (hw : inp.xsize ≤ p.stride) :
    ∃ cells', verticalStrip kVectors kVN rg inp.rd p.wr inp.ysize n cells = some cells' ∧
      ColumnsDone rg inp p (n + L) cells' := by
  obtain ⟨x, rfl⟩ := Int.eq_ofNat_of_zero_le h.index
  obtain ⟨cells', e, hlen, hstored, hothers⟩ := verticalStrip_stores rg hN hL hpos hh (x := x)
    (by omega) (by omega) h.length
  refine ⟨cells', e, by omega, hlen, fun y hy c hc hcn => ?_⟩
  by_cases hcx : c < x
  · refine (hothers _ fun y' _ l hl e => ?_).trans (h.stored y hy c hc (by omega))
    have hcol := congrArg (· % p.stride) e
    simp only [inPlane_mod (show c < p.stride by omega),
      inPlane_mod (show x + l < p.stride by omega)] at hcol
    omega
  · have hj := hstored (c - x) (by omega) y hy
    rw [show x + (c - x) = c by omega] at hj
    exact hj

end Full

end Ssimulacra2.Reference
