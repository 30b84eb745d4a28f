/-
  File:      Ssimulacra2/Blur/Recurrence.lean
  Subject:   Over a commutative ring, both scans of the port evaluate one linear recurrence.

  `z k n = n2 k * (x (n - N - 1) + x (n + N - 1)) - d1 k * z k (n - 1) - z k (n - 2)`, started with
  zeros up to `n = -N`, on the samples padded with zeros (`response`). The expanded coefficients of
  four outputs at once (`RgConst.ofSections`) are this recurrence, substituted into itself.

  * `scanRow_emits`, `scanColumn_emits` -- a scan stores `combine (response n)` for
    `n = 0, 1, ..., len - 1`, in this order;
  * `Solves.unique` -- whatever satisfies the recurrence is the response.
-/
import Ssimulacra2.Blur.Agree

namespace Ssimulacra2

open Loop

/-! ## 1. The recurrence -/

section Response

variable {R : Type} [CommRing R]

/-- `z` solves the recurrences of the three sections for the input `x`. -/
structure Solves (rg : RgConst R) (x : Int → R) (z : Fin 3 → Int → R) : Prop where
  start : ∀ k n, n ≤ -(rg.radius : Int) → z k n = 0
  step : ∀ k n, -(rg.radius : Int) < n →
    z k n = rg.n2 k * (x (n - rg.radius - 1) + x (n + rg.radius - 1)) - rg.d1 k * z k (n - 1) -
      z k (n - 2)

/-- The last two values after `m` steps from zero state. -/
def lastTwo (rg : RgConst R) (x : Int → R) (k : Fin 3) : Nat → R × R
  | 0 => (0, 0)
  | m + 1 =>
      let p := lastTwo rg x k m
      (rg.n2 k * (x ((m : Int) - 2 * rg.radius) + x m) - rg.d1 k * p.1 - p.2, p.1)

/-- The value of section `k` at index `n`. -/
def response (rg : RgConst R) (x : Int → R) (k : Fin 3) (n : Int) : R :=
  (lastTwo rg x k (n + rg.radius).toNat).1

theorem response_solves (rg : RgConst R) (x : Int → R) : Solves rg x (response rg x) where
  start k n h := by
    unfold response
    rw [show (n + rg.radius).toNat = 0 by omega]
    rfl
  step k n h := by
    obtain ⟨m, hm⟩ : ∃ m : Nat, n = (m : Int) + 1 - rg.radius := ⟨(n + rg.radius - 1).toNat, by omega⟩
    unfold response
    rw [show (n + rg.radius).toNat = m + 1 by omega,
      show (n - 1 + rg.radius).toNat = m by omega, lastTwo,
      show n - rg.radius - 1 = (m : Int) - 2 * rg.radius by omega,
      show n + rg.radius - 1 = (m : Int) by omega]
    cases m with
    | zero =>
      rw [show (n - 2 + rg.radius).toNat = 0 by omega]
      rfl
    | succ m =>
      rw [show (n - 2 + rg.radius).toNat = m by omega]
      rfl

/-- **The response is the only solution.** -/
theorem Solves.unique {rg : RgConst R} {x : Int → R} {z z' : Fin 3 → Int → R}
    (h : Solves rg x z) (h' : Solves rg x z') (k : Fin 3) (n : Int) : z k n = z' k n := by
  suffices hm : ∀ (m : Nat) (n : Int), n + rg.radius ≤ m → z k n = z' k n from
    hm (n + rg.radius).toNat n (by omega)
  intro m
  induction m with
  | zero =>
    intro n hn
    rw [h.start k n (by omega), h'.start k n (by omega)]
  | succ m ih =>
    intro n hn
    rcases lt_or_ge (-(rg.radius : Int)) n with h1 | h1
    · rw [h.step k n h1, h'.step k n h1, ih (n - 1) (by omega), ih (n - 2) (by omega)]
    · rw [h.start k n h1, h'.start k n h1]

/-- The value a scan stores for index `n`. -/
def scanValue (rg : RgConst R) (x : Int → R) (n : Int) : R := combine fun k => response rg x k n

end Response

/-! ## 2. The scans -/

section Scans

variable {R : Type} [CommRing R] {σ : Type}

/-- `x` continues the samples `rd 0, ..., rd (len - 1)` with zeros on both sides. -/
structure Pads (rd : Int → Option R) (len : Int) (x : Int → R) : Prop where
  inside : ∀ i, 0 ≤ i → i < len → rd i = some (x i)
  outside : ∀ i, i < 0 ∨ len ≤ i → x i = 0

/-- The expanded coefficients are those of the sections. -/
structure Expanded (rg : RgConst R) : Prop where
  prev : ∀ k, rg.mulPrev k = expandPrev (rg.d1 k)
  prev2 : ∀ k, rg.mulPrev2 k = expandPrev2 (rg.d1 k)
  input : ∀ k, rg.mulIn k = expandIn (rg.d1 k) (rg.n2 k)

theorem expanded_ofSections (N : Nat) (hN : N < 2 ^ 32) (n2 d1 : Fin 3 → R) :
    Expanded (RgConst.ofSections N hN n2 d1) := ⟨fun _ => rfl, fun _ => rfl, fun _ => rfl⟩

/-- One round of the abstract scan: indices from zero on are stored. -/
def emitStep (wr : Int → R → σ → Option σ) (v : Int → R) (n : Int) (out : σ) : Option σ :=
  if n ≥ 0 then wr n (v n) out else some out

/-- The scan state before index `n`. -/
def stateAt (z : Fin 3 → Int → R) (n : Int) (out : σ) : Scan R σ :=
  ⟨out, fun k => z k (n - 1), fun k => z k (n - 2)⟩

variable {rg : RgConst R} {x : Int → R} {z : Fin 3 → Int → R} (hz : Solves rg x z)

include hz

theorem stateAt_start (out : σ) : Scan.start out = stateAt z (-(rg.radius : Int) + 1) out := by
  have h1 (k : Fin 3) : z k (-(rg.radius : Int) + 1 - 1) = 0 := hz.start k _ (by omega)
  have h2 (k : Fin 3) : z k (-(rg.radius : Int) + 1 - 2) = 0 := hz.start k _ (by omega)
  unfold Scan.start stateAt
  simp only [h1, h2]

/-- Lane 0 is one step of the recurrence. -/
theorem lane0_eq (hrg : Expanded rg) {n : Int} (hn : -(rg.radius : Int) < n) (k : Fin 3) :
    lane0 rg (x (n - rg.radius - 1) + x (n + rg.radius - 1)) (fun k => z k (n - 1))
      (fun k => z k (n - 2)) k = z k n := by
  have e0 : rg.mulPrev k 0 = -rg.d1 k := by rw [hrg.prev]; rfl
  have e1 : rg.mulPrev2 k 0 = -((1 : Nat) : R) := by rw [hrg.prev2]; rfl
  have e2 : rg.mulIn k 0 = rg.n2 k := by rw [hrg.input]; rfl
  rw [hz.step k n hn]
  simp only [lane0, e0, e1, e2, mulAdd_ring]
  push_cast
  ring

/-- The vertical form is one step of the recurrence. -/
theorem section2_eq {n : Int} (hn : -(rg.radius : Int) < n) (k : Fin 3) :
    section2 rg (x (n - rg.radius - 1) + x (n + rg.radius - 1)) (fun k => z k (n - 1))
      (fun k => z k (n - 2)) k = z k n := by
  rw [hz.step k n hn]
  simp only [section2, mulAdd_ring]
  ring

/-- **Four steps at once**: the expanded coefficients are the recurrence substituted into
    itself. -/
theorem unrolled_eq (hrg : Expanded rg) {n : Int} (hn : -(rg.radius : Int) < n) (k : Fin 3)
    (l : Fin 4) :
    unrolled rg (fun j => x (n + j.val - rg.radius - 1) + x (n + j.val + rg.radius - 1))
      (fun k => z k (n - 1)) (fun k => z k (n - 2)) k l = z k (n + l.val) := by
  have s0 := hz.step k n hn
  have s1 := hz.step k (n + 1) (by omega)
  have s2 := hz.step k (n + 2) (by omega)
  have s3 := hz.step k (n + 3) (by omega)
  rw [show n + 1 - 1 = n by omega, show n + 1 - 2 = n - 1 by omega] at s1
  rw [show n + 2 - 1 = n + 1 by omega, show n + 2 - 2 = n by omega] at s2
  rw [show n + 3 - 1 = n + 2 by omega, show n + 3 - 2 = n + 1 by omega] at s3
  have p := hrg.prev k
  have p2 := hrg.prev2 k
  have pi := hrg.input k
  fin_cases l
  · simp [unrolled, p, p2, pi, expandPrev, expandPrev2, expandIn, s0]
    ring
  · simp [unrolled, p, p2, pi, expandPrev, expandPrev2, expandIn, s1, s0]
    ring
  · simp [unrolled, p, p2, pi, expandPrev, expandPrev2, expandIn, s2, s1, s0]
    ring
  · simp [unrolled, p, p2, pi, expandPrev, expandPrev2, expandIn, s3, s2, s1, s0]
    ring

section Steps

variable {rd : Int → Option R} {wr : Int → R → σ → Option σ} {len : Int} (hx : Pads rd len x)

include hx

omit hz in
theorem borderSum_eq {n : Int} (hn : -(rg.radius : Int) < n) (hl : n - rg.radius - 1 < len) :
    borderSum rd rg.radius len n =
      some (x (n - rg.radius - 1) + x (n + rg.radius - 1)) := by
  have hleft : (if n - (rg.radius : Int) - 1 ≥ 0 then rd (n - rg.radius - 1) else some 0) =
      some (x (n - rg.radius - 1)) := by
    split_ifs with h
    · exact hx.inside _ h hl
    · rw [hx.outside _ (Or.inl (by omega))]
  have hright : (if n + (rg.radius : Int) - 1 < len then rd (n + rg.radius - 1) else some 0) =
      some (x (n + rg.radius - 1)) := by
    split_ifs with h
    · exact hx.inside _ (by omega) h
    · rw [hx.outside _ (Or.inr (by omega))]
  unfold borderSum
  simp only [hleft, hright, Option.bind_eq_bind, Option.bind_some]

omit hz in
/-- Without the additions of zero the vertical form reads the same sum. -/
theorem verticalSum_eq {n : Int} (hn : -(rg.radius : Int) < n) (hl : n < len) :
    verticalSum rd rg.radius len n =
      some (x (n - rg.radius - 1) + x (n + rg.radius - 1)) := by
  unfold verticalSum
  dsimp only
  split_ifs with ht hb hb
  · rw [hx.inside _ (by omega) hb, hx.outside (n - rg.radius - 1) (Or.inl ht), zero_add]
  · rw [hx.outside (n - rg.radius - 1) (Or.inl ht),
      hx.outside (n + rg.radius - 1) (Or.inr (by omega)), zero_add]
  · rw [hx.inside _ (by omega) (by omega), hx.outside (n + rg.radius - 1) (Or.inr (by omega))]
    rfl
  · rw [hx.inside _ (by omega) (by omega), hx.inside _ (by omega) (by omega)]
    rfl

omit hz in
theorem innerSums_eq {n : Int} (h1 : (rg.radius : Int) + 1 ≤ n)
    (h2 : n < len - rg.radius + 1 - 3) :
    innerSums rd rg.radius n =
      some fun j => x (n + j.val - rg.radius - 1) + x (n + j.val + rg.radius - 1) := by
  have hs (j : Fin 4) : innerSum rd rg.radius n j =
      some (x (n + j.val - rg.radius - 1) + x (n + j.val + rg.radius - 1)) := by
    have hj := j.isLt
    unfold innerSum
    rw [hx.inside _ (by omega) (by omega), hx.inside _ (by omega) (by omega)]
    rfl
  unfold innerSums
  simp only [hs, Option.bind_eq_bind, Option.bind_some, Option.some.injEq]
  funext j
  fin_cases j <;> rfl

theorem borderStep_emits (hrg : Expanded rg) {n : Int} (hn : -(rg.radius : Int) < n)
    (hl : n < len) (out : σ) :
    borderStep rd wr rg len n (stateAt z n out) =
      (emitStep wr (fun n => combine fun k => z k n) n out).map (stateAt z (n + 1)) := by
  have ho : (lane0 rg (x (n - rg.radius - 1) + x (n + rg.radius - 1)) (fun k => z k (n - 1))
      fun k => z k (n - 2)) = fun k => z k n := funext (lane0_eq hz hrg hn)
  unfold borderStep emitStep
  rw [borderSum_eq hx hn (by omega)]
  simp only [stateAt, Option.bind_eq_bind, Option.bind_some, ho, Option.map_eq_bind,
    Function.comp_def, show n + 1 - 1 = n by omega, show n + 1 - 2 = n - 1 by omega]

theorem remainderStep_emits (hrg : Expanded rg) {n : Int} (hn : -(rg.radius : Int) < n)
    (h0 : 0 ≤ n) (hl : n < len) (out : σ) :
    remainderStep rd wr rg len n (stateAt z n out) =
      (emitStep wr (fun n => combine fun k => z k n) n out).map (stateAt z (n + 1)) := by
  have e : remainderStep rd wr rg len n (stateAt z n out) =
      borderStep rd wr rg len n (stateAt z n out) := by
    unfold remainderStep borderStep
    simp only [if_pos (show n ≥ 0 from h0)]
  rw [e]
  exact borderStep_emits hz hx hrg hn hl out

theorem unrolledStep_emits (hrg : Expanded rg) {n : Int} (h1 : (rg.radius : Int) + 1 ≤ n)
    (h2 : n < len - rg.radius + 1 - 3) (out : σ) :
    unrolledStep rd wr rg n (stateAt z n out) =
      (rounds (emitStep wr fun n => combine fun k => z k n) 4 n out).map
        (stateAt z (n + 4)) := by
  have ho (k : Fin 3) (l : Fin 4) :
      unrolled rg (fun j => x (n + j.val - rg.radius - 1) + x (n + j.val + rg.radius - 1))
        (fun k => z k (n - 1)) (fun k => z k (n - 2)) k l = z k (n + l.val) :=
    unrolled_eq hz hrg (by omega) k l
  have hemit (i : Int) (hi : 0 ≤ i) :
      emitStep wr (fun n => combine fun k => z k n) i = wr i (combine fun k => z k i) :=
    funext fun out => if_pos hi
  unfold unrolledStep store4
  rw [innerSums_eq hx h1 h2]
  simp only [stateAt, Option.bind_eq_bind, Option.bind_some, ho, rounds, Option.map_bind,
    Function.comp_def, Option.map_some, Option.bind_assoc]
  simp only [hemit n (by omega), hemit (n + 1) (by omega), hemit (n + 2) (by omega),
    hemit (n + 3) (by omega), Fin.val_zero, Fin.val_one, Nat.cast_zero, Nat.cast_one,
    add_zero, show ((2 : Fin 4).val : Int) = 2 from rfl, show ((3 : Fin 4).val : Int) = 3 from rfl,
    show n + 1 + 1 = n + 2 by omega, show n + 2 + 1 = n + 3 by omega,
    show n + 4 - 1 = n + 3 by omega, show n + 4 - 2 = n + 2 by omega]

theorem verticalStep_emits {n : Int} (hn : -(rg.radius : Int) < n) (hl : n < len) (out : σ) :
    verticalStep rd wr rg len n (stateAt z n out) =
      (emitStep wr (fun n => combine fun k => z k n) n out).map (stateAt z (n + 1)) := by
  have ho : (section2 rg (x (n - rg.radius - 1) + x (n + rg.radius - 1)) (fun k => z k (n - 1))
      fun k => z k (n - 2)) = fun k => z k n := funext (section2_eq hz hn)
  unfold verticalStep emitStep
  rw [verticalSum_eq hx hn hl]
  simp only [stateAt, Option.bind_eq_bind, Option.bind_some, ho, Option.map_eq_bind,
    Function.comp_def, show n + 1 - 1 = n by omega, show n + 1 - 2 = n - 1 by omega]

/-- **The vertical scan stores the solution**, index by index. -/
theorem scanColumn_emits (out : σ) :
    scanColumn rd wr rg len out =
      (loopBelow len 1 (emitStep wr fun n => combine fun k => z k n) (-(rg.radius : Int) + 1)
        out).map Prod.snd := by
  have h := loopBelow_map (u := len) le_rfl (f := stateAt z) (c := verticalStep rd wr rg len)
    (b := emitStep wr fun n => combine fun k => z k n) (l := -(rg.radius : Int) + 1)
    (fun n s hlo hn => verticalStep_emits hz hx (by omega) hn s) (-(rg.radius : Int) + 1) le_rfl out
  unfold scanColumn
  dsimp only
  rw [show -((rg.radius : Int) - 1) = -(rg.radius : Int) + 1 by omega, stateAt_start hz, h]
  simp only [Option.bind_eq_bind]
  rw [Option.bind_map, Option.map_eq_bind]
  rfl

/-- **The horizontal scan stores the solution** as well: border, groups of four and remainder are
    one loop over the indices. -/
theorem scanRow_emits (hrg : Expanded rg) (hN : 1 ≤ rg.radius) (out : σ) :
    scanRow rd wr rg len out =
      (loopBelow len 1 (emitStep wr fun n => combine fun k => z k n) (-(rg.radius : Int) + 1)
        out).map Prod.snd := by
  let N : Int := rg.radius
  let v : Int → R := fun n => combine fun k => z k n
  have hfa : N + 1 ≤ firstAligned N := by unfold firstAligned; omega
  have h1 := loopBelow_map (u := min (firstAligned N) len) le_rfl (f := stateAt z)
    (c := borderStep rd wr rg len) (b := emitStep wr v) (l := -N + 1)
    (fun n s hlo hn => borderStep_emits hz hx hrg (by omega) (by omega) s) (-N + 1) le_rfl out
  rw [loopBelow_split (m := min (firstAligned N) len) (by omega), Option.map_bind]
  unfold scanRow
  rw [stateAt_start hz]
  simp only [Option.bind_eq_bind]
  rw [h1, Option.bind_map]
  refine Option.bind_congr fun p hp => ?_
  obtain ⟨n, out1⟩ := p
  have hn := (loopBelow_exit le_rfl _ hp).2
  -- the groups start above `N`, or the row has ended
  have h2 := loopBelow_map (u := len - N + 1 - 3) (d := (4 : Nat)) (by decide) (f := stateAt z)
    (c := unrolledStep rd wr rg) (b := rounds (emitStep wr v) 4) (l := n)
    (fun m s hlo hm => unrolledStep_emits hz hx hrg (by omega) hm s) n le_rfl out1
  have hu := loopBelow_unroll (u := len - N + 1 - 3) (v := len) (k := 4) (by decide) (by omega)
    (b := emitStep wr v) n out1
  simp only [Function.comp_def]
  rw [← hu, Option.map_bind]
  refine Eq.trans (congrArg (fun q => Option.bind q _) h2) ?_
  rw [Option.bind_map]
  refine Option.bind_congr fun p hp => ?_
  obtain ⟨n', out2⟩ := p
  have hn' := loopBelow_exit (by decide) _ hp
  have h3 := loopBelow_map (u := len) le_rfl (f := stateAt z) (c := remainderStep rd wr rg len)
    (b := emitStep wr v) (l := n')
    (fun m s hlo hm => remainderStep_emits hz hx hrg (by omega) (by omega) hm s) n' le_rfl out2
  simp only [Function.comp_def]
  rw [h3, Option.bind_map, Option.map_eq_bind]
  rfl

end Steps

end Scans

end Ssimulacra2
