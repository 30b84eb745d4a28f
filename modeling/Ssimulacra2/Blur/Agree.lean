/-
  File:      Ssimulacra2/Blur/Agree.lean
  Subject:   The three blurs perform the same operations on every row and column.

  No law of arithmetic is used for the CPU and the reference; the kernels need the one law
  `fma(0, s, o) = o`. Each comparison is a functional simulation of one loop state by the other:

  * `toScan` -- lane 0 of the vector state is the scalar state (border and remainder loops);
  * `ofScan` -- the scalar state in every lane is the vector state (unrolled loop);
  * `ringScan` -- the two newest slots of the ring buffer are the two-variable state.
-/
import Ssimulacra2.Blur.Reference
import Ssimulacra2.Blur.Shaders

namespace Ssimulacra2

open Loop Reference Lists

variable {F : Type} [FmaOps F] {σ : Type}

/-! ## 1. The horizontal scan of the reference -/

/-- Lane 0 of a vector state. -/
def toScan (v : VScan F σ) : Scan F σ := ⟨v.out, fun k => v.prev k 0, fun k => v.prev2 k 0⟩

/-- A scalar state in every lane. -/
def ofScan (s : Scan F σ) : VScan F σ :=
  ⟨s.out, fun k => vSet (s.y1 k), fun k => vSet (s.y2 k)⟩

variable (rd : Int → Option F) (wr : Int → F → σ → Option σ) (rg : RgConst F)

theorem borderInput_eq (N width n : Int) :
    borderInput rd N width n = (borderSum rd N width n).map vSet := by
  unfold borderInput borderSum
  simp only [Option.map_bind, Option.bind_eq_bind, Function.comp_def, Option.map_some]

theorem borderStep_toScan (len n : Int) (v : VScan F σ) :
    borderStep rd wr rg len n (toScan v) = (leftStep rd wr rg len n v).map toScan := by
  unfold borderStep leftStep
  rw [borderInput_eq]
  cases borderSum rd rg.radius len n with
  | none => rfl
  | some sum =>
    simp only [Option.map_bind, Option.bind_eq_bind, Function.comp_def, Option.map_some,
      Option.bind_some]
    rfl

theorem remainderStep_toScan (len n : Int) (v : VScan F σ) :
    remainderStep rd wr rg len n (toScan v) = (rightStep rd wr rg len n v).map toScan := by
  unfold remainderStep rightStep
  rw [borderInput_eq]
  cases borderSum rd rg.radius len n with
  | none => rfl
  | some sum =>
    simp only [Option.map_bind, Option.bind_eq_bind, Function.comp_def, Option.map_some,
      Option.bind_some]
    rfl

/-- Four readings, then four more, are four pairs of readings: a missing one fails either way. -/
theorem interleave4 {α β : Type} (f : α → α → β) (a0 a1 a2 a3 b0 b1 b2 b3 : Option α) :
    (do let x0 ← a0; let x1 ← a1; let x2 ← a2; let x3 ← a3
        let y0 ← b0; let y1 ← b1; let y2 ← b2; let y3 ← b3
        some ![f x0 y0, f x1 y1, f x2 y2, f x3 y3]) =
    (do let z0 ← (do let x ← a0; let y ← b0; some (f x y))
        let z1 ← (do let x ← a1; let y ← b1; some (f x y))
        let z2 ← (do let x ← a2; let y ← b2; some (f x y))
        let z3 ← (do let x ← a3; let y ← b3; some (f x y))
        some ![z0, z1, z2, z3]) := by
  rcases a0 with _ | x0
  · rfl
  rcases a1 with _ | x1
  · simp
  rcases a2 with _ | x2
  · simp
  rcases a3 with _ | x3
  · simp
  simp only [Option.bind_eq_bind, Option.bind_assoc, Option.bind_some]

theorem vAdd_four (a b c d a' b' c' d' : F) :
    vAdd ![a, b, c, d] ![a', b', c', d'] = ![a + a', b + b', c + c', d + d'] := by
  funext l
  fin_cases l <;> rfl

/-- The two vector loads of a group read what the scalar loop reads sample by sample. -/
theorem loadU_pair (nw n : Int) :
    ((loadU rd (n - nw - 1)).bind fun a => (loadU rd (n + nw - 1)).bind fun b =>
      some (vAdd a b)) = innerSums rd nw n := by
  unfold loadU innerSums innerSum
  have e (j : Int) : n - nw - 1 + j = n + j - nw - 1 := by omega
  have e' (j : Int) : n + nw - 1 + j = n + j + nw - 1 := by omega
  simp only [e, e', Option.bind_eq_bind, Option.bind_assoc, Option.bind_some, vAdd_four]
  have h := interleave4 (fun x y : F => x + y) (rd (n - nw - 1)) (rd (n + 1 - nw - 1))
    (rd (n + 2 - nw - 1)) (rd (n + 3 - nw - 1)) (rd (n + nw - 1)) (rd (n + 1 + nw - 1))
    (rd (n + 2 + nw - 1)) (rd (n + 3 + nw - 1))
  simp only [Option.bind_eq_bind, Option.bind_assoc, Option.bind_some] at h
  rw [h]
  simp

theorem innerStep_ofScan (n : Int) (s : Scan F σ) :
    innerStep rd wr rg n (ofScan s) = (unrolledStep rd wr rg n s).map ofScan := by
  have e : innerStep rd wr rg n (ofScan s) =
      ((loadU rd (n - rg.radius - 1)).bind fun a => (loadU rd (n + rg.radius - 1)).bind fun b =>
        some (vAdd a b)).bind fun sums =>
      (store wr n (fun l => combine fun k => unrolled rg sums s.y1 s.y2 k l) s.out).bind fun out =>
      some (ofScan ⟨out, fun k => unrolled rg sums s.y1 s.y2 k 3,
        fun k => unrolled rg sums s.y1 s.y2 k 2⟩) := by
    simp only [Option.bind_assoc, Option.bind_some]
    rfl
  rw [e, loadU_pair]
  unfold unrolledStep store store4
  simp only [Option.map_bind, Option.bind_eq_bind, Function.comp_def, Option.map_some, add_zero]

/-- **The horizontal scan of the port is the one of the reference**: the same reads, the same
    operations, the same writes in the same order. -/
theorem scanRow_eq_fastGaussian1D (len : Int) (out : σ) :
    scanRow rd wr rg len out = fastGaussian1D rd wr rg len out := by
  have h1 := loopBelow_map (u := min (firstAligned rg.radius) len) le_rfl
    (l := -(rg.radius : Int) + 1) (f := fun _ => toScan)
    (fun n v _ _ => borderStep_toScan rd wr rg len n v) (-(rg.radius : Int) + 1) le_rfl
    ⟨out, fun _ => vSet 0, fun _ => vSet 0⟩
  have e0 : toScan ⟨out, fun _ => vSet 0, fun _ => vSet 0⟩ = (Scan.start out : Scan F σ) := rfl
  rw [e0] at h1
  unfold scanRow fastGaussian1D
  have ea : ((rg.radius : Int) + 1 + (4 - 1)) / 4 * 4 = firstAligned rg.radius := rfl
  simp only [Option.bind_eq_bind, ea, h1, Option.bind_map, Function.comp_def]
  congr 1
  funext p
  obtain ⟨n, v⟩ := p
  -- the broadcast of lane 0 is the scalar state in every lane
  have e1 : (⟨v.out, fun k => broadcast 0 (v.prev k), fun k => broadcast 0 (v.prev2 k)⟩ :
      VScan F σ) = ofScan (toScan v) := rfl
  have h2 := loopBelow_map (u := len - rg.radius + 1 - 3) (by decide : (1 : Int) ≤ 4)
    (l := n) (f := fun _ => ofScan) (fun m s _ _ => innerStep_ofScan rd wr rg m s) n le_rfl (toScan v)
  have eb : len - (rg.radius : Int) + 1 - (4 - 1) = len - rg.radius + 1 - 3 := by omega
  simp only [e1, eb, h2, Option.bind_map, Function.comp_def]
  congr 1
  funext p
  obtain ⟨n, s⟩ := p
  have h3 := loopBelow_map (u := len) le_rfl (l := n) (f := fun _ => toScan)
    (fun m v _ _ => remainderStep_toScan rd wr rg len m v) n le_rfl (ofScan s)
  have e2 : toScan (ofScan s) = s := rfl
  rw [e2] at h3
  simp only [h3, Option.bind_map, Function.comp_def]
  rfl

/-! ## 2. The vertical scan of the reference -/

/-- The two newest slots of the ring buffer. -/
def ringScan (s : Ring F σ) : Scan F σ :=
  ⟨s.out, fun k => s.ring (k.val * kMod + s.ctr % kMod),
    fun k => s.ring (k.val * kMod + wrap64 (s.ctr - 1) % kMod)⟩

/-- Neighbouring counters fall into different slots, across the wrap of the counter too. -/
theorem slots (c : Nat) :
    wrap64 (wrap64 ((c : Int) + 1) - 1) % kMod = c % kMod ∧
      wrap64 (wrap64 ((c : Int) + 1) - 2) % kMod = wrap64 ((c : Int) - 1) % kMod ∧
      c % kMod ≠ wrap64 ((c : Int) + 1) % kMod := by
  unfold wrap64 kMod
  omega

omit [FmaOps F] in
/-- The three stores of a block, slot by slot. -/
theorem ring_stores (ring : Nat → F) (y : Fin 3 → F) {n_0 i : Nat} (h0 : n_0 < kMod)
    (hi : i < kMod) (k : Fin 3) :
    Function.update (Function.update (Function.update ring (0 * kMod + n_0) (y 0))
      (1 * kMod + n_0) (y 1)) (2 * kMod + n_0) (y 2) (k.val * kMod + i) =
      if i = n_0 then y k else ring (k.val * kMod + i) := by
  unfold kMod at *
  have hk := k.isLt
  simp only [Function.update_apply]
  split_ifs with h2 h1 h0 <;> first | omega | rfl | skip
  · rw [show k = 2 from Fin.ext (show k.val = 2 by omega)]
  · rw [show k = 1 from Fin.ext (show k.val = 1 by omega)]
  · rw [show k = 0 from Fin.ext (show k.val = 0 by omega)]

/-- **One vertical block is one step of the two-variable recurrence.** -/
theorem verticalBlock_ringScan (sum : F) (output : F → σ → Option σ) (s : Ring F σ) :
    (verticalBlock rg sum output s).map ringScan =
      (output (combine (section2 rg sum (ringScan s).y1 (ringScan s).y2)) s.out).bind fun out =>
        some ⟨out, section2 rg sum (ringScan s).y1 (ringScan s).y2, (ringScan s).y1⟩ := by
  obtain ⟨h1, h2, h3⟩ := slots s.ctr
  have hlt (c : Nat) : c % kMod < kMod := Nat.mod_lt _ (by decide)
  have hy (k : Fin 3) : section2 rg sum (ringScan s).y1 (ringScan s).y2 k =
      mulAdd (rg.n2 k) sum (mulAdd (-rg.d1 k) (s.ring (k.val * kMod + s.ctr % kMod))
        (-s.ring (k.val * kMod + wrap64 (s.ctr - 1) % kMod))) := rfl
  unfold verticalBlock
  simp only [Option.map_bind, Option.bind_eq_bind, Function.comp_def, Option.map_some, h1, h2,
    combine, ← hy]
  refine Option.bind_congr fun out _ => ?_
  simp only [ringScan, h1, Option.some.injEq, Scan.mk.injEq, true_and]
  constructor
  · funext k
    rw [ring_stores s.ring _ (hlt _) (hlt _) k, if_pos rfl]
  · funext k
    rw [ring_stores s.ring _ (hlt _) (hlt _) k, if_neg h3]

/-- The interior never runs into the bottom border: the unsigned bound of a column shorter than
    `N + 7` comes out negative. -/
theorem interiorEnd_le (N ysize : Nat) (hN : N < 2 ^ 32) :
    interiorEnd N ysize ≤ ysize - N - 7 ∨ interiorEnd N ysize < 0 := by
  unfold interiorEnd toSigned64 wrap64 kPrefetchRows
  split_ifs with h <;> omega

theorem warmupStep_ringScan (h n : Int) (hlo : -(rg.radius : Int) + 1 ≤ n) (hn : n < 0)
    (s : Ring F σ) :
    verticalStep rd wr rg h n (ringScan s) = (warmupStep rd rg h n s).map ringScan := by
  unfold verticalStep warmupStep
  have e : verticalSum rd rg.radius h n = singleInput rd h (n + rg.radius - 1) := by
    unfold verticalSum singleInput
    simp only [if_pos (by omega : n - (rg.radius : Int) - 1 < 0)]
  rw [e]
  cases singleInput rd h (n + rg.radius - 1) with
  | none => rfl
  | some sum =>
    refine Eq.trans ?_ (verticalBlock_ringScan rg sum (fun _ out => some out) s).symm
    simp only [Option.bind_eq_bind, Option.bind_some, if_neg (by omega : ¬ n ≥ 0)]
    rfl

theorem topStep_ringScan (h n : Int) (h0 : 0 ≤ n) (hn : n ≤ rg.radius) (s : Ring F σ) :
    verticalStep rd wr rg h n (ringScan s) = (topStep rd wr rg h n s).map ringScan := by
  unfold verticalStep topStep
  have e : verticalSum rd rg.radius h n = singleInput rd h (n + rg.radius - 1) := by
    unfold verticalSum singleInput
    simp only [if_pos (by omega : n - (rg.radius : Int) - 1 < 0)]
  rw [e]
  cases singleInput rd h (n + rg.radius - 1) with
  | none => rfl
  | some sum =>
    refine Eq.trans ?_ (verticalBlock_ringScan rg sum (wr n) s).symm
    simp only [Option.bind_eq_bind, Option.bind_some, if_pos h0]
    rfl

theorem bottomStep_ringScan (h n : Int) (h0 : (rg.radius : Int) < n) (s : Ring F σ) :
    verticalStep rd wr rg h n (ringScan s) = (bottomStep rd wr rg h n s).map ringScan := by
  have ht : ¬ n - (rg.radius : Int) - 1 < 0 := by omega
  have e : bottomStep rd wr rg h n s =
      (verticalSum rd rg.radius h n).bind fun sum => verticalBlock rg sum (wr n) s := by
    unfold bottomStep verticalSum
    by_cases hb : n + (rg.radius : Int) - 1 < h
    · simp only [if_neg ht, if_pos hb, if_neg (by omega : ¬ n + (rg.radius : Int) - 1 ≥ h),
        Option.bind_eq_bind, Option.bind_assoc, Option.bind_some]
    · simp only [if_neg ht, if_neg hb, if_pos (by omega : n + (rg.radius : Int) - 1 ≥ h),
        Option.bind_eq_bind, Option.bind_assoc, Option.bind_some]
  rw [e]
  unfold verticalStep
  cases verticalSum rd rg.radius h n with
  | none => rfl
  | some sum =>
    refine Eq.trans ?_ (verticalBlock_ringScan rg sum (wr n) s).symm
    simp only [Option.bind_eq_bind, Option.bind_some, if_pos (by omega : n ≥ 0)]
    rfl

/-- Where the bottom neighbour is inside, the interior block is the bottom block. -/
theorem interiorStep_eq_bottomStep (h n : Int) (hn : n + rg.radius - 1 < h) (s : Ring F σ) :
    interiorStep rd wr rg n s = bottomStep rd wr rg h n s := by
  unfold interiorStep bottomStep
  simp only [if_pos hn]

/-- **The vertical loop of the port is the strip of the reference**, for every height: warm-up,
    top, interior without bounds checks, bottom. -/
theorem scanColumn_eq_verticalStrip (ysize : Nat) (out : σ) :
    scanColumn rd wr rg ysize out = verticalStrip rd wr rg ysize out := by
  let s0 : Ring F σ := ⟨out, fun _ => 0, 0⟩
  have e0 : (Scan.start out : Scan F σ) = ringScan s0 := rfl
  have en : -((rg.radius : Int) - 1) = -(rg.radius : Int) + 1 := by omega
  have hN := rg.radius_lt
  unfold scanColumn verticalStrip
  simp only [Option.bind_eq_bind, e0, en]
  -- warm-up
  rw [loopBelow_split (m := 0) (by omega), loopBelow_map le_rfl (f := fun _ => ringScan)
    (fun n s hlo hn => warmupStep_ringScan rd wr rg ysize n hlo hn s) _ le_rfl s0]
  rw [Option.bind_assoc, Option.bind_map]
  refine Option.bind_congr fun p hp => ?_
  obtain ⟨n, s⟩ := p
  have hn := (loopBelow_exit le_rfl _ hp).2
  -- top
  simp only [Function.comp_def]
  rw [loopBelow_split (m := ((min (rg.radius + 1) ysize : Nat) : Int)) (by omega),
    loopBelow_map le_rfl (f := fun _ => ringScan)
      (fun m s hlo hm => topStep_ringScan rd wr rg ysize m (le_trans hn hlo) (by omega) s) _
      le_rfl s, Option.bind_assoc, Option.bind_map]
  refine Option.bind_congr fun p hp => ?_
  obtain ⟨n, s⟩ := p
  have hn : (rg.radius : Int) < n ∨ (ysize : Int) ≤ n := by
    have := (loopBelow_exit le_rfl _ hp).2
    omega
  -- interior
  simp only [Function.comp_def]
  have hend := interiorEnd_le rg.radius ysize hN
  rw [loopBelow_split (m := interiorEnd rg.radius ysize) (by omega),
    loopBelow_map le_rfl (f := fun _ => ringScan) (c := verticalStep rd wr rg ysize)
      (b := interiorStep rd wr rg) (l := n)
      (fun m s hlo hm => by
        rw [interiorStep_eq_bottomStep rd wr rg ysize m (by omega)]
        exact bottomStep_ringScan rd wr rg ysize m (by omega) s) _
      le_rfl s, Option.bind_assoc, Option.bind_map]
  refine Option.bind_congr fun p hp => ?_
  obtain ⟨n', s⟩ := p
  have hn' := (loopBelow_exit le_rfl _ hp).1
  -- bottom
  simp only [Function.comp_def]
  rw [loopBelow_map le_rfl (f := fun _ => ringScan) (b := bottomStep rd wr rg ysize) (l := n')
    (fun m s hlo hm => bottomStep_ringScan rd wr rg ysize m (by omega) s) _ le_rfl s,
    Option.bind_map]
  rfl

/-! ## 3. The kernels -/

/-- The coefficient buffer as a kernel reads it. -/
def uploaded (rg : RgConst F) (i : Nat) : F := (rgUpload rg).getD i 0

/-- The upload layout: every block of coefficients is where the kernels look for it. -/
theorem uploaded_layout (k : Fin 3) (l : Fin 4) :
    uploaded rg (4 * k.val + l.val) = rg.n2 k ∧ uploaded rg (12 + 4 * k.val + l.val) = rg.d1 k ∧
      uploaded rg (24 + 4 * k.val + l.val) = rg.mulPrev k l ∧
      uploaded rg (36 + 4 * k.val + l.val) = rg.mulPrev2 k l ∧
      uploaded rg (48 + 4 * k.val + l.val) = rg.mulIn k l := by
  fin_cases k <;> fin_cases l <;> exact ⟨rfl, rfl, rfl, rfl, rfl⟩

theorem step0_eq (w base : Nat) (n : Int) (y1 y2 : Fin 3 → F) :
    Shader.step0 rd (uploaded rg) w base n rg.radius y1 y2 =
      (borderSum (fun i => rd (base + i)) rg.radius w n).map fun sum => lane0 rg sum y1 y2 := by
  have e (k : Fin 3) := uploaded_layout rg k 0
  simp only [Fin.val_zero, add_zero] at e
  unfold Shader.step0 borderSum
  simp only [Option.map_bind, Option.bind_eq_bind, Function.comp_def, Option.map_some, e]
  rfl

theorem shader_borderStep_eq (w base : Nat) (n : Int) (s : Scan F σ) :
    Shader.borderStep rd wr (uploaded rg) w base rg.radius n s =
      borderStep (fun i => rd (base + i)) (fun i => wr (base + i)) rg w n s := by
  unfold Shader.borderStep borderStep
  rw [step0_eq]
  cases borderSum (fun i => rd (base + i)) rg.radius w n <;> rfl

theorem shader_remainderStep_eq (w base : Nat) (n : Int) (s : Scan F σ) :
    Shader.remainderStep rd wr (uploaded rg) w base rg.radius n s =
      remainderStep (fun i => rd (base + i)) (fun i => wr (base + i)) rg w n s := by
  unfold Shader.remainderStep remainderStep
  rw [step0_eq]
  cases borderSum (fun i => rd (base + i)) rg.radius w n <;> rfl

/-- **The one law the kernels need**: the CPU multiplies the inputs after output `l` by a zero
    coefficient, the kernel leaves them out. -/
theorem outs_eq (hfma : ∀ s o : F, mulAdd 0 s o = o) (sums : Fin 4 → F) (y1 y2 : Fin 3 → F)
    (k : Fin 3) (l : Fin 4) :
    Shader.outs (uploaded rg) sums y1 y2 k l = unrolled rg sums y1 y2 k l := by
  have e (l : Fin 4) := uploaded_layout rg k l
  have e0 := e 0
  have e1 := e 1
  have e2 := e 2
  have e3 := e 3
  simp only [Fin.val_zero, add_zero, Fin.val_one, Fin.val_two, show ((3 : Fin 4) : Nat) = 3 from rfl]
    at e0 e1 e2 e3
  unfold Shader.outs unrolled
  have hr : List.finRange 4 = [0, 1, 2, 3] := by decide
  rw [hr]
  fin_cases l <;> simp [hfma, e0, e1, e2, e3]

theorem shader_unrolledStep_eq (hfma : ∀ s o : F, mulAdd 0 s o = o) (base : Nat) (n : Int)
    (s : Scan F σ) :
    Shader.unrolledStep rd wr (uploaded rg) base rg.radius n s =
      unrolledStep (fun i => rd (base + i)) (fun i => wr (base + i)) rg n s := by
  have es (j : Fin 4) : Shader.sumAt rd base rg.radius n j =
      innerSum (fun i => rd (base + i)) rg.radius n j := by
    unfold Shader.sumAt innerSum
    have e1 : (base : Int) + (n + j.val) - (rg.radius + 1) =
        base + (n + j.val - rg.radius - 1) := by omega
    rw [e1]
  unfold Shader.unrolledStep unrolledStep innerSums store4
  simp only [es, Option.bind_eq_bind, Option.bind_assoc, Option.bind_some, outs_eq rg hfma]
  rfl

/-- **`blur_h` scans its row as `blur_1d` does.** -/
theorem blurHMain_eq (hfma : ∀ s o : F, mulAdd 0 s o = o) (w h r : Nat) (hr : r < 3 * h)
    (out : σ) :
    Shader.blurHMain rd wr (uploaded rg) w h rg.radius r out =
      scanRow (fun i => rd ((r / h * w * h + r % h * w : Nat) + i))
        (fun i => wr ((r / h * w * h + r % h * w : Nat) + i)) rg w out := by
  have e1 := fun base => funext fun n => funext fun s => shader_borderStep_eq rd wr rg w base n s
  have e2 := fun base => funext fun n => funext fun s =>
    shader_unrolledStep_eq rd wr rg hfma base n s
  have e3 := fun base => funext fun n => funext fun s =>
    shader_remainderStep_eq rd wr rg w base n s
  unfold Shader.blurHMain scanRow
  rw [if_neg (by omega)]
  simp only [e1, e2, e3]
  rfl

/-- **`blur_v` scans its column as `blur_planes_cpu` does.** -/
theorem blurVMain_eq (w h q : Nat) (hq : q < 3 * w) (out : σ) :
    Shader.blurVMain rd wr (uploaded rg) w h rg.radius q out =
      scanColumn (fun i => rd ((q / w * w * h + q % w : Nat) + i * w))
        (fun i => wr ((q / w * w * h + q % w : Nat) + i * w)) rg h out := by
  have e (k : Fin 3) := uploaded_layout rg k 0
  simp only [Fin.val_zero, add_zero] at e
  unfold Shader.blurVMain scanColumn
  rw [if_neg (by omega)]
  have en : -((rg.radius : Int) - 1) = -(rg.radius : Int) + 1 := by omega
  have es (base : Nat) : Shader.columnStep rd wr (uploaded rg) w base rg.radius h =
      verticalStep (fun i => rd (base + i * w)) (fun i => wr (base + i * w)) rg h := by
    funext n s
    unfold Shader.columnStep verticalStep section2
    simp only [e]
    rfl
  simp only [en, es]

/-! ## 4. No read leaves the row or column -/

section Reads

variable {rd wr}

theorem borderSum_isSome {nw len n : Int} (hrd : ∀ i, 0 ≤ i → i < len → (rd i).isSome)
    (h1 : -nw + 1 ≤ n) (h2 : n - nw - 1 < len) : ∃ v, borderSum rd nw len n = some v := by
  have hl : ∃ a, (if n - nw - 1 ≥ 0 then rd (n - nw - 1) else some 0) = some a := by
    split_ifs with h
    · exact Option.isSome_iff_exists.mp (hrd _ h h2)
    · exact ⟨0, rfl⟩
  have hr : ∃ b, (if n + nw - 1 < len then rd (n + nw - 1) else some 0) = some b := by
    split_ifs with h
    · exact Option.isSome_iff_exists.mp (hrd _ (by omega) h)
    · exact ⟨0, rfl⟩
  obtain ⟨a, ha⟩ := hl
  obtain ⟨b, hb⟩ := hr
  exact ⟨a + b, by unfold borderSum; simp only [ha, hb, Option.bind_eq_bind, Option.bind_some]⟩

/-- **The three phases of a row**: bodies that succeed wherever the phases run them keep their
    invariant to the end. -/
theorem phases_isSome {τ : Type} {N len : Int} (hlen : 0 ≤ len)
    {border inner rest : Int → τ → Option τ} {I : τ → Prop}
    (hborder : ∀ n s, -N + 1 ≤ n → n < len → I s → ∃ s', border n s = some s' ∧ I s')
    (hinner : ∀ n s, N + 1 ≤ n → n < len - N + 1 - 3 → I s → ∃ s', inner n s = some s' ∧ I s')
    (hrest : ∀ n s, 0 ≤ n → n < len → I s → ∃ s', rest n s = some s' ∧ I s')
    (s : τ) (hs : I s) (hN : 1 ≤ N) :
    ∃ p q r, loopBelow (min (firstAligned N) len) 1 border (-N + 1) s = some p ∧
      loopBelow (len - N + 1 - 3) 4 inner p.1 p.2 = some q ∧
      loopBelow len 1 rest q.1 q.2 = some r ∧ I r.2 := by
  have hfa : N + 1 ≤ firstAligned N := by unfold firstAligned; omega
  -- border: from `-N + 1`, up to the first aligned index or the end of the row
  obtain ⟨n, s, e1, h1, hx1⟩ := loopBelow_inv (u := min (firstAligned N) len) le_rfl
    (b := border) (I := fun n s => -N + 1 ≤ n ∧ I s)
    (fun n s hn hI => by
      obtain ⟨s', hs', hI'⟩ := hborder n s hI.1 (by omega) hI.2
      exact ⟨s', hs', by omega, hI'⟩)
    (-N + 1) s ⟨le_rfl, hs⟩
  -- groups of four: entered only from an aligned index above `N`
  obtain ⟨n', s', e2, h2, -⟩ := loopBelow_inv (u := len - N + 1 - 3) (d := 4) (by omega)
    (b := inner) (I := fun n s => (0 ≤ n ∧ (N + 1 ≤ n ∨ len ≤ n)) ∧ I s)
    (fun n s hn hI => by
      obtain ⟨s', hs', hI'⟩ := hinner n s (by omega) hn hI.2
      exact ⟨s', hs', by omega, hI'⟩)
    n s ⟨by omega, h1.2⟩
  -- remainder
  obtain ⟨n'', s'', e3, h3, -⟩ := loopBelow_inv (u := len) le_rfl
    (b := rest) (I := fun n s => 0 ≤ n ∧ I s)
    (fun n s hn hI => by
      obtain ⟨s', hs', hI'⟩ := hrest n s hI.1 hn hI.2
      exact ⟨s', hs', by omega, hI'⟩)
    n' s' ⟨h2.1.1, h2.2⟩
  exact ⟨(n, s), (n', s'), (n'', s''), e1, e2, e3, h3.2⟩

theorem innerSums_isSome {nw len n : Int} (hrd : ∀ i, 0 ≤ i → i < len → (rd i).isSome)
    (h1 : nw + 1 ≤ n) (hnw : 0 ≤ nw) (h2 : n < len - nw + 1 - 3) :
    ∃ v, innerSums rd nw n = some v := by
  have hs (j : Fin 4) : ∃ v, innerSum rd nw n j = some v := by
    have hj := j.isLt
    obtain ⟨a, ha⟩ := Option.isSome_iff_exists.mp
      (hrd (n + j.val - nw - 1) (by omega) (by omega))
    obtain ⟨b, hb⟩ := Option.isSome_iff_exists.mp
      (hrd (n + j.val + nw - 1) (by omega) (by omega))
    exact ⟨a + b, by unfold innerSum; simp only [ha, hb, Option.bind_eq_bind, Option.bind_some]⟩
  obtain ⟨v0, h0⟩ := hs 0
  obtain ⟨v1, h1⟩ := hs 1
  obtain ⟨v2, h2⟩ := hs 2
  obtain ⟨v3, h3⟩ := hs 3
  exact ⟨![v0, v1, v2, v3], by
    unfold innerSums
    simp only [h0, h1, h2, h3, Option.bind_eq_bind, Option.bind_some]⟩

variable {len : Int} {P : σ → Prop} (hrd : ∀ i, 0 ≤ i → i < len → (rd i).isSome)
  (hwr : ∀ i v s, 0 ≤ i → i < len → P s → ∃ s', wr i v s = some s' ∧ P s')

include hrd hwr

theorem borderStep_isSome {n : Int} (h1 : -(rg.radius : Int) + 1 ≤ n) (h2 : n < len)
    (s : Scan F σ) (hs : P s.out) : ∃ s', borderStep rd wr rg len n s = some s' ∧ P s'.out := by
  obtain ⟨sum, hsum⟩ := borderSum_isSome hrd h1 (by omega)
  unfold borderStep
  simp only [hsum, Option.bind_eq_bind, Option.bind_some]
  split_ifs with hn
  · obtain ⟨out, ho, hP⟩ := hwr n (combine (lane0 rg sum s.y1 s.y2)) s.out hn h2 hs
    exact ⟨_, by rw [ho, Option.bind_some], hP⟩
  · exact ⟨_, rfl, hs⟩

theorem remainderStep_isSome {n : Int} (h1 : 0 ≤ n) (h2 : n < len) (s : Scan F σ)
    (hr : -(rg.radius : Int) + 1 ≤ n) (hs : P s.out) :
    ∃ s', remainderStep rd wr rg len n s = some s' ∧ P s'.out := by
  obtain ⟨sum, hsum⟩ := borderSum_isSome hrd hr (by omega)
  obtain ⟨out, ho, hP⟩ := hwr n (combine (lane0 rg sum s.y1 s.y2)) s.out h1 h2 hs
  unfold remainderStep
  simp only [hsum, Option.bind_eq_bind, Option.bind_some]
  exact ⟨_, by rw [ho, Option.bind_some], hP⟩

theorem unrolledStep_isSome {n : Int} (h1 : (rg.radius : Int) + 1 ≤ n)
    (h2 : n < len - rg.radius + 1 - 3) (hN : 1 ≤ rg.radius) (s : Scan F σ) (hs : P s.out) :
    ∃ s', unrolledStep rd wr rg n s = some s' ∧ P s'.out := by
  obtain ⟨sums, hsums⟩ := innerSums_isSome hrd h1 (by omega) h2
  have hw (j : Int) (h0 : 0 ≤ j) (h3 : j ≤ 3) (v : F) (out : σ) (ho : P out) :
      ∃ out', wr (n + j) v out = some out' ∧ P out' :=
    hwr _ v out (by omega) (by omega) ho
  unfold unrolledStep store4
  simp only [hsums, Option.bind_eq_bind, Option.bind_some]
  obtain ⟨o0, e0, p0⟩ := hw 0 le_rfl (by omega)
    (combine fun k => unrolled rg sums s.y1 s.y2 k 0) s.out hs
  obtain ⟨o1, e1, p1⟩ := hw 1 (by omega) (by omega)
    (combine fun k => unrolled rg sums s.y1 s.y2 k 1) o0 p0
  obtain ⟨o2, e2, p2⟩ := hw 2 (by omega) (by omega)
    (combine fun k => unrolled rg sums s.y1 s.y2 k 2) o1 p1
  obtain ⟨o3, e3, p3⟩ := hw 3 (by omega) (by omega)
    (combine fun k => unrolled rg sums s.y1 s.y2 k 3) o2 p2
  exact ⟨_, by rw [e0, Option.bind_some, e1, Option.bind_some, e2, Option.bind_some, e3,
    Option.bind_some], p3⟩

/-- **The horizontal scan reads and writes inside its row**: accessors defined there and nowhere
    else never fail it. -/
theorem scanRow_isSome (hN : 1 ≤ rg.radius) (hlen : 0 ≤ len) (out : σ) (hout : P out) :
    ∃ out', scanRow rd wr rg len out = some out' ∧ P out' := by
  obtain ⟨p, q, r, e1, e2, e3, hP⟩ := phases_isSome (N := rg.radius) hlen
    (I := fun s : Scan F σ => P s.out)
    (fun n s h1 h2 hs => borderStep_isSome rg hrd hwr h1 h2 s hs)
    (fun n s h1 h2 hs => unrolledStep_isSome rg hrd hwr h1 h2 hN s hs)
    (fun n s h1 h2 hs => remainderStep_isSome rg hrd hwr h1 h2 s (by omega) hs)
    (Scan.start out) hout (by omega)
  unfold scanRow
  simp only [Option.bind_eq_bind, e1, e2, e3, Option.bind_some]
  exact ⟨_, rfl, hP⟩

omit hwr in
theorem verticalSum_isSome {nw n : Int} (h1 : -nw + 1 ≤ n) (h2 : n < len) (hnw : 0 ≤ nw) :
    ∃ v, verticalSum rd nw len n = some v := by
  unfold verticalSum
  dsimp only
  split_ifs with ht hb hb
  · exact Option.isSome_iff_exists.mp (hrd _ (by omega) hb)
  · exact ⟨0, rfl⟩
  · obtain ⟨a, ha⟩ := Option.isSome_iff_exists.mp (hrd (n - nw - 1) (by omega) (by omega))
    exact ⟨a + 0, by simp only [ha, Option.bind_eq_bind, Option.bind_some]⟩
  · obtain ⟨a, ha⟩ := Option.isSome_iff_exists.mp (hrd (n - nw - 1) (by omega) (by omega))
    obtain ⟨b, hb⟩ := Option.isSome_iff_exists.mp (hrd (n + nw - 1) (by omega) (by omega))
    exact ⟨a + b, by simp only [ha, hb, Option.bind_eq_bind, Option.bind_some]⟩

theorem verticalStep_isSome {n : Int} (h1 : -(rg.radius : Int) + 1 ≤ n) (h2 : n < len)
    (s : Scan F σ) (hs : P s.out) :
    ∃ s', verticalStep rd wr rg len n s = some s' ∧ P s'.out := by
  obtain ⟨sum, hsum⟩ := verticalSum_isSome hrd h1 h2 (by omega)
  unfold verticalStep
  simp only [hsum, Option.bind_eq_bind, Option.bind_some]
  split_ifs with h0
  · obtain ⟨out, ho, hP⟩ := hwr n (combine (section2 rg sum s.y1 s.y2)) s.out h0 h2 hs
    exact ⟨_, by rw [ho, Option.bind_some], hP⟩
  · exact ⟨_, rfl, hs⟩

/-- **The vertical scan reads and writes inside its column.** -/
theorem scanColumn_isSome (out : σ) (hout : P out) :
    ∃ out', scanColumn rd wr rg len out = some out' ∧ P out' := by
  unfold scanColumn
  obtain ⟨n, s, e, hI, -⟩ := loopBelow_inv (u := len) le_rfl
    (b := verticalStep rd wr rg len) (I := fun n s => -(rg.radius : Int) + 1 ≤ n ∧ P s.out)
    (fun n s hn hI => by
      obtain ⟨s', hs', hP⟩ := verticalStep_isSome rg hrd hwr hI.1 hn s hI.2
      exact ⟨s', hs', by omega, hP⟩)
    (-((rg.radius : Int) - 1)) (Scan.start out) ⟨by omega, hout⟩
  simp only [Option.bind_eq_bind, e, Option.bind_some]
  exact ⟨_, rfl, hI.2⟩

end Reads

/-! ## 5. The three planes -/

section Planes

variable (w h : Nat) (hN : 1 ≤ rg.radius)

include hN

theorem blurRows_isSome {img temp : List F} (hi : img.length = 3 * w * h)
    (ht : temp.length = 3 * w * h) {c : Nat} (hc : c < 3) :
    ∃ temp', blurRows img w h rg c temp = some temp' ∧ temp'.length = 3 * w * h := by
  refine foldlM_isSome _ _ (fun temp y hy ht => ?_) temp ht
  have hrow := row_lt (w := w) hc (List.mem_range.mp hy)
  refine scanRow_isSome rg (fun i h0 h1 => ?_) (fun i v s h0 h1 hs => ?_) hN (by omega) temp ht
  · rw [readSlice, if_pos ⟨h0, h1⟩]
    exact readAt_isSome (by omega) (by omega)
  · rw [writeSlice, if_pos ⟨h0, h1⟩]
    exact writeAt_length v (by omega) (by omega) hs

omit hN in
theorem blurColumns_isSome {temp out : List F} (ht : temp.length = 3 * w * h)
    (ho : out.length = 3 * w * h) {c : Nat} (hc : c < 3) :
    ∃ out', blurColumns temp w h rg c out = some out' ∧ out'.length = 3 * w * h := by
  refine foldlM_isSome _ _ (fun out x hx ho => ?_) out ho
  have hcol (i : Int) (h0 : 0 ≤ i) (h1 : i < h) :
      (0 : Int) ≤ c * w * h + i * w + x ∧ (c * w * h + i * w + x : Int) < (3 * w * h : Nat) := by
    obtain ⟨e, hlt⟩ := column_lt hc (List.mem_range.mp hx) h0 h1
    omega
  refine scanColumn_isSome rg (fun i h0 h1 => ?_) (fun i v s h0 h1 hs => ?_) out ho
  · exact readAt_isSome (hcol i h0 h1).1 (ht ▸ (hcol i h0 h1).2)
  · exact writeAt_length v (hcol i h0 h1).1 (hcol i h0 h1).2 hs

/-- **`blur_planes_cpu` never leaves its vectors**: an image of `3 * w * h` samples is blurred to
    an image of the same size. -/
theorem blurPlanesCpu_isSome {img : List F} (hi : img.length = 3 * w * h) :
    ∃ out, blurPlanesCpu img w h rg = some out ∧ out.length = 3 * w * h := by
  unfold blurPlanesCpu
  have hz : (List.replicate (3 * w * h) (0 : F)).length = 3 * w * h := List.length_replicate
  obtain ⟨⟨temp, out⟩, e, -, ho⟩ := foldlM_isSome
    (P := fun p : List F × List F => p.1.length = 3 * w * h ∧ p.2.length = 3 * w * h)
    (fun p c => do
      let temp ← blurRows img w h rg c p.1
      let out ← blurColumns temp w h rg c p.2
      some (temp, out)) (List.range 3)
    (fun p c hc hp => by
      obtain ⟨temp, e1, ht⟩ := blurRows_isSome rg w h hN hi hp.1 (List.mem_range.mp hc)
      obtain ⟨out, e2, ho⟩ := blurColumns_isSome rg w h ht hp.2 (List.mem_range.mp hc)
      exact ⟨(temp, out), by simp only [e1, e2, Option.bind_eq_bind, Option.bind_some], ht, ho⟩)
    (List.replicate (3 * w * h) 0, List.replicate (3 * w * h) 0) ⟨hz, hz⟩
  refine ⟨out, ?_, ho⟩
  simp only [hi, ne_eq, not_true_eq_false, if_false, Option.bind_eq_bind] at e ⊢
  rw [e, Option.bind_some]

end Planes

/-! ## 6. The agreement -/

section Agreement

/-- Row `y` of plane `c` behind its flat index. -/
theorem blurHMain_row (hfma : ∀ s o : F, mulAdd 0 s o = o) (w h : Nat) {c y : Nat} (hc : c < 3)
    (hy : y < h) (out : σ) :
    Shader.blurHMain rd wr (uploaded rg) w h rg.radius (c * h + y) out =
      scanRow (fun i => rd ((c * w * h + y * w : Nat) + i))
        (fun i => wr ((c * w * h + y * w : Nat) + i)) rg w out := by
  have hr : c * h + y < 3 * h := by
    calc c * h + y < (c + 1) * h := by rw [Nat.add_mul, Nat.one_mul]; omega
      _ ≤ 3 * h := Nat.mul_le_mul_right h (by omega)
  have e1 : (c * h + y) / h = c := by
    rw [Nat.mul_comm, Nat.mul_add_div (by omega), Nat.div_eq_of_lt hy, Nat.add_zero]
  have e2 : (c * h + y) % h = y := by
    rw [Nat.mul_comm, Nat.mul_add_mod, Nat.mod_eq_of_lt hy]
  rw [blurHMain_eq rd wr rg hfma w h _ hr, e1, e2]

/-- Column `x` of plane `c` behind its flat index. -/
theorem blurVMain_column (w h : Nat) {c x : Nat} (hc : c < 3) (hx : x < w) (out : σ) :
    Shader.blurVMain rd wr (uploaded rg) w h rg.radius (c * w + x) out =
      scanColumn (fun i => rd ((c * w * h + x : Nat) + i * w))
        (fun i => wr ((c * w * h + x : Nat) + i * w)) rg h out := by
  have hq : c * w + x < 3 * w := by
    calc c * w + x < (c + 1) * w := by rw [Nat.add_mul, Nat.one_mul]; omega
      _ ≤ 3 * w := Nat.mul_le_mul_right w (by omega)
  have e1 : (c * w + x) / w = c := by
    rw [Nat.mul_comm, Nat.mul_add_div (by omega), Nat.div_eq_of_lt hx, Nat.add_zero]
  have e2 : (c * w + x) % w = x := by
    rw [Nat.mul_comm, Nat.mul_add_mod, Nat.mod_eq_of_lt hx]
  rw [blurVMain_eq rd wr rg w h _ hq, e1, e2]

/-- **The three blurs agree** on every row and column, for every size and coefficient set. `rd` and
    `wr` are any accessors, so the agreement covers the reads, the value stored at each index and
    the order of the stores; with accessors that are defined inside the row or column only, no scan
    fails. -/
theorem blur_forms_agree (rg : RgConst F) (hN : 1 ≤ rg.radius) :
    -- (a) rows
    (∀ src dst : List F, blur1d src dst rg =
      fastGaussian1D (readAt src) writeAt rg src.length dst) ∧
    (∀ (σ : Type) rd wr (len : Int) (out : σ),
      scanRow rd wr rg len out = fastGaussian1D rd wr rg len out) ∧
    -- (b) columns
    (∀ (σ : Type) rd wr (h : Nat) (out : σ),
      scanColumn rd wr rg h out = verticalStrip rd wr rg h out) ∧
    (∀ (temp : List F) (w h c : Nat) (out : List F), blurColumns temp w h rg c out =
      (List.range w).foldlM (fun out (x : Nat) =>
        verticalStrip (fun i => readAt temp (c * w * h + i * w + x))
          (fun i => writeAt (c * w * h + i * w + x)) rg h out) out) ∧
    -- (c) the kernels, over the uploaded coefficients
    ((∀ s o : F, mulAdd 0 s o = o) → ∀ (σ : Type) rd wr (w h c : Nat) (out : σ), c < 3 →
      (∀ y < h, Shader.blurHMain rd wr (uploaded rg) w h rg.radius (c * h + y) out =
        scanRow (fun i => rd ((c * w * h + y * w : Nat) + i))
          (fun i => wr ((c * w * h + y * w : Nat) + i)) rg w out) ∧
      (∀ x < w, Shader.blurVMain rd wr (uploaded rg) w h rg.radius (c * w + x) out =
        scanColumn (fun i => rd ((c * w * h + x : Nat) + i * w))
          (fun i => wr ((c * w * h + x : Nat) + i * w)) rg h out)) ∧
    -- the reads and writes stay inside
    (∀ (σ : Type) (rd : Int → Option F) (wr : Int → F → σ → Option σ) (len : Nat) (out : σ),
      (∀ i : Int, 0 ≤ i → i < len → (rd i).isSome) →
      (∀ (i : Int) v s, 0 ≤ i → i < len → (wr i v s).isSome) →
      (scanRow rd wr rg len out).isSome ∧ (scanColumn rd wr rg len out).isSome) ∧
    (∀ (img : List F) (w h : Nat), img.length = 3 * w * h →
      (blurPlanesCpu img w h rg).isSome) := by
  refine ⟨fun src dst => scanRow_eq_fastGaussian1D _ _ rg _ dst,
    fun σ rd wr len out => scanRow_eq_fastGaussian1D rd wr rg len out,
    fun σ rd wr h out => scanColumn_eq_verticalStrip rd wr rg h out, ?_, ?_, ?_, ?_⟩
  · intro temp w h c out
    unfold blurColumns
    simp only [scanColumn_eq_verticalStrip]
  · intro hfma σ rd wr w h c out hc
    exact ⟨fun y hy => blurHMain_row rd wr rg hfma w h hc hy out,
      fun x hx => blurVMain_column rd wr rg w h hc hx out⟩
  · intro σ rd wr len out hrd hwr
    have hwr' (i : Int) (v : F) (s : σ) (h0 : 0 ≤ i) (h1 : i < len) (_ : True) :
        ∃ s', wr i v s = some s' ∧ True := by
      obtain ⟨s', e⟩ := Option.isSome_iff_exists.mp (hwr i v s h0 h1)
      exact ⟨s', e, trivial⟩
    obtain ⟨r, er, -⟩ := scanRow_isSome rg hrd hwr' hN (by omega) out trivial
    obtain ⟨c, ec, -⟩ := scanColumn_isSome rg hrd hwr' out trivial
    exact ⟨er ▸ rfl, ec ▸ rfl⟩
  · intro img w h hi
    obtain ⟨out, e, -⟩ := blurPlanesCpu_isSome rg w h hN hi
    exact e ▸ rfl

/-- Radius 5 over the integers: a row of 23, which reaches the unrolled loop, a column of 17, and the
    two kernels on an image of 23 by 17. -/
theorem blur_forms_agree_five :
    let rg : RgConst ℤ := .ofSections 5 (by decide) (fun k => k.val + 1) fun k => 2 - k.val
    let row : List ℤ := (List.range 23).map fun i : Nat => (i : ℤ) ^ 2 - 7
    let img : List ℤ := (List.range (3 * 23 * 17)).map fun i : Nat => (i : ℤ) % 29
    let zeros : List ℤ := .replicate (3 * 23 * 17) 0
    blur1d row (.replicate 23 0) rg =
        fastGaussian1D (readAt row) writeAt rg row.length (.replicate 23 0) ∧
      blurColumns img 23 17 rg 1 zeros = (List.range 23).foldlM (fun out (x : Nat) =>
        verticalStrip (fun i => readAt img ((1 : Nat) * (23 : Nat) * (17 : Nat) + i * (23 : Nat) + x))
          (fun i => writeAt ((1 : Nat) * (23 : Nat) * (17 : Nat) + i * (23 : Nat) + x)) rg 17 out)
        zeros ∧
      Shader.blurHMain (readAt img) writeAt (uploaded rg) 23 17 5 (2 * 17 + 16) zeros =
        scanRow (fun i => readAt img ((2 * 23 * 17 + 16 * 23 : Nat) + i))
          (fun i => writeAt ((2 * 23 * 17 + 16 * 23 : Nat) + i)) rg 23 zeros ∧
      Shader.blurVMain (readAt img) writeAt (uploaded rg) 23 17 5 (2 * 23 + 22) zeros =
        scanColumn (fun i => readAt img ((2 * 23 * 17 + 22 : Nat) + i * (23 : Nat)))
          (fun i => writeAt ((2 * 23 * 17 + 22 : Nat) + i * (23 : Nat))) rg 17 zeros ∧
      (blurPlanesCpu img 23 17 rg).isSome := by
  intro rg row img zeros
  obtain ⟨hrow, -, -, hcols, hkernels, -, hplanes⟩ := blur_forms_agree rg (by decide)
  have hfma (s o : ℤ) : mulAdd 0 s o = o := by rw [mulAdd_ring, zero_mul, zero_add]
  obtain ⟨hh, hv⟩ := hkernels hfma (List ℤ) (readAt img) writeAt 23 17 2 zeros (by decide)
  exact ⟨hrow row _, hcols img 23 17 1 zeros, hh 16 (by decide), hv 22 (by decide),
    hplanes img 23 17 (by rw [List.length_map, List.length_range])⟩

end Agreement

end Ssimulacra2
