/-
  File:      Ssimulacra2/ScoreOrder.lean
  Subject:   The score as a function of the norms, over exact arithmetic.

  * `weighed ws xs` -- the sum of `w * |x|` along two lists: it grows with the absolute values and
    vanishes when every entry under a positive weight does;
  * `norms` -- the norms in the order in which the three loops of `weighted_sum` meet them;
    `norms_getElem` says which weight each of them meets;
  * `cubic_strictMono` -- a cubic whose derivative has a negative discriminant;
  * `score_monotone` -- smaller norms, a higher score; 100 is the top and is reached only without
    a weighted norm.
-/
import Ssimulacra2.Lib.Lists
import Ssimulacra2.Score

namespace Ssimulacra2

open Lists

/-! ## 1. Weighted sums of absolute values -/

section Weighed

/-- The sum of `w * |x|`. -/
noncomputable def weighed : List ℚ → List ℝ → ℝ
  | w :: ws, x :: xs => (w : ℝ) * |x| + weighed ws xs
  | _, _ => 0

theorem weighed_nil (ws : List ℚ) : weighed ws [] = 0 := by
  cases ws <;> rfl

variable {ws : List ℚ}

theorem weighed_nonneg (hw : ∀ w ∈ ws, 0 ≤ w) (xs : List ℝ) : 0 ≤ weighed ws xs := by
  induction ws generalizing xs with
  | nil => exact le_rfl
  | cons w ws ih =>
    cases xs with
    | nil => exact le_rfl
    | cons x xs =>
      have h0 : (0 : ℝ) ≤ w := by exact_mod_cast hw w List.mem_cons_self
      have h1 := ih (fun v hv => hw v (List.mem_cons_of_mem _ hv)) xs
      have h2 : 0 ≤ (w : ℝ) * |x| := mul_nonneg h0 (abs_nonneg x)
      exact add_nonneg h2 h1

theorem weighed_mono (hw : ∀ w ∈ ws, 0 ≤ w) {xs ys : List ℝ}
    (h : List.Forall₂ (fun x y => |x| ≤ |y|) xs ys) : weighed ws xs ≤ weighed ws ys := by
  induction h generalizing ws with
  | nil => exact le_rfl
  | cons hxy _ ih =>
    cases ws with
    | nil => exact le_rfl
    | cons w ws =>
      have h0 : (0 : ℝ) ≤ w := by exact_mod_cast hw w List.mem_cons_self
      have h1 := ih fun v hv => hw v (List.mem_cons_of_mem _ hv)
      exact add_le_add (mul_le_mul_of_nonneg_left hxy h0) h1

theorem weighed_eq_zero (hw : ∀ w ∈ ws, 0 ≤ w) (xs : List ℝ) :
    weighed ws xs = 0 ↔ ∀ (i : Nat) w x, ws[i]? = some w → xs[i]? = some x → 0 < w → x = 0 := by
  induction ws generalizing xs with
  | nil =>
    refine ⟨fun _ i w x hi => ?_, fun _ => rfl⟩
    rw [List.getElem?_nil] at hi
    cases hi
  | cons w ws ih =>
    cases xs with
    | nil =>
      refine ⟨fun _ i w x _ hi => ?_, fun _ => rfl⟩
      rw [List.getElem?_nil] at hi
      cases hi
    | cons x xs =>
      have h0 : (0 : ℝ) ≤ w := by exact_mod_cast hw w List.mem_cons_self
      have hws : ∀ v ∈ ws, 0 ≤ v := fun v hv => hw v (List.mem_cons_of_mem _ hv)
      have h2 : 0 ≤ (w : ℝ) * |x| := mul_nonneg h0 (abs_nonneg x)
      have hsum : weighed (w :: ws) (x :: xs) = 0 ↔ (w : ℝ) * |x| = 0 ∧ weighed ws xs = 0 :=
        add_eq_zero_iff_of_nonneg h2 (weighed_nonneg hws xs)
      rw [hsum, ih hws]
      constructor
      · rintro ⟨hx, hrest⟩ i v y hv hy hpos
        cases i with
        | zero =>
          obtain rfl : w = v := Option.some.inj hv
          obtain rfl : x = y := Option.some.inj hy
          rcases mul_eq_zero.mp hx with hw0 | hx0
          · have : w = 0 := by exact_mod_cast hw0
            exact absurd this hpos.ne'
          · exact abs_eq_zero.mp hx0
        | succ i => exact hrest i v y hv hy hpos
      · intro h
        refine ⟨?_, fun i v y hv hy hpos => h (i + 1) v y hv hy hpos⟩
        rcases h0.eq_or_lt with hw0 | hw0
        · rw [← hw0, zero_mul]
        · have hx : x = 0 := h 0 w x rfl rfl (by exact_mod_cast hw0)
          rw [hx, abs_zero, mul_zero]

end Weighed

/-! ## 2. The order of the terms -/

section Terms

variable {D : Type}

/-- The norms of channel `c` in the order of the innermost loop. -/
def sixNorms (c : Fin 3) (sc : ScaleNorms D) : Fin 6 → D :=
  ![sc.avgSsim ⟨c.val * 2, by omega⟩, sc.avgEdgediff ⟨c.val * 4, by omega⟩,
    sc.avgEdgediff ⟨c.val * 4 + 2, by omega⟩, sc.avgSsim ⟨c.val * 2 + 1, by omega⟩,
    sc.avgEdgediff ⟨c.val * 4 + 1, by omega⟩, sc.avgEdgediff ⟨c.val * 4 + 3, by omega⟩]

/-- All norms in the order of the loops. -/
def norms (scales : List (ScaleNorms D)) : List D :=
  (List.finRange 3).flatMap fun c => scales.flatMap fun sc => List.ofFn (sixNorms c sc)

/-- The weight that norm `j` of channel `c` of scale `s` meets when `k` scales are there. -/
def weightIndex (k : Nat) (c : Fin 3) (s : Nat) (j : Fin 6) : Nat := 6 * k * c.val + (6 * s + j.val)

theorem norms_length (scales : List (ScaleNorms D)) : (norms scales).length = 18 * scales.length := by
  have hblock (c : Fin 3) : (scales.flatMap fun sc => List.ofFn (sixNorms c sc)).length =
      6 * scales.length := length_flatMap (fun sc => List.length_ofFn) scales
  unfold norms
  rw [length_flatMap hblock, List.length_finRange]
  omega

theorem norms_getElem (scales : List (ScaleNorms D)) (c : Fin 3) {s : Nat} (hs : s < scales.length)
    (j : Fin 6) :
    (norms scales)[weightIndex scales.length c s j]? = some (sixNorms c scales[s] j) := by
  have hblock (c : Fin 3) : (scales.flatMap fun sc => List.ofFn (sixNorms c sc)).length =
      6 * scales.length := length_flatMap (fun sc => List.length_ofFn) scales
  have hlt : 6 * s + j.val < 6 * scales.length := by omega
  have hc : (List.finRange 3)[c.val]? = some c := by
    rw [List.getElem?_eq_getElem (by rw [List.length_finRange]; exact c.isLt), List.getElem_finRange]
    rfl
  unfold norms weightIndex
  rw [flatMap_getElem hblock _ c.val hlt, hc, Option.bind_some,
    flatMap_getElem (fun sc => List.length_ofFn) _ s j.isLt, List.getElem?_eq_getElem hs,
    Option.bind_some, List.getElem?_ofFn, dif_pos j.isLt]

/-- A norm is one of the norms of a scale. -/
theorem mem_norms {scales : List (ScaleNorms D)} {x : D} (hx : x ∈ norms scales) :
    ∃ sc ∈ scales, ∃ c j, x = sixNorms c sc j := by
  obtain ⟨c, -, hx⟩ := List.mem_flatMap.mp hx
  obtain ⟨sc, hsc, hx⟩ := List.mem_flatMap.mp hx
  obtain ⟨j, rfl⟩ := List.mem_ofFn.mp hx
  exact ⟨sc, hsc, c, j, rfl⟩

/-- **The three loops add the terms of `norms`, one after the other.** -/
theorem weightedSum_norms [F64 D] (scales : List (ScaleNorms D)) : weightedSum scales =
    ((norms scales).foldlM (fun s a => addTerm a s) ((0 : D), 0)).map Prod.fst := by
  have hround (c : Fin 3) (sc : ScaleNorms D) (s : D × Nat) :
      (List.finRange 2).foldlM (fun s n => do
        let s ← addTerm (sc.avgSsim ⟨c.val * 2 + n.val, by omega⟩) s
        let s ← addTerm (sc.avgEdgediff ⟨c.val * 4 + n.val, by omega⟩) s
        addTerm (sc.avgEdgediff ⟨c.val * 4 + n.val + 2, by omega⟩) s) s =
      (List.ofFn (sixNorms c sc)).foldlM (fun s a => addTerm a s) s := by
    simp only [List.finRange_succ, List.finRange_zero, List.map_nil, List.map_cons, List.foldlM_cons,
      List.foldlM_nil, List.ofFn_succ, List.ofFn_zero, sixNorms, Option.bind_eq_bind,
      Option.bind_assoc]
    rfl
  unfold weightedSum norms
  rw [foldlM_flatMap]
  simp only [foldlM_flatMap, hround]
  rw [Option.map_eq_bind]
  rfl

/-- Every place of `norms` is one of them. -/
theorem exists_weightIndex {k i : Nat} (hi : i < 18 * k) :
    ∃ (c : Fin 3) (s : Nat) (j : Fin 6), s < k ∧ i = weightIndex k c s j := by
  have hk : 0 < k := by omega
  have hc : i / (6 * k) < 3 := by
    rw [Nat.div_lt_iff_lt_mul (by omega)]
    omega
  have hr : i % (6 * k) < 6 * k := Nat.mod_lt _ (by omega)
  refine ⟨⟨i / (6 * k), hc⟩, i % (6 * k) / 6, ⟨i % (6 * k) % 6, Nat.mod_lt _ (by decide)⟩, by omega, ?_⟩
  unfold weightIndex
  have h1 := Nat.div_add_mod i (6 * k)
  have h2 := Nat.div_add_mod (i % (6 * k)) 6
  dsimp only
  omega

end Terms

/-! ## 3. The weighted sum -/

theorem weights_length : weights.length = 108 := rfl

theorem weights_nonneg : ∀ w ∈ weights, 0 ≤ w := by
  unfold weights
  norm_num [List.forall_mem_cons]

/-- One round of the loop over `n` and over the scales adds six terms. -/
theorem foldlM_addTerm {xs : List ℝ} {s : ℝ} {i : Nat} (h : i + xs.length ≤ 108) :
    xs.foldlM (fun s a => addTerm a s) (s, i) =
      some (s + weighed (weights.drop i) xs, i + xs.length) := by
  induction xs generalizing s i with
  | nil =>
    rw [weighed_nil, add_zero]
    rfl
  | cons x xs ih =>
    rw [List.length_cons] at h
    have hi : i < weights.length := by
      rw [weights_length]
      omega
    have hadd : addTerm x (s, i) = some (s + (weights[i] : ℝ) * |x|, i + 1) := by
      unfold addTerm
      dsimp only
      rw [List.getElem?_eq_getElem hi]
      rfl
    rw [List.foldlM_cons, hadd, Option.bind_eq_bind, Option.bind_some, ih (by omega),
      List.drop_eq_getElem_cons hi]
    simp only [weighed, List.length_cons]
    rw [add_assoc, Nat.add_right_comm]
    rfl

/-- **The three loops read the weights in order and stay in the table.** -/
theorem weightedSum_eq {scales : List (ScaleNorms ℝ)} (hk : scales.length ≤ 6) :
    weightedSum scales = some (weighed weights (norms scales)) := by
  have hlen : 0 + (norms scales).length ≤ 108 := by
    rw [norms_length]
    omega
  rw [weightedSum_norms, foldlM_addTerm hlen, Option.map_some, List.drop_zero, zero_add]

/-! ## 4. The polynomial -/

/-- A cubic whose derivative has no root grows. -/
theorem cubic_strictMono {a b c : ℝ} (hc : 0 < c) (h : b ^ 2 < 3 * a * c) :
    StrictMono fun s : ℝ => a * s - b * s * s + c * s * s * s := by
  intro s t hst
  have hquot : 0 < 3 * c * (a - b * (s + t) + c * (s ^ 2 + s * t + t ^ 2)) := by
    have hsq : 3 * c * (a - b * (s + t) + c * (s ^ 2 + s * t + t ^ 2)) =
        (3 * c * (s + t) / 2 - b) ^ 2 + 3 / 4 * c ^ 2 * (t - s) ^ 2 + (3 * a * c - b ^ 2) := by
      ring
    rw [hsq]
    have h1 : 0 ≤ (3 * c * (s + t) / 2 - b) ^ 2 := sq_nonneg _
    have h2 : 0 ≤ 3 / 4 * c ^ 2 * (t - s) ^ 2 := by positivity
    linarith
  have hpos : 0 < a - b * (s + t) + c * (s ^ 2 + s * t + t ^ 2) :=
    (mul_pos_iff_of_pos_left (by positivity)).mp hquot
  have hdiff : (a * t - b * t * t + c * t * t * t) - (a * s - b * s * s + c * s * s * s) =
      (t - s) * (a - b * (s + t) + c * (s ^ 2 + s * t + t ^ 2)) := by
    ring
  have hst' : 0 < t - s := sub_pos.mpr hst
  have := mul_pos hst' hpos
  dsimp only
  linarith

/-- The polynomial of `weighted_then_poly`. -/
noncomputable def poly (ssim : ℝ) : ℝ :=
  let s := ssim * (0.9562382616834844 : ℚ)
  (2.326765642916932 : ℚ) * s - (0.020884521182843837 : ℚ) * s * s +
    (6.248496625763138e-05 : ℚ) * s * s * s

theorem poly_strictMono : StrictMono poly := by
  have hcubic := cubic_strictMono (a := ((2.326765642916932 : ℚ) : ℝ))
    (b := ((0.020884521182843837 : ℚ) : ℝ)) (c := ((6.248496625763138e-05 : ℚ) : ℝ))
    (by norm_num) (by norm_num)
  intro s t hst
  have hfactor : (0 : ℝ) < (0.9562382616834844 : ℚ) := by norm_num
  exact hcubic (mul_lt_mul_of_pos_right hst hfactor)

theorem poly_zero : poly 0 = 0 := by
  unfold poly
  simp

theorem poly_nonneg {s : ℝ} (hs : 0 ≤ s) : 0 ≤ poly s := by
  rw [← poly_zero]
  exact poly_strictMono.monotone hs

/-- On weighted sums the branch of the source is one formula. -/
theorem weightedThenPoly_eq {s : ℝ} (hs : 0 ≤ s) :
    weightedThenPoly s = 100 - 10 * poly s ^ ((0.6276336467831387 : ℚ) : ℝ) := by
  have hunfold : weightedThenPoly s =
      if 0 < poly s then 100 - 10 * poly s ^ ((0.6276336467831387 : ℚ) : ℝ) else 100 := by
    unfold weightedThenPoly
    simp only [exact_ofNat64, exact_lit64, F64.lt, F64.powf, decide_eq_true_eq]
    norm_num [poly]
  rw [hunfold]
  rcases (poly_nonneg hs).eq_or_lt with h0 | h0
  · rw [← h0, if_neg (lt_irrefl 0), Real.zero_rpow (by norm_num)]
    ring
  · rw [if_pos h0]

theorem weightedThenPoly_antitone {s t : ℝ} (hs : 0 ≤ s) (hst : s ≤ t) :
    weightedThenPoly t ≤ weightedThenPoly s := by
  rw [weightedThenPoly_eq hs, weightedThenPoly_eq (hs.trans hst)]
  have hpow : poly s ^ ((0.6276336467831387 : ℚ) : ℝ) ≤ poly t ^ ((0.6276336467831387 : ℚ) : ℝ) :=
    Real.rpow_le_rpow (poly_nonneg hs) (poly_strictMono.monotone hst) (by norm_num)
  linarith

theorem weightedThenPoly_le {s : ℝ} (hs : 0 ≤ s) : weightedThenPoly s ≤ 100 := by
  rw [weightedThenPoly_eq hs]
  have := Real.rpow_nonneg (poly_nonneg hs) ((0.6276336467831387 : ℚ) : ℝ)
  linarith

theorem weightedThenPoly_top {s : ℝ} (hs : 0 ≤ s) : weightedThenPoly s = 100 ↔ s = 0 := by
  have hpow : poly s ^ ((0.6276336467831387 : ℚ) : ℝ) = 0 ↔ poly s = 0 :=
    Real.rpow_eq_zero (poly_nonneg hs) (by norm_num)
  have hpoly : poly s = 0 ↔ s = 0 := by
    rw [← poly_strictMono.injective.eq_iff (a := s) (b := 0), poly_zero]
  rw [weightedThenPoly_eq hs, ← hpoly, ← hpow]
  constructor <;> intro h <;> linarith

/-! ## 5. Smaller norms, a higher score -/

/-- Each norm of `a` is at most the one of `b` in absolute value. -/
def ScaleNorms.Below (a b : ScaleNorms ℝ) : Prop :=
  (∀ j, |a.avgSsim j| ≤ |b.avgSsim j|) ∧ ∀ j, |a.avgEdgediff j| ≤ |b.avgEdgediff j|

theorem ScaleNorms.Below.six {a b : ScaleNorms ℝ} (h : a.Below b) (c : Fin 3) (j : Fin 6) :
    |sixNorms c a j| ≤ |sixNorms c b j| := by
  fin_cases j
  · exact h.1 _
  · exact h.2 _
  · exact h.2 _
  · exact h.1 _
  · exact h.2 _
  · exact h.2 _

theorem norms_below {A B : List (ScaleNorms ℝ)} (h : List.Forall₂ ScaleNorms.Below A B) :
    List.Forall₂ (fun x y => |x| ≤ |y|) (norms A) (norms B) := by
  refine List.rel_flatMap (List.forall₂_same.mpr fun _ _ => rfl) ?_
  rintro c _ rfl
  refine List.rel_flatMap h fun a b hab => ?_
  simp only [List.ofFn_succ, List.ofFn_zero, List.forall₂_cons]
  exact ⟨hab.six c _, hab.six c _, hab.six c _, hab.six c _, hab.six c _, hab.six c _, .nil⟩

section Answers

variable {D : Type} [F64 D]

theorem terms_answer {xs : List D} {s : D} {i : Nat} (hi : i + xs.length ≤ 108) :
    ∃ y, xs.foldlM (fun s a => addTerm a s) (s, i) = some y := by
  induction xs generalizing s i with
  | nil => exact ⟨_, rfl⟩
  | cons x xs ih =>
    rw [List.length_cons] at hi
    have hw : i < weights.length := by
      rw [weights_length]
      omega
    obtain ⟨y, hy⟩ := ih (s := s + F64.lit weights[i] * F64.abs x) (i := i + 1) (by omega)
    refine ⟨y, ?_⟩
    rw [List.foldlM_cons, addTerm, List.getElem?_eq_getElem hw]
    exact hy

/-- **Up to six scales have a score.** -/
theorem score_answers {scales : List (ScaleNorms D)} (h : scales.length ≤ 6) :
    ∃ s, score scales = some s := by
  have hlen : 0 + (norms scales).length ≤ 108 := by
    rw [norms_length]
    omega
  obtain ⟨y, hy⟩ := terms_answer (s := 0) hlen
  refine ⟨weightedThenPoly y.1, ?_⟩
  unfold score
  rw [weightedSum_norms, hy]
  rfl

end Answers

/-- **The score is monotone in the norms**: it falls as they grow, 100 is its top, and it reaches
    the top exactly when every norm under a positive weight is 0. -/
theorem score_monotone {A B : List (ScaleNorms ℝ)} (hk : A.length ≤ 6)
    (h : List.Forall₂ ScaleNorms.Below A B) :
    ∃ a b, score A = some a ∧ score B = some b ∧ b ≤ a ∧ a ≤ 100 ∧
      (a = 100 ↔ ∀ (c : Fin 3) (s : Fin A.length) (j : Fin 6) (w : ℚ),
        weights[weightIndex A.length c s j]? = some w → 0 < w → sixNorms c A[s] j = 0) := by
  have hA := weightedSum_eq hk
  have hB : weightedSum B = some (weighed weights (norms B)) := weightedSum_eq (h.length_eq ▸ hk)
  have h0 := weighed_nonneg weights_nonneg (norms A)
  have hAB := weighed_mono weights_nonneg (norms_below h)
  refine ⟨_, _, by rw [score, hA]; rfl, by rw [score, hB]; rfl, weightedThenPoly_antitone h0 hAB,
    weightedThenPoly_le h0, ?_⟩
  rw [weightedThenPoly_top h0, weighed_eq_zero weights_nonneg]
  constructor
  · intro hzero c s j w hw hpos
    exact hzero _ w _ hw (norms_getElem A c s.isLt j) hpos
  · intro hnorm i w x hw hx hpos
    have hi : i < 18 * A.length := by
      rw [← norms_length]
      exact (List.getElem?_eq_some_iff.mp hx).1
    obtain ⟨c, s, j, hs, rfl⟩ := exists_weightIndex hi
    rw [norms_getElem A c hs j] at hx
    rw [← Option.some.inj hx]
    exact hnorm c ⟨s, hs⟩ j w hw hpos

/-- A scale without an error against one in which every norm is off. -/
theorem score_monotone_pair :
    let A : List (ScaleNorms ℝ) := [⟨fun _ => 0, fun _ => 0⟩]
    let B : List (ScaleNorms ℝ) := [⟨fun _ => 1, fun _ => 2⟩]
    ∃ b, score A = some 100 ∧ score B = some b ∧ b ≤ 100 := by
  intro A B
  obtain ⟨a, b, ha, hb, hle, -, htop⟩ := score_monotone (A := A) (B := B) (by decide)
    (.cons ⟨fun j => by simp, fun j => by simp⟩ .nil)
  have hzero : ∀ (c : Fin 3) (s : Fin A.length) (j : Fin 6) (w : ℚ),
      weights[weightIndex A.length c s j]? = some w → 0 < w → sixNorms c A[s] j = 0 := by
    intro c s j w _ _
    fin_cases s
    fin_cases j <;> rfl
  have ha' : a = 100 := htop.mpr hzero
  subst ha'
  exact ⟨b, ha, hb, hle⟩

end Ssimulacra2
