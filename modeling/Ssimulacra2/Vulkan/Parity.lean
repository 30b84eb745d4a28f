/-
  File:      Ssimulacra2/Vulkan/Parity.lean
  Subject:   The three ways to score a pair give one value.

  The single shot, the comparison of two preparations and the cached batch are three scale loops.
  Round by round they launch the same kernels on the same operands; what one of them computes ahead
  only moves in front of what does not depend on it (`Option.bind_comm`).
-/
import Ssimulacra2.Vulkan.Prepared

namespace Ssimulacra2.Denote

open Fallible Lists

variable {F : Type} {D : Type} [F32 F] [F64 D] [Convert F D] (E : Env F) (f : Launches F)

/-! ## 1. One round -/

section Rounds

variable (rg : RgConst F) (a b : List F) (w h : Nat)

/-- Halving two images is halving one, then the other. -/
theorem halved_eq (scale : Nat) : halved E f scale ⟨a, b, w, h⟩ =
    (halved1 E f scale a w h).bind fun x => (halved1 E f scale b w h).bind fun y =>
      some ⟨x.1, y.1, x.2.1, x.2.2⟩ := by
  unfold halved halved1
  by_cases hs : scale > 0
  · simp only [if_pos hs]
    cases downsample E f a w h with
    | none => rfl
    | some d1 =>
      cases downsample E f b w h with
      | none => rfl
      | some d2 => rfl
  · simp only [if_neg hs]
    rfl

/-- Both halves have the same size. -/
theorem halved1_size {scale : Nat} {x y : List F × Nat × Nat} (hx : halved1 E f scale a w h = some x)
    (hy : halved1 E f scale b w h = some y) : x.2 = y.2 := by
  unfold halved1 at hx hy
  by_cases hs : scale > 0
  · rw [if_pos hs] at hx hy
    obtain ⟨d1, -, e1⟩ := Option.bind_eq_some_iff.mp hx
    obtain ⟨d2, -, e2⟩ := Option.bind_eq_some_iff.mp hy
    cases e1
    cases e2
    rfl
  · rw [if_neg hs] at hx hy
    cases hx
    cases hy
    rfl

/-- **A round of the single shot** is the preparation of one image and the comparison with the
    other: the products and blurs have the same operands in the same order. -/
theorem computeMaps_comparePrep : computeMaps E f rg ⟨a, b, w, h⟩ =
    (prepRound E f rg a w h).bind fun p => comparePrepMaps E f rg p b w h := by
  unfold computeMaps prepRound
  dsimp only
  cases hx1 : xyb E f a (w * h) with
  | none => rfl
  | some x1 =>
  cases hm11 : mul E f x1 x1 (3 * (w * h)) with
  | none => simp [hm11]
  | some m11 =>
  cases hs11 : blur E f rg m11 w h with
  | none => simp [hm11, hs11]
  | some s11 =>
  cases hmu1 : blur E f rg x1 w h with
  | none => simp [hm11, hmu1]
  | some mu1 =>
  simp only [hm11, hs11, hmu1, comparePrepMaps, Option.bind_eq_bind, Option.bind_some, and_self,
    if_true]
  refine congrArg _ (funext fun x2 => ?_)
  refine congrArg _ (funext fun m22 => ?_)
  cases hs22 : blur E f rg m22 w h with
  | none => simp
  | some s22 =>
  cases hmu2 : blur E f rg x2 w h with
  | none => simp
  | some mu2 => simp only [Option.bind_some]

theorem prepRound_size {p : Prep F} (hp : prepRound E f rg a w h = some p) : p.w = w ∧ p.h = h := by
  unfold prepRound at hp
  obtain ⟨x, -, hp⟩ := Option.bind_eq_some_iff.mp hp
  obtain ⟨m, -, hp⟩ := Option.bind_eq_some_iff.mp hp
  obtain ⟨s, -, hp⟩ := Option.bind_eq_some_iff.mp hp
  obtain ⟨mu, -, hp⟩ := Option.bind_eq_some_iff.mp hp
  cases hp
  exact ⟨rfl, rfl⟩

/-- A comparison with an image is the preparation of the image and a comparison. -/
theorem comparePrepMaps_compare {p : Prep F} (hp : p.w = w ∧ p.h = h) :
    comparePrepMaps E f rg p b w h =
      (prepRound E f rg b w h).bind fun q => compareMaps E f rg p q := by
  obtain ⟨rfl, rfl⟩ := hp
  unfold comparePrepMaps prepRound compareMaps
  rw [if_pos ⟨rfl, rfl⟩]
  simp only [Option.bind_eq_bind, Option.bind_assoc, Option.bind_some]

/-- **A round of the single shot** is the preparation of both images and their comparison. -/
theorem computeMaps_compare : computeMaps E f rg ⟨a, b, w, h⟩ =
    (prepRound E f rg a w h).bind fun p => (prepRound E f rg b w h).bind fun q =>
      compareMaps E f rg p q := by
  rw [computeMaps_comparePrep]
  exact Option.bind_congr fun p hp => comparePrepMaps_compare E f rg b w h (prepRound_size E f rg a w h hp)

end Rounds

/-! ## 2. The loops -/

section Loops

variable (rg : RgConst F)

/-- The scales prepared so far stay in front. -/
theorem prepLoop_append (left scale : Nat) (a : List F) (w h : Nat) (acc : List (Prep F)) :
    prepLoop E f rg left scale a w h acc =
      (prepLoop E f rg left scale a w h []).map (acc ++ ·) := by
  induction left generalizing scale a w h acc with
  | zero => simp [prepLoop]
  | succ left ih =>
    unfold prepLoop
    by_cases h8 : w < 8 ∨ h < 8
    · simp [h8]
    · simp only [h8, if_false, Option.bind_eq_bind, Option.map_bind]
      refine Option.bind_congr fun x _ => ?_
      simp only [Function.comp_apply, Option.map_bind]
      refine Option.bind_congr fun p _ => ?_
      rw [ih _ _ _ _ (acc ++ [p]), ih _ _ _ _ ([] ++ [p])]
      simp [Option.map_map, Function.comp_def]

/-- **The single shot** is the preparation of one image and the comparison with the other, by
    induction on the rounds to go. -/
theorem computeLoop_comparePrep (left scale : Nat) (a b : List F) (w h : Nat)
    (out : List (ScaleNorms D)) :
    computeLoop D E f rg left scale ⟨a, b, w, h⟩ out =
      (prepLoop E f rg left scale a w h []).bind fun ps =>
        comparePrepLoop D E f rg ps scale b w h out := by
  induction left generalizing scale a b w h out with
  | zero => rfl
  | succ left ih =>
    unfold computeLoop prepLoop
    dsimp only
    by_cases h8 : w < 8 ∨ h < 8
    · rw [if_pos h8, if_pos h8]
      rfl
    rw [if_neg h8, if_neg h8, halved_eq]
    simp only [Option.bind_eq_bind, Option.bind_assoc, Option.bind_some]
    refine Option.bind_congr fun x hx => ?_
    simp only [prepLoop_append E f rg left (scale + 1) _ _ _ ([] ++ [_])]
    cases hps : prepLoop E f rg left (scale + 1) x.1 x.2.1 x.2.2 [] with
    | none => simp [ih, hps]
    | some ps =>
      simp only [ih, hps, Option.map_some, Option.bind_some, List.nil_append,
        List.singleton_append, comparePrepLoop, Option.bind_eq_bind]
      rw [Option.bind_comm]
      refine Option.bind_congr fun y hy => ?_
      obtain ⟨x, cw, ch⟩ := x
      obtain ⟨y, cw', ch'⟩ := y
      cases halved1_size E f a b w h hx hy
      rw [computeMaps_comparePrep, Option.bind_assoc]

/-- The same for the comparison of two preparations. -/
theorem comparePrepLoop_compare (left scale : Nat) (a b : List F) (w h : Nat)
    (out : List (ScaleNorms D)) {ps : List (Prep F)}
    (hps : prepLoop E f rg left scale a w h [] = some ps) :
    comparePrepLoop D E f rg ps scale b w h out =
      (prepLoop E f rg left scale b w h []).bind fun qs =>
        compareLoop D E f rg (ps.zip qs) out := by
  induction left generalizing scale a b w h out ps with
  | zero =>
    cases hps
    rfl
  | succ left ih =>
    unfold prepLoop at hps ⊢
    by_cases h8 : w < 8 ∨ h < 8
    · rw [if_pos h8] at hps ⊢
      cases hps
      rfl
    rw [if_neg h8] at hps ⊢
    obtain ⟨x, hx, hps⟩ := Option.bind_eq_some_iff.mp hps
    obtain ⟨p, hp, hps⟩ := Option.bind_eq_some_iff.mp hps
    rw [prepLoop_append] at hps
    obtain ⟨ps', hps', rfl⟩ := Option.map_eq_some_iff.mp hps
    simp only [List.nil_append, List.singleton_append, comparePrepLoop, Option.bind_eq_bind,
      Option.bind_assoc]
    refine Option.bind_congr fun y hy => ?_
    obtain ⟨x, cw, ch⟩ := x
    obtain ⟨y, cw', ch'⟩ := y
    cases halved1_size E f a b w h hx hy
    have hpw := prepRound_size E f rg _ _ _ hp
    rw [comparePrepMaps_compare E f rg _ _ _ hpw, Option.bind_assoc]
    refine Option.bind_congr fun q _ => ?_
    simp only [ih (scale + 1) x y cw ch _ hps']
    rw [prepLoop_append E f rg left (scale + 1) _ _ _ [q]]
    cases hqs : prepLoop E f rg left (scale + 1) y cw ch [] with
    | none => simp
    | some qs =>
      simp only [Option.map_some, Option.bind_some, List.singleton_append, List.zip_cons_cons,
        compareLoop, Option.bind_eq_bind, hpw.1, hpw.2]

/-- Two preparations from one size have the same scales. -/
theorem prepLoop_sizes (left scale : Nat) (a b : List F) (w h : Nat) {ps qs : List (Prep F)}
    (hps : prepLoop E f rg left scale a w h [] = some ps)
    (hqs : prepLoop E f rg left scale b w h [] = some qs) :
    List.Forall₂ (fun p q => q.w = p.w ∧ q.h = p.h) ps qs := by
  induction left generalizing scale a b w h ps qs with
  | zero =>
    cases hps
    cases hqs
    exact .nil
  | succ left ih =>
    unfold prepLoop at hps hqs
    by_cases h8 : w < 8 ∨ h < 8
    · rw [if_pos h8] at hps hqs
      cases hps
      cases hqs
      exact .nil
    rw [if_neg h8] at hps hqs
    obtain ⟨⟨x, cw, ch⟩, hx, hps⟩ := Option.bind_eq_some_iff.mp hps
    obtain ⟨⟨y, cw', ch'⟩, hy, hqs⟩ := Option.bind_eq_some_iff.mp hqs
    cases halved1_size E f a b w h hx hy
    obtain ⟨p, hp, hps⟩ := Option.bind_eq_some_iff.mp hps
    obtain ⟨q, hq, hqs⟩ := Option.bind_eq_some_iff.mp hqs
    rw [prepLoop_append] at hps hqs
    obtain ⟨ps', hps', rfl⟩ := Option.map_eq_some_iff.mp hps
    obtain ⟨qs', hqs', rfl⟩ := Option.map_eq_some_iff.mp hqs
    obtain ⟨h1, h2⟩ := prepRound_size E f rg _ _ _ hp
    obtain ⟨h3, h4⟩ := prepRound_size E f rg _ _ _ hq
    exact .cons ⟨h3.trans h1.symm, h4.trans h2.symm⟩ (ih _ _ _ _ _ hps' hqs')

end Loops

/-! ## 3. The three ways -/

section Ways

variable (a b : List F) (w h : Nat)

/-- **The single shot** is a preparation and a comparison with an image. -/
theorem compute_comparePrep : compute D E f a b w h =
    (prep D E f a w h).bind fun ps => comparePrep D E f ps b w h := by
  unfold compute prep comparePrep
  simp only [Option.bind_eq_bind, Option.bind_assoc]
  refine Option.bind_congr fun _ _ => ?_
  cases hrg : createRecursiveGaussian F (F64.lit 1.5 : D) with
  | none => simp
  | some rg =>
    simp only [Option.bind_some]
    rw [Option.bind_comm]
    exact Option.bind_congr fun _ _ => computeLoop_comparePrep E f rg 6 0 a b w h []

/-- **A comparison with an image** is its preparation and a comparison. -/
theorem comparePrep_compare {ps : List (Prep F)} (hps : prep D E f a w h = some ps) :
    comparePrep D E f ps b w h = (prep D E f b w h).bind fun qs => compare D E f ps qs := by
  unfold prep at hps ⊢
  unfold comparePrep compare
  obtain ⟨_, _, hps⟩ := Option.bind_eq_some_iff.mp hps
  obtain ⟨rg, hrg, hps⟩ := Option.bind_eq_some_iff.mp hps
  simp only [hrg, Option.bind_eq_bind, Option.bind_assoc, Option.bind_some]
  exact Option.bind_congr fun _ _ => comparePrepLoop_compare E f rg 6 0 a b w h [] hps

/-- The single shot is two preparations and their comparison. -/
theorem compute_compare : compute D E f a b w h =
    (prep D E f a w h).bind fun ps => (prep D E f b w h).bind fun qs => compare D E f ps qs := by
  rw [compute_comparePrep]
  exact Option.bind_congr fun ps hps => comparePrep_compare E f a b w h hps

/-- Two preparations from one size have the same scales. -/
theorem prep_sizes {ps qs : List (Prep F)} (hps : prep D E f a w h = some ps)
    (hqs : prep D E f b w h = some qs) :
    List.Forall₂ (fun p q => q.w = p.w ∧ q.h = p.h) ps qs := by
  unfold prep at hps hqs
  obtain ⟨_, _, hps⟩ := Option.bind_eq_some_iff.mp hps
  obtain ⟨_, _, hqs⟩ := Option.bind_eq_some_iff.mp hqs
  obtain ⟨rg, hrg, hps⟩ := Option.bind_eq_some_iff.mp hps
  obtain ⟨rg', hrg', hqs⟩ := Option.bind_eq_some_iff.mp hqs
  rw [hrg] at hrg'
  cases hrg'
  exact prepLoop_sizes E f rg 6 0 a b w h hps hqs

end Ways

/-! ## 4. Refusals depend on the sizes only -/

section Refusals

theorem isSome_bind {α β γ δ : Type} {x : Option α} {y : Option β} {g : α → Option γ}
    {k : β → Option δ} (h : x.isSome = y.isSome)
    (hg : ∀ a b, x = some a → y = some b → (g a).isSome = (k b).isSome) :
    (x.bind g).isSome = (y.bind k).isSome := by
  cases x with
  | none =>
    cases y with
    | none => rfl
    | some b => cases h
  | some a =>
    cases y with
    | none => cases h
    | some b => exact hg a b rfl rfl

omit [F32 F] in
theorem isSome_launch {α β : Type} (groupsX : Nat) (x : α) (y : β) :
    (launch E groupsX x).isSome = (launch E groupsX y).isSome := by
  unfold launch
  rw [Option.isSome_map, Option.isSome_map]

theorem isSome_blur (rg : RgConst F) (x y : List F) (w h : Nat) :
    (blur E f rg x w h).isSome = (blur E f rg y w h).isSome :=
  isSome_bind (isSome_launch E _ _ _) fun _ _ _ _ => isSome_launch E _ _ _

theorem isSome_halved1 (scale : Nat) (x y : List F) (w h : Nat) :
    (halved1 E f scale x w h).isSome = (halved1 E f scale y w h).isSome := by
  unfold halved1
  by_cases hs : scale > 0
  · rw [if_pos hs, if_pos hs]
    exact isSome_bind (isSome_launch E _ _ _) fun _ _ _ _ => rfl
  · rw [if_neg hs, if_neg hs]
    rfl

theorem isSome_prepRound (rg : RgConst F) (x y : List F) (w h : Nat) :
    (prepRound E f rg x w h).isSome = (prepRound E f rg y w h).isSome :=
  isSome_bind (isSome_launch E _ _ _) fun _ _ _ _ =>
    isSome_bind (isSome_launch E _ _ _) fun _ _ _ _ =>
      isSome_bind (isSome_blur E f rg _ _ _ _) fun _ _ _ _ =>
        isSome_bind (isSome_blur E f rg _ _ _ _) fun _ _ _ _ => rfl

theorem isSome_maps (x1 x2 mu1 mu2 s11 s22 s12 y1 y2 nu1 nu2 t11 t22 t12 : List F) (n : Nat) :
    (maps E f x1 x2 mu1 mu2 s11 s22 s12 n).isSome =
      (maps E f y1 y2 nu1 nu2 t11 t22 t12 n).isSome := isSome_launch E _ _ _

theorem maps_length {x1 x2 mu1 mu2 s11 s22 s12 : List F} {n : Nat} {both : List F × List F}
    (h : maps E f x1 x2 mu1 mu2 s11 s22 s12 n = some both) :
    both.1.length = 3 * n ∧ both.2.length = 3 * n := by
  obtain ⟨_, -, rfl⟩ := Option.map_eq_some_iff.mp h
  exact ⟨fit_length _ _, fit_length _ _⟩

theorem compareMaps_length {rg : RgConst F} {p q : Prep F} {both : List F × List F}
    (h : compareMaps E f rg p q = some both) :
    both.1.length = 3 * (p.w * p.h) ∧ both.2.length = 3 * (p.w * p.h) := by
  obtain ⟨_, -, h⟩ := Option.bind_eq_some_iff.mp h
  obtain ⟨_, -, h⟩ := Option.bind_eq_some_iff.mp h
  exact maps_length E f h

omit [F32 F] in
/-- The norms of whole maps are there. -/
theorem isSome_norms {both : List F × List F} {w h : Nat}
    (hb : both.1.length = 3 * (w * h) ∧ both.2.length = 3 * (w * h)) :
    (norms D both w h).isSome := by
  have hs {v : List F} (hv : v.length = 3 * (w * h)) : (slices (w * h) v).isSome := by
    unfold slices
    rw [if_pos (le_of_eq hv.symm)]
    rfl
  obtain ⟨x, hx⟩ := Option.isSome_iff_exists.mp (hs hb.1)
  obtain ⟨y, hy⟩ := Option.isSome_iff_exists.mp (hs hb.2)
  unfold norms normsOf
  simp only [List.getD_cons_zero, List.getD_cons_succ, hx, hy]
  rfl

theorem isSome_computeMaps (rg : RgConst F) (a b a' b' : List F) (w h : Nat) :
    (computeMaps E f rg ⟨a, b, w, h⟩).isSome = (computeMaps E f rg ⟨a', b', w, h⟩).isSome := by
  rw [computeMaps_compare, computeMaps_compare]
  refine isSome_bind (isSome_prepRound E f rg a a' w h) fun p p' hp hp' => ?_
  refine isSome_bind (isSome_prepRound E f rg b b' w h) fun q q' _ _ => ?_
  have h1 := prepRound_size E f rg a w h hp
  have h2 := prepRound_size E f rg a' w h hp'
  unfold compareMaps
  rw [h1.1, h1.2, h2.1, h2.2]
  exact isSome_bind (isSome_launch E _ _ _) fun _ _ _ _ =>
    isSome_bind (isSome_blur E f rg _ _ _ _) fun _ _ _ _ => isSome_maps E f _ _ _ _ _ _ _ _ _ _ _ _ _ _ _

theorem computeMaps_length {rg : RgConst F} {a b : List F} {w h : Nat} {both : List F × List F}
    (hb : computeMaps E f rg ⟨a, b, w, h⟩ = some both) :
    both.1.length = 3 * (w * h) ∧ both.2.length = 3 * (w * h) := by
  rw [computeMaps_compare] at hb
  obtain ⟨p, hp, hb⟩ := Option.bind_eq_some_iff.mp hb
  obtain ⟨q, -, hb⟩ := Option.bind_eq_some_iff.mp hb
  obtain ⟨hw, hh⟩ := prepRound_size E f rg a w h hp
  rw [← hw, ← hh]
  exact compareMaps_length E f hb

theorem isSome_computeLoop (rg : RgConst F) (left scale : Nat) (a b a' b' : List F) (w h : Nat)
    (out out' : List (ScaleNorms D)) :
    (computeLoop D E f rg left scale ⟨a, b, w, h⟩ out).isSome =
      (computeLoop D E f rg left scale ⟨a', b', w, h⟩ out').isSome := by
  induction left generalizing scale a b a' b' w h out out' with
  | zero => rfl
  | succ left ih =>
    unfold computeLoop
    dsimp only
    by_cases h8 : w < 8 ∨ h < 8
    · rw [if_pos h8, if_pos h8]
      rfl
    rw [if_neg h8, if_neg h8, halved_eq, halved_eq]
    simp only [Option.bind_eq_bind, Option.bind_assoc, Option.bind_some]
    refine isSome_bind (isSome_halved1 E f scale a a' w h) fun x x' hx hx' => ?_
    refine isSome_bind (isSome_halved1 E f scale b b' w h) fun y y' _ _ => ?_
    obtain ⟨x, cw, ch⟩ := x
    obtain ⟨x', cw', ch'⟩ := x'
    cases halved1_size E f a a' w h hx hx'
    refine isSome_bind (isSome_computeMaps E f rg _ _ _ _ _ _) fun both both' hb hb' => ?_
    have hn := isSome_norms (D := D) (computeMaps_length E f hb)
    have hn' := isSome_norms (D := D) (computeMaps_length E f hb')
    exact isSome_bind (hn.trans hn'.symm) fun _ _ _ _ => ih _ _ _ _ _ _ _ _ _

/-- **Whether a pair is refused** depends on its size only. -/
theorem isSome_compute {a b a' b' : List F} {w h : Nat} (ha : a.length = 3 * w * h)
    (hb : b.length = 3 * w * h) (ha' : a'.length = 3 * w * h) (hb' : b'.length = 3 * w * h) :
    (compute D E f a b w h).isSome = (compute D E f a' b' w h).isSome := by
  unfold compute sized
  rw [if_pos ha, if_pos hb, if_pos ha', if_pos hb']
  exact isSome_bind rfl fun _ _ _ _ => isSome_bind rfl fun _ _ _ _ => isSome_bind rfl
    fun rg rg' h1 h2 => by
      rw [h1] at h2
      cases h2
      exact isSome_computeLoop E f rg _ _ _ _ _ _ _ _ _ _

end Refusals

/-! ## 5. The batch -/

section Batch

variable (orig : List F) (w h : Nat)

/-- **Element by element the batch is the single shot.** -/
theorem scoreBatch_some {variants : List (List F)} {outs : List (List (ScaleNorms D))}
    (hb : scoreBatch D E f orig w h variants = some outs) :
    List.Forall₂ (fun v out => compute D E f orig v w h = some out) variants outs := by
  obtain ⟨ps, hps, hm⟩ := Option.bind_eq_some_iff.mp hb
  refine (mapM_forall₂ hm).imp fun v out hv => ?_
  rw [compute_comparePrep, hps, Option.bind_some, hv]

/-- A batch that is refused has a variant that is refused, so all are. -/
theorem scoreBatch_none {variants : List (List F)} (ho : orig.length = 3 * w * h)
    (hv : ∀ v ∈ variants, v.length = 3 * w * h)
    (hb : scoreBatch D E f orig w h variants = none) :
    ∀ v ∈ variants, compute D E f orig v w h = none := by
  intro v hm
  cases hps : prep D E f orig w h with
  | none => rw [compute_comparePrep, hps, Option.bind_none]
  | some ps =>
    unfold scoreBatch at hb
    rw [hps] at hb
    obtain ⟨v', hv', hnone⟩ := mapM_none hb
    have h' : compute D E f orig v' w h = none := by
      rw [compute_comparePrep, hps, Option.bind_some, hnone]
    have hsame := isSome_compute (D := D) E f ho (hv v hm) ho (hv v' hv')
    rw [h'] at hsame
    exact Option.isNone_iff_eq_none.mp (Option.isSome_eq_false_iff.mp hsame)

end Batch

end Ssimulacra2.Denote
