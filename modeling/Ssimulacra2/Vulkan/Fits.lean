/-
  File:      Ssimulacra2/Vulkan/Fits.lean
  Subject:   Launches within the limits of the device are not refused.

  * `compute_fits` -- the single shot has a value;
  * `scoreBatch_fits` -- so has the cached batch.
-/
import Ssimulacra2.Vulkan.Parity

namespace Ssimulacra2

open Lists

theorem groupsOf_le (n : Nat) : groupsOf n ≤ n := by
  unfold groupsOf
  omega

namespace Denote

variable {F : Type} {D : Type} [F32 F] [F64 D] [Convert F D] {E : Env F} {f : Launches F}

/-- The grid of every launch over at most `N` elements is within the limits of the device. -/
def Fits (E : Env F) (N : Nat) : Prop :=
  ∀ m ≤ N, (fits E (E.asU32 (groupsOf m))).isSome ∧ (fits E (groupsOf (E.asU32 m))).isSome

omit [F32 F] in
/-- One row of groups is within the limits of the device. -/
theorem Fits.of_row {N : Nat} (hmax : E.maxGroupsX = 65535) (hu : ∀ m ≤ N, E.asU32 m = m)
    (hN : N ≤ 65535) : Fits E N := by
  have hfits (g : Nat) (hg : g ≤ 65535) : (fits E g).isSome := by
    have hgx : (splitGroups g E.maxGroupsX).2 ≤ 1 := by
      unfold splitGroups
      rw [hmax]
      dsimp only
      generalize hm : max (min g (max 65535 1)) 1 = gx
      have hlt : (g + gx - 1) / gx < 2 := Nat.div_lt_of_lt_mul (by omega)
      omega
    unfold fits
    rw [if_neg (by omega)]
    rfl
  intro m hm
  have hg : groupsOf m ≤ N := (groupsOf_le m).trans hm
  rw [hu m hm, hu _ hg]
  exact ⟨hfits _ (hg.trans hN), hfits _ (hg.trans hN)⟩

omit [F32 F] in
theorem launch_fits {α : Type} {g : Nat} (h : (fits E g).isSome) (x : α) :
    launch E g x = some x := by
  obtain ⟨_, e⟩ := Option.isSome_iff_exists.mp h
  unfold launch
  rw [e]
  rfl

variable {rg : RgConst F} {N w h : Nat} (hf : Fits E N) (hw : 1 ≤ w) (hh : 1 ≤ h) (hN : 3 * w * h ≤ N)

include hf hN

theorem mul_fits (a b : List F) : ∃ y, mul E f a b (3 * (w * h)) = some y :=
  ⟨_, launch_fits (hf _ (by rw [← Nat.mul_assoc]; exact hN)).1 _⟩

theorem xyb_fits (a : List F) : ∃ y, xyb E f a (w * h) = some y := by
  have hle : w * h ≤ N := le_trans (by rw [Nat.mul_assoc]; omega) hN
  exact ⟨_, launch_fits (hf _ hle).2 _⟩

variable (rg)

include hw hh

theorem blur_fits (x : List F) : ∃ y, blur E f rg x w h = some y := by
  have hrows : 3 * h ≤ N := by
    calc 3 * h ≤ 3 * w * h := Nat.mul_le_mul_right h (by omega)
      _ ≤ N := hN
  have hcols : 3 * w ≤ N := by
    calc 3 * w = 3 * w * 1 := (Nat.mul_one _).symm
      _ ≤ 3 * w * h := Nat.mul_le_mul_left _ hh
      _ ≤ N := hN
  unfold blur
  rw [launch_fits (hf _ hrows).2, Option.bind_eq_bind, Option.bind_some, launch_fits (hf _ hcols).2]
  exact ⟨_, rfl⟩

theorem prepRound_fits (a : List F) : ∃ p, prepRound E f rg a w h = some p := by
  obtain ⟨x, hx⟩ := xyb_fits (f := f) hf hN a
  obtain ⟨m, hm⟩ := mul_fits (f := f) hf hN x x
  obtain ⟨s, hs⟩ := blur_fits (f := f) rg hf hw hh hN m
  obtain ⟨mu, hmu⟩ := blur_fits (f := f) rg hf hw hh hN x
  unfold prepRound
  dsimp only
  rw [hx, Option.bind_eq_bind, Option.bind_some, hm, Option.bind_some, hs, Option.bind_some, hmu,
    Option.bind_some]
  exact ⟨_, rfl⟩

theorem compareMaps_fits {p q : Prep F} (hp : p.w = w ∧ p.h = h) :
    ∃ both, compareMaps E f rg p q = some both := by
  obtain ⟨rfl, rfl⟩ := hp
  obtain ⟨m, hm⟩ := mul_fits (f := f) hf hN p.x q.x
  obtain ⟨s, hs⟩ := blur_fits (f := f) rg hf hw hh hN m
  unfold compareMaps
  dsimp only
  rw [hm, Option.bind_eq_bind, Option.bind_some, hs, Option.bind_some]
  exact ⟨_, launch_fits (hf _ (by rw [← Nat.mul_assoc]; exact hN)).2 _⟩

omit hw hh in
theorem halved1_fits (scale : Nat) (a : List F) (h8 : ¬(w < 8 ∨ h < 8)) :
    ∃ b cw ch, halved1 E f scale a w h = some (b, cw, ch) ∧ 1 ≤ cw ∧ 1 ≤ ch ∧ 3 * cw * ch ≤ N := by
  have hhalf := halved_bound hN
  unfold halved1
  by_cases hs : scale > 0
  · rw [if_pos hs]
    unfold downsample
    dsimp only
    rw [launch_fits (hf _ hhalf).1, Option.bind_eq_bind, Option.bind_some]
    exact ⟨_, _, _, rfl, by omega, by omega, hhalf⟩
  · rw [if_neg hs]
    exact ⟨_, _, _, rfl, by omega, by omega, hN⟩

omit hw hh in
/-- The sizes of a preparation stay within the bound, and its launches fit. -/
theorem prepLoop_fits (left scale : Nat) (a : List F) {acc : List (Prep F)}
    (hacc : ∀ p ∈ acc, 1 ≤ p.w ∧ 1 ≤ p.h ∧ 3 * p.w * p.h ≤ N) :
    ∃ ps, prepLoop E f rg left scale a w h acc = some ps ∧
      ∀ p ∈ ps, 1 ≤ p.w ∧ 1 ≤ p.h ∧ 3 * p.w * p.h ≤ N := by
  induction left generalizing scale a w h acc with
  | zero => exact ⟨acc, rfl, hacc⟩
  | succ left ih =>
    unfold prepLoop
    by_cases h8 : w < 8 ∨ h < 8
    · rw [if_pos h8]
      exact ⟨acc, rfl, hacc⟩
    · rw [if_neg h8]
      obtain ⟨b, cw, ch, e, hcw, hch, hle⟩ := halved1_fits (f := f) hf hN scale a h8
      obtain ⟨p, hp⟩ := prepRound_fits (f := f) rg hf hcw hch hle b
      rw [e, Option.bind_eq_bind, Option.bind_some]
      dsimp only
      rw [hp, Option.bind_eq_bind, Option.bind_some]
      refine ih hle (scale + 1) b fun q hq => ?_
      rcases List.mem_append.mp hq with hq | hq
      · exact hacc q hq
      · rw [List.mem_singleton.mp hq]
        obtain ⟨ew, eh⟩ := prepRound_size E f rg b cw ch hp
        rw [ew, eh]
        exact ⟨hcw, hch, hle⟩

omit hw hh hN in
theorem compareLoop_fits {ps : List (Prep F × Prep F)}
    (hps : ∀ p ∈ ps, 1 ≤ p.1.w ∧ 1 ≤ p.1.h ∧ 3 * p.1.w * p.1.h ≤ N) (out : List (ScaleNorms D)) :
    ∃ t, compareLoop D E f rg ps out = some t := by
  induction ps generalizing out with
  | nil => exact ⟨out, rfl⟩
  | cons p ps ih =>
    obtain ⟨hw, hh, hN⟩ := hps p List.mem_cons_self
    obtain ⟨both, hb⟩ := compareMaps_fits (f := f) rg (q := p.2) hf hw hh hN ⟨rfl, rfl⟩
    obtain ⟨sn, hsn⟩ := Option.isSome_iff_exists.mp
      (isSome_norms (D := D) (compareMaps_length E f hb))
    unfold compareLoop
    rw [hb, Option.bind_eq_bind, Option.bind_some, hsn, Option.bind_eq_bind, Option.bind_some]
    exact ih (fun q hq => hps q (List.mem_cons_of_mem _ hq)) _

omit hw hh in
/-- A preparation whose launches fit is not refused. -/
theorem prep_fits (hrg : (createRecursiveGaussian F (F64.lit 1.5 : D)).isSome) {l : List F}
    (hl : l.length = 3 * w * h) : ∃ ps, prep D E f l w h = some ps ∧
      ∀ p ∈ ps, 1 ≤ p.w ∧ 1 ≤ p.h ∧ 3 * p.w * p.h ≤ N := by
  obtain ⟨rg, hrg⟩ := Option.isSome_iff_exists.mp hrg
  unfold prep sized
  rw [if_pos hl, Option.bind_eq_bind, Option.bind_some, hrg, Option.bind_eq_bind, Option.bind_some]
  exact prepLoop_fits rg hf hN 6 0 l fun p hp => absurd hp List.not_mem_nil

omit hw hh in
/-- **A single shot whose launches fit is not refused.** -/
theorem compute_fits (hrg : (createRecursiveGaussian F (F64.lit 1.5 : D)).isSome) {a b : List F}
    (ha : a.length = 3 * w * h) (hb : b.length = 3 * w * h) :
    ∃ t, compute D E f a b w h = some t := by
  obtain ⟨ps, eps, hps⟩ := prep_fits (f := f) hf hN hrg ha
  obtain ⟨qs, eqs, -⟩ := prep_fits (f := f) hf hN hrg hb
  obtain ⟨rg, hrg⟩ := Option.isSome_iff_exists.mp hrg
  rw [compute_compare, eps, Option.bind_some, eqs, Option.bind_some]
  unfold compare
  rw [hrg, Option.bind_eq_bind, Option.bind_some]
  exact compareLoop_fits rg hf (fun p hp => hps p.1 (List.of_mem_zip hp).1) []

omit hw hh in
/-- **A batch whose launches fit is not refused.** -/
theorem scoreBatch_fits (hrg : (createRecursiveGaussian F (F64.lit 1.5 : D)).isSome) {orig : List F}
    {variants : List (List F)} (ho : orig.length = 3 * w * h)
    (hv : ∀ v ∈ variants, v.length = 3 * w * h) :
    ∃ outs, scoreBatch D E f orig w h variants = some outs := by
  obtain ⟨ps, hps⟩ := prep_fits (f := f) hf hN hrg ho
  unfold scoreBatch
  rw [hps.1]
  refine Option.ne_none_iff_exists'.mp fun hnone => ?_
  obtain ⟨v, hm, hb⟩ := mapM_none hnone
  obtain ⟨t, ht⟩ := compute_fits (f := f) hf hN hrg ho (hv v hm)
  rw [compute_comparePrep, hps.1, Option.bind_some, hb] at ht
  cases ht

end Denote

end Ssimulacra2
