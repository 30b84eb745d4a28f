/-
  File:      Ssimulacra2/Vulkan/Rounds.lean
  Subject:   The passes of the scale loops meet their values.

  `Held` collects the buffers of a pass and their contents; `pass_step` adds one launch to it. A
  round is a pass in a batch, then a readback of the two maps (`round_meets`).
-/
import Ssimulacra2.Vulkan.Meaning

namespace Ssimulacra2

open Fallible Prog

variable {F : Type} {D : Type} [F32 F] [F64 D] [Convert F D]

/-! ## 1. The buffers of a pass -/

/-- The buffers listed hold the contents listed. -/
def Held (K : Kernel F) (s : Sys F) (ctx : List (GpuBuffer × List F)) : Prop :=
  ∀ p ∈ ctx, Holds K s p.1 p.2

section Steps

variable {K : Kernel F} {s : Sys F} {owned : List GpuBuffer} {ctx : List (GpuBuffer × List F)}

theorem Held.get {b : GpuBuffer} {xs : List F} (h : Held K s ctx) (hm : (b, xs) ∈ ctx) :
    Holds K s b xs := h _ hm

theorem Held.stable {k : Nat} {s' : Sys F} {t : List (Event F)} (h : Held K s ctx)
    (he : Extends K k [] s s' t) : Held K s' ctx := fun p hp => (h p hp).stable he List.not_mem_nil

theorem Held.cons {b : GpuBuffer} {xs : List F} (h : Held K s ctx) (hb : Holds K s b xs) :
    Held K s ((b, xs) :: ctx) := by
  intro p hp
  rcases List.mem_cons.mp hp with rfl | hp
  · exact hb
  · exact h p hp

variable {α V : Type} {k j n : Nat} {v : Option (List F)} {g : List F → Option V}
  {R : Sys F → α → V → Prop} {m : Gpu F GpuBuffer} {fn : GpuBuffer → Guarded F α}

/-- **One launch of a pass**: its output joins the buffers held. -/
theorem pass_step (hh : Held K s ctx) (hm : Meets id K k [] s v (Made K n s) m)
    (hf : ∀ b xs s' owned', s'.Valid → Held K s' ((b, xs) :: ctx) → xs.length = n →
      Meets Prod.fst K j [] (s', owned') (g xs) R (fn b)) :
    Meets Prod.fst K (k + j) [] (s, owned) (v >>= g) R (keep m >>= fn) := by
  refine Meets.bind (Meets.keep hm) (fun b xs p t he hb => ?_) fun _ h _ => h
  exact hf b xs p.1 p.2 he.valid ((hh.stable he).cons hb.holds) hb.length

end Steps

/-! ## 2. The maps of a pass -/

section Maps

variable {E : Env F} {f : Launches F} {N : Nat} {s : Sys F} {owned : List GpuBuffer}
  {ctx : List (GpuBuffer × List F)} {α : Type}

/-- The blur, with the size of an image as three times the pixels. -/
theorem blurPass_meets (hc : Computes D E f N) (hs : s.Valid) (rg : RgConst F) {input : GpuBuffer}
    {xs : List F} {w h : Nat} (hi : Holds E.kernel s input xs) (hl : xs.length = 3 * (w * h))
    (hN : 3 * (w * h) ≤ N) :
    Meets id E.kernel 2 [] s (Denote.blur E f rg xs w h) (Made E.kernel (3 * (w * h)) s)
      (blurPlanes E rg input w h) := by
  rw [← Nat.mul_assoc] at hl hN ⊢
  exact blurPlanes_meets hc hs rg hi hl hN

/-- The end of a pass: the two maps, on buffers of their own. -/
theorem mapsPass_meets (hc : Computes D E f N) (hs : s.Valid) (hh : Held E.kernel s ctx)
    {x1 x2 mu1 mu2 s11 s22 s12 : GpuBuffer} {vx1 vx2 vmu1 vmu2 vs11 vs22 vs12 : List F} {n : Nat}
    (hN : 3 * n ≤ N)
    (h : ∀ p ∈ [(x1, vx1), (x2, vx2), (mu1, vmu1), (mu2, vmu2), (s11, vs11), (s22, vs22),
      (s12, vs12)], p ∈ ctx ∧ p.2.length = 3 * n) (a : GpuBuffer → GpuBuffer → α) :
    Meets Prod.fst E.kernel 1 [] (s, owned) (Denote.maps E f vx1 vx2 vmu1 vmu2 vs11 vs22 vs12 n)
      (fun s' r both => ∃ sd ed, r = a sd ed ∧ Holds E.kernel s' sd both.1 ∧
        Holds E.kernel s' ed both.2 ∧ Held E.kernel s' ctx)
      (do
        let sd ← keep (createEmpty E (3 * n))
        let ed ← keep (createEmpty E (3 * n))
        lift (mapsCombine E x1 x2 mu1 mu2 s11 s22 s12 sd ed n)
        pure (a sd ed)) := by
  let v := Denote.maps E f vx1 vx2 vmu1 vmu2 vs11 vs22 vs12 n
  -- the first map
  have hmade := (createEmpty_meets (E := E) hs (3 * n)).frame (P := fun s' => Held E.kernel s' ctx)
    fun s' t he => hh.stable he
  refine Meets.then (k := 0) (j := 1) (g := fun _ => v) (Meets.keep hmade)
    fun sd vsd p1 t1 he1 hsd => ?_
  obtain ⟨s1, owned1⟩ := p1
  obtain ⟨hsd, hh1⟩ := hsd
  have hne1 : ∀ m ∈ [sd.memory], s.Private m → m ∈ ([] : List Nat) := by
    intro m hm hp
    rw [List.mem_singleton] at hm
    exact absurd hm (hsd.ne hp)
  refine ⟨[sd.memory], hne1, ?_⟩
  -- the second map; the first one may be written from here on
  have hmade1 := (createEmpty_meets (E := E) he1.valid (3 * n)).frame
    (P := fun s' => Held E.kernel s' ctx ∧ Holds E.kernel s' sd vsd)
    fun s' t he => ⟨hh1.stable he, hsd.holds.stable he List.not_mem_nil⟩
  refine Meets.then (k := 0) (j := 1) (g := fun _ => v)
    (Meets.keep (hmade1.mono le_rfl (fun _ h _ => absurd h List.not_mem_nil) fun _ _ _ h => h))
    fun ed ved p2 t2 he2 hed => ?_
  obtain ⟨s2, owned2⟩ := p2
  obtain ⟨hed, hh2, hsd2⟩ := hed
  refine ⟨[sd.memory, ed.memory], fun m hm hp => ?_, ?_⟩
  · rcases List.mem_pair.mp hm with rfl | rfl
    · exact List.mem_singleton.mpr rfl
    · exact absurd rfl (hed.ne hp)
  have hkept {s' : Sys F} {t : List (Event F)}
      (he : Extends E.kernel 1 [sd.memory, ed.memory] s2 s' t) : Held E.kernel s' ctx := by
    intro p hp
    refine (hh2 p hp).stable he fun hm => ?_
    rcases List.mem_pair.mp hm with e | e
    · exact hsd.ne (hh p hp).priv e
    · exact hed.ne (hh1 p hp).priv e
  have hins : List.Forall₂ (fun b xs => Holds E.kernel s2 b xs ∧ xs.length = 3 * n)
      [x1, x2, mu1, mu2, s11, s22, s12] [vx1, vx2, vmu1, vmu2, vs11, vs22, vs12] := by
    simp only [List.forall_mem_cons] at h
    simp only [List.forall₂_cons, List.forall₂_nil_right_iff]
    obtain ⟨h1, h2, h3, h4, h5, h6, h7, -⟩ := h
    exact ⟨⟨hh2 _ h1.1, h1.2⟩, ⟨hh2 _ h2.1, h2.2⟩, ⟨hh2 _ h3.1, h3.2⟩, ⟨hh2 _ h4.1, h4.2⟩,
      ⟨hh2 _ h5.1, h5.2⟩, ⟨hh2 _ h6.1, h6.2⟩, ⟨hh2 _ h7.1, h7.2⟩, trivial⟩
  have hmaps := (mapsCombine_meets hc he2.valid hN hins hsd2 hed.holds hsd.length hed.length
    (hed.ne hsd.holds.priv)).frame (P := fun s' => Held E.kernel s' ctx) fun _ _ he => hkept he
  have hpure := Meets.bind (j := 0) (Z := []) (g := some) (f := fun _ => pure (a sd ed))
    (S := fun s' r both => ∃ sd ed, r = a sd ed ∧ Holds E.kernel s' sd both.1 ∧
      Holds E.kernel s' ed both.2 ∧ Held E.kernel s' ctx) (Meets.lift (o := owned2) hmaps)
    (fun _ both p3 t3 he3 h3 => .pure he3.valid ⟨sd, ed, rfl, h3.1.1, h3.1.2, h3.2⟩)
    fun _ h => absurd h List.not_mem_nil
  rw [Option.bind_fun_some] at hpure
  exact hpure

end Maps

/-! ## 3. The single shot -/

/-- The two images of a round on the device. -/
structure LevelHeld (K : Kernel F) (N : Nat) (s : Sys F) (l : LevelGpu) (v : Level F) : Prop where
  held : Held K s [(l.l1, v.a), (l.l2, v.b)]
  cw : l.cw = v.w
  ch : l.ch = v.h
  len1 : v.a.length = 3 * v.w * v.h
  len2 : v.b.length = 3 * v.w * v.h
  bound : 3 * v.w * v.h ≤ N

/-- Halving does not make an image larger. -/
theorem halved_bound {N w h : Nat} (hN : 3 * w * h ≤ N) :
    3 * ((w + 1) / 2) * ((h + 1) / 2) ≤ N := by
  have hle (n : Nat) : (n + 1) / 2 ≤ n := by omega
  exact le_trans (Nat.mul_le_mul (Nat.mul_le_mul_left 3 (hle w)) (hle h)) hN

section Compute

variable {E : Env F} {f : Launches F} {N : Nat} {s : Sys F} {owned : List GpuBuffer}

theorem halved_meets (hc : Computes D E f N) (hs : s.Valid) (scale : Nat) {l : LevelGpu}
    {v : Level F} (hl : LevelHeld E.kernel N s l v) :
    Meets Prod.fst E.kernel 2 [] (s, owned) (Denote.halved E f scale v)
      (fun s' l' v' => LevelHeld E.kernel N s' l' v')
      (if scale > 0 then do
        let d1 ← keep (downsample E l.l1 l.cw l.ch)
        let d2 ← keep (downsample E l.l2 l.cw l.ch)
        pure ⟨d1, d2, (l.cw + 1) / 2, (l.ch + 1) / 2⟩
      else pure l) := by
  unfold Denote.halved
  by_cases hsc : scale > 0
  · rw [if_pos hsc, if_pos hsc, hl.cw, hl.ch]
    refine pass_step (j := 1) hl.held
      (downsample_meets hc hs (hl.held.get (by simp)) hl.len1 hl.bound) ?_
    intro d1 xs1 s1 owned1 hs1 hh1 hx1
    refine pass_step (j := 0) hh1
      (downsample_meets hc hs1 (hh1.get (by simp)) hl.len2 hl.bound) ?_
    intro d2 xs2 s2 owned2 hs2 hh2 hx2
    refine .pure hs2 ⟨?_, rfl, rfl, hx1, hx2, halved_bound hl.bound⟩
    intro p hp
    rcases List.mem_pair.mp hp with rfl | rfl
    · exact hh2.get (by simp)
    · exact hh2.get (by simp)
  · rw [if_neg hsc, if_neg hsc]
    exact (Meets.pure hs hl).mono (Nat.zero_le 2) (fun _ h _ => h) fun _ _ _ h => h

theorem computePass_meets (hc : Computes D E f N) (hs : s.Valid) (rg : RgConst F) (scale : Nat)
    {l : LevelGpu} {v : Level F} (hl : LevelHeld E.kernel N s l v) :
    Meets Prod.fst E.kernel 18 [] (s, owned)
      ((Denote.halved E f scale v).bind fun v' =>
        (Denote.computeMaps E f rg v').map fun both => (both, v'))
      (fun s' r x => ∃ sd ed l', r = (sd, ed, l') ∧ Holds E.kernel s' sd x.1.1 ∧
        Holds E.kernel s' ed x.1.2 ∧ LevelHeld E.kernel N s' l' x.2)
      (computePass E D rg scale l) := by
  unfold computePass
  refine Meets.bind (k := 2) (j := 16) (halved_meets hc hs scale hl)
    (fun l' v' p t he hl' => ?_) fun _ h _ => h
  obtain ⟨s1, owned1⟩ := p
  have hw : 3 * (v'.w * v'.h) = 3 * v'.w * v'.h := (Nat.mul_assoc 3 v'.w v'.h).symm
  have hN := hl'.bound
  have hn : 3 * (v'.w * v'.h) ≤ N := by rw [hw]; exact hN
  have hs1 := he.valid
  have hh := hl'.held
  rw [hl'.cw, hl'.ch]
  refine Meets.map (R := fun s' r both => ∃ sd ed, r = (sd, ed, l') ∧ Holds E.kernel s' sd both.1 ∧
    Holds E.kernel s' ed both.2 ∧ LevelHeld E.kernel N s' l' v') ?_ ?_
  · unfold Denote.computeMaps
    refine pass_step (j := 15) hh (xybConvert_meets hc hs1 (hh.get (by simp))
      (by rw [hw]; exact hl'.len1) hn) fun x1 vx1 s2 owned2 hs2 hh2 lx1 => ?_
    refine pass_step (j := 14) hh2 (xybConvert_meets hc hs2 (hh2.get (by simp))
      (by rw [hw]; exact hl'.len2) hn) fun x2 vx2 s3 owned3 hs3 hh3 lx2 => ?_
    refine pass_step (j := 13) hh3 (mulGpu_meets hc hs3 (hh3.get (by simp)) (hh3.get (by simp)) lx1 lx1
      hn) fun m11 vm11 s4 owned4 hs4 hh4 lm11 => ?_
    refine pass_step (j := 12) hh4 (mulGpu_meets hc hs4 (hh4.get (by simp)) (hh4.get (by simp)) lx2 lx2
      hn) fun m22 vm22 s5 owned5 hs5 hh5 lm22 => ?_
    refine pass_step (j := 11) hh5 (mulGpu_meets hc hs5 (hh5.get (by simp)) (hh5.get (by simp)) lx1 lx2
      hn) fun m12 vm12 s6 owned6 hs6 hh6 lm12 => ?_
    refine pass_step (j := 9) hh6 (blurPass_meets hc hs6 rg (hh6.get (by simp)) lm11 hn)
      fun s11 vs11 s7 owned7 hs7 hh7 ls11 => ?_
    refine pass_step (j := 7) hh7 (blurPass_meets hc hs7 rg (hh7.get (by simp)) lm22 hn)
      fun s22 vs22 s8 owned8 hs8 hh8 ls22 => ?_
    refine pass_step (j := 5) hh8 (blurPass_meets hc hs8 rg (hh8.get (by simp)) lm12 hn)
      fun s12 vs12 s9 owned9 hs9 hh9 ls12 => ?_
    refine pass_step (j := 3) hh9 (blurPass_meets hc hs9 rg (hh9.get (by simp)) lx1 hn)
      fun mu1 vmu1 s10 owned10 hs10 hh10 lmu1 => ?_
    refine pass_step (j := 1) hh10 (blurPass_meets hc hs10 rg (hh10.get (by simp)) lx2 hn)
      fun mu2 vmu2 s11' owned11 hs11 hh11 lmu2 => ?_
    refine (mapsPass_meets hc hs11 hh11 hn ?_ fun sd ed => (sd, ed, l')).mono le_rfl
      (fun _ h _ => h) ?_
    · simp only [List.forall_mem_cons]
      exact ⟨⟨by simp, lx1⟩, ⟨by simp, lx2⟩, ⟨by simp, lmu1⟩, ⟨by simp, lmu2⟩, ⟨by simp, ls11⟩,
        ⟨by simp, ls22⟩, ⟨by simp, ls12⟩, fun _ h => nomatch h⟩
    · rintro s' r both ⟨sd, ed, rfl, hsd, hed, hh⟩
      refine ⟨sd, ed, rfl, hsd, hed, fun p hp => hh p ?_, hl'.cw, hl'.ch, hl'.len1, hl'.len2, hl'.bound⟩
      simp at hp ⊢
      tauto
  · rintro s' r both ⟨sd, ed, rfl, hsd, hed, hlev⟩
    exact ⟨sd, ed, l', rfl, hsd, hed, hlev⟩

theorem orPanic_meets {K : Kernel F} {α σ : Type} {sys : σ → Sys F} {p : σ} (hs : (sys p).Valid)
    (text : String) (x : Option α) :
    Meets sys K 0 [] p x (fun _ a y => a = y) (orPanic text x) := by
  cases x with
  | none => exact .refuse hs (Or.inr ⟨_, rfl⟩)
  | some a => exact .pure hs rfl

/-- The norms of two maps, read back. -/
theorem readNorms_meets (hs : s.Valid) (ho : s.openCmd = none) {sd ed : GpuBuffer}
    {both : List F × List F} (hsd : Holds E.kernel s sd both.1) (hed : Holds E.kernel s ed both.2)
    (w h : Nat) :
    Meets Prod.fst E.kernel 0 [] (s, owned) (Denote.norms D both w h) (fun _ a x => a = x)
      (readNorms E D sd ed w h) := by
  unfold readNorms
  refine Meets.bind (k := 0) (j := 0) (v := some [both.1, both.2]) (Z := [])
    (g := fun x => normsOf D x w h)
    (Meets.lift (readbackF32All_meets hs ho (.cons hsd (.cons hed .nil))))
    (fun a x p t he hx => ?_) fun _ h _ => h
  rw [hx]
  exact orPanic_meets he.valid _ _

theorem LevelHeld.opened {l : LevelGpu} {v : Level F} {s1 : Sys F} {t : List (Event F)}
    (h : LevelHeld E.kernel N s l v) (ho : s.openCmd = none) (h1 : Opened s s1 t) :
    LevelHeld E.kernel N s1 l v :=
  { h with held := fun p hp => h1.holds ho (h.held p hp) }

theorem LevelHeld.settled {l : LevelGpu} {v : Level F} {s1 : Sys F}
    (h : LevelHeld E.kernel N s l v) (h1 : Settled E.kernel s s1) : LevelHeld E.kernel N s1 l v :=
  { h with held := fun p hp => (h.held p hp).settled h1 }

theorem LevelHeld.stable {l : LevelGpu} {v : Level F} {s1 : Sys F} {k : Nat} {t : List (Event F)}
    (h : LevelHeld E.kernel N s l v) (h1 : Extends E.kernel k [] s s1 t) :
    LevelHeld E.kernel N s1 l v :=
  { h with held := h.held.stable h1 }

/-- A pass in its batch: the maps and the two images are on the device once it has ended. -/
theorem computeRound_meets (hc : Computes D E f N) (hs : s.Valid) (ho : s.openCmd = none)
    (rg : RgConst F) (scale : Nat) {l : LevelGpu} {v : Level F} (hl : LevelHeld E.kernel N s l v)
    (owned : List GpuBuffer) :
    Meets Prod.fst E.kernel 0 [] (s, owned)
      ((Denote.halved E f scale v).bind fun v' =>
        (Denote.computeMaps E f rg v').map fun both => (both, v'))
      (fun s' r x => ∃ sd ed l', r = (sd, ed, l') ∧ Holds E.kernel s' sd x.1.1 ∧
        Holds E.kernel s' ed x.1.2 ∧ LevelHeld E.kernel N s' l' x.2)
      (armedBatch E (computePass E D rg scale l)) := by
  refine armedBatch_meets (o := owned) (k := 18) (W := []) hs ho (by decide)
    (fun s1 t h1 => passed_of_meets (computePass_meets hc h1.valid rg scale (hl.opened ho h1))) ?_
  rintro s2 s3 r x hse ⟨sd, ed, l', rfl, hsd, hed, hlev⟩
  exact ⟨sd, ed, l', rfl, hsd.settled hse, hed.settled hse, hlev.settled hse⟩

/-- **The scale loop of the single shot**, by induction on the rounds to go. -/
theorem computeLoop_meets (hc : Computes D E f N) (hs : s.Valid) (ho : s.openCmd = none)
    (rg : RgConst F) (left scale : Nat) {l : LevelGpu} {v : Level F}
    (hl : LevelHeld E.kernel N s l v) (scales : List (ScaleNorms D)) :
    Meets Prod.fst E.kernel 0 [] (s, owned) (Denote.computeLoop D E f rg left scale v scales)
      (fun _ a x => a = x) (computeLoop E D rg left scale l scales) := by
  induction left generalizing s owned scale l v scales with
  | zero => exact .pure hs rfl
  | succ left ih =>
    unfold computeLoop Denote.computeLoop
    rw [hl.cw, hl.ch]
    by_cases h8 : v.w < 8 ∨ v.h < 8
    · rw [if_pos h8, if_pos h8]
      exact .pure hs rfl
    rw [if_neg h8, if_neg h8]
    have hpass := computeRound_meets hc hs ho rg scale hl owned
    refine Meets.congr (Meets.bind (j := 0) (Z := []) (g := fun x =>
        (Denote.norms D x.1 x.2.w x.2.h).bind fun sn =>
          Denote.computeLoop D E f rg left (scale + 1) x.2 (scales ++ [sn])) hpass
        (fun r x p t he hr => ?_) fun _ h _ => h) ?_
    · obtain ⟨s1, owned1⟩ := p
      obtain ⟨sd, ed, l', rfl, hsd, hed, hlev⟩ := hr
      have ho1 : s1.openCmd = none := he.cmd.trans ho
      dsimp only
      rw [hlev.cw, hlev.ch]
      refine Meets.bind (j := 0) (Z := []) (readNorms_meets he.valid ho1 hsd hed x.2.w x.2.h)
        (fun sn y p t he2 hy => ?_) fun _ h _ => h
      rw [hy]
      exact ih he2.valid (he2.cmd.trans ho1) (scale + 1) (hlev.stable he2) _
    · rw [Option.bind_assoc]
      refine congrArg _ (funext fun v' => ?_)
      rw [Option.bind_map]
      rfl

theorem assertLen_meets {K : Kernel F} {σ : Type} {sys : σ → Sys F} {p : σ} (hs : (sys p).Valid)
    (lin : List F) (w h : Nat) :
    Meets sys K 0 [] p (Denote.sized lin w h) (fun _ _ _ => lin.length = 3 * w * h)
      (assertLen lin w h) := by
  unfold assertLen Denote.sized
  by_cases hl : lin.length = 3 * w * h
  · rw [if_pos hl, if_pos hl]
    exact .pure hs hl
  · rw [if_neg hl, if_neg hl]
    exact .refuse hs (Or.inr ⟨_, rfl⟩)

theorem gaussian_meets {K : Kernel F} {σ : Type} {sys : σ → Sys F} {p : σ} (hs : (sys p).Valid) :
    Meets sys K 0 [] p (createRecursiveGaussian F (F64.lit 1.5 : D)) (fun _ a x => a = x)
      (gaussian D) := orPanic_meets hs _ _

/-- An upload that the scope owns. -/
theorem keepUpload_meets (hs : s.Valid) (data : List F) :
    Meets Prod.fst E.kernel 0 [] (s, owned) (some data) (fun s' b xs => Holds E.kernel s' b xs ∧ xs = data)
      (keep (createBufferF32 E data)) := by
  refine Meets.keep (post_mono (createBufferF32_meets hs data).run fun r s' t h =>
    ⟨h.ext, fun a ha => ?_, h.answers, h.proper⟩)
  obtain ⟨_, hx, hb, -⟩ := h.sound a ha
  cases hx
  exact ⟨data, rfl, hb, rfl⟩

/-- **The single shot meets its value.** -/
theorem computeSsimulacra2Gpu_meets (hs : s.Valid) (ho : s.openCmd = none) (lin1 lin2 : List F)
    (w h : Nat) (hc : Computes D E f (3 * w * h)) :
    Meets id E.kernel 0 [] s (Denote.compute D E f lin1 lin2 w h) (fun _ a x => a = x)
      (computeSsimulacra2Gpu E D lin1 lin2 w h) := by
  have hnil {s : Sys F} : ∀ m ∈ ([] : List Nat), s.Private m → m ∈ ([] : List Nat) := fun _ h _ => h
  unfold computeSsimulacra2Gpu Denote.compute
  refine Meets.bind (k := 0) (j := 0) (assertLen_meets hs lin1 w h) (fun _ _ s1 t1 he1 h1 => ?_) hnil
  refine Meets.bind (k := 0) (j := 0) (assertLen_meets he1.valid lin2 w h)
    (fun _ _ s2 t2 he2 h2 => ?_) hnil
  refine Meets.bind (k := 0) (j := 0) (gaussian_meets (D := D) he2.valid)
    (fun rg x s3 t3 he3 hx => ?_) hnil
  rw [← hx]
  have ho3 : s3.openCmd = none := he3.cmd.trans (he2.cmd.trans (he1.cmd.trans ho))
  refine withOwner_meets ?_ fun _ _ _ _ _ _ h => h
  refine Meets.bind (k := 0) (j := 0) (v := some lin1)
    (g := fun a => Denote.computeLoop D E f rg 6 0 ⟨a, lin2, w, h⟩ [])
    (keepUpload_meets he3.valid lin1) (fun l1 a p4 t4 he4 ha => ?_) hnil
  obtain ⟨s4, owned4⟩ := p4
  obtain ⟨hl1, rfl⟩ := ha
  refine Meets.bind (k := 0) (j := 0) (v := some lin2)
    (g := fun b => Denote.computeLoop D E f rg 6 0 ⟨a, b, w, h⟩ [])
    (keepUpload_meets he4.valid lin2) (fun l2 b p5 t5 he5 hb => ?_) hnil
  obtain ⟨s5, owned5⟩ := p5
  obtain ⟨hl2, rfl⟩ := hb
  refine computeLoop_meets hc he5.valid (he5.cmd.trans (he4.cmd.trans ho3)) rg 6 0
    ⟨fun p hp => ?_, rfl, rfl, h1, h2, le_rfl⟩ []
  rcases List.mem_pair.mp hp with rfl | rfl
  · exact hl1.stable he5 List.not_mem_nil
  · exact hl2

end Compute

end Ssimulacra2
