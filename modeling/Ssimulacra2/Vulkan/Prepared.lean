/-
  File:      Ssimulacra2/Vulkan/Prepared.lean
  Subject:   Preparation, comparison and the batch meet their values.

  A `PrepImage` holds the contents of its scales (`PrepHeld`) for as long as nobody destroys it: no
  later step of the engine writes to its buffers.
-/
import Ssimulacra2.Vulkan.Rounds

namespace Ssimulacra2

open Fallible Prog

variable {F : Type} {D : Type} [F32 F] [F64 D] [Convert F D]

/-! ## 1. Prepared images -/

/-- The buffers of one scale and their contents. -/
structure ScaleHeld (K : Kernel F) (N : Nat) (s : Sys F) (p : ScalePrep) (v : Denote.Prep F) :
    Prop where
  held : Held K s [(p.x, v.x), (p.s, v.s), (p.mu, v.mu)]
  cw : p.w = v.w
  ch : p.h = v.h
  lenX : v.x.length = 3 * (v.w * v.h)
  lenS : v.s.length = 3 * (v.w * v.h)
  lenMu : v.mu.length = 3 * (v.w * v.h)
  bound : 3 * (v.w * v.h) ≤ N

/-- **A prepared image** and its contents, scale by scale. -/
def PrepHeld (K : Kernel F) (N : Nat) (s : Sys F) (scales : List ScalePrep)
    (vs : List (Denote.Prep F)) : Prop := List.Forall₂ (ScaleHeld K N s) scales vs

section Stable

variable {K : Kernel F} {N k : Nat} {s s' : Sys F} {t : List (Event F)} {scales : List ScalePrep}
  {vs : List (Denote.Prep F)}

theorem ScaleHeld.stable {p : ScalePrep} {v : Denote.Prep F} (h : ScaleHeld K N s p v)
    (he : Extends K k [] s s' t) : ScaleHeld K N s' p v := { h with held := h.held.stable he }

theorem PrepHeld.stable (h : PrepHeld K N s scales vs) (he : Extends K k [] s s' t) :
    PrepHeld K N s' scales vs := List.Forall₂.imp (fun _ _ hp => hp.stable he) h

theorem ScaleHeld.opened {p : ScalePrep} {v : Denote.Prep F} (h : ScaleHeld K N s p v)
    (ho : s.openCmd = none) (h1 : Opened s s' t) : ScaleHeld K N s' p v :=
  { h with held := fun q hq => h1.holds ho (h.held q hq) }

theorem ScaleHeld.settled {p : ScalePrep} {v : Denote.Prep F} (h : ScaleHeld K N s p v)
    (h1 : Settled K s s') : ScaleHeld K N s' p v :=
  { h with held := fun q hq => (h.held q hq).settled h1 }

end Stable

/-! ## 2. Preparation -/

section Prepare

variable {E : Env F} {f : Launches F} {N : Nat} {s : Sys F} {owned : List GpuBuffer}

/-- The image of a round on the device. -/
structure ImageHeld (K : Kernel F) (N : Nat) (s : Sys F) (l : GpuBuffer) (v : List F) (w h : Nat) :
    Prop where
  holds : Holds K s l v
  length : v.length = 3 * w * h
  bound : 3 * w * h ≤ N

theorem halved1_meets (hc : Computes D E f N) (hs : s.Valid) (scale : Nat) {l : GpuBuffer}
    {v : List F} {w h : Nat} (hl : ImageHeld E.kernel N s l v w h) :
    Meets Prod.fst E.kernel 1 [] (s, owned) (Denote.halved1 E f scale v w h)
      (fun s' r x => r.2 = x.2 ∧ ImageHeld E.kernel N s' r.1 x.1 x.2.1 x.2.2)
      (if scale > 0 then do
        let d ← keep (downsample E l w h)
        pure (d, (w + 1) / 2, (h + 1) / 2)
      else pure (l, w, h)) := by
  unfold Denote.halved1
  by_cases hsc : scale > 0
  · rw [if_pos hsc, if_pos hsc]
    have hh : Held E.kernel s [(l, v)] := by
      intro p hp
      rw [List.mem_singleton.mp hp]
      exact hl.holds
    refine pass_step (j := 0) hh (downsample_meets hc hs hl.holds hl.length hl.bound)
      fun d xs s1 owned1 hs1 hh1 hx => ?_
    exact .pure hs1 ⟨rfl, hh1.get (by simp), hx, halved_bound hl.bound⟩
  · rw [if_neg hsc, if_neg hsc]
    exact (Meets.pure hs ⟨rfl, hl⟩).mono (Nat.zero_le 1) (fun _ h _ => h) fun _ _ _ h => h

theorem prepPass_meets (hc : Computes D E f N) (hs : s.Valid) (rg : RgConst F) {l : GpuBuffer}
    {v : List F} {w h : Nat} (hl : ImageHeld E.kernel N s l v w h) :
    Meets Prod.fst E.kernel 6 [] (s, owned) (Denote.prepRound E f rg v w h)
      (fun s' p x => ScaleHeld E.kernel N s' p x ∧ Holds E.kernel s' l v)
      (prepPass E D rg l w h) := by
  have hw : 3 * (w * h) = 3 * w * h := (Nat.mul_assoc 3 w h).symm
  have hn : 3 * (w * h) ≤ N := by rw [hw]; exact hl.bound
  have hh : Held E.kernel s [(l, v)] := by
    intro p hp
    rw [List.mem_singleton.mp hp]
    exact hl.holds
  unfold prepPass Denote.prepRound
  refine pass_step (j := 5) hh (xybConvert_meets hc hs hl.holds (by rw [hw]; exact hl.length) hn)
    fun x vx s1 owned1 hs1 hh1 lx => ?_
  refine pass_step (j := 4) hh1 (mulGpu_meets hc hs1 (hh1.get (by simp)) (hh1.get (by simp)) lx lx hn)
    fun m vm s2 owned2 hs2 hh2 lm => ?_
  refine pass_step (j := 2) hh2 (blurPass_meets hc hs2 rg (hh2.get (by simp)) lm hn)
    fun b vb s3 owned3 hs3 hh3 lb => ?_
  refine pass_step (j := 0) hh3 (blurPass_meets hc hs3 rg (hh3.get (by simp)) lx hn)
    fun mu vmu s4 owned4 hs4 hh4 lmu => ?_
  refine .pure hs4 ⟨⟨fun p hp => hh4 p ?_, rfl, rfl, lx, lb, lmu, hn⟩, hh4.get (by simp)⟩
  simp at hp ⊢
  tauto

/-- **The scale loop of the preparation**, by induction on the rounds to go. -/
theorem prepLoop_meets (hc : Computes D E f N) (hs : s.Valid) (ho : s.openCmd = none)
    (rg : RgConst F) (left scale : Nat) {l : GpuBuffer} {v : List F} {w h : Nat}
    (hl : ImageHeld E.kernel N s l v w h) {scales : List ScalePrep} {vs : List (Denote.Prep F)}
    (hp : PrepHeld E.kernel N s scales vs) :
    Meets Prod.fst E.kernel 0 [] (s, owned) (Denote.prepLoop E f rg left scale v w h vs)
      (fun s' a x => PrepHeld E.kernel N s' a x) (prepLoop E D rg left scale l w h scales) := by
  have hnil {s : Sys F} : ∀ m ∈ ([] : List Nat), s.Private m → m ∈ ([] : List Nat) := fun _ h _ => h
  induction left generalizing s owned scale l v w h scales vs with
  | zero => exact .pure hs hp
  | succ left ih =>
    unfold prepLoop Denote.prepLoop
    by_cases h8 : w < 8 ∨ h < 8
    · rw [if_pos h8, if_pos h8]
      exact .pure hs hp
    rw [if_neg h8, if_neg h8]
    refine Meets.bind (k := 0) (j := 0) ((halved1_meets hc hs scale hl).closed ho (by decide))
      (fun r x p1 t1 he1 h1 => ?_) hnil
    obtain ⟨s1, owned1⟩ := p1
    obtain ⟨l, w, h⟩ := r
    obtain ⟨v, w', h'⟩ := x
    obtain ⟨e, hl1⟩ := h1
    cases e
    have ho1 : s1.openCmd = none := he1.cmd.trans ho
    have hp1 := hp.stable he1
    have hpass := armedBatch_meets (E := E) (o := owned1) (k := 6) (W := []) he1.valid ho1
      (by decide) (fun s2 t2 h2 => passed_abortOnError (prepPass_meets hc h2.valid rg
        ⟨h2.holds ho1 hl1.holds, hl1.length, hl1.bound⟩))
      (S := fun s' p x => ScaleHeld E.kernel N s' p x ∧ Holds E.kernel s' l v)
      fun s2 s3 p x hse h => ⟨h.1.settled hse, h.2.settled hse⟩
    refine Meets.bind (k := 0) (j := 0) hpass (fun p x p2 t2 he2 h2 => ?_) hnil
    exact ih he2.valid (he2.cmd.trans ho1) (scale + 1) ⟨h2.2, hl1.length, hl1.bound⟩
      (List.rel_append (hp1.stable he2) (.cons h2.1 .nil))

/-- **`prep_gpu` meets its value.** -/
theorem prepGpu_meets (hs : s.Valid) (ho : s.openCmd = none) (lin : List F) (w h : Nat)
    (hc : Computes D E f (3 * w * h)) :
    Meets id E.kernel 0 [] s (Denote.prep D E f lin w h)
      (fun s' img x => PrepHeld E.kernel (3 * w * h) s' img.scales x) (prepGpu E D lin w h) := by
  have hnil {s : Sys F} : ∀ m ∈ ([] : List Nat), s.Private m → m ∈ ([] : List Nat) := fun _ h _ => h
  unfold prepGpu Denote.prep
  refine Meets.bind (k := 0) (j := 0) (assertLen_meets hs lin w h) (fun _ _ s1 t1 he1 h1 => ?_) hnil
  refine Meets.bind (k := 0) (j := 0) (gaussian_meets (D := D) he1.valid)
    (fun rg x s2 t2 he2 hx => ?_) hnil
  rw [← hx]
  have ho2 : s2.openCmd = none := he2.cmd.trans (he1.cmd.trans ho)
  have hbody : Meets Prod.fst E.kernel 0 [] (s2, []) (Denote.prepLoop E f rg 6 0 lin w h [])
      (fun s' a x => PrepHeld E.kernel (3 * w * h) s' a x)
      (do
        let l ← keep (createBufferF32 E lin)
        prepLoop E D rg 6 0 l w h []) := by
    refine Meets.bind (k := 0) (j := 0) (v := some lin)
      (g := fun a => Denote.prepLoop E f rg 6 0 a w h []) (keepUpload_meets he2.valid lin)
      (fun l a p3 t3 he3 ha => ?_) hnil
    obtain ⟨s3, owned3⟩ := p3
    obtain ⟨hl, rfl⟩ := ha
    exact prepLoop_meets hc he3.valid (he3.cmd.trans ho2) rg 6 0 ⟨hl, h1, le_rfl⟩ .nil
  refine Meets.congr (Meets.bind (k := 0) (j := 0) (g := some) (handOver_meets hbody)
    (fun a x s3 t3 he3 ha => .pure he3.valid ha) hnil) ?_
  exact Option.bind_fun_some _

/-- Dropping a prepared image changes nothing in use. -/
theorem dropPrep_post (img : PrepImage) (hs : s.Valid) :
    Post (dropPrep img) s fun r s' t => r = .ok () ∧ Extends E.kernel 0 [] s s' t :=
  dropAll_post img.bufs hs

end Prepare

/-! ## 3. Comparison -/

section Compare

variable {E : Env F} {f : Launches F} {N : Nat} {s : Sys F} {owned : List GpuBuffer}

/-- Two scales of the same size. -/
structure PairHeld (K : Kernel F) (N : Nat) (s : Sys F) (p : ScalePrep × ScalePrep)
    (v : Denote.Prep F × Denote.Prep F) : Prop where
  left : ScaleHeld K N s p.1 v.1
  right : ScaleHeld K N s p.2 v.2
  width : v.2.w = v.1.w
  height : v.2.h = v.1.h

theorem comparePass_meets (hc : Computes D E f N) (hs : s.Valid) (rg : RgConst F)
    {p : ScalePrep × ScalePrep} {v : Denote.Prep F × Denote.Prep F}
    (hp : PairHeld E.kernel N s p v) :
    Meets Prod.fst E.kernel 4 [] (s, owned) (Denote.compareMaps E f rg v.1 v.2)
      (fun s' r x => Holds E.kernel s' r.1 x.1 ∧ Holds E.kernel s' r.2 x.2)
      (comparePass E rg p.1 p.2) := by
  obtain ⟨hl, hr, hw, hh⟩ := hp
  have hn := hl.bound
  have hctx : Held E.kernel s [(p.1.x, v.1.x), (p.1.s, v.1.s), (p.1.mu, v.1.mu), (p.2.x, v.2.x),
      (p.2.s, v.2.s), (p.2.mu, v.2.mu)] := by
    intro q hq
    rcases List.mem_append.mp (show q ∈ [(p.1.x, v.1.x), (p.1.s, v.1.s), (p.1.mu, v.1.mu)] ++
      [(p.2.x, v.2.x), (p.2.s, v.2.s), (p.2.mu, v.2.mu)] from hq) with hq | hq
    · exact hl.held q hq
    · exact hr.held q hq
  have lx := hr.lenX
  have ls := hr.lenS
  have lmu := hr.lenMu
  rw [hw, hh] at lx ls lmu
  unfold comparePass Denote.compareMaps
  rw [hl.cw, hl.ch]
  refine pass_step (j := 3) hctx (mulGpu_meets hc hs (hctx.get (by simp)) (hctx.get (by simp)) hl.lenX
    lx hn) fun m12 vm12 s1 owned1 hs1 hh1 lm12 => ?_
  refine pass_step (j := 1) hh1 (blurPass_meets hc hs1 rg (hh1.get (by simp)) lm12 hn)
    fun s12 vs12 s2 owned2 hs2 hh2 ls12 => ?_
  refine (mapsPass_meets hc hs2 hh2 hn ?_ fun sd ed => (sd, ed)).mono le_rfl (fun _ h _ => h) ?_
  · simp only [List.forall_mem_cons]
    exact ⟨⟨by simp, hl.lenX⟩, ⟨by simp, lx⟩, ⟨by simp, hl.lenMu⟩, ⟨by simp, lmu⟩,
      ⟨by simp, hl.lenS⟩, ⟨by simp, ls⟩, ⟨by simp, ls12⟩, fun _ h => nomatch h⟩
  · rintro s' r both ⟨sd, ed, rfl, hsd, hed, -⟩
    exact ⟨hsd, hed⟩

theorem PairHeld.stable {K : Kernel F} {k : Nat} {s' : Sys F} {t : List (Event F)}
    {p : ScalePrep × ScalePrep} {v : Denote.Prep F × Denote.Prep F} (h : PairHeld K N s p v)
    (he : Extends K k [] s s' t) : PairHeld K N s' p v :=
  ⟨h.left.stable he, h.right.stable he, h.width, h.height⟩

/-- **The loop of the comparison**, by induction on the pairs of scales. -/
theorem compareLoop_meets (hc : Computes D E f N) (hs : s.Valid) (ho : s.openCmd = none)
    (rg : RgConst F) {ps : List (ScalePrep × ScalePrep)}
    {vs : List (Denote.Prep F × Denote.Prep F)} (hp : List.Forall₂ (PairHeld E.kernel N s) ps vs)
    (scales : List (ScaleNorms D)) :
    Meets Prod.fst E.kernel 0 [] (s, owned) (Denote.compareLoop D E f rg vs scales)
      (fun _ a x => a = x) (compareLoop E D rg ps scales) := by
  have hnil {s : Sys F} : ∀ m ∈ ([] : List Nat), s.Private m → m ∈ ([] : List Nat) := fun _ h _ => h
  induction ps generalizing s owned vs scales with
  | nil =>
    cases hp
    exact .pure hs rfl
  | cons p ps ih =>
    cases hp with
    | cons h hrest =>
      rename_i v vs
      obtain ⟨sa, sb⟩ := p
      obtain ⟨va, vb⟩ := v
      unfold compareLoop Denote.compareLoop
      have hpass := armedBatch_meets (E := E) (o := owned) (k := 4) (W := []) hs ho (by decide)
        (fun s2 t2 h2 => passed_abortOnError (comparePass_meets hc h2.valid rg
          (p := (sa, sb)) (v := (va, vb))
          ⟨h.left.opened ho h2, h.right.opened ho h2, h.width, h.height⟩))
        (S := fun s' r x => Holds E.kernel s' r.1 x.1 ∧ Holds E.kernel s' r.2 x.2)
        fun s2 s3 r x hse hr => ⟨hr.1.settled hse, hr.2.settled hse⟩
      refine Meets.bind (k := 0) (j := 0) hpass (fun r both p1 t1 he1 hr => ?_) hnil
      obtain ⟨s1, owned1⟩ := p1
      obtain ⟨sd, ed⟩ := r
      have ho1 : s1.openCmd = none := he1.cmd.trans ho
      dsimp only
      rw [h.left.cw, h.left.ch]
      refine Meets.bind (k := 0) (j := 0) (readNorms_meets he1.valid ho1 hr.1 hr.2 va.w va.h)
        (fun sn y p2 t2 he2 hy => ?_) hnil
      rw [hy]
      exact ih he2.valid (he2.cmd.trans ho1)
        (hrest.imp fun _ _ hp => (hp.stable he1).stable he2) _

/-- **`compare_gpu` meets its value**, for two preparations of one size. -/
theorem compareGpu_meets (hc : Computes D E f N) (hs : s.Valid) (ho : s.openCmd = none)
    {a b : PrepImage} {va vb : List (Denote.Prep F)}
    (hp : List.Forall₂ (PairHeld E.kernel N s) (a.scales.zip b.scales) (va.zip vb)) :
    Meets id E.kernel 0 [] s (Denote.compare D E f va vb) (fun _ a x => a = x)
      (compareGpu E D a b) := by
  unfold compareGpu Denote.compare
  refine Meets.bind (k := 0) (j := 0) (gaussian_meets (D := D) hs) (fun rg x s1 t1 he1 hx => ?_)
    fun _ h _ => h
  rw [← hx]
  exact withOwner_meets (compareLoop_meets hc he1.valid (he1.cmd.trans ho) rg
    (hp.imp fun _ _ h => h.stable he1) []) fun _ _ _ _ _ _ h => h

/-- The pass of the comparison with an image. -/
theorem comparePrepPass_meets (hc : Computes D E f N) (hs : s.Valid) (rg : RgConst F) (si : Nat)
    {os : ScalePrep} {vo : Denote.Prep F} (hp : ScaleHeld E.kernel N s os vo) {l : GpuBuffer}
    {v : List F} {w h : Nat} (hl : ImageHeld E.kernel N s l v w h) :
    Meets Prod.fst E.kernel 11 [] (s, owned)
      ((Denote.halved1 E f si v w h).bind fun x =>
        (Denote.comparePrepMaps E f rg vo x.1 x.2.1 x.2.2).map fun both => (both, x))
      (fun s' r x => ∃ sd ed l', r = (sd, ed, l', x.2.2) ∧ Holds E.kernel s' sd x.1.1 ∧
        Holds E.kernel s' ed x.1.2 ∧ ImageHeld E.kernel N s' l' x.2.1 x.2.2.1 x.2.2.2)
      (comparePrepPass E D rg si os l w h) := by
  unfold comparePrepPass
  refine Meets.bind (k := 1) (j := 10) (halved1_meets hc hs si hl) (fun r x p1 t1 he1 h1 => ?_)
    fun _ h _ => h
  obtain ⟨s1, owned1⟩ := p1
  obtain ⟨l, w, h⟩ := r
  obtain ⟨v, w', h'⟩ := x
  obtain ⟨e, hl1⟩ := h1
  cases e
  have hs1 := he1.valid
  have hp1 := hp.stable he1
  refine Meets.map (R := fun s' r both => ∃ sd ed, r = (sd, ed, l, w, h) ∧
    Holds E.kernel s' sd both.1 ∧ Holds E.kernel s' ed both.2 ∧ ImageHeld E.kernel N s' l v w h) ?_ ?_
  · unfold Denote.comparePrepMaps
    dsimp only
    rw [hp.cw, hp.ch]
    by_cases hwh : vo.w = w ∧ vo.h = h
    · rw [if_pos hwh, if_pos hwh]
      obtain ⟨rfl, rfl⟩ := hwh
      have hn := hp.bound
      have hw : 3 * (vo.w * vo.h) = 3 * vo.w * vo.h := (Nat.mul_assoc 3 vo.w vo.h).symm
      have hh1 : Held E.kernel s1 [(l, v), (os.x, vo.x), (os.s, vo.s), (os.mu, vo.mu)] := by
        intro q hq
        rcases List.mem_cons.mp hq with rfl | hq
        · exact hl1.holds
        · exact hp1.held q hq
      refine pass_step (j := 9) hh1 (xybConvert_meets hc hs1 hl1.holds (by rw [hw]; exact hl1.length)
        hn) fun vx xs s2 owned2 hs2 hh2 lvx => ?_
      refine pass_step (j := 8) hh2 (mulGpu_meets hc hs2 (hh2.get (by simp)) (hh2.get (by simp)) lvx
        lvx hn) fun vm ms s3 owned3 hs3 hh3 lvm => ?_
      refine pass_step (j := 6) hh3 (blurPass_meets hc hs3 rg (hh3.get (by simp)) lvm hn)
        fun vs ss s4 owned4 hs4 hh4 lvs => ?_
      refine pass_step (j := 4) hh4 (blurPass_meets hc hs4 rg (hh4.get (by simp)) lvx hn)
        fun vmu mus s5 owned5 hs5 hh5 lvmu => ?_
      refine pass_step (j := 3) hh5 (mulGpu_meets hc hs5 (hh5.get (by simp)) (hh5.get (by simp)) hp.lenX
        lvx hn) fun m12 ps s6 owned6 hs6 hh6 lm12 => ?_
      refine pass_step (j := 1) hh6 (blurPass_meets hc hs6 rg (hh6.get (by simp)) lm12 hn)
        fun s12 qs s7 owned7 hs7 hh7 ls12 => ?_
      refine (mapsPass_meets hc hs7 hh7 hn ?_ fun sd ed => (sd, ed, l, vo.w, vo.h)).mono le_rfl
        (fun _ h _ => h) ?_
      · simp only [List.forall_mem_cons]
        exact ⟨⟨by simp, hp.lenX⟩, ⟨by simp, lvx⟩, ⟨by simp, hp.lenMu⟩, ⟨by simp, lvmu⟩,
          ⟨by simp, hp.lenS⟩, ⟨by simp, lvs⟩, ⟨by simp, ls12⟩, fun _ h => nomatch h⟩
      · rintro s' r both ⟨sd, ed, rfl, hsd, hed, hh⟩
        exact ⟨sd, ed, rfl, hsd, hed, hh.get (by simp), hl1.length, hl1.bound⟩
    · rw [if_neg hwh, if_neg hwh]
      have hrun (p : Sys F × List GpuBuffer) :
          (fail (.panic assertText) : Guarded F PUnit) p = ⟨.error (.panic assertText), p, []⟩ := rfl
      exact post_stop (hrun _) (Runs.refused ((Extends.refl hs1).mono (Nat.zero_le 10) fun _ h _ => h)
        (Or.inr ⟨_, rfl⟩))
  · rintro s' r both ⟨sd, ed, rfl, hsd, hed, hlev⟩
    exact ⟨sd, ed, l, rfl, hsd, hed, hlev⟩

/-- **The loop of the comparison with an image**, by induction on the scales of the original. -/
theorem comparePrepLoop_meets (hc : Computes D E f N) (hs : s.Valid) (ho : s.openCmd = none)
    (rg : RgConst F) {scales : List ScalePrep} {vs : List (Denote.Prep F)}
    (hp : PrepHeld E.kernel N s scales vs) (si : Nat) {l : GpuBuffer} {v : List F} {w h : Nat}
    (hl : ImageHeld E.kernel N s l v w h) (out : List (ScaleNorms D)) :
    Meets Prod.fst E.kernel 0 [] (s, owned) (Denote.comparePrepLoop D E f rg vs si v w h out)
      (fun _ a x => a = x) (comparePrepLoop E D rg scales si l w h out) := by
  have hnil {s : Sys F} : ∀ m ∈ ([] : List Nat), s.Private m → m ∈ ([] : List Nat) := fun _ h _ => h
  induction scales generalizing s owned vs si l v w h out with
  | nil =>
    cases hp
    exact .pure hs rfl
  | cons p ps ih =>
    cases hp with
    | cons h1 hrest =>
      rename_i vo vs
      unfold comparePrepLoop Denote.comparePrepLoop
      have hpass := armedBatch_meets (E := E) (o := owned) (k := 11) (W := []) hs ho (by decide)
        (fun s2 t2 h2 => passed_abortOnError (comparePrepPass_meets hc h2.valid rg si
          (h1.opened ho h2) ⟨h2.holds ho hl.holds, hl.length, hl.bound⟩))
        (S := fun s' r x => ∃ sd ed l', r = (sd, ed, l', x.2.2) ∧ Holds E.kernel s' sd x.1.1 ∧
          Holds E.kernel s' ed x.1.2 ∧ ImageHeld E.kernel N s' l' x.2.1 x.2.2.1 x.2.2.2) ?_
      · refine Meets.congr (Meets.bind (k := 0) (j := 0) (g := fun x =>
            (Denote.norms D x.1 x.2.2.1 x.2.2.2).bind fun sn =>
              Denote.comparePrepLoop D E f rg vs (si + 1) x.2.1 x.2.2.1 x.2.2.2 (out ++ [sn])) hpass
            (fun r x p1 t1 he1 hr => ?_) hnil) ?_
        · obtain ⟨s1, owned1⟩ := p1
          obtain ⟨sd, ed, l', rfl, hsd, hed, hlev⟩ := hr
          have ho1 : s1.openCmd = none := he1.cmd.trans ho
          refine Meets.bind (k := 0) (j := 0) (readNorms_meets he1.valid ho1 hsd hed x.2.2.1 x.2.2.2)
            (fun sn y p2 t2 he2 hy => ?_) hnil
          rw [hy]
          exact ih he2.valid (he2.cmd.trans ho1)
            (hrest.imp fun _ _ hp => (hp.stable he1).stable he2) (si + 1)
            ⟨hlev.holds.stable he2 List.not_mem_nil, hlev.length, hlev.bound⟩ _
        · rw [Option.bind_assoc]
          refine congrArg _ (funext fun x => ?_)
          rw [Option.bind_map]
          rfl
      · rintro s2 s3 r x hse ⟨sd, ed, l', rfl, hsd, hed, hlev⟩
        exact ⟨sd, ed, l', rfl, hsd.settled hse, hed.settled hse, hlev.holds.settled hse, hlev.length,
          hlev.bound⟩

/-- **`compare_prep_gpu` meets its value.** -/
theorem comparePrepGpu_meets (hs : s.Valid) (ho : s.openCmd = none) {orig : PrepImage}
    {vs : List (Denote.Prep F)} (hp : PrepHeld E.kernel N s orig.scales vs) (vlin : List F)
    (w h : Nat) (hN : 3 * w * h ≤ N) (hc : Computes D E f N) :
    Meets id E.kernel 0 [] s (Denote.comparePrep D E f vs vlin w h) (fun _ a x => a = x)
      (comparePrepGpu E D orig vlin w h) := by
  have hnil {s : Sys F} : ∀ m ∈ ([] : List Nat), s.Private m → m ∈ ([] : List Nat) := fun _ h _ => h
  unfold comparePrepGpu Denote.comparePrep
  refine Meets.bind (k := 0) (j := 0) (assertLen_meets hs vlin w h) (fun _ _ s1 t1 he1 h1 => ?_) hnil
  refine Meets.bind (k := 0) (j := 0) (gaussian_meets (D := D) he1.valid)
    (fun rg x s2 t2 he2 hx => ?_) hnil
  rw [← hx]
  have ho2 : s2.openCmd = none := he2.cmd.trans (he1.cmd.trans ho)
  have hp2 := (hp.stable he1).stable he2
  refine withOwner_meets ?_ fun _ _ _ _ _ _ h => h
  refine Meets.bind (k := 0) (j := 0) (v := some vlin)
    (g := fun a => Denote.comparePrepLoop D E f rg vs 0 a w h []) (keepUpload_meets he2.valid vlin)
    (fun l a p3 t3 he3 ha => ?_) hnil
  obtain ⟨s3, owned3⟩ := p3
  obtain ⟨hl, rfl⟩ := ha
  exact comparePrepLoop_meets hc he3.valid (he3.cmd.trans ho2) rg (hp2.stable he3) 0 ⟨hl, h1, hN⟩ []

end Compare

/-! ## 4. The batch -/

section ScoreBatch

variable {E : Env F} {f : Launches F} {s : Sys F}

theorem scoreBatchLoop_meets {w h : Nat} (hc : Computes D E f (3 * w * h)) (hs : s.Valid)
    (ho : s.openCmd = none) {orig : PrepImage} {vs : List (Denote.Prep F)}
    (hp : PrepHeld E.kernel (3 * w * h) s orig.scales vs) (variants : List (List F))
    (out : List (List (ScaleNorms D))) :
    Meets id E.kernel 0 [] s
      ((variants.mapM fun v => Denote.comparePrep D E f vs v w h).map (out ++ ·))
      (fun _ a x => a = x) (scoreBatchLoop E D orig w h variants out) := by
  induction variants generalizing s out with
  | nil => exact .pure hs (List.append_nil out).symm
  | cons v variants ih =>
    unfold scoreBatchLoop
    refine Meets.congr (Meets.bind (k := 0) (j := 0)
      (g := fun b => (variants.mapM fun v => Denote.comparePrep D E f vs v w h).map (out ++ [b] ++ ·))
      (comparePrepGpu_meets hs ho hp v w h le_rfl hc) (fun a x s1 t1 he1 hx => ?_)
      fun _ h _ => h) ?_
    · rw [hx]
      exact ih he1.valid (he1.cmd.trans ho) (hp.stable he1) _
    · rw [List.mapM_cons]
      cases Denote.comparePrep D E f vs v w h with
      | none => rfl
      | some b =>
        cases variants.mapM fun v => Denote.comparePrep D E f vs v w h with
        | none => rfl
        | some bs => exact congrArg some (List.append_assoc out [b] bs)

/-- **`score_batch_gpu` meets its value.** -/
theorem scoreBatchGpu_meets (hs : s.Valid) (ho : s.openCmd = none) (origLin : List F) (w h : Nat)
    (variants : List (List F)) (hc : Computes D E f (3 * w * h)) :
    Meets id E.kernel 0 [] s (Denote.scoreBatch D E f origLin w h variants) (fun _ a x => a = x)
      (scoreBatchGpu E D origLin w h variants) := by
  unfold scoreBatchGpu Denote.scoreBatch
  refine Meets.bind (k := 0) (j := 0) (prepGpu_meets hs ho origLin w h hc)
    (fun img vs s1 t1 he1 hp => ?_) fun _ h _ => h
  have ho1 : s1.openCmd = none := he1.cmd.trans ho
  have hloop := (scoreBatchLoop_meets hc he1.valid ho1 hp variants []).congr Option.map_id'
  refine post_ensure hloop.run fun r s2 t2 h2 => ?_
  refine post_mono (dropPrep_post (E := E) img h2.ext.valid) fun _ s3 t3 h3 => ?_
  refine ⟨h2.ext.trans h3.2 fun _ h _ => h, h2.sound, fun hn hu => ?_, h2.proper⟩
  exact h2.answers (noFault_append.mp hn).1 hu

end ScoreBatch

end Ssimulacra2
