/-
  File:      Ssimulacra2/Vulkan/Calls.lean
  Subject:   A program that calls the engine, again and again, on one context.

  A client holds the context and the images it has prepared and not dropped. `Client.call` is one
  call, with whatever the driver makes of it; `Reaches` is any sequence of calls from a fresh
  context. Every call, failed or not, keeps the client `Sound`: no batch is open and the images
  hold what they were prepared from.
-/
import Ssimulacra2.Blur.Gaussian
import Ssimulacra2.Vulkan.Fits
import Ssimulacra2.Vulkan.Healthy

namespace Ssimulacra2

open Fallible Prog

variable {F : Type} {D : Type} [F32 F] [F64 D] [Convert F D]

/-! ## 1. Clients -/

/-- A prepared image, and what it was prepared from. -/
structure Prepared (F : Type) where
  img : PrepImage
  lin : List F
  w : Nat
  h : Nat

/-- A context and the prepared images that are alive. -/
structure Client (F : Type) where
  sys : Sys F
  images : List (Prepared F)

/-- A client that has made no call. -/
def Client.fresh (F : Type) : Client F := ⟨.fresh F, []⟩

/-- The calls. An image to drop is named by its place. -/
inductive Request (F : Type) where
  | compute (lin1 lin2 : List F) (w h : Nat)
  | prep (lin : List F) (w h : Nat)
  | compare (a b : Prepared F)
  | comparePrep (a : Prepared F) (vlin : List F) (w h : Nat)
  | scoreBatch (lin : List F) (w h : Nat) (variants : List (List F))
  | drop (i : Nat)

/-- The calls the client can make, on images of at most `N` samples: an image is alive, and two
    images to compare have one size. -/
def Request.Legal (N : Nat) (c : Client F) : Request F → Prop
  | compute _ _ w h => 3 * w * h ≤ N
  | prep _ w h => 3 * w * h ≤ N
  | compare a b => a ∈ c.images ∧ b ∈ c.images ∧ a.w = b.w ∧ a.h = b.h
  | comparePrep a _ w h => a ∈ c.images ∧ 3 * w * h ≤ N
  | scoreBatch _ w h _ => 3 * w * h ≤ N
  | drop i => i < c.images.length

/-- What a call came to: the norms it answered, and its trace. -/
structure Outcome (F : Type) (D : Type) where
  answer : Except GpuErr (List (List (ScaleNorms D)))
  trace : List (Event F)

/-- The outcome of a run. -/
def outcome {σ α : Type} (o : Ran σ GpuErr (Event F) α) (g : α → List (List (ScaleNorms D))) :
    Outcome F D := ⟨o.result.map g, o.trace⟩

variable (E : Env F) (D)

/-- **One call.** -/
def Client.call (c : Client F) : Request F → Client F × Outcome F D
  | .compute lin1 lin2 w h =>
      let o := computeSsimulacra2Gpu E D lin1 lin2 w h c.sys
      (⟨o.state, c.images⟩, outcome o fun x => [x])
  | .prep lin w h =>
      let o := prepGpu E D lin w h c.sys
      let images := match o.result with
        | .ok img => ⟨img, lin, w, h⟩ :: c.images
        | .error _ => c.images
      (⟨o.state, images⟩, outcome o fun _ => [])
  | .compare a b =>
      let o := compareGpu E D a.img b.img c.sys
      (⟨o.state, c.images⟩, outcome o fun x => [x])
  | .comparePrep a vlin w h =>
      let o := comparePrepGpu E D a.img vlin w h c.sys
      (⟨o.state, c.images⟩, outcome o fun x => [x])
  | .scoreBatch lin w h variants =>
      let o := scoreBatchGpu E D lin w h variants c.sys
      (⟨o.state, c.images⟩, outcome o fun x => x)
  | .drop i =>
      let o := each dropPrep ((c.images[i]?).toList.map Prepared.img) c.sys
      (⟨o.state, c.images.eraseIdx i⟩, outcome o fun _ => [])

/-- **Any sequence of calls**, each of which may have failed. -/
inductive Reaches (N : Nat) : Client F → Prop
  | fresh : Reaches N (.fresh F)
  | call {c : Client F} {q : Request F} (hc : Reaches N c) (hq : q.Legal N c) :
      Reaches N (c.call D E q).1

/-- The images of a pair prepared, compared and dropped. -/
def prepCompare (lin1 lin2 : List F) (w h : Nat) : Gpu F (List (ScaleNorms D)) := do
  let a ← prepGpu E D lin1 w h
  ensure (dropPrep a) do
    let b ← prepGpu E D lin2 w h
    ensure (dropPrep b) (compareGpu E D a b)

/-- An image prepared, compared with another one and dropped. -/
def prepComparePrep (lin : List F) (w h : Nat) (vlin : List F) (vw vh : Nat) :
    Gpu F (List (ScaleNorms D)) := do
  let a ← prepGpu E D lin w h
  ensure (dropPrep a) (comparePrepGpu E D a vlin vw vh)

/-- **The same call by itself**: on a fresh context, where the images it needs are prepared. -/
def Request.alone : Request F → Outcome F D
  | compute lin1 lin2 w h => outcome (computeSsimulacra2Gpu E D lin1 lin2 w h (.fresh F)) fun x => [x]
  | prep lin w h => outcome (prepGpu E D lin w h (.fresh F)) fun _ => []
  | compare a b => outcome (prepCompare D E a.lin b.lin a.w a.h (.fresh F)) fun x => [x]
  | comparePrep a vlin w h =>
      outcome (prepComparePrep D E a.lin a.w a.h vlin w h (.fresh F)) fun x => [x]
  | scoreBatch lin w h variants => outcome (scoreBatchGpu E D lin w h variants (.fresh F)) fun x => x
  | drop _ => ⟨.ok [], []⟩

/-! ## 2. What a call computes -/

/-- The value of a call. -/
def Request.value (f : Launches F) : Request F → Option (List (List (ScaleNorms D)))
  | compute lin1 lin2 w h => (Denote.compute D E f lin1 lin2 w h).map fun x => [x]
  | prep lin w h => (Denote.prep D E f lin w h).map fun _ => []
  | compare a b => (Denote.compute D E f a.lin b.lin a.w a.h).map fun x => [x]
  | comparePrep a vlin w h => ((Denote.prep D E f a.lin a.w a.h).bind fun ps =>
      Denote.comparePrep D E f ps vlin w h).map fun x => [x]
  | scoreBatch lin w h variants => Denote.scoreBatch D E f lin w h variants
  | drop _ => some []

variable {D} {E}

/-- **An outcome answers a value**: an answer is the value; without a driver error there is one,
    unless there is no value; an error is never about a batch. -/
structure Outcome.Answers (o : Outcome F D) (v : Option (List (List (ScaleNorms D)))) : Prop where
  sound : ∀ x, o.answer = .ok x → v = some x
  answers : NoFault o.trace → (∃ x, o.answer = .ok x) ∨
    v = none ∧ ∃ e, o.answer = .error e ∧ e.Refusal
  proper : ∀ e, o.answer = .error e → e.Proper

section Meets

variable {f : Launches F} {N : Nat} {s : Sys F}

omit [F64 D] [Convert F D] in
/-- With no batch open a run that meets a value answers it. -/
theorem outcome_answers {α V : Type} {K : Kernel F} {v : Option V} {R : Sys F → α → V → Prop}
    {m : Gpu F α} {g : α → List (List (ScaleNorms D))} {k : V → List (List (ScaleNorms D))}
    (ho : s.openCmd = none) (h : Meets id K 0 [] s v R m) (hg : ∀ s a x, R s a x → g a = k x) :
    (outcome (m s) g : Outcome F D).Answers (v.map k) := by
  have hr : Runs K 0 [] s v R (m s).result (m s).state (m s).trace := h
  unfold outcome
  cases hm : (m s).result with
  | ok a =>
    rw [hm] at hr
    obtain ⟨x, rfl, hx⟩ := hr.sound a rfl
    refine ⟨fun y hy => ?_, fun _ => Or.inl ⟨_, rfl⟩, nofun⟩
    cases hy
    rw [hg _ a x hx]
    rfl
  | error e =>
    rw [hm] at hr
    refine ⟨nofun, fun hn => ?_, fun e' he => ?_⟩
    · rcases hr.answers hn (Sys.tracked_closed ho) with ⟨a, ha⟩ | ⟨rfl, e', he, href⟩
      · cases ha
      · cases he
        exact Or.inr ⟨rfl, e, rfl, href⟩
    · cases he
      exact hr.proper e rfl

theorem Computes.mono {M : Nat} (hc : Computes D E f N) (hM : M ≤ N) : Computes D E f M :=
  ⟨fun _ _ _ _ h => hc.downsample _ _ _ _ (le_trans h hM),
    fun _ _ _ _ h => hc.mul _ _ _ _ (le_trans h hM), fun _ _ _ h => hc.xyb _ _ _ (le_trans h hM),
    fun _ _ _ _ _ _ h => hc.blurH _ _ _ _ _ _ (le_trans h hM),
    fun _ _ _ _ _ _ h => hc.blurV _ _ _ _ _ _ (le_trans h hM),
    fun _ _ _ _ _ _ _ _ _ _ h => hc.maps _ _ _ _ _ _ _ _ _ _ (le_trans h hM)⟩

theorem PrepHeld.mono {K : Kernel F} {M : Nat} {scales : List ScalePrep}
    {vs : List (Denote.Prep F)} (h : PrepHeld K M s scales vs) (hM : M ≤ N) :
    PrepHeld K N s scales vs := h.imp fun _ _ hp => { hp with bound := le_trans hp.bound hM }

/-- The scales of two preparations from one size, pair by pair. -/
theorem pairHeld {K : Kernel F} {scales1 scales2 : List ScalePrep} {ps qs : List (Denote.Prep F)}
    (hp : PrepHeld K N s scales1 ps) (hq : PrepHeld K N s scales2 qs)
    (hsize : List.Forall₂ (fun p q : Denote.Prep F => q.w = p.w ∧ q.h = p.h) ps qs) :
    List.Forall₂ (PairHeld K N s) (scales1.zip scales2) (ps.zip qs) := by
  induction hsize generalizing scales1 scales2 with
  | nil =>
    cases hp
    exact .nil
  | cons h _ ih =>
    cases hp with
    | cons hp hps =>
      cases hq with
      | cons hq hqs => exact .cons ⟨hp, hq, h.1, h.2⟩ (ih hps hqs)

/-- An image dropped at the end of a scope. -/
theorem ensureDrop_meets {α V : Type} {v : Option V} {R : Sys F → α → V → Prop} {m : Gpu F α}
    (img : PrepImage) (h : Meets id E.kernel 0 [] s v R m)
    (hR : ∀ s1 s2 t a x, Extends E.kernel 0 [] s1 s2 t → R s1 a x → R s2 a x) :
    Meets id E.kernel 0 [] s v R (ensure (dropPrep img) m) := by
  refine post_ensure h.run fun r s2 t2 h2 => ?_
  refine post_mono (dropPrep_post (E := E) img h2.ext.valid) fun _ s3 t3 h3 => ?_
  refine ⟨h2.ext.trans h3.2 fun _ h _ => h, fun a ha => ?_, fun hn hu => ?_, h2.proper⟩
  · obtain ⟨x, hx, hr⟩ := h2.sound a ha
    exact ⟨x, hx, hR _ _ _ _ _ h3.2 hr⟩
  · exact h2.answers (noFault_append.mp hn).1 hu

/-- **Two images prepared, compared and dropped.** -/
theorem prepCompare_meets (hs : s.Valid) (ho : s.openCmd = none) (lin1 lin2 : List F) (w h : Nat)
    (hc : Computes D E f (3 * w * h)) :
    Meets id E.kernel 0 [] s (Denote.compute D E f lin1 lin2 w h) (fun _ a x => a = x)
      (prepCompare D E lin1 lin2 w h) := by
  rw [Denote.compute_compare]
  unfold prepCompare
  refine Meets.bind (k := 0) (j := 0) (prepGpu_meets hs ho lin1 w h hc).known
    (fun a ps s1 t1 he1 h1 => ensureDrop_meets a ?_ fun _ _ _ _ _ _ h => h) fun _ h _ => h
  have ho1 : s1.openCmd = none := he1.cmd.trans ho
  refine Meets.bind (k := 0) (j := 0) (prepGpu_meets he1.valid ho1 lin2 w h hc).known
    (fun b qs s2 t2 he2 h2 => ensureDrop_meets b ?_ fun _ _ _ _ _ _ h => h) fun _ h _ => h
  exact compareGpu_meets hc he2.valid (he2.cmd.trans ho1) (pairHeld (h1.1.stable he2) h2.1
    (Denote.prep_sizes E f lin1 lin2 w h h1.2 h2.2))

/-- **An image prepared, compared with another one and dropped.** -/
theorem prepComparePrep_meets (hs : s.Valid) (ho : s.openCmd = none) (lin : List F) (w h : Nat)
    (vlin : List F) (vw vh : Nat) (hN : 3 * w * h ≤ N) (hvN : 3 * vw * vh ≤ N)
    (hc : Computes D E f N) :
    Meets id E.kernel 0 [] s ((Denote.prep D E f lin w h).bind fun ps =>
      Denote.comparePrep D E f ps vlin vw vh) (fun _ a x => a = x)
      (prepComparePrep D E lin w h vlin vw vh) := by
  unfold prepComparePrep
  refine Meets.bind (k := 0) (j := 0) (prepGpu_meets hs ho lin w h (hc.mono hN))
    (fun a ps s1 t1 he1 h1 => ensureDrop_meets a ?_ fun _ _ _ _ _ _ h => h) fun _ h _ => h
  exact comparePrepGpu_meets he1.valid (he1.cmd.trans ho) (h1.mono hN) vlin vw vh hvN hc

end Meets

/-! ## 3. Sound clients -/

/-- **The invariant of a client**: no batch is open, and every image alive holds on the device what
    its preparation is to give. -/
structure Client.Sound (D : Type) [F64 D] [Convert F D] (E : Env F) (f : Launches F) (N : Nat)
    (c : Client F) : Prop where
  valid : c.sys.Valid
  closed : c.sys.openCmd = none
  images : ∀ a ∈ c.images, 3 * a.w * a.h ≤ N ∧
    ∃ ps, Denote.prep D E f a.lin a.w a.h = some ps ∧ PrepHeld E.kernel N c.sys a.img.scales ps

section Sound

variable {f : Launches F} {N : Nat} {c : Client F}

omit [F32 F] in
theorem Sys.fresh_valid : (Sys.fresh F).Valid where
  cmd_lt _ h := nomatch h
  pending _ h := absurd h List.not_mem_nil
  sets := ⟨[], rfl, fun _ => Nat.zero_le 1⟩
  handles := List.nodup_nil
  handle_lt _ h := absurd h List.not_mem_nil
  pipes _ _ h := nomatch h
  staging _ h := nomatch h

theorem Client.fresh_sound : (Client.fresh F).Sound D E f N :=
  ⟨Sys.fresh_valid, rfl, fun _ h => absurd h List.not_mem_nil⟩

/-- A step of the context keeps the images. -/
theorem Client.Sound.step (h : c.Sound D E f N) {s' : Sys F} {t : List (Event F)}
    (he : Extends E.kernel 0 [] c.sys s' t) {images : List (Prepared F)}
    (hi : ∀ a ∈ images, a ∈ c.images) : (⟨s', images⟩ : Client F).Sound D E f N where
  valid := he.valid
  closed := he.cmd.trans h.closed
  images a ha := by
    obtain ⟨hN, ps, hps, hh⟩ := h.images a (hi a ha)
    exact ⟨hN, ps, hps, hh.stable he⟩

/-- What a call leaves behind: the next client, and an outcome. -/
structure Called (D : Type) [F64 D] [Convert F D] (E : Env F) (f : Launches F) (N : Nat)
    (c : Client F) (q : Request F) (r : Client F × Outcome F D) : Prop where
  sound : r.1.Sound D E f N
  ext : Extends E.kernel 0 [] c.sys r.1.sys r.2.trace
  answers : r.2.Answers (q.value D E f)

/-- **One call keeps a sound client sound**, and answers the value of the request. -/
theorem Client.Sound.call (h : c.Sound D E f N) (hc : Computes D E f N) {q : Request F}
    (hq : q.Legal N c) : Called D E f N c q (c.call D E q) := by
  cases q with
  | compute lin1 lin2 w h' =>
    have hm := computeSsimulacra2Gpu_meets h.valid h.closed lin1 lin2 w h' (hc.mono hq)
    exact ⟨h.step hm.run.ext fun _ h => h, hm.run.ext, outcome_answers h.closed hm fun _ a x e => by
      rw [e]⟩
  | prep lin w h' =>
    have hm := prepGpu_meets h.valid h.closed lin w h' (hc.mono hq)
    refine ⟨?_, hm.run.ext, outcome_answers h.closed hm fun _ _ _ _ => rfl⟩
    have hr : Runs E.kernel 0 [] c.sys (Denote.prep D E f lin w h') (fun s' img x =>
      PrepHeld E.kernel (3 * w * h') s' img.scales x) (prepGpu E D lin w h' c.sys).result
        (prepGpu E D lin w h' c.sys).state (prepGpu E D lin w h' c.sys).trace := hm
    unfold Client.call
    dsimp only
    cases hres : (prepGpu E D lin w h' c.sys).result with
    | error e => exact h.step hr.ext fun _ h => h
    | ok img =>
      have hs := h.step hr.ext fun _ h => h
      refine ⟨hs.valid, hs.closed, fun a ha => ?_⟩
      rcases List.mem_cons.mp ha with rfl | ha
      · obtain ⟨ps, hps, hh⟩ := hr.sound img hres
        exact ⟨hq, ps, hps, PrepHeld.mono hh hq⟩
      · exact hs.images a ha
  | compare a b =>
    obtain ⟨ha, hb, hw, hh⟩ := hq
    obtain ⟨-, ps, hps, hpa⟩ := h.images a ha
    obtain ⟨-, qs, hqs, hqb⟩ := h.images b hb
    rw [← hw, ← hh] at hqs
    have hm := compareGpu_meets hc h.valid h.closed
      (pairHeld hpa hqb (Denote.prep_sizes E f a.lin b.lin a.w a.h hps hqs))
    have e : Denote.compute D E f a.lin b.lin a.w a.h = Denote.compare D E f ps qs := by
      rw [Denote.compute_compare, hps, Option.bind_some, hqs, Option.bind_some]
    rw [← e] at hm
    exact ⟨h.step hm.run.ext fun _ h => h, hm.run.ext, outcome_answers h.closed hm fun _ a x e => by
      rw [e]⟩
  | comparePrep a vlin w h' =>
    obtain ⟨ha, hN⟩ := hq
    obtain ⟨-, ps, hps, hpa⟩ := h.images a ha
    have hm := comparePrepGpu_meets h.valid h.closed hpa vlin w h' hN hc
    have e : ((Denote.prep D E f a.lin a.w a.h).bind fun ps =>
        Denote.comparePrep D E f ps vlin w h') = Denote.comparePrep D E f ps vlin w h' := by
      rw [hps, Option.bind_some]
    rw [← e] at hm
    exact ⟨h.step hm.run.ext fun _ h => h, hm.run.ext, outcome_answers h.closed hm fun _ a x e => by
      rw [e]⟩
  | scoreBatch lin w h' variants =>
    have hm := scoreBatchGpu_meets h.valid h.closed lin w h' variants (hc.mono hq)
    refine ⟨h.step hm.run.ext fun _ h => h, hm.run.ext, ?_⟩
    have ha := outcome_answers (g := fun x => x) (k := fun x => x) h.closed hm fun _ a x e => e
    rwa [Option.map_id'] at ha
  | drop i =>
    have hp : Post (each dropPrep ((c.images[i]?).toList.map Prepared.img)) c.sys fun r s' t =>
        r = .ok () ∧ Extends E.kernel 0 [] c.sys s' t := by
      cases c.images[i]? with
      | none => exact post_pure ⟨rfl, Extends.refl h.valid⟩
      | some a =>
        refine post_bind (dropPrep_post (E := E) a.img h.valid) (fun _ s1 t1 h1 => ?_)
          fun e s1 t1 h1 => nomatch h1.1
        exact post_pure ⟨rfl, by simpa using h1.2⟩
    refine ⟨h.step hp.2 fun a ha => List.mem_of_mem_eraseIdx ha, hp.2, ?_⟩
    have hans : (c.call D E (.drop i)).2.answer = .ok [] := by
      show Except.map _ (each dropPrep ((c.images[i]?).toList.map Prepared.img) c.sys).result = _
      rw [hp.1]
      rfl
    refine ⟨fun x hx => ?_, fun _ => Or.inl ⟨_, hans⟩, fun e he => ?_⟩
    · rw [hans] at hx
      cases hx
      rfl
    · rw [hans] at he
      cases he

/-- **Every client that can be reached is sound.** -/
theorem Reaches.sound (hc : Computes D E f N) (hr : Reaches D E N c) : c.Sound D E f N := by
  induction hr with
  | fresh => exact Client.fresh_sound
  | call _ hq ih => exact (ih.call hc hq).sound

end Sound

/-! ## 4. A device -/

/-- A device that multiplies, and clears the outputs of the other kernels. -/
def clearing : Env F where
  sched _ := none
  junk _ := []
  kernel
    | .downsampleBox2, _, _, [src, _] => [src, []]
    | .mulPlanes, _, _, [a, b, _] => [a, b, mul a b]
    | .xybPositive, _, _, [linear, _] => [linear, []]
    | .blurH, _, _, [input, _, rg] => [input, [], rg]
    | .blurV, _, _, [temp, _, rg] => [temp, [], rg]
    | .mapsCombine, _, _, [x1, x2, mu1, mu2, s11, s22, s12, _, _] =>
        [x1, x2, mu1, mu2, s11, s22, s12, [], []]
    | _, _, _, bufs => bufs
  maxGroupsX := 65535
  asU32 n := n % 2 ^ 32
  stack := []

/-- Its kernels. -/
def clearingLaunches : Launches F where
  downsample _ _ _ := []
  mul _ a b := mul a b
  xyb _ _ := []
  blurH _ _ _ _ _ := []
  blurV _ _ _ _ _ := []
  maps _ _ _ _ _ _ _ _ := ([], [])

theorem clearing_computes (N : Nat) :
    Computes D (clearing : Env F) clearingLaunches N where
  downsample _ _ _ _ _ _ _ := rfl
  mul _ _ _ _ _ _ _ _ := rfl
  xyb _ _ _ _ _ _ := rfl
  blurH _ _ _ _ _ _ _ _ _ _ := rfl
  blurV _ _ _ _ _ _ _ _ _ _ := rfl
  maps _ _ _ _ _ _ _ _ _ _ _ _ := rfl

/-! ## 5. A failure never poisons the context -/

/-- The same device under another schedule of errors, with other memory. -/
def Env.on (E : Env F) (sched : Nat → Option String) (junk : Nat → List F) : Env F :=
  { E with sched := sched, junk := junk }

/-- Two outcomes answer the same, or both are refusals. -/
def Outcome.Same (o o' : Outcome F D) : Prop :=
  (∃ x, o.answer = .ok x ∧ o'.answer = .ok x) ∨
    (∃ e, o.answer = .error e ∧ e.Refusal) ∧ ∃ e, o'.answer = .error e ∧ e.Refusal

omit [F32 F] [F64 D] [Convert F D] in
theorem Outcome.Answers.same {o o' : Outcome F D} {v : Option (List (List (ScaleNorms D)))}
    (h : o.Answers v) (h' : o'.Answers v) (hn : NoFault o.trace) (hn' : NoFault o'.trace) :
    o.Same o' := by
  rcases h.answers hn with ⟨x, hx⟩ | ⟨rfl, he⟩
  · rcases h'.answers hn' with ⟨y, hy⟩ | ⟨rfl, -⟩
    · have e := (h.sound x hx).symm.trans (h'.sound y hy)
      cases e
      exact Or.inl ⟨x, hx, hy⟩
    · cases h.sound x hx
  · rcases h'.answers hn' with ⟨y, hy⟩ | ⟨-, he'⟩
    · cases h'.sound y hy
    · exact Or.inr ⟨he, he'⟩

section Poison

variable {f : Launches F} {N : Nat} {c : Client F}

theorem Computes.on (hc : Computes D E f N) (sched : Nat → Option String) (junk : Nat → List F) :
    Computes D (E.on sched junk) f N :=
  ⟨hc.downsample, hc.mul, hc.xyb, hc.blurH, hc.blurV, hc.maps⟩

/-- The values do not depend on the schedule. -/
theorem comparePrep_on (sched : Nat → Option String) (junk : Nat → List F) :
    Denote.comparePrep D (E.on sched junk) f = Denote.comparePrep D E f := by
  have hloop (rg : RgConst F) (scales : List (Denote.Prep F)) (si : Nat) (l : List F) (w h : Nat)
      (out : List (ScaleNorms D)) : Denote.comparePrepLoop D (E.on sched junk) f rg scales si l w h out =
        Denote.comparePrepLoop D E f rg scales si l w h out := by
    induction scales generalizing si l w h out with
    | nil => rfl
    | cons o scales ih =>
      unfold Denote.comparePrepLoop
      simp only [ih]
      rfl
  funext ps vlin w h
  unfold Denote.comparePrep
  simp only [hloop]

theorem scoreBatch_on (sched : Nat → Option String) (junk : Nat → List F) :
    Denote.scoreBatch D (E.on sched junk) f = Denote.scoreBatch D E f := by
  unfold Denote.scoreBatch
  rw [comparePrep_on]
  rfl

/-- The same call by itself answers the same value, on any schedule. -/
theorem alone_answers (hc : Computes D E f N) (hs : c.Sound D E f N) {q : Request F}
    (hq : q.Legal N c) (sched : Nat → Option String) (junk : Nat → List F) :
    (q.alone D (E.on sched junk)).Answers (q.value D E f) := by
  have hc' := hc.on sched junk
  have hv : (Sys.fresh F).Valid := Sys.fresh_valid
  have ho : (Sys.fresh F).openCmd = none := rfl
  cases q with
  | compute lin1 lin2 w h =>
    exact outcome_answers ho (computeSsimulacra2Gpu_meets hv ho lin1 lin2 w h (hc'.mono hq))
      fun _ a x e => by rw [e]
  | prep lin w h =>
    exact outcome_answers ho (prepGpu_meets hv ho lin w h (hc'.mono hq)) fun _ _ _ _ => rfl
  | compare a b =>
    exact outcome_answers ho (prepCompare_meets hv ho a.lin b.lin a.w a.h
      (hc'.mono (hs.images a hq.1).1)) fun _ a x e => by rw [e]
  | comparePrep a vlin w h =>
    have hm := prepComparePrep_meets hv ho a.lin a.w a.h vlin w h (hs.images a hq.1).1 hq.2 hc'
    rw [comparePrep_on] at hm
    exact outcome_answers ho hm fun _ a x e => by rw [e]
  | scoreBatch lin w h variants =>
    have ha := outcome_answers (g := fun x => x) (k := fun x => x) ho
      (scoreBatchGpu_meets hv ho lin w h variants (hc'.mono hq)) fun _ a x e => e
    rwa [Option.map_id', scoreBatch_on] at ha
  | drop i =>
    refine ⟨fun x hx => ?_, fun _ => Or.inl ⟨_, rfl⟩, nofun⟩
    cases hx
    rfl

/-- **A failed call never poisons the context**: whatever calls were made before and wherever they
    failed, the next call leaves no batch open, never meets an open or a missing batch, records
    only into command buffers it began, closes only batches it opened, and answers what it answers
    on a fresh context. -/
theorem call_never_poisoned (hc : Computes D E f N) (hr : Reaches D E N c) {q : Request F}
    (hq : q.Legal N c) :
    (c.call D E q).1.sys.batch = none ∧
    (∀ e, (c.call D E q).2.answer = .error e → e ≠ .nestedBatch ∧ e ≠ .noBatchOpen) ∧
    (∀ cb cmd, Event.recorded cb cmd ∈ (c.call D E q).2.trace →
      Event.begun cb ∈ (c.call D E q).2.trace) ∧
    (∀ cb, Event.closed cb ∈ (c.call D E q).2.trace →
      Event.opened cb ∈ (c.call D E q).2.trace) ∧
    (NoFault (c.call D E q).2.trace → ∀ sched junk,
      NoFault (q.alone D (E.on sched junk)).trace →
        (c.call D E q).2.Same (q.alone D (E.on sched junk))) := by
  have hs := hr.sound hc
  obtain ⟨hsound, hext, hans⟩ := hs.call hc hq
  refine ⟨Option.map_eq_none_iff.mp hsound.closed, hans.proper, fun cb cmd h => ?_, hext.closes,
    fun hn sched junk hn' => ?_⟩
  · rcases hext.records cb cmd h with e | e
    · rw [hs.closed] at e
      cases e
    · exact e
  · exact hans.same (alone_answers hc hs hq sched junk) hn hn'

/-- A device that fails in the middle of the first call, and a second call. -/
theorem call_never_poisoned_second :
    let E : Env ℝ := { clearing with sched := fun n => if n = 40 then some "lost" else none }
    let q : Request ℝ := .compute (.replicate 192 0) (.replicate 192 1) 8 8
    let c := ((Client.fresh ℝ).call ℝ E q).1
    (c.call ℝ E q).1.sys.batch = none ∧
    (∀ e, (c.call ℝ E q).2.answer = .error e → e ≠ .nestedBatch ∧ e ≠ .noBatchOpen) ∧
    (∀ cb cmd, Event.recorded cb cmd ∈ (c.call ℝ E q).2.trace →
      Event.begun cb ∈ (c.call ℝ E q).2.trace) ∧
    (∀ cb, Event.closed cb ∈ (c.call ℝ E q).2.trace → Event.opened cb ∈ (c.call ℝ E q).2.trace) ∧
    (NoFault (c.call ℝ E q).2.trace → ∀ sched junk,
      NoFault (q.alone ℝ (E.on sched junk)).trace →
        (c.call ℝ E q).2.Same (q.alone ℝ (E.on sched junk))) := by
  intro E q c
  have hc : Computes ℝ E clearingLaunches 192 := (clearing_computes 192).on E.sched E.junk
  have hq (c : Client ℝ) : q.Legal 192 c := le_refl 192
  have hr : Reaches ℝ E 192 c := .call .fresh (hq _)
  clear_value c q
  exact call_never_poisoned hc hr (hq c)

end Poison

/-! ## 6. The cached batch -/

/-- **A program always ends in `P`**: on any context a client can reach, on any schedule, when no
    driver call fails. -/
def Always (D : Type) [F64 D] [Convert F D] (E : Env F) (N : Nat) {α : Type}
    (m : Env F → Gpu F α) (P : Except GpuErr α → Prop) : Prop :=
  ∀ sched junk (c : Client F), Reaches D (E.on sched junk) N c →
    NoFault (m (E.on sched junk) c.sys).trace → P (m (E.on sched junk) c.sys).result

/-- An error the engine decided on. -/
def Refused {α : Type} (r : Except GpuErr α) : Prop := ∃ e, r = .error e ∧ e.Refusal

section Cached

variable {f : Launches F} {N : Nat} {c : Client F}

/-- A program that meets a value in every sound context always answers it. -/
theorem always_of_meets {α : Type} (hc : Computes D E f N) {m : Env F → Gpu F α} {v : Option α}
    (hm : ∀ sched junk (s : Sys F), s.Valid → s.openCmd = none →
      Meets id E.kernel 0 [] s v (fun _ a x => a = x) (m (E.on sched junk))) :
    (∀ x, v = some x → Always D E N m (· = .ok x)) ∧ (v = none → Always D E N m Refused) := by
  have hrun (sched : Nat → Option String) (junk : Nat → List F) {c : Client F}
      (hr : Reaches D (E.on sched junk) N c) (hn : NoFault (m (E.on sched junk) c.sys).trace) :
      (∃ a, (m (E.on sched junk) c.sys).result = .ok a ∧ v = some a) ∨
        v = none ∧ Refused (m (E.on sched junk) c.sys).result := by
    have hs := hr.sound (hc.on sched junk)
    have h : Runs E.kernel 0 [] c.sys v (fun _ a x => a = x) (m (E.on sched junk) c.sys).result
      (m (E.on sched junk) c.sys).state (m (E.on sched junk) c.sys).trace :=
        hm sched junk c.sys hs.valid hs.closed
    rcases h.answers hn (Sys.tracked_closed hs.closed) with ⟨a, ha⟩ | hv
    · obtain ⟨x, hx, rfl⟩ := h.sound a ha
      exact Or.inl ⟨a, ha, hx⟩
    · exact Or.inr hv
  constructor
  · rintro x rfl sched junk c hr hn
    rcases hrun sched junk hr hn with ⟨a, ha, hx⟩ | ⟨hv, -⟩
    · cases hx
      exact ha
    · cases hv
  · rintro rfl sched junk c hr hn
    rcases hrun sched junk hr hn with ⟨a, -, hx⟩ | ⟨-, h⟩
    · cases hx
    · exact h

theorem prepCompare_fine (hE : E.Healthy) (lin1 lin2 : List F) (w h : Nat) :
    Emits Event.Fine (prepCompare D E lin1 lin2 w h) :=
  emits_bind (prepGpu_fine hE _ _ _) fun _ => emits_ensure (emits_each destroyBuffer_fine _)
    (emits_bind (prepGpu_fine hE _ _ _) fun _ => emits_ensure (emits_each destroyBuffer_fine _)
      (compareGpu_fine hE _ _))

/-- **The cached batch never changes a score**: without a driver error element `i` of the batch is
    what the single shot of the original and variant `i` answers, and what the comparison of their
    preparations answers, on any context; or all of them are refused, which takes a grid the device
    does not have, or weights that do not exist. -/
theorem scoreBatchGpu_parity (hc : Computes D E f N) {w h : Nat} (hN : 3 * w * h ≤ N)
    {orig : List F} {variants : List (List F)} (ho : orig.length = 3 * w * h)
    (hv : ∀ v ∈ variants, v.length = 3 * w * h) (hr : Reaches D E N c)
    (hn : NoFault (scoreBatchGpu E D orig w h variants c.sys).trace) :
    (∃ outs, (scoreBatchGpu E D orig w h variants c.sys).result = .ok outs ∧
      List.Forall₂ (fun v out =>
        Always D E N (fun E => computeSsimulacra2Gpu E D orig v w h) (· = .ok out) ∧
        Always D E N (fun E => prepCompare D E orig v w h) (· = .ok out)) variants outs) ∨
    Refused (scoreBatchGpu E D orig w h variants c.sys).result ∧
      (Denote.Fits E N → createRecursiveGaussian F (F64.lit 1.5 : D) = none) ∧ ∀ v ∈ variants,
      Always D E N (fun E => computeSsimulacra2Gpu E D orig v w h) Refused ∧
      Always D E N (fun E => prepCompare D E orig v w h) Refused := by
  have hcw := hc.mono hN
  have hsingle (v : List F) := always_of_meets (v := Denote.compute D E f orig v w h) hc
    (m := fun E => computeSsimulacra2Gpu E D orig v w h) fun sched junk s hs ho =>
      computeSsimulacra2Gpu_meets hs ho orig v w h (hcw.on sched junk)
  have hpair (v : List F) := always_of_meets (v := Denote.compute D E f orig v w h) hc
    (m := fun E => prepCompare D E orig v w h) fun sched junk s hs ho =>
      prepCompare_meets hs ho orig v w h (hcw.on sched junk)
  have hbatch := always_of_meets (v := Denote.scoreBatch D E f orig w h variants) hc
    (m := fun E => scoreBatchGpu E D orig w h variants) fun sched junk s hs ho =>
      (scoreBatchGpu_meets hs ho orig w h variants (hcw.on sched junk)).congr (by rw [scoreBatch_on])
  cases hb : Denote.scoreBatch D E f orig w h variants with
  | some outs =>
    refine Or.inl ⟨outs, hbatch.1 outs hb E.sched E.junk c hr hn, ?_⟩
    exact (Denote.scoreBatch_some E f orig w h hb).imp fun v out hout =>
      ⟨(hsingle v).1 out hout, (hpair v).1 out hout⟩
  | none =>
    refine Or.inr ⟨hbatch.2 hb E.sched E.junk c hr hn, fun hf => ?_, fun v hm => ?_⟩
    · by_contra hrg
      obtain ⟨outs, houts⟩ := Denote.scoreBatch_fits (f := f) hf hN
        (Option.isSome_iff_ne_none.mpr hrg) ho hv
      rw [houts] at hb
      cases hb
    have hnone := Denote.scoreBatch_none E f orig w h ho hv hb v hm
    exact ⟨(hsingle v).2 hnone, (hpair v).2 hnone⟩

/-- The grids of a small image are within the limits of the device. -/
theorem clearing_fits : Denote.Fits (clearing : Env F) 192 :=
  .of_row rfl (fun m hm => Nat.mod_eq_of_lt (lt_of_le_of_lt hm (by decide))) (by decide)

/-- A batch of two variants on a device that never fails: it answers, and so do the single shots
    and the comparisons. -/
theorem scoreBatchGpu_parity_two :
    let E : Env ℝ := clearing
    let orig : List ℝ := .replicate 192 1
    let variants : List (List ℝ) := [.replicate 192 0, .replicate 192 1]
    ∃ outs, (scoreBatchGpu E ℝ orig 8 8 variants (.fresh ℝ)).result = .ok outs ∧
      List.Forall₂ (fun v out =>
        (computeSsimulacra2Gpu E ℝ orig v 8 8 (.fresh ℝ)).result = .ok out ∧
        (prepCompare ℝ E orig v 8 8 (.fresh ℝ)).result = .ok out) variants outs := by
  intro E orig variants
  have hE : E.Healthy := fun _ => rfl
  have ho : orig.length = 3 * 8 * 8 := List.length_replicate
  have hv : ∀ v ∈ variants, v.length = 3 * 8 * 8 := by
    intro v hv
    rcases List.mem_pair.mp hv with rfl | rfl
    · exact List.length_replicate
    · exact List.length_replicate
  clear_value orig variants
  rcases scoreBatchGpu_parity (D := ℝ) (c := .fresh ℝ) (clearing_computes 192) le_rfl ho hv .fresh
    (noFault_of_emits (scoreBatchGpu_fine hE orig 8 8 variants) _) with ⟨outs, hb, hall⟩ | ⟨-, hn, -⟩
  · refine ⟨outs, hb, hall.imp fun v out h => ?_⟩
    have h1 := noFault_of_emits (computeSsimulacra2Gpu_fine (D := ℝ) hE orig v 8 8) (.fresh ℝ)
    have h2 := noFault_of_emits (prepCompare_fine (D := ℝ) hE orig v 8 8) (.fresh ℝ)
    exact ⟨h.1 E.sched E.junk _ .fresh h1, h.2 E.sched E.junk _ .fresh h2⟩
  · obtain ⟨beta, hrg, -, -⟩ := gaussian_kernel
    rw [hn clearing_fits] at hrg
    cases hrg

end Cached

end Ssimulacra2
