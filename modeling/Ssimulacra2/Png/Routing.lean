/-
  File:      Ssimulacra2/Png/Routing.lean
  Subject:   The single-pair command prints one score on either engine, over exact arithmetic.

  A command is blind to its context (`Blind`) when it answers the same beside every context between
  two calls of the engine, on every schedule of driver errors, and leaves such a context. The
  arguments are those of this command: a first one `score-many` or `normalize` is another command.

  * `pass_blind` -- a pass, by `pipeline_answers`;
  * `scoreImages_blind` -- one pass or two;
  * `pairScore_same` -- the command past its arguments;
  * `runPair_one_score` -- the command.
-/
import Ssimulacra2.Png.Neutral
import Ssimulacra2.Vulkan.Engines

namespace Ssimulacra2

open Fallible Lists Prog

/-! ## 1. Commands -/

section Blind

variable {F : Type} [F32 F] {E : Env F} {α β : Type}

/-- `m` answers `r`, whatever the context and the device do. -/
def Blind (E : Env F) (m : Env F → Command F α) (r : Option α) : Prop :=
  ∀ sched junk (ctx : Option (Sys F)), Idle ctx → (m (E.on sched junk) ctx).map Prod.fst = r ∧
    ∀ a ctx', m (E.on sched junk) ctx = some (a, ctx') → Idle ctx'

theorem Blind.lift (o : Option α) : Blind E (fun _ => StateT.lift o) o := by
  intro sched junk ctx hctx
  cases o with
  | none =>
    refine ⟨rfl, fun a ctx' h => ?_⟩
    cases h
  | some a =>
    refine ⟨rfl, fun a' ctx' h => ?_⟩
    cases h
    exact hctx

theorem Blind.pure (a : α) : Blind E (fun _ => Pure.pure a) (some a) := .lift (some a)

theorem Blind.bind {m : Env F → Command F α} {k : Env F → α → Command F β} {r : Option α}
    (hm : Blind E m r) (hk : ∀ a, r = some a → ∃ r', Blind E (fun E => k E a) r') :
    ∃ r', Blind E (fun E => m E >>= k E) r' := by
  have hrun (E : Env F) (ctx : Option (Sys F)) :
      (m E >>= k E) ctx = (m E ctx).bind fun p => k E p.1 p.2 := rfl
  cases r with
  | none =>
    refine ⟨none, fun sched junk ctx hctx => ?_⟩
    have hnone := Option.map_eq_none_iff.mp (hm sched junk ctx hctx).1
    simp only [hrun, hnone, Option.bind_none]
    refine ⟨rfl, fun b ctx' h => ?_⟩
    cases h
  | some a =>
    obtain ⟨r', hr'⟩ := hk a rfl
    refine ⟨r', fun sched junk ctx hctx => ?_⟩
    obtain ⟨e, hidle⟩ := hm sched junk ctx hctx
    obtain ⟨⟨_, ctx1⟩, e1, rfl⟩ := Option.map_eq_some_iff.mp e
    simp only [hrun, e1, Option.bind_some]
    exact hr' sched junk ctx1 (hidle _ _ e1)

end Blind

/-! ## 2. Two decoded images -/

/-- The front end keeps the size of an image. -/
theorem linearizeFrontEnd_length {F : Type} [F32 F] {d : Decoded F} {bg : F} {n : Nat} {lin : List F}
    (h : linearizeFrontEnd d bg n = some lin) : lin.length = d.srgb.length := by
  unfold linearizeFrontEnd at h
  cases halpha : d.alpha with
  | some al =>
    rw [halpha] at h
    obtain ⟨out, hout, rfl⟩ := Option.map_eq_some_iff.mp h
    rw [toLinear, List.length_map, alphaBlend_length hout]
  | none =>
    rw [halpha] at h
    exact (mapM_forall₂ h).length_eq.symm

section Images

variable {E : Env ℝ} {f : Launches ℝ} {cbrtAdd : ℝ → ℝ → ℝ} {N : Nat} (hc : Computes ℝ E f N)
  (hr : RunsShaders ℝ E cbrtAdd N)

include hc hr

/-- **A pass** answers the score of the CPU engine. -/
theorem pass_blind {w h : Nat} (hw : 1 ≤ w) (hh : 1 ≤ h) (hb : 3 * w * h ≤ N) {lin1 lin2 : List ℝ}
    (h1 : lin1.length = 3 * w * h) (h2 : lin2.length = 3 * w * h) :
    ∃ r, Blind E (fun E => pass ℝ E cbrtAdd lin1 lin2 w h) r := by
  obtain ⟨t, v, -, -, hpipe⟩ := pipeline_answers hc hr hw hh hb h1 h2
  refine ⟨some v, fun sched junk ctx hctx => ?_⟩
  obtain ⟨ctx', hidle, -, -, e⟩ := hpipe sched junk ctx hctx
  dsimp only
  rw [e]
  refine ⟨rfl, fun a ctx1 h => ?_⟩
  cases h
  exact hidle

variable {a b : Decoded ℝ} (ha : a.OnGrid) (hb : b.OnGrid) (hw : a.w = b.w) (hh : a.h = b.h)
  (hw8 : 8 ≤ a.w) (hh8 : 8 ≤ a.h) (hN : 3 * a.w * a.h ≤ N)

include ha hb hw hh hw8 hh8 hN

/-- The two front ends, and a pass when neither of them panics. -/
theorem scorePair_blind (bg : ℝ) : ∃ r, Blind E (fun E => scorePair ℝ E cbrtAdd a b bg) r := by
  refine Blind.bind (Blind.lift (linearizeFrontEnd a bg (a.w * a.h))) fun lin1 e1 => ?_
  refine Blind.bind (Blind.lift (linearizeFrontEnd b bg (a.w * a.h))) fun lin2 e2 => ?_
  refine pass_blind hc hr (by omega) (by omega) hN ?_ ?_
  · rw [linearizeFrontEnd_length e1, ha.length]
  · rw [linearizeFrontEnd_length e2, hb.length, hw, hh]

/-- **The command on two images**: one pass, or two on the two backgrounds. -/
theorem scoreImages_blind : ∃ r, Blind E (fun E => scoreImages ℝ E cbrtAdd a b) r := by
  have hpair := scorePair_blind hc hr ha hb hw hh hw8 hh8 hN
  unfold scoreImages
  by_cases halpha : a.alpha.isSome = true
  · simp only [if_pos halpha]
    obtain ⟨r0, h0⟩ := hpair (F32.lit 0.1)
    obtain ⟨r1, h1⟩ := hpair (F32.lit 0.9)
    exact Blind.bind h0 fun s0 _ => Blind.bind h1 fun s1 _ => ⟨_, Blind.pure _⟩
  · simp only [if_neg halpha]
    exact hpair _

end Images

/-! ## 3. The arguments -/

/-- `--cpu`, `--gpu` and `--profile`. -/
def pairFlag (arg : String) : Bool := arg = "--cpu" || arg = "--gpu" || arg = "--profile"

theorem pairArgs_flags (args : List String) (a : PairArgs) :
    (pairArgs args a).pos = a.pos ++ args.filter (fun arg => !pairFlag arg) ∧
      ((pairArgs args a).forceCpu = true ↔ a.forceCpu = true ∨ "--cpu" ∈ args) ∧
      ((pairArgs args a).forceGpu = true ↔ a.forceGpu = true ∨ "--gpu" ∈ args) := by
  fun_induction pairArgs args a with
  | case1 a => simp
  | case2 a rest ih => simpa [pairFlag] using ih
  | case3 a rest ih => simpa [pairFlag] using ih
  | case4 a rest ih => simpa [pairFlag] using ih
  | case5 path rest a hcpu hgpu hprofile ih =>
    have hflag : pairFlag path = false := by
      simp only [pairFlag, Bool.or_eq_false_iff, decide_eq_false_iff_not]
      exact ⟨⟨hcpu, hgpu⟩, hprofile⟩
    have hcpu' : "--cpu" ≠ path := fun e => hcpu e.symm
    have hgpu' : "--gpu" ≠ path := fun e => hgpu e.symm
    simpa [hflag, hcpu', hgpu'] using ih

/-! ## 4. The command -/

section Pair

variable {E : Env ℝ} {f : Launches ℝ} {cbrtAdd : ℝ → ℝ → ℝ} {N : Nat} (hc : Computes ℝ E f N)
  (hr : RunsShaders ℝ E cbrtAdd N) {png : PngCrate} {host : Host} {disk : Disk}
  (hN : ∀ path (d : Decoded ℝ), decodePng png host disk path = .ok d → 3 * d.w * d.h ≤ N)

include hc hr hN

/-- **The command past its arguments**, on any two choices of a context. -/
theorem pairScore_same (orig dist : String) : ∃ r : Except Fault ℝ, ∀ sched junk,
    ∀ created : Option (Sys ℝ), Idle created → ∀ forceCpu forceGpu,
      pairScore ℝ (E.on sched junk) cbrtAdd png host disk forceCpu forceGpu created orig dist = r := by
  unfold pairScore
  cases ha : (decodePng png host disk orig : Except Fault (Decoded ℝ)) with
  | error e => exact ⟨_, fun _ _ _ _ _ _ => rfl⟩
  | ok a =>
    dsimp only [Except.mapError, bind, Except.bind]
    by_cases h8 : a.w < 8 ∨ a.h < 8
    · exact ⟨_, fun _ _ _ _ _ _ => if_pos h8⟩
    cases hb : (decodePng png host disk dist : Except Fault (Decoded ℝ)) with
    | error e => exact ⟨_, fun _ _ _ _ _ _ => if_neg h8⟩
    | ok b =>
      dsimp only
      by_cases hsize : a.w ≠ b.w ∨ a.h ≠ b.h
      · exact ⟨_, fun _ _ _ _ _ _ => (if_neg h8).trans (if_pos hsize)⟩
      have hgrid {path : String} {d : Decoded ℝ} (hd : decodePng png host disk path = .ok d) :
          d.OnGrid := by
        obtain ⟨bytes, -, hdec⟩ := except_bind_ok.mp hd
        exact decodeBytes_onGrid hdec
      obtain ⟨r, hrun⟩ := scoreImages_blind hc hr (hgrid ha) (hgrid hb) (by omega) (by omega)
        (by omega) (by omega) (hN orig a ha)
      refine ⟨unwrap r, fun sched junk created hcreated forceCpu forceGpu => ?_⟩
      have hidle := hcreated.routed forceCpu forceGpu a.w a.h
      rw [if_neg h8, if_neg hsize, (hrun sched junk _ hidle).1]

/-- Two lists of arguments that ask for the same pair. -/
theorem runPair_same (sched : Nat → Option String) (junk : Nat → List ℝ)
    {created : Option (Sys ℝ)} (hcreated : Idle created) (fixed8 : ℝ → String)
    {args args' : List String}
    (hhelp : (args.any fun a => a = "--help" || a = "-h") =
      args'.any fun a => a = "--help" || a = "-h")
    (hforce : ((pairArgs args ⟨false, false, []⟩).forceCpu &&
        (pairArgs args ⟨false, false, []⟩).forceGpu) =
      ((pairArgs args' ⟨false, false, []⟩).forceCpu && (pairArgs args' ⟨false, false, []⟩).forceGpu))
    (hpos : (pairArgs args ⟨false, false, []⟩).pos = (pairArgs args' ⟨false, false, []⟩).pos) :
    runPair ℝ (E.on sched junk) cbrtAdd png host disk fixed8 created args =
      runPair ℝ E cbrtAdd png host disk fixed8 none args' := by
  unfold runPair
  dsimp only
  rw [hhelp, hforce, hpos]
  split_ifs
  · rfl
  · rfl
  · split
    · rename_i orig dist _
      obtain ⟨r, hscore⟩ := pairScore_same hc hr hN orig dist
      have hdevice := hscore sched junk created hcreated
      have hplain := hscore E.sched E.junk none .none
      rw [hdevice]
      rw [show E.on E.sched E.junk = E from rfl] at hplain
      rw [hplain]
    · rfl

/-- **One score whichever engine runs.** On the files of a disk the command answers beside a device,
    whatever the device does and whatever the context was used for, what it answers without one: the
    lines, the errors and the exit code. And `--cpu`, `--gpu` and `--profile` change nothing, but that
    the first two exclude each other. -/
theorem runPair_one_score (sched : Nat → Option String) (junk : Nat → List ℝ) {c : Client ℝ}
    (hreach : Reaches ℝ (E.on sched junk) N c) (fixed8 : ℝ → String) (args : List String) :
    runPair ℝ (E.on sched junk) cbrtAdd png host disk fixed8 (some c.sys) args =
        runPair ℝ E cbrtAdd png host disk fixed8 none args ∧
      (¬("--cpu" ∈ args ∧ "--gpu" ∈ args) →
        runPair ℝ (E.on sched junk) cbrtAdd png host disk fixed8 (some c.sys) args =
          runPair ℝ E cbrtAdd png host disk fixed8 none (args.filter fun arg => !pairFlag arg)) := by
  have hidle := hreach.idle (hc.on sched junk)
  refine ⟨runPair_same hc hr hN sched junk hidle fixed8 rfl rfl rfl, fun hflags => ?_⟩
  obtain ⟨hpos, hcpu, hgpu⟩ := pairArgs_flags args ⟨false, false, []⟩
  obtain ⟨hpos', hcpu', -⟩ := pairArgs_flags (args.filter fun arg => !pairFlag arg) ⟨false, false, []⟩
  refine runPair_same hc hr hN sched junk hidle fixed8 ?_ ?_ ?_
  · rw [List.any_filter]
    refine List.any_congr rfl fun a => ?_
    by_cases hhelp : a = "--help"
    · rw [hhelp]
      decide
    · by_cases hh : a = "-h"
      · rw [hh]
        decide
      · simp only [hhelp, hh, decide_false, Bool.or_self, Bool.and_false]
  · have hboth : ((pairArgs args ⟨false, false, []⟩).forceCpu &&
        (pairArgs args ⟨false, false, []⟩).forceGpu) = false := by
      refine eq_false_of_ne_true fun h => hflags ?_
      obtain ⟨h1, h2⟩ := (Bool.and_eq_true _ _).mp h
      exact ⟨(hcpu.mp h1).resolve_left Bool.false_ne_true,
        (hgpu.mp h2).resolve_left Bool.false_ne_true⟩
    have hnocpu : (pairArgs (args.filter fun arg => !pairFlag arg) ⟨false, false, []⟩).forceCpu =
        false := by
      refine eq_false_of_ne_true fun h => ?_
      have hmem := (hcpu'.mp h).resolve_left Bool.false_ne_true
      exact absurd (List.mem_filter.mp hmem).2 (by decide)
    rw [hboth, hnocpu, Bool.false_and]
  · rw [hpos, hpos', List.filter_filter]
    simp only [Bool.and_self]

end Pair

/-- The two files of the disk, on a device that is lost at its first call: what the plain command
    prints on the CPU. -/
theorem runPair_one_score_lost :
    let lost := (shading ℝ cbrtAddExact).on (fun n => if n = 0 then some "lost" else none) fun _ => []
    ∃ s : ℝ, ∀ fixed8 : ℝ → String,
      runPair ℝ lost cbrtAddExact sampleCrate sampleHost opaqueDisk fixed8 (some (.fresh ℝ))
          ["--gpu", "a.png", "--profile", "b.png"] = ⟨[fixed8 s], [], 0⟩ ∧
        runPair ℝ (shading ℝ cbrtAddExact) cbrtAddExact sampleCrate sampleHost opaqueDisk fixed8 none
          ["a.png", "b.png"] = ⟨[fixed8 s], [], 0⟩ := by
  intro lost
  have hc : Computes ℝ (shading ℝ cbrtAddExact) ((shading ℝ cbrtAddExact).launches ℝ) 192 :=
    shading_computes _ 192
  have hr : RunsShaders ℝ (shading ℝ cbrtAddExact) cbrtAddExact 192 := shading_runs _ 192
  have hN : ∀ path (d : Decoded ℝ), decodePng sampleCrate sampleHost opaqueDisk path = .ok d →
      3 * d.w * d.h ≤ 192 := by
    intro path d hd
    obtain ⟨bytes, hread, hdec⟩ := except_bind_ok.mp hd
    rw [mapError_ok] at hread
    unfold Disk.read opaqueDisk at hread
    split_ifs at hread
    · cases hread
      rw [sample_rgba] at hdec
      cases hdec
      exact le_rfl
    · cases hread
      rw [sample_white] at hdec
      cases hdec
      exact le_rfl
  obtain ⟨beta, hrg, -, -⟩ := gaussian_kernel
  obtain ⟨s, hs⟩ := (scoreImages_neutral (D := ℝ) (f := (shading ℝ cbrtAddExact).launches ℝ)
    (E := shading ℝ cbrtAddExact) (N := 0) cbrtAddExact exactBinary32
    sampleEnv_isOne (fun s => min_self s) hrg (show 1 ≤ 5 by decide)
    (decodeBytes_onGrid (sample_rgba false)) (decodeBytes_onGrid (sample_white false))
    opaquely_rewritable rfl rfl rfl).1
  have hscore : pairScore ℝ (shading ℝ cbrtAddExact) cbrtAddExact sampleCrate sampleHost opaqueDisk
      false false none "a.png" "b.png" = .ok s := by
    rw [pairScore_decoded (show opaqueDisk (sampleHost.resolve "a.png") = some opaquePng from rfl)
      (show opaqueDisk (sampleHost.resolve "b.png") = some whitePng from rfl) (sample_rgba false)
      (sample_white false) rfl rfl le_rfl le_rfl]
    unfold routedContext
    rw [if_pos (by decide), (hs _).1]
    rfl
  refine ⟨s, fun fixed8 => ?_⟩
  have hcpu : runPair ℝ (shading ℝ cbrtAddExact) cbrtAddExact sampleCrate sampleHost opaqueDisk fixed8
      none ["a.png", "b.png"] = ⟨[fixed8 s], [], 0⟩ := by
    have hargs : pairArgs ["a.png", "b.png"] ⟨false, false, []⟩ =
      ⟨false, false, ["a.png", "b.png"]⟩ := by decide
    unfold runPair
    rw [if_neg (by decide), hargs]
    dsimp only
    rw [hscore]
    rfl
  refine ⟨?_, hcpu⟩
  rw [← hcpu]
  exact (runPair_one_score hc hr hN lost.sched lost.junk .fresh fixed8
    ["--gpu", "a.png", "--profile", "b.png"]).2 (by decide)

end Ssimulacra2
