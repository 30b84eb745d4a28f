/-
  File:      Ssimulacra2/Png/Neutral.lean
  Subject:   Normalisation is score-neutral.

  The linear planes of an image that `normalize` rewrites are those of the rewritten one, over any
  background (`linearizeFrontEnd_rewritable`); so the command on the rewritten pair runs the engine
  on the same planes, once where the original pair may run it twice (`scoreImages_stripped`).
-/
import Ssimulacra2.Png.Lossless
import Ssimulacra2.Png.Main
import Ssimulacra2.Vulkan.Contract

namespace Ssimulacra2

open Fallible Prog

variable {F : Type} {D : Type} [F32 F] [F64 D] [Convert F D]

/-! ## 1. The front end -/

/-- The image without its alpha plane. -/
def Decoded.stripped (d : Decoded F) : Decoded F := ⟨d.w, d.h, d.srgb, none⟩

/-- The samples of a decoded image: three planes on the grid of the bytes, and an alpha plane. -/
structure Decoded.OnGrid (d : Decoded F) : Prop where
  samples : ∃ bs : List UInt8, d.srgb = bs.map byteSample ∧ bs.length = 3 * (d.w * d.h)
  alpha : ∀ a, d.alpha = some a → a.length = d.w * d.h

theorem FromFrame.onGrid {of : Frame} {d : Decoded F} (h : FromFrame of d) : d.OnGrid where
  samples := h.samples
  alpha a ha := by
    rcases h.alpha with ⟨-, as, e, hplane⟩ | ⟨-, e⟩
    · rw [e] at ha
      cases ha
      rw [List.length_map, bytePlane_length hplane]
    · rw [e] at ha
      cases ha

theorem Decoded.OnGrid.length {d : Decoded F} (hd : d.OnGrid) : d.srgb.length = 3 * d.w * d.h := by
  obtain ⟨bs, hs, hl⟩ := hd.samples
  rw [hs, List.length_map, hl, Nat.mul_assoc]

theorem decodeBytes_onGrid {png : PngCrate} {bytes : ByteSlice} {tolerate : Bool} {d : Decoded F}
    (h : decodeBytes png bytes tolerate = .ok d) : d.OnGrid := by
  obtain ⟨-, of, -, -, hof⟩ := decodeBytes_ok h
  exact hof.onGrid

section FrontEnd

variable (B : Binary32 F) {isOne : F → Bool} (hone : ∀ v, isOne v = true ↔ v = ofNat 1)
  {d : Decoded F} (hd : d.OnGrid)

include B hd

theorem linearizeFrontEnd_stripped (bg : F) (n : Nat) :
    linearizeFrontEnd d.stripped bg n = some (toLinear d.srgb) := by
  obtain ⟨bs, hs, -⟩ := hd.samples
  unfold linearizeFrontEnd Decoded.stripped
  rw [hs]
  exact B.toLinear8bit_bytes bs

include hone

/-- **The planes of an opaque image**, over a background between 0 and 1. -/
theorem linearizeFrontEnd_rewritable (hr : rewritable isOne d = true) {q : ℚ} (h0 : 1 / 10 ≤ q)
    (h1 : q ≤ 1) :
    linearizeFrontEnd d (F32.lit q) (d.w * d.h) = some (toLinear d.srgb) := by
  cases ha : d.alpha with
  | none =>
    have hstrip : d = d.stripped := by
      unfold Decoded.stripped
      rw [← ha]
    rw [hstrip]
    exact linearizeFrontEnd_stripped B hd _ _
  | some a =>
    obtain ⟨bs, hs, hl⟩ := hd.samples
    have hbg := B.lit_finite q (le_trans (by norm_num) h0) h1
    have hopaque : ∀ v ∈ a, v = ofNat 1 := by
      unfold rewritable at hr
      rw [ha] at hr
      exact fun v hv => (hone v).mp (List.all_eq_true.mp hr v hv)
    unfold linearizeFrontEnd
    rw [ha, hs]
    dsimp only
    have hblend := B.alphaBlend_opaque hbg hl (hd.alpha a ha).le hopaque
    exact congrArg (Option.map toLinear) hblend

end FrontEnd

/-! ## 2. The command -/

section Score

variable {E : Env F} {cbrtAdd : F → F → F} {lin1 lin2 : List F} {w h : Nat}

theorem scorePair_pass {a b : Decoded F} {bg : F} (ha : linearizeFrontEnd a bg (a.w * a.h) = some lin1)
    (hb : linearizeFrontEnd b bg (a.w * a.h) = some lin2) :
    scorePair D E cbrtAdd a b bg = pass D E cbrtAdd lin1 lin2 a.w a.h := by
  unfold scorePair pass
  dsimp only
  rw [ha, hb]
  rfl

theorem scoreImages_stripped (B : Binary32 F) {a b : Decoded F} (ha : a.OnGrid) (hb : b.OnGrid) :
    scoreImages D E cbrtAdd a.stripped b.stripped =
      pass D E cbrtAdd (toLinear a.srgb) (toLinear b.srgb) a.w a.h := by
  unfold scoreImages
  rw [if_neg (show ¬(a.stripped.alpha.isSome = true) from nofun)]
  exact scorePair_pass (a := a.stripped) (b := b.stripped) (linearizeFrontEnd_stripped B ha _ _)
    (linearizeFrontEnd_stripped B hb _ _)

/-- **The command on two opaque images** runs the command on the images without alpha: once, or
    twice when the original has an alpha plane. -/
theorem scoreImages_rewritable (D : Type) [F64 D] [Convert F D] (E : Env F)
    (cbrtAdd : F → F → F) (B : Binary32 F) {isOne : F → Bool}
    (hone : ∀ v, isOne v = true ↔ v = ofNat 1) {a b : Decoded F} (ha : a.OnGrid) (hb : b.OnGrid)
    (hra : rewritable isOne a = true) (hrb : rewritable isOne b = true) (hw : a.w = b.w)
    (hh : a.h = b.h) :
    scoreImages D E cbrtAdd a b =
      if a.alpha.isSome then do
        let s0 ← scoreImages D E cbrtAdd a.stripped b.stripped
        let s1 ← scoreImages D E cbrtAdd a.stripped b.stripped
        pure (F64.min s0 s1)
      else scoreImages D E cbrtAdd a.stripped b.stripped := by
  have hpair {q : ℚ} (h0 : 1 / 10 ≤ q) (h1 : q ≤ 1) : scorePair D E cbrtAdd a b (F32.lit q) =
      pass D E cbrtAdd (toLinear a.srgb) (toLinear b.srgb) a.w a.h := by
    refine scorePair_pass (linearizeFrontEnd_rewritable B hone ha hra h0 h1) ?_
    rw [hw, hh]
    exact linearizeFrontEnd_rewritable B hone hb hrb h0 h1
  rw [scoreImages_stripped B ha hb]
  unfold scoreImages
  rw [hpair (by norm_num) (by norm_num), hpair (by norm_num) (by norm_num),
    hpair (by norm_num) (by norm_num)]

/-- A pass without a device. -/
theorem pass_cpu (cbrtAdd : F → F → F) {rg : RgConst F} (hrg : createRecursiveGaussian F (F64.lit 1.5 : D) = some rg)
    (hN : 1 ≤ rg.radius) (h1 : lin1.length = 3 * w * h) (h2 : lin2.length = 3 * w * h) :
    ∃ s, ∀ E : Env F, pass D E cbrtAdd lin1 lin2 w h none = some (s, none) := by
  obtain ⟨t, ht, ht6⟩ := cpu_answers hrg hN cbrtAdd h1 h2
  obtain ⟨s, hs⟩ := score_answers ht6
  refine ⟨s, fun E => ?_⟩
  refine pass_of_pipeline D E cbrtAdd ?_ hs
  unfold pipeline
  rw [ht]
  rfl

/-- A pass on a device that never fails. -/
theorem pass_gpu (cbrtAdd : F → F → F) {f : Launches F} {N : Nat}
    (hrg : (createRecursiveGaussian F (F64.lit 1.5 : D)).isSome) (hc : Computes D E f N)
    (hf : Denote.Fits E N) (hb : 3 * w * h ≤ N) (h1 : lin1.length = 3 * w * h)
    (h2 : lin2.length = 3 * w * h) :
    ∃ s, ∀ sched junk, (E.on sched junk).Healthy → ∀ sys : Sys F, sys.Valid → sys.openCmd = none →
      ∃ sys', pass D (E.on sched junk) cbrtAdd lin1 lin2 w h (some sys) = some (s, some sys') ∧
        sys'.Valid ∧ sys'.openCmd = none := by
  obtain ⟨t, ht⟩ := Denote.compute_fits (f := f) hf hb hrg h1 h2
  obtain ⟨s, hs⟩ := score_answers (Denote.compute_length ht)
  refine ⟨s, fun sched junk hE sys hv ho => ?_⟩
  have hm := computeSsimulacra2Gpu_meets hv ho lin1 lin2 w h ((hc.mono hb).on sched junk)
  have hrun : Runs E.kernel 0 [] sys (some t) (fun _ a x => a = x)
      (computeSsimulacra2Gpu (E.on sched junk) D lin1 lin2 w h sys).result
      (computeSsimulacra2Gpu (E.on sched junk) D lin1 lin2 w h sys).state
      (computeSsimulacra2Gpu (E.on sched junk) D lin1 lin2 w h sys).trace := ht ▸ hm
  have hfine := noFault_of_emits
    (computeSsimulacra2Gpu_fine (E := E.on sched junk) (D := D) hE lin1 lin2 w h) sys
  have hres : (computeSsimulacra2Gpu (E.on sched junk) D lin1 lin2 w h sys).result = .ok t := by
    rcases hrun.answers hfine (Sys.tracked_closed ho) with ⟨a, ha⟩ | ⟨hv, -⟩
    · obtain ⟨x, hx, hax⟩ := hrun.sound a ha
      rw [ha, hax, Option.some.inj hx]
    · cases hv
  refine ⟨_, ?_, hrun.ext.valid, hrun.ext.cmd.trans ho⟩
  refine pass_of_pipeline D (E.on sched junk) cbrtAdd ?_ hs
  unfold pipeline
  dsimp only
  rw [hres]

end Score

/-! ## 3. Rewritten files -/

/-- **A file and what it was rewritten to**: its contents before a run that exits with 0, and the
    contents under its name in the output directory after it. -/
def NormalizedTo (E : NormEnv F) (before after : ByteSlice) : Prop :=
  ∃ args disk outDir inputs inp name, normalizeArgs args (none, []) = (some outDir, inputs) ∧
    (runNormalize E args disk).1.code = 0 ∧ inp ∈ inputs ∧
    disk (E.host.resolve inp) = some before ∧ fileName inp = some name ∧
    (runNormalize E args disk).2 (E.host.resolve (joinPath outDir name)) = some after

/-- A rewritten file and its image. -/
theorem NormalizedTo.image {E : NormEnv F} (B : Binary32 F) (hl : E.png.Lossless)
    {before after : ByteSlice} (h : NormalizedTo E before after) {d : Decoded F}
    (hd : decodeBytes E.png before false = .ok d) :
    d.OnGrid ∧ rewritable E.isOne d = true ∧ decodeBytes E.png after false = .ok d.stripped := by
  obtain ⟨args, disk, outDir, inputs, inp, name, hargs, hcode, hmem, hfile, hname, hafter⟩ := h
  obtain ⟨dec, name', bytes, hrw, hname', hbytes⟩ := runNormalize_ok hargs hcode inp hmem
  cases hname.symm.trans hname'
  cases hafter.symm.trans hbytes
  have hdec : decodeBytes E.png before true = .ok dec := by
    have h := hrw.decoded
    unfold decodePngIngest decodePngOpts Disk.read at h
    rw [hfile] at h
    exact h
  cases (decodeBytes_tolerates hd).symm.trans hdec
  exact ⟨decodeBytes_onGrid hd, hrw.passes, hrw.reread B hl⟩

section Neutral

variable {E : Env F} {f : Launches F} {N : Nat} {rg : RgConst F} {cbrtAdd : F → F → F}

/-- **Two opaque images and the images without alpha have one score** on either engine. -/
theorem scoreImages_neutral (cbrtAdd : F → F → F) (B : Binary32 F) {isOne : F → Bool}
    (hone : ∀ v, isOne v = true ↔ v = ofNat 1) (hmin : ∀ s : D, F64.min s s = s)
    (hrg : createRecursiveGaussian F (F64.lit 1.5 : D) = some rg) (hN : 1 ≤ rg.radius)
    {a b : Decoded F} (ha : a.OnGrid) (hb : b.OnGrid) (hra : rewritable isOne a = true)
    (hrb : rewritable isOne b = true) (hw : a.w = b.w) (hh : a.h = b.h) :
    (∃ s, ∀ E : Env F,
      (scoreImages D E cbrtAdd a b none).map Prod.fst = some s ∧
      (scoreImages D E cbrtAdd a.stripped b.stripped none).map Prod.fst = some s) ∧
    (Computes D E f N → Denote.Fits E N → 3 * a.w * a.h ≤ N →
      ∃ s, ∀ sched junk, (E.on sched junk).Healthy →
        (scoreImages D (E.on sched junk) cbrtAdd a b (some (.fresh F))).map Prod.fst = some s ∧
        (scoreImages D (E.on sched junk) cbrtAdd a.stripped b.stripped (some (.fresh F))).map
          Prod.fst = some s) := by
  have hlen {d : Decoded F} (hd : d.OnGrid) : (toLinear d.srgb).length = 3 * d.w * d.h := by
    rw [toLinear, List.length_map, hd.length]
  have h1 := hlen ha
  have h2 := hlen hb
  rw [← hw, ← hh] at h2
  have hrun (E : Env F) := scoreImages_rewritable D E cbrtAdd B hone ha hb hra hrb hw hh
  -- two passes of one score have the score of one
  have htwice {E : Env F} {ctx ctx1 ctx2 : Option (Sys F)} {s : D}
      (hp1 : pass D E cbrtAdd (toLinear a.srgb) (toLinear b.srgb) a.w a.h ctx = some (s, ctx1))
      (hp2 : pass D E cbrtAdd (toLinear a.srgb) (toLinear b.srgb) a.w a.h ctx1 = some (s, ctx2)) :
      (scoreImages D E cbrtAdd a b ctx).map Prod.fst = some s ∧
        (scoreImages D E cbrtAdd a.stripped b.stripped ctx).map Prod.fst = some s := by
    rw [hrun, scoreImages_stripped B ha hb]
    refine ⟨?_, by rw [hp1, Option.map_some]⟩
    by_cases halpha : a.alpha.isSome = true
    · rw [if_pos halpha]
      show ((pass D E cbrtAdd (toLinear a.srgb) (toLinear b.srgb) a.w a.h ctx).bind fun p1 =>
        (pass D E cbrtAdd (toLinear a.srgb) (toLinear b.srgb) a.w a.h p1.2).bind fun p2 =>
          some (F64.min p1.1 p2.1, p2.2)).map Prod.fst = some s
      rw [hp1, Option.bind_some, hp2, Option.bind_some, hmin, Option.map_some]
    · rw [if_neg halpha, hp1, Option.map_some]
  constructor
  · obtain ⟨s, hs⟩ := pass_cpu cbrtAdd hrg hN h1 h2
    exact ⟨s, fun E => htwice (hs E) (hs E)⟩
  · intro hc hf hbound
    obtain ⟨s, hs⟩ := pass_gpu cbrtAdd (by rw [hrg]; rfl) hc hf hbound h1 h2
    refine ⟨s, fun sched junk hE => ?_⟩
    obtain ⟨sys1, hp1, hv1, ho1⟩ := hs sched junk hE (.fresh F) Sys.fresh_valid rfl
    obtain ⟨sys2, hp2, -, -⟩ := hs sched junk hE sys1 hv1 ho1
    exact htwice hp1 hp2

/-- The command on two files that are decoded to images of one size. -/
theorem pairScore_decoded {png : PngCrate} {host : Host} {disk : Disk} {p1 p2 : String}
    {o1 o2 : ByteSlice} {a b : Decoded F} (h1 : disk (host.resolve p1) = some o1)
    (h2 : disk (host.resolve p2) = some o2)
    (ha : decodeBytes png o1 false = .ok a) (hb : decodeBytes png o2 false = .ok b)
    (hw : a.w = b.w) (hh : a.h = b.h) (hw8 : 8 ≤ a.w) (hh8 : 8 ≤ a.h) (forceCpu forceGpu : Bool)
    (created : Option (Sys F)) :
    pairScore D E cbrtAdd png host disk forceCpu forceGpu created p1 p2 =
      unwrap ((scoreImages D E cbrtAdd a b
        (routedContext forceCpu forceGpu a.w a.h created)).map Prod.fst) := by
  have hdecode {p : String} {o : ByteSlice} {d : Decoded F} (hfile : disk (host.resolve p) = some o)
      (hd : decodeBytes png o false = .ok d) : decodePng png host disk p = .ok d := by
    unfold decodePng decodePngOpts Disk.read
    rw [hfile]
    exact hd
  unfold pairScore
  rw [hdecode h1 ha, hdecode h2 hb]
  dsimp only [Except.mapError, bind, Except.bind]
  rw [if_neg (by omega), if_neg (by omega)]

/-- **Normalisation is score-neutral.** For two files that the strict decode accepts and `normalize`
    rewrites: a rewritten file decodes to the samples of the original without alpha; the score of the
    originals is the score of the rewritten images, or the least of it and itself when the original
    has an alpha plane; and the single-pair command answers one score on both pairs, on the CPU and
    on a device that meets no driver error. -/
theorem normalize_neutral (B : Binary32 F) (M : NormEnv F)
    (hone : ∀ v, M.isOne v = true ↔ v = ofNat 1) (hmin : ∀ s : D, F64.min s s = s)
    (hrg : createRecursiveGaussian F (F64.lit 1.5 : D) = some rg) (hN : 1 ≤ rg.radius)
    (hl : M.png.Lossless) {o1 o2 r1 r2 : ByteSlice} (h1 : NormalizedTo M o1 r1)
    (h2 : NormalizedTo M o2 r2) {a b : Decoded F} (ha : decodeBytes M.png o1 false = .ok a)
    (hb : decodeBytes M.png o2 false = .ok b) (hw : a.w = b.w) (hh : a.h = b.h) (hw8 : 8 ≤ a.w)
    (hh8 : 8 ≤ a.h) :
    decodeBytes M.png r1 false = .ok a.stripped ∧ decodeBytes M.png r2 false = .ok b.stripped ∧
    (∀ (E : Env F) cbrtAdd, scoreImages D E cbrtAdd a b =
      if a.alpha.isSome then do
        let s0 ← scoreImages D E cbrtAdd a.stripped b.stripped
        let s1 ← scoreImages D E cbrtAdd a.stripped b.stripped
        pure (F64.min s0 s1)
      else scoreImages D E cbrtAdd a.stripped b.stripped) ∧
    ∀ (disk disk' : Disk) p1 p2 q1 q2, disk (M.host.resolve p1) = some o1 →
      disk (M.host.resolve p2) = some o2 → disk' (M.host.resolve q1) = some r1 →
      disk' (M.host.resolve q2) = some r2 →
      ∀ (E : Env F) f N cbrtAdd forceCpu forceGpu (device : Bool),
        (device = true → Computes D E f N ∧ Denote.Fits E N ∧ 3 * a.w * a.h ≤ N) →
        ∃ s, ∀ sched junk sched' junk',
          (device = true → (E.on sched junk).Healthy ∧ (E.on sched' junk').Healthy) →
          pairScore D (E.on sched junk) cbrtAdd M.png M.host disk forceCpu forceGpu
            (if device then some (.fresh F) else none) p1 p2 = .ok s ∧
          pairScore D (E.on sched' junk') cbrtAdd M.png M.host disk' forceCpu forceGpu
            (if device then some (.fresh F) else none) q1 q2 = .ok s := by
  obtain ⟨hga, hra, hr1⟩ := h1.image B hl ha
  obtain ⟨hgb, hrb, hr2⟩ := h2.image B hl hb
  refine ⟨hr1, hr2, fun E cbrtAdd => scoreImages_rewritable D E cbrtAdd B hone hga hgb hra hrb hw hh, ?_⟩
  intro disk disk' p1 p2 q1 q2 hp1 hp2 hq1 hq2 E f N cbrtAdd forceCpu forceGpu device hdev
  obtain ⟨hcpu, hgpu⟩ := scoreImages_neutral (D := D) (E := E) (f := f) (N := N) cbrtAdd B hone hmin
    hrg hN hga hgb hra hrb hw hh
  have hboth {E E' : Env F} {s : D} {ctx : Option (Sys F)}
      (hctx : routedContext forceCpu forceGpu a.w a.h (if device then some (.fresh F) else none) = ctx)
      (hs : (scoreImages D E cbrtAdd a b ctx).map Prod.fst = some s)
      (hs' : (scoreImages D E' cbrtAdd a.stripped b.stripped ctx).map Prod.fst = some s) :
      pairScore D E cbrtAdd M.png M.host disk forceCpu forceGpu
        (if device then some (.fresh F) else none) p1 p2 = .ok s ∧
      pairScore D E' cbrtAdd M.png M.host disk' forceCpu forceGpu
        (if device then some (.fresh F) else none) q1 q2 = .ok s := by
    rw [pairScore_decoded hp1 hp2 ha hb hw hh hw8 hh8,
      pairScore_decoded hq1 hq2 hr1 hr2 hw hh hw8 hh8]
    have hctx' : routedContext forceCpu forceGpu a.stripped.w a.stripped.h
      (if device then some (.fresh F) else none) = ctx := hctx
    rw [hctx, hctx', hs, hs']
    exact ⟨rfl, rfl⟩
  by_cases hroute : (forceCpu || routedCpu forceGpu a.w a.h) = true ∨ device = false
  · have hctx : routedContext forceCpu forceGpu a.w a.h
        (if device then some (.fresh F) else none) = none := by
      unfold routedContext
      rcases hroute with hroute | rfl
      · rw [if_pos hroute]
      · rw [if_neg Bool.false_ne_true, ite_self]
    obtain ⟨s, hs⟩ := hcpu
    exact ⟨s, fun sched junk sched' junk' _ => hboth hctx (hs _).1 (hs _).2⟩
  · obtain ⟨hroute, hdevice⟩ := not_or.mp hroute
    have hdevice := eq_true_of_ne_false hdevice
    have hctx : routedContext forceCpu forceGpu a.w a.h
        (if device then some (.fresh F) else none) = some (.fresh F) := by
      unfold routedContext
      rw [if_neg hroute, if_pos hdevice]
    obtain ⟨hc, hf, hbound⟩ := hdev hdevice
    obtain ⟨s, hs⟩ := hgpu hc hf hbound
    refine ⟨s, fun sched junk sched' junk' hE => ?_⟩
    exact hboth hctx (hs sched junk (hE hdevice).1).1 (hs sched' junk' (hE hdevice).2).2

end Neutral

/-- A command that rewrites one file. -/
theorem NormalizedTo.single {E : NormEnv F} {args : List String} {disk : Disk}
    {outDir inp name : String} {before after : ByteSlice}
    (hargs : normalizeArgs args (none, []) = (some outDir, [inp]))
    (hdir : E.host.createDirAll outDir = none) 
    (hfile : disk (E.host.resolve inp) = some before)
    (hw : Writable E outDir ⟨disk, []⟩ inp name (after, none)) : NormalizedTo E before after := by
  have hrun : (normalizeLoop E outDir [inp] ⟨disk, []⟩).result = .ok () ∧
      (normalizeLoop E outDir [inp] ⟨disk, []⟩).state.disk
        (E.host.resolve (joinPath outDir name)) = some after := by
    have hloop : Post (normalizeLoop E outDir [inp]) ⟨disk, []⟩ fun r s' _ => r = .ok () ∧
        s'.disk (E.host.resolve (joinPath outDir name)) = some after := by
      refine post_bind (normalizeOne_cases inp _) (fun _ s1 _ h1 => ?_) fun e s1 _ h1 => ?_
      · rcases h1 with ⟨name', out, hw', rfl, -⟩ | ⟨hno, -, -⟩
        · cases hw.name_eq.symm.trans hw'.name_eq
          cases hw.form.symm.trans hw'.form
          exact post_pure ⟨rfl, Function.update_self _ _ _⟩
        · exact absurd hw (hno _ _)
      · rcases h1 with ⟨name', out, hw', -, hiff⟩ | ⟨hno, -, -⟩
        · cases hw.form.symm.trans hw'.form
          exact nomatch hiff.mpr rfl
        · exact absurd hw (hno _ _)
    exact hloop
  have hcommand : runNormalize E args disk = (⟨(normalizeLoop E outDir [inp] ⟨disk, []⟩).trace, [], 0⟩,
      (normalizeLoop E outDir [inp] ⟨disk, []⟩).state.disk) := by
    unfold runNormalize
    rw [hargs]
    dsimp only
    rw [hdir]
    dsimp only
    rw [hrun.1]
  refine ⟨args, disk, outDir, [inp], inp, name, hargs, ?_, List.mem_singleton_self inp, hfile,
    hw.name_eq, ?_⟩
  · rw [hcommand]
  · rw [hcommand]
    exact hrun.2

/-- An opaque original and a white image. -/
def opaqueDisk : Disk := fun path =>
  if path = "a.png" then some opaquePng else if path = "b.png" then some whitePng else none

/-- The two files rewritten. -/
def plainDisk : Disk := fun path =>
  if path = "a.png" then some blackPng else if path = "b.png" then some whitePng else none

/-- The opaque original takes two passes on the device, the rewritten one takes one. -/
theorem normalize_neutral_rgba : ∃ s : ℝ,
    pairScore ℝ (shading ℝ cbrtAddExact) cbrtAddExact sampleCrate sampleEnv.host opaqueDisk false true
      (some (.fresh ℝ)) "a.png" "b.png" = .ok s ∧
    pairScore ℝ (shading ℝ cbrtAddExact) cbrtAddExact sampleCrate sampleEnv.host plainDisk false true
      (some (.fresh ℝ)) "a.png" "b.png" = .ok s := by
  have hc : Computes ℝ (shading ℝ cbrtAddExact) ((shading ℝ cbrtAddExact).launches ℝ) 192 :=
    shading_computes _ 192
  have hf : Denote.Fits (shading ℝ cbrtAddExact) 192 := shading_fits _ (by decide)
  have hE : (shading ℝ cbrtAddExact).Healthy := fun _ => rfl
  obtain ⟨beta, hrg, -, -⟩ := gaussian_kernel
  have hmin : ∀ s : ℝ, F64.min s s = s := fun s => min_self s
  have hname (x : String) (h : fileName x = some x) (bytes : ByteSlice) (disk : Disk)
      (hform : normalForm sampleEnv disk x = some (bytes, none)) :
      Writable sampleEnv "out" ⟨disk, []⟩ x x (bytes, none) := ⟨hform, h, List.not_mem_nil, rfl⟩
  have h1 : NormalizedTo sampleEnv opaquePng blackPng := NormalizedTo.single
    (show normalizeArgs ["--out", "out", "a.png"] (none, []) = (some "out", ["a.png"]) from rfl) rfl rfl
    (hname "a.png" (by decide) blackPng opaqueDisk (normalForm_rgba rfl))
  have h2 : NormalizedTo sampleEnv whitePng whitePng := NormalizedTo.single
    (show normalizeArgs ["--out", "out", "b.png"] (none, []) = (some "out", ["b.png"]) from rfl) rfl rfl
    (hname "b.png" (by decide) whitePng opaqueDisk (normalForm_white exactBinary32 rfl rfl))
  obtain ⟨-, -, -, hscore⟩ := normalize_neutral (D := ℝ) exactBinary32 sampleEnv sampleEnv_isOne hmin hrg
    (show 1 ≤ 5 by decide) sampleCrate_lossless h1 h2 (sample_rgba false) (sample_white false) rfl
    rfl le_rfl le_rfl
  obtain ⟨s, hs⟩ := hscore opaqueDisk plainDisk "a.png" "b.png" "a.png" "b.png" rfl rfl rfl rfl
    (shading ℝ cbrtAddExact) _ 192 cbrtAddExact false true true fun _ => ⟨hc, hf, le_rfl⟩
  exact ⟨s, hs (shading ℝ cbrtAddExact).sched (shading ℝ cbrtAddExact).junk
    (shading ℝ cbrtAddExact).sched (shading ℝ cbrtAddExact).junk fun _ => ⟨hE, hE⟩⟩

end Ssimulacra2
