/-
  File:      Ssimulacra2/Vulkan/Contract.lean
  Subject:   The contract of the batch command: three engines, one order of checks, one message.

  `firstViolation` is the contract. Everything past the checks goes through: the front end, the two
  GPU engines without a driver error (`engine_answers`), the CPU engine (`cpu_answers`), the score
  (`score_answers`); so a run ends in the first violation, or answers every variant.
-/
import Ssimulacra2.Identity
import Ssimulacra2.Vulkan.Calls
import Ssimulacra2.Vulkan.Engines
import Ssimulacra2.Vulkan.ScoreMany

namespace Ssimulacra2

open Fallible Prog Lists

variable {F : Type} {D : Type} [F32 F] [F64 D] [Convert F D]

/-! ## 1. What always answers -/

section Cpu

/-- A level of two images. -/
def PairLevel (l : Level F) : Prop :=
  (∃ g, l.a = image l.w l.h g) ∧ ∃ g, l.b = image l.w l.h g

theorem PairLevel.next {l : Level F} (hl : PairLevel l) (h8 : ¬(l.w < 8 ∨ l.h < 8)) (scale : Nat) :
    ∃ l', nextLevel scale l = some l' ∧ PairLevel l' := by
  obtain ⟨⟨g1, ea⟩, g2, eb⟩ := id hl
  unfold nextLevel
  by_cases h0 : scale > 0
  · rw [if_pos h0, ea, eb, downsampleCpu_image (by omega) (by omega),
      downsampleCpu_image (by omega) (by omega)]
    exact ⟨_, rfl, ⟨_, rfl⟩, _, rfl⟩
  · rw [if_neg h0]
    exact ⟨l, rfl, hl⟩

/-- The pooling of a scale of whole images. -/
theorem poolScale_answers {m : ScaleMaps F} (hm : ∀ c < 3, ∀ y < m.h, ∀ x < m.w,
    ∃ p, m.pixel (c * (m.w * m.h) + y * m.w + x) = some p) : ∃ sn, poolScale D m = some sn := by
  have hc (c : Nat) (hc : c < 3) : ∃ s, poolChannel D m c = some s := by
    unfold poolChannel
    obtain ⟨s, hs, -⟩ := foldlM_isSome (P := fun _ => True) _ (List.range m.h)
      (fun b y hy _ => foldlM_isSome (P := fun _ => True) (fun s (x : Nat) => do
        let p ← m.pixel (c * (m.w * m.h) + y * m.w + x)
        some (addSsim s.1 (p.ssimD D), addEdge s.2 (p.edgeD1 D))) (List.range m.w)
          (fun b x hx _ => by
            obtain ⟨p, hp⟩ := hm c hc y (List.mem_range.mp hy) x (List.mem_range.mp hx)
            rw [hp]
            exact ⟨_, rfl, trivial⟩) b trivial)
      ((0, 0), (0, 0, 0, 0)) trivial
    exact ⟨s, hs⟩
  obtain ⟨p0, h0⟩ := hc 0 (by decide)
  obtain ⟨p1, h1⟩ := hc 1 (by decide)
  obtain ⟨p2, h2⟩ := hc 2 (by decide)
  unfold poolScale
  rw [h0, h1, h2]
  exact ⟨_, rfl⟩

/-- **The CPU engine answers** on two images of one size, with at most six scales. -/
theorem cpu_answers {rg : RgConst F} (hrg : createRecursiveGaussian F (F64.lit 1.5 : D) = some rg)
    (hN : 1 ≤ rg.radius) (cbrtAdd : F → F → F) {lin1 lin2 : List F} {w h : Nat}
    (h1 : lin1.length = 3 * w * h) (h2 : lin2.length = 3 * w * h) :
    ∃ t, computeSsimulacra2Cpu D cbrtAdd lin1 lin2 w h = some t ∧ t.length ≤ 6 := by
  have hstep (scale : Nat) (l : Level F) (hl : PairLevel l) (h8 : ¬(l.w < 8 ∨ l.h < 8)) :
      ∃ l' sn, nextLevel scale l = some l' ∧ PairLevel l' ∧
        (scaleMaps (cpuOps D cbrtAdd rg) l'.a l'.b l'.w l'.h).bind (poolScale D) = some sn ∧
          True := by
    obtain ⟨l', e, hl'⟩ := hl.next h8 scale
    obtain ⟨⟨g1, ea⟩, g2, eb⟩ := id hl'
    obtain ⟨b, hb⟩ := blur_images hN l'.w l'.h
    have hblur : ∀ f, (cpuOps D cbrtAdd rg).blur (image l'.w l'.h f) l'.w l'.h =
        some (image l'.w l'.h (b f)) := hb
    have hmaps := scaleMaps_image hblur g1 g2
    rw [← ea, ← eb] at hmaps
    obtain ⟨sn, hsn⟩ := poolScale_answers (D := D)
      (m := (scaleImages (cpuOps D cbrtAdd rg).pixel b g1 g2).maps l'.w l'.h)
      fun c hc y hy x hx => ⟨_, pixel_image _ hc hy hx⟩
    exact ⟨l', sn, e, hl', by rw [hmaps, Option.bind_some, hsn], trivial⟩
  obtain ⟨t, ht, -⟩ := scaleLoop_run hstep 6 0 ⟨lin1, lin2, w, h⟩ ⟨⟨_, eq_image h1⟩, _, eq_image h2⟩
  refine ⟨t, ?_, scaleLoop_length ht⟩
  unfold computeSsimulacra2Cpu
  rw [hrg]
  exact ht

end Cpu

/-- The clamped index is an index of the table. -/
def ClampLaw (F : Type) [F32 F] : Prop :=
  ∀ x : F, F32.toUsize (clampF32 x 0 (ofNat 255)) < 256

/-- **The table answers every sample.** -/
theorem toLinear8bit_answers (hlut : ClampLaw F) (srgb : List F) :
    ∃ lin, toLinear8bit srgb linearizeLut = some lin ∧ lin.length = srgb.length := by
  have hsome : ∃ lin, toLinear8bit srgb linearizeLut = some lin := by
    unfold toLinear8bit
    cases hm : srgb.mapM (lutEntry linearizeLut) with
    | some lin => exact ⟨lin, rfl⟩
    | none =>
      obtain ⟨v, -, hv⟩ := mapM_none hm
      have hl : (linearizeLut : List F).length = 256 := by
        rw [linearizeLut, List.length_map, List.length_range]
      have hk := hlut (F32.round (v * ofNat 255))
      rw [← hl] at hk
      rw [lutEntry, List.getElem?_eq_getElem hk] at hv
      cases hv
  obtain ⟨lin, hlin⟩ := hsome
  exact ⟨lin, hlin, (mapM_forall₂ hlin).length_eq.symm⟩

namespace Denote

/-- There are at most six scales. -/
theorem computeLoop_length {E : Env F} {f : Launches F} {rg : RgConst F} (left scale : Nat)
    {l : Level F} {out t : List (ScaleNorms D)}
    (ht : computeLoop D E f rg left scale l out = some t) : t.length ≤ out.length + left := by
  induction left generalizing scale l out with
  | zero =>
    cases ht
    exact le_rfl
  | succ left ih =>
    unfold computeLoop at ht
    by_cases h8 : l.w < 8 ∨ l.h < 8
    · rw [if_pos h8] at ht
      cases ht
      exact Nat.le_add_right _ _
    · rw [if_neg h8] at ht
      obtain ⟨l', -, ht⟩ := Option.bind_eq_some_iff.mp ht
      obtain ⟨both, -, ht⟩ := Option.bind_eq_some_iff.mp ht
      obtain ⟨sn, -, ht⟩ := Option.bind_eq_some_iff.mp ht
      have hlen := ih (scale + 1) ht
      rw [List.length_append, List.length_singleton] at hlen
      omega

theorem compute_length {E : Env F} {f : Launches F} {lin1 lin2 : List F} {w h : Nat}
    {t : List (ScaleNorms D)} (ht : compute D E f lin1 lin2 w h = some t) : t.length ≤ 6 := by
  obtain ⟨_, -, ht⟩ := Option.bind_eq_some_iff.mp ht
  obtain ⟨_, -, ht⟩ := Option.bind_eq_some_iff.mp ht
  obtain ⟨rg, -, ht⟩ := Option.bind_eq_some_iff.mp ht
  have hlen := computeLoop_length 6 0 ht
  rw [List.length_nil] at hlen
  omega

end Denote

/-! ## 2. The contract -/

/-- The first check that a variant of an original of size `w`, `h` violates: it decodes, has the
    size and has no alpha. -/
def variantViolation (files : Files F) (w h : Nat) (vp : String) : Option String :=
  match files.decodePng vp with
  | .error e => some e
  | .ok vd =>
      if vd.w ≠ w ∨ vd.h ≠ h then some (variantSizeErr vp vd.w vd.h w h)
      else if vd.alpha.isSome then some (batchVariantAlphaErr vp)
      else none

/-- **The contract**: the message of the first check that is violated, the original's before the
    variants', in order. -/
def firstViolation (files : Files F) (origPath : String) (variants : List String) :
    Option String :=
  match files.decodePng origPath with
  | .error e => some e
  | .ok orig =>
      if orig.w < 8 ∨ orig.h < 8 then some belowMinimumErr
      else if orig.alpha.isSome then some batchOrigAlphaErr
      else variants.findSome? (variantViolation files orig.w orig.h)

/-- A command ends as the contract says: in the violation, or with every path in its place. -/
def Ends (violation : Option String) (paths : List String)
    (r : Except Fault (List (String × D))) : Prop :=
  match violation with
  | some text => r = .error (.message text)
  | none => ∃ results, r = .ok results ∧ results.map Prod.fst = paths

omit [F32 F] [F64 D] [Convert F D] in
/-- A command that does not open the original. -/
theorem ends_message {text : String} {paths : List String} :
    Ends (some text) paths (.error (.message text) : Except Fault (List (String × D))) := rfl

/-! ## 3. Commands on a context -/

section Jobs

variable {E : Env F} {s : Sys F} {α β : Type}

/-- What a step leaves: the context goes on, an answer is sound, and there is one without a driver
    error. -/
structure Goes (E : Env F) (s : Sys F) (M : Sys F → α → Prop) (r : Except Fault α) (s' : Sys F)
    (t : List (Event F)) : Prop where
  ext : Extends E.kernel 0 [] s s' t
  sound : ∀ a, r = .ok a → M s' a
  answers : NoFault t → ∃ a, r = .ok a

/-- What a command leaves: the context goes on, and without a driver error the result is right. -/
structure Concludes (E : Env F) (s : Sys F) (Q : Except Fault α → Prop) (r : Except Fault α)
    (s' : Sys F) (t : List (Event F)) : Prop where
  ext : Extends E.kernel 0 [] s s' t
  right : NoFault t → Q r

theorem concludes_bind {m : Job F α} {g : α → Job F β} {M : Sys F → α → Prop}
    {Q : Except Fault β → Prop} (h : Post m s (Goes E s M))
    (hg : ∀ a s' t, Extends E.kernel 0 [] s s' t → M s' a → Post (g a) s' (Concludes E s' Q)) :
    Post (m >>= g) s (Concludes E s Q) := by
  refine post_bind h (fun a s1 t1 h1 => ?_) fun e s1 t1 h1 => ⟨h1.ext, fun hn => ?_⟩
  · refine post_mono (hg a s1 t1 h1.ext (h1.sound a rfl)) fun r s2 t2 h2 => ?_
    exact ⟨by simpa using h1.ext.trans h2.ext fun _ h _ => h,
      fun hn => h2.right (noFault_append.mp hn).2⟩
  · obtain ⟨a, ha⟩ := h1.answers hn
    cases ha

theorem concludes_pure (hs : s.Valid) {a : α} {Q : Except Fault α → Prop} (h : Q (.ok a)) :
    Post (pure a : Job F α) s (Concludes E s Q) := post_pure ⟨Extends.refl hs, fun _ => h⟩

theorem concludes_fail (hs : s.Valid) {e : Fault} {Q : Except Fault α → Prop} (h : Q (.error e)) :
    Post (fail e : Job F α) s (Concludes E s Q) := post_fail ⟨Extends.refl hs, fun _ => h⟩

/-- A decoded file. -/
theorem propagate_goes (hs : s.Valid) {x : Except String α} {a : α} (h : x = .ok a) :
    Post (propagate x : Job F α) s (Goes E s fun _ b => b = a) := by
  rw [h]
  refine post_pure ⟨Extends.refl hs, fun b hb => ?_, fun _ => ⟨a, rfl⟩⟩
  cases hb
  rfl

/-- A file that is not decoded ends the command. -/
theorem propagate_stop (hs : s.Valid) {x : Except String α} {e : String} (h : x = .error e)
    (g : α → Job F β) {Q : Except Fault β → Prop} (hQ : Q (.error (.message e))) :
    Post (propagate x >>= g) s (Concludes E s Q) := by
  rw [h]
  exact post_stop rfl ⟨Extends.refl hs, fun _ => hQ⟩

theorem required_goes (hs : s.Valid) {x : Option α} {a : α} (h : x = some a) :
    Post (required x : Job F α) s (Goes E s fun _ b => b = a) := by
  rw [h]
  refine post_mapError (post_pure ⟨Extends.refl hs, fun b hb => ?_, fun _ => ⟨a, rfl⟩⟩)
  cases hb
  rfl

/-- **A call of the engine that has a value answers**, without a driver error. -/
theorem engine_answers {V : Type} {m : Gpu F α} {x : V} {R : Sys F → α → V → Prop}
    (ho : s.openCmd = none) (h : Meets id E.kernel 0 [] s (some x) R m) :
    Post (engine m) s (Goes E s fun s' a => R s' a x) := by
  refine post_mapError (post_mono h.run fun r s' t hr => ⟨hr.ext, fun a ha => ?_, fun hn => ?_⟩)
  · cases r with
    | error e => cases ha
    | ok b =>
      cases ha
      obtain ⟨y, hy, hR⟩ := hr.sound a rfl
      cases hy
      exact hR
  · rcases hr.answers hn (Sys.tracked_closed ho) with ⟨a, rfl⟩ | ⟨hv, -⟩
    · exact ⟨a, rfl⟩
    · cases hv

/-- A clean-up that keeps the context. -/
theorem concludes_ensure {fin : Job F Unit} {m : Job F α} {Q : Except Fault α → Prop}
    (h : Post m s (Concludes E s Q))
    (hfin : ∀ s' : Sys F, s'.Valid → Post fin s' fun _ s'' t => Extends E.kernel 0 [] s' s'' t) :
    Post (ensure fin m) s (Concludes E s Q) := by
  refine post_ensure h fun r s1 t1 h1 => post_mono (hfin s1 h1.ext.valid) fun _ s2 t2 h2 => ?_
  exact ⟨by simpa using h1.ext.trans h2 fun _ h _ => h, fun hn => h1.right (noFault_append.mp hn).1⟩

end Jobs

/-! ## 4. The two GPU engines -/

/-- The loop of both functions, over their comparison. -/
def pathsLoop (files : Files F) (compare : List F → Gpu F (List (ScaleNorms D))) (w h : Nat) :
    List String → List (String × D) → Job F (List (String × D))
  | [], out => pure out
  | vp :: variants, out => do
      let vd ← propagate (files.decodePng vp)
      if vd.w ≠ w ∨ vd.h ≠ h then fail (.message (variantSizeErr vp vd.w vd.h w h))
      else if vd.alpha.isSome then fail (.message (batchVariantAlphaErr vp))
      else do
        let vlin ← required (linearizeFrontEnd vd (F32.lit 0.5) (vd.w * vd.h))
        let scales ← engine (compare vlin)
        let s ← required (score scales)
        pathsLoop files compare w h variants (out ++ [(vp, s)])

/-- The checks on the original of both functions. -/
def checkedOriginal {α : Type} (files : Files F) (origPath : String)
    (rest : Decoded F → List F → Job F α) : Job F α := do
  let orig ← propagate (files.decodePng origPath)
  if orig.w < 8 ∨ orig.h < 8 then fail (.message belowMinimumErr)
  else if orig.alpha.isSome then fail (.message batchOrigAlphaErr)
  else do
    let origLin ← required (linearizeFrontEnd orig (F32.lit 0.5) (orig.w * orig.h))
    rest orig origLin

theorem scoreBatchPathsLoop_eq (E : Env F) (files : Files F) (prep : PrepImage) (w h : Nat)
    (variants : List String) (out : List (String × D)) :
    scoreBatchPathsLoop D E files prep w h variants out =
      pathsLoop files (fun v => comparePrepGpu E D prep v w h) w h variants out := by
  induction variants generalizing out with
  | nil => rfl
  | cons vp variants ih =>
    unfold scoreBatchPathsLoop pathsLoop
    simp only [ih]

theorem scoreNocachePathsLoop_eq (E : Env F) (files : Files F) (origLin : List F) (w h : Nat)
    (variants : List String) (out : List (String × D)) :
    scoreNocachePathsLoop D E files origLin w h variants out =
      pathsLoop files (fun v => computeSsimulacra2Gpu E D origLin v w h) w h variants out := by
  induction variants generalizing out with
  | nil => rfl
  | cons vp variants ih =>
    unfold scoreNocachePathsLoop pathsLoop
    simp only [ih]

section Paths

variable {E : Env F} {f : Launches F} {N w h : Nat} {files : Files F} {s : Sys F}
  (hlut : ClampLaw F)

include hlut

omit [F64 D] [Convert F D] in
/-- The front end of an image without alpha. -/
theorem frontEnd_answers {path : String} {d : Decoded F} (hd : files.decodePng path = .ok d)
    (ha : ¬d.alpha.isSome = true) (bg : F) (n : Nat) :
    ∃ lin, linearizeFrontEnd d bg n = some lin ∧ lin.length = 3 * d.w * d.h := by
  obtain ⟨lin, hlin, hl⟩ := toLinear8bit_answers hlut d.srgb
  refine ⟨lin, ?_, hl.trans (files.whole path d hd)⟩
  unfold linearizeFrontEnd
  rw [Option.not_isSome_iff_eq_none.mp ha]
  exact hlin

omit [Convert F D] in
/-- **The loop over the variants**, by induction on them. `I` is what the comparison needs of the
    context, and every run of the engine keeps it. -/
theorem pathsLoop_concludes {compare : List F → Gpu F (List (ScaleNorms D))} {I : Sys F → Prop}
    (hI : ∀ s s' t, Extends E.kernel 0 [] s s' t → I s → I s')
    (hs : ∀ s, I s → s.Valid ∧ s.openCmd = none)
    (hc : ∀ s, I s → ∀ v : List F, v.length = 3 * w * h → ∃ x, x.length ≤ 6 ∧
      Meets id E.kernel 0 [] s (some x) (fun _ a y => a = y) (compare v))
    (variants : List String) (out : List (String × D)) (h0 : I s) :
    Post (pathsLoop files compare w h variants out) s
      (Concludes E s (Ends (variants.findSome? (variantViolation files w h))
        (out.map Prod.fst ++ variants))) := by
  induction variants generalizing s out with
  | nil => exact concludes_pure (hs s h0).1 ⟨out, rfl, (List.append_nil _).symm⟩
  | cons vp variants ih =>
    unfold pathsLoop
    rw [List.findSome?_cons]
    cases hd : files.decodePng vp with
    | error e =>
      have hv : variantViolation files w h vp = some e := by
        unfold variantViolation
        rw [hd]
      rw [hv]
      exact propagate_stop (hs s h0).1 rfl _ ends_message
    | ok vd =>
      refine concludes_bind (propagate_goes (hs s h0).1 rfl) fun a s1 t1 he1 ha => ?_
      subst ha
      have h1 := hI _ _ _ he1 h0
      by_cases hsize : a.w ≠ w ∨ a.h ≠ h
      · have hv : variantViolation files w h vp = some (variantSizeErr vp a.w a.h w h) := by
          unfold variantViolation
          rw [hd]
          exact if_pos hsize
        rw [hv, if_pos hsize]
        exact concludes_fail (hs s1 h1).1 ends_message
      by_cases halpha : a.alpha.isSome = true
      · have hv : variantViolation files w h vp = some (batchVariantAlphaErr vp) := by
          unfold variantViolation
          rw [hd]
          exact (if_neg hsize).trans (if_pos halpha)
        rw [hv, if_neg hsize, if_pos halpha]
        exact concludes_fail (hs s1 h1).1 ends_message
      have hv : variantViolation files w h vp = none := by
        unfold variantViolation
        rw [hd]
        exact (if_neg hsize).trans (if_neg halpha)
      rw [hv, if_neg hsize, if_neg halpha]
      obtain ⟨vlin, hvlin, hl⟩ := frontEnd_answers hlut hd halpha (F32.lit 0.5) (a.w * a.h)
      have hwh : a.w = w ∧ a.h = h := by
        rw [ne_eq, ne_eq, not_or, not_not, not_not] at hsize
        exact hsize
      rw [hwh.1, hwh.2] at hl
      refine concludes_bind (required_goes (hs s1 h1).1 hvlin) fun v s2 t2 he2 e2 => ?_
      rw [← e2] at hl
      have h2 := hI _ _ _ he2 h1
      obtain ⟨x, hx6, hx⟩ := hc s2 h2 v hl
      refine concludes_bind (engine_answers (hs s2 h2).2 hx) fun scales s3 t3 he3 e3 => ?_
      subst e3
      have h3 := hI _ _ _ he3 h2
      obtain ⟨sc, hsc⟩ := score_answers hx6
      refine concludes_bind (required_goes (hs s3 h3).1 hsc) fun y s4 t4 he4 _ => ?_
      have hnext := ih (out ++ [(vp, y)]) (hI _ _ _ he4 h3)
      rwa [List.map_append, List.map_singleton, List.append_assoc, List.singleton_append] at hnext

omit [F64 D] [Convert F D] in
/-- **The checks on the original.** -/
theorem checkedOriginal_concludes {origPath : String} {variants : List String}
    {rest : Decoded F → List F → Job F (List (String × D))} (hs : s.Valid)
    (hrest : ∀ orig lin s' t, files.decodePng origPath = .ok orig →
      lin.length = 3 * orig.w * orig.h → Extends E.kernel 0 [] s s' t →
      Post (rest orig lin) s' (Concludes E s'
        (Ends (variants.findSome? (variantViolation files orig.w orig.h)) variants))) :
    Post (checkedOriginal files origPath rest) s
      (Concludes E s (Ends (firstViolation files origPath variants) variants)) := by
  unfold checkedOriginal firstViolation
  cases hd : files.decodePng origPath with
  | error e => exact propagate_stop hs rfl _ ends_message
  | ok orig =>
    refine concludes_bind (propagate_goes hs rfl) fun a s1 t1 he1 ha => ?_
    subst ha
    dsimp only
    by_cases h8 : a.w < 8 ∨ a.h < 8
    · rw [if_pos h8, if_pos h8]
      exact concludes_fail he1.valid ends_message
    by_cases halpha : a.alpha.isSome = true
    · rw [if_neg h8, if_neg h8, if_pos halpha, if_pos halpha]
      exact concludes_fail he1.valid ends_message
    rw [if_neg h8, if_neg h8, if_neg halpha, if_neg halpha]
    obtain ⟨lin, hlin, hl⟩ := frontEnd_answers hlut hd halpha (F32.lit 0.5) (a.w * a.h)
    refine concludes_bind (required_goes he1.valid hlin) fun v s2 t2 he2 e2 => ?_
    rw [← e2] at hl
    exact hrest a v s2 _ hd hl (he1.trans he2 fun _ h _ => h)

variable {rg : RgConst F} (hrg : createRecursiveGaussian F (F64.lit 1.5 : D) = some rg)
  (hc : Computes D E f N) (hf : Denote.Fits E N)

include hrg hc hf

/-- **`score_batch_paths` keeps the contract.** -/
theorem scoreBatchPaths_concludes {origPath : String} (variants : List String)
    (hb : ∀ orig, files.decodePng origPath = .ok orig → 3 * orig.w * orig.h ≤ N) (hs : s.Valid)
    (ho : s.openCmd = none) :
    Post (scoreBatchPaths D E files origPath variants) s
      (Concludes E s (Ends (firstViolation files origPath variants) variants)) := by
  show Post (checkedOriginal files origPath fun orig lin => do
    let prep ← engine (prepGpu E D lin orig.w orig.h)
    ensure (engine (dropPrep prep)) (scoreBatchPathsLoop D E files prep orig.w orig.h variants [])) s _
  refine checkedOriginal_concludes hlut hs fun orig lin s1 t1 hd hl he1 => ?_
  have hN := hb orig hd
  have hcw := hc.mono hN
  have hfits {v : List F} (hv : v.length = 3 * orig.w * orig.h) :=
    Denote.compute_fits (f := f) hf hN (by rw [hrg]; rfl) hl hv
  obtain ⟨t0, ht0⟩ := hfits hl
  obtain ⟨ps, hps, -⟩ := Option.bind_eq_some_iff.mp
    ((Denote.compute_comparePrep E f lin lin orig.w orig.h).symm.trans ht0)
  have hprep := prepGpu_meets he1.valid (he1.cmd.trans ho) lin orig.w orig.h hcw
  rw [hps] at hprep
  refine concludes_bind (engine_answers (he1.cmd.trans ho) hprep) fun img s2 t2 he2 hheld => ?_
  refine concludes_ensure ?_ fun s' hs' => post_mapError
    (post_mono (dropPrep_post (E := E) img hs') fun _ _ _ h => h.2)
  rw [scoreBatchPathsLoop_eq]
  refine pathsLoop_concludes (I := fun s => s.Valid ∧ s.openCmd = none ∧
    PrepHeld E.kernel (3 * orig.w * orig.h) s img.scales ps) hlut
    (fun s s' t he h => ⟨he.valid, he.cmd.trans h.2.1, h.2.2.stable he⟩)
    (fun s h => ⟨h.1, h.2.1⟩) (fun s h v hv => ?_) variants []
    ⟨he2.valid, he2.cmd.trans (he1.cmd.trans ho), hheld⟩
  obtain ⟨x, hx⟩ := hfits hv
  have hcmp := comparePrepGpu_meets h.1 h.2.1 h.2.2 v orig.w orig.h le_rfl hcw
  have e : Denote.comparePrep D E f ps v orig.w orig.h = some x := by
    rw [← hx, Denote.compute_comparePrep, hps, Option.bind_some]
  rw [e] at hcmp
  exact ⟨x, Denote.compute_length hx, hcmp⟩

/-- **`score_nocache_paths` keeps the contract.** -/
theorem scoreNocachePaths_concludes {origPath : String} (variants : List String)
    (hb : ∀ orig, files.decodePng origPath = .ok orig → 3 * orig.w * orig.h ≤ N) (hs : s.Valid)
    (ho : s.openCmd = none) :
    Post (scoreNocachePaths D E files origPath variants) s
      (Concludes E s (Ends (firstViolation files origPath variants) variants)) := by
  show Post (checkedOriginal files origPath fun orig lin =>
    scoreNocachePathsLoop D E files lin orig.w orig.h variants []) s _
  refine checkedOriginal_concludes hlut hs fun orig lin s1 t1 hd hl he1 => ?_
  have hN := hb orig hd
  rw [scoreNocachePathsLoop_eq]
  refine pathsLoop_concludes (I := fun s => s.Valid ∧ s.openCmd = none) hlut
    (fun s s' t he h => ⟨he.valid, he.cmd.trans h.2⟩) (fun s h => h) (fun s h v hv => ?_) variants []
    ⟨he1.valid, he1.cmd.trans ho⟩
  obtain ⟨x, hx⟩ := Denote.compute_fits (f := f) hf hN (by rw [hrg]; rfl) hl hv
  have hcmp := computeSsimulacra2Gpu_meets h.1 h.2 lin v orig.w orig.h (hc.mono hN)
  rw [hx] at hcmp
  exact ⟨x, Denote.compute_length hx, hcmp⟩

end Paths

/-! ## 5. The engine without a device -/

section Fallback

variable (files : Files F) {rg : RgConst F}
  (hrg : createRecursiveGaussian F (F64.lit 1.5 : D) = some rg) (hN : 1 ≤ rg.radius)
  (cbrtAdd : F → F → F)

include hrg hN

/-- The closure on one variant. -/
theorem scoreVariantCpu_ends {od : Decoded F} {ol : List F} (hol : ol.length = 3 * od.w * od.h)
    (vp : String) :
    match variantViolation files od.w od.h vp with
    | some text => scoreVariantCpu D files cbrtAdd od ol vp = .error (.message text)
    | none => ∃ s, scoreVariantCpu D files cbrtAdd od ol vp = .ok (vp, s) := by
  unfold variantViolation scoreVariantCpu
  cases hd : files.decodePng vp with
  | error e => rfl
  | ok vd =>
    dsimp only [Except.mapError, bind, Except.bind]
    by_cases hsize : vd.w ≠ od.w ∨ vd.h ≠ od.h
    · rw [if_pos hsize, if_pos hsize]
    by_cases halpha : vd.alpha.isSome = true
    · rw [if_neg hsize, if_neg hsize, if_pos halpha, if_pos halpha]
    rw [if_neg hsize, if_neg hsize, if_neg halpha, if_neg halpha]
    rw [ne_eq, ne_eq, not_or, not_not, not_not] at hsize
    have hvl : (toLinear vd.srgb).length = 3 * od.w * od.h := by
      rw [toLinear, List.length_map, files.whole vp vd hd, hsize.1, hsize.2]
    obtain ⟨t, ht, ht6⟩ := cpu_answers hrg hN cbrtAdd hol hvl
    obtain ⟨s, hs⟩ := score_answers ht6
    rw [ht]
    refine ⟨s, ?_⟩
    dsimp only [unwrap]
    rw [hs]
    rfl

/-- **The fallback keeps the contract.** -/
theorem scoreFallback_ends (origPath : String) (variants : List String) :
    Ends (firstViolation files origPath variants) variants
      (scoreFallback D files cbrtAdd origPath variants) := by
  unfold firstViolation scoreFallback
  cases hd : files.decodePng origPath with
  | error e => exact ends_message
  | ok od =>
    dsimp only [Except.mapError, bind, Except.bind]
    by_cases h8 : od.w < 8 ∨ od.h < 8
    · rw [if_pos h8, if_pos h8]
      exact ends_message
    by_cases halpha : od.alpha.isSome = true
    · rw [if_neg h8, if_neg h8, if_pos halpha, if_pos halpha]
      exact ends_message
    rw [if_neg h8, if_neg h8, if_neg halpha, if_neg halpha]
    have hol : (toLinear od.srgb).length = 3 * od.w * od.h := by
      rw [toLinear, List.length_map, files.whole origPath od hd]
    -- the variants are scored in order, and the first failure ends the process
    induction variants with
    | nil => exact ⟨[], rfl, rfl⟩
    | cons vp variants ih =>
      have hvp := scoreVariantCpu_ends files hrg hN cbrtAdd hol vp
      rw [List.findSome?_cons, List.mapM_cons]
      cases hv : variantViolation files od.w od.h vp with
      | some text =>
        rw [hv] at hvp
        rw [hvp]
        exact ends_message
      | none =>
        rw [hv] at hvp
        obtain ⟨s, hs⟩ := hvp
        rw [hs]
        cases hrest : variants.findSome? (variantViolation files od.w od.h) with
        | some text =>
          rw [hrest] at ih
          have e : variants.mapM (scoreVariantCpu D files cbrtAdd od (toLinear od.srgb)) =
            .error (.message text) := ih
          show _ = _
          rw [e]
          rfl
        | none =>
          rw [hrest] at ih
          obtain ⟨results, e, hpaths⟩ := ih
          refine ⟨(vp, s) :: results, ?_, by rw [List.map_cons, hpaths]⟩
          rw [e]
          rfl

end Fallback

/-! ## 6. The command -/

/-- What the command prints: the message and no score, or a line for every variant. -/
def Printed (fixed8 : D → String) (violation : Option String) (paths : List String)
    (exit : Exit) : Prop :=
  match violation with
  | some text =>
      exit.stdout = [] ∧ exit.stderr.getLast? = some ("score-many: " ++ text) ∧ exit.code = 1
  | none => exit.code = 0 ∧ ∃ results : List (String × D), results.map Prod.fst = paths ∧
      exit.stdout = results.map fun r => scoreLine D fixed8 r.1 r.2

omit [F64 D] in
theorem report_printed {fixed8 : D → String} {violation : Option String} {paths : List String}
    {r : Except Fault (List (String × D))} (notes : List String) (h : Ends violation paths r) :
    Printed fixed8 violation paths (report D fixed8 notes r) := by
  cases violation with
  | some text =>
    have e : r = .error (.message text) := h
    rw [e]
    exact ⟨rfl, List.getLast?_concat, rfl⟩
  | none =>
    obtain ⟨results, rfl, hpaths⟩ := h
    exact ⟨rfl, results, hpaths, rfl⟩

/-- A command always ends as the contract says: on any context a client can reach, on any schedule,
    when no driver call fails. -/
def AlwaysEnds (D : Type) [F64 D] [Convert F D] (E : Env F) (N : Nat)
    (m : Env F → Job F (List (String × D))) (violation : Option String) (paths : List String) :
    Prop :=
  ∀ sched junk (c : Client F), Reaches D (E.on sched junk) N c →
    NoFault (m (E.on sched junk) c.sys).trace →
      Ends violation paths (m (E.on sched junk) c.sys).result

theorem alwaysEnds_of_concludes {E : Env F} {f : Launches F} {N : Nat} (hc : Computes D E f N)
    {m : Env F → Job F (List (String × D))} {violation : Option String} {paths : List String}
    (h : ∀ sched junk (s : Sys F), s.Valid → s.openCmd = none →
      Post (m (E.on sched junk)) s (Concludes (E.on sched junk) s (Ends violation paths))) :
    AlwaysEnds D E N m violation paths := by
  intro sched junk c hr hn
  have hs := hr.sound (hc.on sched junk)
  have hrun : Concludes (E.on sched junk) c.sys (Ends violation paths)
    (m (E.on sched junk) c.sys).result (m (E.on sched junk) c.sys).state
      (m (E.on sched junk) c.sys).trace := h sched junk c.sys hs.valid hs.closed
  exact hrun.right hn

section Contract

variable {E : Env F} {f : Launches F} {N : Nat} {rg : RgConst F}

/-- **The three engines of `score-many` enforce one contract**: without a driver error the cached
    batch, the uncached one and the fallback end in the message of the first check that is violated,
    or answer every variant in its place; and the command prints the message and no score, or the
    lines of the variants, whichever engine it picked. -/
theorem scoreMany_contract (hrg : createRecursiveGaussian F (F64.lit 1.5 : D) = some rg)
    (hN : 1 ≤ rg.radius) (hlut : ClampLaw F) (hc : Computes D E f N) (hf : Denote.Fits E N)
    (cbrtAdd : F → F → F) (files : Files F) (origPath : String) (variants : List String)
    (hb : ∀ orig, files.decodePng origPath = .ok orig → 3 * orig.w * orig.h ≤ N) :
    let violation := firstViolation files origPath variants
    AlwaysEnds D E N (fun E => scoreBatchPaths D E files origPath variants) violation variants ∧
    AlwaysEnds D E N (fun E => scoreNocachePaths D E files origPath variants) violation variants ∧
    Ends violation variants (scoreFallback D files cbrtAdd origPath variants) ∧
    ∀ args varsDir noCache fixed8,
      scoreManyArgs args ⟨none, none, false⟩ = .ok ⟨some origPath, some varsDir, noCache⟩ →
      listVariants files varsDir = .ok variants →
      (∀ e, Printed fixed8 violation variants
        (runScoreMany D E files cbrtAdd fixed8 (.error e) args)) ∧
      ∀ sched junk (c : Client F), Reaches D (E.on sched junk) N c →
        NoFault (if noCache then scoreNocachePaths D (E.on sched junk) files origPath variants c.sys
          else scoreBatchPaths D (E.on sched junk) files origPath variants c.sys).trace →
        Printed fixed8 violation variants
          (runScoreMany D (E.on sched junk) files cbrtAdd fixed8 (.ok c.sys) args) := by
  intro violation
  have hfits (sched junk) : Denote.Fits (E.on sched junk) N := hf
  have hbatch : AlwaysEnds D E N (fun E => scoreBatchPaths D E files origPath variants) violation
      variants := alwaysEnds_of_concludes hc fun sched junk s hs ho =>
    scoreBatchPaths_concludes hlut hrg (hc.on sched junk) (hfits sched junk) variants hb hs ho
  have hnocache : AlwaysEnds D E N (fun E => scoreNocachePaths D E files origPath variants)
      violation variants := alwaysEnds_of_concludes hc fun sched junk s hs ho =>
    scoreNocachePaths_concludes hlut hrg (hc.on sched junk) (hfits sched junk) variants hb hs ho
  have hcpu := scoreFallback_ends files hrg hN cbrtAdd origPath variants
  refine ⟨hbatch, hnocache, hcpu, fun args varsDir noCache fixed8 hargs hlist => ?_⟩
  have hrun (E : Env F) (created : Except String (Sys F)) :
      runScoreMany D E files cbrtAdd fixed8 created args =
        scoreVariants D E files cbrtAdd fixed8 created noCache origPath variants := by
    unfold runScoreMany
    rw [hargs]
    dsimp only
    rw [hlist]
  refine ⟨fun e => ?_, fun sched junk c hr hn => ?_⟩
  · rw [hrun]
    exact report_printed _ hcpu
  · rw [hrun]
    cases noCache with
    | true => exact report_printed _ (hnocache sched junk c hr hn)
    | false => exact report_printed _ (hbatch sched junk c hr hn)

omit [F32 F] in
theorem propagate_fine {α : Type} (x : Except String α) :
    Emits Event.Fine (propagate x : Job F α) := by
  cases x with
  | ok a => exact emits_pure _
  | error e => exact emits_fail _

/-- **The cached batch meets no driver error** on a device that never fails. -/
theorem scoreBatchPaths_fine (hE : E.Healthy) (files : Files F) (origPath : String)
    (variants : List String) :
    Emits Event.Fine (scoreBatchPaths D E files origPath variants) := by
  have hloop (prep : PrepImage) (w h : Nat) (out : List (String × D)) :
      Emits Event.Fine (scoreBatchPathsLoop D E files prep w h variants out) := by
    induction variants generalizing out with
    | nil => exact emits_pure _
    | cons vp variants ih =>
      refine emits_bind (propagate_fine _) fun vd => ?_
      split_ifs
      · exact emits_fail _
      · exact emits_fail _
      · exact emits_bind (emits_mapError (orPanic_fine _ _)) fun _ =>
          emits_bind (emits_mapError (comparePrepGpu_fine hE _ _ _ _)) fun _ =>
            emits_bind (emits_mapError (orPanic_fine _ _)) fun _ => ih _
  refine emits_bind (propagate_fine _) fun orig => ?_
  split_ifs
  · exact emits_fail _
  · exact emits_fail _
  · exact emits_bind (emits_mapError (orPanic_fine _ _)) fun _ =>
      emits_bind (emits_mapError (prepGpu_fine hE _ _ _)) fun prep =>
        emits_ensure (emits_mapError (emits_each destroyBuffer_fine _)) (hloop prep _ _ _)

end Contract

/-- A black image, and nothing else. -/
noncomputable def blackFiles : Files ℝ where
  decodePng path :=
    if path = "o.png" then .ok ⟨8, 8, List.replicate 192 0, none⟩ else .error ("read " ++ path)
  whole path d h := by
    split_ifs at h
    cases h
    exact List.length_replicate
  readDir _ := .ok [.ok ⟨"o.png", true, some "png"⟩, .ok ⟨"v.png", true, some "png"⟩]

theorem exact_clampLaw : ClampLaw ℝ := by
  intro x
  have hlit : (ofNat 255 : ℝ) = 255 := by
    rw [exact_ofNat32]
    norm_num
  have hle (y : ℝ) : (if F32.lt (255 : ℝ) y then (255 : ℝ) else y) ≤ 255 := by
    by_cases h : F32.lt (255 : ℝ) y = true
    · rw [if_pos h]
    · rw [if_neg h]
      exact not_lt.mp fun hlt => h (decide_eq_true hlt)
  have h : clampF32 x 0 (ofNat 255) ≤ 255 := by
    rw [hlit]
    exact hle _
  exact Nat.lt_succ_of_le (Nat.floor_le_of_le (by exact_mod_cast h))

/-- A directory with the original and a file that is no image. -/
theorem scoreMany_contract_missing :
    (scoreBatchPaths ℝ (shading ℝ cbrtAddExact) blackFiles "o.png" ["o.png", "v.png"]
      (.fresh ℝ)).result = .error (.message "read v.png") ∧
    scoreFallback ℝ blackFiles cbrtAddExact "o.png" ["o.png", "v.png"] =
      .error (.message "read v.png") := by
  have hc : Computes ℝ (shading ℝ cbrtAddExact) ((shading ℝ cbrtAddExact).launches ℝ) 192 :=
    shading_computes _ 192
  have hf : Denote.Fits (shading ℝ cbrtAddExact) 192 := shading_fits _ (by decide)
  have hE : (shading ℝ cbrtAddExact).Healthy := fun _ => rfl
  obtain ⟨beta, hrg, -, -⟩ := gaussian_kernel
  have ho : blackFiles.decodePng "o.png" = .ok ⟨8, 8, List.replicate 192 0, none⟩ := rfl
  have hb : ∀ orig, blackFiles.decodePng "o.png" = .ok orig → 3 * orig.w * orig.h ≤ 192 := by
    intro orig h
    rw [ho] at h
    cases h
    exact le_rfl
  have hv : firstViolation blackFiles "o.png" ["o.png", "v.png"] = some "read v.png" := rfl
  have hfine := scoreBatchPaths_fine (D := ℝ) hE blackFiles "o.png" ["o.png", "v.png"]
  obtain ⟨hbatch, -, hcpu, -⟩ := scoreMany_contract hrg (show 1 ≤ 5 by decide) exact_clampLaw hc hf
    cbrtAddExact blackFiles "o.png" ["o.png", "v.png"] hb
  rw [hv] at hbatch hcpu
  have hn := noFault_of_emits hfine (Sys.fresh ℝ)
  exact ⟨hbatch (shading ℝ cbrtAddExact).sched (shading ℝ cbrtAddExact).junk (.fresh ℝ) .fresh hn,
    hcpu⟩

end Ssimulacra2
