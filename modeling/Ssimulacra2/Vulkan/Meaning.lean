/-
  File:      Ssimulacra2/Vulkan/Meaning.lean
  Subject:   The engine computes its values: every function of `gpu_pipeline.rs` meets `Denote`.

  The proofs follow the source launch by launch. What is new in a step was not in use before, so
  the buffers read by later launches still hold what earlier ones wrote (`Holds.stable`).
-/
import Ssimulacra2.Vulkan.Values

namespace Ssimulacra2

open Fallible Prog

variable {F : Type} {D : Type} [F32 F] [F64 D] [Convert F D]

/-! ## 1. One dispatch -/

section Dispatch

variable {E : Env F} {s : Sys F}

theorem fit_self {n : Nat} {xs : List F} (h : xs.length = n) : fit n xs = xs := by
  unfold fit
  exact List.take_left' h

/-- A binding that keeps its content. -/
theorem storeAll_in {mem : Nat → List F} {b : GpuBuffer} {bs : List GpuBuffer} {x : List F}
    {xss : List (List F)} (hx : mem b.memory = x) (hl : b.size = 4 * x.length) :
    storeAll mem (b :: bs) (x :: xss) = storeAll mem bs xss := by
  have e : store mem b.memory (fit (b.size / 4) x) = mem := by
    rw [hl, Nat.mul_div_cancel_left _ (by decide), fit_self rfl, ← hx]
    exact Function.update_eq_self _ _
  rw [storeAll, e]

/-- A binding that is written. -/
theorem storeAll_out {mem : Nat → List F} {b : GpuBuffer} {bs : List GpuBuffer} {n : Nat}
    (y : List F) (xss : List (List F)) (hl : b.size = 4 * n) :
    storeAll mem (b :: bs) (y :: xss) = storeAll (store mem b.memory (fit n y)) bs xss := by
  rw [storeAll, hl, Nat.mul_div_cancel_left _ (by decide)]

/-- A new buffer of `n` samples and its contents. -/
structure Made (K : Kernel F) (n : Nat) (s s' : Sys F) (b : GpuBuffer) (xs : List F) : Prop where
  holds : Holds K s' b xs
  new : s.next ≤ b.memory
  length : xs.length = n

theorem Made.size {K : Kernel F} {n : Nat} {s s' : Sys F} {b : GpuBuffer} {xs : List F}
    (h : Made K n s s' b xs) : b.size = 4 * n := by rw [h.holds.size, h.length]

/-- What was in use before is another memory. -/
theorem Made.ne {K : Kernel F} {n : Nat} {s s' : Sys F} {b : GpuBuffer} {xs : List F} {m : Nat}
    (h : Made K n s s' b xs) (hm : s.Private m) : m ≠ b.memory :=
  Nat.ne_of_lt (lt_of_lt_of_le hm.1 h.new)

theorem createEmpty_meets (hs : s.Valid) (n : Nat) :
    Meets id E.kernel 0 [] s (some (fit n (E.junk s.allocs))) (Made E.kernel n s)
      (createEmpty E n) := by
  unfold createEmpty
  rw [Nat.mul_comm]
  have h := (allocBuffer_meets (E := E) hs n).run
  refine post_mono h fun r s' t hr => ⟨hr.ext, fun b hb => ?_, hr.answers, hr.proper⟩
  obtain ⟨x, hx, h1, -, h2, -⟩ := hr.sound b hb
  cases hx
  exact ⟨_, rfl, h1, h2, fit_length _ _⟩

/-- A dispatch that writes one buffer. -/
theorem dispatch_meets (hs : s.Valid) {shader : Shader} {bufs : List GpuBuffer} {groupsX : Nat}
    {push : List (Word F)} {m : Nat} {y : List F} (hbufs : ∀ b ∈ bufs, s.Private b.memory)
    (hl : launched E.kernel (s.view E.kernel) shader push (splitGroups groupsX E.maxGroupsX) bufs =
      store (s.view E.kernel) m y) :
    Meets id E.kernel 1 [m] s (Denote.launch E groupsX y)
      (fun s' _ xs => s'.view E.kernel = store (s.view E.kernel) m y ∧ xs = y)
      (runComputePush E shader bufs groupsX push) := by
  refine Meets.map (runComputePush_meets hs shader hbufs groupsX push fun b _ hm => ?_)
    fun s' _ _ h => ⟨h.1.trans hl, rfl⟩
  rw [hl]
  exact Function.update_of_ne (fun h => hm (List.mem_singleton.mpr h)) _ _

/-- The shape of the helpers: a new buffer, and a dispatch that writes it. -/
theorem launchInto_meets (hs : s.Valid) {n groupsX : Nat} {shader : Shader} {push : List (Word F)}
    {bufs : GpuBuffer → List GpuBuffer} {y : List F}
    (hbufs : ∀ dst, ∀ b ∈ bufs dst, b = dst ∨ s.Private b.memory)
    (hl : ∀ mem dst, (∀ m, s.Private m → mem m = s.view E.kernel m) →
      (mem dst.memory).length = n → dst.size = 4 * n →
      launched E.kernel mem shader push (splitGroups groupsX E.maxGroupsX) (bufs dst) =
        store mem dst.memory (fit n y)) :
    Meets id E.kernel 1 [] s (Denote.launch E groupsX (fit n y)) (Made E.kernel n s)
      (do
        let dst ← createEmpty E n
        dispatchInto dst (runComputePush E shader (bufs dst) groupsX push)) := by
  have hnil {s : Sys F} : ∀ m ∈ ([] : List Nat), s.Private m → m ∈ ([] : List Nat) := fun _ h _ => h
  refine post_bind (createEmpty_meets hs n).run (fun dst s1 t1 h1 => ?_)
    fun e s1 t1 h1 => h1.carry (Nat.zero_le 1) hnil
  obtain ⟨_, hx, hm'⟩ := h1.sound dst rfl
  cases hx
  have hd := hm'.holds
  have hsize := hm'.size
  have hbufs1 : ∀ b ∈ bufs dst, s1.Private b.memory := by
    intro b hb
    rcases hbufs dst b hb with rfl | h
    · exact hd.priv
    · exact h1.ext.priv _ h
  have hl1 := hl (s1.view E.kernel) dst (fun m hm => h1.ext.view m hm List.not_mem_nil)
    (by rw [hd.view, fit_length]) hsize
  have hW : ∀ m ∈ [dst.memory], s.Private m → m ∈ ([] : List Nat) := by
    intro m hm hp
    rw [List.mem_singleton.mp hm] at hp
    exact absurd rfl (hm'.ne hp)
  have hext : Extends E.kernel 1 [] s s1 t1 := h1.ext.mono (Nat.zero_le 1) hnil
  unfold dispatchInto
  refine post_bind (M := fun r s' t => Runs E.kernel 1 [] s (Denote.launch E groupsX (fit n y))
    (fun s' _ xs => Holds E.kernel s' dst xs ∧ xs.length = n) r s' (t1 ++ t))
    (post_onError (dispatch_meets h1.ext.valid hbufs1 hl1).run (fun _ s2 t2 h2 => ?_)
      fun e s2 t2 h2 => ?_) (fun _ s2 t2 h2 => ?_) fun e s2 t2 h2 => ?_
  · refine ⟨h1.ext.trans h2.ext hW, fun _ ha => ?_, fun _ _ => Or.inl ⟨(), rfl⟩, nofun⟩
    obtain ⟨_, hx, hv, rfl⟩ := h2.sound () rfl
    refine ⟨_, hx, ⟨h2.ext.priv _ hd.priv, ?_, ?_⟩, fit_length _ _⟩
    · rw [hv]
      exact Function.update_self _ _ _
    · rw [fit_length, hsize]
  · refine post_mono (destroyBuffer_post (K := E.kernel) h2.ext.valid dst) fun _ s3 t3 h3 => ?_
    have h := h2.after h1.ext hW
    refine ⟨by simpa using h.ext.trans h3.2.1 hnil, fun _ ha => (nomatch ha), fun hn hu => ?_,
      h2.proper⟩
    rw [← List.append_assoc] at hn
    rcases h.answers (noFault_append.mp hn).1 hu with ⟨_, ha⟩ | ⟨hv, hr⟩
    · cases ha
    · refine Or.inr ⟨hv, hr⟩
  · refine post_pure ⟨by simpa using h2.ext, fun b hb => ?_, fun _ _ => Or.inl ⟨dst, rfl⟩, nofun⟩
    cases hb
    obtain ⟨xs, hx, h⟩ := h2.sound () rfl
    exact ⟨xs, hx, h.1, hm'.new, h.2⟩
  · refine ⟨h2.ext, (fun _ ha => nomatch ha), fun hn hu => ?_, fun e' h => ?_⟩
    swap
    · cases h
      exact h2.proper e rfl
    rcases h2.answers hn hu with ⟨_, ha⟩ | h
    · cases ha
    · obtain ⟨e', he, hr⟩ := h.2
      cases he
      exact Or.inr ⟨h.1, e, rfl, hr⟩

end Dispatch

/-! ## 2. The launches -/

section Launches

variable {E : Env F} {f : Launches F} {N : Nat} {s : Sys F}

theorem downsample_meets (hc : Computes D E f N) (hs : s.Valid) {src : GpuBuffer} {xs : List F}
    {iw ih : Nat} (h : Holds E.kernel s src xs) (hl : xs.length = 3 * iw * ih)
    (hN : 3 * iw * ih ≤ N) :
    Meets id E.kernel 1 [] s (Denote.downsample E f xs iw ih)
      (Made E.kernel (3 * ((iw + 1) / 2) * ((ih + 1) / 2)) s)
      (downsample E src iw ih) := by
  unfold downsample
  refine launchInto_meets hs (fun dst b hb => ?_) fun mem dst hm hlen hsize => ?_
  · rcases List.mem_pair.mp hb with rfl | rfl
    · exact Or.inr h.priv
    · exact Or.inl rfl
  · have hsrc : mem src.memory = xs := (hm _ h.priv).trans h.view
    unfold launched
    rw [List.map_cons, List.map_singleton, hsrc, hc.downsample iw ih xs _ hN hl hlen,
      storeAll_in hsrc h.size, storeAll_out _ _ hsize]
    rfl

theorem mulGpu_meets (hc : Computes D E f N) (hs : s.Valid) {a b : GpuBuffer} {xs ys : List F}
    {n : Nat} (ha : Holds E.kernel s a xs) (hb : Holds E.kernel s b ys) (hla : xs.length = n)
    (hlb : ys.length = n) (hN : n ≤ N) :
    Meets id E.kernel 1 [] s (Denote.mul E f xs ys n) (Made E.kernel n s) (mulGpu E a b n) := by
  unfold mulGpu
  refine launchInto_meets hs (fun dst b' hb' => ?_) fun mem dst hm hlen hsize => ?_
  · rcases List.mem_cons.mp hb' with rfl | hb'
    · exact Or.inr ha.priv
    rcases List.mem_pair.mp hb' with rfl | rfl
    · exact Or.inr hb.priv
    · exact Or.inl rfl
  · have hma : mem a.memory = xs := (hm _ ha.priv).trans ha.view
    have hmb : mem b.memory = ys := (hm _ hb.priv).trans hb.view
    unfold launched
    rw [List.map_cons, List.map_cons, List.map_singleton, hma, hmb,
      hc.mul n xs ys _ hN hla hlb hlen, storeAll_in hma ha.size, storeAll_in hmb hb.size,
      storeAll_out _ _ hsize]
    rfl

theorem xybConvert_meets (hc : Computes D E f N) (hs : s.Valid) {src : GpuBuffer} {xs : List F}
    {n : Nat} (h : Holds E.kernel s src xs) (hl : xs.length = 3 * n) (hN : 3 * n ≤ N) :
    Meets id E.kernel 1 [] s (Denote.xyb E f xs n) (Made E.kernel (3 * n) s)
      (xybConvert E D src n true) := by
  unfold xybConvert
  refine launchInto_meets hs (fun dst b hb => ?_) fun mem dst hm hlen hsize => ?_
  · rcases List.mem_pair.mp hb with rfl | rfl
    · exact Or.inr h.priv
    · exact Or.inl rfl
  · have hsrc : mem src.memory = xs := (hm _ h.priv).trans h.view
    unfold launched
    rw [List.map_cons, List.map_singleton, hsrc, hc.xyb n xs _ hN hl hlen,
      storeAll_in hsrc h.size, storeAll_out _ _ hsize]
    rfl

theorem Computes.enter (hc : Computes D E f N) (fn : Fn) : Computes D (E.enter fn) f N :=
  ⟨hc.downsample, hc.mul, hc.xyb, hc.blurH, hc.blurV, hc.maps⟩

theorem rgUpload_length (rg : RgConst F) : (rgUpload rg).length = 64 := rfl

/-- The two passes of the blur. -/
theorem blurPasses_meets (hc : Computes D E f N) (hs : s.Valid) (rg : RgConst F)
    {input temp out rgbuf : GpuBuffer} {xs ts os : List F} {w h : Nat}
    (hi : Holds E.kernel s input xs) (ht : Holds E.kernel s temp ts) (ho : Holds E.kernel s out os)
    (hr : Holds E.kernel s rgbuf (rgUpload rg)) (hlx : xs.length = 3 * w * h)
    (hlt : ts.length = 3 * w * h) (hlo : os.length = 3 * w * h) (hN : 3 * w * h ≤ N)
    (hrt : rgbuf.memory ≠ temp.memory) (hro : rgbuf.memory ≠ out.memory)
    (hto : temp.memory ≠ out.memory) :
    Meets id E.kernel 2 [temp.memory, out.memory] s (Denote.blur E f rg xs w h)
      (fun s' _ ys => Holds E.kernel s' out ys ∧ ys.length = 3 * w * h)
      (do
        runComputePush E .blurH [input, temp, rgbuf] (groupsOf (E.asU32 (3 * h)))
          (pushBytes rg (E.asU32 w) (E.asU32 h))
        runComputePush E .blurV [temp, out, rgbuf] (groupsOf (E.asU32 (3 * w)))
          (pushBytes rg (E.asU32 w) (E.asU32 h))) := by
  have hbufs {s : Sys F} {a b c : GpuBuffer} (ha : s.Private a.memory) (hb : s.Private b.memory)
      (hc : s.Private c.memory) : ∀ d ∈ [a, b, c], s.Private d.memory := by
    intro d hd
    rcases List.mem_cons.mp hd with rfl | hd
    · exact ha
    rcases List.mem_pair.mp hd with rfl | rfl
    · exact hb
    · exact hc
  have hl1 : launched E.kernel (s.view E.kernel) .blurH (pushBytes rg (E.asU32 w) (E.asU32 h))
      (splitGroups (groupsOf (E.asU32 (3 * h))) E.maxGroupsX) [input, temp, rgbuf] =
      store (s.view E.kernel) temp.memory
        (fit (3 * w * h) (f.blurH rg.radius w h (rgUpload rg) xs)) := by
    unfold launched pushBytes
    rw [List.map_cons, List.map_cons, List.map_singleton, hi.view, ht.view, hr.view,
      hc.blurH _ w h _ _ _ hN hlx hlt (rgUpload_length rg), storeAll_in hi.view hi.size,
      storeAll_out _ _ (by rw [ht.size, hlt]), storeAll_in ?_ hr.size]
    · rfl
    · exact (Function.update_of_ne hrt _ _).trans hr.view
  refine Meets.bind (k := 1) (j := 1) (Z := [out.memory])
    ((dispatch_meets hs (hbufs hi.priv ht.priv hr.priv) hl1).mono le_rfl
      (fun m hm _ => List.mem_cons.mpr (Or.inl (List.mem_singleton.mp hm))) fun _ _ _ h => h)
    (fun _ y s1 t1 he hy => ?_) fun m hm _ => List.mem_cons_of_mem _ hm
  obtain ⟨hv, rfl⟩ := hy
  have hp1 {b : GpuBuffer} (h : s.Private b.memory) : s1.Private b.memory := he.priv _ h
  have hv : s1.view E.kernel = store (s.view E.kernel) temp.memory
      (fit (3 * w * h) (f.blurH rg.radius w h (rgUpload rg) xs)) := hv
  have htemp : s1.view E.kernel temp.memory =
      fit (3 * w * h) (f.blurH rg.radius w h (rgUpload rg) xs) := by
    rw [hv]
    exact Function.update_self _ _ _
  have hrg : s1.view E.kernel rgbuf.memory = rgUpload rg := by
    rw [hv]
    exact (Function.update_of_ne hrt _ _).trans hr.view
  have hout : s1.view E.kernel out.memory = os := by
    rw [hv]
    exact (Function.update_of_ne hto.symm _ _).trans ho.view
  have hl2 : launched E.kernel (s1.view E.kernel) .blurV (pushBytes rg (E.asU32 w) (E.asU32 h))
      (splitGroups (groupsOf (E.asU32 (3 * w))) E.maxGroupsX) [temp, out, rgbuf] =
      store (s1.view E.kernel) out.memory (fit (3 * w * h) (f.blurV rg.radius w h (rgUpload rg)
        (fit (3 * w * h) (f.blurH rg.radius w h (rgUpload rg) xs)))) := by
    unfold launched pushBytes
    rw [List.map_cons, List.map_cons, List.map_singleton, htemp, hout, hrg,
      hc.blurV _ w h _ _ _ hN (fit_length _ _) hlo (rgUpload_length rg),
      storeAll_in htemp (by rw [ht.size, hlt, fit_length]), storeAll_out _ _ (by rw [ho.size, hlo]),
      storeAll_in ?_ hr.size]
    · rfl
    · exact (Function.update_of_ne hro _ _).trans hrg
  have h2 := (dispatch_meets he.valid (hbufs (hp1 ht.priv) (hp1 ho.priv) (hp1 hr.priv)) hl2).run
  refine post_mono h2 fun r s2 t2 h => ⟨h.ext, fun a ha => ?_, h.answers, h.proper⟩
  obtain ⟨_, hy, hv2, rfl⟩ := h.sound a ha
  refine ⟨_, hy, ⟨h.ext.priv _ (hp1 ho.priv), ?_, ?_⟩, fit_length _ _⟩
  · refine (congrFun hv2 _).trans ?_
    exact Function.update_self _ _ _
  · rw [ho.size, hlo, fit_length]

/-- **`blur_planes`**: the horizontal pass, then the vertical one on its output. -/
theorem blurPlanes_meets (hc : Computes D E f N) (hs : s.Valid) (rg : RgConst F) {input : GpuBuffer}
    {xs : List F} {w h : Nat} (hi : Holds E.kernel s input xs) (hl : xs.length = 3 * w * h)
    (hN : 3 * w * h ≤ N) :
    Meets id E.kernel 2 [] s (Denote.blur E f rg xs w h) (Made E.kernel (3 * w * h) s)
      (blurPlanes E rg input w h) := by
  have hnil {s : Sys F} : ∀ m ∈ ([] : List Nat), s.Private m → m ∈ ([] : List Nat) := fun _ h _ => h
  unfold blurPlanes
  dsimp only
  refine post_bind (createBufferF32_meets (E := E.enter .blurPlanes) hs (rgUpload rg)).run
    (fun rgbuf s1 t1 h1 => ?_) fun e s1 t1 h1 => h1.carry (Nat.zero_le 2) hnil
  obtain ⟨_, hx, hrg, -, hnew1, -⟩ := h1.sound rgbuf rfl
  cases hx
  refine post_bind (createEmpty_meets (E := E.enter .blurPlanes) h1.ext.valid _).run
    (fun temp s2 t2 h2 => ?_) fun e s2 t2 h2 => (h2.carry (Nat.zero_le 2) hnil).after h1.ext hnil
  obtain ⟨_, hx, hm2⟩ := h2.sound temp rfl
  cases hx
  have he2 := h1.ext.trans h2.ext hnil
  refine post_bind (createEmpty_meets (E := E.enter .blurPlanes) h2.ext.valid _).run
    (fun out s3 t3 h3 => ?_) fun e s3 t3 h3 => ?_
  · obtain ⟨_, hx, hm3⟩ := h3.sound out rfl
    cases hx
    have he3 := he2.trans h3.ext hnil
    have hrg2 := hrg.stable h2.ext List.not_mem_nil
    have hp := blurPasses_meets (hc.enter .blurPlanes) he3.valid rg (hi.stable he3 List.not_mem_nil)
      (hm2.holds.stable h3.ext List.not_mem_nil) hm3.holds (hrg2.stable h3.ext List.not_mem_nil) hl
      hm2.length hm3.length hN (hm2.ne hrg.priv) (hm3.ne hrg2.priv) (hm3.ne hm2.holds.priv)
    -- the two outputs were made here
    have hW : ∀ m ∈ [temp.memory, out.memory], s.Private m → m ∈ ([] : List Nat) := by
      intro m hm hpm
      rcases List.mem_pair.mp hm with rfl | rfl
      · exact absurd rfl (hm2.ne (h1.ext.priv _ hpm))
      · exact absurd rfl (hm3.ne (he2.priv _ hpm))
    refine post_bind (M := fun r s4 t => ∃ r', r = .ok r' ∧
      Runs E.kernel 2 [temp.memory, out.memory] s3 (Denote.blur E f rg xs w h)
        (fun s' _ ys => Holds E.kernel s' out ys ∧ ys.length = 3 * w * h) r' s4 t)
      (post_observe (post_mono hp.run fun r s' t h => ⟨r, rfl, h⟩)) ?_ ?_
    · rintro r s4 t4 ⟨r', hr, h4⟩
      cases hr
      refine post_bind (destroyBuffer_post (K := E.kernel) h4.ext.valid rgbuf) (fun _ s5 t5 h5 => ?_)
        fun e s5 t5 h5 => nomatch h5.1
      refine post_bind (destroyBuffer_post (K := E.kernel) h5.2.1.valid temp) (fun _ s6 t6 h6 => ?_)
        fun e s6 t6 h6 => nomatch h6.1
      have h46 := h5.2.1.trans h6.2.1 hnil
      have hall := (he3.trans h4.ext hW).trans h46 hnil
      have hanswers := (h4.after (he3.mono le_rfl hnil) hW).answers
      cases r with
      | ok _ =>
        refine post_pure ⟨by simpa using hall, fun a ha => ?_, fun _ _ => Or.inl ⟨out, rfl⟩, nofun⟩
        cases ha
        obtain ⟨ys, hy, hho, hly⟩ := h4.sound () rfl
        exact ⟨ys, hy, hho.stable h46 List.not_mem_nil, le_trans he2.next_le hm3.new, hly⟩
      | error e =>
        refine post_fail ⟨by simpa using hall, (fun _ ha => nomatch ha), fun hn hu => ?_,
          fun e' h => ?_⟩
        swap
        · cases h
          exact h4.proper e rfl
        simp only [noFault_append] at hn hanswers
        rcases hanswers ⟨⟨⟨hn.1, hn.2.1⟩, hn.2.2.1⟩, hn.2.2.2.1⟩ (by simpa using hu) with
          ⟨_, ha⟩ | ⟨hv, e', he, hr⟩
        · cases ha
        · cases he
          exact Or.inr ⟨hv, e, rfl, hr⟩
    · rintro e s4 t4 ⟨r', hr, -⟩
      cases hr
  · exact ((h3.carry (Nat.zero_le 2) hnil).after h2.ext hnil).after h1.ext hnil

/-- **`maps_combine`** on two new buffers. -/
theorem mapsCombine_meets (hc : Computes D E f N) (hs : s.Valid)
    {x1 x2 mu1 mu2 s11 s22 s12 sd ed : GpuBuffer} {n : Nat}
    {vx1 vx2 vmu1 vmu2 vs11 vs22 vs12 vsd ved : List F} (hN : 3 * n ≤ N)
    (h : List.Forall₂ (fun b xs => Holds E.kernel s b xs ∧ xs.length = 3 * n)
      [x1, x2, mu1, mu2, s11, s22, s12] [vx1, vx2, vmu1, vmu2, vs11, vs22, vs12])
    (hsd : Holds E.kernel s sd vsd) (hed : Holds E.kernel s ed ved) (lsd : vsd.length = 3 * n)
    (led : ved.length = 3 * n) (hne : sd.memory ≠ ed.memory) :
    Meets id E.kernel 1 [sd.memory, ed.memory] s
      (Denote.maps E f vx1 vx2 vmu1 vmu2 vs11 vs22 vs12 n)
      (fun s' _ both => Holds E.kernel s' sd both.1 ∧ Holds E.kernel s' ed both.2)
      (mapsCombine E x1 x2 mu1 mu2 s11 s22 s12 sd ed n) := by
  let both := f.maps n vx1 vx2 vmu1 vmu2 vs11 vs22 vs12
  simp only [List.forall₂_cons, List.forall₂_nil_right_iff] at h
  obtain ⟨⟨h1, l1⟩, ⟨h2, l2⟩, ⟨h3, l3⟩, ⟨h4, l4⟩, ⟨h5, l5⟩, ⟨h6, l6⟩, ⟨h7, l7⟩, -⟩ := h
  have hbufs : ∀ b ∈ [x1, x2, mu1, mu2, s11, s22, s12, sd, ed], s.Private b.memory := by
    simp only [List.forall_mem_cons]
    exact ⟨h1.priv, h2.priv, h3.priv, h4.priv, h5.priv, h6.priv, h7.priv, hsd.priv, hed.priv,
      fun _ h => (nomatch h)⟩
  have hlens : ∀ xs ∈ [vx1, vx2, vmu1, vmu2, vs11, vs22, vs12, vsd, ved], xs.length = 3 * n := by
    simp only [List.forall_mem_cons]
    exact ⟨l1, l2, l3, l4, l5, l6, l7, lsd, led, fun _ h => (nomatch h)⟩
  have hl : launched E.kernel (s.view E.kernel) .mapsCombine [.u32 (E.asU32 n)]
      (splitGroups (groupsOf (E.asU32 (3 * n))) E.maxGroupsX)
      [x1, x2, mu1, mu2, s11, s22, s12, sd, ed] =
      store (store (s.view E.kernel) sd.memory (fit (3 * n) both.1)) ed.memory
        (fit (3 * n) both.2) := by
    unfold launched
    simp only [List.map_cons, List.map_nil, h1.view, h2.view, h3.view, h4.view, h5.view, h6.view,
      h7.view, hsd.view, hed.view]
    rw [hc.maps n vx1 vx2 vmu1 vmu2 vs11 vs22 vs12 vsd ved hN hlens, storeAll_in h1.view h1.size,
      storeAll_in h2.view h2.size, storeAll_in h3.view h3.size, storeAll_in h4.view h4.size,
      storeAll_in h5.view h5.size, storeAll_in h6.view h6.size, storeAll_in h7.view h7.size,
      storeAll_out _ _ (by rw [hsd.size, lsd]), storeAll_out _ _ (by rw [hed.size, led])]
    rfl
  have hrun := (runComputePush_meets (W := [sd.memory, ed.memory]) hs .mapsCombine hbufs
    (groupsOf (E.asU32 (3 * n))) [.u32 (E.asU32 n)] fun b _ hm => by
      rw [List.mem_pair, not_or] at hm
      rw [hl]
      exact (Function.update_of_ne hm.2 _ _).trans (Function.update_of_ne hm.1 _ _)).run
  refine Meets.map (V := Unit) (g := fun _ => (fit (3 * n) both.1, fit (3 * n) both.2))
    (R := fun s' _ _ => Holds E.kernel s' sd (fit (3 * n) both.1) ∧
      Holds E.kernel s' ed (fit (3 * n) both.2))
    (post_mono hrun fun r s' t hr => ⟨hr.ext, fun a ha => ?_, hr.answers, hr.proper⟩) fun _ _ _ h => h
  obtain ⟨u, hu, hv, -⟩ := hr.sound a ha
  rw [hl] at hv
  refine ⟨u, hu, ⟨hr.ext.priv _ hsd.priv, ?_, ?_⟩, hr.ext.priv _ hed.priv, ?_, ?_⟩
  · refine (congrFun hv _).trans ((Function.update_of_ne hne _ _).trans ?_)
    exact Function.update_self _ _ _
  · rw [hsd.size, lsd, fit_length]
  · exact (congrFun hv _).trans (Function.update_self _ _ _)
  · rw [hed.size, led, fit_length]

end Launches

end Ssimulacra2
