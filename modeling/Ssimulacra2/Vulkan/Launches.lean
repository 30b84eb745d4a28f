/-
  File:      Ssimulacra2/Vulkan/Launches.lean
  Subject:   Every launch of the engine covers its elements once and stays inside its buffers.

  `invoke` is one invocation of a kernel, in 32-bit arithmetic, on the contents of the bound
  buffers. A launch is sound (`SoundLaunch`) for a number of elements when its grid covers them
  exactly once, the guard of the kernel tests just that number, and no invocation leaves a buffer.
  The launches are read off the trace: `Event.Launches` looks at what a run records.
-/
import Ssimulacra2.Lib.Triples
import Ssimulacra2.Vulkan.Grid
import Ssimulacra2.Vulkan.Meaning

namespace Ssimulacra2

open Fallible Prog

variable {F : Type} {D : Type}

/-! ## 1. One invocation -/

section Invoke

variable [F32 F] [F64 D] [Convert F D]

/-- The count a kernel tests its flat index against. -/
def guardCount : Shader → List (Word F) → Option UInt32
  | .downsampleBox2, [.u32 _, .u32 _, .u32 ow, .u32 oh] =>
      some (Shader32.downsampleCount (UInt32.ofNat ow) (UInt32.ofNat oh))
  | .mulPlanes, [.u32 n] => some (UInt32.ofNat n)
  | .xybPositive, push => (Shader.xybConsts push).map fun k => UInt32.ofNat k.n
  | .blurH, [.u32 _, .u32 h, .u32 _] => some (Shader32.tripleCount (UInt32.ofNat h))
  | .blurV, [.u32 w, .u32 _, .u32 _] => some (Shader32.tripleCount (UInt32.ofNat w))
  | .mapsCombine, [.u32 n] => some (Shader32.tripleCount (UInt32.ofNat n))
  | _, _ => none

/-- The 64 coefficients of a binding. -/
def coeffsOf (rg : List F) : Option (Fin 64 → F) :=
  if h : rg.length = 64 then some fun i => rg.get (i.cast h.symm) else none

/-- The invocation with flat index `i`, on the contents of the bindings: `none` is an access
    outside a buffer, or bindings that are not those of the shader. -/
def invoke (D : Type) [F64 D] [Convert F D] (cbrtAdd : F → F → F) :
    Shader → List (Word F) → UInt32 → List (List F) → Option (List (List F))
  | .downsampleBox2, [.u32 iw, .u32 ih, .u32 ow, .u32 oh], i, [src, dst] =>
      (Shader32.downsampleMain src (UInt32.ofNat iw) (UInt32.ofNat ih) (UInt32.ofNat ow)
        (UInt32.ofNat oh) i dst).map fun dst => [src, dst]
  | .mulPlanes, [.u32 n], i, [a, b, o] =>
      (Shader32.mulMain a b (UInt32.ofNat n) i o).map fun o => [a, b, o]
  | .xybPositive, push, i, [lin, xyb] =>
      (Shader.xybConsts push).bind fun k =>
        (Shader32.xybMain cbrtAdd k lin (UInt32.ofNat k.n) i xyb).map fun xyb => [lin, xyb]
  | .blurH, [.u32 w, .u32 h, .u32 radius], i, [src, dst, rg] =>
      (coeffsOf rg).bind fun coeffs =>
        (Shader32.blurHMain (fun u => src[u.toNat]?) (fun u => writeAt u.toNat) coeffs
          (UInt32.ofNat w) (UInt32.ofNat h) (UInt32.ofNat radius) i dst).map fun dst =>
            [src, dst, rg]
  | .blurV, [.u32 w, .u32 h, .u32 radius], i, [src, dst, rg] =>
      (coeffsOf rg).bind fun coeffs =>
        (Shader32.blurVMain (fun u => src[u.toNat]?) (fun u => writeAt u.toNat) coeffs
          (UInt32.ofNat w) (UInt32.ofNat h) (UInt32.ofNat radius) i dst).map fun dst =>
            [src, dst, rg]
  | .mapsCombine, [.u32 n], i, [x1, x2, mu1, mu2, s11, s22, s12, sd, ed] =>
      (Shader32.mapsMain D ⟨n, 1, x1, x2, s11, s22, s12, mu1, mu2⟩ (UInt32.ofNat n) i
        (sd, ed)).map fun out => [x1, x2, mu1, mu2, s11, s22, s12, out.1, out.2]
  | _, _, _, _ => none

omit [F32 F] in
theorem guardCount_xyb (push : List (Word F)) : guardCount .xybPositive push =
    (Shader.xybConsts push).map fun k => UInt32.ofNat k.n := rfl

theorem invoke_xyb (cbrtAdd : F → F → F) (push : List (Word F)) (i : UInt32) (lin xyb : List F) :
    invoke D cbrtAdd .xybPositive push i [lin, xyb] =
      (Shader.xybConsts push).bind fun k =>
        (Shader32.xybMain cbrtAdd k lin (UInt32.ofNat k.n) i xyb).map fun xyb => [lin, xyb] := rfl

theorem invoke_blurH (cbrtAdd : F → F → F) (w h radius : Nat) (i : UInt32) (src dst rg : List F) :
    invoke D cbrtAdd .blurH [.u32 w, .u32 h, .u32 radius] i [src, dst, rg] =
      (coeffsOf rg).bind fun coeffs =>
        (Shader32.blurHMain (fun u => src[u.toNat]?) (fun u => writeAt u.toNat) coeffs
          (UInt32.ofNat w) (UInt32.ofNat h) (UInt32.ofNat radius) i dst).map fun dst =>
            [src, dst, rg] := rfl

theorem invoke_blurV (cbrtAdd : F → F → F) (w h radius : Nat) (i : UInt32) (src dst rg : List F) :
    invoke D cbrtAdd .blurV [.u32 w, .u32 h, .u32 radius] i [src, dst, rg] =
      (coeffsOf rg).bind fun coeffs =>
        (Shader32.blurVMain (fun u => src[u.toNat]?) (fun u => writeAt u.toNat) coeffs
          (UInt32.ofNat w) (UInt32.ofNat h) (UInt32.ofNat radius) i dst).map fun dst =>
            [src, dst, rg] := rfl

theorem coeffsOf_eq {rg : List F} (h : rg.length = 64) :
    coeffsOf rg = some (Shader32.coeffs fun i => rg.getD i 0) := by
  unfold coeffsOf
  rw [dif_pos h]
  refine congrArg some (funext fun i => ?_)
  unfold Shader32.coeffs
  exact (List.getD_eq_getElem _ _ (by omega)).symm

omit [F32 F] in
/-- The accessors of a binding. -/
theorem addr_readAt (src : List F) : Shader32.addr (readAt src) = fun u => src[u.toNat]? := by
  funext u
  unfold Shader32.addr readAt
  rw [if_pos (Int.natCast_nonneg _), Int.toNat_natCast]

end Invoke

/-! ## 2. Sound launches -/

/-- Contents of the sizes of the buffers. -/
def Sized (bufs : List GpuBuffer) (mem : List (List F)) : Prop :=
  List.Forall₂ (fun b xs => xs.length = b.size / 4) bufs mem

theorem sized_pair {b1 b2 : GpuBuffer} {mem : List (List F)} (h : Sized [b1, b2] mem) :
    ∃ x1 x2, mem = [x1, x2] ∧ x1.length = b1.size / 4 ∧ x2.length = b2.size / 4 := by
  cases h with
  | cons h1 h =>
    cases h with
    | cons h2 h =>
      cases h
      exact ⟨_, _, rfl, h1, h2⟩

theorem sized_triple {b1 b2 b3 : GpuBuffer} {mem : List (List F)} (h : Sized [b1, b2, b3] mem) :
    ∃ x1 x2 x3, mem = [x1, x2, x3] ∧ x1.length = b1.size / 4 ∧ x2.length = b2.size / 4 ∧
      x3.length = b3.size / 4 := by
  cases h with
  | cons h1 h =>
    obtain ⟨x2, x3, rfl, h2, h3⟩ := sized_pair h
    exact ⟨_, x2, x3, rfl, h1, h2, h3⟩

/-- **A sound launch** of `T` elements: no invocation leaves the buffers or changes a size, and
    those past the last element change nothing. -/
structure SoundLaunch [F32 F] [F64 D] [Convert F D] (cbrtAdd : F → F → F) (maxX T : Nat)
    (shader : Shader) (push : List (Word F)) (bufs : List GpuBuffer) (groups : Nat × Nat) :
    Prop where
  covers : CoversOnce maxX T groups
  guard : guardCount shader push = some (UInt32.ofNat T)
  inside : ∀ v ∈ invocations groups, ∀ mem, Sized bufs mem →
    ∃ mem', invoke D cbrtAdd shader push (flatIndex groups v) mem = some mem' ∧
      Sized bufs mem' ∧ (T ≤ (flatIndex groups v).toNat → mem' = mem)

/-- The number of elements of a launch on an image of size `w * h`. -/
def elements (w h : Nat) : Shader → Nat
  | .downsampleBox2 => 3 * ((w + 1) / 2) * ((h + 1) / 2)
  | .mulPlanes => 3 * w * h
  | .xybPositive => w * h
  | .blurH => 3 * h
  | .blurV => 3 * w
  | .mapsCombine => 3 * (w * h)

section Kernels

variable [F32 F] [F64 D] [Convert F D] {cbrtAdd : F → F → F}

/-- **The parts of soundness**: the flat indices of the grid are words. -/
theorem sound_of {maxX T : Nat} {shader : Shader} {push : List (Word F)} {bufs : List GpuBuffer}
    (hT : T ≤ 2 ^ 30) (hrows : ¬ (splitGroups (groupsOf T) maxX).2 > 65535)
    (hguard : guardCount shader push = some (UInt32.ofNat T))
    (hinside : ∀ i < 2 ^ 32, ∀ mem, Sized bufs mem →
      ∃ mem', invoke D cbrtAdd shader push (UInt32.ofNat i) mem = some mem' ∧
        Sized bufs mem' ∧ (T ≤ i → mem' = mem)) :
    SoundLaunch (D := D) cbrtAdd maxX T shader push bufs (splitGroups (groupsOf T) maxX) where
  covers := splitGroups_covers hT hrows
  guard := hguard
  inside v hv mem hmem := by
    have hflat := List.mem_map_of_mem (f := flatIndex (splitGroups (groupsOf T) maxX)) hv
    rw [flat_invocations] at hflat
    obtain ⟨i, hi, e⟩ := List.mem_map.mp hflat
    have hi32 := (List.mem_range.mp hi).trans (grid_lt hT maxX)
    rw [← e, Words.toNat_ofNat hi32]
    exact hinside i hi32 mem hmem

variable {maxX w h : Nat} (hw : 1 ≤ w) (hh : 1 ≤ h) (hin : 3 * w * h ≤ 2 ^ 30)

include hw hh hin

theorem downsample_sound {src dst : GpuBuffer} (hs : src.size / 4 = 3 * w * h)
    (hd : dst.size / 4 = 3 * ((w + 1) / 2) * ((h + 1) / 2))
    (hrows : ¬ (splitGroups (groupsOf (3 * ((w + 1) / 2) * ((h + 1) / 2))) maxX).2 > 65535) :
    SoundLaunch (D := D) cbrtAdd maxX (elements w h .downsampleBox2) .downsampleBox2
      [.u32 w, .u32 h, .u32 ((w + 1) / 2), .u32 ((h + 1) / 2)] [src, dst]
      (splitGroups (groupsOf (3 * ((w + 1) / 2) * ((h + 1) / 2))) maxX) := by
  refine sound_of ((Shader32.halves_le w h).trans hin) hrows
    (congrArg some (Shader32.downsampleCount_eq _ _)) fun i hi mem hmem => ?_
  obtain ⟨s, d, rfl, h1, h2⟩ := sized_pair hmem
  obtain ⟨d', e, hl⟩ := Shader.downsampleMain_isSome hw hh (h1.trans hs) (h2.trans hd) i
  have e' := (Shader32.downsampleMain_eq s hw hh hin hi d).trans e
  refine ⟨[s, d'], congrArg (Option.map fun d => [s, d]) e',
    .cons h1 (.cons (hl.trans hd.symm) .nil), fun hT => ?_⟩
  rw [Option.some.inj (e.symm.trans (Shader.downsampleMain_idle s w h _ _ i hT d))]

omit hw hh in
theorem mul_sound {a b o : GpuBuffer} (ha : a.size / 4 = 3 * w * h) (hb : b.size / 4 = 3 * w * h)
    (ho : o.size / 4 = 3 * w * h)
    (hrows : ¬ (splitGroups (groupsOf (3 * w * h)) maxX).2 > 65535) :
    SoundLaunch (D := D) cbrtAdd maxX (elements w h .mulPlanes) .mulPlanes [.u32 (3 * w * h)] [a, b, o]
      (splitGroups (groupsOf (3 * w * h)) maxX) := by
  refine sound_of hin hrows rfl fun i hi mem hmem => ?_
  obtain ⟨xa, xb, xo, rfl, h1, h2, h3⟩ := sized_triple hmem
  obtain ⟨xo', e, hl⟩ := Shader.mulMain_isSome (h1.trans ha) (h2.trans hb) (h3.trans ho) i
  have e' := (Shader32.mulMain_eq xa xb (by omega) hi xo).trans e
  refine ⟨[xa, xb, xo'], congrArg (Option.map fun o => [xa, xb, o]) e',
    .cons h1 (.cons h2 (.cons (hl.trans ho.symm) .nil)), fun hT => ?_⟩
  rw [Option.some.inj (e.symm.trans (Shader.mulMain_idle xa xb _ i hT xo))]

omit hw hh in
theorem xyb_sound (positive : Bool) {lin out : GpuBuffer} (hl : lin.size / 4 = 3 * (w * h))
    (ho : out.size / 4 = 3 * (w * h))
    (hrows : ¬ (splitGroups (groupsOf (w * h)) maxX).2 > 65535) :
    SoundLaunch (D := D) cbrtAdd maxX (elements w h .xybPositive) .xybPositive
      (xybPush D (w * h) positive) [lin, out] (splitGroups (groupsOf (w * h)) maxX) := by
  have hn : 3 * (w * h) ≤ 2 ^ 30 := by rwa [← Nat.mul_assoc]
  obtain ⟨k, hk, hkn⟩ : ∃ k : Shader.XybConsts F,
      Shader.xybConsts (xybPush D (w * h) positive) = some k ∧ k.n = w * h := ⟨_, rfl, rfl⟩
  have hguard : guardCount .xybPositive (xybPush D (w * h) positive : List (Word F)) =
      some (UInt32.ofNat (w * h)) := by
    rw [guardCount_xyb, hk, Option.map_some, hkn]
  refine sound_of (show w * h ≤ 2 ^ 30 by omega) hrows hguard fun i hi mem hmem => ?_
  obtain ⟨xl, xo, rfl, h1, h2⟩ := sized_pair hmem
  obtain ⟨xo', e, hlen⟩ := Shader.xybMain_isSome cbrtAdd k
    (show xl.length = 3 * k.n by omega) (show xo.length = 3 * k.n by omega) i
  have e' := (Shader32.xybMain_eq cbrtAdd k xl (by omega) hi xo).trans e
  refine ⟨[xl, xo'], by rw [invoke_xyb, hk, Option.bind_some, e', Option.map_some],
    .cons h1 (.cons (by omega) .nil), fun hT => ?_⟩
  rw [Option.some.inj (e.symm.trans (Shader.xybMain_idle cbrtAdd k xl i (hkn.trans_le hT) xo))]

omit hw hh in
theorem maps_sound {x1 x2 mu1 mu2 s11 s22 s12 sd ed : GpuBuffer}
    (hb : ∀ b ∈ [x1, x2, mu1, mu2, s11, s22, s12, sd, ed], b.size / 4 = 3 * (w * h))
    (hrows : ¬ (splitGroups (groupsOf (3 * (w * h))) maxX).2 > 65535) :
    SoundLaunch (D := D) cbrtAdd maxX (elements w h .mapsCombine) .mapsCombine [.u32 (w * h)]
      [x1, x2, mu1, mu2, s11, s22, s12, sd, ed] (splitGroups (groupsOf (3 * (w * h))) maxX) := by
  have hn : 3 * (w * h) ≤ 2 ^ 30 := by rwa [← Nat.mul_assoc]
  refine sound_of hn hrows (congrArg some (Shader32.tripleCount_eq _)) fun i hi mem hmem => ?_
  simp only [Sized, List.forall₂_cons_left_iff, List.forall₂_nil_left_iff] at hmem
  simp only [List.forall_mem_cons, List.not_mem_nil, false_implies, implies_true, and_true] at hb
  obtain ⟨b1, b2, b3, b4, b5, b6, b7, b8, b9⟩ := hb
  obtain ⟨v1, _, h1, ⟨v2, _, h2, ⟨v3, _, h3, ⟨v4, _, h4, ⟨v5, _, h5, ⟨v6, _, h6, ⟨v7, _, h7,
    ⟨v8, _, h8, ⟨v9, _, h9, rfl, rfl⟩, rfl⟩, rfl⟩, rfl⟩, rfl⟩, rfl⟩, rfl⟩, rfl⟩, rfl⟩ := hmem
  obtain ⟨out, e, ho1, ho2⟩ := Shader.mapsMain_isSome (D := D)
    (m := ⟨w * h, 1, v1, v2, v5, v6, v7, v3, v4⟩) (n := w * h) (o := (v8, v9))
    (by
      simp only [List.forall_mem_cons, List.not_mem_nil, false_implies, implies_true, and_true]
      omega)
    (h8.trans b8) (h9.trans b9) i
  have e' := (Shader32.mapsMain_eq _ (by omega) hi (v8, v9)).trans e
  refine ⟨[v1, v2, v3, v4, v5, v6, v7, out.1, out.2],
    congrArg (Option.map fun out : List F × List F => [v1, v2, v3, v4, v5, v6, v7, out.1, out.2])
      e', ?_, fun hT => ?_⟩
  · simp only [Sized, List.forall₂_cons, List.Forall₂.nil, and_true]
    omega
  · rw [Option.some.inj (e.symm.trans (Shader.mapsMain_idle _ (w * h) i hT (v8, v9)))]

/-! ## 3. The blurs -/

section Blur

variable {N : Nat} (hN1 : 1 ≤ N) (hN : N ≤ 2 ^ 30) {src dst rgbuf : GpuBuffer}
  (hs : src.size / 4 = 3 * w * h) (hd : dst.size / 4 = 3 * w * h) (hr : rgbuf.size / 4 = 64)

include hN1 hN hs hd hr

theorem blurH_sound (hrows : ¬ (splitGroups (groupsOf (3 * h)) maxX).2 > 65535) :
    SoundLaunch (D := D) cbrtAdd maxX (elements w h .blurH) .blurH [.u32 w, .u32 h, .u32 N]
      [src, dst, rgbuf] (splitGroups (groupsOf (3 * h)) maxX) := by
  have h3h : 3 * h ≤ 3 * w * h := Nat.mul_le_mul_right _ (by omega)
  refine sound_of (h3h.trans hin) hrows (congrArg some (Shader32.tripleCount_eq _))
    fun i hi mem hmem => ?_
  obtain ⟨xs, xd, xr, rfl, h1, h2, h3⟩ := sized_triple hmem
  obtain ⟨xd', e, hl⟩ := Shader.blurHMain_isSome (readAt xs) writeAt
    (P := fun d => d.length = 3 * w * h) (w := w) (h := h) (r := i) (fun i => xr.getD i 0) hN1
    (fun j h0 hj => readAt_isSome h0 (by omega))
    (fun j v d h0 hj hd => writeAt_length v h0 hj hd) xd (by omega)
  have e' := (Shader32.blurHMain_eq _ _ _ hw hh hin hN hi xd).trans e
  rw [addr_readAt] at e'
  refine ⟨[xs, xd', xr], ?_, .cons h1 (.cons (hl.trans hd.symm) (.cons h3 .nil)), fun hT => ?_⟩
  · rw [invoke_blurH, coeffsOf_eq (h3.trans hr), Option.bind_some]
    exact congrArg (Option.map fun d => [xs, d, xr]) e'
  · rw [Option.some.inj (e.symm.trans (Shader.blurHMain_idle _ _ _ w h N i hT xd))]

omit hN1 in
theorem blurV_sound (hrows : ¬ (splitGroups (groupsOf (3 * w)) maxX).2 > 65535) :
    SoundLaunch (D := D) cbrtAdd maxX (elements w h .blurV) .blurV [.u32 w, .u32 h, .u32 N]
      [src, dst, rgbuf] (splitGroups (groupsOf (3 * w)) maxX) := by
  have h3w : 3 * w ≤ 3 * w * h := Nat.le_mul_of_pos_right _ hh
  refine sound_of (h3w.trans hin) hrows (congrArg some (Shader32.tripleCount_eq _))
    fun i hi mem hmem => ?_
  obtain ⟨xs, xd, xr, rfl, h1, h2, h3⟩ := sized_triple hmem
  obtain ⟨xd', e, hl⟩ := Shader.blurVMain_isSome (readAt xs) writeAt (N := N)
    (P := fun d => d.length = 3 * w * h) (w := w) (h := h) (q := i) (fun i => xr.getD i 0)
    (fun j h0 hj => readAt_isSome h0 (by omega))
    (fun j v d h0 hj hd => writeAt_length v h0 hj hd) xd (by omega)
  have e' := (Shader32.blurVMain_eq _ _ _ hw hh hin hN hi xd).trans e
  rw [addr_readAt] at e'
  refine ⟨[xs, xd', xr], ?_, .cons h1 (.cons (hl.trans hd.symm) (.cons h3 .nil)), fun hT => ?_⟩
  · rw [invoke_blurV, coeffsOf_eq (h3.trans hr), Option.bind_some]
    exact congrArg (Option.map fun d => [xs, d, xr]) e'
  · rw [Option.some.inj (e.symm.trans (Shader.blurVMain_idle _ _ _ w h N i hT xd))]

end Blur

end Kernels

/-! ## 4. The launches of a run -/

/-- What an event says about the launch it records. -/
def Event.Launches (P : Shader → List (Word F) → List GpuBuffer → Nat × Nat → Prop) :
    Event F → Prop
  | .recorded _ (.dispatch shader push set groups) => P shader push set.bufs groups
  | _ => True

/-- A cached pipeline is the one of its key. -/
def Sys.PipesOwn (s : Sys F) : Prop := ∀ k o, s.pipes.lookup k = some o → o.shader = k.shader

/-- Programs whose launches are all of `P`, on answers of `Q`. -/
abbrev Launching {α : Type} (P : Shader → List (Word F) → List GpuBuffer → Nat × Nat → Prop)
    (Q : α → Prop) (m : Gpu F α) : Prop := Keeps Sys.PipesOwn (Event.Launches P) Q m

section Context

variable {P : Shader → List (Word F) → List GpuBuffer → Nat × Nat → Prop} {E : Env F}

theorem attempt_launching (c : Call) : Launching P anyAnswer (attempt E c) := by
  intro s hs
  unfold attempt
  cases E.sched s.tick with
  | none => exact ⟨hs, fun _ hw => absurd hw List.not_mem_nil, fun _ _ => trivial⟩
  | some code =>
    refine ⟨hs, fun w hw => ?_, fun _ _ => trivial⟩
    rw [List.mem_singleton.mp hw]
    trivial

theorem create_launching (kind : Kind) : Launching P anyAnswer (create kind : Gpu F Nat) := by
  refine fun s hs => ⟨hs, fun w hw => ?_, fun _ _ => trivial⟩
  rw [List.mem_singleton.mp hw]
  trivial

theorem release_launching (r : Res) : Launching P anyAnswer (release r : Gpu F Unit) :=
  keeps_emit trivial

theorem record_launching (cb : Nat) {c : Cmd F} (hc : (Event.recorded cb c).Launches P) :
    Launching P anyAnswer (record cb c) :=
  keeps_bind (keeps_update fun _ hs => hs) fun _ _ => keeps_emit hc

theorem destroyBufferNow_launching (b : GpuBuffer) :
    Launching P anyAnswer (destroyBufferNow b : Gpu F Unit) :=
  keeps_bind (release_launching _) fun _ _ => release_launching _

theorem batchTrash_launching (b : GpuBuffer) :
    Launching P anyAnswer (batchTrash b : Gpu F Bool) := by
  refine keeps_bind (Q := anyAnswer) (keeps_gets fun _ _ => trivial) fun batch _ => ?_
  cases batch with
  | none => exact keeps_pure trivial
  | some st => exact keeps_bind (keeps_update fun _ hs => hs) fun _ _ => keeps_pure trivial

theorem destroyBuffer_launching (b : GpuBuffer) :
    Launching P anyAnswer (destroyBuffer b : Gpu F Unit) := by
  refine keeps_bind (batchTrash_launching b) fun deferred _ => ?_
  cases deferred with
  | true => exact keeps_pure trivial
  | false => exact destroyBufferNow_launching b

theorem buildPipe_launching (shader : Shader) :
    Launching P (fun o => o.shader = shader) (buildPipe E shader) :=
  keeps_bind (attempt_launching _) fun _ _ => keeps_bind (create_launching _) fun _ _ =>
    keeps_onError (release_launching _) (keeps_bind (attempt_launching _) fun _ _ =>
    keeps_bind (create_launching _) fun _ _ => keeps_onError (release_launching _)
    (keeps_bind (attempt_launching _) fun _ _ => keeps_bind (create_launching _) fun _ _ =>
    keeps_onError (release_launching _) (keeps_bind (attempt_launching _) fun _ _ =>
    keeps_bind (create_launching _) fun _ _ => keeps_onError (release_launching _)
    (keeps_bind (attempt_launching _) fun _ _ => keeps_bind (create_launching _) fun _ _ =>
    keeps_pure rfl))))

theorem getPipe_launching (key : Key) :
    Launching P (fun o => o.shader = key.shader) (getPipe E key) := by
  refine keeps_bind (Q := fun o => ∀ objs, o = some objs → objs.shader = key.shader)
    (keeps_gets fun s hs objs h => hs _ _ h) fun cached hc => ?_
  cases cached with
  | some objs => exact keeps_pure (hc objs rfl)
  | none =>
    refine keeps_bind (buildPipe_launching key.shader) fun objs ho =>
      keeps_bind (keeps_update fun s hs k o hl => ?_) fun _ _ => keeps_pure ho
    rw [List.lookup_cons] at hl
    by_cases hk : k = key
    · rw [hk, beq_self_eq_true] at hl
      rw [hk, ← Option.some.inj hl]
      exact ho
    · rw [beq_eq_false_iff_ne.mpr hk] at hl
      exact hs k o hl

theorem allocSet_launching (pool : Nat) (bufs : List GpuBuffer) :
    Launching P (fun d => d.bufs = bufs) (allocSet E pool bufs) := by
  refine keeps_bind (attempt_launching _) fun _ _ => keeps_bind (Q := anyAnswer)
    (keeps_gets fun _ _ => trivial) fun used _ => ?_
  by_cases h : 64 ≤ used
  · rw [if_pos h]
    exact keeps_fail _
  · rw [if_neg h]
    exact keeps_bind (keeps_gets fun _ _ => rfl) fun set hset =>
      keeps_bind (keeps_update fun _ hs => hs) fun _ _ => keeps_pure hset

theorem batchTrackSets_launching (set : DescSet) :
    Launching P anyAnswer (batchTrackSets set : Gpu F Unit) := by
  refine keeps_bind (Q := anyAnswer) (keeps_gets fun _ _ => trivial) fun batch _ => ?_
  cases batch with
  | some st => exact keeps_update fun _ hs => hs
  | none => exact keeps_pure trivial

theorem resetPool_launching (pool : Nat) : Launching P anyAnswer (resetPool pool : Gpu F Unit) :=
  keeps_bind (Q := anyAnswer) (keeps_gets fun _ _ => trivial) fun _ _ =>
    keeps_bind (keeps_update fun _ hs => hs) fun _ _ => keeps_each fun _ _ => keeps_emit trivial

variable [Zero F]

theorem allocBuffer_launching (size : Nat) :
    Launching P (fun b => b.size = size) (allocBuffer E size) := by
  refine keeps_bind (attempt_launching _) fun _ _ => keeps_bind (create_launching _) fun _ _ =>
    keeps_bind (attempt_launching _) fun _ _ => keeps_bind (attempt_launching _) fun _ _ =>
    keeps_bind (Q := anyAnswer) ?_ fun _ _ => keeps_bind (attempt_launching _) fun _ _ =>
    keeps_pure rfl
  exact keeps_bind (create_launching _) fun _ _ => keeps_bind (keeps_update fun _ hs => hs)
    fun _ _ => keeps_pure trivial

theorem createEmpty_launching (len : Nat) :
    Launching P (fun b => b.size / 4 = len) (createEmpty E len) :=
  (allocBuffer_launching (len * 4)).mono fun b hb => by rw [hb, Nat.mul_div_cancel _ (by decide)]

theorem execute_launching (cb : Nat) : Launching P anyAnswer (execute E cb) :=
  keeps_bind (Q := anyAnswer) (keeps_gets fun _ _ => trivial) fun _ _ =>
    keeps_bind (keeps_update fun _ hs => hs) fun _ _ => keeps_each fun _ _ => keeps_emit trivial

theorem submitWait_launching (fenceCall submitCall waitCall : Call) (cb : Nat) :
    Launching P anyAnswer (submitWait E fenceCall submitCall waitCall cb) :=
  keeps_bind (attempt_launching _) fun _ _ => keeps_bind (create_launching _) fun _ _ =>
    keeps_ensure (release_launching _) (keeps_bind (attempt_launching _) fun _ _ =>
      keeps_bind (execute_launching _) fun _ _ => keeps_bind (attempt_launching _) fun _ _ =>
        keeps_emit trivial)

theorem oneShot_launching {cmds : List (Cmd F)}
    (hc : ∀ c ∈ cmds, ∀ cb, (Event.recorded cb c).Launches P) :
    Launching P anyAnswer (oneShot E cmds) :=
  keeps_bind (attempt_launching _) fun _ _ => keeps_bind (create_launching _) fun cb _ =>
    keeps_ensure (release_launching _) (keeps_bind (attempt_launching _) fun _ _ =>
      keeps_bind (keeps_bind (keeps_update fun _ hs => hs) fun _ _ => keeps_emit trivial)
        fun _ _ => keeps_bind (keeps_each fun c h => record_launching cb (hc c h cb)) fun _ _ =>
          keeps_bind (attempt_launching _) fun _ _ => submitWait_launching _ _ _ _)

theorem createBufferF32_launching (data : List F) :
    Launching P (fun b => b.size = 4 * data.length) (createBufferF32 E data) := by
  refine keeps_bind (allocBuffer_launching _) fun staging _ => keeps_bind (keeps_observe
    (Q := fun r : GpuBuffer × Bool => r.1.size = 4 * data.length)
    (keeps_bind (attempt_launching _) fun _ _ => keeps_bind (keeps_update fun _ hs => hs)
      fun _ _ => keeps_bind (allocBuffer_launching _) fun dev hdev =>
      keeps_bind (Q := anyAnswer) (keeps_gets fun _ _ => trivial) fun cmd _ => ?_)) ?_
  · cases cmd with
    | some cmd =>
      exact keeps_bind (record_launching _ trivial) fun _ _ =>
        keeps_bind (batchTrash_launching _) fun _ _ => keeps_pure hdev
    | none =>
      refine keeps_bind (oneShot_launching fun c hc cb => ?_) fun _ _ => keeps_pure hdev
      rw [List.mem_singleton.mp hc]
      trivial
  · rintro (e | ⟨dev, _ | _⟩) hr
    · exact keeps_bind (destroyBufferNow_launching _) fun _ _ => keeps_fail e
    · exact keeps_bind (destroyBufferNow_launching _) fun _ _ => keeps_pure (hr _ rfl)
    · exact keeps_pure (hr _ rfl)

/-- **A dispatch launches what it is asked to**, unless it is refused. -/
theorem runComputePush_launching {shader : Shader} {bufs : List GpuBuffer} {groupsX : Nat}
    {push : List (Word F)} (h : ¬ (splitGroups groupsX E.maxGroupsX).2 > 65535 →
      P shader push bufs (splitGroups groupsX E.maxGroupsX)) :
    Launching P anyAnswer (runComputePush E shader bufs groupsX push) := by
  unfold runComputePush
  by_cases hrows : (splitGroups groupsX E.maxGroupsX).2 > 65535
  · simp only [if_pos hrows]
    exact keeps_bind (keeps_emit trivial) fun _ _ => keeps_fail _
  · simp only [if_neg hrows]
    have hcmds (objs : PipeObjs) (ho : objs.shader = shader) (set : DescSet) (hs : set.bufs = bufs)
        (c : Cmd F) (hc : c ∈ dispatchCmds objs push set (splitGroups groupsX E.maxGroupsX))
        (cb : Nat) : (Event.recorded cb c).Launches P := by
      rcases List.mem_cons.mp hc with rfl | hc
      · trivial
      · rw [List.mem_singleton.mp hc]
        show P objs.shader push set.bufs _
        rw [ho, hs]
        exact h hrows
    refine keeps_bind (getPipe_launching _) fun objs ho => keeps_bind (Q := anyAnswer)
      (keeps_gets fun _ _ => trivial) fun cmd _ => ?_
    cases cmd with
    | some cmd =>
      exact keeps_bind (allocSet_launching _ _) fun set hset =>
        keeps_bind (keeps_each fun c hc => record_launching _ (hcmds objs ho set hset c hc cmd))
          fun _ _ => batchTrackSets_launching _
    | none =>
      exact keeps_bind (attempt_launching _) fun _ _ => keeps_bind (resetPool_launching _)
        fun _ _ => keeps_bind (allocSet_launching _ _) fun set hset =>
          oneShot_launching (hcmds objs ho set hset)

end Context

/-! ## 5. The launches of the engine -/

/-- Soundness for an image of size `w * h`. -/
def SoundOn (D : Type) [F32 F] [F64 D] [Convert F D] (cbrtAdd : F → F → F) (maxX w h : Nat)
    (shader : Shader) (push : List (Word F)) (bufs : List GpuBuffer) (groups : Nat × Nat) : Prop :=
  SoundLaunch (D := D) cbrtAdd maxX (elements w h shader) shader push bufs groups

section Engine

variable [F32 F] [F64 D] [Convert F D] {cbrtAdd : F → F → F} {E : Env F}

omit [F32 F] in
theorem dispatchInto_launching {P : Shader → List (Word F) → List GpuBuffer → Nat × Nat → Prop}
    (out : GpuBuffer) {run : Gpu F Unit} (h : Launching P anyAnswer run) :
    Launching P anyAnswer (dispatchInto out run) :=
  keeps_bind (keeps_onError (destroyBuffer_launching out) h) fun _ _ => keeps_pure trivial

omit [F32 F] in
theorem cast_eq (hcast : ∀ n, E.asU32 n = n % 2 ^ 32) {n : Nat} (hn : n < 2 ^ 32) :
    E.asU32 n = n := (hcast n).trans (Nat.mod_eq_of_lt hn)

variable (hcast : ∀ n, E.asU32 n = n % 2 ^ 32) {w h : Nat} (hw : 1 ≤ w) (hh : 1 ≤ h)
  (hin : 3 * w * h ≤ 2 ^ 30)

include hcast hw hh hin

theorem downsample_launching {src : GpuBuffer} (hs : src.size / 4 = 3 * w * h) :
    Launching (SoundOn D cbrtAdd E.maxGroupsX w h) anyAnswer (downsample E src w h) := by
  have h3w : 3 * w ≤ 3 * w * h := Nat.le_mul_of_pos_right _ hh
  have h3h : 3 * h ≤ 3 * w * h := Nat.mul_le_mul_right _ (by omega)
  have hle := Shader32.halves_le w h
  have hgroups := groupsOf_le (3 * ((w + 1) / 2) * ((h + 1) / 2))
  refine keeps_bind (createEmpty_launching _) fun dst hd => dispatchInto_launching _
    (runComputePush_launching fun hrows => ?_)
  rw [cast_eq hcast (n := groupsOf _) (by omega)] at hrows ⊢
  rw [cast_eq hcast (n := w) (by omega), cast_eq hcast (n := h) (by omega),
    cast_eq hcast (n := (w + 1) / 2) (by omega), cast_eq hcast (n := (h + 1) / 2) (by omega)]
  exact downsample_sound hw hh hin hs hd hrows

omit hw hh in
theorem mul_launching {a b : GpuBuffer} (ha : a.size / 4 = 3 * w * h)
    (hb : b.size / 4 = 3 * w * h) :
    Launching (SoundOn D cbrtAdd E.maxGroupsX w h) anyAnswer (mulGpu E a b (3 * w * h)) := by
  have hgroups := groupsOf_le (3 * w * h)
  refine keeps_bind (createEmpty_launching _) fun o ho => dispatchInto_launching _
    (runComputePush_launching fun hrows => ?_)
  rw [cast_eq hcast (n := groupsOf (3 * w * h)) (by omega)] at hrows ⊢
  rw [cast_eq hcast (n := 3 * w * h) (by omega)]
  exact mul_sound hin ha hb ho hrows

omit hw hh in
theorem xyb_launching {lin : GpuBuffer} (hl : lin.size / 4 = 3 * w * h) (positive : Bool) :
    Launching (SoundOn D cbrtAdd E.maxGroupsX w h) anyAnswer
      (xybConvert E D lin (w * h) positive) := by
  have hn : 3 * (w * h) ≤ 2 ^ 30 := by rwa [← Nat.mul_assoc]
  refine keeps_bind (createEmpty_launching _) fun out ho => dispatchInto_launching _
    (runComputePush_launching fun hrows => ?_)
  rw [cast_eq hcast (by omega)] at hrows ⊢
  exact xyb_sound hin positive (hl.trans (Nat.mul_assoc _ _ _)) ho hrows

omit hw hh in
theorem maps_launching {x1 x2 mu1 mu2 s11 s22 s12 sd ed : GpuBuffer}
    (hb : ∀ b ∈ [x1, x2, mu1, mu2, s11, s22, s12, sd, ed], b.size / 4 = 3 * w * h) :
    Launching (SoundOn D cbrtAdd E.maxGroupsX w h) anyAnswer
      (mapsCombine E x1 x2 mu1 mu2 s11 s22 s12 sd ed (w * h)) := by
  have hn : 3 * (w * h) ≤ 2 ^ 30 := by rwa [← Nat.mul_assoc]
  refine runComputePush_launching fun hrows => ?_
  rw [cast_eq hcast (n := 3 * (w * h)) (by omega)] at hrows ⊢
  rw [cast_eq hcast (n := w * h) (by omega)]
  exact maps_sound hin (fun b h => (hb b h).trans (Nat.mul_assoc _ _ _)) hrows

theorem blurPlanes_launching {rg : RgConst F} (hN1 : 1 ≤ rg.radius) (hN : rg.radius ≤ 2 ^ 30)
    {input : GpuBuffer} (hi : input.size / 4 = 3 * w * h) :
    Launching (SoundOn D cbrtAdd E.maxGroupsX w h) anyAnswer (blurPlanes E rg input w h) := by
  have h3w : 3 * w ≤ 3 * w * h := Nat.le_mul_of_pos_right _ hh
  have h3h : 3 * h ≤ 3 * w * h := Nat.mul_le_mul_right _ (by omega)
  have hcast' : ∀ n, (E.enter .blurPlanes).asU32 n = n % 2 ^ 32 := hcast
  refine keeps_bind (createBufferF32_launching _) fun rgbuf hr =>
    keeps_bind (createEmpty_launching _) fun temp ht =>
    keeps_bind (createEmpty_launching _) fun out ho => ?_
  have hr' : rgbuf.size / 4 = 64 := by rw [hr, rgUpload_length]
  refine keeps_bind (keeps_observe (keeps_bind (runComputePush_launching fun hrows => ?_) fun _ _ =>
    runComputePush_launching fun hrows => ?_)) fun r _ =>
    keeps_bind (destroyBuffer_launching _) fun _ _ => keeps_bind (destroyBuffer_launching _)
    fun _ _ => ?_
  · rw [cast_eq hcast' (n := 3 * h) (by omega)] at hrows ⊢
    unfold pushBytes
    rw [cast_eq hcast' (n := w) (by omega), cast_eq hcast' (n := h) (by omega)]
    exact blurH_sound hw hh hin hN1 hN hi ht hr' hrows
  · rw [cast_eq hcast' (n := 3 * w) (by omega)] at hrows ⊢
    unfold pushBytes
    rw [cast_eq hcast' (n := w) (by omega), cast_eq hcast' (n := h) (by omega)]
    exact blurV_sound hw hh hin hN ht ho hr' hrows
  · cases r with
    | ok a => exact keeps_pure trivial
    | error e => exact keeps_fail e

end Engine

/-! ## 6. Every launch -/

variable [F32 F] [F64 D] [Convert F D]

/-- **Every launch covers its elements exactly once**: a dispatch of `T` elements is refused or its
    grid meets every index below `T` once, on every device; and the launches of the engine on an
    image of at most `2 ^ 30` samples are sound. The radius is a positive one that the blur can
    add and subtract in an `int`; the engine's is five. -/
theorem launches_cover (cbrtAdd : F → F → F) (E : Env F) (hcast : ∀ n, E.asU32 n = n % 2 ^ 32) :
    (∀ T, 1 ≤ T → T ≤ 2 ^ 30 → ∀ shader bufs push s,
      (runComputePush E shader bufs (groupsOf T) push s).result =
          .error (.dispatchLimit (groupsOf T) E.maxGroupsX) ∨
        CoversOnce E.maxGroupsX T (splitGroups (groupsOf T) E.maxGroupsX)) ∧
    ∀ w h, 1 ≤ w → 1 ≤ h → 3 * w * h ≤ 2 ^ 30 →
      (∀ src : GpuBuffer, src.size / 4 = 3 * w * h →
        Launching (SoundOn D cbrtAdd E.maxGroupsX w h) anyAnswer (downsample E src w h)) ∧
      (∀ a b : GpuBuffer, a.size / 4 = 3 * w * h → b.size / 4 = 3 * w * h →
        Launching (SoundOn D cbrtAdd E.maxGroupsX w h) anyAnswer (mulGpu E a b (3 * w * h))) ∧
      (∀ (lin : GpuBuffer) positive, lin.size / 4 = 3 * w * h →
        Launching (SoundOn D cbrtAdd E.maxGroupsX w h) anyAnswer
          (xybConvert E D lin (w * h) positive)) ∧
      (∀ (rg : RgConst F) (input : GpuBuffer), 1 ≤ rg.radius → rg.radius ≤ 2 ^ 30 →
        input.size / 4 = 3 * w * h →
        Launching (SoundOn D cbrtAdd E.maxGroupsX w h) anyAnswer (blurPlanes E rg input w h)) ∧
      ∀ x1 x2 mu1 mu2 s11 s22 s12 sd ed : GpuBuffer,
        (∀ b ∈ [x1, x2, mu1, mu2, s11, s22, s12, sd, ed], b.size / 4 = 3 * w * h) →
        Launching (SoundOn D cbrtAdd E.maxGroupsX w h) anyAnswer
          (mapsCombine E x1 x2 mu1 mu2 s11 s22 s12 sd ed (w * h)) := by
  refine ⟨fun T _ hT shader bufs push s => runComputePush_covers E hT shader bufs push s,
    fun w h hw hh hin => ⟨fun src hs => downsample_launching hcast hw hh hin hs,
      fun a b ha hb => mul_launching hcast hin ha hb,
      fun lin positive hl => xyb_launching hcast hin hl positive,
      fun rg input hN1 hN hi => blurPlanes_launching hcast hw hh hin hN1 hN hi,
      fun x1 x2 mu1 mu2 s11 s22 s12 sd ed hb => maps_launching hcast hin hb⟩⟩

/-- The device of `shading`, with the cast of the host. -/
def shading32 (D : Type) [F64 D] [Convert F D] (cbrtAdd : F → F → F) : Env F :=
  { shading D cbrtAdd with asU32 := fun n => n % 2 ^ 32 }

/-- A device with rows of at most two groups. -/
def twoInARow (D : Type) [F64 D] [Convert F D] (cbrtAdd : F → F → F) : Env F :=
  { shading32 D cbrtAdd with maxGroupsX := 2 }

/-- An image of 18 by 14 pixels, on a device with rows of at most two groups: the run that halves
    it launches 189 elements, in two rows of two groups. -/
theorem launches_cover_halving :
    CoversOnce 2 189 (2, 2) ∧
    ∃ set, .recorded 8 (.dispatch .downsampleBox2 [.u32 18, .u32 14, .u32 9, .u32 7] set (2, 2)) ∈
        (downsample (twoInARow ℝ fun x _ : ℝ => x) ⟨0, 1, 3024⟩ 18 14 (Sys.fresh ℝ)).trace ∧
      SoundLaunch (D := ℝ) (fun x _ : ℝ => x) 2 189 .downsampleBox2
        [.u32 18, .u32 14, .u32 9, .u32 7] set.bufs ((2, 2) : Nat × Nat) := by
  obtain ⟨hcover, hruns⟩ := launches_cover (D := ℝ) (fun x _ : ℝ => x)
    (twoInARow ℝ fun x _ : ℝ => x) fun _ => rfl
  have hgrid : splitGroups (groupsOf 189) 2 = (2, 2) := by decide
  have hmem : ∃ set, Event.recorded 8 (.dispatch .downsampleBox2
      [.u32 18, .u32 14, .u32 9, .u32 7] set (2, 2)) ∈
        (downsample (twoInARow ℝ fun x _ : ℝ => x) ⟨0, 1, 3024⟩ 18 14 (Sys.fresh ℝ)).trace :=
    ⟨_, List.mem_of_getElem? (i := 10) rfl⟩
  obtain ⟨set, hset⟩ := hmem
  have hs := ((hruns 18 14 (by decide) (by decide) (by decide)).1 ⟨0, 1, 3024⟩ (by decide)
    (Sys.fresh ℝ) (fun k o hk => nomatch hk)).2.1 _ hset
  refine ⟨?_, set, hset, hs⟩
  rcases hcover 189 (by decide) (by decide) .downsampleBox2 [] [] (Sys.fresh ℝ) with h | h
  · cases h
  · rwa [show (twoInARow ℝ fun x _ : ℝ => x).maxGroupsX = 2 from rfl, hgrid] at h

end Ssimulacra2
