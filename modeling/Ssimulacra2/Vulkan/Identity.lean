/-
  File:      Ssimulacra2/Vulkan/Identity.lean
  Subject:   An image compared with itself: the GPU engine and the cached batch.

  Four of the five kernels stay arbitrary functions; `maps_combine` is its shader, invocation by
  invocation. The products and blurs of the two sides are launches on equal operands, so every
  pixel the shader combines is a `Pixel.Twin`.

  * `compareMaps_twin` -- the two maps of a scale are zero;
  * `compute_perfect` -- the single shot answers zeros and scores 100.
-/
import Ssimulacra2.Identity
import Ssimulacra2.Vulkan.Calls
import Ssimulacra2.Vulkan.Shaders

namespace Ssimulacra2

variable {F : Type} {D : Type} [F32 F] [F64 D] [Convert F D]

/-! ## 1. The shader -/

/-- **The shader at a pixel of an image against itself.** -/
theorem twin_mapsMain (laws : SelfLaws F D) {p : Pixel F} (h : p.Twin) (hd : p.denomS ≠ 0) :
    Shader.mapsMainPixel D p = (0, 0) := by
  have hs := laws.single
  have hdelta : p.s12 - p.m1 * p.m2 + (p.s12 - p.m1 * p.m2) + kC2 = p.denomS := by
    unfold Pixel.denomS
    rw [h.m, h.s12, h.s22]
  have hden : p.s11 - p.m1 * p.m1 + (p.s22 - p.m2 * p.m2) + kC2 = p.denomS := rfl
  have hnum : ofNat 1 - (p.m1 - p.m2) * (p.m1 - p.m2) = (ofNat 1 : F) := by
    rw [h.m, hs.sub_self, hs.zero_mul, hs.one_sub_zero]
  unfold Shader.mapsMainPixel
  dsimp only
  rw [hdelta, hden, hnum, hs.one_mul, laws.double.div_self _ (laws.widen_ne _ hd), laws.narrow_one,
    hs.sub_self, laws.max_zero32, h.x, h.m, laws.double.div_self _ (laws.one_add_abs _),
    laws.double.sub_self, laws.narrow_zero]

/-- `maps_combine` is the launch of its shader. -/
def Launches.CombinesMaps (D : Type) [F64 D] [Convert F D] (f : Launches F) : Prop :=
  ∀ n x1 x2 mu1 mu2 s11 s22 s12 sd ed,
    (∀ xs ∈ [x1, x2, mu1, mu2, s11, s22, s12, sd, ed], xs.length = 3 * n) →
    Shader.cover (3 * n) (Shader.mapsMain D ⟨n, 1, x1, x2, s11, s22, s12, mu1, mu2⟩ n) (sd, ed) =
      some (f.maps n x1 x2 mu1 mu2 s11 s22 s12)

/-! ## 2. A prepared image against itself -/

namespace Denote

variable (E : Env F) (f : Launches F)

/-- The seven images of a prepared scale against itself. -/
def twinMaps (p : Prep F) : ScaleMaps F := ⟨p.w, p.h, p.x, p.x, p.s, p.s, p.s, p.mu, p.mu⟩

/-- No denominator of an image against itself is zero. -/
def Regular (D : Type) [F64 D] [Convert F D] (lin : List F) (w h : Nat) : Prop :=
  ∀ ps, prep D E f lin w h = some ps → ∀ p ∈ ps, ∀ i v, (twinMaps p).pixel i = some v →
    v.denomS ≠ 0

/-- What a round of the preparation leaves: full images, and the blur of the square. -/
structure Blurred (rg : RgConst F) (p : Prep F) : Prop where
  x_length : p.x.length = 3 * (p.w * p.h)
  s_length : p.s.length = 3 * (p.w * p.h)
  mu_length : p.mu.length = 3 * (p.w * p.h)
  square : ((mul E f p.x p.x (3 * (p.w * p.h))).bind fun m => blur E f rg m p.w p.h) = some p.s

variable {E} {f} {rg : RgConst F}

omit [F32 F] in
theorem launch_length {groupsX n : Nat} [Zero F] {x y : List F}
    (h : launch E groupsX (fit n x) = some y) : y.length = n := by
  obtain ⟨_, -, rfl⟩ := Option.map_eq_some_iff.mp h
  exact fit_length _ _

theorem blur_length {x y : List F} {w h : Nat} (hb : blur E f rg x w h = some y) :
    y.length = 3 * (w * h) := by
  obtain ⟨_, -, hb⟩ := Option.bind_eq_some_iff.mp hb
  rw [launch_length hb, Nat.mul_assoc]

theorem prepRound_blurred {a : List F} {w h : Nat} {p : Prep F}
    (hp : prepRound E f rg a w h = some p) : Blurred E f rg p := by
  obtain ⟨x, hx, hp⟩ := Option.bind_eq_some_iff.mp hp
  obtain ⟨m, hm, hp⟩ := Option.bind_eq_some_iff.mp hp
  obtain ⟨s, hs, hp⟩ := Option.bind_eq_some_iff.mp hp
  obtain ⟨mu, hmu, hp⟩ := Option.bind_eq_some_iff.mp hp
  cases hp
  refine ⟨launch_length hx, blur_length hs, blur_length hmu, ?_⟩
  dsimp only
  rw [hm, Option.bind_some, hs]

/-- Every scale of a preparation is blurred, by induction on the rounds to go. -/
theorem prepLoop_blurred (left scale : Nat) {a : List F} {w h : Nat} {acc ps : List (Prep F)}
    (hacc : ∀ p ∈ acc, Blurred E f rg p) (hps : prepLoop E f rg left scale a w h acc = some ps) :
    (∀ p ∈ ps, Blurred E f rg p) ∧ acc.length ≤ ps.length ∧ ps.length ≤ acc.length + left := by
  induction left generalizing scale a w h acc with
  | zero =>
    cases hps
    exact ⟨hacc, le_rfl, le_rfl⟩
  | succ left ih =>
    unfold prepLoop at hps
    by_cases h8 : w < 8 ∨ h < 8
    · rw [if_pos h8] at hps
      cases hps
      exact ⟨hacc, le_rfl, Nat.le_add_right _ _⟩
    · rw [if_neg h8] at hps
      obtain ⟨⟨b, cw, ch⟩, -, hps⟩ := Option.bind_eq_some_iff.mp hps
      obtain ⟨p, hp, hps⟩ := Option.bind_eq_some_iff.mp hps
      have hacc' : ∀ q ∈ acc ++ [p], Blurred E f rg q := by
        intro q hq
        rcases List.mem_append.mp hq with hq | hq
        · exact hacc q hq
        · rw [List.mem_singleton.mp hq]
          exact prepRound_blurred hp
      obtain ⟨hall, hge, hle⟩ := ih (scale + 1) hacc' hps
      rw [List.length_append, List.length_singleton] at hge hle
      exact ⟨hall, by omega, by omega⟩

/-- A preparation of an image of eight pixels or more has a scale, and at most six. -/
theorem prep_scales {lin : List F} {w h : Nat} (hw : 8 ≤ w) (hh : 8 ≤ h)
    (hrg : createRecursiveGaussian F (F64.lit 1.5 : D) = some rg) {ps : List (Prep F)}
    (hps : prep D E f lin w h = some ps) :
    (∀ p ∈ ps, Blurred E f rg p) ∧ 1 ≤ ps.length ∧ ps.length ≤ 6 := by
  obtain ⟨_, -, hps⟩ := Option.bind_eq_some_iff.mp hps
  rw [hrg] at hps
  have hps : prepLoop E f rg 6 0 lin w h [] = some ps := hps
  obtain ⟨hall, -, hle⟩ := prepLoop_blurred 6 0 (fun p hp => absurd hp List.not_mem_nil) hps
  refine ⟨hall, ?_, by simpa using hle⟩
  -- the first round is not cut short
  unfold prepLoop at hps
  rw [if_neg (by omega)] at hps
  obtain ⟨⟨b, cw, ch⟩, -, hps⟩ := Option.bind_eq_some_iff.mp hps
  obtain ⟨p, hp, hps⟩ := Option.bind_eq_some_iff.mp hps
  have h1 : ∀ q ∈ [] ++ [p], Blurred E f rg q := by
    intro q hq
    rw [List.mem_singleton.mp hq]
    exact prepRound_blurred hp
  exact (prepLoop_blurred 5 1 h1 hps).2.1

/-! ## 3. The maps and the norms -/

section Maps

variable (laws : SelfLaws F D) (hmaps : f.CombinesMaps D)

/-- The zero maps of a scale. -/
def zeroMaps (w h : Nat) : List F × List F :=
  (List.replicate (3 * (w * h)) 0, List.replicate (3 * (w * h)) 0)

include laws hmaps

/-- **The two maps of an image against itself are zero.** -/
theorem maps_twin {p : Prep F} (hp : Blurred E f rg p)
    (hd : ∀ i v, (twinMaps p).pixel i = some v → v.denomS ≠ 0) :
    f.maps (p.w * p.h) p.x p.x p.mu p.mu p.s p.s p.s = zeroMaps p.w p.h := by
  let n := p.w * p.h
  have hl : ∀ xs ∈ [p.x, p.x, p.mu, p.mu, p.s, p.s, p.s], xs.length = 3 * n := by
    simp only [List.forall_mem_cons, List.not_mem_nil, false_implies, implies_true, and_true]
    exact ⟨hp.x_length, hp.x_length, hp.mu_length, hp.mu_length, hp.s_length, hp.s_length,
      hp.s_length⟩
  let v : Nat → Pixel F := fun i => ⟨cell p.x i, cell p.x i, cell p.s i, cell p.s i, cell p.s i,
    cell p.mu i, cell p.mu i⟩
  have hv (i : Nat) (hi : i < 3 * n) :
      (⟨n, 1, p.x, p.x, p.s, p.s, p.s, p.mu, p.mu⟩ : ScaleMaps F).pixel i = some (v i) :=
    pixel_cells hl hi
  have hz : (List.replicate (3 * n) (0 : F)).length = 3 * n := List.length_replicate
  have hlen : ∀ xs ∈ [p.x, p.x, p.mu, p.mu, p.s, p.s, p.s, List.replicate (3 * n) 0,
      List.replicate (3 * n) 0], xs.length = 3 * n := by
    intro xs hxs
    rcases List.mem_append.mp (show xs ∈ [p.x, p.x, p.mu, p.mu, p.s, p.s, p.s] ++
      [List.replicate (3 * n) 0, List.replicate (3 * n) 0] from hxs) with h | h
    · exact hl xs h
    · rcases List.mem_pair.mp h with rfl | rfl <;> exact hz
  have hrun := hmaps n p.x p.x p.mu p.mu p.s p.s p.s _ _ hlen
  rw [Shader.cover_maps hv hz hz] at hrun
  have hzero (i : Nat) (hi : i ∈ List.range (3 * n)) : Shader.mapsMainPixel D (v i) = (0, 0) :=
    twin_mapsMain laws ⟨rfl, rfl, rfl, rfl⟩ (hd i (v i) (hv i (List.mem_range.mp hi)))
  have hconst (g : F × F → F) (hg : g (0, 0) = 0) :
      (List.range (3 * n)).map (fun i => g (Shader.mapsMainPixel D (v i))) =
        List.replicate (3 * n) 0 := by
    rw [List.map_congr_left (g := fun _ => (0 : F)) fun i hi => by rw [hzero i hi, hg],
      List.map_const', List.length_range]
  rw [hconst Prod.fst rfl, hconst Prod.snd rfl] at hrun
  exact (Option.some.inj hrun).symm

/-- The comparison of a prepared scale with itself launches on the blur of its own square. -/
theorem compareMaps_twin {p : Prep F} (hp : Blurred E f rg p)
    (hd : ∀ i v, (twinMaps p).pixel i = some v → v.denomS ≠ 0) {both : List F × List F}
    (hb : compareMaps E f rg p p = some both) : both = zeroMaps p.w p.h := by
  have hsq := hp.square
  obtain ⟨m, hm, hs⟩ := Option.bind_eq_some_iff.mp hsq
  unfold compareMaps at hb
  dsimp only at hb
  rw [hm, Option.bind_eq_bind, Option.bind_some, hs, Option.bind_some] at hb
  obtain ⟨_, -, rfl⟩ := Option.map_eq_some_iff.mp hb
  rw [maps_twin laws hmaps hp hd]
  unfold zeroMaps
  rw [fit_self List.length_replicate]

omit hmaps in
/-- The norms of zero maps. -/
theorem norms_zeroMaps (w h : Nat) : norms D (zeroMaps w h : List F × List F) w h = some (.zero D) := by
  have hslice : slices (w * h) (List.replicate (3 * (w * h)) (0 : F)) =
      some fun _ => List.replicate (w * h) 0 := by
    unfold slices
    rw [if_pos (by rw [List.length_replicate])]
    refine congrArg some (funext fun c => ?_)
    have hc : w * h ≤ 3 * (w * h) - c.val * (w * h) := by
      rw [← Nat.sub_mul]
      exact Nat.le_mul_of_pos_left _ (by omega)
    rw [List.drop_replicate, List.take_replicate, Nat.min_eq_left hc]
  have hfold {s : D × D} (n : Nat) (hs : addSsim s 0 = s) :
      (List.replicate n (0 : F)).foldl (fun s x => addSsim s (widen x)) s = s := by
    induction n with
    | zero => rfl
    | succ n ih =>
      rw [List.replicate_succ, List.foldl_cons, laws.widen_zero, hs]
      exact ih
  have hfold' {s : D × D × D × D} (n : Nat) (hs : addEdge s 0 = s) :
      (List.replicate n (0 : F)).foldl (fun s x => addEdge s (widen x)) s = s := by
    induction n with
    | zero => rfl
    | succ n ih =>
      rw [List.replicate_succ, List.foldl_cons, laws.widen_zero, hs]
      exact ih
  unfold norms normsOf zeroMaps
  simp only [List.getD_cons_zero, List.getD_cons_succ, hslice, Option.bind_eq_bind,
    Option.bind_some]
  unfold ssimNorms edgeNorms
  simp only [hfold _ (addSsim_zero laws), hfold' _ (addEdge_zero laws)]
  exact congrArg some (norms_of_zeros laws _)

/-- The comparison of a preparation with itself pushes zeros. -/
theorem compareLoop_twin {ps : List (Prep F)} (hps : ∀ p ∈ ps, Blurred E f rg p)
    (hd : ∀ p ∈ ps, ∀ i v, (twinMaps p).pixel i = some v → v.denomS ≠ 0)
    {out t : List (ScaleNorms D)} (ht : compareLoop D E f rg (ps.zip ps) out = some t) :
    t = out ++ List.replicate ps.length (.zero D) := by
  induction ps generalizing out with
  | nil =>
    have e : out = t := Option.some.inj ht
    rw [← e]
    exact (List.append_nil out).symm
  | cons p ps ih =>
    unfold compareLoop at ht
    obtain ⟨both, hb, ht⟩ := Option.bind_eq_some_iff.mp ht
    obtain ⟨sn, hsn, ht⟩ := Option.bind_eq_some_iff.mp ht
    rw [compareMaps_twin laws hmaps (hps p List.mem_cons_self) (hd p List.mem_cons_self) hb,
      norms_zeroMaps laws] at hsn
    cases hsn
    rw [ih (fun q hq => hps q (List.mem_cons_of_mem _ hq))
      (fun q hq => hd q (List.mem_cons_of_mem _ hq)) ht, List.append_assoc, List.singleton_append,
      List.length_cons, List.replicate_succ]

/-- **The single shot of an image against itself** answers zeros and a score of 100. -/
theorem compute_perfect {lin : List F} {w h : Nat} (hw : 8 ≤ w) (hh : 8 ≤ h)
    (hd : Regular E f D lin w h) {t : List (ScaleNorms D)}
    (ht : compute D E f lin lin w h = some t) : Perfect t := by
  rw [compute_compare] at ht
  obtain ⟨ps, hps, ht⟩ := Option.bind_eq_some_iff.mp ht
  rw [hps, Option.bind_some] at ht
  obtain ⟨rg, hrg, ht⟩ := Option.bind_eq_some_iff.mp ht
  obtain ⟨hblur, h1, h6⟩ := prep_scales hw hh hrg hps
  have hz := compareLoop_twin laws hmaps hblur (hd ps hps) ht
  rw [List.nil_append] at hz
  rw [hz]
  refine score_perfect laws ?_ (by rw [List.length_replicate]; exact h6)
    fun sn hsn => List.eq_of_mem_replicate hsn
  rw [ne_eq, List.replicate_eq_nil_iff]
  omega

end Maps

end Denote

end Ssimulacra2
