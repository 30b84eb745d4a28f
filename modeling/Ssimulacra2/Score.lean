/-
  File:      Ssimulacra2/Score.lean
  Subject:   The pooled norms of a scale and the final score (`maps.rs`, `score.rs`).

  `ssimNorms`, `edgeNorms` pool the two maps of a scale; the running sums (`addSsim`, `addEdge`)
  and the averages are shared with the CPU engine, which pools without storing the maps. `score`
  is the sum of 108 weighted norms and the polynomial; an index past the last weight is the panic
  `none`.
-/
import Ssimulacra2.Primitives

namespace Ssimulacra2

variable {F : Type} {D : Type} [F32 F] [F64 D] [Convert F D]

/-! ## 1. Norms -/

/-- `ScaleNorms`. -/
@[ext] structure ScaleNorms (D : Type) where
  avgSsim : Fin 6 → D
  avgEdgediff : Fin 12 → D

/-- `tothe4th`. -/
def tothe4th (x : D) : D :=
  let x := x * x
  x * x

/-- `s1 += d; s4 += tothe4th(d)`. -/
def addSsim (s : D × D) (d : D) : D × D := (s.1 + d, s.2 + tothe4th d)

/-- The four sums over the edge map: artifacts and lost detail. -/
def addEdge (s : D × D × D × D) (d1 : D) : D × D × D × D :=
  let artifact := F64.max d1 0
  let detailLost := F64.max (-d1) 0
  (s.1 + artifact, s.2.1 + tothe4th artifact, s.2.2.1 + detailLost,
    s.2.2.2 + tothe4th detailLost)

/-- `(one_per * s).sqrt().sqrt()`. -/
def norm4 (onePer s : D) : D := F64.sqrt (F64.sqrt (onePer * s))

def ssimAverages (onePer : D) (s : D × D) : D × D := (onePer * s.1, norm4 onePer s.2)

def edgeAverages (onePer : D) (s : D × D × D × D) : D × D × D × D :=
  (onePer * s.1, norm4 onePer s.2.1, onePer * s.2.2.1, norm4 onePer s.2.2.2)

/-- `out[2 * c], out[2 * c + 1]`. -/
def channels2 (f : Fin 3 → D × D) : Fin 6 → D :=
  ![(f 0).1, (f 0).2, (f 1).1, (f 1).2, (f 2).1, (f 2).2]

/-- `out[4 * c], ..., out[4 * c + 3]`. -/
def channels4 (f : Fin 3 → D × D × D × D) : Fin 12 → D :=
  ![(f 0).1, (f 0).2.1, (f 0).2.2.1, (f 0).2.2.2, (f 1).1, (f 1).2.1, (f 1).2.2.1, (f 1).2.2.2,
    (f 2).1, (f 2).2.1, (f 2).2.2.1, (f 2).2.2.2]

/-- `ssim_norms`. -/
def ssimNorms (dMaps : Fin 3 → List F) (w h : Nat) : Fin 6 → D :=
  let onePer : D := ofNat 1 / ofNat (w * h)
  channels2 fun c => ssimAverages onePer ((dMaps c).foldl (fun s x => addSsim s (widen x)) (0, 0))

/-- `edge_norms`. -/
def edgeNorms (d1Maps : Fin 3 → List F) (w h : Nat) : Fin 12 → D :=
  let onePer : D := ofNat 1 / ofNat (w * h)
  channels4 fun c =>
    edgeAverages onePer ((d1Maps c).foldl (fun s x => addEdge s (widen x)) (0, 0, 0, 0))

/-! ## 2. The score -/

/-- `WEIGHTS`, extracted from `ssimulacra2.cc` by the build script. -/
def weights : List ℚ :=
  [0, 0.0007376606707406586, 0, 0, 0.0007793481682867309, 0, 0, 0.0004371155730107379, 0,
    1.1041726426657346, 0.00066284834129271, 0.00015231632783718752, 0, 0.0016406437456599754,
    0, 1.8422455520539298, 11.441172603757666, 0, 0.0007989109436015163, 0.000176816438078653,
    0, 1.8787594979546387, 10.94906990605142, 0, 0.0007289346991508072, 0.9677937080626833, 0,
    0.00014003424285435884, 0.9981766977854967, 0.00031949755934435053, 0.0004550992113792063,
    0, 0, 0.0013648766163243398, 0, 0, 0, 0, 0, 7.466890328078848, 0, 17.445833984131262,
    0.0006235601634041466, 0, 0, 6.683678146179332, 0.00037724407979611296, 1.027889937768264,
    225.20515300849274, 0, 0, 19.213238186143016, 0.0011401524586618361, 0.001237755635509985,
    176.39317598450694, 0, 0, 24.43300999870476, 0.28520802612117757, 0.0004485436923833408, 0,
    0, 0, 34.77906344483772, 44.835625328877896, 0, 0, 0, 0, 0, 0, 0, 0, 0.0008680556573291698,
    0, 0, 0, 0, 0, 0.0005313191874358747, 0, 0.00016533814161379112, 0, 0, 0, 0, 0,
    0.0004179171803251336, 0.0017290828234722833, 0, 0.0020827005846636437, 0, 0,
    8.826982764996862, 23.19243343998926, 0, 95.1080498811086, 0.9863978034400682,
    0.9834382792465353, 0.0012286405048278493, 171.2667255897307, 0.9807858872435379, 0, 0, 0,
    0.0005130064588990679, 0, 0.00010854057858411537]

/-- `ssim += WEIGHTS[i] * a.abs(); i += 1`. -/
def addTerm (a : D) (s : D × Nat) : Option (D × Nat) := do
  let weight ← weights[s.2]?
  some (s.1 + F64.lit weight * F64.abs a, s.2 + 1)

/-- `weighted_sum`. -/
def weightedSum (scales : List (ScaleNorms D)) : Option D := do
  let (ssim, _) ← (List.finRange 3).foldlM (fun s c =>
    scales.foldlM (fun s sc =>
      (List.finRange 2).foldlM (fun s n => do
        let s ← addTerm (sc.avgSsim ⟨c.val * 2 + n.val, by omega⟩) s
        let s ← addTerm (sc.avgEdgediff ⟨c.val * 4 + n.val, by omega⟩) s
        addTerm (sc.avgEdgediff ⟨c.val * 4 + n.val + 2, by omega⟩) s) s) s) (0, 0)
  some ssim

/-- `weighted_then_poly`. -/
def weightedThenPoly (ssim : D) : D :=
  let ssim := ssim * F64.lit 0.9562382616834844
  let ssim := F64.lit 2.326765642916932 * ssim - F64.lit 0.020884521182843837 * ssim * ssim +
    F64.lit 6.248496625763138e-05 * ssim * ssim * ssim
  if F64.lt 0 ssim then ofNat 100 - ofNat 10 * F64.powf ssim (F64.lit 0.6276336467831387)
  else ofNat 100

/-- `score`. -/
def score (scales : List (ScaleNorms D)) : Option D := (weightedSum scales).map weightedThenPoly

end Ssimulacra2
