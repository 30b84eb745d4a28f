/-
  File:      Ssimulacra2/Vulkan/ScoreMany.lean
  Subject:   The batch command (`score-many`): its three engines, and what it prints.

  `scoreBatchPaths`, `scoreNocachePaths` and `scoreFallback` read, check and score the same paths
  on a context with the original prepared once, on a context without preparation, and without a
  device. `runScoreMany` is the command around them. The profile is left out.
-/
import Ssimulacra2.Command
import Ssimulacra2.Vulkan.Pair

namespace Ssimulacra2

open Fallible Prog

variable {F : Type} {D : Type} [F32 F] [F64 D] [Convert F D]

/-! ## 1. Files -/

/-- An entry of a directory, with what `std::path` says of it. -/
structure DirEntry where
  path : String
  isFile : Bool
  extension : Option String

/-- The files a command sees. -/
structure Files (F : Type) where
  /-- `decode_png`. -/
  decodePng : String → Except String (Decoded F)
  /-- An image that was decoded has three whole planes. -/
  whole : ∀ path d, decodePng path = .ok d → d.srgb.length = 3 * d.w * d.h
  /-- `std::fs::read_dir`. -/
  readDir : String → Except String (List (Except String DirEntry))

/-- The loop of `list_variants`. -/
def pngEntries : List (Except String DirEntry) → List String → Except String (List String)
  | [], v => .ok v
  | .error e :: _, _ => .error s!"dir entry: {e}"
  | .ok p :: entries, v =>
      pngEntries entries (if p.isFile ∧ p.extension = some "png" then v ++ [p.path] else v)

/-- `list_variants`. -/
def listVariants (files : Files F) (dir : String) : Except String (List String) := do
  let entries ← (files.readDir dir).mapError fun e => s!"read dir {dir}: {e}"
  let v ← pngEntries entries []
  let v := v.mergeSort fun a b => decide (a ≤ b)
  if v.isEmpty then .error s!"no .png variants found in {dir}" else .ok v

/-! ## 2. The engines -/

/-- An error of the engine as a failure of the command. -/
def GpuErr.fault : GpuErr → Fault
  | .panic text => .panic text
  | e => .message e.message

/-- A command on a context. -/
abbrev Job (F : Type) (α : Type) : Type := Prog (Sys F) Fault (Event F) α

/-- A call of the engine. -/
def engine {α : Type} (m : Gpu F α) : Job F α := mapError GpuErr.fault m

/-- `x?` on a `Result<_, String>`. -/
def propagate {α : Type} (x : Except String α) : Job F α :=
  match x with
  | .ok a => pure a
  | .error e => fail (.message e)

/-- A pure step that may panic. -/
def required {α : Type} (x : Option α) : Job F α := engine (orPanic rangeText x)

/-- The error of an original that is too small. -/
def belowMinimumErr : String := "original below 8x8"

/-- `BATCH_ORIG_ALPHA_ERR`. -/
def batchOrigAlphaErr : String :=
  "score-many requires an alpha-free original (the confirmed production pattern); " ++
    "alpha originals need the worst-of-bg dual pass and are not cached"

/-- `batch_variant_alpha_err`. -/
def batchVariantAlphaErr (vp : String) : String :=
  s!"variant {vp} has alpha; the batch path is alpha-free only"

/-- The error of a variant of another size. -/
def variantSizeErr (vp : String) (vw vh w h : Nat) : String :=
  s!"variant {vp} size {vw}x{vh} != original {w}x{h}"

variable (E : Env F) (D) (files : Files F)

/-- The loop of `score_batch_paths`. -/
def scoreBatchPathsLoop (origPrep : PrepImage) (w h : Nat) :
    List String → List (String × D) → Job F (List (String × D))
  | [], out => pure out
  | vp :: variants, out => do
      let vd ← propagate (files.decodePng vp)
      if vd.w ≠ w ∨ vd.h ≠ h then fail (.message (variantSizeErr vp vd.w vd.h w h))
      else if vd.alpha.isSome then fail (.message (batchVariantAlphaErr vp))
      else do
        let vlin ← required (linearizeFrontEnd vd (F32.lit 0.5) (vd.w * vd.h))
        let scales ← engine (comparePrepGpu E D origPrep vlin w h)
        let s ← required (score scales)
        scoreBatchPathsLoop origPrep w h variants (out ++ [(vp, s)])

/-- `score_batch_paths`. -/
def scoreBatchPaths (origPath : String) (variants : List String) : Job F (List (String × D)) := do
  let orig ← propagate (files.decodePng origPath)
  if orig.w < 8 ∨ orig.h < 8 then fail (.message belowMinimumErr)
  else if orig.alpha.isSome then fail (.message batchOrigAlphaErr)
  else do
    let origLin ← required (linearizeFrontEnd orig (F32.lit 0.5) (orig.w * orig.h))
    let origPrep ← engine (prepGpu E D origLin orig.w orig.h)
    ensure (engine (dropPrep origPrep))
      (scoreBatchPathsLoop D E files origPrep orig.w orig.h variants [])

/-- The loop of `score_nocache_paths`. -/
def scoreNocachePathsLoop (origLin : List F) (w h : Nat) :
    List String → List (String × D) → Job F (List (String × D))
  | [], out => pure out
  | vp :: variants, out => do
      let vd ← propagate (files.decodePng vp)
      if vd.w ≠ w ∨ vd.h ≠ h then fail (.message (variantSizeErr vp vd.w vd.h w h))
      else if vd.alpha.isSome then fail (.message (batchVariantAlphaErr vp))
      else do
        let vlin ← required (linearizeFrontEnd vd (F32.lit 0.5) (vd.w * vd.h))
        let scales ← engine (computeSsimulacra2Gpu E D origLin vlin w h)
        let s ← required (score scales)
        scoreNocachePathsLoop origLin w h variants (out ++ [(vp, s)])

/-- `score_nocache_paths`. -/
def scoreNocachePaths (origPath : String) (variants : List String) :
    Job F (List (String × D)) := do
  let orig ← propagate (files.decodePng origPath)
  if orig.w < 8 ∨ orig.h < 8 then fail (.message belowMinimumErr)
  else if orig.alpha.isSome then fail (.message batchOrigAlphaErr)
  else do
    let origLin ← required (linearizeFrontEnd orig (F32.lit 0.5) (orig.w * orig.h))
    scoreNocachePathsLoop D E files origLin orig.w orig.h variants []

variable (cbrtAdd : F → F → F)

/-- The closure of the fallback of `run_score_many`. A failure ends the process. -/
def scoreVariantCpu (od : Decoded F) (ol : List F) (vp : String) : Except Fault (String × D) := do
  let vd ← (files.decodePng vp).mapError .message
  if vd.w ≠ od.w ∨ vd.h ≠ od.h then .error (.message (variantSizeErr vp vd.w vd.h od.w od.h))
  else if vd.alpha.isSome then .error (.message (batchVariantAlphaErr vp))
  else do
    let vl := toLinear vd.srgb
    let s ← unwrap (computeSsimulacra2Cpu D cbrtAdd ol vl od.w od.h)
    let s ← unwrap (score s)
    pure (vp, s)

/-- The fallback of `run_score_many` when there is no device. -/
def scoreFallback (origPath : String) (variants : List String) :
    Except Fault (List (String × D)) := do
  let od ← (files.decodePng origPath).mapError .message
  if od.w < 8 ∨ od.h < 8 then .error (.message belowMinimumErr)
  else if od.alpha.isSome then .error (.message batchOrigAlphaErr)
  else variants.mapM (scoreVariantCpu D files cbrtAdd od (toLinear od.srgb))

/-! ## 3. The command -/

/-- The options of `score-many`. -/
structure ScoreManyArgs where
  origPath : Option String
  varsDir : Option String
  noCache : Bool

/-- The loop over the arguments; the error is an argument it does not know. -/
def scoreManyArgs : List String → ScoreManyArgs → Except String ScoreManyArgs
  | [], a => .ok a
  | ["--orig"], a => .ok { a with origPath := none }
  | "--orig" :: path :: rest, a => scoreManyArgs rest { a with origPath := some path }
  | ["--vars"], a => .ok { a with varsDir := none }
  | "--vars" :: dir :: rest, a => scoreManyArgs rest { a with varsDir := some dir }
  | "--no-cache" :: rest, a => scoreManyArgs rest { a with noCache := true }
  | "--profile" :: rest, a => scoreManyArgs rest a
  | other :: _, _ => .error other

/-- The line of a score; `fixed8` is the format `{:.8}`. -/
def scoreLine (fixed8 : D → String) (path : String) (s : D) : String :=
  (fileName path).getD path ++ " " ++ fixed8 s

/-- The results of a command: one line for each score, or the message on the error stream. -/
def report (fixed8 : D → String) (notes : List String) :
    Except Fault (List (String × D)) → Exit
  | .ok results => ⟨results.map fun r => scoreLine D fixed8 r.1 r.2, notes, 0⟩
  | .error (.message text) => ⟨[], notes ++ ["score-many: " ++ text], 1⟩
  | .error (.panic text) => ⟨[], notes ++ [text], 101⟩

/-- `run_score_many` after the directory was listed, on the context that was created, or with the
    error of its creation. -/
def scoreVariants (fixed8 : D → String) (created : Except String (Sys F)) (noCache : Bool)
    (origPath : String) (variants : List String) : Exit :=
  match created with
  | .ok ctx =>
      report D fixed8 [] <| if noCache then (scoreNocachePaths D E files origPath variants ctx).result
        else (scoreBatchPaths D E files origPath variants ctx).result
  | .error e =>
      report D fixed8 [s!"note: no Vulkan device ({e}); CPU fallback, no caching benefit"]
        (scoreFallback D files cbrtAdd origPath variants)

/-- `run_score_many`, on the arguments after the name of the command. -/
def runScoreMany (fixed8 : D → String) (created : Except String (Sys F)) (args : List String) :
    Exit :=
  match scoreManyArgs args ⟨none, none, false⟩ with
  | .error other => ⟨[], ["score-many: unexpected argument " ++ other, usage], 1⟩
  | .ok ⟨some origPath, some varsDir, noCache⟩ =>
      match listVariants files varsDir with
      | .error e => ⟨[], ["score-many: " ++ e], 1⟩
      | .ok variants => scoreVariants D E files cbrtAdd fixed8 created noCache origPath variants
  | .ok _ => ⟨[], ["score-many requires --orig <file> and --vars <dir>"], 1⟩

end Ssimulacra2
