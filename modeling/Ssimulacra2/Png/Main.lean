/-
  File:      Ssimulacra2/Png/Main.lean
  Subject:   The single-pair command (`main`), on the files of a disk.

  A panic of the engines ends the process with 101; its text is not kept (`Command`), nor are the
  notes on the error stream and the profile.
-/
import Ssimulacra2.Png.Decode

namespace Ssimulacra2

variable {F : Type} {D : Type} [F32 F] [F64 D] [Convert F D]

/-- The flags and the paths. -/
structure PairArgs where
  forceCpu : Bool
  forceGpu : Bool
  pos : List String
  deriving DecidableEq

/-- The loop over the arguments. -/
def pairArgs : List String → PairArgs → PairArgs
  | [], a => a
  | "--cpu" :: rest, a => pairArgs rest { a with forceCpu := true }
  | "--gpu" :: rest, a => pairArgs rest { a with forceGpu := true }
  | "--profile" :: rest, a => pairArgs rest a
  | path :: rest, a => pairArgs rest { a with pos := a.pos ++ [path] }

/-- The message of an image that is not loaded; a panic stays one. -/
def Fault.loading (image : String) : Fault → Fault
  | .message e => .message s!"Could not load {image} image: {e}"
  | .panic text => .panic text

/-- The errors of the sizes. -/
def minimumErr : String := "Minimum image size is 8x8 pixels"

def mismatchErr : String := "Image size mismatch"

variable (D) (E : Env F) (cbrtAdd : F → F → F) (png : PngCrate) (host : Host) (disk : Disk)

/-- `main` past the arguments: the checks, the routing and the score. `created` is what
    `VkContext::new` answers. -/
def pairScore (forceCpu forceGpu : Bool) (created : Option (Sys F)) (orig dist : String) :
    Except Fault D := do
  let a ← (decodePng png host disk orig : Except Fault (Decoded F)).mapError (Fault.loading "original")
  if a.w < 8 ∨ a.h < 8 then .error (.message minimumErr)
  else do
    let b ← (decodePng png host disk dist : Except Fault (Decoded F)).mapError
      (Fault.loading "distorted")
    if a.w ≠ b.w ∨ a.h ≠ b.h then .error (.message mismatchErr)
    else unwrap ((scoreImages D E cbrtAdd a b (routedContext forceCpu forceGpu a.w a.h created)).map
      Prod.fst)

/-- `main` on its arguments, without the name of the program; `fixed8` is `{:.8}`. -/
def runPair (fixed8 : D → String) (created : Option (Sys F)) (args : List String) : Exit :=
  if args.any fun a => a = "--help" || a = "-h" then ⟨[usage], [], 0⟩
  else
    let a := pairArgs args ⟨false, false, []⟩
    if a.forceCpu && a.forceGpu then ⟨[], ["--cpu and --gpu are mutually exclusive"], 1⟩
    else
      match a.pos with
      | [orig, dist] =>
          match pairScore D E cbrtAdd png host disk a.forceCpu a.forceGpu created orig dist with
          | .ok s => ⟨[fixed8 s], [], 0⟩
          | .error (.message text) => ⟨[], [text], 1⟩
          | .error (.panic text) => ⟨[], [text], 101⟩
      | _ => ⟨[], [usage], 1⟩

end Ssimulacra2
