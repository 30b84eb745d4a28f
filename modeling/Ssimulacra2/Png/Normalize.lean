/-
  File:      Ssimulacra2/Png/Normalize.lean
  Subject:   The `normalize` command: images rewritten as plain 8-bit RGB.

  The command runs over the disk and the names it has written; a printed line is an event. A run
  that goes through (`normalizeLoop_ok`) decoded every input as it was before the run, and leaves
  the rewritten images in their places.
-/
import Ssimulacra2.Lib.Fallible
import Ssimulacra2.Png.Decode

namespace Ssimulacra2

open Fallible Prog

variable {F : Type} [F32 F]

/-! ## 1. The command -/

/-- The disk, and the names that were written (`seen`). -/
structure NormState where
  disk : Disk
  seen : List String

/-- A step of the command. -/
abbrev Norm (α : Type) : Type := Prog NormState Fault String α

/-- A step that may fail. -/
def attemptNorm {α : Type} (x : Except Fault α) : Norm α :=
  match x with
  | .ok a => pure a
  | .error e => fail e

/-- `(v * 255.0f32).round() as u8`: the cast saturates. -/
def toByte (v : F) : UInt8 :=
  UInt8.ofNat (min (F32.toUsize (F32.round (v * ofNat 255))) 255)

/-- The three bytes of a pixel. -/
def rgbPixel (dec : Decoded F) (n i : Nat) : Option (List UInt8) := do
  let r ← dec.srgb[i]?
  let g ← dec.srgb[n + i]?
  let b ← dec.srgb[2 * n + i]?
  some [toByte r, toByte g, toByte b]

/-- `rgb`: the pixels, interleaved. -/
def rgbBytes (dec : Decoded F) : Option (List UInt8) :=
  ((List.range (dec.w * dec.h)).mapM (rgbPixel dec (dec.w * dec.h))).map List.flatten

/-- The error of an image that is not opaque. -/
def carriesAlphaErr (inp : String) : String :=
  s!"{inp} carries alpha; alpha-bearing images must route to the per-pair path " ++
    "(fixed-bg flatten is not the oracle's semantics)"

/-- No alpha plane, or one that carries no information. -/
def rewritable (isOne : F → Bool) (dec : Decoded F) : Bool :=
  match dec.alpha with
  | some a => alphaIsFullyOpaque isOne a
  | none => true

/-- The closure that writes the file: the disk it leaves, and its error. -/
def writePng (png : PngCrate) (host : Host) (disk : Disk) (dst : String) (w h : Nat)
    (rgb : List UInt8) : Disk × Except String Unit :=
  match host.create dst with
  | some e => (disk, .error s!"create: {e}")
  | none =>
      let written := png.encode w h rgb
      let disk := Function.update disk (host.resolve dst) (some written.1)
      match written.2 with
      | some e => (disk, .error e)
      | none => (disk, .ok ())

/-- The comparison `v == 1.0f32`, the crate, and the operating system. -/
structure NormEnv (F : Type) where
  isOne : F → Bool
  png : PngCrate
  host : Host

variable (E : NormEnv F) (outDir : String)

/-- One round of the loop over the inputs. -/
def normalizeOne (inp : String) : Norm Unit := do
  let s ← gets fun s => s
  let dec ← attemptNorm (decodePngIngest E.png E.host s.disk inp : Except Fault (Decoded F))
  if rewritable E.isOne dec then do
    match fileName inp with
    | none => fail (.message s!"{inp} has no usable basename")
    | some name =>
        if name ∈ s.seen then fail (.message s!"input basename collision: {name}")
        else do
          let dst := joinPath outDir name
          let rgb ← attemptNorm (unwrap (rgbBytes dec))
          let written := writePng E.png E.host s.disk dst dec.w dec.h rgb
          update fun _ => ⟨written.1, name :: s.seen⟩
          match written.2 with
          | .error e => fail (.message s!"{inp} -> {dst}: {e}")
          | .ok () => emit s!"{inp} -> {dst}"
  else fail (.message (carriesAlphaErr inp))

/-- The loop over the inputs. -/
def normalizeLoop (inputs : List String) : Norm Unit := each (normalizeOne E outDir) inputs

/-- The loop over the arguments. -/
def normalizeArgs : List String → Option String × List String → Option String × List String
  | [], a => a
  | ["--out"], a => (none, a.2)
  | "--out" :: dir :: rest, a => normalizeArgs rest (some dir, a.2)
  | other :: rest, a => normalizeArgs rest (a.1, a.2 ++ [other])

/-- `run_normalize`, on the arguments after the name of the command: what it prints, and the disk
    it leaves. -/
def runNormalize (args : List String) (disk : Disk) : Exit × Disk :=
  match normalizeArgs args (none, []) with
  | (some outDir, input :: inputs) =>
      match E.host.createDirAll outDir with
      | some e => (⟨[], ["normalize: " ++ e], 1⟩, disk)
      | none =>
          let o := normalizeLoop E outDir (input :: inputs) ⟨disk, []⟩
          match o.result with
          | .ok () => (⟨o.trace, [], 0⟩, o.state.disk)
          | .error (.message text) => (⟨o.trace, ["normalize: " ++ text], 1⟩, o.state.disk)
          | .error (.panic text) => (⟨o.trace, [text], 101⟩, o.state.disk)
  | _ => (⟨[], ["normalize requires --out <dir> and one or more input images", usage], 1⟩, disk)

/-! ## 2. Runs that go through -/

section Runs

variable {E} {outDir}

/-- What the file of an input is rewritten to. -/
structure Rewrites (E : NormEnv F) (disk : Disk) (inp : String) (dec : Decoded F)
    (bytes : ByteSlice) : Prop where
  decoded : decodePngIngest E.png E.host disk inp = .ok dec
  passes : rewritable E.isOne dec = true
  encoded : ∃ rgb, rgbBytes dec = some rgb ∧ E.png.encode dec.w dec.h rgb = (bytes, none)

/-- What the encoder makes of the contents of an input, when they decode to an opaque image. -/
def normalForm (E : NormEnv F) (disk : Disk) (inp : String) : Option (ByteSlice × Option String) :=
  match (decodePngIngest E.png E.host disk inp : Except Fault (Decoded F)) with
  | .error _ => none
  | .ok dec =>
      if rewritable E.isOne dec then (rgbBytes dec).map (E.png.encode dec.w dec.h) else none

theorem rewrites_of_normalForm {disk : Disk} {inp : String} {bytes : ByteSlice}
    (h : normalForm E disk inp = some (bytes, none)) : ∃ dec, Rewrites E disk inp dec bytes := by
  unfold normalForm at h
  cases hdec : (decodePngIngest E.png E.host disk inp : Except Fault (Decoded F)) with
  | error e =>
    rw [hdec] at h
    cases h
  | ok dec =>
    rw [hdec] at h
    dsimp only at h
    by_cases hop : rewritable E.isOne dec = true
    · rw [if_pos hop] at h
      obtain ⟨rgb, hrgb, henc⟩ := Option.map_eq_some_iff.mp h
      exact ⟨dec, hdec, hop, rgb, hrgb, henc⟩
    · rw [if_neg hop] at h
      cases h

theorem Rewrites.normalForm_eq {disk : Disk} {inp : String} {dec : Decoded F} {bytes : ByteSlice}
    (h : Rewrites E disk inp dec bytes) : normalForm E disk inp = some (bytes, none) := by
  obtain ⟨hdec, hop, rgb, hrgb, henc⟩ := h
  unfold normalForm
  rw [hdec]
  dsimp only
  rw [if_pos hop, hrgb, Option.map_some, henc]

/-- **An input is written**: it has a normal form and a new name, and its file can be created. -/
structure Writable (E : NormEnv F) (outDir : String) (s : NormState) (inp name : String)
    (out : ByteSlice × Option String) : Prop where
  form : normalForm E s.disk inp = some out
  name_eq : fileName inp = some name
  fresh : name ∉ s.seen
  create : E.host.create (joinPath outDir name) = none

/-- The state after a file was written. -/
def NormState.wrote (s : NormState) (host : Host) (outDir name : String) (bytes : ByteSlice) :
    NormState :=
  ⟨Function.update s.disk (host.resolve (joinPath outDir name)) (some bytes), name :: s.seen⟩

omit [F32 F] in
/-- An input of another name keeps its contents. -/
theorem NormState.wrote_other {s : NormState} {src inp name name' : String}
    (hsrc : fileName src = some name) (hinp : fileName inp = some name') (hne : name' ≠ name)
    (host : Host) (bytes : ByteSlice) :
    (s.wrote host outDir name bytes).disk (host.resolve inp) = s.disk (host.resolve inp) :=
  Function.update_of_ne (fun e => hne (host.resolve_name hinp (fileName_joinPath outDir hsrc) e)) _ _

omit [F32 F] in
/-- Two new files of one directory are different. -/
theorem resolve_joinPath_ne {host : Host} {p q name name' : String} (hp : fileName p = some name)
    (hq : fileName q = some name') (hne : name ≠ name') :
    host.resolve (joinPath outDir name) ≠ host.resolve (joinPath outDir name') := fun e =>
  hne (host.resolve_name (fileName_joinPath outDir hp) (fileName_joinPath outDir hq) e)

/-- Decoding depends on the contents of the file. -/
theorem decodePngIngest_congr {disk disk' : Disk} {inp : String}
    (h : disk (E.host.resolve inp) = disk' (E.host.resolve inp)) :
    (decodePngIngest E.png E.host disk inp : Except Fault (Decoded F)) =
      decodePngIngest E.png E.host disk' inp := by
  unfold decodePngIngest decodePngOpts Disk.read
  rw [h]

/-- **One input**: it is written, and the run goes on when the encoder had no error; or the run ends
    and the disk is as it was. -/
theorem normalizeOne_cases (inp : String) (s : NormState) :
    Post (normalizeOne E outDir inp) s fun r s' _ =>
      (∃ name out, Writable E outDir s inp name out ∧ s' = s.wrote E.host outDir name out.1 ∧
        (r = .ok () ↔ out.2 = none)) ∨
      (∀ name out, ¬Writable E outDir s inp name out) ∧ s'.disk = s.disk ∧ r ≠ .ok () := by
  unfold normalizeOne
  refine post_step (run_gets _ s) ?_
  cases hdec : (decodePngIngest E.png E.host s.disk inp : Except Fault (Decoded F)) with
  | error e =>
    refine post_stop rfl (Or.inr ⟨fun name out h => ?_, rfl, nofun⟩)
    have hform := h.form
    unfold normalForm at hform
    rw [hdec] at hform
    cases hform
  | ok dec =>
    have hform : normalForm E s.disk inp = if rewritable E.isOne dec then
        (rgbBytes dec).map (E.png.encode dec.w dec.h) else none := by
      unfold normalForm
      rw [hdec]
    refine post_step rfl ?_
    by_cases hop : rewritable E.isOne dec = true
    swap
    · rw [if_neg hop] at hform ⊢
      refine post_fail (Or.inr ⟨fun name out h => ?_, rfl, nofun⟩)
      cases hform.symm.trans h.form
    rw [if_pos hop] at hform ⊢
    cases hname : fileName inp with
    | none =>
      refine post_fail (Or.inr ⟨fun name out h => ?_, rfl, nofun⟩)
      cases hname.symm.trans h.name_eq
    | some name =>
      have hsame {name' : String} {out : ByteSlice × Option String}
          (h : Writable E outDir s inp name' out) : name' = name :=
        Option.some.inj (h.name_eq.symm.trans hname)
      dsimp only
      by_cases hseen : name ∈ s.seen
      · rw [if_pos hseen]
        exact post_fail (Or.inr ⟨fun name' out h => h.fresh (hsame h ▸ hseen), rfl, nofun⟩)
      rw [if_neg hseen]
      cases hrgb : rgbBytes dec with
      | none =>
        rw [hrgb] at hform
        refine post_stop rfl (Or.inr ⟨fun name' out h => ?_, rfl, nofun⟩)
        cases hform.symm.trans h.form
      | some rgb =>
        rw [hrgb, Option.map_some] at hform
        refine post_step rfl (post_step (run_update _ s) ?_)
        unfold writePng
        cases hcreate : E.host.create (joinPath outDir name) with
        | some e =>
          refine post_fail (Or.inr ⟨fun name' out h => ?_, rfl, nofun⟩)
          cases hcreate.symm.trans (hsame h ▸ h.create)
        | none =>
          have hw : Writable E outDir s inp name (E.png.encode dec.w dec.h rgb) :=
            ⟨hform, hname, hseen, hcreate⟩
          dsimp only
          generalize E.png.encode dec.w dec.h rgb = out at hw
          obtain ⟨bytes, _ | e⟩ := out
          · exact post_emit (Or.inl ⟨name, _, hw, rfl, fun _ => rfl, fun _ => rfl⟩)
          · exact post_fail (Or.inl ⟨name, _, hw, rfl, nofun, nofun⟩)

/-- **One input that goes through** writes one file, under a new name. -/
theorem normalizeOne_ok (inp : String) (s : NormState) :
    Post (normalizeOne E outDir inp) s fun r s' _ => r = .ok () →
      ∃ dec name bytes, Rewrites E s.disk inp dec bytes ∧ fileName inp = some name ∧
        name ∉ s.seen ∧ s' = s.wrote E.host outDir name bytes := by
  refine post_mono (normalizeOne_cases inp s) fun r s' t h hr => ?_
  rcases h with ⟨name, ⟨bytes, e⟩, hw, hs', hiff⟩ | ⟨-, -, hne⟩
  · cases hiff.mp hr
    obtain ⟨dec, hrw⟩ := rewrites_of_normalForm hw.form
    exact ⟨dec, name, bytes, hrw, hw.name_eq, hw.fresh, hs'⟩
  · exact absurd hr hne

/-- What a run that goes through leaves: other files as they were, new names, and every input
    rewritten from what it was before the run. -/
structure Normalized (E : NormEnv F) (outDir : String) (inputs : List String) (s s' : NormState) :
    Prop where
  others : ∀ file, (∀ inp ∈ inputs, ∀ name, fileName inp = some name →
    file ≠ E.host.resolve (joinPath outDir name)) → s'.disk file = s.disk file
  fresh : ∀ inp ∈ inputs, ∀ name, fileName inp = some name → name ∉ s.seen
  rewritten : ∀ inp ∈ inputs, ∃ dec name bytes, Rewrites E s.disk inp dec bytes ∧
    fileName inp = some name ∧ s'.disk (E.host.resolve (joinPath outDir name)) = some bytes

/-- **A run that goes through**, by induction on the inputs: no input is a file that was written
    before it, for that file would bear its name. -/
theorem normalizeLoop_ok (inputs : List String) (s : NormState) :
    Post (normalizeLoop E outDir inputs) s fun r s' _ => r = .ok () →
      Normalized E outDir inputs s s' := by
  induction inputs generalizing s with
  | nil =>
    exact post_pure fun _ => ⟨fun _ _ => rfl, fun _ h => absurd h List.not_mem_nil,
      fun _ h => absurd h List.not_mem_nil⟩
  | cons inp inputs ih =>
    refine post_bind (normalizeOne_ok inp s) (fun _ s1 _ h1 => ?_) fun e s1 _ _ => nofun
    obtain ⟨dec, name, bytes, hrw, hname, hseen, rfl⟩ := h1 rfl
    refine post_mono (ih _) fun r s2 _ h2 hr => ?_
    obtain ⟨hothers, hfresh, hrest⟩ := h2 hr
    have hfar {inp' name' : String} (hm : inp' ∈ inputs) (hn : fileName inp' = some name') :
        E.host.resolve (joinPath outDir name) ≠ E.host.resolve (joinPath outDir name') :=
      resolve_joinPath_ne hname hn fun e => hfresh inp' hm name' hn (e ▸ List.mem_cons_self)
    refine ⟨fun file hfile => ?_, ?_, ?_⟩
    · rw [hothers file fun inp' hm => hfile inp' (List.mem_cons_of_mem _ hm)]
      exact Function.update_of_ne (hfile inp List.mem_cons_self name hname) _ _
    · rw [List.forall_mem_cons]
      refine ⟨fun name' hn => ?_, fun inp' hm name' hn h =>
        hfresh inp' hm name' hn (List.mem_cons_of_mem _ h)⟩
      cases hname.symm.trans hn
      exact hseen
    · rw [List.forall_mem_cons]
      refine ⟨⟨dec, name, bytes, hrw, hname, ?_⟩, fun inp' hm => ?_⟩
      · rw [hothers _ fun inp' hm name' hn => hfar hm hn]
        exact Function.update_self _ _ _
      · obtain ⟨dec', name', bytes', hrw', hname', hdisk'⟩ := hrest inp' hm
        refine ⟨dec', name', bytes', ⟨?_, hrw'.passes, hrw'.encoded⟩, hname', hdisk'⟩
        have hne : name' ≠ name := by
          rintro rfl
          exact hfresh inp' hm name' hname' List.mem_cons_self
        rw [decodePngIngest_congr (NormState.wrote_other hname hname' hne E.host bytes).symm]
        exact hrw'.decoded

/-- **A command that exits with 0** rewrote every input. -/
theorem runNormalize_ok {args inputs : List String} {disk : Disk}
    (hargs : normalizeArgs args (none, []) = (some outDir, inputs))
    (hcode : (runNormalize E args disk).1.code = 0) :
    ∀ inp ∈ inputs, ∃ dec name bytes, Rewrites E disk inp dec bytes ∧
      fileName inp = some name ∧
      (runNormalize E args disk).2 (E.host.resolve (joinPath outDir name)) = some bytes := by
  unfold runNormalize at hcode ⊢
  rw [hargs] at hcode ⊢
  cases inputs with
  | nil => exact fun _ h => absurd h List.not_mem_nil
  | cons input inputs =>
    dsimp only at hcode ⊢
    cases hdir : E.host.createDirAll outDir with
    | some e =>
      rw [hdir] at hcode
      cases hcode
    | none =>
      rw [hdir] at hcode
      dsimp only at hcode ⊢
      have hloop : (normalizeLoop E outDir (input :: inputs) ⟨disk, []⟩).result = .ok () →
          Normalized E outDir (input :: inputs) ⟨disk, []⟩
            (normalizeLoop E outDir (input :: inputs) ⟨disk, []⟩).state :=
        normalizeLoop_ok (input :: inputs) ⟨disk, []⟩
      cases hres : (normalizeLoop E outDir (input :: inputs) ⟨disk, []⟩).result with
      | error e =>
        rw [hres] at hcode
        cases e with
        | message text => cases hcode
        | panic text => cases hcode
      | ok _ => exact (hloop hres).rewritten

end Runs

end Ssimulacra2
