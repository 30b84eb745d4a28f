/-
  File:      Ssimulacra2/Png/Overwrite.lean
  Subject:   What `normalize` does to its own inputs.

  The inputs are read, checked for a collision of names and written one at a time. `Written` says
  which of them a run writes, by their contents before the run: a file that was written bears a name
  of its own, so no later input that is written was read from it (`Written.later`,
  `normalizeLoop_disk`). The check on the names comes after the writes of the inputs before it, so an
  input in the output directory may be lost to another one of its name.
-/
import Ssimulacra2.Png.Lossless

namespace Ssimulacra2

open Fallible Prog

variable {F : Type} [F32 F]

/-! ## 1. The inputs that are written -/

/-- **The run writes the input `q`**: every input before it is written without an error, it is
    written itself, and the names are new. -/
def Written (E : NormEnv F) (outDir : String) (s : NormState) (inputs : List String)
    (q name : String) (out : ByteSlice × Option String) : Prop :=
  ∃ pre post, inputs = pre ++ q :: post ∧ ((pre ++ [q]).map fileName).Nodup ∧
    (∀ x ∈ pre, ∃ name bytes, Writable E outDir s x name (bytes, none)) ∧
    Writable E outDir s q name out

section Written

variable {E : NormEnv F} {outDir : String} {s : NormState} {inp q name name' : String}
  {inputs : List String} {bytes : ByteSlice} {out : ByteSlice × Option String}

/-- An input of another name is written as before. -/
theorem writable_wrote (hsrc : fileName inp = some name) :
    Writable E outDir (s.wrote E.host outDir name bytes) q name' out ↔
      Writable E outDir s q name' out ∧ name' ≠ name := by
  have hform (hq : fileName q = some name') (hne : name' ≠ name) :
      normalForm E (s.wrote E.host outDir name bytes).disk q = normalForm E s.disk q := by
    unfold normalForm
    rw [decodePngIngest_congr (NormState.wrote_other hsrc hq hne E.host bytes)]
  constructor
  · intro h
    have hfresh : name' ∉ name :: s.seen := h.fresh
    rw [List.mem_cons, not_or] at hfresh
    exact ⟨⟨hform h.name_eq hfresh.1 ▸ h.form, h.name_eq, hfresh.2, h.create⟩, hfresh.1⟩
  · rintro ⟨h, hne⟩
    refine ⟨(hform h.name_eq hne).trans h.form, h.name_eq, ?_, h.create⟩
    show name' ∉ name :: s.seen
    rw [List.mem_cons, not_or]
    exact ⟨hne, h.fresh⟩

/-- The first input. -/
theorem Written.first (h : Writable E outDir s inp name out) :
    Written E outDir s (inp :: inputs) inp name out :=
  ⟨[], inputs, rfl, List.nodup_singleton _, fun _ hx => absurd hx List.not_mem_nil, h⟩

/-- **A later input**: what it is written from is what it was before the first one was written. -/
theorem Written.later (h : Writable E outDir s inp name (bytes, none)) :
    Written E outDir (s.wrote E.host outDir name bytes) inputs q name' out →
      Written E outDir s (inp :: inputs) q name' out := by
  rintro ⟨pre, post, rfl, hnodup, hpre, hq⟩
  have hother {x n : String} {o : ByteSlice × Option String}
      (hx : Writable E outDir (s.wrote E.host outDir name bytes) x n o) : fileName inp ≠ fileName x := by
    rw [h.name_eq, hx.name_eq]
    exact fun e => ((writable_wrote h.name_eq).mp hx).2 (Option.some.inj e).symm
  refine ⟨inp :: pre, post, rfl, ?_, ?_, ((writable_wrote h.name_eq).mp hq).1⟩
  · rw [List.cons_append, List.map_cons, List.nodup_cons]
    refine ⟨fun hmem => ?_, hnodup⟩
    obtain ⟨x, hx, e⟩ := List.mem_map.mp hmem
    rcases List.mem_append.mp hx with hx | hx
    · obtain ⟨n, b, hw⟩ := hpre x hx
      exact hother hw e.symm
    · rw [List.mem_singleton.mp hx] at e
      exact hother hq e.symm
  · rw [List.forall_mem_cons]
    refine ⟨⟨name, bytes, h⟩, fun x hx => ?_⟩
    obtain ⟨n, b, hw⟩ := hpre x hx
    exact ⟨n, b, ((writable_wrote h.name_eq).mp hw).1⟩

/-- The first input or a later one. -/
theorem Written.cases (h : Written E outDir s (inp :: inputs) q name' out) :
    (q = inp ∧ Writable E outDir s inp name' out) ∨
      ∃ name bytes, Writable E outDir s inp name (bytes, none) ∧
        Written E outDir (s.wrote E.host outDir name bytes) inputs q name' out := by
  obtain ⟨pre, post, e, hnodup, hpre, hq⟩ := h
  cases pre with
  | nil =>
    cases e
    exact Or.inl ⟨rfl, hq⟩
  | cons x pre =>
    cases e
    rw [List.cons_append, List.map_cons, List.nodup_cons] at hnodup
    rw [List.forall_mem_cons] at hpre
    obtain ⟨⟨name, bytes, hinp⟩, hpre⟩ := hpre
    have hother {y n : String} {o : ByteSlice × Option String} (hy : y ∈ pre ++ [q])
        (hw : Writable E outDir s y n o) :
        Writable E outDir (s.wrote E.host outDir name bytes) y n o := by
      refine (writable_wrote hinp.name_eq).mpr ⟨hw, ?_⟩
      rintro rfl
      exact hnodup.1 (List.mem_map.mpr ⟨y, hy, hw.name_eq.trans hinp.name_eq.symm⟩)
    refine Or.inr ⟨name, bytes, hinp, pre, post, rfl, hnodup.2, fun y hy => ?_, ?_⟩
    · obtain ⟨n, b, hw⟩ := hpre y hy
      exact ⟨n, b, hother (List.mem_append_left _ hy) hw⟩
    · exact hother (List.mem_append_right _ List.mem_cons_self) hq

/-- Nothing is written when the first input is not. -/
theorem not_written (h : ∀ name out, ¬Writable E outDir s inp name out) :
    ¬Written E outDir s (inp :: inputs) q name' out := by
  intro hw
  rcases hw.cases with ⟨-, hw⟩ | ⟨name, bytes, hw, -⟩
  · exact h _ _ hw
  · exact h _ _ hw

end Written

/-! ## 2. The disk after a run -/

section Runs

variable {E : NormEnv F} {outDir : String}

/-- What a run leaves: the files it wrote, and the others as they were. -/
structure LeavesFiles (E : NormEnv F) (outDir : String) (inputs : List String) (s : NormState)
    (disk : Disk) : Prop where
  others : ∀ file, (∀ q name out, Written E outDir s inputs q name out →
    file ≠ E.host.resolve (joinPath outDir name)) → disk file = s.disk file
  files : ∀ q name out, Written E outDir s inputs q name out →
    disk (E.host.resolve (joinPath outDir name)) = some out.1

/-- **The disk after a run**, whatever its outcome, by induction on the inputs. -/
theorem normalizeLoop_disk (inputs : List String) (s : NormState) :
    Post (normalizeLoop E outDir inputs) s fun _ s' _ => LeavesFiles E outDir inputs s s'.disk := by
  induction inputs generalizing s with
  | nil =>
    refine post_pure ⟨fun _ _ => rfl, fun q name out h => ?_⟩
    obtain ⟨pre, post, e, -⟩ := h
    exact absurd e (by simp)
  | cons inp inputs ih =>
    refine post_bind (normalizeOne_cases inp s) (fun _ s1 _ h1 => ?_) fun e s1 _ h1 => ?_
    · -- the input is written without an error
      rcases h1 with ⟨name, ⟨bytes, err⟩, hw, rfl, hiff⟩ | ⟨-, -, hne⟩
      swap
      · exact absurd rfl hne
      cases hiff.mp rfl
      refine post_mono (ih _) fun r s2 t h => ⟨fun file hfile => ?_, fun q name' out hq => ?_⟩
      · rw [h.others file fun q name' out hq => hfile q name' out (Written.later hw hq)]
        exact Function.update_of_ne (hfile inp name _ (Written.first hw)) _ _
      · rcases hq.cases with ⟨rfl, hq⟩ | ⟨name2, bytes2, hw2, hq⟩
        · cases hw.name_eq.symm.trans hq.name_eq
          cases hw.form.symm.trans hq.form
          rw [h.others]
          · exact Function.update_self _ _ _
          · rintro q' name' out' ⟨pre, post, -, -, -, hq'⟩
            refine resolve_joinPath_ne hw.name_eq hq'.name_eq fun e => hq'.fresh ?_
            exact e ▸ List.mem_cons_self
        · cases hw.name_eq.symm.trans hw2.name_eq
          cases hw.form.symm.trans hw2.form
          exact h.files q name' out hq
    · rcases h1 with ⟨name, out, hw, rfl, hiff⟩ | ⟨hno, hdisk, -⟩
      · -- the encoder stopped at an error: the file is written, and nothing after it
        have hlast {q name' : String} {out' : ByteSlice × Option String}
            (hq : Written E outDir s (inp :: inputs) q name' out') : name' = name ∧ out' = out := by
          rcases hq.cases with ⟨rfl, hq⟩ | ⟨name2, bytes2, hw2, -⟩
          · exact ⟨Option.some.inj (hq.name_eq.symm.trans hw.name_eq),
              Option.some.inj (hq.form.symm.trans hw.form)⟩
          · have hout := Option.some.inj (hw2.form.symm.trans hw.form)
            exact nomatch hiff.mpr (hout ▸ rfl)
        refine ⟨fun file hfile => ?_, fun q name' out' hq => ?_⟩
        · exact Function.update_of_ne (hfile inp name out (Written.first hw)) _ _
        · obtain ⟨rfl, rfl⟩ := hlast hq
          exact Function.update_self _ _ _
      · rw [hdisk]
        exact ⟨fun _ _ => rfl, fun q name' out hq => absurd hq (not_written hno)⟩

/-- The disk after the command. -/
theorem runNormalize_disk (disk : Disk) {args inputs : List String}
    (hargs : normalizeArgs args (none, []) = (some outDir, inputs))
    (hdir : E.host.createDirAll outDir = none) :
    LeavesFiles E outDir inputs ⟨disk, []⟩ (runNormalize E args disk).2 := by
  unfold runNormalize
  rw [hargs]
  cases inputs with
  | nil =>
    refine ⟨fun _ _ => rfl, fun q name out h => ?_⟩
    obtain ⟨pre, post, e, -⟩ := h
    exact absurd e (by simp)
  | cons input inputs =>
    dsimp only
    rw [hdir]
    have h : LeavesFiles E outDir (input :: inputs) ⟨disk, []⟩
      (normalizeLoop E outDir (input :: inputs) ⟨disk, []⟩).state.disk :=
        normalizeLoop_disk (input :: inputs) ⟨disk, []⟩
    dsimp only
    cases (normalizeLoop E outDir (input :: inputs) ⟨disk, []⟩).result with
    | ok _ => exact h
    | error e =>
      cases e with
      | message text => exact h
      | panic text => exact h

/-- A command without a directory to write to leaves the disk as it was. -/
theorem runNormalize_idle (disk : Disk) {args : List String}
    (h : ∀ outDir, (normalizeArgs args (none, [])).1 = some outDir →
      E.host.createDirAll outDir ≠ none) : (runNormalize E args disk).2 = disk := by
  unfold runNormalize
  rcases hargs : normalizeArgs args (none, []) with ⟨_ | outDir, inputs⟩
  · rfl
  · cases inputs with
    | nil => rfl
    | cons input inputs =>
      dsimp only
      rw [hargs] at h
      cases hdir : E.host.createDirAll outDir with
      | none => exact absurd hdir (h outDir rfl)
      | some e => rfl

/-! ## 3. Inputs that are lost -/

/-- **What is asked of the command**: whatever its outcome, an input keeps its contents or becomes
    what the encoder makes of them; and on success every `out/<basename>` is the normal form of what
    its input was before the run. -/
structure KeepsInputs (E : NormEnv F) (args : List String) (disk : Disk) : Prop where
  inputs : ∀ p ∈ (normalizeArgs args (none, [])).2,
    (runNormalize E args disk).2 (E.host.resolve p) = disk (E.host.resolve p) ∨
    ∃ out, normalForm E disk p = some out ∧
      (runNormalize E args disk).2 (E.host.resolve p) = some out.1
  outputs : (runNormalize E args disk).1.code = 0 →
    ∀ outDir, (normalizeArgs args (none, [])).1 = some outDir →
      ∀ p ∈ (normalizeArgs args (none, [])).2, ∃ name bytes, fileName p = some name ∧
        normalForm E disk p = some (bytes, none) ∧
        (runNormalize E args disk).2 (E.host.resolve (joinPath outDir name)) = some bytes

/-- No input that is written has another input in its place, however the paths are spelled, with
    other contents than the ones written and with another normal form. -/
def Apart (E : NormEnv F) (args : List String) (disk : Disk) : Prop :=
  ∀ outDir, (normalizeArgs args (none, [])).1 = some outDir → E.host.createDirAll outDir = none →
    ∀ q name out, Written E outDir ⟨disk, []⟩ (normalizeArgs args (none, [])).2 q name out →
      ∀ p ∈ (normalizeArgs args (none, [])).2,
        E.host.resolve p = E.host.resolve (joinPath outDir name) →
        E.host.resolve p ≠ E.host.resolve q →
        disk (E.host.resolve p) = some out.1 ∨ ∃ e, normalForm E disk p = some (out.1, e)

/-- The normal form of a file does not depend on how its path is spelled. -/
theorem normalForm_same {disk : Disk} {p q : String} (h : E.host.resolve p = E.host.resolve q) :
    normalForm E disk p = normalForm E disk q := by
  unfold normalForm decodePngIngest decodePngOpts Disk.read
  rw [h]
  cases disk (E.host.resolve q) with
  | none => rfl
  | some bytes => rfl

/-- **When `normalize` keeps its inputs**: exactly when no input that is written lies under the name
    of another one in the output directory, but for contents that make no difference. -/
theorem keepsInputs_iff (E : NormEnv F) (args : List String) (disk : Disk) :
    KeepsInputs E args disk ↔ Apart E args disk := by
  constructor
  · intro h outDir hout hdir q name out hq p hp e hne
    have hargs : normalizeArgs args (none, []) = (some outDir, (normalizeArgs args (none, [])).2) :=
      Prod.ext hout rfl
    have hdisk := runNormalize_disk disk hargs hdir
    have hwritten := hdisk.files q name out hq
    rw [← e] at hwritten
    rcases h.inputs p hp with hkept | ⟨own, hform, hown⟩
    · exact Or.inl (hkept.symm.trans hwritten)
    · rw [hwritten, Option.some_inj] at hown
      exact Or.inr ⟨own.2, by rw [hform, hown]⟩
  · intro h
    refine ⟨fun p hp => ?_, fun hcode outDir hout p hp => ?_⟩
    · by_cases hrun : ∃ outDir, (normalizeArgs args (none, [])).1 = some outDir ∧
        E.host.createDirAll outDir = none
      swap
      · have hidle : (runNormalize E args disk).2 = disk := runNormalize_idle disk
          fun outDir hout hdir => hrun ⟨outDir, hout, hdir⟩
        exact Or.inl (congrFun hidle _)
      obtain ⟨outDir, hout, hdir⟩ := hrun
      have hargs : normalizeArgs args (none, []) = (some outDir, (normalizeArgs args (none, [])).2) :=
        Prod.ext hout rfl
      have hdisk := runNormalize_disk disk hargs hdir
      by_cases hwritten : ∃ q name out,
        Written E outDir ⟨disk, []⟩ (normalizeArgs args (none, [])).2 q name out ∧
          E.host.resolve p = E.host.resolve (joinPath outDir name)
      · obtain ⟨q, name, out, hq, e⟩ := hwritten
        have hafter := hdisk.files q name out hq
        rw [← e] at hafter
        by_cases hpq : E.host.resolve p = E.host.resolve q
        · obtain ⟨-, -, -, -, -, hw⟩ := hq
          exact Or.inr ⟨out, (normalForm_same hpq).trans hw.form, hafter⟩
        · rcases h outDir hout hdir q name out hq p hp e hpq with hsame | ⟨err, hform⟩
          · exact Or.inl (hafter.trans hsame.symm)
          · exact Or.inr ⟨_, hform, hafter⟩
      · exact Or.inl (hdisk.others _ fun q name out hq e => hwritten ⟨q, name, out, hq, e⟩)
    · obtain ⟨dec, name, bytes, hrw, hname, hfile⟩ := runNormalize_ok (Prod.ext hout rfl) hcode p hp
      exact ⟨name, bytes, hname, hrw.normalForm_eq, hfile⟩

end Runs

/-- Two inputs of one name, the second one in the output directory. -/
def lostDisk : Disk := fun path =>
  if path = "a/x.png" then some blackPng else if path = "out/x.png" then some whitePng else none

/-- The white picture is replaced by the black one, however its path and the directory are
    spelled. -/
theorem white_lost {outDir p : String} (hargs : normalizeArgs ["--out", outDir, "a/x.png", p] (none, []) =
      (some outDir, ["a/x.png", p])) (hp : plainPath p = "out/x.png")
    (hdst : plainPath (joinPath outDir "x.png") = "out/x.png") :
    ¬KeepsInputs sampleEnv ["--out", outDir, "a/x.png", p] lostDisk := by
  have hresolve (q : String) : sampleEnv.host.resolve q = plainPath q := rfl
  have hsrc : plainPath "a/x.png" = "a/x.png" := by decide
  have hblack : normalForm sampleEnv lostDisk "a/x.png" = some (blackPng, none) :=
    normalForm_black exactBinary32 rfl (by rw [hresolve, hsrc]; rfl)
  have hwhite : normalForm sampleEnv lostDisk p = some (whitePng, none) :=
    normalForm_white exactBinary32 rfl (by rw [hresolve, hp]; rfl)
  have hdisk := runNormalize_disk (E := sampleEnv) lostDisk hargs rfl
  have hname : fileName "a/x.png" = some "x.png" := by decide
  have hlost := hdisk.files "a/x.png" "x.png" (blackPng, none)
    (Written.first ⟨hblack, hname, List.not_mem_nil, rfl⟩)
  have hne : blackPng ≠ whitePng := fun e => absurd (congrArg ByteSlice.data e) (by decide)
  rw [hresolve, hdst] at hlost
  intro h
  have hmem : p ∈ (normalizeArgs ["--out", outDir, "a/x.png", p] (none, [])).2 := by
    rw [hargs]
    exact List.mem_pair.mpr (Or.inr rfl)
  have hafter := h.inputs p hmem
  rw [hresolve, hp, hlost] at hafter
  rcases hafter with hkept | ⟨out, hform, hown⟩
  · have hbefore : lostDisk "out/x.png" = some whitePng := rfl
    rw [hbefore] at hkept
    exact hne (Option.some.inj hkept)
  · rw [hwhite] at hform
    cases hform
    exact hne (Option.some.inj hown)

/-- **An input is lost**: it is overwritten before the collision of the names is found. -/
theorem keepsInputs_lost :
    ¬KeepsInputs sampleEnv ["--out", "out", "a/x.png", "out/x.png"] lostDisk ∧
    ¬KeepsInputs sampleEnv ["--out", "./out/", "a/x.png", "out//x.png"] lostDisk :=
  ⟨white_lost rfl (by decide) (by decide), white_lost rfl (by decide) (by decide)⟩

end Ssimulacra2
