/-
  File:      Ssimulacra2/Command.lean
  Subject:   What the commands are made of: failures, exits, and file paths as `std::path` reads
             them on Unix.
-/
import Mathlib

namespace Ssimulacra2

/-! ## 1. Failures -/

/-- How a command fails. -/
inductive Fault where
  | message (text : String)
  | panic (text : String)
  deriving DecidableEq

/-- The error of an access out of bounds. -/
def boundsText : String := "index out of bounds"

/-- A step that may panic. -/
def unwrap {α : Type} (x : Option α) : Except Fault α :=
  match x with
  | some a => .ok a
  | none => .error (.panic boundsText)

section Except

variable {ε ε' α β : Type}

/-- A sequence answers when both parts do. -/
theorem except_bind_ok {x : Except ε α} {f : α → Except ε β} {b : β} :
    (x >>= f) = .ok b ↔ ∃ a, x = .ok a ∧ f a = .ok b := by
  cases x with
  | error e => exact ⟨nofun, fun ⟨_, h, _⟩ => nomatch h⟩
  | ok a => exact ⟨fun h => ⟨a, rfl, h⟩, fun ⟨_, h, hf⟩ => by cases h; exact hf⟩

theorem mapError_ok {x : Except ε α} {f : ε → ε'} {a : α} : x.mapError f = .ok a ↔ x = .ok a := by
  cases x with
  | error e => exact ⟨nofun, nofun⟩
  | ok b => exact ⟨fun h => by cases h; rfl, fun h => by cases h; rfl⟩

theorem unwrap_ok {x : Option α} {a : α} : unwrap x = .ok a ↔ x = some a := by
  cases x with
  | none => exact ⟨nofun, nofun⟩
  | some b => exact ⟨fun h => by cases h; rfl, fun h => by cases h; rfl⟩

end Except

/-- What a process leaves: the lines it printed and its exit code. -/
structure Exit where
  stdout : List String
  stderr : List String
  code : Nat

/-- `USAGE`. -/
def usage : String :=
  String.intercalate "\n" [
    "SSIMULACRA 2.1 (Vulkan port)",
    "Usage (single pair, engine auto-routed at 0.5 MP):",
    "  ssimulacra2-vulkan [--cpu|--gpu] [--profile] original.png distorted.png",
    "Usage (batch: one original vs a directory of same-size variants,",
    "original-side preprocessing cached across the batch):",
    "  ssimulacra2-vulkan score-many --orig <original.png> --vars <dir> [--no-cache] [--profile]",
    "Usage (normalize: rewrite images as plain 8-bit truecolor RGB PNG, no",
    "color-management chunks, byte-exact pixels. Strips fully-opaque alpha;",
    "rejects actual transparency and iCCP - route those to the per-pair path):",
    "  ssimulacra2-vulkan normalize <input...> --out <dir>",
    "Flags:",
    "  --cpu / --gpu   force an engine for the single-pair path (mutually exclusive)",
    "  --no-cache      (score-many) same variants through the uncached path - the",
    "                  fair baseline the caching win is measured against",
    "  --profile       per-stage wall-time breakdown on stderr",
    "  --help, -h      this text"]

/-! ## 2. Paths -/

/-- A component that is a name or `..`. -/
def isPart (part : List Char) : Bool := part ≠ [] ∧ part ≠ ['.']

/-- The components of a path that are names or `..`. -/
def pathParts (path : List Char) : List (List Char) := (path.splitOn '/').filter isPart

/-- `Path::file_name`: the last component, unless it is `..`. -/
def fileName (path : String) : Option String :=
  match (pathParts path.toList).getLast? with
  | none => none
  | some part => if part = ['.', '.'] then none else some (String.ofList part)

/-- `Path::join` with a name. -/
def joinPath (dir name : String) : String :=
  if dir.toList = [] ∨ dir.toList.getLast? = some '/' then dir ++ name else dir ++ "/" ++ name

/-- The parts of a split list do not hold the separator. -/
theorem not_mem_of_mem_splitOn {α : Type} [DecidableEq α] (sep : α) (xs : List α) :
    ∀ part ∈ xs.splitOn sep, sep ∉ part := by
  induction xs with
  | nil =>
    intro part hp
    rw [List.mem_singleton.mp hp]
    exact List.not_mem_nil
  | cons x xs ih =>
    rw [List.splitOn_cons_eq_if_modifyHead]
    by_cases hx : x = sep
    · rw [if_pos (beq_iff_eq.mpr hx), List.forall_mem_cons]
      exact ⟨List.not_mem_nil, ih⟩
    · rw [if_neg (mt beq_iff_eq.mp hx)]
      generalize hsplit : xs.splitOn sep = parts at ih
      cases parts with
      | nil => exact fun _ h => absurd h List.not_mem_nil
      | cons part parts =>
        rw [List.forall_mem_cons] at ih
        rw [List.modifyHead_cons, List.forall_mem_cons, List.mem_cons, not_or]
        exact ⟨⟨fun h => hx h.symm, ih.1⟩, ih.2⟩

theorem getLast?_filter_concat {α : Type} {p : α → Bool} {x : α} (hx : p x = true) (xs : List α) :
    ((xs ++ [x]).filter p).getLast? = some x := by
  rw [List.filter_append, List.filter_cons_of_pos hx, List.filter_nil, List.getLast?_concat]

/-- The name of a file in a directory. -/
theorem fileName_joinPath {path name : String} (dir : String) (h : fileName path = some name) :
    fileName (joinPath dir name) = some name := by
  unfold fileName at h
  cases hlast : (pathParts path.toList).getLast? with
  | none =>
    rw [hlast] at h
    cases h
  | some part =>
    rw [hlast] at h
    dsimp only at h
    by_cases hdots : part = ['.', '.']
    · rw [if_pos hdots] at h
      cases h
    rw [if_neg hdots] at h
    cases h
    obtain ⟨hmem, hkeep⟩ := List.mem_filter.mp (List.mem_of_getLast? hlast)
    have hsep := not_mem_of_mem_splitOn '/' _ part hmem
    -- whatever the directory, the name is the last part
    have hparts (ps : List (List Char)) :
        ((ps ++ [part]).filter isPart).getLast? = some part := getLast?_filter_concat hkeep ps
    have hname (ps : List (List Char)) {p : String} (hp : p.toList.splitOn '/' = ps ++ [part]) :
        fileName p = some (String.ofList part) := by
      unfold fileName pathParts
      rw [hp, hparts]
      exact if_neg hdots
    unfold joinPath
    by_cases hdir : dir.toList = [] ∨ dir.toList.getLast? = some '/'
    · rw [if_pos hdir]
      rcases hdir with hdir | hdir
      · refine hname [] ?_
        rw [String.toList_append, hdir, List.nil_append, String.toList_ofList,
          List.splitOn_eq_singleton hsep, List.nil_append]
      · obtain ⟨ds, hds⟩ := List.getLast?_eq_some_iff.mp hdir
        refine hname (ds.splitOn '/') ?_
        rw [String.toList_append, hds, String.toList_ofList, List.append_assoc, List.singleton_append,
          List.splitOn_append_cons_self, List.splitOn_eq_singleton hsep]
    · rw [if_neg hdir]
      refine hname (dir.toList.splitOn '/') ?_
      have hslash : "/".toList = ['/'] := rfl
      rw [String.toList_append, String.toList_append, hslash, String.toList_ofList,
        List.append_assoc, List.singleton_append, List.splitOn_append_cons_self,
        List.splitOn_eq_singleton hsep]

/-- A path written plainly: one separator between its components, none at its end. -/
def plainPath (path : String) : String :=
  String.ofList ((if path.toList.head? = some '/' then ['/'] else []) ++
    ['/'].intercalate (pathParts path.toList))

theorem pathParts_plainPath (path : String) :
    pathParts (plainPath path).toList = pathParts path.toList := by
  have hparts : ∀ part ∈ pathParts path.toList, '/' ∉ part ∧ isPart part = true := by
    intro part hp
    obtain ⟨hmem, hkeep⟩ := List.mem_filter.mp hp
    exact ⟨not_mem_of_mem_splitOn '/' _ part hmem, hkeep⟩
  have hsplit : ((['/'].intercalate (pathParts path.toList)).splitOn '/').filter isPart =
      pathParts path.toList := by
    by_cases hnil : pathParts path.toList = []
    · rw [hnil]
      rfl
    · rw [List.splitOn_intercalate _ (fun part hp => (hparts part hp).1) hnil,
        List.filter_eq_self.mpr fun part hp => (hparts part hp).2]
  unfold plainPath
  rw [String.toList_ofList]
  by_cases hroot : path.toList.head? = some '/'
  · rw [if_pos hroot]
    refine Eq.trans ?_ hsplit
    unfold pathParts
    rw [List.singleton_append, List.splitOn_cons_eq_if_modifyHead, if_pos (beq_self_eq_true '/')]
    rfl
  · rw [if_neg hroot]
    exact hsplit

/-- The name of a file does not depend on how its path is spelled. -/
theorem fileName_plainPath (path : String) : fileName (plainPath path) = fileName path := by
  unfold fileName
  rw [pathParts_plainPath]

end Ssimulacra2
