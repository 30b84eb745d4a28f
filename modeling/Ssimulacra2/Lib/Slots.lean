/-
  File:      Ssimulacra2/Lib/Slots.lean
  Subject:   Arrays of cells that are named by the order they were made in.

  A cell that was given up stays empty, so a name is never given out twice. `Alongside` relates two
  such arrays cell by cell: the handles a program keeps and the values its client sees under them.
-/
import Mathlib.Data.List.Basic
import Mathlib.Data.Option.Basic

namespace Slots

variable {α β : Type}

/-- The cell of a name; a name that was never given out, or whose cell was given up, has none. -/
def cellAt (cells : List (Option α)) (i : Nat) : Option α := cells[i]?.join

/-- The cells of some names. -/
def named (cells : List (Option α)) (names : List Nat) : List α := names.filterMap (cellAt cells)

theorem cellAt_append (cells : List (Option α)) (c : Option α) (i : Nat) :
    cellAt (cells ++ [c]) i = if i = cells.length then c else cellAt cells i := by
  unfold cellAt
  rcases Nat.lt_trichotomy i cells.length with h | h | h
  · rw [List.getElem?_append_left h, if_neg (Nat.ne_of_lt h)]
  · rw [h, List.getElem?_append_right (Nat.le_refl _), Nat.sub_self, if_pos rfl]
    rfl
  · rw [if_neg (Nat.ne_of_gt h), List.getElem?_eq_none (Nat.le_of_lt h), List.getElem?_eq_none]
    rw [List.length_append, List.length_singleton]
    exact h

theorem cellAt_lt {cells : List (Option α)} {i : Nat} {a : α} (h : cellAt cells i = some a) :
    i < cells.length := by
  by_contra hi
  unfold cellAt at h
  rw [List.getElem?_eq_none (Nat.not_lt.mp hi)] at h
  cases h

theorem cellAt_set {cells : List (Option α)} {i : Nat} (hi : i < cells.length) (c : Option α)
    (j : Nat) : cellAt (cells.set i c) j = if i = j then c else cellAt cells j := by
  unfold cellAt
  by_cases h : i = j
  · subst h
    rw [List.getElem?_set_self hi, if_pos rfl]
    rfl
  · rw [List.getElem?_set_ne h, if_neg h]

/-- What the cells hold, in order. -/
def filled (cells : List (Option α)) : List α := cells.filterMap id

theorem filled_append (cells : List (Option α)) (a : α) :
    filled (cells ++ [some a]) = filled cells ++ [a] := List.filterMap_append

theorem mem_filled {cells : List (Option α)} {i : Nat} {a : α} (h : cellAt cells i = some a) :
    a ∈ filled cells :=
  List.mem_filterMap.mpr ⟨some a, List.mem_of_getElem? (Option.join_eq_some_iff.mp h), rfl⟩

/-- A cell is given up. -/
theorem filled_set {cells : List (Option α)} {i : Nat} {a : α} (h : cellAt cells i = some a) :
    (filled cells).Perm (a :: filled (cells.set i none)) := by
  induction cells generalizing i with
  | nil => cases h
  | cons c cells ih =>
    cases i with
    | zero =>
      cases (show c = some a from h)
      exact .refl _
    | succ i =>
      have hp := ih (i := i) h
      cases c with
      | none => exact hp
      | some b => exact (hp.cons b).trans (.swap a b _)

/-- Two arrays of cells, related cell by cell. -/
structure Alongside (R : α → β → Prop) (cells : List (Option α)) (cells' : List (Option β)) :
    Prop where
  length : cells.length = cells'.length
  cell : ∀ i, Option.Rel R (cellAt cells i) (cellAt cells' i)

variable {R S : α → β → Prop} {cells : List (Option α)} {cells' : List (Option β)}

theorem Alongside.some_left (h : Alongside R cells cells') {i : Nat} {a : α}
    (ha : cellAt cells i = some a) : ∃ b, cellAt cells' i = some b ∧ R a b := by
  have hr := h.cell i
  rw [ha] at hr
  cases hc : cellAt cells' i with
  | none =>
    rw [hc] at hr
    cases hr
  | some b =>
    rw [hc] at hr
    cases hr with
    | some hr => exact ⟨b, rfl, hr⟩

theorem Alongside.some_right (h : Alongside R cells cells') {i : Nat} {b : β}
    (hb : cellAt cells' i = some b) : ∃ a, cellAt cells i = some a ∧ R a b := by
  have hr := h.cell i
  rw [hb] at hr
  cases hc : cellAt cells i with
  | none =>
    rw [hc] at hr
    cases hr
  | some a =>
    rw [hc] at hr
    cases hr with
    | some hr => exact ⟨a, rfl, hr⟩

theorem Alongside.none_left (h : Alongside R cells cells') {i : Nat} (ha : cellAt cells i = none) :
    cellAt cells' i = none := by
  cases hb : cellAt cells' i with
  | none => rfl
  | some b =>
    obtain ⟨a, ha', -⟩ := h.some_right hb
    rw [ha] at ha'
    cases ha'

theorem Alongside.imp (h : Alongside R cells cells')
    (hRS : ∀ i a b, cellAt cells i = some a → R a b → S a b) : Alongside S cells cells' := by
  refine ⟨h.length, fun i => ?_⟩
  cases ha : cellAt cells i with
  | none =>
    rw [h.none_left ha]
    exact .none
  | some a =>
    obtain ⟨b, hb, hab⟩ := h.some_left ha
    rw [hb]
    exact .some (hRS i a b ha hab)

theorem Alongside.append (h : Alongside R cells cells') {a : α} {b : β} (hab : R a b) :
    Alongside R (cells ++ [some a]) (cells' ++ [some b]) := by
  refine ⟨by rw [List.length_append, List.length_append, h.length]; rfl, fun i => ?_⟩
  rw [cellAt_append, cellAt_append, h.length]
  by_cases hi : i = cells'.length
  · rw [if_pos hi, if_pos hi]
    exact .some hab
  · rw [if_neg hi, if_neg hi]
    exact h.cell i

/-- One cell is given another value on either side. -/
theorem Alongside.set (h : Alongside R cells cells') {i : Nat} (hi : i < cells.length) {c : Option α}
    {c' : Option β} (hc : Option.Rel R c c') : Alongside R (cells.set i c) (cells'.set i c') := by
  refine ⟨by rw [List.length_set, List.length_set, h.length], fun j => ?_⟩
  rw [cellAt_set hi, cellAt_set (h.length ▸ hi)]
  by_cases hj : i = j
  · rw [if_pos hj, if_pos hj]
    exact hc
  · rw [if_neg hj, if_neg hj]
    exact h.cell j

theorem cellAt_get {cells : List (Option α)} {i : Nat} (h : i < cells.length) :
    cellAt cells i = cells[i] := by
  unfold cellAt
  rw [List.getElem?_eq_getElem h]
  rfl

/-- The values under the names, when each is a function of the handle. -/
theorem Alongside.map_eq {g : α → β} (h : Alongside R cells cells') (hR : ∀ a b, R a b → g a = b) :
    cells.map (Option.map g) = cells' := by
  refine List.ext_getElem (by rw [List.length_map, h.length]) fun i h1 h2 => ?_
  rw [List.length_map] at h1
  rw [List.getElem_map]
  cases ha : cells[i] with
  | none =>
    rw [← cellAt_get h1] at ha
    rw [← cellAt_get h2, h.none_left ha]
    rfl
  | some a =>
    rw [← cellAt_get h1] at ha
    obtain ⟨b, hb, hab⟩ := h.some_left ha
    rw [← cellAt_get h2, hb, Option.map_some, hR a b hab]

/-- Names whose cells are there are named one by one. -/
theorem named_cons {cells : List (Option α)} {i : Nat} {a : α} (h : cellAt cells i = some a)
    (names : List Nat) : named cells (i :: names) = a :: named cells names :=
  List.filterMap_cons_some h

theorem named_length {cells : List (Option α)} {names : List Nat}
    (h : ∀ i ∈ names, (cellAt cells i).isSome) : (named cells names).length = names.length := by
  induction names with
  | nil => rfl
  | cons i names ih =>
    obtain ⟨a, ha⟩ := Option.isSome_iff_exists.mp (h i List.mem_cons_self)
    rw [named_cons ha, List.length_cons, List.length_cons,
      ih fun j hj => h j (List.mem_cons_of_mem _ hj)]

theorem mem_named {cells : List (Option α)} {names : List Nat} {a : α} (h : a ∈ named cells names) :
    ∃ i ∈ names, cellAt cells i = some a := List.mem_filterMap.mp h

theorem named_map {γ : Type} {g : α → γ} {g' : β → γ} (h : Alongside R cells cells')
    (hR : ∀ a b, R a b → g a = g' b) (names : List Nat) :
    (named cells names).map g = (named cells' names).map g' := by
  induction names with
  | nil => rfl
  | cons i names ih =>
    cases ha : cellAt cells i with
    | some a =>
      obtain ⟨b, hb, hab⟩ := h.some_left ha
      rw [named_cons ha, named_cons hb, List.map_cons, List.map_cons, ih, hR a b hab]
    | none =>
      unfold named at ih ⊢
      rw [List.filterMap_cons_none ha, List.filterMap_cons_none (h.none_left ha), ih]

end Slots
