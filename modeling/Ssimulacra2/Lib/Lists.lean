/-
  File:      Ssimulacra2/Lib/Lists.lean
  Subject:   Folds and maps over lists that may stop, and lists of lists.
-/
import Mathlib

namespace Lists

variable {α β σ : Type}

/-! ## 1. Folds and maps that may stop -/

/-- A fold whose rounds succeed and keep `P` succeeds and keeps `P`. -/
theorem foldlM_isSome {P : β → Prop} (f : β → α → Option β) (xs : List α)
    (hf : ∀ b, ∀ a ∈ xs, P b → ∃ b', f b a = some b' ∧ P b') (b : β) (hb : P b) :
    ∃ b', xs.foldlM f b = some b' ∧ P b' := by
  induction xs generalizing b with
  | nil => exact ⟨b, rfl, hb⟩
  | cons a xs ih =>
    obtain ⟨b', e, hb'⟩ := hf b a List.mem_cons_self hb
    obtain ⟨b'', e', hb''⟩ := ih (fun b a ha => hf b a (List.mem_cons_of_mem _ ha)) b' hb'
    exact ⟨b'', by rw [List.foldlM_cons, e, Option.bind_eq_bind, Option.bind_some, e'], hb''⟩

/-- A fold whose rounds leave the state alone. -/
theorem foldlM_still {f : σ → α → Option σ} {s : σ} (xs : List α)
    (h : ∀ a ∈ xs, f s a = some s) : xs.foldlM f s = some s := by
  induction xs with
  | nil => rfl
  | cons a xs ih =>
    rw [List.foldlM_cons, h a List.mem_cons_self, Option.bind_eq_bind, Option.bind_some]
    exact ih fun b hb => h b (List.mem_cons_of_mem _ hb)

/-- What the answers of a loop over a list are, one by one. -/
theorem mapM_forall₂ {g : α → Option β} {as : List α} {bs : List β}
    (hm : as.mapM g = some bs) : List.Forall₂ (fun a b => g a = some b) as bs := by
  induction as generalizing bs with
  | nil =>
    cases hm
    exact .nil
  | cons a as ih =>
    rw [List.mapM_cons] at hm
    obtain ⟨b, hb, hm⟩ := Option.bind_eq_some_iff.mp hm
    obtain ⟨bs', hbs, hm⟩ := Option.bind_eq_some_iff.mp hm
    cases hm
    exact .cons hb (ih hbs)

/-- A loop that stops, stops at an element. -/
theorem mapM_none {g : α → Option β} {as : List α} (hm : as.mapM g = none) :
    ∃ a ∈ as, g a = none := by
  by_contra hall
  push Not at hall
  induction as with
  | nil => cases hm
  | cons a as ih =>
    rw [List.mapM_cons] at hm
    obtain ⟨b, hb⟩ := Option.ne_none_iff_exists'.mp (hall a List.mem_cons_self)
    rw [hb] at hm
    cases hbs : as.mapM g with
    | none => exact ih hbs fun a' ha' => hall a' (List.mem_cons_of_mem _ ha')
    | some bs =>
      rw [hbs] at hm
      cases hm

/-! ## 2. Related lists -/

/-- Related lists are related at every place. -/
theorem forall₂_getElem? {R : α → β → Prop} {as : List α} {bs : List β}
    (h : List.Forall₂ R as bs) {i : Nat} {a : α} {b : β} (ha : as[i]? = some a)
    (hb : bs[i]? = some b) : R a b := by
  induction h generalizing i with
  | nil => cases ha
  | cons hr _ ih =>
    cases i with
    | zero =>
      cases ha
      cases hb
      exact hr
    | succ i => exact ih ha hb

/-! ## 3. Lists of lists -/

theorem foldlM_flatMap (f : α → List β) (g : σ → β → Option σ) (xs : List α) (s : σ) :
    (xs.flatMap f).foldlM g s = xs.foldlM (fun s a => (f a).foldlM g s) s := by
  induction xs generalizing s with
  | nil => rfl
  | cons a xs ih =>
    rw [List.flatMap_cons, List.foldlM_append, List.foldlM_cons]
    cases (f a).foldlM g s with
    | none => rfl
    | some s' => exact ih s'

theorem length_flatMap {m : Nat} {f : α → List β} (hf : ∀ a, (f a).length = m) (xs : List α) :
    (xs.flatMap f).length = m * xs.length := by
  induction xs with
  | nil => rfl
  | cons a xs ih =>
    rw [List.flatMap_cons, List.length_append, hf, ih, List.length_cons, Nat.mul_succ, Nat.add_comm]

/-- Entry `j` of block `i`. -/
theorem flatMap_getElem {m : Nat} {f : α → List β} (hf : ∀ a, (f a).length = m) :
    ∀ (xs : List α) (i : Nat) {j : Nat}, j < m →
      (xs.flatMap f)[m * i + j]? = xs[i]?.bind fun a => (f a)[j]? := by
  intro xs
  induction xs with
  | nil =>
    intro i j hj
    rfl
  | cons a xs ih =>
    intro i j hj
    rw [List.flatMap_cons]
    cases i with
    | zero =>
      rw [Nat.mul_zero, Nat.zero_add, List.getElem?_append_left (by rw [hf]; exact hj)]
      rfl
    | succ i =>
      have hle : (f a).length ≤ m * (i + 1) + j := by
        rw [hf, Nat.mul_succ]
        omega
      have hsub : m * (i + 1) + j - (f a).length = m * i + j := by
        rw [hf, Nat.mul_succ]
        omega
      rw [List.getElem?_append_right hle, hsub, ih i hj]
      rfl

/-- Numbers in rows. -/
theorem range_rows (rows len : Nat) :
    ((List.range rows).flatMap fun i => (List.range len).map fun j => i * len + j) =
      List.range (rows * len) := by
  induction rows with
  | zero => rw [Nat.zero_mul]; rfl
  | succ rows ih =>
    rw [List.range_succ, List.flatMap_append, ih, List.flatMap_singleton, Nat.succ_mul,
      List.range_add]

/-! ## 4. Tables -/

/-- In a table without a key twice, an entry is found under its key. -/
theorem find?_key {α κ : Type} [DecidableEq κ] (key : α → κ) {l : List α} {e : α}
    (h : l.Pairwise fun a b => key a ≠ key b) (he : e ∈ l) :
    l.find? (fun a => decide (key a = key e)) = some e := by
  induction l with
  | nil => exact absurd he List.not_mem_nil
  | cons a l ih =>
    obtain ⟨ha, hl⟩ := List.pairwise_cons.mp h
    rcases List.mem_cons.mp he with rfl | he
    · exact List.find?_cons_of_pos (decide_eq_true rfl)
    · have hne : ¬decide (key a = key e) = true := by
        rw [decide_eq_true_eq]
        exact ha e he
      rw [← ih hl he]
      exact List.find?_cons_of_neg hne

end Lists
