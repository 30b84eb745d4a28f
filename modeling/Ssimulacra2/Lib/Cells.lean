/-
  File:      Ssimulacra2/Lib/Cells.lean
  Subject:   Nested loops over the cells of a grid. Nothing here names a program.

  * `forCells` -- `for y < h { for x < w { body } }` over a state;
  * `forCells_view` -- a body that rewrites its own cell, whatever it reads there, leaves every cell
    rewritten once (`foldl_view` for a list of cells);
  * `forCells_pair` -- two loops fused into one;
  * `foldlM_forCells` -- the loop whose body may fail, when it never does;
  * `foldlM_range_getElem?` -- a loop over indices is a loop over elements.
-/
import Mathlib

namespace Cells

variable {σ τ ι β : Type*}

/-- `for y < h { for x < w { body y x } }`. -/
def forCells (h w : Nat) (body : Nat → Nat → σ → σ) (s : σ) : σ :=
  (List.range h).foldl (fun s y => (List.range w).foldl (fun s x => body y x s) s) s

/-- **A loop that rewrites its own cells**, those of `S`: over a list without repetition every cell
    of the list is rewritten once, from what it was before the loop, and the others are as they
    were. -/
theorem foldl_view (view : σ → ι → β) (body : ι → σ → σ) (g : ι → β → β) {S : ι → Prop}
    (hself : ∀ i, S i → ∀ s, view (body i s) i = g i (view s i))
    (hother : ∀ i j, S i → S j → j ≠ i → ∀ s, view (body i s) j = view s j) {l : List ι}
    (hl : l.Nodup) (hS : ∀ i ∈ l, S i) (s : σ) {j : ι} (hj : S j) :
    (j ∈ l → view (l.foldl (fun s i => body i s) s) j = g j (view s j)) ∧
    (j ∉ l → view (l.foldl (fun s i => body i s) s) j = view s j) := by
  induction l generalizing s with
  | nil => exact ⟨fun h => absurd h List.not_mem_nil, fun _ => rfl⟩
  | cons i l ih =>
    obtain ⟨hi, hl⟩ := List.nodup_cons.mp hl
    obtain ⟨hSi, hS⟩ := List.forall_mem_cons.mp hS
    obtain ⟨hin, hout⟩ := ih hl hS (body i s)
    rw [List.foldl_cons]
    refine ⟨fun hmem => ?_, fun hmem => ?_⟩
    · rcases List.mem_cons.mp hmem with rfl | hmem
      · rw [hout hi, hself _ hj]
      · rw [hin hmem, hother i j hSi hj fun e => hi (e ▸ hmem)]
    · rw [List.mem_cons, not_or] at hmem
      rw [hout hmem.2, hother i j hSi hj hmem.1]

/-- **A loop that never fails**, under an invariant of its state. -/
theorem foldlM_some {κ : Type*} {step : σ → κ → Option σ} {out : σ → κ → σ} {P : σ → Prop}
    (l : List κ) (hstep : ∀ k ∈ l, ∀ s, P s → step s k = some (out s k) ∧ P (out s k)) (s : σ)
    (hs : P s) : l.foldlM step s = some (l.foldl out s) := by
  induction l generalizing s with
  | nil => rfl
  | cons k l ih =>
    obtain ⟨e, hP⟩ := hstep k List.mem_cons_self s hs
    rw [List.foldlM_cons, e, List.foldl_cons]
    exact ih (fun k' hk' => hstep k' (List.mem_cons_of_mem _ hk')) _ hP

/-- The cells of the grid, row by row. -/
theorem forCells_product (h w : Nat) (body : Nat → Nat → σ → σ) (s : σ) :
    forCells h w body s =
      (List.product (List.range h) (List.range w)).foldl (fun s p => body p.1 p.2 s) s := by
  unfold forCells List.product
  rw [List.foldl_flatMap]
  simp only [List.foldl_map]

/-- **A nest of loops that rewrites its own cells.** -/
theorem forCells_view (view : σ → Nat → Nat → β) (body : Nat → Nat → σ → σ)
    (g : Nat → Nat → β → β) (hself : ∀ y x s, view (body y x s) y x = g y x (view s y x))
    {h w : Nat} (hother : ∀ y x y' x' s, y < h ∧ x < w → y' < h ∧ x' < w →
      ¬(y' = y ∧ x' = x) → view (body y x s) y' x' = view s y' x')
    (s : σ) {y x : Nat} (hy : y < h) (hx : x < w) :
    view (forCells h w body s) y x = g y x (view s y x) := by
  have hnodup : (List.product (List.range h) (List.range w)).Nodup :=
    List.nodup_range.product List.nodup_range
  have hmem (p : Nat × Nat) : p ∈ List.product (List.range h) (List.range w) ↔ p.1 < h ∧ p.2 < w :=
    List.mem_product.trans (and_congr List.mem_range List.mem_range)
  rw [forCells_product]
  exact (foldl_view (fun s (p : Nat × Nat) => view s p.1 p.2) (fun p s => body p.1 p.2 s)
    (fun p => g p.1 p.2) (S := fun p => p.1 < h ∧ p.2 < w) (fun p _ s => hself p.1 p.2 s)
    (fun p q hp hq hne s => hother p.1 p.2 q.1 q.2 s hp hq fun e => hne (Prod.ext e.1 e.2)) hnodup
    (fun p hp => (hmem p).mp hp) s (j := (y, x)) ⟨hy, hx⟩).1 ((hmem (y, x)).mpr ⟨hy, hx⟩)

/-- **What a loop keeps**, it keeps to the end. -/
theorem forCells_keeps {P : σ → Prop} {body : Nat → Nat → σ → σ}
    (hbody : ∀ y x s, P s → P (body y x s)) (h w : Nat) {s : σ} (hs : P s) :
    P (forCells h w body s) := by
  rw [forCells_product]
  exact List.foldlRecOn _ _ hs fun s hs p _ => hbody p.1 p.2 s hs

/-- **Two loops in one.** -/
theorem forCells_pair (h w : Nat) (f : Nat → Nat → σ → σ) (g : Nat → Nat → τ → τ) (s : σ) (t : τ) :
    forCells h w (fun y x p => (f y x p.1, g y x p.2)) (s, t) =
      (forCells h w f s, forCells h w g t) := by
  rw [forCells_product, forCells_product, forCells_product]
  generalize List.product (List.range h) (List.range w) = l
  induction l generalizing s t with
  | nil => rfl
  | cons p l ih => exact ih _ _

/-- Bodies that agree on the grid. -/
theorem forCells_congr {f g : Nat → Nat → σ → σ} {h w : Nat}
    (hfg : ∀ y < h, ∀ x < w, ∀ s, f y x s = g y x s) (s : σ) :
    forCells h w f s = forCells h w g s := by
  rw [forCells_product, forCells_product]
  refine List.foldl_ext _ _ s fun s p hp => ?_
  obtain ⟨hy, hx⟩ := List.mem_product.mp hp
  exact hfg p.1 (List.mem_range.mp hy) p.2 (List.mem_range.mp hx) s

/-- **A nest of loops that never fails**, under an invariant of its state. -/
theorem foldlM_forCells {P : σ → Prop} {f : Nat → Nat → σ → Option σ} {g : Nat → Nat → σ → σ}
    {h w : Nat} (hf : ∀ y < h, ∀ x < w, ∀ s, P s → f y x s = some (g y x s) ∧ P (g y x s)) {s : σ}
    (hs : P s) :
    (List.range h).foldlM (fun s y => (List.range w).foldlM (fun s x => f y x s) s) s =
      some (forCells h w g s) := by
  have hrow (y : Nat) (hy : y ∈ List.range h) (x : Nat) (hx : x ∈ List.range w) (s : σ) (hs : P s) :=
    hf y (List.mem_range.mp hy) x (List.mem_range.mp hx) s hs
  refine foldlM_some (P := P) _ (fun y hy s hs => ⟨foldlM_some _ (hrow y hy) s hs, ?_⟩) s hs
  exact List.foldlRecOn _ _ hs fun s hs x hx => (hrow y hy x hx s hs).2

/-- **A loop over the indices of a list** is a loop over the list. -/
theorem foldlM_range_getElem? {κ : Type*} (f : σ → κ → Option σ) (l : List κ) (s : σ) :
    (List.range l.length).foldlM (fun s i => l[i]?.bind fun a => f s a) s = l.foldlM f s := by
  induction l generalizing s with
  | nil => rfl
  | cons a l ih =>
    rw [List.length_cons, List.range_succ_eq_map, List.foldlM_cons, List.foldlM_cons]
    refine congrArg _ (funext fun s' => ?_)
    rw [List.foldlM_map, ← ih s']
    rfl

end Cells
