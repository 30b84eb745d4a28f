/-
  File:      Ssimulacra2/Lib/Fill.lean
  Subject:   Operations that overwrite a set of cells of a vector with values fixed in advance.

  `Fills L val op D` says that on vectors of length `L` the operation `op` never fails, stores
  `val j` in every cell `j` of `D` and leaves the other cells alone. The value depends on the cell
  only, so such operations compose without any disjointness condition:

  * `Fills.comp`, `fills_foldlM`, `fills_loopBelow` -- one after the other, over a list, in a loop;
  * `Fills.table` -- an operation that fills every cell answers the table of `val`, whatever was in
    the vector before and in whatever order the cells were written.
-/
import Ssimulacra2.Lib.Loop

namespace Fill

open Loop

variable {α : Type}

/-- `op` stores `val j` in every cell `j` of `D` and touches nothing else. -/
def Fills (L : Nat) (val : Nat → α) (op : List α → Option (List α)) (D : Set Nat) : Prop :=
  ∀ xs : List α, xs.length = L → ∃ xs', op xs = some xs' ∧ xs'.length = L ∧
    (∀ j ∈ D, j < L → xs'[j]? = some (val j)) ∧ (∀ j, j ∉ D → xs'[j]? = xs[j]?)

variable {L : Nat} {val : Nat → α}

theorem fills_nothing : Fills L val some ∅ := by
  intro xs hxs
  exact ⟨xs, rfl, hxs, fun j hj => absurd hj (Set.notMem_empty j), fun _ _ => rfl⟩

/-- One store. -/
theorem fills_set {i : Nat} (hi : i < L) : Fills L val (fun xs => some (xs.set i (val i))) {i} := by
  intro xs hxs
  refine ⟨_, rfl, by rw [List.length_set, hxs], ?_, ?_⟩
  · intro j hj _
    rw [Set.mem_singleton_iff.mp hj, List.getElem?_set_self (by omega)]
  · intro j hj
    exact List.getElem?_set_ne (fun h => hj (Set.mem_singleton_iff.mpr h.symm))

/-- **Composition**: the cells of either. -/
theorem Fills.comp {f g : List α → Option (List α)} {D E : Set Nat} (hf : Fills L val f D)
    (hg : Fills L val g E) : Fills L val (fun xs => (f xs).bind g) (D ∪ E) := by
  intro xs hxs
  obtain ⟨ys, ef, hys, hD, hD'⟩ := hf xs hxs
  obtain ⟨zs, eg, hzs, hE, hE'⟩ := hg ys hys
  refine ⟨zs, by simp only [ef, Option.bind_some, eg], hzs, ?_, ?_⟩
  · intro j hj hjL
    by_cases hjE : j ∈ E
    · exact hE j hjE hjL
    · rcases hj with hjD | hjE'
      · rw [hE' j hjE]
        exact hD j hjD hjL
      · exact absurd hjE' hjE
  · intro j hj
    rw [Set.mem_union, not_or] at hj
    rw [hE' j hj.2]
    exact hD' j hj.1

theorem Fills.congr {f g : List α → Option (List α)} {D E : Set Nat} (hf : Fills L val f D)
    (hfg : ∀ xs, xs.length = L → g xs = f xs) (hD : ∀ j, j ∈ E ↔ j ∈ D) : Fills L val g E := by
  intro xs hxs
  obtain ⟨ys, e, hys, h1, h2⟩ := hf xs hxs
  exact ⟨ys, by rw [hfg xs hxs, e], hys, fun j hj => h1 j ((hD j).mp hj),
    fun j hj => h2 j (fun h => hj ((hD j).mpr h))⟩

/-- **Over a list**: the cells of any of the operations. -/
theorem fills_foldlM {ι : Type} (op : ι → List α → Option (List α)) (D : ι → Set Nat) :
    ∀ ts : List ι, (∀ t ∈ ts, Fills L val (op t) (D t)) →
      Fills L val (fun xs => ts.foldlM (fun xs t => op t xs) xs) {j | ∃ t ∈ ts, j ∈ D t} := by
  intro ts
  induction ts with
  | nil =>
    intro _
    refine fills_nothing.congr (fun _ _ => rfl) (fun j => ?_)
    simp
  | cons t ts ih =>
    intro h
    have ht := h t List.mem_cons_self
    have hts := ih fun t' ht' => h t' (List.mem_cons_of_mem t ht')
    refine (ht.comp hts).congr (fun xs _ => List.foldlM_cons) (fun j => ?_)
    simp

/-- **In a loop** with steps of one: the cells of any of the rounds. -/
theorem fills_loopBelow {u : Int} (b : Int → List α → Option (List α)) (D : Int → Set Nat)
    (n : Int) (h : ∀ i, n ≤ i → i < u → Fills L val (b i) (D i)) :
    Fills L val (fun xs => (loopBelow u 1 b n xs).map Prod.snd)
      {j | ∃ i, n ≤ i ∧ i < u ∧ j ∈ D i} := by
  induction n using loop_induction u (le_refl (1 : Int)) with
  | done n hn =>
    refine fills_nothing.congr (fun xs _ => ?_) (fun j => ?_)
    · rw [loopBelow_done xs hn, Option.map_some]
    · constructor
      · rintro ⟨i, h1, h2, _⟩
        omega
      · intro hj
        exact absurd hj (Set.notMem_empty j)
  | round n hn ih =>
    have h0 := h n le_rfl hn
    have hs := ih fun i hi => h i (by omega)
    refine (h0.comp hs).congr (fun xs _ => ?_) (fun j => ?_)
    · rw [loopBelow_step le_rfl xs hn, Option.map_bind]
      rfl
    · constructor
      · rintro ⟨i, h1, h2, hj⟩
        rcases eq_or_lt_of_le h1 with e | h1'
        · exact Or.inl (e ▸ hj)
        · exact Or.inr ⟨i, by omega, h2, hj⟩
      · rintro (hj | ⟨i, h1, h2, hj⟩)
        · exact ⟨n, le_rfl, hn, hj⟩
        · exact ⟨i, by omega, h2, hj⟩

/-- **Every cell filled**: the result is the table of the values. -/
theorem Fills.table {op : List α → Option (List α)} {D : Set Nat} (h : Fills L val op D)
    (hD : ∀ j < L, j ∈ D) (xs : List α) (hxs : xs.length = L) :
    op xs = some ((List.range L).map val) := by
  obtain ⟨ys, e, hys, h1, -⟩ := h xs hxs
  rw [e]
  refine congrArg some (List.ext_getElem? fun j => ?_)
  rcases Nat.lt_or_ge j L with hj | hj
  · rw [h1 j (hD j hj) hj, List.getElem?_map, List.getElem?_range hj, Option.map_some]
  · rw [List.getElem?_eq_none (by omega), List.getElem?_eq_none (by simpa using hj)]

end Fill
