/-
  File:      Ssimulacra2/Lib/Ledger.lean
  Subject:   The resources of a program: what it makes, holds, hands on, releases and loses.

  A `Book` says which events make and release a resource, which resources a state holds and which
  events lose one. Resources are numbered in the order they are made. A run is `Balanced` when what
  it made, what the state held and what was handed in is what it released, what the state holds,
  what was handed out and what was lost; and something was lost exactly when an event lost it.

  The `accounts_*` rules follow the structures of `Lib/Fallible`. An error answer owns nothing, so
  whatever a program held on to when it failed is lost, unless a clean-up released it.
-/
import Ssimulacra2.Lib.Fallible

namespace Fallible

open Prog

/-! ## 1. Books -/

/-- What counts as a resource. -/
structure Book (σ ω ρ : Type) where
  made : ω → Option ρ
  freed : ω → Option ρ
  held : σ → Multiset ρ
  /-- The number of the next resource. -/
  next : σ → Nat
  number : ρ → Nat
  leaky : ω → Prop

/-- Numbers given out in order, from `lo` on and below `hi`. -/
structure Issued (lo hi : Nat) (ns : List Nat) : Prop where
  le : lo ≤ hi
  sorted : ns.Pairwise (· < ·)
  low : ∀ n ∈ ns, lo ≤ n
  high : ∀ n ∈ ns, n < hi

theorem Issued.none {lo hi : Nat} (h : lo ≤ hi) : Issued lo hi [] :=
  ⟨h, .nil, fun _ h => absurd h List.not_mem_nil, fun _ h => absurd h List.not_mem_nil⟩

theorem Issued.one {lo hi : Nat} (h : lo < hi) : Issued lo hi [lo] where
  le := le_of_lt h
  sorted := List.pairwise_singleton _ _
  low n hn := by rw [List.mem_singleton.mp hn]
  high n hn := by rwa [List.mem_singleton.mp hn]

theorem Issued.range (lo n : Nat) : Issued lo (lo + n) (List.range' lo n) where
  le := Nat.le_add_right lo n
  sorted := List.pairwise_lt_range'
  low m hm := (List.mem_range'_1.mp hm).1
  high m hm := (List.mem_range'_1.mp hm).2

theorem Issued.append {lo mid hi : Nat} {ns ms : List Nat} (h : Issued lo mid ns)
    (h' : Issued mid hi ms) : Issued lo hi (ns ++ ms) where
  le := le_trans h.le h'.le
  sorted := List.pairwise_append.mpr ⟨h.sorted, h'.sorted, fun a ha b hb =>
    lt_of_lt_of_le (h.high a ha) (h'.low b hb)⟩
  low n hn := by
    rcases List.mem_append.mp hn with hn | hn
    · exact h.low n hn
    · exact le_trans h.le (h'.low n hn)
  high n hn := by
    rcases List.mem_append.mp hn with hn | hn
    · exact lt_of_lt_of_le (h.high n hn) h'.le
    · exact h'.high n hn

variable {σ ε ω α β ρ κ : Type}

section Balance

variable (B : Book σ ω ρ)

/-- What a trace made, in order. -/
def Book.mades (t : List ω) : List ρ := t.filterMap B.made

/-- What a trace released, in order. -/
def Book.freeds (t : List ω) : List ρ := t.filterMap B.freed

/-- No event of the trace lost anything. -/
def Book.Tight (t : List ω) : Prop := ∀ w ∈ t, ¬B.leaky w

/-- **The sum of a run** that was handed `inn` and hands out `out`. -/
structure Book.Moves (s s' : σ) (t : List ω) (inn out lost : Multiset ρ) : Prop where
  sum : ↑(B.mades t) + B.held s + inn = ↑(B.freeds t) + B.held s' + out + lost
  issued : Issued (B.next s) (B.next s') ((B.mades t).map B.number)

/-- **The books balance**: what is missing in the end was lost by an event. -/
def Book.Balanced (s s' : σ) (t : List ω) (inn out : Multiset ρ) : Prop :=
  ∃ lost, (lost = 0 ↔ B.Tight t) ∧ B.Moves s s' t inn out lost

variable {B} {s s' s'' : σ} {t t' : List ω} {inn mid out lost lost' : Multiset ρ}

theorem Book.mades_append : B.mades (t ++ t') = B.mades t ++ B.mades t' := List.filterMap_append

theorem Book.freeds_append : B.freeds (t ++ t') = B.freeds t ++ B.freeds t' := List.filterMap_append

theorem Book.tight_append : B.Tight (t ++ t') ↔ B.Tight t ∧ B.Tight t' := by
  unfold Book.Tight
  simp only [List.mem_append, or_imp, forall_and]

theorem Book.tight_nil : B.Tight [] := fun _ h => absurd h List.not_mem_nil

theorem Book.Moves.trans (h : B.Moves s s' t inn mid lost) (h' : B.Moves s' s'' t' mid out lost') :
    B.Moves s s'' (t ++ t') inn out (lost + lost') where
  sum := by
    classical
    have e := h.sum
    have e' := h'.sum
    rw [Book.mades_append, Book.freeds_append, ← Multiset.coe_add, ← Multiset.coe_add]
    refine Multiset.ext' fun r => ?_
    have c := congrArg (Multiset.count r) e
    have c' := congrArg (Multiset.count r) e'
    simp only [Multiset.count_add] at c c' ⊢
    omega
  issued := by
    rw [Book.mades_append, List.map_append]
    exact h.issued.append h'.issued

/-- What is not touched stays with its owner. -/
theorem Book.Moves.frame (h : B.Moves s s' t inn out lost) (fr : Multiset ρ) :
    B.Moves s s' t (inn + fr) (out + fr) lost where
  sum := by
    have e := h.sum
    rw [← add_assoc, e]
    abel
  issued := h.issued

theorem Book.Balanced.trans (h : B.Balanced s s' t inn mid) (h' : B.Balanced s' s'' t' mid out) :
    B.Balanced s s'' (t ++ t') inn out := by
  obtain ⟨lost, hl, hm⟩ := h
  obtain ⟨lost', hl', hm'⟩ := h'
  refine ⟨lost + lost', ?_, hm.trans hm'⟩
  rw [add_eq_zero, hl, hl', Book.tight_append]

theorem Book.Balanced.frame (h : B.Balanced s s' t inn out) (fr : Multiset ρ) :
    B.Balanced s s' t (inn + fr) (out + fr) := by
  obtain ⟨lost, hl, hm⟩ := h
  exact ⟨lost, hl, hm.frame fr⟩

/-- A step that neither makes nor releases anything. -/
theorem Book.Balanced.still (hh : B.held s' = B.held s) (hn : B.next s ≤ B.next s')
    (hm : B.mades t = []) (hf : B.freeds t = []) (ht : B.Tight t) :
    B.Balanced s s' t inn inn := by
  refine ⟨0, ⟨fun _ => ht, fun _ => rfl⟩, ?_, ?_⟩
  · rw [hm, hf, hh, add_zero]
  · rw [hm]
    exact .none hn

end Balance

/-! ## 2. What a balanced run says -/

section Once

variable {B : Book σ ω ρ} {s s' : σ} {t : List ω} {inn out lost : Multiset ρ}

/-- Nothing is made twice. -/
theorem Book.Moves.nodup_mades (h : B.Moves s s' t inn out lost) : (B.mades t).Nodup :=
  .of_map _ (h.issued.sorted.imp ne_of_lt)

/-- What is handed out beyond what was handed in was made on the way. -/
theorem Book.Balanced.made (h : B.Balanced s s' t 0 out) (hh : B.held s' = B.held s) {r : ρ}
    (hr : r ∈ out) : r ∈ B.mades t ∧ B.next s ≤ B.number r ∧ B.number r < B.next s' := by
  obtain ⟨lost, -, hm⟩ := h
  have e : B.held s + ↑(B.mades t) = B.held s + (↑(B.freeds t) + out + lost) := by
    have e := hm.sum
    rw [hh, add_zero, add_comm _ (B.held s)] at e
    rw [e]
    abel
  have hmem : r ∈ B.mades t := by
    have hr' : r ∈ ↑(B.freeds t) + out + lost :=
      Multiset.mem_add.mpr (Or.inl (Multiset.mem_add.mpr (Or.inr hr)))
    rw [← Multiset.add_right_inj.mp e] at hr'
    exact hr'
  have hn : B.number r ∈ (B.mades t).map B.number := List.mem_map_of_mem hmem
  exact ⟨hmem, hm.issued.low _ hn, hm.issued.high _ hn⟩

/-- **Over a whole life nothing is released twice**, and nothing that was not made. -/
theorem Book.Balanced.never_twice (h : B.Balanced s s' t 0 out) (h0 : B.held s = 0) :
    (B.freeds t).Nodup ∧ ∀ r ∈ B.freeds t, r ∈ B.mades t := by
  obtain ⟨lost, -, hm⟩ := h
  have e := hm.sum
  have hle : (↑(B.freeds t) : Multiset ρ) ≤ ↑(B.mades t) := by
    rw [h0, add_zero, add_zero, add_assoc, add_assoc] at e
    rw [e]
    exact Multiset.le_add_right _ _
  obtain ⟨l, hperm, hsub⟩ : (B.freeds t).Subperm (B.mades t) := hle
  exact ⟨hperm.nodup_iff.mp (hm.nodup_mades.sublist hsub), fun r hr =>
    hsub.subset (hperm.mem_iff.mpr hr)⟩

/-- **What was made is released or still owned**, each exactly once, if and only if no event lost
    anything. -/
theorem Book.Balanced.exactly_once (h : B.Balanced s s' t 0 out) (h0 : B.held s = 0) :
    (↑(B.mades t) : Multiset ρ) = ↑(B.freeds t) + (B.held s' + out) ↔ B.Tight t := by
  obtain ⟨lost, hl, hm⟩ := h
  have e := hm.sum
  rw [h0, add_zero, add_zero, add_assoc (↑(B.freeds t) : Multiset ρ)] at e
  rw [← hl, e]
  constructor
  · exact fun h => left_eq_add.mp h.symm
  · intro h
    rw [h, add_zero]

/-- **Over a whole life everything is released**, if and only if no event lost anything. -/
theorem Book.Balanced.released_all (h : B.Balanced s s' t 0 0) (h0 : B.held s = 0)
    (h1 : B.held s' = 0) : (∀ r, r ∈ B.mades t ↔ r ∈ B.freeds t) ↔ B.Tight t := by
  have hd : (B.mades t).Nodup := h.elim fun _ hm => hm.2.nodup_mades
  rw [← h.exactly_once h0, h1, add_zero, add_zero, Multiset.coe_eq_coe]
  exact (List.perm_ext_iff_of_nodup hd (h.never_twice h0).1).symm

end Once

/-! ## 3. Rules -/

/-- **The run ends in `Q` and its books balance**: it was handed `inn`, its result owns `own`. -/
def Book.Accounts (B : Book σ ω ρ) (s : σ) (inn : Multiset ρ) (own : Except ε α → Multiset ρ)
    (Q : Except ε α → σ → List ω → Prop) (r : Except ε α) (s' : σ) (t : List ω) : Prop :=
  Q r s' t ∧ B.Balanced s s' t inn (own r)

/-- What an answer owns, when an error owns nothing. -/
def owes (own : α → Multiset ρ) : Except ε α → Multiset ρ
  | .ok a => own a
  | .error _ => 0

/-- A result that owns nothing. -/
def spent : Except ε α → Multiset ρ := fun _ => 0

section Rules

variable {B : Book σ ω ρ} {m : Prog σ ε ω α} {f : α → Prog σ ε ω β} {s : σ}
  {inn fr : Multiset ρ} {own : Except ε α → Multiset ρ} {own' : Except ε β → Multiset ρ}

/-- A sequence regrouped. -/
theorem bind_regroup {γ : Type} (m : Prog σ ε ω α) (f : α → Prog σ ε ω β) (g : β → Prog σ ε ω γ) :
    (m >>= f) >>= g = m >>= fun a => f a >>= g := by
  funext s
  cases hm : (m s).result with
  | error e =>
    have h : ((m >>= f) s).result = .error e := by rw [bind_error f hm]
    rw [bind_error g h, bind_error f hm, bind_error (fun a => f a >>= g) hm]
  | ok a =>
    rw [bind_ok (fun a => f a >>= g) hm]
    cases hf : (f a (m s).state).result with
    | error e =>
      have h : ((m >>= f) s).result = .error e := by rw [bind_ok f hm, hf]
      rw [bind_error g h, bind_error g hf, bind_ok f hm]
    | ok b =>
      have h : ((m >>= f) s).result = .ok b := by rw [bind_ok f hm, hf]
      rw [bind_ok g h, bind_ok g hf, bind_ok f hm, List.append_assoc]

theorem accounts_mono {Q R : Except ε α → σ → List ω → Prop}
    (h : Post m s (B.Accounts s inn own Q)) (hQ : ∀ r s' t, Q r s' t → R r s' t) :
    Post m s (B.Accounts s inn own R) := post_mono h fun r s' t h => ⟨hQ r s' t h.1, h.2⟩

/-- What a program does not touch stays with its owner. -/
theorem accounts_frame {Q : Except ε α → σ → List ω → Prop} (h : Post m s (B.Accounts s inn own Q))
    (fr : Multiset ρ) : Post m s (B.Accounts s (inn + fr) (fun r => own r + fr) Q) :=
  post_mono h fun _ _ _ h => ⟨h.1, h.2.frame fr⟩

/-- **Sequencing**: what an error owns is the same on both ways out. -/
theorem accounts_bind {Q : Except ε β → σ → List ω → Prop} {M : Except ε α → σ → List ω → Prop}
    (h : Post m s (B.Accounts s inn own M))
    (hok : ∀ a s' t, M (.ok a) s' t →
      Post (f a) s' (B.Accounts s' (own (.ok a)) own' fun r s'' t' => Q r s'' (t ++ t')))
    (herr : ∀ e s' t, M (.error e) s' t → Q (.error e) s' t)
    (hown : ∀ e s' t, M (.error e) s' t → own (.error e) = own' (.error e)) :
    Post (m >>= f) s (B.Accounts s inn own' Q) :=
  post_bind h (fun a s' t ha => post_mono (hok a s' t ha.1) fun _ _ _ hr =>
    ⟨hr.1, ha.2.trans hr.2⟩) fun e s' t he => ⟨herr e s' t he.1, hown e s' t he.1 ▸ he.2⟩

/-- A step that cannot fail. -/
theorem accounts_surely {a : α} {M : σ → Prop} {Q : Except ε β → σ → List ω → Prop}
    (h : Post m s (B.Accounts s inn own fun r s' _ => r = .ok a ∧ M s'))
    (hok : ∀ s' t, M s' →
      Post (f a) s' (B.Accounts s' (own (.ok a)) own' fun r s'' t' => Q r s'' (t ++ t'))) :
    Post (m >>= f) s (B.Accounts s inn own' Q) := by
  refine accounts_bind h (fun b s' t hb => ?_) (fun e s' t he => ?_) fun e s' t he => ?_
  · cases hb.1
    exact hok s' t hb.2
  · cases he.1
  · cases he.1

theorem accounts_pure {a : α} {Q : Except ε α → σ → List ω → Prop} (h : Q (.ok a) s [])
    (ho : inn = own (.ok a)) : Post (pure a : Prog σ ε ω α) s (B.Accounts s inn own Q) :=
  post_pure ⟨h, ho ▸ .still rfl le_rfl rfl rfl Book.tight_nil⟩

theorem accounts_fail {e : ε} {Q : Except ε α → σ → List ω → Prop} (h : Q (.error e) s [])
    (ho : inn = own (.error e)) : Post (fail e : Prog σ ε ω α) s (B.Accounts s inn own Q) :=
  post_fail ⟨h, ho ▸ .still rfl le_rfl rfl rfl Book.tight_nil⟩

/-- The result of an observed program is the observer's. -/
theorem accounts_observe {Q : Except ε α → σ → List ω → Prop}
    (h : Post m s (B.Accounts s inn own Q)) :
    Post (observe m) s (B.Accounts s inn (owes own) fun r s' t => ∃ x, r = .ok x ∧ Q x s' t) :=
  post_observe (post_mono h fun r _ _ hr => ⟨⟨r, rfl, hr.1⟩, hr.2⟩)

/-- **A clean-up on every path** takes `fr`, which the program leaves alone. -/
theorem accounts_ensure (fin : Prog σ ε ω Unit) {Q M : Except ε α → σ → List ω → Prop}
    (h : Post m s (B.Accounts s inn own M))
    (hfin : ∀ r s' t, M r s' t → Post fin s' (B.Accounts s' fr spent
      fun _ s'' t' => Q r s'' (t ++ t'))) :
    Post (ensure fin m) s (B.Accounts s (fr + inn) own Q) := by
  refine post_ensure h fun r s' t hr => post_mono (hfin r s' t hr.1) fun r' s'' t' hr' => ?_
  have h1 := hr.2.frame fr
  have h2 := hr'.2.frame (own r)
  rw [spent, zero_add] at h2
  rw [add_comm fr]
  rw [add_comm (own r)] at h1
  exact ⟨hr'.1, h1.trans h2⟩

/-- **A clean-up on the error path** takes `fr`; an answer keeps it. -/
theorem accounts_onError {undo : Prog σ ε ω Unit} {Q M : Except ε α → σ → List ω → Prop}
    {own₁ : Except ε α → Multiset ρ} (h : Post m s (B.Accounts s inn own M))
    (hok : ∀ a s' t, M (.ok a) s' t → Q (.ok a) s' t ∧ fr + own (.ok a) = own₁ (.ok a))
    (herr : ∀ e s' t, M (.error e) s' t → Post undo s' (B.Accounts s' fr spent
      fun _ s'' t' => Q (.error e) s'' (t ++ t')))
    (hown : ∀ e, own (.error e) = own₁ (.error e)) :
    Post (onError undo m) s (B.Accounts s (fr + inn) own₁ Q) := by
  refine post_onError h (fun a s' t ha => ?_) fun e s' t he => ?_
  · obtain ⟨hQ, ho⟩ := hok a s' t ha.1
    have h1 := ha.2.frame fr
    rw [add_comm inn, add_comm (own _), ho] at h1
    exact ⟨hQ, h1⟩
  · refine post_mono (herr e s' t he.1) fun r' s'' t' hr' => ⟨hr'.1, ?_⟩
    have h1 := he.2.frame fr
    have h2 := hr'.2.frame (own (.error e))
    rw [spent, zero_add] at h2
    rw [add_comm fr, ← hown e]
    rw [add_comm (own _)] at h1
    exact h1.trans h2

/-- **Over a list** whose elements are handed in. -/
theorem accounts_each {f : α → Prog σ ε ω Unit} {P : σ → Prop} {res : α → Multiset ρ}
    (hf : ∀ a s, P s → Post (f a) s (B.Accounts s (res a) spent fun r s' _ => r = .ok () ∧ P s')) :
    ∀ (as : List α) (s : σ), P s → Post (each f as) s
      (B.Accounts s (as.map res).sum spent fun r s' _ => r = .ok () ∧ P s') := by
  intro as
  induction as with
  | nil => exact fun s hs => post_run rfl ⟨⟨rfl, hs⟩, .still rfl le_rfl rfl rfl Book.tight_nil⟩
  | cons a as ih =>
    intro s hs
    refine post_bind (m := f a) (f := fun _ => each f as) (hf a s hs) (fun _ s' t ha => ?_)
      fun e s' t he => by cases he.1.1
    refine post_mono (ih s' ha.1.2) fun r _ _ hr => ⟨hr.1, ?_⟩
    have h1 := ha.2.frame (as.map res).sum
    rw [spent, zero_add] at h1
    rw [List.map_cons, List.sum_cons]
    exact h1.trans hr.2

end Rules

/-! ## 4. Owned lists -/

/-- The book of a program beside a list of values it owns. -/
def Book.beside (B : Book σ ω ρ) (res : κ → Multiset ρ) : Book (σ × List κ) ω ρ where
  made := B.made
  freed := B.freed
  held p := B.held p.1 + (p.2.map res).sum
  next p := B.next p.1
  number := B.number
  leaky := B.leaky

section Owners

variable {B : Book σ ω ρ} {res : κ → Multiset ρ} {s s' : σ} {owned owned' : List κ} {t : List ω}
  {inn out : Multiset ρ}

/-- **Values move between the list and the program**: one run in both books. -/
theorem Book.balanced_beside {d d' : Multiset ρ}
    (he : ((owned.map res).sum + d) + out = ((owned'.map res).sum + d') + inn) :
    (B.beside res).Balanced (s, owned) (s', owned') t d d' ↔ B.Balanced s s' t inn out := by
  classical
  have hsum (lost : Multiset ρ) :
      ↑(B.mades t) + (B.held s + (owned.map res).sum) + d =
        ↑(B.freeds t) + (B.held s' + (owned'.map res).sum) + d' + lost ↔
      ↑(B.mades t) + B.held s + inn = ↑(B.freeds t) + B.held s' + out + lost := by
    constructor
    all_goals
      intro e
      refine Multiset.ext' fun r => ?_
      have c := congrArg (Multiset.count r) e
      have c' := congrArg (Multiset.count r) he
      simp only [Multiset.count_add] at c c' ⊢
      omega
  constructor
  · rintro ⟨lost, hl, hm⟩
    exact ⟨lost, hl, (hsum lost).mp hm.sum, hm.issued⟩
  · rintro ⟨lost, hl, hm⟩
    exact ⟨lost, hl, (hsum lost).mpr hm.sum, hm.issued⟩

theorem accounts_lift {m : Prog σ ε ω α} {own : Except ε α → Multiset ρ}
    {Q : Except ε α → σ × List κ → List ω → Prop}
    (h : Post m s (B.Accounts s inn own fun r s' t => Q r (s', owned) t)) :
    Post (lift m : Owning κ σ ε ω α) (s, owned) ((B.beside res).Accounts (s, owned) inn own Q) :=
  post_lift (post_mono h fun r s' t hr => ⟨hr.1, (Book.balanced_beside (by abel)).mpr hr.2⟩)

theorem accounts_keep {m : Prog σ ε ω κ} {Q : Except ε κ → σ × List κ → List ω → Prop}
    {M : Except ε κ → σ → List ω → Prop} (h : Post m s (B.Accounts s inn (owes res) M))
    (hok : ∀ b s' t, M (.ok b) s' t → Q (.ok b) (s', owned ++ [b]) t)
    (herr : ∀ e s' t, M (.error e) s' t → Q (.error e) (s', owned) t) :
    Post (keep m) (s, owned) ((B.beside res).Accounts (s, owned) inn spent Q) := by
  refine post_keep h (fun b s' t hb => ⟨hok b s' t hb.1, (Book.balanced_beside ?_).mpr hb.2⟩)
    fun e s' t he => ⟨herr e s' t he.1, (Book.balanced_beside ?_).mpr he.2⟩
  · rw [List.map_append, List.sum_append, List.map_singleton, List.sum_singleton, owes, spent]
    abel
  · rw [owes, spent]
    abel

/-- The release of the list of a scope. -/
theorem accounts_dropAll {drop : κ → Prog σ ε ω Unit} {P : σ → Prop}
    (hdrop : ∀ b s, P s → Post (drop b) s (B.Accounts s (res b) spent fun r s' _ =>
      r = .ok () ∧ P s')) (owned : List κ) (s : σ) (hs : P s) :
    Post (dropAll drop owned) s (B.Accounts s (owned.map res).sum spent fun r s' _ =>
      r = .ok () ∧ P s') := by
  have h := accounts_each hdrop owned.reverse s hs
  rwa [List.map_reverse, List.sum_reverse] at h

/-- **A scope loses nothing** of what its body owns. -/
theorem accounts_withOwner {drop : κ → Prog σ ε ω Unit} {body : Owning κ σ ε ω α}
    {own : Except ε α → Multiset ρ} {P : σ → Prop}
    (hdrop : ∀ b s, P s → Post (drop b) s (B.Accounts s (res b) spent fun r s' _ =>
      r = .ok () ∧ P s'))
    (h : Post body (s, []) ((B.beside res).Accounts (s, []) inn own fun _ p _ => P p.1)) :
    Post (withOwner drop body) s (B.Accounts s inn own fun _ s' _ => P s') := by
  refine post_withOwner h fun r s' owned t hr => ?_
  refine post_mono (accounts_dropAll hdrop owned s' hr.1) fun r' s'' t' hr' => ⟨hr'.1.2, ?_⟩
  have h1 : B.Balanced s s' t inn ((owned.map res).sum + own r) :=
    (Book.balanced_beside (by rw [List.map_nil, List.sum_nil]; abel)).mp hr.2
  have h2 := hr'.2.frame (own r)
  rw [spent, zero_add] at h2
  exact h1.trans h2

/-- **A scope that hands over** what its body owns loses nothing either. -/
theorem accounts_handOver {drop : κ → Prog σ ε ω Unit} {body : Owning κ σ ε ω α} {P : σ → Prop}
    (hdrop : ∀ b s, P s → Post (drop b) s (B.Accounts s (res b) spent fun r s' _ =>
      r = .ok () ∧ P s'))
    (h : Post body (s, []) ((B.beside res).Accounts (s, []) inn spent fun _ p _ => P p.1)) :
    Post (handOver drop body) s
      (B.Accounts s inn (owes fun x => (x.1.map res).sum) fun _ s' _ => P s') := by
  refine post_handOver h (fun a s' owned t ha => ⟨ha.1, ?_⟩) fun e s' owned t he => ?_
  · exact (Book.balanced_beside (by rw [List.map_nil, List.sum_nil, owes, spent]; abel)).mp ha.2
  refine post_mono (accounts_dropAll hdrop owned s' he.1) fun r' s'' t' hr' => ⟨hr'.1.2, ?_⟩
  have h1 : B.Balanced s s' t inn (owned.map res).sum :=
    (Book.balanced_beside (by rw [List.map_nil, List.sum_nil, spent]; abel)).mp he.2
  exact h1.trans hr'.2

end Owners

end Fallible
