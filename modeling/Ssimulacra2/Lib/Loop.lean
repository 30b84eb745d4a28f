/-
  File:      Ssimulacra2/Lib/Loop.lean
  Subject:   Counted loops whose body may fail, and the rules to reason about them.

  `while n < hi { body; n += step }` over a loop state `σ`, with a body that answers `none` where
  the program would leave its memory. Nothing here names a program:

  * `loopBelow` -- the loop, from a start index and a start state, answering the final index too
    (several loops may hand the same index on to each other);
  * `loopBelow_exit` -- the loop stops because its guard fails, never because it was cut short;
  * `loopBelow_inv` -- the invariant rule (`loopBelow_index` for the index alone);
    `loopBelow_map` -- the simulation rule, `loopBelow_rel` -- the lockstep rule;
  * `loopBelow_split` -- a loop up to `hi` is a loop up to `mid` followed by a loop up to `hi`;
  * `loopBelow_unroll` -- groups of `k` rounds followed by single rounds.
-/
import Mathlib

namespace Loop

variable {σ τ : Type*}

/-! ## 1. The loop -/

/-- The loop, cut off after `fuel` rounds. -/
def loopFuel (hi step : Int) (body : Int → σ → Option σ) : Nat → Int → σ → Option (Int × σ)
  | 0, n, s => some (n, s)
  | fuel + 1, n, s =>
      if n < hi then (body n s).bind fun s' => loopFuel hi step body fuel (n + step) s'
      else some (n, s)

/-- `while n < hi { body; n += step }`. A step of at least one needs `hi - n` rounds at most. -/
def loopBelow (hi step : Int) (body : Int → σ → Option σ) (n : Int) (s : σ) : Option (Int × σ) :=
  loopFuel hi step body (hi - n).toNat n s

theorem loopFuel_done {u d : Int} {b : Int → σ → Option σ} (fuel : Nat) {n : Int} (s : σ)
    (h : ¬ n < u) : loopFuel u d b fuel n s = some (n, s) := by
  cases fuel with
  | zero => rfl
  | succ fuel => simp only [loopFuel, if_neg h]

theorem loopBelow_done {u d : Int} {b : Int → σ → Option σ} {n : Int} (s : σ)
    (h : ¬ n < u) : loopBelow u d b n s = some (n, s) :=
  loopFuel_done _ s h

/-- More fuel than rounds changes nothing. -/
theorem loopFuel_eq {u d : Int} (hstep : 1 ≤ d) {b : Int → σ → Option σ} :
    ∀ (fuel : Nat) (n : Int) (s : σ), (u - n).toNat ≤ fuel →
      loopFuel u d b fuel n s = loopBelow u d b n s := by
  intro fuel
  induction fuel using Nat.strong_induction_on with
  | _ fuel ih =>
    intro n s hf
    by_cases hn : n < u
    · obtain ⟨k, hk⟩ : ∃ k, (u - n).toNat = k + 1 := ⟨(u - n).toNat - 1, by omega⟩
      obtain ⟨f, rfl⟩ : ∃ f, fuel = f + 1 := ⟨fuel - 1, by omega⟩
      unfold loopBelow
      rw [hk]
      simp only [loopFuel, if_pos hn]
      congr 1
      funext s'
      rw [ih f (by omega) _ _ (by omega)]
      rcases Nat.lt_or_ge k (f + 1) with hkf | hkf
      · rw [ih k hkf _ _ (by omega)]
      · omega
    · rw [loopFuel_done _ _ hn, loopBelow_done _ hn]

/-- One round of the loop. -/
theorem loopBelow_step {u d : Int} (hstep : 1 ≤ d) {b : Int → σ → Option σ} {n : Int}
    (s : σ) (h : n < u) :
    loopBelow u d b n s = (b n s).bind fun s' => loopBelow u d b (n + d) s' := by
  obtain ⟨k, hk⟩ : ∃ k, (u - n).toNat = k + 1 := ⟨(u - n).toNat - 1, by omega⟩
  rw [loopBelow, hk]
  simp only [loopFuel, if_pos h]
  congr 1
  funext s'
  exact loopFuel_eq hstep k _ _ (by omega)

/-- **Induction over the rounds of a loop**: the rounds left are `u - n`. -/
@[elab_as_elim]
theorem loop_induction (u : Int) {d : Int} (hstep : 1 ≤ d) {motive : Int → Prop} (n : Int)
    (done : ∀ n, ¬ n < u → motive n) (round : ∀ n, n < u → motive (n + d) → motive n) :
    motive n := by
  obtain ⟨k, hk⟩ : ∃ k : Nat, (u - n).toNat ≤ k := ⟨_, le_rfl⟩
  induction k generalizing n with
  | zero => exact done n (by omega)
  | succ k ih =>
    by_cases hn : n < u
    · exact round n hn (ih (n + d) (by omega))
    · exact done n hn

/-! ## 2. Rules -/

/-- **The invariant rule**: an invariant the body preserves without failing holds at the exit,
    where the guard is false. -/
theorem loopBelow_inv {u d : Int} (hstep : 1 ≤ d) {b : Int → σ → Option σ}
    {I : Int → σ → Prop}
    (hbody : ∀ n s, n < u → I n s → ∃ s', b n s = some s' ∧ I (n + d) s')
    (n : Int) (s : σ) (h : I n s) :
    ∃ n' s', loopBelow u d b n s = some (n', s') ∧ I n' s' ∧ ¬ n' < u := by
  induction n using loop_induction u hstep generalizing s with
  | done n hn => exact ⟨n, s, loopBelow_done s hn, h, hn⟩
  | round n hn ih =>
    obtain ⟨s', hs', hI⟩ := hbody n s hn h
    obtain ⟨n', s'', e, hI', hx⟩ := ih s' hI
    exact ⟨n', s'', by rw [loopBelow_step hstep s hn, hs', Option.bind_some, e], hI', hx⟩

/-- **The exit**: a loop that returns has moved on to an index where its guard is false. -/
theorem loopBelow_exit {u d : Int} (hstep : 1 ≤ d) {b : Int → σ → Option σ} (n : Int) :
    ∀ {s s' : σ} {n' : Int}, loopBelow u d b n s = some (n', s') → n ≤ n' ∧ u ≤ n' := by
  induction n using loop_induction u hstep with
  | done n hn =>
    intro s s' n' h
    rw [loopBelow_done s hn] at h
    have e : n = n' := congrArg Prod.fst (Option.some.inj h)
    omega
  | round n hn ih =>
    intro s s' n' h
    rw [loopBelow_step hstep s hn] at h
    obtain ⟨t, _, ht⟩ := Option.bind_eq_some_iff.mp h
    have := ih ht
    omega

/-- What every round keeps of the index holds at the exit. -/
theorem loopBelow_index {u d : Int} (hstep : 1 ≤ d) {b : Int → σ → Option σ} {I : Int → Prop}
    (hI : ∀ n, n < u → I n → I (n + d)) (n : Int) :
    ∀ {s s' : σ} {n' : Int}, loopBelow u d b n s = some (n', s') → I n → I n' := by
  induction n using loop_induction u hstep with
  | done n hn =>
    intro s s' n' h hn'
    rw [loopBelow_done s hn] at h
    have e : n = n' := congrArg Prod.fst (Option.some.inj h)
    exact e ▸ hn'
  | round n hn ih =>
    intro s s' n' h hn'
    rw [loopBelow_step hstep s hn] at h
    obtain ⟨t, _, ht⟩ := Option.bind_eq_some_iff.mp h
    exact ih ht (hI n hn hn')

/-- **The lockstep rule**: two loops whose rounds go through together and keep a relation go through
    together and keep it. -/
theorem loopBelow_rel {u d : Int} (hstep : 1 ≤ d) {b : Int → σ → Option σ}
    {c : Int → τ → Option τ} {R : Int → σ → τ → Prop}
    (hround : ∀ n s t, n < u → R n s t →
      ∃ s' t', b n s = some s' ∧ c n t = some t' ∧ R (n + d) s' t')
    (n : Int) (s : σ) (t : τ) (h : R n s t) :
    ∃ n' s' t', loopBelow u d b n s = some (n', s') ∧ loopBelow u d c n t = some (n', t') ∧
      R n' s' t' ∧ ¬ n' < u := by
  induction n using loop_induction u hstep generalizing s t with
  | done n hn => exact ⟨n, s, t, loopBelow_done s hn, loopBelow_done t hn, h, hn⟩
  | round n hn ih =>
    obtain ⟨s', t', hs, ht, hR⟩ := hround n s t hn h
    rw [loopBelow_step hstep s hn, loopBelow_step hstep t hn, hs, ht, Option.bind_some,
      Option.bind_some]
    exact ih s' t' hR

/-- **The simulation rule**: where one round of `c` from `f n s` is the image of one round of `b`
    from `s`, the loop over `c` is the image of the loop over `b`. -/
theorem loopBelow_map {u d : Int} (hstep : 1 ≤ d) {b : Int → σ → Option σ}
    {c : Int → τ → Option τ} {f : Int → σ → τ} {l : Int}
    (h : ∀ n s, l ≤ n → n < u → c n (f n s) = (b n s).map (f (n + d))) (n : Int) (hlo : l ≤ n)
    (s : σ) :
    loopBelow u d c n (f n s) = (loopBelow u d b n s).map fun p => (p.1, f p.1 p.2) := by
  induction n using loop_induction u hstep generalizing s with
  | done n hn => rw [loopBelow_done s hn, loopBelow_done (f n s) hn, Option.map_some]
  | round n hn ih =>
    rw [loopBelow_step hstep s hn, loopBelow_step hstep (f n s) hn, h n s hlo hn]
    cases b n s with
    | none => rfl
    | some s' => exact ih (by omega) s'

/-- Bodies that agree in the range of the loop. -/
theorem loopBelow_congr {u d : Int} (hstep : 1 ≤ d) {b c : Int → σ → Option σ} {l : Int}
    (h : ∀ n s, l ≤ n → n < u → c n s = b n s) (n : Int) (hlo : l ≤ n) (s : σ) :
    loopBelow u d c n s = loopBelow u d b n s := by
  induction n using loop_induction u hstep generalizing s with
  | done n hn => rw [loopBelow_done s hn, loopBelow_done s hn]
  | round n hn ih =>
    rw [loopBelow_step hstep s hn, loopBelow_step hstep s hn, h n s hlo hn]
    exact congrArg _ (funext fun s' => ih (by omega) s')

/-- **Splitting**: with steps of one, the loop up to `u` is the loop up to `m`, then on to
    `u`. -/
theorem loopBelow_split {u m : Int} (hm : m ≤ u) {b : Int → σ → Option σ} (n : Int) :
    ∀ s, loopBelow u 1 b n s =
      (loopBelow m 1 b n s).bind fun p => loopBelow u 1 b p.1 p.2 := by
  induction n using loop_induction m (le_refl (1 : Int)) with
  | done n hn =>
    intro s
    rw [loopBelow_done s hn, Option.bind_some]
  | round n hn ih =>
    intro s
    rw [loopBelow_step le_rfl s (by omega : n < u), loopBelow_step le_rfl s hn, Option.bind_assoc]
    congr 1
    funext s'
    exact ih s'

/-! ## 3. Unrolling -/

/-- `k` rounds in a row. -/
def rounds (b : Int → σ → Option σ) : Nat → Int → σ → Option σ
  | 0, _, s => some s
  | k + 1, n, s => (b n s).bind fun s' => rounds b k (n + 1) s'

/-- Rounds that stay below the bound are part of the loop. -/
theorem rounds_loopBelow {u : Int} {b : Int → σ → Option σ} (k : Nat) :
    ∀ (n : Int) (s : σ), n + k ≤ u →
      ((rounds b k n s).bind fun s' => loopBelow u 1 b (n + k) s') = loopBelow u 1 b n s := by
  induction k with
  | zero =>
    intro n s _
    rw [rounds, Option.bind_some, Nat.cast_zero, add_zero]
  | succ k ih =>
    intro n s h
    rw [rounds, Option.bind_assoc, loopBelow_step le_rfl s (by omega)]
    congr 1
    funext s'
    rw [← ih (n + 1) s' (by omega), show n + 1 + (k : Int) = n + (k + 1 : Nat) by omega]

/-- **Unrolling**: groups of `k` rounds, then single rounds, are single rounds throughout. -/
theorem loopBelow_unroll {u v : Int} {k : Nat} (hk : 1 ≤ k) (hv : u + k ≤ v + 1)
    {b : Int → σ → Option σ} (n : Int) :
    ∀ s, ((loopBelow u k (rounds b k) n s).bind fun p => loopBelow v 1 b p.1 p.2) =
      loopBelow v 1 b n s := by
  have hd : (1 : Int) ≤ k := by omega
  induction n using loop_induction u hd with
  | done n hn =>
    intro s
    rw [loopBelow_done s hn, Option.bind_some]
  | round n hn ih =>
    intro s
    rw [loopBelow_step hd s hn, Option.bind_assoc, ← rounds_loopBelow k n s (by omega)]
    congr 1
    funext s'
    exact ih s'

end Loop
