import Surd.Polynomial.Iteration

/-!
# How an iteration ends

The loop keeps that its estimate is the one after as many steps as it counted, and that none of them settled
(`Running`). So it fails iff a step fails before one settles, `iterate_eq_none_iff`, and else it reports what it
did: `iterate_stops`.
-/

namespace Surd

section
variable {σ δ : Type} (step : σ → Option (σ × δ)) (settled : δ → Bool)

/-! ## Steps by number -/

/-- The estimate after `k` steps, whatever they change. -/
def after (s : σ) : Nat → Option σ
  | 0 => some s
  | k + 1 => (after s k).bind fun t => (step t).map Prod.fst

/-- There are `k` steps, and the next one fails. -/
def FailsAt (s : σ) (k : Nat) : Prop :=
  ∃ t, after step s k = some t ∧ step t = none

/-- There are `k` steps, and the next one changes little enough. -/
def SettlesAt (s : σ) (k : Nat) : Prop :=
  ∃ t u change, after step s k = some t ∧ step t = some (u, change) ∧ settled change = true

/-- One of the first `limit` steps fails, and none before it settles. -/
def Breaks (limit : Nat) (s : σ) : Prop :=
  ∃ k, k < limit ∧ FailsAt step s k ∧ ∀ j, j < k → ¬SettlesAt step settled s j

/-- What a run reports of at most `limit` steps from an estimate. -/
structure Stops (limit : Nat) (s : σ) (r : Run σ) : Prop where
  reached : after step s r.iterations = some r.estimate
  converged_iff : r.converged = true ↔ ∃ k, k < limit ∧ SettlesAt step settled s k
  first : r.converged = true →
    ∃ k, r.iterations = k + 1 ∧ SettlesAt step settled s k ∧ ∀ j, j < k → ¬SettlesAt step settled s j
  last : r.converged = false → r.iterations = limit

end

section
variable {σ δ : Type} {step : σ → Option (σ × δ)} {settled : δ → Bool} {s t u : σ} {change : δ} {done k n : Nat}

theorem after_succ (h : after step s k = some t) (hstep : step t = some (u, change)) :
    after step s (k + 1) = some u := by
  simp [after, h, hstep]

theorem not_failsAt_of_lt (h : after step s done = some t) (hlt : k < done) : ¬FailsAt step s k := by
  intro hfails
  obtain ⟨v, hv, hnone⟩ := hfails
  induction done generalizing t with
  | zero => exact absurd hlt (Nat.not_lt_zero k)
  | succ d ih =>
    obtain ⟨w, hw, hnext⟩ := Option.bind_eq_some_iff.mp h
    by_cases heq : k = d
    · subst heq
      rw [hv] at hw
      cases hw
      simp [hnone] at hnext
    · exact ih hw (by omega)

/-! ## The loop -/

variable (step settled) in
/-- The loop counted `done` steps from `s` to `t`, and goes on. -/
structure Running (s : σ) (done : Nat) (t : σ) : Prop where
  reached : after step s done = some t
  unsettled : ∀ k, k < done → ¬SettlesAt step settled s k

theorem running_start (s : σ) : Running step settled s 0 s where
  reached := rfl
  unsettled := fun k hk => absurd hk (Nat.not_lt_zero k)

section
variable (h : Running step settled s done t) (hstep : step t = some (u, change))
include h hstep

theorem Running.settlesAt_iff : SettlesAt step settled s done ↔ settled change = true := by
  constructor
  · intro hsettles
    obtain ⟨t', u', change', ht, hu, hsettled⟩ := hsettles
    rw [h.reached] at ht
    cases ht
    rw [hstep] at hu
    cases hu
    exact hsettled
  · intro hsettled
    exact ⟨t, u, change, h.reached, hstep, hsettled⟩

theorem Running.next (hsettled : settled change = false) : Running step settled s (done + 1) u where
  reached := after_succ h.reached hstep
  unsettled := by
    intro k hk
    by_cases heq : k = done
    · rw [heq, h.settlesAt_iff hstep, hsettled]
      exact Bool.false_ne_true
    · exact h.unsettled k (by omega)

end

theorem Running.iterate_none_iff (h : Running step settled s done t) :
    iterate step settled n done t = none ↔ Breaks step settled (done + n) s := by
  induction n generalizing done t with
  | zero =>
    simp only [iterate, Nat.add_zero, reduceCtorEq, false_iff]
    intro hex
    obtain ⟨k, hk, hfails, _⟩ := hex
    exact not_failsAt_of_lt h.reached hk hfails
  | succ n ih =>
    rw [iterate]
    cases hstep : step t with
    | none =>
      simp only [true_iff]
      exact ⟨done, by omega, ⟨t, h.reached, hstep⟩, h.unsettled⟩
    | some next =>
      obtain ⟨u, change⟩ := next
      dsimp only
      by_cases hsettled : settled change = true
      · -- a step that settles ends the loop before a later one can fail
        simp only [hsettled, ite_true, reduceCtorEq, false_iff]
        intro hex
        obtain ⟨k, _, hfails, hbefore⟩ := hex
        have hle : k < done + 1 := by
          apply Nat.lt_of_not_le
          intro hle
          exact hbefore done hle ((h.settlesAt_iff hstep).mpr hsettled)
        exact not_failsAt_of_lt (after_succ h.reached hstep) hle hfails
      · rw [Bool.not_eq_true] at hsettled
        simp only [hsettled, Bool.false_eq_true, ite_false]
        rw [ih (h.next hstep hsettled), Nat.add_right_comm, Nat.add_assoc]

theorem Running.stops (h : Running step settled s done t) {r : Run σ} (hr : iterate step settled n done t = some r) :
    Stops step settled (done + n) s r := by
  induction n generalizing done t with
  | zero =>
    cases hr
    constructor
    · exact h.reached
    · simp only [Bool.false_eq_true, false_iff]
      intro hex
      obtain ⟨k, hk, hsettles⟩ := hex
      exact h.unsettled k hk hsettles
    · intro hconverged
      exact absurd hconverged Bool.false_ne_true
    · exact fun _ => rfl
  | succ n ih =>
    rw [iterate] at hr
    cases hstep : step t with
    | none =>
      rw [hstep] at hr
      cases hr
    | some next =>
      obtain ⟨u, change⟩ := next
      rw [hstep] at hr
      dsimp only at hr
      by_cases hsettled : settled change = true
      · have hsettles := (h.settlesAt_iff hstep).mpr hsettled
        rw [if_pos hsettled] at hr
        cases hr
        constructor
        · exact after_succ h.reached hstep
        · exact iff_of_true rfl ⟨done, by omega, hsettles⟩
        · exact fun _ => ⟨done, rfl, hsettles, h.unsettled⟩
        · intro hconverged
          cases hconverged
      · rw [if_neg hsettled] at hr
        rw [Bool.not_eq_true] at hsettled
        have hstops := ih (h.next hstep hsettled) hr
        rwa [Nat.add_right_comm, Nat.add_assoc] at hstops

theorem iterate_eq_none_iff {limit : Nat} :
    iterate step settled limit 0 s = none ↔ Breaks step settled limit s := by
  have hstart : Running step settled s 0 s := running_start s
  have hrun := hstart.iterate_none_iff (n := limit)
  rwa [Nat.zero_add] at hrun

theorem iterate_stops {limit : Nat} {r : Run σ} (hr : iterate step settled limit 0 s = some r) :
    Stops step settled limit s r := by
  have hstops := (running_start s).stops hr
  rwa [Nat.zero_add] at hstops

/-- What steps keep, the estimate after any number of them has. -/
theorem after_induction {P : σ → Prop} (hstep : ∀ {t u change}, P t → step t = some (u, change) → P u) (hs : P s)
    (h : after step s k = some t) : P t := by
  induction k generalizing t with
  | zero =>
    cases h
    exact hs
  | succ k ih =>
    obtain ⟨v, hv, hnext⟩ := Option.bind_eq_some_iff.mp h
    obtain ⟨⟨u, change⟩, hu, rfl⟩ := Option.map_eq_some_iff.mp hnext
    exact hstep (ih hv) hu

end

end Surd
