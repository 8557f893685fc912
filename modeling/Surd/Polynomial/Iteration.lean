/-!
# Iterations

Repeated steps from a first estimate, until a step changes little enough or there have been as many
as allowed. A step may fail.
-/

namespace Surd

/-- How an iteration ended. -/
structure Run (σ : Type) where
  estimate : σ
  converged : Bool
  iterations : Nat
deriving Repr

/-- A step gives a new estimate and what it changed. -/
def iterate {σ δ : Type} (step : σ → Option (σ × δ)) (settled : δ → Bool)
    (remaining done : Nat) (s : σ) : Option (Run σ) :=
  match remaining with
  | 0 => some ⟨s, false, done⟩
  | n + 1 =>
    match step s with
    | none => none
    | some (t, change) =>
      if settled change then some ⟨t, true, done + 1⟩ else iterate step settled n (done + 1) t

end Surd
