import Surd.Equation.Monomial
import Surd.Gaussian

/-!
# Rows of linear systems

A linear equation in up to three variables becomes a row of an augmented matrix: the coefficients of
the variables in order, and the constant on the right side.
-/

namespace Surd.Equation

/-- The names of the variables and their places. -/
def systemVariables : List (String × Nat) :=
  [("x1", 0), ("x", 0), ("x2", 1), ("y", 1), ("x3", 2), ("z", 2)]

/-- A term of a linear equation: the place of its variable, none for a constant, and its value. -/
structure LinearTerm where
  place : Option Nat
  value : Rat
deriving DecidableEq, Repr

/-- The variable that is all the rest of a term but a line end. -/
def variableOf (s : List Char) : Option (String × Nat) :=
  systemVariables.find? fun v => s == v.1.toList || s == v.1.toList ++ ['\n']

def linearTerm (cfg : Settings) (size : Nat) (term : List Char) : Except Failure LinearTerm := do
  let (negative, body) ← body term
  let (digits, rest) := takeCoefficient body
  let failure : Failure := .unreadableTerm (String.ofList term) (quote term)
  match isEnd rest, variableOf rest with
  | true, _ =>
    if digits.isEmpty then throw failure
    else
      let q ← coefficient cfg digits term
      pure ⟨none, applySign negative q⟩
  | false, none => throw failure
  | false, some (name, place) =>
    let q ← coefficient cfg digits term
    if size ≤ place then throw (.variableNotAllowed name (String.ofList term) size)
    else pure ⟨some place, applySign negative q⟩

/-- The sum of the terms with a variable, or of the constants. -/
def sumOf (ts : List LinearTerm) (place : Option Nat) : Rat :=
  ts.foldl (fun total t => if t.place = place then total + t.value else total) 0

def systemRow (cfg : Settings) (s : List Char) (size : Nat) : Except Failure (List Gaussian) := do
  let ts ← terms cfg s
  let ls ← ts.mapM (linearTerm cfg size)
  let row := (List.range size).map fun i => sumOf ls (some i)
  pure ((row ++ [-sumOf ls none]).map .ofRat)

end Surd.Equation
