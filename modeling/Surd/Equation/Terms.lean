import Surd.Settings
import Surd.Text.Lowercase
import Surd.Text.Superscript

/-!
# Equations as lists of terms

An equation is two sums of terms with `=` between them. It is brought to one list of signed terms
whose sum is zero: those of the left side, and those of the right side with the other sign.
-/

namespace Surd.Equation

/-! ## Cleaning -/

/-- The text without the stars between a coefficient and its variable. -/
def dropStarsAfter (previous : Char) : List Char → List Char
  | [] => []
  | '*' :: v :: rest =>
    if (Text.isDigit previous || previous == '.') && (v == 'x' || v == 'y' || v == 'z') then
      v :: dropStarsAfter v rest
    else '*' :: dropStarsAfter '*' (v :: rest)
  | c :: rest => c :: dropStarsAfter c rest

/-- Lower case without blanks, with plain minus signs and exponents, and without implicit stars. -/
def clean (s : List Char) : List Char :=
  let plain := (Text.squeeze (Text.lower s)).map fun c => if c = '−' then '-' else c
  Text.lowerSuperscripts (dropStarsAfter ' ' plain)

/-! ## Splitting -/

def isSign (c : Char) : Bool := c == '+' || c == '-'

/-- Pieces of a side after a character, cut before every sign that is neither its first character
nor the sign of an exponent. -/
def piecesAfter (previous : Option Char) : List Char → List (List Char)
  | [] => [[]]
  | c :: rest =>
    match piecesAfter (some c) rest with
    | [] => [[c]]
    | p :: ps =>
      if isSign c && previous.isSome && previous != some '^' then [] :: (c :: p) :: ps
      else (c :: p) :: ps

/-- A piece with its sign written. -/
def signed : List Char → List Char
  | [] => ['+']
  | c :: rest => if isSign c then c :: rest else '+' :: c :: rest

def splitTerms (side : List Char) : List (List Char) := (piecesAfter none side).map signed

/-- The term with the other sign. -/
def flip : List Char → List Char
  | '+' :: rest => '-' :: rest
  | _ :: rest => '+' :: rest
  | [] => []

/-- The signed terms of the equation with all terms on the left. -/
def terms (cfg : Settings) (s : List Char) : Except Failure (List (List Char)) :=
  let quoted := String.ofList (Text.quoted s)
  if cfg.maxInputLength < s.length then throw (.inputTooLong cfg.maxInputLength)
  else
    let cleaned := clean s
    if cleaned.count '=' ≠ 1 then throw (.notOneEquals quoted)
    else
      let left := cleaned.takeWhile (· != '=')
      let right := (cleaned.dropWhile (· != '=')).drop 1
      if left = [] ∨ right = [] then throw (.emptySide quoted)
      else pure (splitTerms left ++ (splitTerms right).map flip)

end Surd.Equation
