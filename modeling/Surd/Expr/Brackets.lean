/-!
# Brackets

Parentheses, brackets and braces have to be well nested. The first fault is a closing bracket that
does not match the innermost open one, or else the first opening bracket that is never closed.
-/

namespace Surd.Brackets

def closing? (c : Char) : Option Char :=
  if c = '(' then some ')' else if c = '[' then some ']' else if c = '{' then some '}' else none

def isClosing (c : Char) : Bool := c == ')' || c == ']' || c == '}'

/-- The first fault in a text that starts at a position, after open brackets of which each is given
by its closing one and its position, innermost first. -/
def faultAfter (opened : List (Char × Nat)) (position : Nat) : List Char → Option Nat
  | [] => opened.getLast?.map (·.2)
  | c :: rest =>
    match closing? c with
    | some d => faultAfter ((d, position) :: opened) (position + 1) rest
    | none =>
      if isClosing c then
        match opened with
        | [] => some position
        | (d, _) :: outer => if c = d then faultAfter outer (position + 1) rest else some position
      else faultAfter opened (position + 1) rest

/-- The position of the first fault, none in a well nested text. -/
def firstFault (s : List Char) : Option Nat := faultAfter [] 0 s

end Surd.Brackets
