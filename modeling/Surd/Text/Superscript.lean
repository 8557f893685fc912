/-!
# Superscripts

A run of superscript digits is an exponent: it stands for a caret and plain digits.
-/

namespace Surd.Text

def superscripts : List (Char × Char) :=
  [('⁰', '0'), ('¹', '1'), ('²', '2'), ('³', '3'), ('⁴', '4'), ('⁵', '5'), ('⁶', '6'), ('⁷', '7'),
   ('⁸', '8'), ('⁹', '9')]

/-- Superscripts after one another, and after other characters, in plain form. -/
def lowerSuperscriptsAfter (raised : Bool) : List Char → List Char
  | [] => []
  | c :: rest =>
    match superscripts.lookup c with
    | some d => if raised then d :: lowerSuperscriptsAfter true rest
                else '^' :: d :: lowerSuperscriptsAfter true rest
    | none => c :: lowerSuperscriptsAfter false rest

def lowerSuperscripts (s : List Char) : List Char := lowerSuperscriptsAfter false s

end Surd.Text
