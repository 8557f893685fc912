import Surd.Settings
import Surd.Text.Lowercase

/-!
# Styles

Results are written in plain ASCII, with typographic symbols, or as LaTeX.
-/

namespace Surd

inductive Style where
  | ascii | unicode | latex
deriving DecidableEq, Repr

namespace Style

def name : Style → String
  | .ascii => "ascii" | .unicode => "unicode" | .latex => "latex"

/-- The style of a name in any case. -/
def read (s : List Char) : Except Failure Style :=
  match [Style.ascii, .unicode, .latex].find? fun t => t.name.toList = Text.lower s with
  | some t => pure t
  | none => throw (.unknownStyle (String.ofList (Text.quoted s)))

/-- The minus sign between two parts. -/
def minus : Style → Char
  | .unicode => '−'
  | _ => '-'

/-- What stands between a radical and the imaginary unit. -/
def imaginaryJoin : Style → Char
  | .ascii => '*'
  | .unicode => '·'
  | .latex => ' '

def prompt : Style → String
  | .unicode => "➤ "
  | _ => ">>> "

end Style

/-- How results are written: a style, and the significant digits of decimal numbers. -/
structure Format where
  style : Style := .ascii
  precision : Int
deriving DecidableEq, Repr

namespace Format

/-- ASCII with the precision of the settings. -/
def plain (cfg : Settings) : Format := { precision := cfg.precision }

/-- Style and precision of the settings. -/
def ofSettings (cfg : Settings) : Except Failure Format := do
  let style ← Style.read cfg.style
  pure { style, precision := cfg.precision }

end Format

/-! ## Variables -/

namespace Display

def subscript (c : Char) : Char :=
  if c.isDigit then Char.ofNat (c.toNat - '0'.toNat + '₀'.toNat) else c

/-- A name whose digits at the end are its index. -/
def variableName (style : Style) (name : List Char) : List Char :=
  let base := Text.dropTrailing Char.isDigit name
  let index := name.drop base.length
  if index.isEmpty then name
  else match style with
  | .ascii => name
  | .unicode => base ++ index.map subscript
  | .latex => base ++ "_\x7b".toList ++ index ++ ['}']

end Display

end Surd
