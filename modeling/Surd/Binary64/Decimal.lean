import Surd.Binary64.Rounding
import Surd.Text.Integer

/-!
# Doubles from decimal text

A sign, digits with an optional point, and an optional exponent; or an infinity or not-a-number by
name. Blanks may surround it and single underscores may stand between digits. The result is the
double nearest to the written value.
-/

namespace Surd

/-- The number `± mantissa * 10 ^ exponent`. -/
structure Decimal where
  negative : Bool
  mantissa : Nat
  exponent : Int
deriving DecidableEq, Repr

namespace Decimal

/-- The magnitude of a decimal number. -/
def value (x : Decimal) : Rat :=
  if x.exponent < 0 then mkRat x.mantissa (Nat.pow 10 x.exponent.natAbs)
  else (x.mantissa * Nat.pow 10 x.exponent.natAbs : Nat)

/-- Beyond 10^310 all is infinite, and below 10^-330 all is zero. -/
def toBinary64 (x : Decimal) : Binary64 :=
  let top := x.exponent + (Text.digits x.mantissa).length
  if x.mantissa = 0 then Binary64.ofRank x.negative 0
  else if 310 < top then .infinite x.negative
  else if top < -330 then Binary64.ofRank x.negative 0
  else Binary64.ofMagnitude x.negative x.value

/-- The exponent part of a number, where nothing may follow it. -/
def readExponent : List Char → Option Int
  | [] => some 0
  | c :: rest =>
    if c = 'e' ∨ c = 'E' then
      let (negative, ds) := Text.takeSign rest
      if ds.isEmpty || !ds.all Char.isDigit then none
      else some (Text.applySign negative (Text.natOfDigits ds))
    else none

/-- The digits after a point, if there is one, and the rest. -/
def takeFraction : List Char → List Char × List Char
  | '.' :: rest => (rest.takeWhile Char.isDigit, rest.dropWhile Char.isDigit)
  | s => ([], s)

/-- Digits with an optional point and exponent. -/
def readUnsigned (negative : Bool) (s : List Char) : Option Decimal :=
  let whole := s.takeWhile Char.isDigit
  let (fraction, rest) := takeFraction (s.dropWhile Char.isDigit)
  if whole.isEmpty && fraction.isEmpty then none
  else (readExponent rest).map fun e =>
    ⟨negative, Text.natOfDigits (whole ++ fraction), e - fraction.length⟩

end Decimal

namespace Binary64

/-- The text without underscores, each of which has to stand between two digits. -/
def withoutMarks (previous : Char) : List Char → Option (List Char)
  | [] => some []
  | '_' :: rest =>
    if previous.isDigit && (rest.head?.map Char.isDigit).getD false then withoutMarks '_' rest
    else none
  | c :: rest => (withoutMarks c rest).map (c :: ·)

def readNumber (s : List Char) : Option Binary64 :=
  let (negative, body) := Text.takeSign s
  let name := body.map Char.toLower
  if name = "inf".toList ∨ name = "infinity".toList then some (.infinite negative)
  else if name = "nan".toList then some .nan
  else (Decimal.readUnsigned negative body).map Decimal.toBinary64

def read (s : List Char) : Except Failure Binary64 :=
  let plain := (s.map Text.plainDigit).dropWhile Text.isMargin
  match (withoutMarks ' ' (Text.dropTrailing Text.isMargin plain)).bind readNumber with
  | some x => pure x
  | none => throw (.notNumber (String.ofList (Text.quoted s)))

end Binary64

end Surd
