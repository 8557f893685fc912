import Surd.Failure
import Surd.Text.Blank
import Surd.Text.Digit
import Surd.Text.Quoted

/-!
# Integers as text

An integer is written as its decimal digits after an optional minus sign. It is read with blanks at
both ends, a sign of either kind, digits of any script and single underscores between the digits.
Neither way goes beyond `digitLimit` digits.
-/

namespace Surd.Text

/-! ## Writing -/

def digits (n : Nat) : List Char := Nat.toDigits 10 n

def signedDigits : Int → List Char
  | .ofNat n => digits n
  | .negSucc n => '-' :: digits (n + 1)

def writeInt (i : Int) : Except Failure (List Char) :=
  if Nat.pow 10 digitLimit ≤ i.natAbs then throw .tooLongToWrite else pure (signedDigits i)

/-! ## Reading -/

/-- The blanks that may surround a number: of ASCII only those that move the position. -/
def isMargin (c : Char) : Bool :=
  if c.toNat < 0x80 then c == ' ' || (0x09 ≤ c.toNat && c.toNat ≤ 0x0d) else isBlank c

/-- The ASCII form of a decimal digit; other characters stay. -/
def plainDigit (c : Char) : Char :=
  match digit? c with
  | some d => d.digitChar
  | none => c

/-- The digits of a run with single underscores between them. -/
def ungroup : List Char → Option (List Char)
  | [] => none
  | [c] => if c.isDigit then some [c] else none
  | c :: '_' :: rest => if c.isDigit then (ungroup rest).map (c :: ·) else none
  | c :: rest => if c.isDigit then (ungroup rest).map (c :: ·) else none

def natOfDigits (ds : List Char) : Nat := Nat.ofDigitChars 10 ds 0

/-- The sign in front of a number, and what follows it. -/
def takeSign : List Char → Bool × List Char
  | '-' :: rest => (true, rest)
  | '+' :: rest => (false, rest)
  | s => (false, s)

def applySign (negative : Bool) (n : Nat) : Int := if negative then -(n : Int) else n

def inGroup (c : Char) : Bool := c.isDigit || c == '_'

/-- The failure to read an integer shows no more than 200 characters of the quoted text. -/
def notInteger (s : List Char) : Failure := .notInteger (String.ofList ((quoted s).take 200))

def readInt (s : List Char) : Except Failure Int :=
  let plain := (s.dropWhile isMargin).map plainDigit
  let (negative, body) := takeSign plain
  match ungroup (body.takeWhile inGroup) with
  | none => throw (notInteger s)
  | some ds =>
    if digitLimit < ds.length then throw (.tooManyDigits ds.length)
    else if (body.dropWhile inGroup).all isMargin then pure (applySign negative (natOfDigits ds))
    else throw (notInteger s)

end Surd.Text
