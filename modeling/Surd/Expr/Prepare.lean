import Surd.Expr.Brackets
import Surd.Settings
import Surd.Text.Lowercase
import Surd.Text.Superscript

/-!
# Input of expressions

Before it is read, an input is checked and spelled out: typographic operators, `π`, percentages,
root signs and superscripts get their plain forms. Inputs that are empty, too long, unbalanced, or
that hold a forbidden token are rejected.
-/

namespace Surd.Input

def forbiddenTokens : List String := ["__", "import", "lambda", "exec", "eval", "open("]

/-- Whether the token stands somewhere in the text. -/
def occurs (token : List Char) : List Char → Bool
  | [] => token.isEmpty
  | c :: rest => token.isPrefixOf (c :: rest) || occurs token rest

def forbidden? (s : List Char) : Option String :=
  let lowered := Text.lower s
  forbiddenTokens.find? fun t => occurs t.toList lowered

/-! ## Plain forms -/

def plainSymbol (c : Char) : List Char :=
  if c = '×' then ['*']
  else if c = '÷' then ['/']
  else if c = '−' then ['-']
  else if c = 'π' then ['p', 'i']
  else [c]

/-- What follows the whole digits of a percentage: its fraction digits with their point, and the
text after the percent sign. -/
def afterPercentDigits : List Char → Option (List Char × List Char)
  | '%' :: rest => some ([], rest)
  | '.' :: rest =>
    let fraction := rest.takeWhile Text.isDigit
    match fraction, rest.dropWhile Text.isDigit with
    | _ :: _, '%' :: more => some ('.' :: fraction, more)
    | _, _ => none
  | _ => none

theorem length_afterPercentDigits {s f r : List Char} (h : afterPercentDigits s = some (f, r)) :
    r.length < s.length := by
  unfold afterPercentDigits at h
  split at h
  · cases h; exact Nat.lt_succ_self _
  · next rest =>
    have hle : (rest.dropWhile Text.isDigit).length ≤ rest.length :=
      (List.dropWhile_sublist _).length_le
    dsimp only at h
    split at h
    · next hd =>
      cases h
      rw [hd] at hle
      simp only [List.length_cons] at hle ⊢
      omega
    · cases h
  · cases h

/-- Every percentage `n%` becomes `(n/100)`. -/
def expandPercent (s : List Char) : List Char :=
  match s with
  | [] => []
  | c :: rest =>
    if Text.isDigit c then
      let digits := c :: rest.takeWhile Text.isDigit
      match _h : afterPercentDigits (rest.dropWhile Text.isDigit) with
      | some (fraction, more) =>
        '(' :: digits ++ fraction ++ ['/', '1', '0', '0', ')'] ++ expandPercent more
      | none => digits ++ expandPercent (rest.dropWhile Text.isDigit)
    else c :: expandPercent rest
termination_by s.length
decreasing_by
  · have := length_afterPercentDigits _h
    have : (rest.dropWhile Text.isDigit).length ≤ rest.length :=
      (List.dropWhile_sublist _).length_le
    simp only [List.length_cons]
    omega
  · have : (rest.dropWhile Text.isDigit).length ≤ rest.length :=
      (List.dropWhile_sublist _).length_le
    simp only [List.length_cons]
    omega
  · exact Nat.lt_succ_self _

/-- Every root sign before an opening parenthesis becomes the name of the function. -/
def expandRoot (s : List Char) : List Char :=
  match s with
  | [] => []
  | '√' :: rest =>
    match _h : rest.dropWhile Text.isBlank with
    | '(' :: more => ['s', 'q', 'r', 't', '('] ++ expandRoot more
    | _ => '√' :: expandRoot rest
  | c :: rest => c :: expandRoot rest
termination_by s.length
decreasing_by
  · have hle : (rest.dropWhile Text.isBlank).length ≤ rest.length :=
      (List.dropWhile_sublist _).length_le
    rw [_h] at hle
    simp only [List.length_cons] at hle ⊢
    omega
  · exact Nat.lt_succ_self _
  · exact Nat.lt_succ_self _

def spellOut (s : List Char) : List Char :=
  Text.lowerSuperscripts (expandRoot (expandPercent (s.flatMap plainSymbol)))

/-! ## Checking -/

/-- The spelled-out form of an accepted input. -/
def prepare (cfg : Settings) (s : List Char) : Except Failure (List Char) :=
  let input := Text.trim s
  if input.isEmpty then throw .emptyInput
  else if cfg.maxInputLength < input.length then throw (.inputTooLong cfg.maxInputLength)
  else match forbidden? input with
  | some t => throw (.forbiddenToken t)
  | none =>
    let plain := spellOut input
    match Brackets.firstFault plain with
    | some position => throw (.unbalanced position)
    | none => pure plain

end Surd.Input
