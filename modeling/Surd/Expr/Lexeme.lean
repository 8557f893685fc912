import Surd.Binary64.Decimal
import Surd.Text.Word

/-!
# Lexemes of expressions

A text is cut into numbers, names, quoted texts and marks. The longest mark is taken; of the forms
of a number, the one with a point or an exponent goes before a plain integer.
-/

namespace Surd.Expr

inductive Lexeme where
  | number (text : List Char)
  | name (text : List Char)
  | quoted
  | mark (text : List Char)
  /-- A factorial sign directly after what it belongs to. -/
  | bang
  /-- A line end within brackets. -/
  | lineEnd
deriving DecidableEq, Repr

namespace Lexeme

/-! ## Numbers -/

/-- Digits of a base with single underscores between them, and the rest. -/
def takeGroups (isDigit : Char → Bool) : List Char → List Char × List Char
  | '_' :: c :: rest =>
    if isDigit c then
      let (ds, more) := takeGroups isDigit rest
      ('_' :: c :: ds, more)
    else ([], '_' :: c :: rest)
  | c :: rest =>
    if isDigit c then
      let (ds, more) := takeGroups isDigit rest
      (c :: ds, more)
    else ([], c :: rest)
  | [] => ([], [])

/-- Digits that begin with a digit. -/
def takeDigits (isDigit : Char → Bool) : List Char → List Char × List Char
  | c :: rest => if isDigit c then takeGroups isDigit (c :: rest) else ([], c :: rest)
  | [] => ([], [])

/-- An exponent, if there is one. -/
def takeExponent : List Char → List Char × List Char
  | c :: rest =>
    if c = 'e' ∨ c = 'E' then
      let (sign, digits) := match rest with
        | '+' :: more => (['+'], more)
        | '-' :: more => (['-'], more)
        | _ => ([], rest)
      match takeDigits Char.isDigit digits with
      | ([], _) => ([], c :: rest)
      | (ds, more) => (c :: sign ++ ds, more)
    else ([], c :: rest)
  | [] => ([], [])

def isHexDigit (c : Char) : Bool :=
  c.isDigit || ('a' ≤ c && c ≤ 'f') || ('A' ≤ c && c ≤ 'F')

/-- The digits of an integer in the base that the letter after its zero names. -/
def baseDigit? (c : Char) : Option (Char → Bool) :=
  if c = 'x' ∨ c = 'X' then some isHexDigit
  else if c = 'o' ∨ c = 'O' then some fun d => '0' ≤ d && d ≤ '7'
  else if c = 'b' ∨ c = 'B' then some fun d => d == '0' || d == '1'
  else none

/-- An integer in another base, after its leading zero. -/
def takeBased : List Char → Option (List Char × List Char)
  | b :: rest =>
    (baseDigit? b).bind fun isDigit =>
      match takeGroups isDigit rest with
      | ([], _) => none
      | (ds, more) => some ('0' :: b :: ds, more)
  | [] => none

/-- A plain integer. One that begins with a zero has no other digit. -/
def takeInteger (s : List Char) : List Char × List Char :=
  match s with
  | '0' :: rest =>
    match takeBased rest with
    | some r => r
    | none => takeGroups (· == '0') s
  | _ => takeGroups Char.isDigit s

/-- A number at the front of a text that starts with a digit, or with a point and a digit. A letter
`j` after it makes it imaginary. -/
def takeNumber (s : List Char) : List Char × List Char :=
  let (whole, rest) := takeDigits Char.isDigit s
  let (point, rest) := match rest with
    | '.' :: more =>
      let (fraction, more) := takeDigits Char.isDigit more
      ('.' :: fraction, more)
    | _ => ([], rest)
  let (exponent, rest) := takeExponent rest
  let text := whole ++ point ++ exponent
  match rest with
  | 'j' :: more => (text ++ ['j'], more)
  | 'J' :: more => (text ++ ['j'], more)
  | _ => if point.isEmpty && exponent.isEmpty then takeInteger s else (text, rest)

def startsNumber : List Char → Bool
  | '.' :: c :: _ => c.isDigit
  | c :: _ => c.isDigit
  | [] => false

/-! ## Quoted texts -/

/-- What follows a text in quotes, which a backslash protects. -/
def afterQuote (quote : Char) : List Char → Option (List Char)
  | [] => none
  | '\\' :: _ :: rest => afterQuote quote rest
  | c :: rest => if c = quote then some rest else if c = '\n' then none else afterQuote quote rest

/-- What follows a text in triple quotes. -/
def afterTriple (quote : Char) : List Char → Option (List Char)
  | [] => none
  | '\\' :: _ :: rest => afterTriple quote rest
  | c :: rest =>
    if c = quote ∧ [quote, quote].isPrefixOf rest then some (rest.drop 2)
    else afterTriple quote rest

def takeQuoted (quote : Char) (s : List Char) : Option (List Char) :=
  if [quote, quote].isPrefixOf s then afterTriple quote (s.drop 2) else afterQuote quote s

/-! ## Marks -/

def marks : List (List Char) :=
  ["**=", "//=", ">>=", "<<=", "...", "!=", "%=", "&=", "**", "*=", "+=", "-=", "->", "//", "/=",
   ":=", "<<", "<=", "==", ">=", ">>", "@=", "^=", "|=", "%", "&", "(", ")", "*", "+", ",", "-",
   ".", "/", ":", ";", "<", "=", ">", "@", "[", "]", "^", "\x7b", "|", "\x7d",
   "~"].map String.toList

def takeMark (s : List Char) : Option (List Char × List Char) :=
  (marks.find? (·.isPrefixOf s)).map fun m => (m, s.drop m.length)

/-- How a mark changes the number of open brackets. -/
def depthAfter (depth : Nat) (m : List Char) : Nat :=
  if m = ['('] ∨ m = ['['] ∨ m = ['\x7b'] then depth + 1
  else if m = [')'] ∨ m = [']'] ∨ m = ['\x7d'] then depth - 1
  else depth

/-! ## Texts -/

def isGap (c : Char) : Bool := c == ' ' || c == '\t' || c == '\x0c'

/-- The lexemes of a text, none if something in it is not a lexeme. The fuel is the length of the
text; `gap` tells whether blanks come before it. -/
def scan (fuel depth : Nat) (gap : Bool) (s : List Char) : Option (List Lexeme) :=
  match fuel, s with
  | _, [] => some []
  | 0, _ => none
  | fuel + 1, c :: rest =>
    if isGap c then scan fuel depth true rest
    else if c = '#' then scan fuel depth true (rest.dropWhile (· != '\n'))
    else if c = '\n' then
      if depth = 0 then none else (scan fuel depth false rest).map (.lineEnd :: ·)
    else if startsNumber s then
      let (text, more) := takeNumber s
      (scan fuel depth false more).map (.number text :: ·)
    else if c = '"' ∨ c = '\'' then
      (takeQuoted c rest).bind fun more => (scan fuel depth false more).map (.quoted :: ·)
    else match takeMark s with
    | some (m, more) => (scan fuel (depthAfter depth m) false more).map (.mark m :: ·)
    | none =>
      if c = '!' then
        if gap then none else (scan fuel depth false rest).map (.bang :: ·)
      else if Text.isNameStart c then
        (scan fuel depth false (rest.dropWhile Text.isWordPart)).map
          (.name (c :: rest.takeWhile Text.isWordPart) :: ·)
      else none

def ofText (s : List Char) : Option (List Lexeme) := scan s.length 0 false s

end Lexeme

end Surd.Expr
