import Surd.Expr.Lexeme
import Surd.Expr.Phrase

/-!
# Tokens of expressions

Names become constants, functions or variables; a word that is none of them and no Greek letter is
the product of its characters. Repeating decimals and factorials are resolved, and a multiplication
sign is put between two factors that stand side by side.
-/

namespace Surd.Expr

inductive Token where
  /-- A number, a variable or a constant. -/
  | operand (x : Phrase)
  /-- A constant by its name. -/
  | named (x : Phrase)
  | function (f : Function)
  /-- A word for something that is not an expression, or for a truth value of a name. -/
  | word (truth : Option String)
  /-- Something that is not an expression and stands alone. -/
  | thing
  | plus | minus | times | divide | modulo | floorDivide
  | power (starred : Bool)
  | relation (r : Relation)
  | comma
  | opening (c : Char)
  | closing (c : Char)
  | lineEnd

namespace Token

/-! ## Names -/

def reservedWords : List String :=
  ["and", "as", "assert", "async", "await", "break", "class", "continue", "def", "del", "elif",
   "else", "except", "finally", "for", "from", "global", "if", "import", "in", "is", "lambda",
   "nonlocal", "not", "or", "pass", "raise", "return", "try", "while", "with", "yield"]

/-- Words for truth values and for nothing, and letters with another meaning. -/
def otherWords : List (String × Option String) :=
  [("True", some "BooleanTrue"), ("False", some "BooleanFalse"), ("None", none), ("N", none),
   ("O", none), ("Q", none), ("S", none)]

def constants : List (String × Expr) :=
  [("pi", .constant .pi), ("e", .constant .e), ("E", .constant .e), ("i", .imaginaryUnit),
   ("I", .imaginaryUnit), ("oo", .unsupported "Infinity"), ("zoo", .infinite),
   ("nan", .undefined)]

def functions : List (String × Function) :=
  [("sqrt", .sqrt), ("cbrt", .cbrt), ("abs", .abs true), ("Abs", .abs false), ("sin", .sin),
   ("cos", .cos), ("exp", .exp), ("sind", .sinDegrees), ("cosd", .cosDegrees),
   ("log", .logarithm), ("ln", .logarithm), ("gamma", .gamma)]

def unsupportedFunctions : List String :=
  ["tan", "cot", "sec", "csc", "asin", "acos", "atan", "acot", "asec", "acsc", "sinh", "cosh",
   "tanh", "coth", "sech", "csch", "asinh", "acosh", "atanh", "acoth", "asech", "acsch", "sign",
   "arg", "re", "im", "conjugate", "zeta", "beta"]

def greekLetters : List String :=
  ["alpha", "beta", "gamma", "delta", "epsilon", "zeta", "eta", "theta", "iota", "kappa", "lamda",
   "mu", "nu", "xi", "omicron", "pi", "rho", "sigma", "tau", "upsilon", "phi", "chi", "psi",
   "omega", "heta", "san", "sho", "stigma", "digamma", "koppa", "sampi"]

def ofWord? (s : List Char) : Option Token :=
  let name := String.ofList s
  match constants.lookup name with
  | some x => some (.named (.value x))
  | none =>
    match functions.lookup name with
    | some f => some (.function f)
    | none =>
      if unsupportedFunctions.contains name then some (.function (.unsupported name))
      else (otherWords.lookup name).map .word

/-- Whether a name stays whole. -/
def isWhole (s : List Char) : Bool :=
  s.length ≤ 1 || s.contains '_' || greekLetters.contains (String.ofList (s.map Char.toLower))

/-- The number that a run of digits within a word stands for. -/
def digitRun? (ds : List Char) : Option Phrase :=
  if !ds.all Char.isDigit || (ds.head? == some '0' && ds.any (· != '0')) then none
  else some (.value (exact (Text.natOfDigits ds)))

/-- The factors of a word: known letters, numbers and variables. The digits are those so far. -/
def splitWord (digits : List Char) : List Char → Option (List Token)
  | [] => if digits.isEmpty then some [] else (digitRun? digits.reverse).map fun x => [.operand x]
  | c :: rest =>
    if Text.isAnyDigit c then splitWord (c :: digits) rest
    else do
      let number ← if digits.isEmpty then some [] else
        (digitRun? digits.reverse).map fun x => [.operand x]
      let more ← splitWord [] rest
      pure (number ++ (ofWord? [c]).getD (.operand (.value (.unknown [c]))) :: more)

def ofName (s : List Char) : Option (List Token) :=
  match ofWord? s with
  | some t => some [t]
  | none =>
    if reservedWords.contains (String.ofList s) then none
    else if isWhole s then some [.operand (.value (.unknown s))]
    else splitWord [] s

/-! ## Numbers -/

def hexValue (c : Char) : Nat :=
  if c.isDigit then c.toNat - '0'.toNat
  else if 'a' ≤ c then c.toNat - 'a'.toNat + 10
  else c.toNat - 'A'.toNat + 10

def valueInBase (base : Nat) (ds : List Char) : Nat :=
  ds.foldl (fun n c => base * n + hexValue c) 0

/-- The value of an integer without underscores. In base ten no zero may lead, and there is a limit
on the number of digits. -/
def integerLiteral (s : List Char) : Option Nat :=
  match s with
  | '0' :: b :: ds =>
    if b = 'x' ∨ b = 'X' then some (valueInBase 16 ds)
    else if b = 'o' ∨ b = 'O' then some (valueInBase 8 ds)
    else if b = 'b' ∨ b = 'B' then some (valueInBase 2 ds)
    else if (b :: ds).all (· == '0') then some 0
    else none
  | _ => if digitLimit < s.length then none else some (Text.natOfDigits s)

def isDecimal (s : List Char) : Bool :=
  s.contains '.' || (s.any fun c => c == 'e' || c == 'E')
    && !(['0', 'x'].isPrefixOf s || ['0', 'X'].isPrefixOf s)

def realLiteral (s : List Char) : Option Phrase :=
  let plain := s.filter (· != '_')
  if isDecimal plain then (BigFloat.read plain).map fun x => .value (.number (.rounded x))
  else (integerLiteral plain).map fun (n : Nat) => .value (exact n)

def ofNumber (s : List Char) : Option (List Token) :=
  if s.getLast? = some 'j' then
    (realLiteral s.dropLast).map fun x => [.operand x, .times, .named (.value .imaginaryUnit)]
  else (realLiteral s).map fun x => [.operand x]

/-! ## Repeating decimals -/

/-- The value of `whole.fraction[period]`: the digits before the period, and the period over as many
nines as it has digits. -/
def repeating (whole fraction period : List Char) : Phrase :=
  let scale := Nat.pow 10 fraction.length
  let before : Rat := mkRat (Text.natOfDigits fraction) scale
  let after : Rat := mkRat (Text.natOfDigits period) ((Nat.pow 10 period.length - 1) * scale)
  .binary .add (.binary .add (.value (exact (Text.natOfDigits whole))) (.value (exact before)))
    (.value (exact after))

/-- The parts of a decimal number before and after its point, if it has no exponent. -/
def pointParts? (s : List Char) : Option (List Char × List Char) :=
  let plain := s.filter (· != '_')
  if plain.all (fun c => c.isDigit || c == '.') && plain.contains '.' then
    some (plain.takeWhile (· != '.'), (plain.dropWhile (· != '.')).drop 1)
  else none

def isDigits (s : List Char) : Bool := s.all fun c => c.isDigit || c == '_'

/-- The digits of a period in brackets, and what follows it. Digits after leading zeros are a number
of their own. -/
def takePeriod : List Lexeme → Option (List Char × List Lexeme)
  | .mark ['['] :: .number p :: .mark [']'] :: rest =>
    if isDigits p then some (p.filter (· != '_'), rest) else none
  | .mark ['['] :: .number p :: .number q :: .mark [']'] :: rest =>
    if isDigits p && isDigits q then some ((p ++ q).filter (· != '_'), rest) else none
  | _ => none

/-- A repeating decimal at the front, and what follows it. -/
def takeRepeating : List Lexeme → Option (List Char × List Char × List Char × List Lexeme)
  | .number s :: rest => do
    let (whole, fraction) ← pointParts? s
    let (period, more) ← takePeriod rest
    pure (whole, fraction, period, more)
  | .mark ['.'] :: rest => (takePeriod rest).map fun (period, more) => ([], [], period, more)
  | _ => none

/-! ## Tokens of lexemes -/

def ofMark (m : List Char) : Option Token :=
  match String.ofList m with
  | "+" => some .plus
  | "-" => some .minus
  | "*" => some .times
  | "/" => some .divide
  | "%" => some .modulo
  | "//" => some .floorDivide
  | "**" => some (.power true)
  | "^" => some (.power false)
  | "<" => some (.relation .less)
  | "<=" => some (.relation .lessEqual)
  | ">" => some (.relation .greater)
  | ">=" => some (.relation .greaterEqual)
  | "==" => some (.relation .equal)
  | "!=" => some (.relation .notEqual)
  | "," => some .comma
  | "..." => some .thing
  | "(" | "[" | "\x7b" => m.head?.map .opening
  | ")" | "]" | "\x7d" => m.head?.map .closing
  | _ => none

/-! ## Factorials -/

/-- The tokens of the bracketed group that ends a reversed list, after its closing bracket, and what
is before the group. -/
def takeGroup (depth : Nat) : List Token → Option (List Token × List Token)
  | [] => none
  | .closing ')' :: before =>
    (takeGroup (depth + 1) before).map fun (g, r) => (.closing ')' :: g, r)
  | .opening '(' :: before =>
    match depth with
    | 0 => some ([.opening '('], before)
    | d + 1 => (takeGroup d before).map fun (g, r) => (.opening '(' :: g, r)
  | t :: before => (takeGroup depth before).map fun (g, r) => (t :: g, r)

/-- With a name before it, a group belongs to the name. -/
def withName (unit before : List Token) : List Token × List Token :=
  match before with
  | .function f :: rest => (unit ++ [.function f], rest)
  | .named x :: rest => (unit ++ [.named x], rest)
  | _ => (unit, before)

/-- What a factorial sign belongs to, at the end of a reversed list, and what is before it. -/
def takeUnit : List Token → Option (List Token × List Token)
  | .closing ')' :: before =>
    (takeGroup 0 before).map fun (g, r) => withName (.closing ')' :: g) r
  | .operand x :: before => some ([.operand x], before)
  | .named x :: before => some (withName [.named x] before)
  | _ => none

/-- The function that a number of factorial signs stands for, applied to what is before them. -/
def applyFactorial (bangs : Nat) (reversed : List Token) : Option (List Token) :=
  let f? := match bangs with
    | 1 => some Function.factorial
    | 2 => some Function.doubleFactorial
    | _ => none
  f?.bind fun f => (takeUnit reversed).map fun (u, before) =>
    .closing ')' :: u ++ .opening '(' :: .function f :: before

/-- The tokens after a reversed list of tokens and a number of factorial signs. -/
def resolve (fuel : Nat) (reversed : List Token) (bangs : Nat) (lexemes : List Lexeme) :
    Option (List Token) :=
  match fuel with
  | 0 => none
  | fuel + 1 =>
    match lexemes with
    | .bang :: rest => resolve fuel reversed (bangs + 1) rest
    | _ => do
      let reversed ← if bangs = 0 then some reversed else applyFactorial bangs reversed
      match takeRepeating lexemes with
      | some (whole, fraction, period, rest) =>
        if period.all (· == '0') then none
        else
          let value := repeating whole fraction period
          resolve fuel (.closing ')' :: .operand value :: .opening '(' :: reversed) 0 rest
      | none =>
        match lexemes with
        | [] => pure reversed.reverse
        | .number s :: rest => do
          let ts ← ofNumber s
          resolve fuel (ts.reverse ++ reversed) 0 rest
        | .name s :: rest => do
          let ts ← ofName s
          resolve fuel (ts.reverse ++ reversed) 0 rest
        | .quoted :: rest => resolve fuel (.thing :: reversed) 0 rest
        | .mark m :: rest => do
          let t ← ofMark m
          resolve fuel (t :: reversed) 0 rest
        | .lineEnd :: rest => resolve fuel (.lineEnd :: reversed) 0 rest
        | .bang :: _ => none

/-! ## Products -/

/-- Whether a factor ends with the token. -/
def endsFactor : Token → Bool
  | .operand _ | .named _ | .word _ | .closing ')' => true
  | _ => false

def startsFactor : Token → Bool
  | .operand _ | .named _ | .word _ | .function _ | .opening '(' => true
  | _ => false

/-- The tokens with the multiplication signs between neighbouring factors. -/
def insertProducts : List Token → List Token
  | t :: u :: rest =>
    if endsFactor t && startsFactor u then t :: .times :: insertProducts (u :: rest)
    else t :: insertProducts (u :: rest)
  | ts => ts

def isLineEnd : Token → Bool
  | .lineEnd => true
  | _ => false

/-! ## Nesting -/

/-- How deep brackets may be nested, the one around each number and variable included. -/
def maxDepth : Nat := 200

def depthWithin (depth : Nat) : List Token → Bool
  | [] => true
  | .opening _ :: rest => depth < maxDepth && depthWithin (depth + 1) rest
  | .closing _ :: rest => depthWithin (depth - 1) rest
  | .operand _ :: rest => depth < maxDepth && depthWithin depth rest
  | _ :: rest => depthWithin depth rest

/-- The tokens of a text, ready to be parsed. -/
def ofText (s : List Char) : Option (List Token) := do
  let lexemes ← Lexeme.ofText s
  let tokens ← resolve (lexemes.length + 1) [] 0 lexemes
  let ready := (insertProducts tokens).filter fun t => !isLineEnd t
  if depthWithin 0 ready then some ready else none

end Token

end Surd.Expr
