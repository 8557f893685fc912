import Surd.Expr.Token

/-!
# Parsing expressions

Powers bind to the right and tighter than a sign before them; then come signs, products and
quotients, sums and differences, and comparisons. A function name takes an argument in parentheses,
or else the product of powers that follows it.

The parsing functions give what they read and the tokens after it. Their fuel is bounded by the
number of tokens.
-/

namespace Surd.Expr

namespace Parser

/-! ## Arguments without parentheses -/

/-- Whether the tokens after the argument of several nested functions let all of them end there. -/
def mayEnd : List Token → Bool
  | [] => true
  | .closing ')' :: _ => true
  | _ => false

/-- Whether the token is a factor that needs no parentheses. -/
def isPlain : Token → Bool
  | .operand _ | .named _ | .function _ => true
  | _ => false

mutual

/-- Items with commas between them, up to a closing bracket; and whether there is a comma. -/
def items (fuel : Nat) (close : Char) (ts : List Token) :
    Option ((List Phrase × Bool) × List Token) :=
  match fuel with
  | 0 => none
  | fuel + 1 =>
    match ts with
    | .closing c :: rest => if c = close then some (([], false), rest) else none
    | _ => do
      let (x, rest) ← comparison fuel ts
      match rest with
      | .comma :: more => do
        let ((xs, _), rest) ← items fuel close more
        pure ((x :: xs, true), rest)
      | .closing c :: more => if c = close then some (([x], false), more) else none
      | _ => none

def atom (fuel : Nat) (ts : List Token) : Option (Phrase × List Token) :=
  match fuel with
  | 0 => none
  | fuel + 1 =>
    match ts with
    | .operand x :: rest | .named x :: rest => some (x, rest)
    | .word name :: rest => some ((name.map .truth).getD .thing, rest)
    | .thing :: rest => some (.thing, (rest.dropWhile fun | .thing => true | _ => false))
    | .function f :: .opening '(' :: rest => do
      let ((args, _), rest) ← items fuel ')' rest
      pure (.call f args, rest)
    | .function f :: t :: rest =>
      if isPlain t then do
        let (x, depth, rest) ← argument fuel (t :: rest)
        if depth = 0 || mayEnd rest then pure (.call f [x], rest) else none
      else some (.thing, t :: rest)
    | [.function _] => some (.thing, [])
    | .opening '(' :: rest => do
      let ((xs, comma), rest) ← items fuel ')' rest
      match xs, comma with
      | [x], false => pure (x, rest)
      | _, _ => pure (.tuple xs, rest)
    | .opening '[' :: rest => do
      let ((xs, _), rest) ← items fuel ']' rest
      pure (.list xs, rest)
    | .opening _ :: rest => do
      let ((xs, _), rest) ← items fuel '\x7d' rest
      pure (.set xs, rest)
    | _ => none

/-- An argument without parentheses: a product of powers of plain factors. With it, how many
functions within it end where it ends. -/
def argument (fuel : Nat) (ts : List Token) : Option (Phrase × Nat × List Token) :=
  match fuel with
  | 0 => none
  | fuel + 1 => do
    let (x, depth, rest) ← argumentPower fuel ts
    argumentTail fuel x depth rest

/-- The factors of an argument after the first ones. -/
def argumentTail (fuel : Nat) (x : Phrase) (depth : Nat) (ts : List Token) :
    Option (Phrase × Nat × List Token) :=
  match fuel with
  | 0 => none
  | fuel + 1 =>
    match ts with
    | .times :: rest =>
      if depth = 0 then do
        let (y, depth, rest) ← argumentPower fuel rest
        argumentTail fuel (.binary .mul x y) depth rest
      else none
    | _ => some (x, depth, ts)

/-- A plain factor with its exponent. -/
def argumentPower (fuel : Nat) (ts : List Token) : Option (Phrase × Nat × List Token) :=
  match fuel with
  | 0 => none
  | fuel + 1 =>
    match ts with
    | .named _ :: .power true :: _ => none
    | .operand x :: .power _ :: rest | .named x :: .power _ :: rest => do
      let (y, depth, rest) ← argumentPower fuel rest
      pure (.binary .power x y, depth, rest)
    | .operand x :: rest | .named x :: rest => some (x, 0, rest)
    | .function f :: .opening '(' :: rest => do
      let ((args, _), rest) ← items fuel ')' rest
      match rest with
      | .power _ :: rest => do
        let (y, depth, rest) ← argumentPower fuel rest
        pure (.binary .power (.call f args) y, depth, rest)
      | _ => pure (.call f args, 0, rest)
    | .function f :: t :: rest =>
      if isPlain t then do
        let (x, depth, rest) ← argument fuel (t :: rest)
        pure (.call f [x], depth + 1, rest)
      else none
    | _ => none

def powers (fuel : Nat) (ts : List Token) : Option (Phrase × List Token) :=
  match fuel with
  | 0 => none
  | fuel + 1 => do
    let (x, rest) ← atom fuel ts
    match rest with
    | .power _ :: more => do
      let (y, rest) ← factor fuel more
      pure (.binary .power x y, rest)
    | _ => pure (x, rest)

def factor (fuel : Nat) (ts : List Token) : Option (Phrase × List Token) :=
  match fuel with
  | 0 => none
  | fuel + 1 =>
    match ts with
    | .plus :: rest => do
      let (x, rest) ← factor fuel rest
      pure (.plus x, rest)
    | .minus :: rest => do
      let (x, rest) ← factor fuel rest
      pure (.minus x, rest)
    | _ => powers fuel ts

def term (fuel : Nat) (ts : List Token) : Option (Phrase × List Token) :=
  match fuel with
  | 0 => none
  | fuel + 1 => do
    let (x, rest) ← factor fuel ts
    termTail fuel x rest

def termTail (fuel : Nat) (x : Phrase) (ts : List Token) : Option (Phrase × List Token) :=
  match fuel with
  | 0 => none
  | fuel + 1 =>
    let step (op : Operator) (rest : List Token) := do
      let (y, rest) ← factor fuel rest
      termTail fuel (.binary op x y) rest
    match ts with
    | .times :: rest => step .mul rest
    | .divide :: rest => step .div rest
    | .modulo :: rest => step .modulo rest
    | .floorDivide :: rest => step .floorDivide rest
    | _ => some (x, ts)

def sum (fuel : Nat) (ts : List Token) : Option (Phrase × List Token) :=
  match fuel with
  | 0 => none
  | fuel + 1 => do
    let (x, rest) ← term fuel ts
    sumTail fuel x rest

def sumTail (fuel : Nat) (x : Phrase) (ts : List Token) : Option (Phrase × List Token) :=
  match fuel with
  | 0 => none
  | fuel + 1 =>
    let step (op : Operator) (rest : List Token) := do
      let (y, rest) ← term fuel rest
      sumTail fuel (.binary op x y) rest
    match ts with
    | .plus :: rest => step .add rest
    | .minus :: rest => step .sub rest
    | _ => some (x, ts)

def comparison (fuel : Nat) (ts : List Token) : Option (Phrase × List Token) :=
  match fuel with
  | 0 => none
  | fuel + 1 => do
    let (x, rest) ← sum fuel ts
    comparisonTail fuel true x rest

/-- The comparisons after a left side. Several of them in a row are a conjunction. -/
def comparisonTail (fuel : Nat) (isFirst : Bool) (x : Phrase) (ts : List Token) :
    Option (Phrase × List Token) :=
  match fuel with
  | 0 => none
  | fuel + 1 =>
    match ts with
    | .relation r :: rest => do
      let (y, rest) ← sum fuel rest
      comparisonTail fuel false (.comparison isFirst r x y) rest
    | _ => some (x, ts)

end

/-- Items up to the end of all tokens: one without a comma is itself, anything else a tuple. -/
def all (fuel : Nat) (ts : List Token) : Option Phrase := do
  let ((xs, comma), rest) ← items fuel ')' (ts ++ [.closing ')'])
  match xs, comma, rest with
  | [x], false, [] => some x
  | _ :: _, true, [] => some (.tuple xs)
  | _, _, _ => none

end Parser

/-- What a prepared text says, none if it cannot be parsed. -/
def parse (s : List Char) : Option Phrase := do
  let ts ← Token.ofText s
  Parser.all (12 * (ts.length + 2)) ts

end Surd.Expr
