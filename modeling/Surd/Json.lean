import Surd.Text.Quoted

/-!
# Structured output

Values with ordered fields, and their two written forms: in one line, and indented by two blanks a
level. Only quotes, backslashes and control characters below U+0020 are escaped.
-/

namespace Surd

inductive Json where
  | null
  | bool (b : Bool)
  | int (n : Int)
  | text (s : String)
  | list (items : List Json)
  | object (fields : List (String × Json))

namespace Json

def escape (c : Char) : List Char :=
  if c = '"' ∨ c = '\\' then ['\\', c]
  else if c = '\n' then ['\\', 'n']
  else if c = '\r' then ['\\', 'r']
  else if c = '\t' then ['\\', 't']
  else if c = '\x08' then ['\\', 'b']
  else if c = '\x0c' then ['\\', 'f']
  else if c.toNat < 0x20 then '\\' :: 'u' :: Text.hex 4 c.toNat
  else [c]

def quote (s : String) : String :=
  String.ofList ('"' :: s.toList.flatMap escape ++ ['"'])

def margin (depth : Nat) : String := "\n" ++ String.ofList (List.replicate (2 * depth) ' ')

mutual

/-- In one line. -/
def compact : Json → String
  | .null => "null"
  | .bool b => if b then "true" else "false"
  | .int n => toString n
  | .text s => quote s
  | .list items => "[" ++ ",".intercalate (compactItems items) ++ "]"
  | .object fields => "\x7b" ++ ",".intercalate (compactFields fields) ++ "\x7d"

def compactItems : List Json → List String
  | [] => []
  | v :: rest => compact v :: compactItems rest

def compactFields : List (String × Json) → List String
  | [] => []
  | (k, v) :: rest => (quote k ++ ":" ++ compact v) :: compactFields rest

end

mutual

/-- Indented, at a depth. -/
def indented (depth : Nat) : Json → String
  | .list (v :: rest) =>
    "[" ++ ",".intercalate (indentedItems (depth + 1) (v :: rest)) ++ margin depth ++ "]"
  | .object (f :: rest) =>
    "\x7b" ++ ",".intercalate (indentedFields (depth + 1) (f :: rest)) ++ margin depth ++ "\x7d"
  | .list [] => "[]"
  | .object [] => "\x7b\x7d"
  | .null => "null"
  | .bool b => if b then "true" else "false"
  | .int n => toString n
  | .text s => quote s

def indentedItems (depth : Nat) : List Json → List String
  | [] => []
  | v :: rest => (margin depth ++ indented depth v) :: indentedItems depth rest

def indentedFields (depth : Nat) : List (String × Json) → List String
  | [] => []
  | (k, v) :: rest =>
    (margin depth ++ quote k ++ ": " ++ indented depth v) :: indentedFields depth rest

end

def field? (key : String) : Json → Option Json
  | .object fields => fields.lookup key
  | _ => none

end Json

end Surd
