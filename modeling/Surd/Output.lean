import Surd.Json
import Surd.Text.Quoted

/-!
# Printed results

A result in structured form is printed for readers, or as indented fields.
-/

namespace Surd

inductive OutputKind where
  | human | json
deriving DecidableEq, Repr

namespace Json

/-! ## Plain text -/

mutual

/-- The text of a value inside another. -/
def inner : Json → String
  | .text s => String.ofList (Text.quoted s.toList)
  | .null => "None"
  | .bool b => if b then "True" else "False"
  | .int n => toString n
  | .list items => "[" ++ ", ".intercalate (innerItems items) ++ "]"
  | .object fields => "\x7b" ++ ", ".intercalate (innerFields fields) ++ "\x7d"

def innerItems : List Json → List String
  | [] => []
  | v :: rest => inner v :: innerItems rest

def innerFields : List (String × Json) → List String
  | [] => []
  | (k, v) :: rest =>
    (String.ofList (Text.quoted k.toList) ++ ": " ++ inner v) :: innerFields rest

end

def plain : Json → String
  | .text s => s
  | v => inner v

/-- Whether a value counts as present. -/
def isSet : Json → Bool
  | .null => false
  | .bool b => b
  | .int n => n != 0
  | .text s => !s.isEmpty
  | .list items => !items.isEmpty
  | .object fields => !fields.isEmpty

def items : Json → List Json
  | .list items => items
  | _ => []

end Json

namespace Output

def line (s : String) : String := s ++ "\n"

/-- The value of a field, null if it is absent. -/
def field (key : String) (r : Json) : Json := (r.field? key).getD .null

def rootLine (count : Nat) (index : Nat) (exact approx : Json) : String :=
  let name := if 1 < count then s!"x{index}" else "x"
  let decimal := if approx.plain = exact.plain then "" else s!"  (≈ {approx.plain})"
  line (name ++ " = " ++ exact.plain ++ decimal)

def warning (r : Json) : String :=
  match field "converged" r with
  | .bool false =>
    line ("Warning: not converged after " ++ (field "iterations" r).plain ++ " iterations")
  | _ => ""

def equation (r : Json) : String :=
  let exact := (field "exact" r).items
  let roots := (exact.zip (field "approx" r).items).zipIdx.map fun ((x, y), i) =>
    rootLine exact.length (i + 1) x y
  String.join roots ++ warning r

def system (r : Json) : String := String.join ((field "exact" r).items.map fun x => line x.plain)

def value (r : Json) : String :=
  let exact := field "result" r
  let approx := field "approx" r
  let decimal :=
    if approx.isSet && approx.plain != exact.plain then line ("Decimal: " ++ approx.plain) else ""
  line exact.plain ++ decimal

def human (r : Json) : String :=
  if !(field "ok" r).isSet then line ("Error: " ++ (field "error" r).plain)
  else match r.field? "type" with
  | some (.text "equation") => equation r
  | some (.text "system") => system r
  | _ => value r

/-- What is printed for a result. -/
def print (kind : OutputKind) (r : Json) : String :=
  match kind with
  | .human => human r
  | .json => line (r.indented 0)

end Output

end Surd
