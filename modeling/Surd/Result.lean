import Surd.Json
import Surd.Report

/-!
# Results

What a calculator gives back: a value or the roots of an equation or system, each with its decimal
form, or the wording and the code of a failure. Absent fields are left out of the structured form.
-/

namespace Surd

/-! ## Fields -/

namespace Fields

def optional (key : String) (encode : α → Json) : Option α → List (String × Json)
  | none => []
  | some x => [(key, encode x)]

def texts (xs : List String) : Json := .list (xs.map .text)

def quote (s : String) : String := String.ofList (Text.quoted s.toList)

def truth (b : Bool) : String := if b then "True" else "False"

def quoteOption : Option String → String
  | none => "None"
  | some s => quote s

def quoteList (xs : List String) : String := "[" ++ ", ".intercalate (xs.map quote) ++ "]"

def quoteFields (xs : List (String × String)) : String :=
  "\x7b" ++ ", ".intercalate (xs.map fun (k, v) => quote k ++ ": " ++ quote v) ++ "\x7d"

/-- A field of a display, if it is present. -/
def shown (name : String) (write : α → String) : Option α → List String
  | none => []
  | some x => [name ++ "=" ++ write x]

def display (type : String) (fields : List String) : String :=
  type ++ "(" ++ ", ".intercalate fields ++ ")"

end Fields

open Fields

/-! ## Values -/

structure EvalResult where
  ok : Bool
  result : Option String := none
  approx : Option String := none
  error : Option String := none
  errorCode : Option String := none
deriving DecidableEq, Repr

namespace EvalResult

def ofFailure (f : Failure) : EvalResult :=
  { ok := false, error := f.message, errorCode := f.resultCode }

def fields (r : EvalResult) : List (String × Json) :=
  ("ok", .bool r.ok) :: optional "result" .text r.result ++ optional "approx" .text r.approx
    ++ optional "error" .text r.error ++ optional "error_code" .text r.errorCode

def toJson (r : EvalResult) : Json := .object r.fields

def describe (r : EvalResult) : String :=
  if r.ok then
    display "EvalResult" <|
      "ok=True" :: shown "result" quote r.result ++ shown "approx" quote r.approx
  else
    display "EvalResult"
      ["ok=False", "error=" ++ quoteOption r.error, "error_code=" ++ quoteOption r.errorCode]

end EvalResult

/-! ## Solutions -/

structure SolveResult where
  ok : Bool
  /-- What was solved: an equation or a system. -/
  type : String
  error : Option String := none
  errorCode : Option String := none
  degree : Option Int := none
  exact : Option (List String) := none
  approx : Option (List String) := none
  /-- The values of the unknowns of a system by name. -/
  solutions : Option (List (String × String)) := none
  /-- Present where the roots were found by iteration. -/
  converged : Option Bool := none
  iterations : Option Int := none
deriving DecidableEq, Repr

namespace SolveResult

def ofFailure (type : String) (f : Failure) : SolveResult :=
  { ok := false, type, error := f.message, errorCode := f.resultCode }

def toJson (r : SolveResult) : Json :=
  .object <| ("ok", .bool r.ok) :: ("type", .text r.type) ::
    optional "error" .text r.error ++ optional "error_code" .text r.errorCode
      ++ optional "degree" .int r.degree ++ optional "exact" texts r.exact
      ++ optional "approx" texts r.approx
      ++ optional "solutions" (fun xs => .object (xs.map fun (k, v) => (k, .text v))) r.solutions
      ++ optional "converged" .bool r.converged ++ optional "iterations" .int r.iterations

def describe (r : SolveResult) : String :=
  if r.ok then
    display "SolveResult" <|
      ["ok=True", "result_type=" ++ quote r.type] ++ shown "degree" toString r.degree
        ++ shown "exact" quoteList r.exact ++ shown "approx" quoteList r.approx
        ++ shown "system_solutions" quoteFields r.solutions ++ shown "converged" truth r.converged
  else
    display "SolveResult"
      ["ok=False", "result_type=" ++ quote r.type, "error=" ++ quoteOption r.error,
       "error_code=" ++ quoteOption r.errorCode]

end SolveResult

end Surd
