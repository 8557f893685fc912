import Surd.Calculator
import Surd.Journal.Trace
import Surd.Output
import Surd.Text.Lowercase

/-!
# Sessions

A session answers lines of input one by one, until a line asks to leave it. The answer to a line
does not depend on the lines before it.
-/

namespace Surd.CommandLine

/-! ## Answers -/

/-- What is printed for an input, and whether it succeeded. -/
structure Answer where
  text : String
  ok : Bool
deriving DecidableEq, Repr

/-- How inputs are answered. -/
structure Mode where
  settings : Settings
  format : Format
  output : OutputKind := .human

namespace Mode

def answer (m : Mode) (s : List Char) : Except Failure Answer := do
  let r ← Calculator.process m.settings m.format s
  pure ⟨Output.print m.output r, (Output.field "ok" r).isSet⟩

def trace (m : Mode) (s : List Char) : List Entry := Trace.process m.settings m.format s

end Mode

/-! ## Lines -/

def banner : String := Output.line "rootcalc - type 'help' for usage, 'quit' to exit."

def helpText : String :=
  Output.line "Enter an expression (1/2 + 1/3, sqrt(-4), sind(30)),"
    ++ Output.line "an equation in x (x^2 - 5x + 6 = 0),"
    ++ Output.line "or a linear system separated by commas (x + y = 5, x - y = 1)."
    ++ Output.line "Type 'quit' or 'exit' to leave."

/-- What a line asks for. -/
inductive Line where
  | blank | leave | help
  | input (s : List Char)
deriving DecidableEq, Repr

namespace Line

def ofText (s : List Char) : Line :=
  let text := Text.trim s
  let word := Text.lower text
  if text.isEmpty then .blank
  else if word = "exit".toList ∨ word = "quit".toList then .leave
  else if word = "help".toList then .help
  else .input text

/-- The answer to a line that does not leave. -/
def answer (m : Mode) : Line → Except Failure Answer
  | .blank | .leave => pure ⟨"", true⟩
  | .help => pure ⟨helpText, true⟩
  | .input s => m.answer s

def trace (m : Mode) : Line → List Entry
  | .input s => m.trace s
  | _ => []

end Line

/-! ## Sessions -/

namespace Session

/-- What is printed for the lines, each after a prompt. The end of the input ends the last line. -/
def answers (m : Mode) : List Line → Except Failure Answer
  | [] => pure ⟨m.format.style.prompt ++ "\n", true⟩
  | .leave :: _ => pure ⟨m.format.style.prompt, true⟩
  | line :: rest => do
    let a ← line.answer m
    let others ← answers m rest
    pure ⟨m.format.style.prompt ++ a.text ++ others.text, a.ok && others.ok⟩

def run (m : Mode) (lines : List (List Char)) : Except Failure Answer := do
  let a ← answers m (lines.map Line.ofText)
  pure ⟨banner ++ a.text, a.ok⟩

/-- The entries for the lines up to the first that leaves or cannot be answered. -/
def traces (m : Mode) : List Line → List Entry
  | [] | .leave :: _ => []
  | line :: rest =>
    line.trace m ++ match line.answer m with
      | .ok _ => traces m rest
      | .error _ => []

def trace (m : Mode) (lines : List (List Char)) : List Entry := traces m (lines.map Line.ofText)

end Session

end Surd.CommandLine
