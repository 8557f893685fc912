import Surd.CommandLine.Arguments
import Surd.CommandLine.Session

/-!
# Runs of the program

A run prints the version, answers the input of the command line, or holds a session over the lines
of the standard input. Its exit code is zero if all inputs succeed, one if one of them fails, and
two if the command line cannot be understood.
-/

namespace Surd.CommandLine

def versionText : String := "0.3.0"

structure Outcome where
  exitCode : Nat
  text : String
deriving DecidableEq, Repr

namespace Answer

def outcome (a : Answer) : Outcome := ⟨if a.ok then 0 else 1, a.text⟩

end Answer

def usage : String :=
  Output.line
      "usage: rootcalc [-h] [-e EVAL] [--format json|human] [-a | -u | -l] [-p PRECISION] [-v]"
    ++ Output.line "                [--log-level DEBUG|INFO|WARNING|ERROR] [--log-file LOG_FILE]"

namespace Request

/-- How the request wants inputs to be answered. A precision that is not positive does not count. -/
def mode (cfg : Settings) (r : Request) : Except Failure Mode := do
  let f ← Format.ofSettings cfg
  let precision := (r.precision.filter (0 < ·)).getD f.precision
  pure { settings := cfg, format := ⟨r.style.getD f.style, precision⟩, output := r.output }

end Request

/-! ## Single inputs -/

/-- An input without a prompt that was copied with it. -/
def withoutPrompt (s : List Char) : List Char :=
  let text := Text.trim s
  if ['>', '>', '>'].isPrefixOf text then Text.trim (text.drop 3) else text

def isVoid (s : List Char) : Bool := s.isEmpty || s == ['=']

def single (m : Mode) (s : List Char) : Except Failure Answer :=
  let text := withoutPrompt s
  if isVoid text then
    pure ⟨Output.line "Error: Empty input. Please enter a valid expression or equation.", false⟩
  else m.answer text

def singleTrace (m : Mode) (s : List Char) : List Entry :=
  let text := withoutPrompt s
  if isVoid text then []
  else .debug "cli" ("Evaluating --eval input " ++ Trace.quote text) :: m.trace text

/-! ## Runs -/

def runRequest (cfg : Settings) (r : Request) (lines : List (List Char)) : Except Failure Outcome :=
  if r.help then pure ⟨0, usage⟩
  else if r.version then pure ⟨0, Output.line versionText⟩
  else do
    let m ← r.mode cfg
    let a ← match r.input with
      | some s => single m s
      | none => Session.run m lines
    pure a.outcome

/-- What a run prints, for its arguments and the lines of the standard input. -/
def run (cfg : Settings) (args : List (List Char)) (lines : List (List Char)) :
    Except Failure Outcome :=
  match Request.read args with
  | none => pure ⟨2, ""⟩
  | some r => runRequest cfg r lines

def requestTrace (cfg : Settings) (r : Request) (lines : List (List Char)) : List Entry :=
  if r.help || r.version then []
  else Trace.onSuccess (r.mode cfg) fun m =>
    match r.input with
    | some s => singleTrace m s
    | none => Session.trace m lines

/-- What a run writes into its journal: the entries of at least the level of the request. -/
def trace (cfg : Settings) (args : List (List Char)) (lines : List (List Char)) : List Entry :=
  match Request.read args with
  | none => []
  | some r =>
    (requestTrace cfg r lines).filter fun e => r.logLevel.weight ≤ e.level.weight

end Surd.CommandLine
