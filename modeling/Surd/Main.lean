import Std.Time.DateTime.Timestamp
import Surd.CommandLine.Run
import Surd.Journal.Time

/-!
# The program

Reads arguments, environment and standard input, and prints what the library answers to them. The
journal goes to the standard error output, and to a file if one is named.
-/

namespace Surd.Program

open CommandLine

def environment : IO (List (String × String)) := do
  let entries ← Settings.variableNames.mapM fun name => do
    let name := Settings.variableStart ++ name
    let value ← IO.getEnv name
    pure (value.map fun v => (name, v))
  pure (entries.filterMap id)

def orThrow (x : Except Failure α) : IO α :=
  match x with
  | .ok a => pure a
  | .error e => throw (IO.userError e.message)

/-- Writes the entries of at least the level of the request, each after the time. -/
def log (r : Request) (entries : List Entry) : IO Unit := do
  for e in entries.filter fun e => r.logLevel.weight ≤ e.level.weight do
    let now ← Std.Time.Timestamp.now
    let time := Time.write (now.toNanosecondsSinceUnixEpoch.val / 1000)
    let line := String.ofList time ++ " " ++ e.line
    IO.eprintln line
    match r.logFile with
    | none | some [] => pure ()
    | some path =>
      let file ← IO.FS.Handle.mk (String.ofList path) .append
      file.putStrLn line

/-- A session over the lines of the standard input. -/
partial def session (r : Request) (m : Mode) (failed : Bool) : IO UInt32 := do
  let output ← IO.getStdout
  output.putStr m.format.style.prompt
  output.flush
  let text ← (← IO.getStdin).getLine
  let code : UInt32 := if failed then 1 else 0
  if text.isEmpty then
    output.putStrLn ""
    return code
  match Line.ofText text.toList with
  | .leave => return code
  | line =>
    log r (line.trace m)
    let a ← orThrow (line.answer m)
    output.putStr a.text
    session r m (failed || !a.ok)

def run (args : List String) : IO UInt32 := do
  let env ← environment
  let cfg ← orThrow (Settings.ofEnvironment env)
  let args := args.map String.toList
  match Request.read args with
  | none =>
    IO.eprint usage
    return 2
  | some r =>
    if r.input.isNone && !r.help && !r.version then
      let m ← orThrow (r.mode cfg)
      IO.print banner
      session r m false
    else
      log r (requestTrace cfg r [])
      let o ← orThrow (runRequest cfg r [])
      IO.print o.text
      return o.exitCode.toUInt32

end Surd.Program

def main (args : List String) : IO UInt32 := Surd.Program.run args
