import Surd.Display.Style
import Surd.Journal.Entry
import Surd.Output

/-!
# Command line arguments

Options have long names, which may be cut short, and one-letter names, which may be glued together
and to their value. There are no arguments apart from options and their values.
-/

namespace Surd.CommandLine

/-! ## Options -/

inductive Opt where
  | help | eval | format | style (style : Style) | precision | version | logLevel | logFile
deriving DecidableEq, Repr

namespace Opt

/-- The names of the options. -/
def names : List (List Char × Opt) :=
  [("-h", help), ("--help", help), ("-e", eval), ("--eval", eval), ("--format", format),
   ("-a", style .ascii), ("--ascii", style .ascii), ("-u", style .unicode),
   ("--unicode", style .unicode), ("-l", style .latex), ("--latex", style .latex),
   ("-p", precision), ("--precision", precision), ("-v", version), ("--version", version),
   ("--log-level", logLevel), ("--log-file", logFile)].map fun (name, o) => (name.toList, o)

def named? (s : List Char) : Option Opt := names.lookup s

def takesValue : Opt → Bool
  | .eval | .format | .precision | .logLevel | .logFile => true
  | .help | .style _ | .version => false

end Opt

/-! ## Words -/

/-- A word that is not an option may be the value of one. An option may come with text that is glued
to it, or that stands after an equals sign. -/
inductive Word where
  | plain (s : List Char)
  | option (o : Opt) (isLong : Bool) (glued : Option (Bool × List Char))
  | unknown
  | invalid
deriving DecidableEq, Repr

namespace Word

/-- A text at an equals sign: what is before and after it. -/
def atEquals (s : List Char) : Option (List Char × List Char) :=
  match s.dropWhile (· != '=') with
  | [] => none
  | _ :: after => some (s.takeWhile (· != '='), after)

def isEnd (s : List Char) : Bool := s == [] || s == ['\n']

/-- A minus sign and a decimal number without exponent. -/
def isNegativeNumber : List Char → Bool
  | '-' :: s =>
    let whole := s.takeWhile Text.isDigit
    match s.dropWhile Text.isDigit with
    | '.' :: rest =>
      !(rest.takeWhile Text.isDigit).isEmpty && isEnd (rest.dropWhile Text.isDigit)
    | rest => !whole.isEmpty && isEnd rest
  | _ => false

/-- Words that only look like options are plain: negative numbers and texts with spaces. -/
def unlisted (s : List Char) : Word :=
  if isNegativeNumber s || s.contains ' ' then .plain s else .unknown

/-- A long name that may be cut short. -/
def abbreviated (s : List Char) : Word :=
  let (name, glued) := match atEquals s with
    | some (name, after) => (name, some (true, after))
    | none => (s, none)
  match Opt.names.filter fun (full, _) => name.isPrefixOf full with
  | [] => unlisted s
  | [(_, o)] => .option o true glued
  | _ => .invalid

def ofText (s : List Char) : Word :=
  match s with
  | '-' :: c :: rest =>
    match Opt.named? s, (atEquals s).bind fun (name, after) => (Opt.named? name).map (·, after) with
    | some o, _ => .option o (c == '-') none
    | none, some (o, after) => .option o (c == '-') (some (true, after))
    | none, none =>
      if c = '-' then if rest.isEmpty then .invalid else abbreviated s
      else match Opt.named? ['-', c] with
      | some o => .option o false (some (false, rest))
      | none => unlisted s
  | _ => .plain s

end Word

/-! ## Reading options -/

/-- The options in a word, the last of them with its value if there is one in the word. A flag may
be glued to others only if none of them is long. -/
def unglue (isLong : Bool) (o : Opt) (glued : Option (Bool × List Char)) :
    Option (List Opt × Opt × Option (List Char)) :=
  match glued with
  | none => some ([], o, none)
  | some (equals, text) =>
    if o.takesValue then some ([], o, some text)
    else match text with
    | [] => none
    | c :: rest =>
      if isLong || equals || c == '-' then none
      else match Opt.named? ['-', c], rest with
      | none, _ => none
      | some next, [] => some ([o], next, none)
      | some next, '=' :: value =>
          (unglue false next (some (true, value))).map fun (os, last) => (o :: os, last)
      | some next, d :: more =>
          (unglue false next (some (false, d :: more))).map fun (os, last) => (o :: os, last)
termination_by match glued with
  | none => 0
  | some (_, text) => text.length
decreasing_by all_goals simp only [List.length_cons]; omega

/-- What the options ask for. -/
structure Request where
  help : Bool := false
  version : Bool := false
  input : Option (List Char) := none
  output : OutputKind := .human
  style : Option Style := none
  precision : Option Int := none
  logLevel : Level := .warning
  logFile : Option (List Char) := none
deriving DecidableEq, Repr

namespace Request

/-- The request with a flag. Different styles exclude each other. -/
def withFlag (r : Request) : Opt → Option Request
  | .help => some { r with help := true }
  | .version => some { r with version := true }
  | .style s =>
    match r.style with
    | none => some { r with style := s }
    | some t => if s = t then some r else none
  | _ => none

def withValue (r : Request) (o : Opt) (s : List Char) : Option Request :=
  match o with
  | .eval => some { r with input := s }
  | .logFile => some { r with logFile := s }
  | .precision => (Text.readInt s).toOption.map fun n => { r with precision := n }
  | .format =>
    if s = "json".toList then some { r with output := .json }
    else if s = "human".toList then some { r with output := .human }
    else none
  | .logLevel =>
    ([Level.debug, .info, .warning, .error].find? fun l => l.name.toList = s).map fun l =>
      { r with logLevel := l }
  | _ => none

/-- The request that words add to, where an option may still wait for its value. Help ends the
reading. -/
def addWords (r : Request) (waiting : Option Opt) : List Word → Option Request
  | [] => if waiting.isNone then some r else none
  | .plain s :: rest => do
    let o ← waiting
    let r ← r.withValue o s
    r.addWords none rest
  | .option o isLong glued :: rest =>
    if waiting.isSome then none
    else do
      let (flags, last, value) ← unglue isLong o glued
      let r ← flags.foldlM withFlag r
      if r.help then some r
      else match last.takesValue, value with
      | true, none => r.addWords last rest
      | true, some s => do
        let r ← r.withValue last s
        r.addWords none rest
      | false, _ => do
        let r ← r.withFlag last
        if r.help then some r else r.addWords none rest
  | .unknown :: _ | .invalid :: _ => none

/-- The request of a command line, none if it cannot be understood. -/
def read (args : List (List Char)) : Option Request :=
  let words := args.map Word.ofText
  if words.contains .invalid then none else ({} : Request).addWords none words

end Request

end Surd.CommandLine
