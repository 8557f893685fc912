/-!
# Entries of the journal

While it works, the calculator writes entries of different levels into a journal. An entry names the
part of the calculator that it is from.
-/

namespace Surd

inductive Level where
  | unset | debug | info | warning | error | critical
deriving DecidableEq, Repr

namespace Level

def name : Level → String
  | .unset => "NOTSET" | .debug => "DEBUG" | .info => "INFO" | .warning => "WARNING"
  | .error => "ERROR" | .critical => "CRITICAL"

def weight : Level → Nat
  | .unset => 0 | .debug => 10 | .info => 20 | .warning => 30 | .error => 40 | .critical => 50

/-- Two levels have a second name. -/
def names : List (String × Level) :=
  [("NOTSET", .unset), ("DEBUG", .debug), ("INFO", .info), ("WARNING", .warning),
   ("WARN", .warning), ("ERROR", .error), ("CRITICAL", .critical), ("FATAL", .critical)]

/-- Upper case, with the two letters beyond ASCII whose upper case is in ASCII. -/
def upper (c : Char) : Char := if c = 'ı' then 'I' else if c = 'ſ' then 'S' else c.toUpper

/-- The level of a name in any case. Other names stand for warnings. -/
def ofName (s : String) : Level := (names.lookup (s.map upper)).getD .warning

end Level

/-- The full name of a part of the calculator. -/
def sourceName (part : String) : String :=
  if part = "rootcalc" then part else "rootcalc." ++ part

structure Entry where
  level : Level
  source : String
  message : String
deriving DecidableEq, Repr

namespace Entry

def line (e : Entry) : String := "[" ++ e.level.name ++ "] " ++ e.source ++ ": " ++ e.message

def debug (part message : String) : Entry := ⟨.debug, sourceName part, message⟩

def warning (part message : String) : Entry := ⟨.warning, sourceName part, message⟩

end Entry

end Surd
