import Surd.Expr.Eval
import Surd.Expr.Meaning
import Surd.Expr.Parser
import Surd.Expr.Prepare

/-!
# Calculations

From the text of an input to its value.
-/

namespace Surd

namespace Expr

/-- The expression that an input says. -/
def read (cfg : Settings) (s : List Char) : Except Failure Expr := do
  let plain ← Input.prepare cfg s
  let text := String.ofList s
  let quoted := String.ofList (Text.quoted s)
  match (parse plain).map (Phrase.meaning false) with
  | some (.ok (.expression x)) => pure x
  | some (.ok (.comparison name)) => pure (.unsupported name)
  | some (.ok (.collection _)) | some (.ok .thing) => throw (.notSingle text quoted)
  | some (.error .zeroModulus) => throw .floatDivisionByZero
  | some (.error .unparsable) | none => throw (.unparsable text quoted)

end Expr

def evaluate (cfg : Settings) (s : List Char) : Except Failure Gaussian := do
  let x ← Expr.read cfg s
  x.eval cfg

end Surd
