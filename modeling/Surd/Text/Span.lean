/-!
# Spans of code points

A character class beyond ASCII is a list of spans, both ends included.
-/

namespace Surd.Text

def inSpans (spans : List (Nat × Nat)) (c : Char) : Bool :=
  spans.any fun s => s.1 ≤ c.toNat && c.toNat ≤ s.2

end Surd.Text
