import Surd.Binary64.Rounding

/-!
# Constants

Decimal literals stand for the nearest doubles.
-/

namespace Surd.Binary64

instance : OfScientific Binary64 := ⟨fun m s e => ofRat (Rat.ofScientific m s e)⟩

def pi : Binary64 := 3.141592653589793

def e : Binary64 := 2.718281828459045

end Surd.Binary64
