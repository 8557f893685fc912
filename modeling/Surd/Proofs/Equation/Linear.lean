import Mathlib
import Surd.Gaussian
import Surd.Proofs.Equation.Cleaning
import Surd.Proofs.Gaussian.Field
import Surd.Proofs.Text.Writing

/-!
# Written linear equations

The linear equations that a reader would write down: two sums of signed terms, each a constant or a
variable with an optional coefficient. A variable is a letter, or `x` with an index. An equation has a
text, in each of its spellings, and its sides have values; neither is said through the way texts are read.
-/

namespace Surd.Equation

/-! ## Variables -/

/-- The name of a variable. Places count from zero, indices from one. -/
inductive VariableName where
  | letter (place : Fin 3)
  | indexed (place : Nat)

namespace VariableName

def place : VariableName → Nat
  | letter p => p
  | indexed i => i

def head : VariableName → Char
  | letter 0 | indexed _ => 'x'
  | letter 1 => 'y'
  | letter 2 => 'z'

def index : VariableName → List Char
  | letter _ => []
  | indexed i => Text.digits (i + 1)

/-- The name in lower case. -/
def plain (v : VariableName) : List Char := v.head :: v.index

def text (v : VariableName) (capital : Bool) : List Char :=
  (if capital then v.head.toUpper else v.head) :: v.index

end VariableName

/-! ## Terms -/

/-- A term of a linear equation without its sign. -/
inductive LinearBody where
  | constant (q : Quantity)
  | multiple (m : Option Multiplier) (v : VariableName) (capital : Bool)

namespace LinearBody

def text : LinearBody → List Char
  | constant q => q.text
  | multiple m v capital => Body.multiplierText m ++ v.text capital

/-- The place of the variable, if there is one. -/
def place : LinearBody → Option Nat
  | constant _ => none
  | multiple _ v _ => some v.place

def coefficient : LinearBody → Rat
  | constant q => q.value
  | multiple m _ _ => Body.multiplierValue m

/-- The value where each place has one. -/
def value (xs : Nat → Gaussian) : LinearBody → Gaussian
  | constant q => .ofRat q.value
  | multiple m v _ => .ofRat (Body.multiplierValue m) * xs v.place

/-- The variable, if there is one, is one of the first. -/
def IsWithin (size : Nat) (b : LinearBody) : Prop := ∀ i ∈ b.place, i < size

end LinearBody

/-- The value of a sum of terms. -/
def sumValue (xs : Nat → Gaussian) (s : SignedSum LinearBody) : Gaussian :=
  (s.terms.map fun t => .ofRat t.sign.factor * t.body.value xs).sum

/-! ## Spellings -/

namespace VariableName

theorem head_cases (v : VariableName) : v.head = 'x' ∨ v.head = 'y' ∨ v.head = 'z' := by
  cases v with
  | letter p => fin_cases p <;> decide
  | indexed i => exact .inl rfl

theorem forall_index {P : Char → Prop} (hd : ∀ c, c.isDigit = true → P c) (v : VariableName) :
    ∀ c ∈ v.index, P c := by
  cases v with
  | letter p => simp [index]
  | indexed i => exact fun c hc => hd c (Text.isDigit_of_mem_digits c hc)

theorem forall_plain {P : Char → Prop} (hd : ∀ c, c.isDigit = true → P c) (hc : ∀ c ∈ ['x', 'y', 'z'], P c)
    (v : VariableName) : ∀ c ∈ v.plain, P c := by
  rw [plain, List.forall_mem_cons]
  refine ⟨hc _ ?_, v.forall_index hd⟩
  simpa using v.head_cases

theorem map_text (v : VariableName) (capital : Bool) : (v.text capital).map plainChar = v.plain := by
  have hhead : ∀ c ∈ ['x', 'y', 'z'], plainChar c = c ∧ plainChar c.toUpper = c := by
    simp only [List.forall_mem_cons, List.not_mem_nil, false_implies, implies_true, and_true]
    decide
  have hv := hhead v.head (by simpa using v.head_cases)
  rw [text, List.map_cons, map_plainChar (v.forall_index fun _ h => plainChar_digit h), plain]
  cases capital with
  | false => exact congrArg (· :: v.index) hv.1
  | true => exact congrArg (· :: v.index) hv.2

theorem isSolid_text (v : VariableName) (capital : Bool) : ∀ c ∈ v.text capital, IsSolid c := by
  have hhead : ∀ c ∈ ['x', 'y', 'z'], IsSolid c ∧ IsSolid c.toUpper := by
    simp only [List.forall_mem_cons, List.not_mem_nil, false_implies, implies_true, and_true]
    decide
  have hv := hhead v.head (by simpa using v.head_cases)
  rw [text, List.forall_mem_cons]
  refine ⟨?_, v.forall_index fun _ h => isSolid_digit h⟩
  cases capital with
  | false => exact hv.1
  | true => exact hv.2

theorem keeps_dropStars (v : VariableName) : Rewrites dropStarsAfter v.index v.index :=
  .refl_of_forall (v.forall_index fun _ h => Equation.keeps_dropStars (ne_star_of_isDigit h))

end VariableName

namespace LinearBody

def lowered : LinearBody → List Char
  | constant q => q.text
  | multiple m v _ => Body.multiplierText m ++ v.plain

/-- In lower case, without a star. -/
def plain : LinearBody → List Char
  | constant q => q.text
  | multiple m v _ => Body.quantityText m ++ v.plain

theorem forall_plain {P : Char → Prop} (hd : ∀ c, c.isDigit = true → P c) (hc : ∀ c ∈ ['/', 'x', 'y', 'z'], P c)
    (b : LinearBody) : ∀ c ∈ b.plain, P c := by
  have hs := hc '/' (by simp)
  cases b with
  | constant q => exact q.forall_text hd hs
  | multiple m v capital =>
    rw [plain, List.forall_mem_append]
    exact ⟨Body.forall_quantityText hd hs m, v.forall_plain hd fun c h => hc c (List.mem_cons_of_mem _ h)⟩

theorem isSolid_text (b : LinearBody) : ∀ c ∈ b.text, IsSolid c := by
  have hd : ∀ c, c.isDigit = true → IsSolid c := fun _ h => isSolid_digit h
  have hs : IsSolid '/' := by decide
  cases b with
  | constant q => exact q.forall_text hd hs
  | multiple m v capital =>
    rw [text, List.forall_mem_append]
    exact ⟨Body.forall_multiplierText hd hs (by decide) m, v.isSolid_text capital⟩

theorem map_text (b : LinearBody) : b.text.map plainChar = b.lowered := by
  cases b with
  | constant q => exact q.map_plainChar
  | multiple m v capital => rw [text, List.map_append, Body.map_multiplierText, v.map_text, lowered]

theorem dropStars (b : LinearBody) : Rewrites dropStarsAfter b.lowered b.plain := by
  cases b with
  | constant q => exact q.keeps_dropStars
  | multiple m v capital =>
    have hrewrites := (Body.drops_multiplierStar m v.head_cases).append v.keeps_dropStars
    simpa [lowered, plain, VariableName.plain] using hrewrites

theorem keeps_superscripts (b : LinearBody) : Rewrites Text.lowerSuperscriptsAfter b.plain b.plain := by
  refine .refl_of_forall (b.forall_plain (fun _ h => keeps_superscripts_digit h) ?_)
  simp only [List.forall_mem_cons, List.not_mem_nil, false_implies, implies_true, and_true]
  refine ⟨?_, ?_, ?_, ?_⟩ <;> exact Equation.keeps_superscripts (by decide)

theorem plain_char (b : LinearBody) : ∀ c ∈ b.plain, isSign c = false ∧ c ≠ '=' := by
  refine b.forall_plain (fun c h => ⟨isSign_of_isDigit h, ?_⟩) (by simp [isSign])
  rintro rfl
  exact absurd h (by decide)

theorem plain_last (b : LinearBody) : ∃ c, b.plain.getLast? = some c ∧ c ≠ '^' := by
  have hcaret : ∀ c ∈ b.plain, c ≠ '^' := by
    refine b.forall_plain (fun c h => ?_) (by simp)
    rintro rfl
    exact absurd h (by decide)
  have hne : b.plain ≠ [] := by
    cases b with
    | constant q => exact q.text_ne_nil
    | multiple m v capital => simp [plain, VariableName.plain]
  exact ⟨b.plain.getLast hne, List.getLast?_eq_some_getLast hne, hcaret _ (List.getLast_mem hne)⟩

def spelling : Spelling LinearBody where
  text := text
  lowered := lowered
  starless := plain
  plain := plain
  isSolid_text := isSolid_text
  map_text := map_text
  dropStars := dropStars
  lowerSuperscripts := keeps_superscripts
  plain_char := plain_char
  plain_last := plain_last

end LinearBody

end Surd.Equation
