import Mathlib
import Surd.Equation.Coefficients
import Surd.Proofs.Computation
import Surd.Proofs.Equation.Cleaning
import Surd.Proofs.Rational.Reading

/-!
# Reading a written equation

`terms_written`: the terms that are read are those written, with those of the right side negated.
`monomial_plain`: a plain term is read as its power and its coefficient, signs included.
-/

namespace Surd.Equation

open Text (Spaced)

/-! ## Plain terms -/

theorem Sign.factor_flip (g : Sign) : g.flip.factor = -g.factor := by
  cases g <;> simp [flip, factor]

namespace Term

def plain : Term → List Char := Term.write Sign.plain Body.plain

def flip (t : Term) : Term := { t with sign := t.sign.flip }

theorem power_flip (t : Term) : t.flip.power = t.power := rfl

theorem coefficient_flip (t : Term) : t.flip.coefficient = -t.coefficient := by
  rw [coefficient, coefficient, flip, Sign.factor_flip, neg_mul]

end Term

/-- The terms with those of the right side brought to the left. -/
def Written.allLeft (E : Written) : List Term := E.left.terms ++ E.right.terms.map Term.flip

/-! ## Terms -/

def Term.signed (t : Term) : Signed Body := ⟨t.sign, t.body⟩

def Side.signed (s : Side) : SignedSum Body := ⟨s.bare, s.first.signed, s.rest.map Term.signed⟩

/-- A written equation as two sums of bodies. -/
def Written.balance (E : Written) : Balance Body := ⟨E.left.signed, E.right.signed⟩

theorem Side.write_signed (sign : Sign → Char) (body : Body → List Char) (s : Side) :
    s.signed.write sign body = s.write sign body := by
  rw [SignedSum.write, Side.write, Side.signed, List.flatMap_map]
  rfl

theorem Written.write_balance (sign : Sign → Char) (body : Body → List Char) (E : Written) :
    E.balance.write sign body = E.write sign body := by
  rw [Balance.write, Written.write, Written.balance, Side.write_signed, Side.write_signed]

theorem Written.allLeft_balance (E : Written) : E.balance.allLeft = E.allLeft.map Term.signed := by
  have hterms : ∀ s : Side, s.signed.terms = s.terms.map Term.signed := fun s => rfl
  rw [Balance.allLeft, Written.allLeft, List.map_append, List.map_map, Written.balance, hterms, hterms, List.map_map]
  rfl

theorem terms_written (cfg : Settings) (E : Written) {s : List Char} (h : Spaced s E.text)
    (hlen : s.length ≤ cfg.maxInputLength) : terms cfg s = .ok (E.allLeft.map Term.plain) := by
  have htext : Spaced s (E.balance.write Sign.char Body.spelling.text) := by
    rw [E.write_balance]
    exact h
  rw [Body.spelling.terms_eq cfg E.balance htext hlen, E.allLeft_balance, List.map_map]
  rfl

/-! ## Coefficients and powers -/

theorem Numeral.readInt (n : Numeral) : Text.readInt n.digits = .ok (n.value : Int) := by
  rw [Text.readInt_digits n.nonempty fun c hc => Text.isDigit_of_plain (n.plain c hc),
    if_neg (Nat.not_lt.mpr n.short), Text.map_plainDigit n.plain]
  rfl

theorem Numeral.isDigit_of_mem (n : Numeral) : ∀ c ∈ n.digits, Text.isDigit c = true :=
  fun c hc => Text.isDigit_of_plain (n.plain c hc)

theorem read_slash (cfg : Settings) {u v : List Char} (hu : ∀ c ∈ u, Text.isDigit c = true)
    (hv : ∀ c ∈ v, Text.isDigit c = true) :
    Rational.read cfg (u ++ '/' :: v) = (do
      let n ← Text.readInt u
      let d ← Text.readInt v
      Rational.divInt n d) :=
  Rational.read_slash cfg (fun c hc => ⟨Text.isBlank_of_isDigit (hu c hc), Text.ne_slash_of_isDigit (hu c hc)⟩)
    fun c hc => Text.isBlank_of_isDigit (hv c hc)

theorem Quantity.read (cfg : Settings) (q : Quantity) : Rational.read cfg q.text = .ok q.value := by
  cases q with
  | integer n =>
    have htrim : Text.trim n.digits = n.digits :=
      Text.trim_eq_self fun c hc => Text.isBlank_of_isDigit (n.isDigit_of_mem c hc)
    have hdrop : n.digits.dropWhile (· != '/') = [] :=
      Text.dropWhile_eq_nil fun c hc => Text.ne_slash_of_isDigit (n.isDigit_of_mem c hc)
    unfold Rational.read
    simp only [Quantity.text, htrim, hdrop, n.readInt]
    rfl
  | fraction n d h =>
    have hd : (d.value : Int) ≠ 0 := by exact_mod_cast h
    rw [Quantity.text, read_slash cfg n.isDigit_of_mem d.isDigit_of_mem]
    simp only [n.readInt, d.readInt, bind, Except.bind, Rational.divInt, if_neg hd, Rat.divInt_eq_div]
    rfl

theorem Quantity.coefficient_eq (cfg : Settings) (q : Quantity) (term : List Char) :
    coefficient cfg q.text term = .ok q.value := by
  unfold coefficient
  rw [q.read]
  simp [q.text_ne_nil, pure, Except.pure]

theorem Numeral.power_eq (cfg : Settings) (n : Numeral) (h : (n.value : Int) ≤ cfg.maxDegree) (term : List Char) :
    power cfg n.digits term = .ok n.value := by
  obtain ⟨m, hm⟩ : ∃ m : Nat, cfg.maxDegree = m := ⟨cfg.maxDegree.toNat, by omega⟩
  have hlen : (n.digits.dropWhile (· == '0')).length ≤ (Text.signedDigits cfg.maxDegree).length := by
    rw [hm] at h ⊢
    exact Text.length_dropWhile_le n.plain (by exact_mod_cast h)
  unfold power
  rw [if_neg (Nat.not_lt.mpr hlen), n.readInt]
  simp only [bind, Except.bind, if_neg (Int.not_lt.mpr h)]
  rfl

/-! ## The parts of a plain term -/

/-- What follows a coefficient does not belong to it. -/
def EndsCoefficient (rest : List Char) : Prop := ∀ c ∈ rest.head?, Text.isDigit c = false ∧ c ≠ '/' ∧ c ≠ '.'

theorem takeCoefficient_digits {u rest : List Char} (hu : ∀ c ∈ u, Text.isDigit c = true) (h : EndsCoefficient rest) :
    takeCoefficient (u ++ rest) = (u, rest) := by
  have hstop : ∀ c ∈ rest.head?, Text.isDigit c = false := fun c hc => (h c hc).1
  unfold takeCoefficient
  simp only [Text.takeWhile_append_stop hu hstop, Text.dropWhile_append_stop hu hstop]
  split
  · exact absurd rfl (h '/' rfl).2.1
  · exact absurd rfl (h '.' rfl).2.2
  · rfl

theorem takeCoefficient_slash {u v rest : List Char} (hu : ∀ c ∈ u, Text.isDigit c = true)
    (hv : ∀ c ∈ v, Text.isDigit c = true) (hune : u ≠ []) (hvne : v ≠ []) (h : EndsCoefficient rest) :
    takeCoefficient (u ++ '/' :: (v ++ rest)) = (u ++ '/' :: v, rest) := by
  have hslash : ∀ c ∈ ('/' :: (v ++ rest)).head?, Text.isDigit c = false := by
    rintro c ⟨⟩
    decide
  have hstop : ∀ c ∈ rest.head?, Text.isDigit c = false := fun c hc => (h c hc).1
  unfold takeCoefficient
  simp only [Text.takeWhile_append_stop hu hslash, Text.dropWhile_append_stop hu hslash,
    Text.takeWhile_append_stop hv hstop, Text.dropWhile_append_stop hv hstop]
  simp [hune, hvne]

theorem takeCoefficient_none {rest : List Char} (h : EndsCoefficient rest) : takeCoefficient rest = ([], rest) :=
  takeCoefficient_digits (u := []) (by simp) h

theorem endsCoefficient_unknown (rest : List Char) : EndsCoefficient ('x' :: rest) := by
  intro c hc
  cases hc
  decide

theorem takeCoefficient_unknown (rest : List Char) : takeCoefficient ('x' :: rest) = ([], 'x' :: rest) :=
  takeCoefficient_none (endsCoefficient_unknown rest)

theorem takeCoefficient_quantity (q : Quantity) {rest : List Char} (h : EndsCoefficient rest) :
    takeCoefficient (q.text ++ rest) = (q.text, rest) := by
  cases q with
  | integer n => exact takeCoefficient_digits n.isDigit_of_mem h
  | fraction n d _ =>
    rw [Quantity.text, List.append_assoc, List.cons_append]
    exact takeCoefficient_slash n.isDigit_of_mem d.isDigit_of_mem n.nonempty d.nonempty h

theorem takeCoefficient_quantityText (m : Option Multiplier) {rest : List Char} (h : EndsCoefficient rest) :
    takeCoefficient (Body.quantityText m ++ rest) = (Body.quantityText m, rest) := by
  cases m with
  | none => exact takeCoefficient_none h
  | some m => exact takeCoefficient_quantity m.quantity h

namespace Exponent

def digits : Exponent → Option (List Char)
  | unwritten => none
  | caret n | raised n => some n.digits

theorem takePower_plain (e : Exponent) : takePower e.plain = some e.digits := by
  cases e with
  | unwritten => rfl
  | caret n | raised n =>
    have htake := Text.takeWhile_eq_self n.isDigit_of_mem
    have hdrop := Text.dropWhile_eq_nil n.isDigit_of_mem
    simp [takePower, plain, digits, isEnd, htake, hdrop, n.nonempty]

end Exponent

namespace Body

/-- What `parts` finds in a body. -/
def split : Body → List Char × Bool × Option (List Char)
  | constant q => (q.text, false, none)
  | unknown m _ e => (quantityText m, true, e.digits)

theorem parts_plain (b : Body) : parts b.plain = some b.split := by
  cases b with
  | constant q =>
    have htake := takeCoefficient_quantity q (show EndsCoefficient [] by simp [EndsCoefficient])
    rw [List.append_nil] at htake
    simp [parts, plain, htake, takePower, isEnd, split]
  | unknown m capital e =>
    have htake := takeCoefficient_quantityText m (endsCoefficient_unknown e.plain)
    simp [parts, plain, htake, e.takePower_plain, split]

theorem coefficient_quantityText (cfg : Settings) (m : Option Multiplier) (term : List Char) :
    coefficient cfg (quantityText m) term = .ok (multiplierValue m) := by
  cases m with
  | none => rfl
  | some m => exact m.quantity.coefficient_eq cfg term

end Body

/-! ## Monomials -/

def Term.monomial (t : Term) : Monomial := ⟨t.power, t.coefficient⟩

theorem body_cons (g : Sign) {u : List Char} (hu : u ≠ []) : body (g.plain :: u) = .ok (g.plain == '-', u) := by
  obtain ⟨c, v, rfl⟩ := List.exists_cons_of_ne_nil hu
  rfl

theorem applySign_plain (g : Sign) (q : Rat) : applySign (g.plain == '-') q = g.factor * q := by
  cases g <;> simp [applySign, Sign.plain, Sign.factor]

section
variable (cfg : Settings) (g : Sign) {u digits : List Char} (hu : u ≠ []) {q : Rat}
  (hq : coefficient cfg digits (g.plain :: u) = .ok q)
include hu hq

theorem monomial_constant (hparts : parts u = some (digits, false, none)) (hne : digits ≠ []) :
    monomial cfg (g.plain :: u) = .ok ⟨0, g.factor * q⟩ := by
  unfold monomial
  simp [body_cons g hu, bind, Except.bind, hparts, hne, hq, applySign_plain, pure, Except.pure]

theorem monomial_unknown {e : Exponent} (hparts : parts u = some (digits, true, e.digits))
    (hdeg : (e.power : Int) ≤ cfg.maxDegree) : monomial cfg (g.plain :: u) = .ok ⟨e.power, g.factor * q⟩ := by
  unfold monomial
  simp only [body_cons g hu, bind, Except.bind, hparts, hq, applySign_plain]
  cases e with
  | unwritten => simp [Exponent.digits, Exponent.power, pure, Except.pure]
  | caret n | raised n => simp [Exponent.digits, n.power_eq cfg hdeg, Exponent.power, pure, Except.pure]

end

theorem monomial_plain (cfg : Settings) (t : Term) (h : (t.power : Int) ≤ cfg.maxDegree) :
    monomial cfg t.plain = .ok t.monomial := by
  obtain ⟨g, b⟩ := t
  have hne := Body.spelling.plain_ne_nil b
  cases b with
  | constant q =>
    exact monomial_constant cfg g hne (q.coefficient_eq cfg _) (Body.constant q).parts_plain q.text_ne_nil
  | unknown m capital e =>
    exact monomial_unknown cfg g hne (Body.coefficient_quantityText cfg m _) (Body.unknown m capital e).parts_plain h

theorem Written.forall_allLeft {P : Nat → Prop} (E : Written) (h : ∀ t ∈ E.terms, P t.power) :
    ∀ m ∈ E.allLeft.map Term.monomial, P m.power := by
  simp only [Written.terms, Written.allLeft, List.forall_mem_append, List.forall_mem_map] at h ⊢
  exact h

/-- A written equation is read as the monomials of its terms. -/
theorem monomials_written (cfg : Settings) (E : Written) {s : List Char} (h : Spaced s E.text)
    (hlen : s.length ≤ cfg.maxInputLength) (hdeg : ∀ t ∈ E.terms, (t.power : Int) ≤ cfg.maxDegree) :
    monomials cfg s = .ok (E.allLeft.map Term.monomial) := by
  have hmap : (E.allLeft.map Term.plain).mapM (monomial cfg) = .ok (E.allLeft.map Term.monomial) := by
    have hall := E.forall_allLeft (P := fun k => (k : Int) ≤ cfg.maxDegree) hdeg
    rw [List.mapM_map]
    exact mapM_eq_ok fun t ht => monomial_plain cfg t (hall t.monomial (List.mem_map_of_mem ht))
  rw [monomials, terms_written cfg E h hlen]
  exact hmap

end Surd.Equation
