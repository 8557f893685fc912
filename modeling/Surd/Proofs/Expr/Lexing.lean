import Mathlib
import Surd.Expr.Token
import Surd.Proofs.Text.Reading
import Surd.Proofs.Text.Writing

/-!
# Reading digits, signs and the imaginary unit

The lexer takes a run of digits for one number, a sign for one mark and a final `i` for the imaginary
unit, and each of them becomes one token (`Reads`).
-/

namespace Surd

namespace Expr

open Text

/-! ## Numbers -/

/-- No form of a number goes on with the text. -/
def EndsNumber (s : List Char) : Prop :=
  ∀ c ∈ s.head?, c.isDigit = false ∧
    c ∉ ['_', '.', 'e', 'E', 'j', 'J', 'x', 'X', 'o', 'O', 'b', 'B']

namespace Lexeme

theorem takeGroups_append {p : Char → Bool} {ds s : List Char} (hds : ∀ c ∈ ds, p c = true ∧ c ≠ '_')
    (hs : ∀ c ∈ s.head?, p c = false ∧ c ≠ '_') : takeGroups p (ds ++ s) = (ds, s) := by
  induction ds with
  | nil =>
    cases s with
    | nil => rfl
    | cons c s =>
      obtain ⟨hc, hscore⟩ := hs c (by simp)
      rw [List.nil_append, takeGroups]
      · simp [hc]
      · simp [hscore]
  | cons c ds ih =>
    obtain ⟨hc, hscore⟩ := hds c (by simp)
    rw [List.cons_append, takeGroups]
    · simp [hc, ih fun b hb => hds b (by simp [hb])]
    · simp [hscore]

theorem takeDigits_append {ds s : List Char} (hne : ds ≠ []) (hds : ∀ c ∈ ds, c.isDigit = true)
    (hs : ∀ c ∈ s.head?, c.isDigit = false ∧ c ≠ '_') : takeDigits Char.isDigit (ds ++ s) = (ds, s) := by
  have hscore : ∀ c ∈ ds, c.isDigit = true ∧ c ≠ '_' := fun c hc => ⟨hds c hc, by rintro rfl; simpa using hds _ hc⟩
  cases ds with
  | nil => exact absurd rfl hne
  | cons c ds =>
    have hc : c.isDigit = true := hds c (by simp)
    rw [List.cons_append, takeDigits, if_pos hc, ← List.cons_append, takeGroups_append hscore hs]

theorem takeExponent_of_endsNumber {s : List Char} (hs : EndsNumber s) : takeExponent s = ([], s) := by
  cases s with
  | nil => rfl
  | cons c s =>
    have hc := (hs c (by simp)).2
    simp only [List.mem_cons, not_or] at hc
    unfold takeExponent
    exact if_neg (by simp [hc])

theorem takeBased_of_endsNumber {s : List Char} (hs : EndsNumber s) : takeBased s = none := by
  cases s with
  | nil => rfl
  | cons c s =>
    have hc := (hs c (by simp)).2
    simp only [List.mem_cons, not_or] at hc
    simp [takeBased, baseDigit?, hc]

theorem takeInteger_digits {n : Nat} {s : List Char} (hs : EndsNumber s) :
    takeInteger (digits n ++ s) = (digits n, s) := by
  have hplain : ∀ c ∈ s.head?, c.isDigit = false ∧ c ≠ '_' := fun c hc =>
    ⟨(hs c hc).1, fun h => by simpa [h] using (hs c hc).2⟩
  by_cases hn : n = 0
  · subst hn
    have hzero : digits 0 = ['0'] := rfl
    have hnotZero : ∀ c ∈ s.head?, (c == '0') = false ∧ c ≠ '_' := fun c hc =>
      ⟨by simpa using fun h => by simpa [h] using (hplain c hc).1, (hplain c hc).2⟩
    rw [hzero, List.singleton_append, takeInteger, takeBased_of_endsNumber hs]
    exact @takeGroups_append (· == '0') ['0'] s (by simp) hnotZero
  · have hhead := head?_digits hn
    have hdigits : ∀ c ∈ digits n, c.isDigit = true ∧ c ≠ '_' := fun c hc =>
      ⟨isDigit_of_mem_digits c hc, by rintro rfl; simpa using isDigit_of_mem_digits _ hc⟩
    rw [takeInteger]
    · exact takeGroups_append hdigits hplain
    · rintro rest heq
      cases hd : digits n with
      | nil => exact digits_ne_nil hd
      | cons c ds =>
        rw [hd, List.cons_append] at heq
        rw [hd, (List.cons.inj heq).1] at hhead
        exact hhead rfl

theorem takeNumber_digits {n : Nat} {s : List Char} (hs : EndsNumber s) :
    takeNumber (digits n ++ s) = (digits n, s) := by
  have hplain : ∀ c ∈ s.head?, c.isDigit = false ∧ c ≠ '_' := fun c hc =>
    ⟨(hs c hc).1, fun h => by simpa [h] using (hs c hc).2⟩
  have hdigits := takeDigits_append digits_ne_nil (isDigit_of_mem_digits (n := n)) hplain
  have hexponent := takeExponent_of_endsNumber hs
  have hinteger := takeInteger_digits (n := n) hs
  unfold takeNumber
  rw [hdigits]
  cases s with
  | nil => simpa [hexponent] using hinteger
  | cons c s =>
    have hc := (hs c (by simp)).2
    simp only [List.mem_cons, not_or] at hc
    simp [hc, hexponent, hinteger]

/-! ## Cutting a text -/

/-- The text is cut into the lexemes, outside brackets and whatever stands before it. -/
def Scans (s : List Char) (ls : List Lexeme) : Prop := ∀ fuel ≥ s.length, ∀ gap, scan fuel 0 gap s = some ls

theorem takeMark_sign {c : Char} {s : List Char} (hc : c ∈ ['+', '-', '/'])
    (hs : ∀ d ∈ s.head?, d ∉ ['=', '>', '/']) : takeMark (c :: s) = some ([c], s) := by
  simp only [List.mem_cons, List.not_mem_nil, or_false] at hc
  cases s with
  | nil => rcases hc with rfl | rfl | rfl <;> rfl
  | cons d s =>
    have hd := hs d (by simp)
    simp only [List.mem_cons, List.not_mem_nil, or_false, not_or, eq_comm (a := d)] at hd
    rcases hc with rfl | rfl | rfl
    · simp [takeMark, marks, hd]
    · simp [takeMark, marks, hd]
    · simp [takeMark, marks, hd]

namespace Scans

variable {s : List Char} {ls : List Lexeme} (h : Scans s ls)
include h

theorem blank : Scans (' ' :: s) ls := by
  intro fuel hfuel gap
  obtain ⟨fuel, rfl⟩ : ∃ f, fuel = f + 1 := ⟨fuel - 1, by simp at hfuel; omega⟩
  have hrest := h fuel (by simpa using hfuel) true
  have hgap : isGap ' ' = true := by decide
  rw [scan, if_pos hgap, hrest]

/-- No longer mark begins with the sign. -/
theorem sign {c : Char} (hc : c ∈ ['+', '-', '/']) (hs : ∀ d ∈ s.head?, d ∉ ['=', '>', '/']) :
    Scans (c :: s) (.mark [c] :: ls) := by
  intro fuel hfuel gap
  obtain ⟨fuel, rfl⟩ : ∃ f, fuel = f + 1 := ⟨fuel - 1, by simp at hfuel; omega⟩
  have hrest := h fuel (by simpa using hfuel) false
  have hmark := takeMark_sign hc hs
  simp only [List.mem_cons, List.not_mem_nil, or_false] at hc
  rcases hc with rfl | rfl | rfl
  · simp [scan, isGap, startsNumber, hmark, depthAfter, hrest]
  · simp [scan, isGap, startsNumber, hmark, depthAfter, hrest]
  · simp [scan, isGap, startsNumber, hmark, depthAfter, hrest]

theorem number {n : Nat} (hs : EndsNumber s) : Scans (digits n ++ s) (.number (digits n) :: ls) := by
  intro fuel hfuel gap
  have hnumber := takeNumber_digits (n := n) hs
  have hdigits := isDigit_of_mem_digits (n := n)
  cases hd : digits n with
  | nil => exact absurd hd digits_ne_nil
  | cons c ds =>
    rw [hd] at hnumber hdigits hfuel
    obtain ⟨fuel, rfl⟩ : ∃ f, fuel = f + 1 := ⟨fuel - 1, by simp at hfuel; omega⟩
    have hrest := h fuel (by simp at hfuel; omega) false
    have hc : c.isDigit = true := hdigits c (by simp)
    have hplain : isGap c = false ∧ c ≠ '#' ∧ c ≠ '\n' ∧ c ≠ '.' := of_decide_eq_true
      (of_plainDigits (fun c => isGap c = false ∧ c ≠ '#' ∧ c ≠ '\n' ∧ c ≠ '.') (by decide) hc)
    obtain ⟨hgap, hcomment, hline, hpoint⟩ := hplain
    have hstarts : startsNumber (c :: (ds ++ s)) = true := by
      unfold startsNumber
      split
      · simp_all
      · simp_all
      · simp_all
    rw [List.cons_append] at hnumber ⊢
    simp [scan, hgap, hcomment, hline, hstarts, hnumber, hrest]

end Scans

end Lexeme

namespace Token

/-! ## Tokens of numbers and signs -/

theorem integerLiteral_digits {n : Nat} (hn : (digits n).length ≤ digitLimit) : integerLiteral (digits n) = some n := by
  have hlimit : ¬digitLimit < (digits n).length := Nat.not_lt.mpr hn
  by_cases hzero : n = 0
  · subst hzero
    rfl
  · have hhead := head?_digits hzero
    unfold integerLiteral
    split
    · rename_i heq
      rw [heq] at hhead
      exact absurd rfl hhead
    · rw [if_neg hlimit, natOfDigits_digits]

theorem realLiteral_digits {n : Nat} (hn : (digits n).length ≤ digitLimit) :
    realLiteral (digits n) = some (.value (exact n)) := by
  have hplain : ∀ c ∈ digits n, c ≠ '_' ∧ c ≠ '.' ∧ c ≠ 'e' ∧ c ≠ 'E' := fun c hc => of_decide_eq_true
    (of_plainDigits (fun c => c ≠ '_' ∧ c ≠ '.' ∧ c ≠ 'e' ∧ c ≠ 'E') (by decide) (isDigit_of_mem_digits c hc))
  have hfilter : (digits n).filter (· != '_') = digits n := by
    rw [List.filter_eq_self]
    exact fun c hc => by simpa using (hplain c hc).1
  have hpoint : '.' ∉ digits n := fun h => (hplain _ h).2.1 rfl
  have hexponent : ((digits n).any fun c => c == 'e' || c == 'E') = false := by
    simpa using fun c hc => (hplain c hc).2.2
  have hdecimal : isDecimal (digits n) = false := by
    rw [isDecimal, hexponent]
    simp [hpoint]
  simp [realLiteral, hfilter, hdecimal, integerLiteral_digits hn]

theorem ofNumber_digits {n : Nat} (hn : (digits n).length ≤ digitLimit) :
    ofNumber (digits n) = some [.operand (.value (exact n))] := by
  have hlast : (digits n).getLast? ≠ some 'j' := fun h => by
    have := isDigit_of_mem_digits 'j' (List.mem_of_getLast? h)
    simp at this
  rw [ofNumber, if_neg hlast, realLiteral_digits hn]
  rfl

theorem pointParts?_digits {n : Nat} : pointParts? (digits n) = none := by
  have hpoint : '.' ∉ digits n := fun h => by simpa using isDigit_of_mem_digits _ h
  simp [pointParts?, hpoint]

/-- The lexemes are resolved to the tokens, whatever stands before them. -/
def Resolves (ls : List Lexeme) (ts : List Token) : Prop :=
  ∀ fuel > ls.length, ∀ reversed, resolve fuel reversed 0 ls = some (reversed.reverse ++ ts)

namespace Resolves

variable {ls : List Lexeme} {ts : List Token} (h : Resolves ls ts)
include h

theorem number {n : Nat} (hn : (digits n).length ≤ digitLimit) :
    Resolves (.number (digits n) :: ls) (.operand (.value (exact n)) :: ts) := by
  intro fuel hfuel reversed
  obtain ⟨fuel, rfl⟩ : ∃ f, fuel = f + 1 := ⟨fuel - 1, by simp at hfuel; omega⟩
  have hrest := h fuel (by simpa using hfuel) (.operand (.value (exact n)) :: reversed)
  simp [resolve, takeRepeating, pointParts?_digits, ofNumber_digits hn, hrest]

theorem mark {m : List Char} {t : Token} (hm : ofMark m = some t) (hpoint : m ≠ ['.']) :
    Resolves (.mark m :: ls) (t :: ts) := by
  intro fuel hfuel reversed
  obtain ⟨fuel, rfl⟩ : ∃ f, fuel = f + 1 := ⟨fuel - 1, by simp at hfuel; omega⟩
  have hrest := h fuel (by simpa using hfuel) (t :: reversed)
  have hrepeating : takeRepeating (.mark m :: ls) = none := by
    unfold takeRepeating
    split <;> simp_all
  simp [resolve, hrepeating, hm, hrest]

theorem unit : Resolves (.name ['i'] :: ls) (.named (.value .imaginaryUnit) :: ts) := by
  intro fuel hfuel reversed
  obtain ⟨fuel, rfl⟩ : ∃ f, fuel = f + 1 := ⟨fuel - 1, by simp at hfuel; omega⟩
  have hrest := h fuel (by simpa using hfuel) (.named (.value .imaginaryUnit) :: reversed)
  have hname : ofName ['i'] = some [.named (.value .imaginaryUnit)] := rfl
  simp [resolve, takeRepeating, hname, hrest]

end Resolves

end Token

/-! ## Reading a text -/

/-- The text has the tokens: it is cut into lexemes, and they are resolved. -/
def Reads (s : List Char) (ts : List Token) : Prop := ∃ ls, Lexeme.Scans s ls ∧ Token.Resolves ls ts

namespace Reads

variable {s : List Char} {ts : List Token} (h : Reads s ts)
include h

theorem blank : Reads (' ' :: s) ts := by
  obtain ⟨ls, hscan, hresolve⟩ := h
  exact ⟨ls, hscan.blank, hresolve⟩

theorem number {n : Nat} (hs : EndsNumber s) (hn : (digits n).length ≤ digitLimit) :
    Reads (digits n ++ s) (.operand (.value (exact n)) :: ts) := by
  obtain ⟨ls, hscan, hresolve⟩ := h
  exact ⟨_, hscan.number hs, hresolve.number hn⟩

theorem sign {c : Char} {t : Token} (hc : c ∈ ['+', '-', '/']) (ht : Token.ofMark [c] = some t)
    (hs : ∀ d ∈ s.head?, d ∉ ['=', '>', '/']) : Reads (c :: s) (t :: ts) := by
  obtain ⟨ls, hscan, hresolve⟩ := h
  refine ⟨_, hscan.sign hc hs, hresolve.mark ht ?_⟩
  rintro hpoint
  rw [(List.cons.inj hpoint).1] at hc
  simp at hc

end Reads

end Expr

end Surd
