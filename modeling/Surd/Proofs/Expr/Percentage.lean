import Mathlib
import Surd.Proofs.Expr.Unchanged

/-!
# Percentages of numbers

A percentage takes the digits right before its sign, with a point and the digits before that. So a number in
front of the sign is put in parentheses as a whole exactly if it has no exponent and a digit on each side of its
point, or no point: `prepare_percentage`.
-/

namespace Surd.Input

open Text Brackets

/-! ## Numbers -/

structure DigitRun where
  chars : List Char
  nonempty : chars ≠ []
  digits : ∀ c ∈ chars, isDigit c = true

inductive Mantissa where
  | whole (n : DigitRun)
  | point (n f : DigitRun)
  | trailing (n : DigitRun)
  | leading (f : DigitRun)

def Mantissa.text : Mantissa → List Char
  | whole n => n.chars
  | point n f => n.chars ++ '.' :: f.chars
  | trailing n => n.chars ++ ['.']
  | leading f => '.' :: f.chars

inductive ExponentSign where
  | unwritten | plus | minus

def ExponentSign.text : ExponentSign → List Char
  | unwritten => []
  | plus => ['+']
  | minus => ['-']

structure ExponentPart where
  capital : Bool
  sign : ExponentSign
  power : DigitRun

def ExponentPart.letter (e : ExponentPart) : Char := if e.capital then 'E' else 'e'

def ExponentPart.mark (e : ExponentPart) : List Char := e.letter :: e.sign.text

structure NumberLiteral where
  mantissa : Mantissa
  exponent : Option ExponentPart

def NumberLiteral.text (l : NumberLiteral) : List Char :=
  l.mantissa.text ++ match l.exponent with
    | none => []
    | some e => e.mark ++ e.power.chars

/-! ## Their percentages -/

def hundredth (s : List Char) : List Char := '(' :: (s ++ ['/', '1', '0', '0', ')'])

def Mantissa.percentage : Mantissa → List Char
  | whole n => hundredth n.chars
  | point n f => hundredth (n.chars ++ '.' :: f.chars)
  | trailing n => n.chars ++ ['.', '%']
  | leading f => '.' :: hundredth f.chars

/-- Only what stands last in the number is divided, and nothing after a point at its end. -/
def NumberLiteral.percentage (l : NumberLiteral) : List Char :=
  match l.exponent with
  | none => l.mantissa.percentage
  | some e => l.mantissa.text ++ e.mark ++ hundredth e.power.chars

theorem DigitRun.exists_cons (n : DigitRun) :
    ∃ c s, n.chars = c :: s ∧ isDigit c = true ∧ ∀ d ∈ s, isDigit d = true := by
  obtain ⟨c, s, hn⟩ := List.exists_cons_of_ne_nil n.nonempty
  have hdigits := n.digits
  rw [hn, List.forall_mem_cons] at hdigits
  exact ⟨c, s, hn, hdigits⟩

/-- A number does not begin with a parenthesis. -/
theorem Mantissa.text_ne_parenthesis (m : Mantissa) (u v : List Char) : m.text ++ u ≠ '(' :: v := by
  have hdigits : ∀ (n : DigitRun) (u : List Char), n.chars ++ u ≠ '(' :: v := fun n u h => by
    obtain ⟨c, s, hn, hc, -⟩ := n.exists_cons
    rw [hn] at h
    cases h
    exact absurd hc (by decide)
  cases m with
  | whole n => exact hdigits n u
  | point n f => simpa [text] using hdigits n ('.' :: (f.chars ++ u))
  | trailing n => simpa [text] using hdigits n ('.' :: u)
  | leading f => simp [text]

theorem NumberLiteral.percentage_eq_hundredth_iff (l : NumberLiteral) : l.percentage = hundredth l.text ↔
    l.exponent = none ∧ ((∃ n, l.mantissa = .whole n) ∨ ∃ n f, l.mantissa = .point n f) := by
  obtain ⟨m, e⟩ := l
  cases e with
  | some e => simpa [percentage, hundredth] using m.text_ne_parenthesis _ _
  | none =>
    cases m with
    | whole n => simp [percentage, text, Mantissa.percentage, Mantissa.text]
    | point n f => simp [percentage, text, Mantissa.percentage, Mantissa.text]
    | trailing n =>
      have hne := (Mantissa.trailing n).text_ne_parenthesis ['%']
      simp only [Mantissa.text, List.append_assoc, List.singleton_append] at hne
      simp [percentage, Mantissa.percentage, hundredth, hne]
    | leading f => simp [percentage, Mantissa.percentage, hundredth]

/-! ## Finding the percentage -/

section
variable {v : List Char}

theorem expandPercent_nil : expandPercent [] = [] := by rw [expandPercent]

theorem expandPercent_cons {c : Char} (hc : isDigit c = false) : expandPercent (c :: v) = c :: expandPercent v := by
  rw [expandPercent, if_neg (by simp [hc])]

theorem expandPercent_other {u : List Char} (hu : ∀ c ∈ u, isDigit c = false) :
    expandPercent (u ++ v) = u ++ expandPercent v := by
  induction u with
  | nil => rfl
  | cons c u ih =>
    rw [List.cons_append, expandPercent_cons (hu c (by simp)), ih fun d hd => hu d (by simp [hd]), List.cons_append]

theorem expandPercent_digits (n : DigitRun) (hv : ∀ c ∈ v.head?, isDigit c = false) :
    expandPercent (n.chars ++ v) = match afterPercentDigits v with
      | some (fraction, more) => hundredth (n.chars ++ fraction) ++ expandPercent more
      | none => n.chars ++ expandPercent v := by
  obtain ⟨c, s, hn, hc, hs⟩ := n.exists_cons
  have htake := takeWhile_append_stop hs hv
  have hdrop := dropWhile_append_stop hs hv
  rw [hn, List.cons_append, expandPercent, if_pos hc]
  simp only [htake, hdrop]
  split
  · rename_i fraction more hsome
    rw [hdrop] at hsome
    simp [hsome, hundredth]
  · rename_i hnone
    rw [hdrop] at hnone
    simp [hnone]

theorem expandPercent_whole (n : DigitRun) :
    expandPercent (n.chars ++ '%' :: v) = hundredth n.chars ++ expandPercent v := by
  rw [expandPercent_digits n (by simp; decide)]
  simp [afterPercentDigits]

theorem expandPercent_point (n f : DigitRun) :
    expandPercent (n.chars ++ '.' :: (f.chars ++ '%' :: v)) =
      hundredth (n.chars ++ '.' :: f.chars) ++ expandPercent v := by
  have hstop : ∀ c ∈ ('%' :: v).head?, isDigit c = false := by simp; decide
  have hafter : afterPercentDigits ('.' :: (f.chars ++ '%' :: v)) = some ('.' :: f.chars, v) := by
    obtain ⟨c, s, hf, -⟩ := f.exists_cons
    simp only [afterPercentDigits, takeWhile_append_stop f.digits hstop, dropWhile_append_stop f.digits hstop]
    rw [hf]
    rfl
  rw [expandPercent_digits n (by simp; decide), hafter]

/-! ## Digits that no percent sign follows -/

theorem expandPercent_before (n : DigitRun) {c : Char} (hc : isDigit c = false)
    (hnone : afterPercentDigits (c :: v) = none) :
    expandPercent (n.chars ++ c :: v) = n.chars ++ c :: expandPercent v := by
  rw [expandPercent_digits n (by simpa using hc), hnone, expandPercent_cons hc]

theorem expandPercent_point_before (n : DigitRun)
    (h : v.takeWhile isDigit = [] ∨ (v.dropWhile isDigit).head? ≠ some '%') :
    expandPercent (n.chars ++ '.' :: v) = n.chars ++ '.' :: expandPercent v := by
  refine expandPercent_before n (by decide) ?_
  rw [← Option.not_isSome_iff_eq_none, isSome_afterPercentDigits]
  simp only [List.head?_cons, List.tail_cons]
  grind

theorem Mantissa.expandPercent_text (m : Mantissa) {c : Char} (hc : isDigit c = false) (hne : c ≠ '%' ∧ c ≠ '.') :
    expandPercent (m.text ++ c :: v) = m.text ++ c :: expandPercent v := by
  have hrun : ∀ n : DigitRun, expandPercent (n.chars ++ c :: v) = n.chars ++ c :: expandPercent v := fun n => by
    refine expandPercent_before n hc ?_
    simp [← Option.not_isSome_iff_eq_none, isSome_afterPercentDigits, hne]
  cases m with
  | whole n => exact hrun n
  | point n f =>
    have hstop : ∀ d ∈ (c :: v).head?, isDigit d = false := by simpa using hc
    have hpoint := expandPercent_point_before n (v := f.chars ++ c :: v) (.inr (by
      simp [dropWhile_append_stop f.digits hstop, hne]))
    simpa [text, hrun f] using hpoint
  | trailing n =>
    have hpoint := expandPercent_point_before n (v := c :: v) (.inl (by simp [hc]))
    simpa [text, expandPercent_cons hc] using hpoint
  | leading f =>
    have hpoint : isDigit '.' = false := by decide
    simp [text, expandPercent_cons hpoint, hrun f]

end

theorem Mantissa.expandPercent_percentage (m : Mantissa) : expandPercent (m.text ++ ['%']) = m.percentage := by
  cases m with
  | whole n => simp [text, percentage, expandPercent_whole, expandPercent_nil]
  | point n f => simp [text, percentage, expandPercent_point, expandPercent_nil]
  | trailing n =>
    have hpercent : isDigit '%' = false := by decide
    have hpoint := expandPercent_point_before n (v := ['%']) (.inl (by simp [hpercent]))
    rw [expandPercent_cons hpercent, expandPercent_nil] at hpoint
    simpa [text, percentage] using hpoint
  | leading f =>
    have hpoint : isDigit '.' = false := by decide
    simp [text, percentage, expandPercent_cons hpoint, expandPercent_whole, expandPercent_nil]

theorem ExponentPart.letter_spec (e : ExponentPart) : isDigit e.letter = false ∧ e.letter ≠ '%' ∧ e.letter ≠ '.' := by
  unfold letter
  cases e.capital with
  | false => exact ⟨by decide, by decide, by decide⟩
  | true => exact ⟨by decide, by decide, by decide⟩

theorem NumberLiteral.expandPercent_percentage (l : NumberLiteral) :
    expandPercent (l.text ++ ['%']) = l.percentage := by
  obtain ⟨m, e⟩ := l
  cases e with
  | none => simpa [text, percentage] using m.expandPercent_percentage
  | some e =>
    have hsign : ∀ c ∈ e.sign.text, isDigit c = false := by
      cases e.sign with
      | unwritten => simp [ExponentSign.text]
      | plus => simpa [ExponentSign.text] using (by decide : isDigit '+' = false)
      | minus => simpa [ExponentSign.text] using (by decide : isDigit '-' = false)
    obtain ⟨hletter, hne⟩ := e.letter_spec
    have htext := m.expandPercent_text (v := e.sign.text ++ (e.power.chars ++ ['%'])) hletter hne
    rw [expandPercent_other hsign, expandPercent_whole, expandPercent_nil] at htext
    simpa [text, percentage, ExponentPart.mark] using htext

/-! ## The rest of the spelling -/

/-- The characters that percentages of numbers are written with. -/
def isWritten (c : Char) : Bool := isDigit c || ['.', '%', 'e', 'E', '+', '-'].contains c

theorem of_isWritten {f : Char → Bool} (hd : ∀ c, isDigit c = true → f c = true)
    (hf : ['.', '%', 'e', 'E', '+', '-'].all f = true) {c : Char} (h : isWritten c = true) : f c = true := by
  rcases Bool.or_eq_true_iff.mp h with h | h
  · exact hd c h
  · exact List.all_eq_true.mp hf c (by simpa using h)

theorem plainSymbol_digit {c : Char} (h : isDigit c = true) : plainSymbol c = [c] := by
  obtain hkeep | ⟨⟨-, -, hc⟩, -⟩ := plainSymbol_inPercentage c
  · exact hkeep
  · rw [h] at hc
    cases hc

theorem superscripts_digit {c : Char} (h : isDigit c = true) : superscripts.lookup c = none := by
  cases hlookup : superscripts.lookup c with
  | none => rfl
  | some d =>
    have hc := of_decide_eq_true (of_superscripts (fun p => isDigit p.1 = false) (by decide) hlookup)
    rw [h] at hc
    cases hc

theorem kept_digit {c : Char} (h : isDigit c = true) : Kept c :=
  ⟨plainSymbol_digit h, fun hroot => absurd (hroot ▸ h) (by decide), superscripts_digit h, isBracket_digit h⟩

theorem prepare_written {cfg : Settings} {s : List Char} (h : ∀ c ∈ s, isWritten c = true) (hne : s ≠ [])
    (hlength : s.length ≤ cfg.maxInputLength) : prepare cfg s = .ok (expandPercent s) := by
  have hkept : ∀ c ∈ s, Kept c := fun c hc => of_decide_eq_true
    (of_isWritten (f := fun c => Kept c) (fun _ hd => decide_eq_true (kept_digit hd)) (by decide) (h c hc))
  have hblank : ∀ c ∈ s, isBlank c = false := fun c hc => of_decide_eq_true
    (of_isWritten (f := fun c => isBlank c = false) (fun _ hd => decide_eq_true (isBlank_of_isDigit hd)) (by decide)
      (h c hc))
  have htrim : trim s = s := trim_of_ends (fun c hc => hblank c (List.mem_of_mem_head? hc)) fun c hc =>
    hblank c (List.mem_of_mem_getLast? hc)
  have hforbidden : forbidden? s = none := forbidden?_of_chars (p := isWritten) (by decide) fun c hc =>
    of_isWritten (f := fun c => isWritten (lowerChar c)) (fun d hd => by simp [lowerChar_digit hd, isWritten, hd])
      (by decide) (h c hc)
  exact prepare_kept hkept hne htrim hlength hforbidden

/-! ## Percentages of literals -/

theorem DigitRun.isWritten_chars (n : DigitRun) : ∀ c ∈ n.chars, isWritten c = true := fun c hc => by
  simp [isWritten, n.digits c hc]

theorem NumberLiteral.isWritten_text (l : NumberLiteral) : ∀ c ∈ l.text, isWritten c = true := by
  obtain ⟨m, e⟩ := l
  have hpoint : isWritten '.' = true := rfl
  refine List.forall_mem_append.mpr ⟨?_, ?_⟩
  · cases m with
    | whole n => exact n.isWritten_chars
    | point n f => simpa [Mantissa.text, or_imp, forall_and, hpoint] using ⟨n.isWritten_chars, f.isWritten_chars⟩
    | trailing n => simpa [Mantissa.text, or_imp, forall_and, hpoint] using n.isWritten_chars
    | leading f => simpa [Mantissa.text, hpoint] using f.isWritten_chars
  · cases e with
    | none => exact nofun
    | some e =>
      obtain ⟨capital, sign, n⟩ := e
      refine List.forall_mem_append.mpr ⟨List.forall_mem_cons.mpr ⟨?_, ?_⟩, n.isWritten_chars⟩
      · cases capital with
        | false => rfl
        | true => rfl
      · cases sign with
        | unwritten => exact nofun
        | plus => simp [ExponentSign.text, isWritten]
        | minus => simp [ExponentSign.text, isWritten]

/-- A number with a percent sign is accepted, and it is divided as a whole exactly if it has no exponent and
begins and ends with a digit. -/
theorem prepare_percentage (cfg : Settings) (l : NumberLiteral) (h : (l.text ++ ['%']).length ≤ cfg.maxInputLength) :
    prepare cfg (l.text ++ ['%']) = .ok l.percentage ∧
      (prepare cfg (l.text ++ ['%']) = .ok (hundredth l.text) ↔
        l.exponent = none ∧ ((∃ n, l.mantissa = .whole n) ∨ ∃ n f, l.mantissa = .point n f)) := by
  have hwritten : ∀ c ∈ l.text ++ ['%'], isWritten c = true :=
    List.forall_mem_append.mpr ⟨l.isWritten_text, by simp [isWritten]⟩
  have hprepare : prepare cfg (l.text ++ ['%']) = .ok l.percentage := by
    rw [prepare_written hwritten (by simp) h, l.expandPercent_percentage]
  rw [← l.percentage_eq_hundredth_iff, hprepare]
  exact ⟨rfl, by rw [Except.ok.injEq]⟩

def DigitRun.twelve : DigitRun := ⟨['1', '2'], by decide, by simp; decide⟩

def DigitRun.five : DigitRun := ⟨['5'], by decide, by simp; decide⟩

theorem prepare_percentage_fraction :
    prepare {} ['1', '2', '.', '5', '%'] = .ok ['(', '1', '2', '.', '5', '/', '1', '0', '0', ')'] := by
  have hiff := (prepare_percentage {} ⟨.point .twelve .five, none⟩ (by decide)).2
  exact hiff.mpr ⟨rfl, .inr ⟨.twelve, .five, rfl⟩⟩

/-- Of `1e5%` only the exponent is divided. -/
theorem prepare_percentage_exponent :
    prepare {} ['1', 'e', '5', '%'] = .ok ['1', 'e', '(', '5', '/', '1', '0', '0', ')'] ∧
      prepare {} ['1', 'e', '5', '%'] ≠ .ok (hundredth ['1', 'e', '5']) := by
  have hspell : spellOut ['1', 'e', '5', '%'] = ['1', 'e', '(', '5', '/', '1', '0', '0', ')'] := by cbv
  have hprepare : prepare {} ['1', 'e', '5', '%'] = .ok ['1', 'e', '(', '5', '/', '1', '0', '0', ')'] := by
    have htrim : trim ['1', 'e', '5', '%'] = ['1', 'e', '5', '%'] := by decide
    rw [prepare_eq_ok_iff, htrim, hspell]
    exact ⟨by decide, by decide, by decide, by decide, rfl⟩
  refine ⟨hprepare, fun hwhole => ?_⟩
  rw [hprepare] at hwhole
  exact absurd (Except.ok.inj hwhole) (by decide)

end Surd.Input
