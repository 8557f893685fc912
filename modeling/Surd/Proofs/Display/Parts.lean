import Mathlib
import Surd.Proofs.Display.Words
import Surd.Proofs.Text.Writing

/-!
# Texts of fractions and radicals

The text of a radical is put together from words, as is that of a fraction, and both can be told from
their words (`Part.words_injective`).
-/

namespace Surd

namespace Text

theorem digits_injective : Function.Injective digits := Function.LeftInverse.injective natOfDigits_digits

/-- A minus sign in front of a text that has none itself. -/
theorem sign_append_inj {p q : Prop} [Decidable p] [Decidable q] {u v : List Char} (hu : u.head? ≠ some '-')
    (hv : v.head? ≠ some '-') (h : (if p then ['-'] else []) ++ u = (if q then ['-'] else []) ++ v) :
    (p ↔ q) ∧ u = v := by
  by_cases hp : p <;> by_cases hq : q
  · rw [if_pos hp, if_pos hq] at h
    exact ⟨iff_of_true hp hq, List.append_cancel_left h⟩
  · rw [if_pos hp, if_neg hq, List.nil_append] at h
    exact absurd (by rw [← h]; rfl) hv
  · rw [if_neg hp, if_pos hq, List.nil_append] at h
    exact absurd (by rw [h]; rfl) hu
  · rw [if_neg hp, if_neg hq] at h
    exact ⟨iff_of_false hp hq, h⟩

theorem head?_digits_ne_minus (n : Nat) : (digits n).head? ≠ some '-' := by
  intro h
  have hminus := isDigit_of_mem_digits '-' (List.mem_of_mem_head? h)
  exact absurd hminus (by decide)

theorem signedDigits_injective : Function.Injective signedDigits := by
  intro m n h
  rw [signedDigits_eq, signedDigits_eq] at h
  obtain ⟨hsign, hdigits⟩ := sign_append_inj (head?_digits_ne_minus _) (head?_digits_ne_minus _) h
  have habs := digits_injective hdigits
  omega

/-- A text of digits and of some other characters. -/
def Marked (marks s : List Char) : Prop := ∀ c ∈ s, c.isDigit = true ∨ c ∈ marks

namespace Marked

variable {marks s t : List Char}

theorem of_subset (h : s ⊆ marks) : Marked marks s := fun _ hc => .inr (h hc)

theorem append (hs : Marked marks s) (ht : Marked marks t) : Marked marks (s ++ t) :=
  List.forall_mem_append.mpr ⟨hs, ht⟩

theorem cons {c : Char} (hc : c ∈ marks) (hs : Marked marks s) : Marked marks (c :: s) :=
  List.forall_mem_cons.mpr ⟨.inr hc, hs⟩

theorem mono {more : List Char} (h : Marked marks s) (hsub : marks ⊆ more) : Marked more s := fun c hc =>
  (h c hc).imp_right fun hmark => hsub hmark

theorem notMem (h : Marked marks s) {c : Char} (hdigit : c.isDigit = false) (hc : c ∉ marks) : c ∉ s := fun hmem => by
  rcases h c hmem with hd | hm
  · rw [hd] at hdigit
    cases hdigit
  · exact hc hm

end Marked

theorem marked_digits (marks : List Char) (n : Nat) : Marked marks (digits n) := fun c hc =>
  .inl (isDigit_of_mem_digits c hc)

theorem marked_sign {p : Prop} [Decidable p] : Marked ['-'] (if p then ['-'] else []) := by
  refine .of_subset ?_
  split <;> simp

theorem marked_signedDigits (n : Int) : Marked ['-'] (signedDigits n) := by
  rw [signedDigits_eq]
  exact marked_sign.append (marked_digits _ _)

theorem closed_of_marked {marks s : List Char} (h : Marked marks s)
    (hmarks : ∀ c ∈ [' ', '(', ')', '{', '}'], c ∉ marks) : Closed s := by
  have hdigit : ∀ c ∈ [' ', '(', ')', '{', '}'], c.isDigit = false := by simp
  exact .of_forall fun c hc hmem => h.notMem (hdigit c hmem) (hmarks c hmem) hc

theorem closed_digits (n : Nat) : Closed (digits n) := closed_of_marked (marked_digits [] n) (by simp)

theorem closed_sign {p : Prop} [Decidable p] : Closed (if p then ['-'] else []) := by
  split
  · exact .singleton (by decide)
  · exact .nil

theorem closed_signedDigits (n : Int) : Closed (signedDigits n) := by
  rw [signedDigits_eq]
  exact closed_sign.append (closed_digits _)

end Text

open Text

namespace Display

/-! ## Roots -/

section
variable (style : Style)

/-- What stands before the radical sign. -/
def rootFront (n : Nat) : List Char :=
  if digits n = ['1'] then [] else if style = .ascii then digits n ++ ['*'] else digits n

def rootMark : Style → Char
  | .ascii => 's'
  | .unicode => '√'
  | .latex => '\\'

/-- What stands behind the first character of the radical sign. -/
def rootBack (m : Int) : List Char :=
  match style with
  | .ascii => "qrt(".toList ++ signedDigits m ++ [')']
  | .unicode => signedDigits m
  | .latex => "sqrt".toList ++ braced (signedDigits m)

@[simp] theorem rootBack_ascii (m : Int) : rootBack .ascii m = ['q', 'r', 't', '('] ++ signedDigits m ++ [')'] := by
  delta rootBack
  simp

@[simp] theorem rootBack_unicode (m : Int) : rootBack .unicode m = signedDigits m := rfl

@[simp] theorem rootBack_latex (m : Int) : rootBack .latex m = ['s', 'q', 'r', 't'] ++ braced (signedDigits m) := by
  delta rootBack
  simp

theorem rootText_eq (n : Nat) (m : Int) :
    rootText style (digits n) (signedDigits m) = rootFront style n ++ rootMark style :: rootBack style m := by
  by_cases hone : digits n = ['1'] <;> cases style <;> simp [rootText, rootFront, rootMark, hone]

theorem marked_rootFront (n : Nat) : Marked ['*'] (rootFront style n) := by
  unfold rootFront
  split
  · exact .of_subset (List.nil_subset _)
  · split
    · exact (marked_digits _ n).append (.of_subset (List.Subset.refl _))
    · exact marked_digits _ n

theorem rootMark_notMem_rootFront (n : Nat) : rootMark style ∉ rootFront style n := by
  refine (marked_rootFront style n).notMem ?_ ?_ <;> cases style <;> decide

/-- A character of every radical, which no fraction has. -/
def rootLetter : Style → Char
  | .unicode => '√'
  | _ => 's'

theorem rootLetter_mem_rootText (n : Nat) (m : Int) :
    rootLetter style ∈ rootText style (digits n) (signedDigits m) := by
  rw [rootText_eq]
  refine List.mem_append_right _ ?_
  cases style <;> simp [rootLetter, rootMark]

theorem rootFront_injective : Function.Injective (rootFront style) := by
  intro n n' h
  have hone : digits 1 = ['1'] := by decide
  unfold rootFront at h
  by_cases hn : digits n = ['1'] <;> by_cases hn' : digits n' = ['1']
  · exact digits_injective (hn.trans hn'.symm)
  · rw [if_pos hn, if_neg hn'] at h
    split at h
    · simp at h
    · exact absurd h.symm digits_ne_nil
  · rw [if_neg hn, if_pos hn'] at h
    split at h
    · simp at h
    · exact absurd h digits_ne_nil
  · rw [if_neg hn, if_neg hn'] at h
    split at h
    · exact digits_injective (List.append_cancel_right h)
    · exact digits_injective h

theorem rootBack_injective : Function.Injective (rootBack style) := by
  intro m m' h
  apply signedDigits_injective
  cases style with
  | ascii => exact List.append_cancel_left (List.append_cancel_right h)
  | unicode => exact h
  | latex => exact List.append_cancel_right (List.cons.inj (List.append_cancel_left h)).2

theorem rootText_inj {n n' : Nat} {m m' : Int}
    (h : rootText style (digits n) (signedDigits m) = rootText style (digits n') (signedDigits m')) :
    n = n' ∧ m = m' := by
  rw [rootText_eq, rootText_eq] at h
  obtain ⟨hfront, hback⟩ :=
    append_cons_inj_first h (rootMark_notMem_rootFront style n) (rootMark_notMem_rootFront style n')
  exact ⟨rootFront_injective style hfront, rootBack_injective style hback⟩

theorem closed_rootText (n : Nat) (m : Int) : Closed (rootText style (digits n) (signedDigits m)) := by
  have hroot : Closed (rootMark style :: rootBack style m) := by
    have hm := closed_signedDigits m
    cases style with
    | ascii =>
      have hsplit : rootMark .ascii :: rootBack .ascii m =
          ['s', 'q', 'r', 't'] ++ ('(' :: signedDigits m ++ [')']) := by
        simp [rootMark]
      rw [hsplit]
      exact .append (.of_forall (by simp)) (.bracketed (.inl rfl) (.inl rfl) hm.inner)
    | unicode => exact .cons (by decide) hm
    | latex =>
      have hsplit : rootMark .latex :: rootBack .latex m = ['\\', 's', 'q', 'r', 't'] ++ braced (signedDigits m) := by
        simp [rootMark]
      rw [hsplit]
      exact .append (.of_forall (by simp)) (.bracketed (.inr rfl) (.inr rfl) hm.inner)
  rw [rootText_eq]
  refine .append ?_ hroot
  unfold rootFront
  split
  · exact .nil
  · split
    · exact (closed_digits n).append (.singleton (by decide))
    · exact closed_digits n

/-- The characters of a numerator. -/
def numeratorMarks : List Char := ['-', '+', '−', '*', 's', 'q', 'r', 't', '(', ')', '√', '\\', '{', '}']

theorem marked_rootText (n : Nat) (m : Int) :
    Marked numeratorMarks (rootText style (digits n) (signedDigits m)) := by
  have hm : Marked numeratorMarks (signedDigits m) := (marked_signedDigits m).mono (by decide)
  rw [rootText_eq]
  refine ((marked_rootFront style n).mono (by decide)).append (.cons (by cases style <;> decide) ?_)
  cases style with
  | ascii => exact .append (.append (.of_subset (by simp [numeratorMarks])) hm) (.of_subset (by decide))
  | unicode => exact hm
  | latex =>
    exact .append (.of_subset (by simp [numeratorMarks])) (.append (.cons (by decide) hm) (.of_subset (by decide)))

/-! ## Numerators -/

variable (r : Radical)

/-- The root of a radical with its coefficient, apart from the sign. -/
def rootOf : List Char := rootText style (digits r.coefficient.natAbs) (signedDigits r.radicand)

/-- The words of what stands over the divisor. -/
def numeratorWords : List (List Char) :=
  if r.offset = 0 then [(if r.coefficient < 0 then ['-'] else []) ++ rootOf style r]
  else [signedDigits r.offset, [if r.coefficient < 0 then style.minus else '+'], rootOf style r]

theorem numeratorWords_ne_nil : numeratorWords style r ≠ [] := by
  unfold numeratorWords
  split <;> simp

theorem closed_numeratorWords : ∀ w ∈ numeratorWords style r, Closed w := by
  have hroot : Closed (rootOf style r) := closed_rootText style _ _
  unfold numeratorWords
  split
  · simp only [List.forall_mem_singleton]
    exact closed_sign.append hroot
  · simp only [List.forall_mem_cons]
    refine ⟨closed_signedDigits _, .singleton ?_, hroot, by simp⟩
    cases style <;> split <;> decide

theorem marked_numeratorWords : ∀ w ∈ numeratorWords style r, Marked numeratorMarks w := by
  have hroot : Marked numeratorMarks (rootOf style r) := marked_rootText style _ _
  have hminus : ['-'] ⊆ numeratorMarks := by decide
  unfold numeratorWords
  split
  · simp only [List.forall_mem_singleton]
    exact (marked_sign.mono hminus).append hroot
  · simp only [List.forall_mem_cons]
    refine ⟨(marked_signedDigits _).mono hminus, .cons ?_ (.of_subset (List.nil_subset _)), hroot, by simp⟩
    cases style <;> split <;> decide

variable {style r} in
theorem rootOf_inj {r' : Radical} (h : rootOf style r = rootOf style r')
    (hsign : r.coefficient < 0 ↔ r'.coefficient < 0) : r.coefficient = r'.coefficient ∧ r.radicand = r'.radicand := by
  obtain ⟨habs, hradicand⟩ := rootText_inj style h
  exact ⟨by omega, hradicand⟩

theorem head?_rootOf : (rootOf style r).head? ≠ some '-' := by
  rw [rootOf, rootText_eq]
  cases hfront : rootFront style r.coefficient.natAbs with
  | nil => cases style <;> simp [rootMark]
  | cons c rest =>
    have hmem : c ∈ rootFront style r.coefficient.natAbs := by simp [hfront]
    have hminus := (marked_rootFront style r.coefficient.natAbs).notMem (c := '-') (by decide) (by decide)
    rw [List.cons_append, List.head?_cons, ne_eq, Option.some.injEq]
    rintro rfl
    exact hminus hmem

variable {style r} in
theorem numeratorWords_inj {r' : Radical} (h : numeratorWords style r = numeratorWords style r') :
    r.offset = r'.offset ∧ r.coefficient = r'.coefficient ∧ r.radicand = r'.radicand := by
  unfold numeratorWords at h
  by_cases hr : r.offset = 0 <;> by_cases hr' : r'.offset = 0
  · rw [if_pos hr, if_pos hr', List.singleton_inj] at h
    obtain ⟨hsign, hroot⟩ := sign_append_inj (head?_rootOf style r) (head?_rootOf style r') h
    exact ⟨hr.trans hr'.symm, rootOf_inj hroot hsign⟩
  · rw [if_pos hr, if_neg hr'] at h
    simp at h
  · rw [if_neg hr, if_pos hr'] at h
    simp at h
  · rw [if_neg hr, if_neg hr'] at h
    simp only [List.cons.injEq, and_true] at h
    obtain ⟨hoffset, hsign, hroot⟩ := h
    refine ⟨signedDigits_injective hoffset, rootOf_inj hroot ?_⟩
    have hminus : style.minus ≠ '+' := by cases style <;> decide
    constructor
    · intro hc
      by_contra hc'
      rw [if_pos hc, if_neg hc'] at hsign
      exact hminus hsign
    · intro hc'
      by_contra hc
      rw [if_neg hc, if_pos hc'] at hsign
      exact hminus hsign.symm

/-! ## Radicals -/

/-- A text over a divisor. -/
def divided (s : List Char) (d : Int) : List Char :=
  match style with
  | .latex => latexFraction s (signedDigits d)
  | _ => s ++ '/' :: signedDigits d

theorem latexFraction_eq (s t : List Char) :
    latexFraction s t = ['\\', 'f', 'r', 'a', 'c'] ++ braced s ++ braced t := by
  delta latexFraction
  simp

/-- A text of several words in brackets, which braces take the place of in LaTeX. -/
def enclosed (s : List Char) : List Char := if style = .latex then s else inBrackets s

/-- The words of a radical: those of the numerator if there is no divisor. -/
def radicalWords : List (List Char) :=
  if r.divisor = 1 then numeratorWords style r
  else if r.offset = 0 then
    [(if r.coefficient < 0 then ['-'] else []) ++ divided style (rootOf style r) r.divisor]
  else
    [divided style (enclosed style (unwords (numeratorWords style r))) r.divisor]

variable {style r} in
theorem eq_radicalWords {s : List Char} (h : radical style r = .ok s) : s = unwords (radicalWords style r) := by
  obtain ⟨coefficient, hc, h⟩ := bind_ok_iff.mp h
  obtain ⟨radicand, hm, h⟩ := bind_ok_iff.mp h
  have hroot : rootText style coefficient radicand = rootOf style r := by
    rw [eq_signedDigits hc, eq_signedDigits hm]
    rfl
  dsimp only at h
  rw [hroot] at h
  unfold radicalWords numeratorWords
  by_cases hoffset : r.offset = 0
  · rw [if_pos hoffset] at h
    by_cases hdivisor : r.divisor = 1
    · rw [if_pos hdivisor] at h
      cases h
      simp [hoffset, hdivisor, unwords]
    · rw [if_neg hdivisor] at h
      obtain ⟨d, hd, h⟩ := bind_ok_iff.mp h
      rw [eq_signedDigits hd] at h
      cases h
      cases style <;> simp [hoffset, hdivisor, unwords, divided, overDivisor]
  · rw [if_neg hoffset] at h
    obtain ⟨p, hp, h⟩ := bind_ok_iff.mp h
    rw [eq_signedDigits hp] at h
    by_cases hdivisor : r.divisor = 1
    · rw [if_pos hdivisor] at h
      cases h
      simp [hoffset, hdivisor, unwords]
    · rw [if_neg hdivisor] at h
      obtain ⟨d, hd, h⟩ := bind_ok_iff.mp h
      rw [eq_signedDigits hd] at h
      cases style <;> cases h <;> simp [hoffset, hdivisor, unwords, divided, enclosed, inBrackets]

/-- A character that stands for the division. -/
def divisionMark : Style → Char
  | .latex => 'f'
  | _ => '/'

theorem divisionMark_mem_divided (s : List Char) (d : Int) : divisionMark style ∈ divided style s d := by
  cases style <;> simp [divisionMark, divided, latexFraction_eq]

theorem subset_divided (s : List Char) (d : Int) : s ⊆ divided style s d := by
  intro c hc
  cases style <;> simp [divided, latexFraction_eq, braced, hc]

theorem divisionMark_notMem {w : List Char} (h : Marked numeratorMarks w) : divisionMark style ∉ w := by
  refine h.notMem ?_ ?_ <;> cases style <;> decide

variable {style} in
theorem divided_inj {s t : List Char} {d e : Int} (h : divided style s d = divided style t e) : s = t ∧ d = e := by
  have hslash : ∀ n, '/' ∉ signedDigits n := fun n => (marked_signedDigits n).notMem (by decide) (by decide)
  have hplain : s ++ '/' :: signedDigits d = t ++ '/' :: signedDigits e → s = t ∧ d = e := fun h =>
    (append_cons_inj_last h (hslash d) (hslash e)).imp_right fun hd => signedDigits_injective hd
  cases style with
  | ascii => exact hplain h
  | unicode => exact hplain h
  | latex =>
    have hmarks : ∀ n, Marked ['-', '}'] (signedDigits n ++ ['}']) := fun n =>
      ((marked_signedDigits n).mono (by decide)).append (.of_subset (by decide))
    have hbrace : ∀ n, '{' ∉ signedDigits n ++ ['}'] := fun n => (hmarks n).notMem (by decide) (by decide)
    have hsplit : ∀ (u : List Char) (n : Int), latexFraction u (signedDigits n) =
        (['\\', 'f', 'r', 'a', 'c'] ++ braced u) ++ '{' :: (signedDigits n ++ ['}']) := fun u n => by
      simp [latexFraction_eq, braced]
    simp only [divided, hsplit] at h
    obtain ⟨hs, hd⟩ := append_cons_inj_last h (hbrace d) (hbrace e)
    exact ⟨List.append_cancel_right (List.cons.inj (List.append_cancel_left hs)).2,
      signedDigits_injective (List.append_cancel_right hd)⟩

theorem head?_divided {s : List Char} (h : s.head? ≠ some '-') (d : Int) : (divided style s d).head? ≠ some '-' := by
  have hplain : (s ++ '/' :: signedDigits d).head? ≠ some '-' := by
    cases s with
    | nil => simp
    | cons c s => exact h
  cases style with
  | ascii => exact hplain
  | unicode => exact hplain
  | latex => simp [divided, latexFraction_eq]

theorem closed_divided {s : List Char} (h : Inner s) (hs : style = .latex ∨ Closed s) (d : Int) :
    Closed (divided style s d) := by
  have hd := closed_signedDigits d
  cases style with
  | latex =>
    rw [divided, latexFraction_eq]
    exact .append (.append (.of_forall (by simp)) (.bracketed (.inr rfl) (.inr rfl) h))
      (.bracketed (.inr rfl) (.inr rfl) hd.inner)
  | ascii => exact (hs.resolve_left (by decide)).append (.cons (by decide) hd)
  | unicode => exact (hs.resolve_left (by decide)).append (.cons (by decide) hd)

theorem closed_radicalWords : ∀ w ∈ radicalWords style r, Closed w := by
  have hroot : Closed (rootOf style r) := closed_rootText style _ _
  have hinner : Inner (unwords (numeratorWords style r)) :=
    .unwords fun w hw => (closed_numeratorWords style r w hw).inner
  unfold radicalWords
  split
  · exact closed_numeratorWords style r
  · split
    · rw [List.forall_mem_singleton]
      exact closed_sign.append (closed_divided style hroot.inner (.inr hroot) _)
    · rw [List.forall_mem_singleton]
      unfold enclosed
      split
      · rename_i hlatex
        exact closed_divided style hinner (.inl hlatex) _
      · have hclosed := Closed.bracketed (.inl rfl) (.inl rfl) hinner
        exact closed_divided style hclosed.inner (.inr hclosed) _

theorem radicalWords_ne_nil : radicalWords style r ≠ [] := by
  unfold radicalWords
  split
  · exact numeratorWords_ne_nil style r
  · split <;> simp

/-- The characters of a division. -/
def divisionMarks : List Char := ['-', '/', '\\', 'f', 'r', 'a', 'c', '{', '}']

theorem marked_divided {marks s : List Char} (hs : Marked marks s) (hmarks : divisionMarks ⊆ marks) (d : Int) :
    Marked marks (divided style s d) := by
  have hminus : ['-'] ⊆ divisionMarks := by decide
  have hbrace : ['}'] ⊆ divisionMarks := by decide
  have hcommand : ['\\', 'f', 'r', 'a', 'c'] ⊆ divisionMarks := by decide
  have hd : Marked marks (signedDigits d) := (marked_signedDigits d).mono (List.Subset.trans hminus hmarks)
  have hplain : Marked marks (s ++ '/' :: signedDigits d) := hs.append (.cons (hmarks (by decide)) hd)
  cases style with
  | ascii => exact hplain
  | unicode => exact hplain
  | latex =>
    have hbraced : ∀ {u}, Marked marks u → Marked marks (braced u) := fun hu =>
      (Marked.cons (hmarks (by decide)) hu).append (.of_subset (List.Subset.trans hbrace hmarks))
    have hfrac : Marked marks ['\\', 'f', 'r', 'a', 'c'] := .of_subset (List.Subset.trans hcommand hmarks)
    rw [divided, latexFraction_eq]
    exact (hfrac.append (hbraced hs)).append (hbraced hd)

/-- The characters of a part of a number, apart from blanks. -/
def partMarks : List Char := numeratorMarks ++ divisionMarks

theorem marked_unwords {marks : List Char} {ws : List (List Char)} (h : ∀ w ∈ ws, Marked marks w) :
    Marked (' ' :: marks) (unwords ws) := by
  induction ws with
  | nil => exact .of_subset (List.nil_subset _)
  | cons w ws ih =>
    have hw : Marked (' ' :: marks) w := (h w (by simp)).mono (List.subset_cons_self ..)
    cases ws with
    | nil => exact hw
    | cons w' ws => exact hw.append (.cons (by simp) (ih fun v hv => h v (by simp [hv])))

theorem marked_radicalWords : ∀ w ∈ radicalWords style r, Marked (' ' :: partMarks) w := by
  have hmarks : numeratorMarks ⊆ ' ' :: partMarks := by decide
  have hdivision : divisionMarks ⊆ ' ' :: partMarks := by decide
  unfold radicalWords
  split
  · exact fun w hw => (marked_numeratorWords style r w hw).mono hmarks
  · split
    · rw [List.forall_mem_singleton]
      have hroot : Marked (' ' :: partMarks) (rootOf style r) := (marked_rootText style _ _).mono hmarks
      exact (marked_sign.mono (by decide)).append (marked_divided style hroot hdivision _)
    · rw [List.forall_mem_singleton]
      have hnumerator : Marked (' ' :: partMarks) (unwords (numeratorWords style r)) :=
        (marked_unwords (marked_numeratorWords style r)).mono (by decide)
      refine marked_divided style ?_ hdivision _
      unfold enclosed
      split
      · exact hnumerator
      · exact .append (.cons (by decide) hnumerator) (.of_subset (by decide))

theorem exists_rootLetter_mem : ∃ w ∈ radicalWords style r, rootLetter style ∈ w := by
  have hroot : rootLetter style ∈ rootOf style r := rootLetter_mem_rootText style _ _
  unfold radicalWords
  split
  · unfold numeratorWords
    split
    · exact ⟨_, List.mem_singleton_self _, List.mem_append_right _ hroot⟩
    · exact ⟨rootOf style r, by simp, hroot⟩
  · split
    · exact ⟨_, List.mem_singleton_self _, List.mem_append_right _ (subset_divided style _ _ hroot)⟩
    · rename_i hoffset
      have hnumerator : rootLetter style ∈ unwords (numeratorWords style r) := by
        rw [numeratorWords, if_neg hoffset]
        simp [unwords, hroot]
      refine ⟨_, List.mem_singleton_self _, subset_divided style _ _ ?_⟩
      unfold enclosed
      split
      · exact hnumerator
      · exact List.mem_cons_of_mem _ (List.mem_append_left _ hnumerator)

/-! ## Telling radicals apart -/

theorem divisor_eq_one_iff : r.divisor = 1 ↔ ∀ w ∈ radicalWords style r, divisionMark style ∉ w := by
  have hmem := divisionMark_mem_divided style
  unfold radicalWords
  constructor
  · intro h w hw
    rw [if_pos h] at hw
    exact divisionMark_notMem style (marked_numeratorWords style r w hw)
  · intro h
    by_contra hdivisor
    rw [if_neg hdivisor] at h
    split at h
    · exact (List.forall_mem_singleton.mp h) (List.mem_append_right _ (hmem _ _))
    · exact (List.forall_mem_singleton.mp h) (hmem _ _)

/-- Only an offset brings blanks into the text of a radical. -/
theorem offset_eq_zero_iff : r.offset = 0 ↔ ' ' ∉ unwords (radicalWords style r) := by
  unfold radicalWords
  constructor
  · intro h
    have hroot : Marked partMarks (rootOf style r) := (marked_rootText style _ _).mono (List.subset_append_left ..)
    have hsign : Marked partMarks (if r.coefficient < 0 then ['-'] else []) := marked_sign.mono (by decide)
    rw [numeratorWords, if_pos h, if_pos h]
    split
    · exact (hsign.append hroot).notMem (by decide) (by decide)
    · exact (hsign.append (marked_divided style hroot (by decide) _)).notMem (by decide) (by decide)
  · intro h
    by_contra hoffset
    rw [numeratorWords, if_neg hoffset, if_neg hoffset] at h
    split at h
    · simp [unwords] at h
    · refine h (subset_divided style _ _ ?_)
      unfold enclosed
      split <;> simp [unwords, inBrackets]

theorem enclosed_injective : Function.Injective (enclosed style) := by
  intro s t h
  unfold enclosed at h
  split at h
  · exact h
  · exact (List.cons.inj (List.append_cancel_right h)).2

variable {style r} in
theorem radicalWords_inj {r' : Radical} (h : radicalWords style r = radicalWords style r') : r = r' := by
  have hone : r.divisor = 1 ↔ r'.divisor = 1 := by
    rw [divisor_eq_one_iff style, divisor_eq_one_iff style, h]
  have hzero : r.offset = 0 ↔ r'.offset = 0 := by
    rw [offset_eq_zero_iff style, offset_eq_zero_iff style, h]
  suffices hfields : (r.offset = r'.offset ∧ r.coefficient = r'.coefficient ∧ r.radicand = r'.radicand) ∧
      r.divisor = r'.divisor by
    obtain ⟨⟨hp, hc, hm⟩, hd⟩ := hfields
    cases r
    cases r'
    simp only at hp hc hm hd
    rw [hp, hc, hm, hd]
  by_cases hdivisor : r.divisor = 1
  · have hdivisor' := hone.mp hdivisor
    rw [radicalWords, radicalWords, if_pos hdivisor, if_pos hdivisor'] at h
    exact ⟨numeratorWords_inj h, hdivisor.trans hdivisor'.symm⟩
  rw [radicalWords, radicalWords, if_neg hdivisor, if_neg (mt hone.mpr hdivisor)] at h
  by_cases hoffset : r.offset = 0
  · have hoffset' := hzero.mp hoffset
    rw [if_pos hoffset, if_pos hoffset', List.singleton_inj] at h
    obtain ⟨hsign, hdivided⟩ := sign_append_inj (head?_divided style (head?_rootOf style r) _)
      (head?_divided style (head?_rootOf style r') _) h
    obtain ⟨hroot, hd⟩ := divided_inj hdivided
    exact ⟨⟨hoffset.trans hoffset'.symm, rootOf_inj hroot hsign⟩, hd⟩
  · rw [if_neg hoffset, if_neg (mt hzero.mpr hoffset), List.singleton_inj] at h
    obtain ⟨henclosed, hd⟩ := divided_inj h
    have hwords := unwords_inj (numeratorWords_ne_nil style r) (numeratorWords_ne_nil style r')
      (closed_numeratorWords style r) (closed_numeratorWords style r') (enclosed_injective style henclosed)
    exact ⟨numeratorWords_inj hwords, hd⟩

end

/-! ## Fractions -/

section
variable (style : Style) (x : ℚ)

/-- The word of a fraction. -/
def fractionWord : List Char :=
  if x.den = 1 then signedDigits x.num
  else (if x.num < 0 then ['-'] else []) ++ divided style (digits x.num.natAbs) x.den

variable {x} in
theorem fractionText_eq_divided (hden : x.den ≠ 1) :
    fractionText x = (if x.num < 0 then ['-'] else []) ++ divided .ascii (digits x.num.natAbs) x.den := by
  rw [fractionText, if_neg hden, signedDigits_eq, List.append_assoc]
  rfl

variable {style x} in
theorem eq_fractionWord {s : List Char} (h : fraction style x = .ok s) : s = fractionWord style x := by
  unfold fractionWord
  unfold fraction at h
  by_cases hden : x.den = 1
  · rw [if_pos hden] at h ⊢
    exact eq_signedDigits h
  · rw [if_neg hden] at h ⊢
    cases style with
    | ascii => rw [Rational.eq_fractionText h, fractionText_eq_divided hden]
    | unicode => rw [Rational.eq_fractionText h, fractionText_eq_divided hden]; rfl
    | latex =>
      obtain ⟨n, hn, h⟩ := bind_ok_iff.mp h
      obtain ⟨d, hd, h⟩ := bind_ok_iff.mp h
      rw [eq_signedDigits hn, eq_signedDigits hd] at h
      exact (Except.ok.inj h).symm

theorem closed_fractionWord : Closed (fractionWord style x) := by
  have hdigits := closed_digits x.num.natAbs
  unfold fractionWord
  split
  · exact closed_signedDigits _
  · exact closed_sign.append (closed_divided style hdigits.inner (.inr hdigits) _)

theorem exists_digit_mem : ∃ c ∈ fractionWord style x, c.isDigit = true := by
  obtain ⟨c, hc⟩ := List.exists_mem_of_ne_nil _ (digits_ne_nil (n := x.num.natAbs))
  refine ⟨c, ?_, isDigit_of_mem_digits c hc⟩
  unfold fractionWord
  split
  · rw [signedDigits_eq]
    exact List.mem_append_right _ hc
  · exact List.mem_append_right _ (subset_divided style _ _ hc)

theorem marked_fractionWord : Marked divisionMarks (fractionWord style x) := by
  have hminus : ['-'] ⊆ divisionMarks := by decide
  unfold fractionWord
  split
  · exact (marked_signedDigits _).mono hminus
  · exact (marked_sign.mono hminus).append (marked_divided style (marked_digits _ _) (List.Subset.refl _) _)

theorem den_eq_one_iff : x.den = 1 ↔ divisionMark style ∉ fractionWord style x := by
  unfold fractionWord
  constructor
  · intro h
    rw [if_pos h]
    exact divisionMark_notMem style ((marked_signedDigits _).mono (by decide))
  · intro h
    by_contra hden
    rw [if_neg hden] at h
    exact h (List.mem_append_right _ (divisionMark_mem_divided style _ _))

theorem fractionWord_injective : Function.Injective (fractionWord style) := by
  intro x y h
  have hone : x.den = 1 ↔ y.den = 1 := by
    rw [den_eq_one_iff style, den_eq_one_iff style, h]
  unfold fractionWord at h
  by_cases hx : x.den = 1
  · have hy := hone.mp hx
    rw [if_pos hx, if_pos hy] at h
    exact Rat.ext (signedDigits_injective h) (hx.trans hy.symm)
  · rw [if_neg hx, if_neg (mt hone.mpr hx)] at h
    have hhead : ∀ (n : Nat) (d : Int), (divided style (digits n) d).head? ≠ some '-' := fun n =>
      head?_divided style (head?_digits_ne_minus n)
    obtain ⟨hsign, hdivided⟩ := sign_append_inj (hhead _ _) (hhead _ _) h
    obtain ⟨hnum, hden⟩ := divided_inj hdivided
    have habs := digits_injective hnum
    exact Rat.ext (by omega) (Int.ofNat.inj hden)

end

/-! ## Parts -/

/-- What is shown of a fraction: a radical that stands for it, or the fraction itself. -/
inductive Part where
  | fraction (x : ℚ)
  | radical (r : Radical)
deriving DecidableEq

namespace Part

def words (style : Style) : Part → List (List Char)
  | fraction x => [fractionWord style x]
  | radical r => radicalWords style r

variable (style : Style) (q : Part)

theorem words_ne_nil : q.words style ≠ [] := by
  cases q with
  | fraction x => exact List.cons_ne_nil _ _
  | radical r => exact radicalWords_ne_nil style r

theorem closed_words : ∀ w ∈ q.words style, Closed w := by
  cases q with
  | fraction x => exact List.forall_mem_singleton.mpr (closed_fractionWord style x)
  | radical r => exact closed_radicalWords style r

theorem marked_words : ∀ w ∈ q.words style, Marked (' ' :: partMarks) w := by
  cases q with
  | fraction x => exact List.forall_mem_singleton.mpr ((marked_fractionWord style x).mono (by decide))
  | radical r => exact marked_radicalWords style r

variable {style q} in
theorem rootLetter_notMem {x : ℚ} : rootLetter style ∉ fractionWord style x := by
  refine (marked_fractionWord style x).notMem ?_ ?_ <;> cases style <;> decide

theorem words_injective : Function.Injective (words style) := by
  intro q q' h
  have hdifferent : ∀ x r, [fractionWord style x] ≠ radicalWords style r := by
    intro x r h
    obtain ⟨w, hw, hletter⟩ := exists_rootLetter_mem style r
    rw [← h, List.mem_singleton] at hw
    exact rootLetter_notMem (hw ▸ hletter)
  cases q with
  | fraction x =>
    cases q' with
    | fraction y => exact congrArg fraction (fractionWord_injective style (List.singleton_inj.mp h))
    | radical r => exact absurd h (hdifferent x r)
  | radical r =>
    cases q' with
    | fraction y => exact absurd h.symm (hdifferent y r)
    | radical r' => exact congrArg radical (radicalWords_inj h)

end Part

end Display

end Surd
