import Mathlib
import Surd.Proofs.Display.Parts

/-!
# Layouts of complex numbers

A complex number is shown as a real part, an imaginary part or both. Two layouts have the same words only
if they are the same, apart from one case in LaTeX (`Layout.words_eq_iff`).
-/

namespace Surd

open Text

namespace Display

/-! ## Brackets -/

/-- A text of several words is put in brackets, except in LaTeX. -/
def grouped (s : List Char) : List Char := if ' ' ∈ s then inBrackets s else s

theorem blank_mem_grouped {s : List Char} : ' ' ∈ grouped s ↔ ' ' ∈ s := by
  unfold grouped
  split <;> simp_all [inBrackets]

theorem subset_grouped (s : List Char) : s ⊆ grouped s := by
  unfold grouped
  split
  · exact List.subset_cons_of_subset _ (List.subset_append_left ..)
  · exact List.Subset.refl _

theorem grouped_injective : Function.Injective grouped := by
  intro s t h
  have hblank : ' ' ∈ s ↔ ' ' ∈ t := by rw [← blank_mem_grouped, h, blank_mem_grouped]
  unfold grouped at h
  by_cases hs : ' ' ∈ s
  · rw [if_pos hs, if_pos (hblank.mp hs)] at h
    exact (List.cons.inj (List.append_cancel_right h)).2
  · rwa [if_neg hs, if_neg (mt hblank.mpr hs)] at h

theorem closed_grouped {ws : List (List Char)} (h : ∀ w ∈ ws, Closed w) : Closed (grouped (unwords ws)) := by
  unfold grouped
  split
  · exact .bracketed (.inl rfl) (.inl rfl) (.unwords fun w hw => (h w hw).inner)
  · rename_i hblank
    match ws with
    | [] => exact .nil
    | [w] => exact h w (by simp)
    | w :: w' :: ws => exact absurd (by simp [unwords]) hblank

section
variable (style : Style)

/-- The words of a real part in front of an imaginary part. -/
def groupedWords (q : Part) : List (List Char) :=
  if style = .latex then q.words style else [grouped (unwords (q.words style))]

theorem groupedWords_ne_nil (q : Part) : groupedWords style q ≠ [] := by
  unfold groupedWords
  split
  · exact q.words_ne_nil style
  · exact List.cons_ne_nil _ _

theorem closed_groupedWords (q : Part) : ∀ w ∈ groupedWords style q, Closed w := by
  unfold groupedWords
  split
  · exact q.closed_words style
  · exact List.forall_mem_singleton.mpr (closed_grouped (q.closed_words style))

variable {style} in
theorem unwords_words_inj {q q' : Part} (h : unwords (q.words style) = unwords (q'.words style)) : q = q' :=
  Part.words_injective style
    (unwords_inj (q.words_ne_nil style) (q'.words_ne_nil style) (q.closed_words style) (q'.closed_words style) h)

theorem groupedWords_injective : Function.Injective (groupedWords style) := by
  intro q q' h
  unfold groupedWords at h
  split at h
  · exact Part.words_injective style h
  · exact unwords_words_inj (grouped_injective (List.singleton_inj.mp h))

/-! ## Units -/

/-- What stands in front of the imaginary unit, for a fraction. -/
def unitFactor (x : ℚ) : List Char := if x = 1 then [] else if x = -1 then ['-'] else fractionWord style x

theorem closed_unitFactor (x : ℚ) : Closed (unitFactor style x) := by
  unfold unitFactor
  split
  · exact .nil
  · split
    · exact .singleton (by decide)
    · exact closed_fractionWord style x

theorem marked_unitFactor (x : ℚ) : Marked divisionMarks (unitFactor style x) := by
  unfold unitFactor
  split
  · exact .of_subset (List.nil_subset _)
  · split
    · exact .of_subset (by decide)
    · exact marked_fractionWord style x

theorem unitFactor_eq_nil_iff (x : ℚ) : unitFactor style x = [] ↔ x = 1 := by
  obtain ⟨c, hc, _⟩ := exists_digit_mem style x
  unfold unitFactor
  split
  · simp [*]
  · split
    · rename_i hminus
      norm_num [hminus]
    · simp [*, List.ne_nil_of_mem hc]

theorem unitFactor_eq_minus_iff (x : ℚ) : unitFactor style x = ['-'] ↔ x = -1 := by
  obtain ⟨c, hc, hdigit⟩ := exists_digit_mem style x
  have hminus : fractionWord style x ≠ ['-'] := by
    intro h
    rw [h, List.mem_singleton] at hc
    subst hc
    cases hdigit
  unfold unitFactor
  split
  · rename_i hone
    norm_num [hone]
  · split
    · simp [*]
    · simp [*]

theorem unitFactor_injective : Function.Injective (unitFactor style) := by
  intro x y h
  have hone : x = 1 ↔ y = 1 := by rw [← unitFactor_eq_nil_iff style, h, unitFactor_eq_nil_iff]
  have hminus : x = -1 ↔ y = -1 := by rw [← unitFactor_eq_minus_iff style, h, unitFactor_eq_minus_iff]
  by_cases hx : x = 1
  · exact hx.trans (hone.mp hx).symm
  · by_cases hx' : x = -1
    · exact hx'.trans (hminus.mp hx').symm
    · unfold unitFactor at h
      rw [if_neg hx, if_neg hx', if_neg (mt hone.mpr hx), if_neg (mt hminus.mpr hx')] at h
      exact fractionWord_injective style h

/-- The words of a radical with the imaginary unit behind it. -/
def unitWords (ws : List (List Char)) : List (List Char) :=
  if style = .latex then ws ++ [['i']] else ws.map (· ++ [style.imaginaryJoin, 'i'])

theorem unitWords_injective : Function.Injective (unitWords style) := by
  intro ws vs h
  unfold unitWords at h
  split at h
  · exact List.append_cancel_right h
  · exact List.map_injective_iff.mpr (List.append_left_injective _) h

theorem closed_unitWords {ws : List (List Char)} (h : ∀ w ∈ ws, Closed w) : ∀ w ∈ unitWords style ws, Closed w := by
  have hunit : Closed ['i'] := .singleton (by decide)
  unfold unitWords
  split
  · exact List.forall_mem_append.mpr ⟨h, List.forall_mem_singleton.mpr hunit⟩
  · rename_i hstyle
    have hjoin : style.imaginaryJoin ∉ [' ', '(', ')', '{', '}'] := by cases style <;> first | decide | contradiction
    exact List.forall_mem_map.mpr fun w hw => (h w hw).append (.cons hjoin hunit)

theorem exists_mem_unitWords {ws : List (List Char)} {w : List Char} (h : w ∈ ws) :
    ∃ v ∈ unitWords style ws, w ⊆ v := by
  unfold unitWords
  split
  · exact ⟨w, List.mem_append_left _ h, List.Subset.refl _⟩
  · exact ⟨_, List.mem_map_of_mem h, List.subset_append_left ..⟩

theorem exists_unit_mem_unitWords {ws : List (List Char)} (h : ws ≠ []) : ∃ v ∈ unitWords style ws, 'i' ∈ v := by
  obtain ⟨w, hw⟩ := List.exists_mem_of_ne_nil _ h
  unfold unitWords
  split
  · exact ⟨['i'], by simp, by simp⟩
  · exact ⟨_, List.mem_map_of_mem hw, by simp⟩

/-! ## Imaginary parts -/

/-- The words of an imaginary part. -/
def imaginaryWords : Part → List (List Char)
  | .fraction x => [unitFactor style x ++ ['i']]
  | .radical r => unitWords style (groupedWords style (.radical r))

theorem closed_imaginaryWords (q : Part) : ∀ w ∈ imaginaryWords style q, Closed w := by
  cases q with
  | fraction x => exact List.forall_mem_singleton.mpr ((closed_unitFactor style x).append (.singleton (by decide)))
  | radical r => exact closed_unitWords style (closed_groupedWords style _)

theorem exists_unit_mem (q : Part) : ∃ w ∈ imaginaryWords style q, 'i' ∈ w := by
  cases q with
  | fraction x => exact ⟨_, List.mem_singleton_self _, by simp⟩
  | radical r => exact exists_unit_mem_unitWords style (groupedWords_ne_nil style _)

theorem imaginaryWords_ne_nil (q : Part) : imaginaryWords style q ≠ [] := by
  obtain ⟨w, hw, _⟩ := exists_unit_mem style q
  exact List.ne_nil_of_mem hw

theorem unit_notMem (q : Part) : ∀ w ∈ q.words style, 'i' ∉ w := fun w hw =>
  (q.marked_words style w hw).notMem (by decide) (by decide)

theorem exists_rootLetter_mem_groupedWords (r : Radical) :
    ∃ w ∈ groupedWords style (.radical r), rootLetter style ∈ w := by
  obtain ⟨w, hw, hletter⟩ := exists_rootLetter_mem style r
  unfold groupedWords
  split
  · exact ⟨w, hw, hletter⟩
  · exact ⟨_, List.mem_singleton_self _, subset_grouped _ (subset_unwords hw hletter)⟩

theorem imaginaryWords_injective : Function.Injective (imaginaryWords style) := by
  have hdifferent : ∀ x r, imaginaryWords style (.fraction x) ≠ imaginaryWords style (.radical r) := by
    intro x r h
    obtain ⟨w, hw, hletter⟩ := exists_rootLetter_mem_groupedWords style r
    obtain ⟨v, hv, hsub⟩ := exists_mem_unitWords style hw
    have hunit : Marked ('i' :: divisionMarks) (unitFactor style x ++ ['i']) :=
      ((marked_unitFactor style x).mono (by decide)).append (.of_subset (by decide))
    rw [imaginaryWords, imaginaryWords] at h
    rw [← h, List.mem_singleton] at hv
    have := hunit.notMem (c := rootLetter style) (by cases style <;> decide) (by cases style <;> decide)
    exact this (hv ▸ hsub hletter)
  intro q q' h
  cases q with
  | fraction x =>
    cases q' with
    | fraction y =>
      exact congrArg Part.fraction (unitFactor_injective style (List.append_cancel_right (List.singleton_inj.mp h)))
    | radical r => exact absurd h (hdifferent x r)
  | radical r =>
    cases q' with
    | fraction y => exact absurd h.symm (hdifferent y r)
    | radical r' => exact groupedWords_injective style (unitWords_injective style h)

end

/-! ## Words in LaTeX -/

/-- A radical with an offset and no divisor has three words. -/
theorem Part.words_cases (style : Style) (q : Part) :
    (∃ w, q.words style = [w]) ∨
      ∃ p c m, p ≠ 0 ∧ q = .radical ⟨p, c, m, 1⟩ ∧
        q.words style = [signedDigits p, [if c < 0 then style.minus else '+'], rootOf style ⟨p, c, m, 1⟩] := by
  cases q with
  | fraction x => exact .inl ⟨_, rfl⟩
  | radical r =>
    obtain ⟨p, c, m, d⟩ := r
    simp only [Part.words, radicalWords, numeratorWords]
    by_cases hd : d = 1
    · subst hd
      by_cases hp : p = 0
      · exact .inl (by simp [hp])
      · exact .inr ⟨p, c, m, hp, rfl, by simp [hp]⟩
    · rw [if_neg hd]
      split
      · exact .inl ⟨_, rfl⟩
      · exact .inl ⟨_, rfl⟩

theorem imaginaryWords_latex_cases (q : Part) :
    (∃ w, imaginaryWords .latex q = [w]) ∨
      (∃ r w, q = .radical r ∧ radicalWords .latex r = [w] ∧ imaginaryWords .latex q = [w, ['i']]) ∨
      ∃ p c m, p ≠ 0 ∧ q = .radical ⟨p, c, m, 1⟩ ∧
        imaginaryWords .latex q =
          [signedDigits p, [if c < 0 then Style.latex.minus else '+'], rootOf .latex ⟨p, c, m, 1⟩, ['i']] := by
  cases q with
  | fraction x => exact .inl ⟨_, rfl⟩
  | radical r =>
    have hwords : imaginaryWords .latex (.radical r) = (Part.radical r).words .latex ++ [['i']] := rfl
    rcases (Part.radical r).words_cases .latex with ⟨w, hw⟩ | ⟨p, c, m, hp, hr, hw⟩
    · exact .inr (.inl ⟨r, w, rfl, hw, by rw [hwords, hw]; rfl⟩)
    · exact .inr (.inr ⟨p, c, m, hp, hr, by rw [hwords, hw]; rfl⟩)

theorem fractionWord_intCast (style : Style) (n : Int) : fractionWord style n = signedDigits n := by
  simp [fractionWord]

/-- The root of a radical is the radical without the offset and the sign. -/
theorem radicalWords_abs (style : Style) (p c m : Int) :
    radicalWords style ⟨0, |c|, m, 1⟩ = [rootOf style ⟨p, c, m, 1⟩] := by
  simp [radicalWords, numeratorWords, rootOf, (abs_nonneg c).not_gt, Int.natAbs_abs]

theorem signedDigits_ne_rootOf (style : Style) (n : Int) (r : Radical) : signedDigits n ≠ rootOf style r := by
  intro h
  have hletter : rootLetter style ∈ signedDigits n := h ▸ rootLetter_mem_rootText style _ _
  refine (marked_signedDigits n).notMem ?_ ?_ hletter <;> cases style <;> decide

/-! ## Layouts -/

/-- What is shown of a complex number: its real part, its imaginary part or both, the imaginary part behind
its sign. -/
inductive Layout where
  | real (q : Part)
  | imaginary (q : Part)
  | mixed (q : Part) (negative : Bool) (r : Part)
deriving DecidableEq

namespace Layout

def words (style : Style) : Layout → List (List Char)
  | real q => q.words style
  | imaginary q => imaginaryWords style q
  | mixed q negative r => groupedWords style q ++ [if negative then style.minus else '+'] :: imaginaryWords style r

theorem words_ne_nil (style : Style) (l : Layout) : l.words style ≠ [] := by
  cases l with
  | real q => exact q.words_ne_nil style
  | imaginary q => exact imaginaryWords_ne_nil style q
  | mixed q negative r => simp [words]

theorem closed_words (style : Style) (l : Layout) : ∀ w ∈ l.words style, Closed w := by
  cases l with
  | real q => exact q.closed_words style
  | imaginary q => exact closed_imaginaryWords style q
  | mixed q negative r =>
    have hsign : Closed [if negative then style.minus else '+'] := by
      refine .singleton ?_
      cases style <;> cases negative <;> decide
    exact List.forall_mem_append.mpr
      ⟨closed_groupedWords style q, List.forall_mem_cons.mpr ⟨hsign, closed_imaginaryWords style r⟩⟩

/-- An imaginary part with an offset, and a real and an imaginary part that read the same without brackets. -/
inductive Confused : Layout → Layout → Prop
  | offset (p c m : Int) (h : p ≠ 0) :
    Confused (imaginary (.radical ⟨p, c, m, 1⟩)) (mixed (.fraction p) (c < 0) (.radical ⟨0, |c|, m, 1⟩))

theorem words_confused {l l' : Layout} (h : Confused l l') : l.words .latex = l'.words .latex := by
  obtain ⟨p, c, m, hp⟩ := h
  have hradical : radicalWords .latex ⟨p, c, m, 1⟩ =
      [signedDigits p, [if c < 0 then Style.latex.minus else '+'], rootOf .latex ⟨p, c, m, 1⟩] := by
    simp [radicalWords, numeratorWords, hp]
  simp [words, imaginaryWords, groupedWords, unitWords, Part.words, fractionWord_intCast, radicalWords_abs .latex p c m,
    hradical]

/-- Only the words of a real part are without the imaginary unit. -/
theorem exists_unit_mem_iff (style : Style) (l : Layout) :
    (∃ w ∈ l.words style, 'i' ∈ w) ↔ ∀ q, l ≠ real q := by
  cases l with
  | real q => simpa [words] using unit_notMem style q
  | imaginary q => simpa [words] using exists_unit_mem style q
  | mixed q negative r =>
    obtain ⟨w, hw, hunit⟩ := exists_unit_mem style r
    simpa using ⟨w, List.mem_append_right _ (List.mem_cons_of_mem _ hw), hunit⟩

theorem real_inj_words (style : Style) {q : Part} {l : Layout} (h : (real q).words style = l.words style) :
    l = real q := by
  have hunit : ¬∀ q', l ≠ real q' := by
    rw [← exists_unit_mem_iff style, ← h, exists_unit_mem_iff]
    exact fun hne => hne q rfl
  simp only [not_forall, not_not] at hunit
  obtain ⟨q', rfl⟩ := hunit
  exact congrArg real (Part.words_injective style h.symm)

theorem length_groupedWords {style : Style} (h : style ≠ .latex) (q : Part) : (groupedWords style q).length = 1 := by
  rw [groupedWords, if_neg h, List.length_singleton]

theorem length_imaginaryWords {style : Style} (h : style ≠ .latex) (q : Part) :
    (imaginaryWords style q).length = 1 := by
  cases q with
  | fraction x => rfl
  | radical r => rw [imaginaryWords, unitWords, if_neg h, List.length_map, length_groupedWords h]

/-- Behind a real part of one word the imaginary part would have to begin with a root. -/
theorem short_ne_long {w a b s s' : List Char} {t : Radical} (r r' : Part) :
    [w] ++ s :: imaginaryWords .latex r ≠ [a, b, rootOf .latex t] ++ s' :: imaginaryWords .latex r' := by
  intro h
  have hpos := List.length_pos_iff.mpr (imaginaryWords_ne_nil .latex r')
  rcases imaginaryWords_latex_cases r with ⟨v, hr⟩ | ⟨u, v, _, _, hr⟩ | ⟨p, c, m, _, _, hr⟩
  · have hlength := congrArg List.length h
    simp only [hr, List.length_append, List.length_cons, List.length_nil] at hlength
    omega
  · have hlength := congrArg List.length h
    simp only [hr, List.length_append, List.length_cons, List.length_nil] at hlength
    omega
  · rw [hr] at h
    simp only [List.cons_append, List.nil_append, List.cons.injEq] at h
    exact signedDigits_ne_rootOf .latex p t h.2.2.1

theorem length_groupedWords_eq {style : Style} {q q' r r' : Part} {s s' : List Char}
    (h : groupedWords style q ++ s :: imaginaryWords style r = groupedWords style q' ++ s' :: imaginaryWords style r') :
    (groupedWords style q).length = (groupedWords style q').length := by
  by_cases hstyle : style = .latex
  · subst hstyle
    have hgrouped : ∀ q, groupedWords .latex q = q.words .latex := fun _ => rfl
    simp only [hgrouped] at h ⊢
    rcases q.words_cases .latex with ⟨w, hq⟩ | ⟨_, _, _, _, _, hq⟩ <;>
      rcases q'.words_cases .latex with ⟨w', hq'⟩ | ⟨_, _, _, _, _, hq'⟩ <;> rw [hq, hq'] at h ⊢
    · rfl
    · exact absurd h (short_ne_long r r')
    · exact absurd h.symm (short_ne_long r' r)
    · rfl
  · rw [length_groupedWords hstyle, length_groupedWords hstyle]

theorem sign_inj (style : Style) {p q : Bool}
    (h : (if p then style.minus else '+') = if q then style.minus else '+') : p = q := by
  cases style <;> cases p <;> cases q <;> first | rfl | cases h

theorem mixed_inj_words {style : Style} {q q' r r' : Part} {b b' : Bool}
    (h : (mixed q b r).words style = (mixed q' b' r').words style) : mixed q b r = mixed q' b' r' := by
  obtain ⟨hre, him⟩ := List.append_inj h (length_groupedWords_eq h)
  obtain ⟨hsign, him⟩ := List.cons.inj him
  rw [groupedWords_injective style hre, imaginaryWords_injective style him,
    sign_inj style (List.singleton_inj.mp hsign)]

/-- The words of an imaginary part alone are those of two parts only for a radical with an offset. -/
theorem confused_of_words_eq {style : Style} {q q' r : Part} {b : Bool}
    (h : (imaginary q).words style = (mixed q' b r).words style) :
    style = .latex ∧ Confused (imaginary q) (mixed q' b r) := by
  have hlength := congrArg List.length h
  have hre := List.length_pos_iff.mpr (groupedWords_ne_nil style q')
  have him := List.length_pos_iff.mpr (imaginaryWords_ne_nil style r)
  simp only [words, List.length_append, List.length_cons] at hlength
  have hstyle : style = .latex := by
    by_contra hne
    rw [length_imaginaryWords hne q] at hlength
    omega
  subst hstyle
  refine ⟨rfl, ?_⟩
  rcases imaginaryWords_latex_cases q with ⟨w, hq⟩ | ⟨_, w, _, _, hq⟩ | ⟨p, c, m, hp, rfl, hq⟩
  · simp only [hq, List.length_cons, List.length_nil] at hlength
    omega
  · simp only [hq, List.length_cons, List.length_nil] at hlength
    omega
  have hgrouped : groupedWords .latex q' = q'.words .latex := rfl
  simp only [words, hq, hgrouped] at h
  simp only [hq, hgrouped, List.length_cons, List.length_nil] at hlength
  -- four words are an integer, a sign, a root and the unit
  rcases q'.words_cases .latex with ⟨w, hq'⟩ | ⟨_, _, _, _, _, hq'⟩
  · rcases imaginaryWords_latex_cases r with ⟨v, hr⟩ | ⟨t, v, rfl, ht, hr⟩ | ⟨_, _, _, _, _, hr⟩
    · simp [hq', hr] at hlength
    · simp only [hq', hr, List.cons_append, List.nil_append, List.cons.injEq, and_true] at h
      obtain ⟨rfl, hsign, rfl⟩ := h
      have hoffset : q' = .fraction p :=
        Part.words_injective .latex (hq'.trans (by rw [Part.words, fractionWord_intCast]))
      have hroot : t = ⟨0, |c|, m, 1⟩ :=
        radicalWords_inj (ht.trans (radicalWords_abs .latex p c m).symm)
      have hb : decide (c < 0) = b := sign_inj .latex (by simpa using hsign)
      rw [hoffset, hroot, ← hb]
      exact .offset p c m hp
    · simp [hq', hr] at hlength
  · simp only [hq', List.length_cons, List.length_nil] at hlength
    omega

/-- Layouts of the same words are the same, apart from radicals with an offset in LaTeX. -/
theorem words_eq_iff {style : Style} {l l' : Layout} :
    l.words style = l'.words style ↔ l = l' ∨ style = .latex ∧ (Confused l l' ∨ Confused l' l) := by
  constructor
  · intro h
    cases l with
    | real q => exact .inl (real_inj_words style h).symm
    | imaginary q =>
      cases l' with
      | real q' => exact .inl (real_inj_words style h.symm)
      | imaginary q' => exact .inl (congrArg imaginary (imaginaryWords_injective style h))
      | mixed q' b r => exact .inr ((confused_of_words_eq h).imp_right .inl)
    | mixed q b r =>
      cases l' with
      | real q' => exact .inl (real_inj_words style h.symm)
      | imaginary q' => exact .inr ((confused_of_words_eq h.symm).imp_right .inr)
      | mixed q' b' r' => exact .inl (mixed_inj_words h)
  · rintro (rfl | ⟨rfl, h | h⟩)
    · rfl
    · exact words_confused h
    · exact (words_confused h).symm

end Layout

end Display

end Surd
