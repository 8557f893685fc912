import Mathlib
import Surd.Proofs.Display.Layouts
import Surd.Proofs.Radical.Accuracy

/-!
# Telling numbers from their texts

Two numbers that have one exact form have the same shape and show the same parts. This fails in one case,
since LaTeX puts no brackets around a radical in front of the imaginary unit: `exact_eq_iff`.
-/

namespace Surd

namespace Gaussian

inductive Shape where
  | real | imaginary | mixed
deriving DecidableEq, Repr

def shape (z : Gaussian) : Shape := if z.im = 0 then .real else if z.re = 0 then .imaginary else .mixed

/-- The imaginary part as it is shown: the sign behind a real part stands for itself. -/
def shownIm (z : Gaussian) : ℚ := if z.re = 0 then z.im else z.im.abs

end Gaussian

open Text

namespace Display

section
variable (cfg : Settings)

/-- What is shown of a fraction. -/
def part (x : ℚ) : Except Failure Part := do
  match ← Radical.find? cfg x with
  | some r => pure (.radical r)
  | none => pure (.fraction x)

variable {cfg}

theorem part_eq_radical_iff {x : ℚ} {r : Radical} :
    part cfg x = .ok (.radical r) ↔ Radical.find? cfg x = .ok (some r) := by
  unfold part
  cases Radical.find? cfg x with
  | error e => simp [bind, Except.bind]
  | ok o => cases o <;> simp [bind, Except.bind, pure, Except.pure]

theorem part_eq_fraction_iff {x y : ℚ} :
    part cfg x = .ok (.fraction y) ↔ x = y ∧ Radical.find? cfg x = .ok none := by
  unfold part
  cases Radical.find? cfg x with
  | error e => simp [bind, Except.bind]
  | ok o => cases o <;> simp [bind, Except.bind, pure, Except.pure]

/-! ## Shown parts -/

section
variable (hcfg : 1 < cfg.radicalMinDenominator)
include hcfg

theorem find?_of_den_eq_one {x : ℚ} (h : x.den = 1) : Radical.find? cfg x = .ok none := by
  rw [Radical.find?, h, if_pos (by exact_mod_cast hcfg)]
  rfl

theorem rational_eq_unwords {style : Style} {x : ℚ} {s : List Char} (h : rational cfg style x = .ok s) :
    ∃ q, part cfg x = .ok q ∧ s = unwords (q.words style) := by
  unfold rational at h
  split at h
  · rename_i hden
    refine ⟨.fraction x, part_eq_fraction_iff.mpr ⟨rfl, find?_of_den_eq_one hcfg hden⟩, ?_⟩
    rw [eq_signedDigits h, Part.words, unwords, fractionWord, if_pos hden]
  · obtain ⟨o, ho, h⟩ := bind_ok_iff.mp h
    cases o with
    | none => exact ⟨.fraction x, part_eq_fraction_iff.mpr ⟨rfl, ho⟩, eq_fractionWord h⟩
    | some r => exact ⟨.radical r, part_eq_radical_iff.mpr ho, eq_radicalWords h⟩

theorem imaginary_eq_unwords {style : Style} {y : ℚ} {s : List Char} (h : imaginary cfg style y = .ok s) :
    ∃ q, part cfg y = .ok q ∧ s = unwords (imaginaryWords style q) := by
  unfold imaginary at h
  split at h
  · rename_i hone
    subst hone
    cases h
    exact ⟨.fraction 1, part_eq_fraction_iff.mpr ⟨rfl, find?_of_den_eq_one hcfg rfl⟩, rfl⟩
  · rename_i hone
    split at h
    · rename_i hminus
      subst hminus
      cases h
      exact ⟨.fraction (-1), part_eq_fraction_iff.mpr ⟨rfl, find?_of_den_eq_one hcfg rfl⟩, rfl⟩
    · rename_i hminus
      obtain ⟨o, ho, h⟩ := bind_ok_iff.mp h
      cases o with
      | none =>
        obtain ⟨t, ht, h⟩ := bind_ok_iff.mp h
        refine ⟨.fraction y, part_eq_fraction_iff.mpr ⟨rfl, ho⟩, ?_⟩
        cases h
        rw [eq_fractionWord ht, imaginaryWords, unitFactor, if_neg hone, if_neg hminus, unwords]
      | some r =>
        obtain ⟨t, ht, h⟩ := bind_ok_iff.mp h
        refine ⟨.radical r, part_eq_radical_iff.mpr ho, ?_⟩
        cases h
        rw [eq_radicalWords ht, imaginaryWords, unitWords, groupedWords]
        -- outside LaTeX the radical is put in brackets where it has blanks, that is, an offset
        by_cases hstyle : style = .latex
        · subst hstyle
          simp [unwords_append (radicalWords_ne_nil .latex r), unwords, Part.words, Style.imaginaryJoin]
        · have hblank := offset_eq_zero_iff style r
          by_cases hoffset : r.offset = 0
          · simp [hstyle, hoffset, grouped, hblank.mp hoffset, unwords, Part.words]
          · simp [hstyle, hoffset, grouped, not_not.mp (mt hblank.mpr hoffset), unwords, Part.words]

end

/-! ## Shown numbers -/

variable (cfg) in
/-- A number is shown as a layout. -/
inductive Shows (style : Style) (z : Gaussian) : Layout → Prop
  | real {q : Part} (him : z.im = 0) (hre : part cfg z.re = .ok q)
    (htext : rational cfg style z.re = .ok (unwords (q.words style))) : Shows style z (.real q)
  | imaginary {q : Part} (him : z.im ≠ 0) (hre : z.re = 0) (hq : part cfg z.im = .ok q) : Shows style z (.imaginary q)
  | mixed {q r : Part} (him : z.im ≠ 0) (hre : z.re ≠ 0) (hq : part cfg z.re = .ok q)
    (htext : rational cfg style z.re = .ok (unwords (q.words style))) (hr : part cfg z.im.abs = .ok r) :
    Shows style z (.mixed q (z.im < 0) r)

def Layout.shape : Layout → Gaussian.Shape
  | .real _ => .real
  | .imaginary _ => .imaginary
  | .mixed _ _ _ => .mixed

theorem Shows.shape_eq {style : Style} {z : Gaussian} {l : Layout} (h : Shows cfg style z l) : z.shape = l.shape := by
  unfold Gaussian.shape
  cases h with
  | real him => exact if_pos him
  | imaginary him hre => rw [if_neg him, if_pos hre, Layout.shape]
  | mixed him hre => rw [if_neg him, if_neg hre, Layout.shape]

theorem exact_eq_unwords (hcfg : 1 < cfg.radicalMinDenominator) {style : Style} {z : Gaussian} {s : List Char}
    (h : exact cfg style z = .ok s) : ∃ l, Shows cfg style z l ∧ s = unwords (l.words style) := by
  unfold exact at h
  split at h
  · rename_i him
    obtain ⟨q, hq, rfl⟩ := rational_eq_unwords hcfg h
    exact ⟨_, .real him hq h, rfl⟩
  · rename_i him
    split at h
    · rename_i hre
      obtain ⟨q, hq, rfl⟩ := imaginary_eq_unwords hcfg h
      exact ⟨_, .imaginary him hre hq, rfl⟩
    · rename_i hre
      obtain ⟨t, ht, h⟩ := bind_ok_iff.mp h
      obtain ⟨u, hu, h⟩ := bind_ok_iff.mp h
      obtain ⟨q, hq, rfl⟩ := rational_eq_unwords hcfg ht
      obtain ⟨r, hr, rfl⟩ := imaginary_eq_unwords hcfg hu
      cases h
      refine ⟨_, .mixed him hre hq ht hr, ?_⟩
      rw [Layout.words, unwords_append (groupedWords_ne_nil style q) (List.cons_ne_nil _ _)]
      have hgrouped : unwords (groupedWords style q) =
          if (unwords (q.words style)).contains ' ' ∧ style ≠ .latex then inBrackets (unwords (q.words style))
          else unwords (q.words style) := by
        unfold groupedWords grouped
        by_cases hstyle : style = .latex <;> simp [hstyle, unwords]
      obtain ⟨v, vs, hv⟩ := List.exists_cons_of_ne_nil (imaginaryWords_ne_nil style r)
      rw [hgrouped, hv]
      simp [unwords]

/-! ## Numbers that cannot be told apart -/

section
variable (cfg) (style : Style) (z w : Gaussian)

/-- Two numbers have the same shape, and what is shown of them is the same. -/
structure SameDisplay : Prop where
  shape : z.shape = w.shape
  re : rational cfg style z.re = rational cfg style w.re
  sign : 0 < z.im ↔ 0 < w.im
  im : part cfg z.shownIm = part cfg w.shownIm

/-- The first number is `p + c √m` times the imaginary unit, the other one is `p` and the imaginary part
`c √m`. -/
structure Confused (r : Radical) : Prop where
  offset_ne : r.offset ≠ 0
  divisor_eq : r.divisor = 1
  re_left : z.re = 0
  im_left : Radical.find? cfg z.im = .ok (some r)
  re_right : w.re = r.offset
  sign_right : w.im < 0 ↔ r.coefficient < 0
  im_right : Radical.find? cfg w.im.abs = .ok (some ⟨0, |r.coefficient|, r.radicand, 1⟩)

end

end

/-! ## Texts of the same number -/

section
variable {f : Elementary} (hf : f.SqrtAccurate) {style : Style} {z w : Gaussian} {l l' : Layout}

include hf in
/-- What is shown of a fraction has its sign. -/
theorem pos_iff_of_part_eq {x y : ℚ} {q : Part} (hx : part { elementary := f } x = .ok q)
    (hy : part { elementary := f } y = .ok q) : 0 < x ↔ 0 < y := by
  cases q with
  | fraction v => rw [(part_eq_fraction_iff.mp hx).1, (part_eq_fraction_iff.mp hy).1]
  | radical r =>
    have hrx := Radical.find?_stands hf (part_eq_radical_iff.mp hx)
    have hry := Radical.find?_stands hf (part_eq_radical_iff.mp hy)
    rw [← hrx.pos_iff, hry.pos_iff]

theorem not_pos_iff_neg {x : ℚ} (h : x ≠ 0) : ¬0 < x ↔ x < 0 := by
  rw [not_lt]
  exact h.le_iff_lt

theorem layout_eq_of_sameDisplay (hz : Shows { elementary := f } style z l) (hw : Shows { elementary := f } style w l')
    (h : SameDisplay { elementary := f } style z w) : l = l' := by
  have hshape : l.shape = l'.shape := by rw [← hz.shape_eq, ← hw.shape_eq, h.shape]
  have hre := h.re
  have him := h.im
  unfold Gaussian.shownIm at him
  cases hz with
  | real _ _ hzt =>
    cases hw with
    | real _ _ hwt =>
      rw [hzt, hwt] at hre
      rw [unwords_words_inj (Except.ok.inj hre)]
    | imaginary => cases hshape
    | mixed => cases hshape
  | imaginary _ hz1 hzq =>
    cases hw with
    | real => cases hshape
    | imaginary _ hw1 hwq =>
      rw [if_pos hz1, if_pos hw1, hzq, hwq] at him
      rw [Except.ok.inj him]
    | mixed => cases hshape
  | mixed hz0 hz1 _ hzt hzr =>
    cases hw with
    | real => cases hshape
    | imaginary => cases hshape
    | mixed hw0 hw1 _ hwt hwr =>
      have hnegative : z.im < 0 ↔ w.im < 0 := by
        rw [← not_pos_iff_neg hz0, h.sign, not_pos_iff_neg hw0]
      rw [hzt, hwt] at hre
      rw [if_neg hz1, if_neg hw1, hzr, hwr] at him
      rw [unwords_words_inj (Except.ok.inj hre), Except.ok.inj him, decide_eq_decide.mpr hnegative]

include hf in
theorem sameDisplay_of_layout_eq (hz : Shows { elementary := f } style z l) (hw : Shows { elementary := f } style w l')
    (h : l = l') : SameDisplay { elementary := f } style z w := by
  have hshape : z.shape = w.shape := by rw [hz.shape_eq, hw.shape_eq, h]
  cases hz with
  | real hz0 _ hzt =>
    cases hw with
    | real hw0 _ hwt =>
      cases h
      refine ⟨hshape, hzt.trans hwt.symm, by rw [hz0, hw0], ?_⟩
      simp [Gaussian.shownIm, hz0, hw0]
    | imaginary => cases h
    | mixed => cases h
  | imaginary _ hz1 hzq =>
    cases hw with
    | real => cases h
    | imaginary _ hw1 hwq =>
      cases h
      refine ⟨hshape, by rw [hz1, hw1], pos_iff_of_part_eq hf hzq hwq, ?_⟩
      rw [Gaussian.shownIm, Gaussian.shownIm, if_pos hz1, if_pos hw1, hzq, hwq]
    | mixed => cases h
  | mixed hz0 hz1 _ hzt hzr =>
    cases hw with
    | real => cases h
    | imaginary => cases h
    | mixed hw0 hw1 _ hwt hwr =>
      rw [Layout.mixed.injEq, decide_eq_decide] at h
      obtain ⟨rfl, hnegative, rfl⟩ := h
      refine ⟨hshape, hzt.trans hwt.symm, ?_, ?_⟩
      · rw [← not_iff_not, not_pos_iff_neg hz0, not_pos_iff_neg hw0, hnegative]
      · rw [Gaussian.shownIm, Gaussian.shownIm, if_neg hz1, if_neg hw1, hzr, hwr]

include hf in
theorem sameDisplay_iff (hz : Shows { elementary := f } style z l) (hw : Shows { elementary := f } style w l') :
    SameDisplay { elementary := f } style z w ↔ l = l' :=
  ⟨layout_eq_of_sameDisplay hz hw, sameDisplay_of_layout_eq hf hz hw⟩

theorem one_lt_minDenominator (f : Elementary) : 1 < ({ elementary := f } : Settings).radicalMinDenominator :=
  show (1 : Int) < 100 by decide

theorem ne_zero_of_find? {x : ℚ} {r : Radical} (h : Radical.find? { elementary := f } x = .ok (some r)) : x ≠ 0 := by
  rintro rfl
  rw [find?_of_den_eq_one (one_lt_minDenominator f) rfl] at h
  cases h

theorem exists_confused_iff (hz : Shows { elementary := f } style z l) (hw : Shows { elementary := f } style w l') :
    (∃ r, Confused { elementary := f } z w r) ↔ Layout.Confused l l' := by
  constructor
  · rintro ⟨⟨p, c, m, d⟩, hp, hd, hz1, hzr, hw1, hsign, hwr⟩
    simp only at hp hd hw1 hsign hwr
    subst hd
    have hz0 := ne_zero_of_find? hzr
    have hw0 : w.im ≠ 0 := by
      intro h
      exact ne_zero_of_find? hwr (by rw [h]; rfl)
    have hp' : w.re ≠ 0 := by
      rw [hw1]
      exact_mod_cast hp
    have hinteger : part { elementary := f } w.re = .ok (.fraction p) :=
      part_eq_fraction_iff.mpr ⟨hw1, find?_of_den_eq_one (one_lt_minDenominator f) (by rw [hw1]; rfl)⟩
    -- a part that is not zero leaves one shape for each of the numbers
    cases hz with
    | real h => exact absurd h hz0
    | mixed _ h => exact absurd hz1 h
    | imaginary _ _ hq =>
      cases hw with
      | real h => exact absurd h hw0
      | imaginary _ h => exact absurd h hp'
      | mixed _ _ hq' _ hr =>
        rw [part_eq_radical_iff.mpr hzr] at hq
        rw [hinteger] at hq'
        rw [part_eq_radical_iff.mpr hwr] at hr
        cases hq
        cases hq'
        cases hr
        rw [decide_eq_decide.mpr hsign]
        exact .offset p c m hp
  · intro h
    cases hz with
    | real => cases h
    | mixed => cases h
    | imaginary _ hz1 hzq =>
      cases hw with
      | real => cases h
      | imaginary => cases h
      | mixed _ _ hwq _ hwr =>
        generalize hsign : decide (w.im < 0) = negative at h
        obtain ⟨p, c, m, hp⟩ := h
        exact ⟨⟨p, c, m, 1⟩, hp, rfl, hz1, part_eq_radical_iff.mp hzq, (part_eq_fraction_iff.mp hwq).1,
          decide_eq_decide.mp hsign, part_eq_radical_iff.mp hwr⟩

/-- Two numbers that have one exact form show the same, or one is imaginary and shown in LaTeX as a radical with
an offset, which reads as the real part of the other one. -/
theorem exact_eq_iff (hf : f.SqrtAccurate) {s t : List Char} (hs : exact { elementary := f } style z = .ok s)
    (ht : exact { elementary := f } style w = .ok t) :
    s = t ↔ SameDisplay { elementary := f } style z w ∨
      style = .latex ∧ ∃ r, Confused { elementary := f } z w r ∨ Confused { elementary := f } w z r := by
  obtain ⟨l, hz, rfl⟩ := exact_eq_unwords (one_lt_minDenominator f) hs
  obtain ⟨l', hw, rfl⟩ := exact_eq_unwords (one_lt_minDenominator f) ht
  have hwords : unwords (l.words style) = unwords (l'.words style) ↔ l.words style = l'.words style :=
    ⟨unwords_inj (l.words_ne_nil style) (l'.words_ne_nil style) (l.closed_words style) (l'.closed_words style),
      congrArg unwords⟩
  rw [hwords, Layout.words_eq_iff, sameDisplay_iff hf hz hw, exists_or, exists_confused_iff hz hw,
    exists_confused_iff hw hz]

end

/-- `1 + √5` times the imaginary unit, nearly. -/
def imaginaryRadical : Gaussian := ⟨0, 17711 / 5473⟩

/-- `1` and the imaginary part `√5`, nearly. -/
def mixedRadical : Gaussian := ⟨1, 12238 / 5473⟩

theorem exact_eq_iff_ascii :
    exact { elementary := .native } .ascii imaginaryRadical = .ok "(1 + sqrt(5))*i".toList ∧
      exact { elementary := .native } .ascii mixedRadical = .ok "1 + sqrt(5)*i".toList ∧
      ¬SameDisplay { elementary := .native } .ascii imaginaryRadical mixedRadical := by
  have hs : exact { elementary := .native } .ascii imaginaryRadical = .ok "(1 + sqrt(5))*i".toList := by decide +kernel
  have ht : exact { elementary := .native } .ascii mixedRadical = .ok "1 + sqrt(5)*i".toList := by decide +kernel
  have htexts : "(1 + sqrt(5))*i".toList ≠ "1 + sqrt(5)*i".toList := by decide
  exact ⟨hs, ht, fun hsame => htexts ((exact_eq_iff Elementary.native_sqrtAccurate hs ht).mpr (.inl hsame))⟩

/-- In LaTeX an imaginary part and a mixed number read the same. -/
theorem exact_latex_confused :
    exact {} .latex imaginaryRadical = .ok "1 + \\sqrt\x7b5\x7d i".toList ∧
      exact {} .latex mixedRadical = .ok "1 + \\sqrt\x7b5\x7d i".toList ∧
      imaginaryRadical.shape ≠ mixedRadical.shape := by
  decide +kernel

end Display

end Surd
