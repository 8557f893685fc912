import Mathlib
import Surd.Proofs.Expr.Brackets
import Surd.Proofs.Expr.Forbidden

/-!
# Balanced inputs

Spelling out an input does not change which brackets it leaves open. So an input that passes the checks before
that of its brackets is accepted exactly if it is balanced itself: `prepare_balanced`.
-/

namespace Surd.Input

open Text Brackets

/-! ## Spelling out -/

theorem openAfter_plainSymbol (opened : List Char) (c : Char) :
    openAfter opened (plainSymbol c) = openAfter opened [c] := by
  unfold plainSymbol
  split
  · subst c
    rfl
  · split
    · subst c
      rfl
    · split
      · subst c
        rfl
      · split
        · subst c
          rfl
        · rfl

theorem openAfter_flatMap_plainSymbol (opened s : List Char) :
    openAfter opened (s.flatMap plainSymbol) = openAfter opened s := by
  induction s generalizing opened with
  | nil => rfl
  | cons c s ih =>
    rw [List.flatMap_cons, openAfter_append, openAfter_plainSymbol, funext ih, ← openAfter_append,
      List.singleton_append]

theorem isBracket_digit {c : Char} (h : isDigit c = true) : isBracket c = false := not_isBracket (by decide) h

theorem openAfter_expandPercent (opened s : List Char) : openAfter opened (expandPercent s) = openAfter opened s := by
  fun_induction expandPercent s generalizing opened with
  | case1 => rfl
  | case2 c rest hc digits fraction more hsome ih =>
    obtain ⟨hmore, hfraction⟩ := afterPercentDigits_eq hsome
    have hdigits : ∀ y ∈ digits, isBracket y = false :=
      List.forall_mem_cons.mpr ⟨isBracket_digit hc, fun y hy => isBracket_digit (List.mem_takeWhile_imp hy)⟩
    have hfraction : ∀ y ∈ fraction, isBracket y = false := fun y hy =>
      (hfraction y hy).elim (fun hdot => hdot ▸ rfl) isBracket_digit
    have hsuffix : ∀ y ∈ ['/', '1', '0', '0'], isBracket y = false := by simp [isBracket, closing?, isClosing]
    -- the parentheses of a percentage are closed within it
    have hnumber : Balanced ('(' :: (digits ++ fraction ++ ['/', '1', '0', '0'] ++ [')'])) := by
      refine Balanced.pair rfl (balanced_of_other ?_) balanced_nil
      exact List.forall_mem_append.mpr ⟨List.forall_mem_append.mpr ⟨hdigits, hfraction⟩, hsuffix⟩
    have hinput : c :: rest = digits ++ (fraction ++ ['%'] ++ more) := by
      rw [← List.takeWhile_append_dropWhile (p := isDigit) (l := rest), hmore]
      simp [digits]
    have hpercent : ∀ y ∈ fraction ++ ['%'], isBracket y = false :=
      List.forall_mem_append.mpr ⟨hfraction, by simp [isBracket, closing?, isClosing]⟩
    rw [hinput, openAfter_other opened hdigits, openAfter_other opened hpercent, ← ih]
    simpa using hnumber.openAfter_append opened (expandPercent more)
  | case3 c rest hc digits hnone ih =>
    have hdigits : ∀ y ∈ digits, isBracket y = false :=
      List.forall_mem_cons.mpr ⟨isBracket_digit hc, fun y hy => isBracket_digit (List.mem_takeWhile_imp hy)⟩
    have hinput : c :: rest = digits ++ rest.dropWhile isDigit := by simp [digits]
    rw [hinput, openAfter_other opened hdigits, openAfter_other opened hdigits, ih]
  | case4 c rest hc ih => rw [openAfter_cons, openAfter_cons, funext ih]

theorem openAfter_expandRoot (opened s : List Char) : openAfter opened (expandRoot s) = openAfter opened s := by
  fun_induction expandRoot s generalizing opened with
  | case1 => rfl
  | case2 rest more hmore ih =>
    have hblank : ∀ y ∈ '√' :: rest.takeWhile isBlank, isBracket y = false :=
      List.forall_mem_cons.mpr ⟨rfl, fun y hy => not_isBracket (p := isBlank) (by decide) (List.mem_takeWhile_imp hy)⟩
    have hinput : '√' :: rest = ('√' :: rest.takeWhile isBlank) ++ '(' :: more := by
      rw [List.cons_append, ← hmore, List.takeWhile_append_dropWhile]
    rw [hinput, openAfter_other opened hblank, openAfter_cons, ← funext ih, ← openAfter_cons]
    rfl
  | case3 rest hother ih => rw [openAfter_cons, openAfter_cons, funext ih]
  | case4 c rest hc ih => rw [openAfter_cons, openAfter_cons, funext ih]

theorem isBracket_superscript {c d : Char} (h : superscripts.lookup c = some d) :
    isBracket c = false ∧ isBracket d = false :=
  of_decide_eq_true (of_superscripts (fun p => isBracket p.1 = false ∧ isBracket p.2 = false) (by decide) h)

theorem openAfter_lowerSuperscripts (opened s : List Char) :
    openAfter opened (lowerSuperscripts s) = openAfter opened s := by
  have hafter : ∀ raised, openAfter opened (lowerSuperscriptsAfter raised s) = openAfter opened s := by
    induction s generalizing opened with
    | nil => exact fun _ => rfl
    | cons c s ih =>
      intro raised
      rw [lowerSuperscriptsAfter]
      cases hlookup : superscripts.lookup c with
      | none => simp only [openAfter_cons, ih]
      | some d =>
        obtain ⟨hc, hd⟩ := isBracket_superscript hlookup
        have hcaret : isBracket '^' = false := rfl
        cases raised <;> simp [openAfter_cons, step_other, hc, hd, hcaret, ih]
  exact hafter false

theorem openAfter_spellOut (opened s : List Char) : openAfter opened (spellOut s) = openAfter opened s := by
  rw [spellOut, openAfter_lowerSuperscripts, openAfter_expandRoot, openAfter_expandPercent,
    openAfter_flatMap_plainSymbol]

theorem balanced_spellOut_iff {s : List Char} : Balanced (spellOut s) ↔ Balanced s := by
  rw [balanced_iff, openAfter_spellOut, balanced_iff]

/-! ## Accepted inputs -/

theorem prepare_of_checks {cfg : Settings} {s : List Char} (hne : trim s ≠ [])
    (hlength : (trim s).length ≤ cfg.maxInputLength) (hnone : forbidden? (trim s) = none) :
    prepare cfg s = match firstFault (spellOut (trim s)) with
      | some i => .error (.unbalanced i)
      | none => .ok (spellOut (trim s)) := by
  have hempty : ¬(trim s).isEmpty = true := fun h => hne (List.isEmpty_iff.mp h)
  simp only [prepare, if_neg hempty, if_neg (Int.not_lt.mpr hlength), hnone]
  rfl

/-- The bracket check accepts the balanced texts and finds the fault of the others, and an input that passes the
checks before it is accepted exactly if it is balanced itself. -/
theorem prepare_balanced (cfg : Settings) (s : List Char) :
    (firstFault s = none ↔ WellNested (brackets s)) ∧ (∀ i, firstFault s = some i ↔ Fault s i) ∧
      (trim s ≠ [] → (trim s).length ≤ cfg.maxInputLength → forbidden? (trim s) = none →
        ((∃ plain, prepare cfg s = .ok plain) ↔ WellNested (brackets (trim s))) ∧
          (¬WellNested (brackets (trim s)) → ∃ i, prepare cfg s = .error (.unbalanced i))) := by
  refine ⟨firstFault_eq_none_iff, fun _ => firstFault_eq_some_iff, fun hne hlength hnone => ?_⟩
  change (_ ↔ Balanced (trim s)) ∧ (¬Balanced (trim s) → _)
  rw [prepare_of_checks hne hlength hnone, ← balanced_spellOut_iff]
  cases hfault : firstFault (spellOut (trim s)) with
  | none => simp [firstFault_eq_none_iff.mp hfault]
  | some i =>
    have hunbalanced : ¬Balanced (spellOut (trim s)) := fun h => by
      rw [firstFault_balanced h] at hfault
      cases hfault
    simp [hunbalanced]

theorem prepare_balanced_root : ∃ plain, prepare {} ['[', '√', ' ', '(', '5', '0', '%', ')', ']', '²'] = .ok plain := by
  have htrim : trim ['[', '√', ' ', '(', '5', '0', '%', ')', ']', '²'] =
      ['[', '√', ' ', '(', '5', '0', '%', ')', ']', '²'] := by decide
  have hbalanced : Balanced ['[', '√', ' ', '(', '5', '0', '%', ')', ']', '²'] := balanced_iff.mpr (by decide)
  have haccepted := (prepare_balanced {} ['[', '√', ' ', '(', '5', '0', '%', ')', ']', '²']).2.2
  rw [htrim] at haccepted
  exact (haccepted (by decide) (by decide) (by decide)).1.mpr hbalanced

end Surd.Input
