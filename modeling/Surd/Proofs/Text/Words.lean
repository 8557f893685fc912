import Mathlib
import Surd.Proofs.Text.Reading

/-!
# Words in a text that is rewritten

A text may begin with a word in any case, or hold it somewhere. Lowering the text does not change which
words it holds (`infix_lowerAfter`), nor does a rewriting of pieces in which no word starts
(`Rewrites.somewhere`).
-/

namespace Surd.Text

/-- The text begins with the word, in any case, and goes on with a text of the kind. -/
def Begins : List Char → (List Char → Prop) → List Char → Prop
  | [], kind, s => kind s
  | _ :: _, _, [] => False
  | x :: word, kind, c :: s => lowerChar c = x ∧ Begins word kind s

/-- A text of the kind starts somewhere in the text. -/
def Somewhere (kind : List Char → Prop) (s : List Char) : Prop := ∃ rest, rest <:+ s ∧ kind rest

abbrev Anything : List Char → Prop := fun _ => True

/-! ## Words in a text -/

section
variable {kind : List Char → Prop} {x : Char} {word : List Char}

@[simp] theorem begins_nil {s : List Char} : Begins [] kind s ↔ kind s := Iff.rfl

@[simp] theorem begins_cons {c : Char} {s : List Char} :
    Begins (x :: word) kind (c :: s) ↔ lowerChar c = x ∧ Begins word kind s := Iff.rfl

@[simp] theorem not_begins_end : ¬Begins (x :: word) kind [] := id

theorem begins_append (u v : List Char) (s : List Char) : Begins (u ++ v) kind s ↔ Begins u (Begins v kind) s := by
  induction u generalizing s with
  | nil => rfl
  | cons x u ih =>
    cases s with
    | nil => rfl
    | cons c s => simp [ih]

theorem begins_or {other : List Char → Prop} (s : List Char) :
    Begins word (fun r => kind r ∨ other r) s ↔ Begins word kind s ∨ Begins word other s := by
  induction word generalizing s with
  | nil => rfl
  | cons x word ih =>
    cases s with
    | nil => simp
    | cons c s => simp [ih, and_or_left]

theorem begins_congr {other : List Char → Prop} (h : ∀ r, kind r ↔ other r) (s : List Char) :
    Begins word kind s ↔ Begins word other s := by
  rw [funext fun r => propext (h r)]

theorem somewhere_nil : Somewhere kind [] ↔ kind [] := by simp [Somewhere]

theorem somewhere_cons {c : Char} {s : List Char} : Somewhere kind (c :: s) ↔ kind (c :: s) ∨ Somewhere kind s := by
  simp [Somewhere, List.suffix_cons_iff, or_and_right, exists_or]

theorem somewhere_or {other : List Char → Prop} {s : List Char} :
    Somewhere (fun r => kind r ∨ other r) s ↔ Somewhere kind s ∨ Somewhere other s := by
  simp [Somewhere, and_or_left, exists_or]

theorem somewhere_congr {other : List Char → Prop} (h : ∀ r, kind r ↔ other r) (s : List Char) :
    Somewhere kind s ↔ Somewhere other s := by
  rw [funext fun r => propext (h r)]

/-- A word does not start at another character. -/
theorem somewhere_append {a s : List Char} (h : ∀ c ∈ a, lowerChar c ≠ x) :
    Somewhere (Begins (x :: word) kind) (a ++ s) ↔ Somewhere (Begins (x :: word) kind) s := by
  induction a with
  | nil => rfl
  | cons c a ih =>
    have hc : lowerChar c ≠ x := h c (by simp)
    rw [List.cons_append, somewhere_cons, ih fun b hb => h b (by simp [hb])]
    simp [hc]

end

/-! ## Lower case -/

theorem lowerChar_of_outside {c : Char} (h : 0x80 ≤ c.toNat)
    (hr : ∀ r ∈ capitalRuns, ¬(r.1 ≤ c.toNat ∧ c.toNat ≤ r.2.1)) : lowerChar c = c := by
  rw [lowerChar, if_neg (Nat.not_lt.mpr h)]
  have hrun : ∀ {image : Nat × Nat × Nat × Nat → Option Char}, (∀ r ∈ capitalRuns, image r = none) →
      (capitalRuns.findSome? image).getD c = c := fun hnone => by
    rw [List.findSome?_eq_none_iff.mpr hnone, Option.getD_none]
  exact hrun fun r hmem => if_neg fun hin => hr r hmem ⟨hin.1, hin.2.1⟩

theorem zeroDigits_outside :
    (zeroDigits.all fun z => capitalRuns.all fun r => Nat.blt r.2.1 z || Nat.ble (z + 10) r.1) = true := by
  decide

theorem lowerChar_digit {c : Char} (h : isDigit c = true) : lowerChar c = c := by
  by_cases hplain : c.isDigit = true
  · exact of_decide_eq_true (of_plainDigits (fun c => lowerChar c = c) (by decide) hplain)
  · unfold isDigit digit? at h
    rw [List.findSome?_isSome_iff] at h
    obtain ⟨z, hz, hc⟩ := h
    split at hc
    · rename_i hin
      have hfar : ∀ z ∈ zeroDigits, z = 0x30 ∨ 0x80 ≤ z := by decide
      have houtside := List.all_eq_true.mp (List.all_eq_true.mp zeroDigits_outside z hz)
      rcases hfar z hz with rfl | hfar
      · simp only [Char.isDigit, ge_iff_le, UInt32.le_iff_toNat_le, Bool.and_eq_true, decide_eq_true_eq] at hplain
        exact absurd ⟨hin.1, Nat.le_of_lt_succ hin.2⟩ hplain
      · refine lowerChar_of_outside (by omega) fun r hr hin' => ?_
        have := houtside r hr
        simp only [Bool.or_eq_true, Nat.blt_eq, Nat.ble_eq] at this
        omega
    · cases hc

/-- The characters of the tokens, apart from the parenthesis. -/
def nameChars : List Char := ['_', 'a', 'b', 'c', 'd', 'e', 'i', 'l', 'm', 'n', 'o', 'p', 'r', 't', 'v', 'x']

def tokenChars : List Char := '(' :: nameChars

theorem lowerChar_digit_not_mem {c : Char} (h : isDigit c = true) : lowerChar c ∉ tokenChars := by
  have hall : tokenChars.all (fun x => isDigit x = false) = true := by decide
  rw [lowerChar_digit h]
  intro hmem
  have := List.all_eq_true.mp hall c hmem
  simp [h] at this

theorem lowerAfter_other {c : Char} (hsigma : c ≠ 'Σ') (hdot : c ≠ 'İ') (before s : List Char) :
    lowerAfter before (c :: s) = lowerChar c :: lowerAfter (c :: before) s := by
  simp [lowerAfter, hsigma, hdot]

theorem lowerAfter_sigma (before s : List Char) :
    ∃ y ∉ tokenChars, lowerAfter before ('Σ' :: s) = y :: lowerAfter ('Σ' :: before) s := by
  refine ⟨if casedNext before && !casedNext s then 'ς' else 'σ', ?_, rfl⟩
  split <;> decide

theorem lowerChar_sigma_dotted : lowerChar 'Σ' ∉ tokenChars ∧ lowerChar 'İ' ∉ tokenChars := by decide

section
variable {word : List Char} (hword : ∀ y ∈ word, y ∈ tokenChars) (hlast : word.getLast? ≠ some 'i')
include hword hlast

/-- The dot that a lowered `İ` keeps stands in no word, nor does a sigma. -/
theorem prefix_lowerAfter (before s : List Char) : word <+: lowerAfter before s ↔ Begins word Anything s := by
  induction s generalizing word before with
  | nil => cases word <;> simp [lowerAfter]
  | cons c s ih =>
    cases word with
    | nil => simp
    | cons x word =>
      have hx : x ∈ tokenChars := hword x (by simp)
      by_cases hsigma : c = 'Σ'
      · subst hsigma
        -- neither of the two lower sigmas stands in a word
        obtain ⟨y, hy, himage⟩ := lowerAfter_sigma before s
        have hne : x ≠ y := fun h => hy (h ▸ hx)
        have hne' : lowerChar 'Σ' ≠ x := fun h => lowerChar_sigma_dotted.1 (h ▸ hx)
        simp [himage, hne, hne']
      · by_cases hdot : c = 'İ'
        · subst hdot
          -- `İ` becomes an `i`, which ends no word, and a dot, which is in none
          have hne : lowerChar 'İ' ≠ x := fun h => lowerChar_sigma_dotted.2 (h ▸ hx)
          have himage : lowerAfter before ('İ' :: s) = 'i' :: '\u0307' :: lowerAfter ('İ' :: before) s := rfl
          cases word with
          | nil =>
            have hx : x ≠ 'i' := by simpa using hlast
            simp [himage, hne, hx]
          | cons y word =>
            have hy : y ≠ '\u0307' := fun h => by simpa [h, tokenChars, nameChars] using hword y (by simp)
            simp [himage, hne, hy]
        · have hword : ∀ y ∈ word, y ∈ tokenChars := fun y hy => hword y (by simp [hy])
          have hlast : word.getLast? ≠ some 'i' := by
            cases word with
            | nil => simp
            | cons y word => simpa [List.getLast?_cons_cons] using hlast
          simp [lowerAfter_other hsigma hdot, ih hword hlast, eq_comm]

theorem infix_lowerAfter (hne : word ≠ []) (before s : List Char) :
    word <:+: lowerAfter before s ↔ Somewhere (Begins word Anything) s := by
  induction s generalizing before with
  | nil =>
    cases word with
    | nil => exact absurd rfl hne
    | cons x word => simp [lowerAfter, somewhere_nil]
  | cons c s ih =>
    rw [somewhere_cons, ← prefix_lowerAfter hword hlast before, ← ih (c :: before)]
    by_cases hsigma : c = 'Σ'
    · subst hsigma
      obtain ⟨y, _, himage⟩ := lowerAfter_sigma before s
      rw [himage, List.infix_cons_iff]
    · by_cases hdot : c = 'İ'
      · subst hdot
        have himage : lowerAfter before ('İ' :: s) = 'i' :: '\u0307' :: lowerAfter ('İ' :: before) s := rfl
        -- no word starts at the dot
        have hmark : ¬word <+: '\u0307' :: lowerAfter ('İ' :: before) s := by
          cases word with
          | nil => exact absurd rfl hne
          | cons x word =>
            have hx : x ≠ '\u0307' := fun h => by simpa [h, tokenChars, nameChars] using hword x (by simp)
            simp [hx]
        rw [himage, List.infix_cons_iff, List.infix_cons_iff (a := '\u0307'), or_iff_right hmark]
      · rw [lowerAfter_other hsigma hdot, List.infix_cons_iff]

end

/-! ## Rewriting -/

/-- The characters that tokens start with. -/
def tokenHeads : List Char := ['_', 'i', 'l', 'e', 'o']

/-- No word of these characters starts with the piece or in it. -/
structure Foreign (chars piece : List Char) : Prop where
  head : ∃ y t, piece = y :: t ∧ lowerChar y ∉ chars
  starts : ∀ y ∈ piece, lowerChar y ∉ tokenHeads

/-- The text is rewritten in pieces, from left to right, and what is rewritten is foreign to words. -/
structure Rewrites (chars : List Char) (f : List Char → List Char) : Prop where
  nil : f [] = []
  cons : ∀ c s, f (c :: s) = c :: f s ∨
    ∃ a b r, s = a ++ r ∧ f (c :: s) = b ++ f r ∧ Foreign chars (c :: a) ∧ Foreign chars b

namespace Rewrites

variable {chars word : List Char} {f : List Char → List Char} (hf : Rewrites chars f) {kind : List Char → Prop}
include hf

theorem begins (hword : ∀ y ∈ word, y ∈ chars) (s : List Char) :
    Begins word kind (f s) ↔ Begins word (fun r => kind (f r)) s := by
  induction word generalizing s with
  | nil => rfl
  | cons x word ih =>
    have hx : x ∈ chars := hword x (by simp)
    have hword : ∀ y ∈ word, y ∈ chars := fun y hy => hword y (by simp [hy])
    cases s with
    | nil => simp [hf.nil]
    | cons c s =>
      rcases hf.cons c s with hkeep | ⟨a, b, r, rfl, hpiece, ⟨⟨_, _, ha, hc⟩, _⟩, ⟨⟨y, t, rfl, hy⟩, _⟩⟩
      · rw [hkeep, begins_cons, begins_cons, ih hword]
      · obtain ⟨rfl, rfl⟩ := List.cons.inj ha
        have hc : lowerChar c ≠ x := fun h => hc (h ▸ hx)
        have hy : lowerChar y ≠ x := fun h => hy (h ▸ hx)
        simp [hpiece, hc, hy]

theorem somewhere {x : Char} (hx : x ∈ tokenHeads) (hword : ∀ y ∈ x :: word, y ∈ chars) (s : List Char) :
    Somewhere (Begins (x :: word) kind) (f s) ↔ Somewhere (Begins (x :: word) fun r => kind (f r)) s := by
  induction hn : s.length using Nat.strong_induction_on generalizing s with
  | _ n ih =>
    subst hn
    cases s with
    | nil => simp [hf.nil, somewhere_nil]
    | cons c s =>
      rcases hf.cons c s with hkeep | ⟨a, b, r, rfl, hpiece, hca, hb⟩
      · have ih := ih s.length (by simp) s rfl
        rw [somewhere_cons, ← ih, ← hf.begins hword, hkeep, somewhere_cons]
      · have ih := ih r.length (by simp) r rfl
        have hforeign : ∀ {w}, Foreign chars w → ∀ y ∈ w, lowerChar y ≠ x := fun hw y hy h => hw.starts y hy (h ▸ hx)
        rw [hpiece, ← List.cons_append, somewhere_append (hforeign hb), somewhere_append (hforeign hca), ih]

end Rewrites

theorem not_mem_of_all {chars w : List Char} (h : (w.all fun y => !chars.contains (lowerChar y)) = true) :
    ∀ y ∈ w, lowerChar y ∉ chars := by
  simpa using h

theorem foreign_of_forall {chars w : List Char} (hchars : tokenHeads ⊆ chars) (hne : w ≠ [])
    (h : ∀ y ∈ w, lowerChar y ∉ chars) : Foreign chars w where
  head := by
    cases w with
    | nil => exact absurd rfl hne
    | cons y t => exact ⟨y, t, rfl, h y (by simp)⟩
  starts y hy hmem := h y hy (hchars hmem)

end Surd.Text
