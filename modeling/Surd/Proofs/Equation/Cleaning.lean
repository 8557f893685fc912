import Mathlib
import Surd.Proofs.Equation.Sums

/-!
# Cleaning a written equation

The spellings of a body from one pass of cleaning to the next: `Body.spelling`. Whatever the spelling of a
written equation, its plain text is left.
-/

namespace Surd.Equation

open Text (Spaced)

/-! ## Plain spellings -/

namespace Exponent

def plain : Exponent → List Char
  | unwritten => []
  | caret n | raised n => '^' :: n.digits

end Exponent

namespace Body

def quantityText : Option Multiplier → List Char
  | none => []
  | some m => m.quantity.text

def lowered : Body → List Char
  | constant q => q.text
  | unknown m _ e => multiplierText m ++ 'x' :: e.text

def starless : Body → List Char
  | constant q => q.text
  | unknown m _ e => quantityText m ++ 'x' :: e.text

/-- In lower case, without a star, and with a caret before the power. -/
def plain : Body → List Char
  | constant q => q.text
  | unknown m _ e => quantityText m ++ 'x' :: e.plain

end Body

/-! ## Characters of a text -/

section
variable {P : Char → Prop}

theorem Quantity.forall_text (hd : ∀ c, c.isDigit = true → P c) (hs : P '/') (q : Quantity) :
    ∀ c ∈ q.text, P c := by
  cases q with
  | integer n => exact fun c hc => hd c (n.plain c hc)
  | fraction n d _ =>
    simp only [Quantity.text, List.forall_mem_append, List.forall_mem_cons]
    exact ⟨fun c hc => hd c (n.plain c hc), hs, fun c hc => hd c (d.plain c hc)⟩

theorem Exponent.forall_text (hd : ∀ c, c.isDigit = true → P c) (hr : ∀ c, c.isDigit = true → P (raise c))
    (hc : P '^') (e : Exponent) : ∀ c ∈ e.text, P c := by
  cases e with
  | unwritten => simp [Exponent.text]
  | caret n =>
    simp only [Exponent.text, List.forall_mem_cons]
    exact ⟨hc, fun c h => hd c (n.plain c h)⟩
  | raised n =>
    simp only [Exponent.text, List.forall_mem_map]
    exact fun c h => hr c (n.plain c h)

theorem Body.forall_multiplierText (hd : ∀ c, c.isDigit = true → P c) (hs : P '/') (hstar : P '*')
    (m : Option Multiplier) : ∀ c ∈ multiplierText m, P c := by
  cases m with
  | none => simp [multiplierText]
  | some m =>
    rw [multiplierText, List.forall_mem_append]
    refine ⟨m.quantity.forall_text hd hs, fun c h => ?_⟩
    split at h
    · rw [List.mem_singleton.mp h]
      exact hstar
    · cases h

theorem Body.forall_quantityText (hd : ∀ c, c.isDigit = true → P c) (hs : P '/') (m : Option Multiplier) :
    ∀ c ∈ quantityText m, P c := by
  cases m with
  | none => simp [quantityText]
  | some m => exact m.quantity.forall_text hd hs

theorem Body.forall_text (hd : ∀ c, c.isDigit = true → P c) (hr : ∀ c, c.isDigit = true → P (Exponent.raise c))
    (hc : ∀ c ∈ ['/', '^', '*', 'x', 'X'], P c) (b : Body) : ∀ c ∈ b.text, P c := by
  have hs := hc '/' (by simp)
  cases b with
  | constant q => exact q.forall_text hd hs
  | unknown m capital e =>
    simp only [Body.text, List.forall_mem_append, List.forall_mem_cons]
    refine ⟨forall_multiplierText hd hs (hc '*' (by simp)) m, ?_, e.forall_text hd hr (hc '^' (by simp))⟩
    split
    · exact hc 'X' (by simp)
    · exact hc 'x' (by simp)

theorem Body.forall_plain (hd : ∀ c, c.isDigit = true → P c) (hc : ∀ c ∈ ['/', '^', 'x'], P c) (b : Body) :
    ∀ c ∈ b.plain, P c := by
  have hs := hc '/' (by simp)
  cases b with
  | constant q => exact q.forall_text hd hs
  | unknown m capital e =>
    simp only [Body.plain, List.forall_mem_append, List.forall_mem_cons]
    refine ⟨forall_quantityText hd hs m, hc 'x' (by simp), ?_⟩
    cases e with
    | unwritten => simp [Exponent.plain]
    | caret n | raised n =>
      simp only [Exponent.plain, List.forall_mem_cons]
      exact ⟨hc '^' (by simp), fun c h => hd c (n.plain c h)⟩

end

/-! ## Lower case -/

theorem plainChar_raise {c : Char} (h : c.isDigit = true) : plainChar (Exponent.raise c) = Exponent.raise c :=
  of_decide_eq_true
    (Text.of_plainDigits (fun c => plainChar (Exponent.raise c) = Exponent.raise c) (by decide) h)

theorem Quantity.map_plainChar (q : Quantity) : q.text.map plainChar = q.text :=
  Equation.map_plainChar (q.forall_text (fun _ h => plainChar_digit h) (by decide))

theorem Exponent.map_plainChar (e : Exponent) : e.text.map plainChar = e.text :=
  Equation.map_plainChar
    (e.forall_text (fun _ h => plainChar_digit h) (fun _ h => plainChar_raise h) (by decide))

theorem Body.map_multiplierText (m : Option Multiplier) : (multiplierText m).map plainChar = multiplierText m :=
  Equation.map_plainChar
    (forall_multiplierText (fun _ h => plainChar_digit h) (by decide) (by decide) m)

theorem Body.map_plainChar (b : Body) : b.text.map plainChar = b.lowered := by
  have hx : plainChar 'x' = 'x' := by decide
  have hX : plainChar 'X' = 'x' := by decide
  cases b with
  | constant q => exact q.map_plainChar
  | unknown m capital e =>
    rw [Body.text, List.map_append, List.map_cons, map_multiplierText, e.map_plainChar, Body.lowered]
    split
    · rw [hX]
    · rw [hx]

/-! ## Stars -/

theorem Numeral.last_eq (n : Numeral) :
    ∃ u c, n.digits = u ++ [c] ∧ c.isDigit = true ∧ ∀ b ∈ u, b.isDigit = true := by
  refine ⟨n.digits.dropLast, n.digits.getLast n.nonempty, (List.dropLast_append_getLast n.nonempty).symm, ?_, ?_⟩
  · exact n.plain _ (List.getLast_mem n.nonempty)
  · exact fun b hb => n.plain b (List.mem_of_mem_dropLast hb)

theorem Quantity.last_eq (q : Quantity) :
    ∃ u c, q.text = u ++ [c] ∧ c.isDigit = true ∧ ∀ b ∈ u, b.isDigit = true ∨ b = '/' := by
  cases q with
  | integer n =>
    obtain ⟨u, c, hn, hc, hu⟩ := n.last_eq
    exact ⟨u, c, hn, hc, fun b hb => .inl (hu b hb)⟩
  | fraction n d _ =>
    obtain ⟨u, c, hd, hc, hu⟩ := d.last_eq
    refine ⟨n.digits ++ '/' :: u, c, by simp [Quantity.text, hd], hc, ?_⟩
    rw [List.forall_mem_append, List.forall_mem_cons]
    exact ⟨fun b hb => .inl (n.plain b hb), .inr rfl, fun b hb => .inl (hu b hb)⟩

theorem Quantity.text_ne_nil (q : Quantity) : q.text ≠ [] := by
  obtain ⟨u, c, hq, _⟩ := q.last_eq
  simp [hq]

theorem Quantity.keeps_dropStars (q : Quantity) : Rewrites dropStarsAfter q.text q.text :=
  .refl_of_forall (q.forall_text (fun _ h => Equation.keeps_dropStars (ne_star_of_isDigit h))
    (Equation.keeps_dropStars (by decide)))

/-- A star between a number and a letter of a variable is dropped. -/
theorem Quantity.drops_star (q : Quantity) {v : Char} (hv : v = 'x' ∨ v = 'y' ∨ v = 'z') :
    Rewrites dropStarsAfter (q.text ++ ['*', v]) (q.text ++ [v]) := by
  obtain ⟨u, c, hq, hc, hu⟩ := q.last_eq
  have hu : Rewrites dropStarsAfter u u := by
    refine .refl_of_forall fun b hb => Equation.keeps_dropStars ?_
    rcases hu b hb with hb | rfl
    · exact ne_star_of_isDigit hb
    · decide
  have hlast : Rewrites dropStarsAfter [c, '*', v] [c, v] := by
    intro p rest
    refine ⟨v, ?_⟩
    rw [List.cons_append, dropStarsAfter_cons (ne_star_of_isDigit hc)]
    rcases hv with rfl | rfl | rfl <;> simp [dropStarsAfter, Text.isDigit_of_plain hc]
  rw [hq, List.append_assoc, List.append_assoc]
  exact hu.append hlast

theorem Exponent.keeps_dropStars (e : Exponent) : Rewrites dropStarsAfter e.text e.text := by
  have hr : ∀ c, c.isDigit = true → Exponent.raise c ≠ '*' := fun c hc =>
    of_decide_eq_true (Text.of_plainDigits (fun c => Exponent.raise c ≠ '*') (by decide) hc)
  exact .refl_of_forall (e.forall_text (fun _ h => Equation.keeps_dropStars (ne_star_of_isDigit h))
    (fun _ h => Equation.keeps_dropStars (hr _ h)) (Equation.keeps_dropStars (by decide)))

/-- In front of a letter of a variable, a coefficient loses its star. -/
theorem Body.drops_multiplierStar (m : Option Multiplier) {v : Char} (hv : v = 'x' ∨ v = 'y' ∨ v = 'z') :
    Rewrites dropStarsAfter (multiplierText m ++ [v]) (quantityText m ++ [v]) := by
  have hkeep : Rewrites dropStarsAfter [v] [v] := by
    refine Equation.keeps_dropStars ?_
    rcases hv with rfl | rfl | rfl <;> decide
  cases m with
  | none => exact hkeep
  | some m =>
    cases hs : m.starred with
    | false => simpa [multiplierText, quantityText, hs] using m.quantity.keeps_dropStars.append hkeep
    | true => simpa [multiplierText, quantityText, hs] using m.quantity.drops_star hv

theorem Body.dropStars (b : Body) : Rewrites dropStarsAfter b.lowered b.starless := by
  cases b with
  | constant q => exact q.keeps_dropStars
  | unknown m capital e =>
    have hrewrites := (drops_multiplierStar m (.inl rfl)).append e.keeps_dropStars
    simpa [lowered, starless] using hrewrites

/-! ## Superscripts -/

theorem lookup_raise {c : Char} (h : c.isDigit = true) : Text.superscripts.lookup (Exponent.raise c) = some c :=
  of_decide_eq_true
    (Text.of_plainDigits (fun c => Text.superscripts.lookup (Exponent.raise c) = some c) (by decide) h)

theorem lowerSuperscriptsAfter_raised {ds : List Char} (hd : ∀ c ∈ ds, c.isDigit = true) (rest : List Char) :
    Text.lowerSuperscriptsAfter true (ds.map Exponent.raise ++ rest) =
      ds ++ Text.lowerSuperscriptsAfter true rest := by
  induction ds with
  | nil => rfl
  | cons c ds ih =>
    have ih := ih fun b hb => hd b (by simp [hb])
    simp [Text.lowerSuperscriptsAfter, lookup_raise (hd c (by simp)), ih]

theorem Exponent.lowerSuperscripts (e : Exponent) :
    Rewrites Text.lowerSuperscriptsAfter ('x' :: e.text) ('x' :: e.plain) := by
  have hx : Rewrites Text.lowerSuperscriptsAfter ['x'] ['x'] := keeps_superscripts (by decide)
  cases e with
  | unwritten => exact hx
  | caret n =>
    exact hx.cons ((keeps_superscripts (by decide)).cons
      (.refl_of_forall fun c hc => keeps_superscripts_digit (n.plain c hc)))
  | raised n =>
    intro p rest
    have hn := n.plain
    refine ⟨true, ?_⟩
    cases hds : n.digits with
    | nil => exact absurd hds n.nonempty
    | cons c ds =>
      rw [hds] at hn
      have hx : Text.superscripts.lookup 'x' = none := by decide
      have htail := lowerSuperscriptsAfter_raised (fun b hb => hn b (List.mem_cons_of_mem c hb)) rest
      simp [Exponent.text, Exponent.plain, hds, Text.lowerSuperscriptsAfter, hx, lookup_raise (hn c (by simp)),
        htail]

theorem Body.lowerSuperscripts (b : Body) : Rewrites Text.lowerSuperscriptsAfter b.starless b.plain := by
  have hslash : Rewrites Text.lowerSuperscriptsAfter ['/'] ['/'] := keeps_superscripts (by decide)
  cases b with
  | constant q => exact .refl_of_forall (q.forall_text (fun _ h => keeps_superscripts_digit h) hslash)
  | unknown m capital e =>
    have hm : Rewrites Text.lowerSuperscriptsAfter (quantityText m) (quantityText m) :=
      .refl_of_forall (forall_quantityText (fun _ h => keeps_superscripts_digit h) hslash m)
    exact hm.append e.lowerSuperscripts

/-! ## The plain text -/

theorem Body.isSolid_text (b : Body) : ∀ c ∈ b.text, IsSolid c := by
  have hr : ∀ c, c.isDigit = true → IsSolid (Exponent.raise c) := fun c hc =>
    of_decide_eq_true (Text.of_plainDigits (fun c => IsSolid (Exponent.raise c)) (by decide) hc)
  refine b.forall_text (fun _ h => isSolid_digit h) hr ?_
  simp only [List.forall_mem_cons, List.not_mem_nil, false_implies, implies_true, and_true]
  decide

theorem Body.plain_char (b : Body) : ∀ c ∈ b.plain, isSign c = false ∧ c ≠ '=' := by
  refine b.forall_plain (fun c h => ⟨isSign_of_isDigit h, ?_⟩) (by simp [isSign])
  rintro rfl
  exact absurd h (by decide)

theorem Body.last_plain (b : Body) : ∃ c, b.plain.getLast? = some c ∧ c ≠ '^' := by
  have hd : ∀ c, c.isDigit = true → c ≠ '^' := by
    rintro c h rfl
    exact absurd h (by decide)
  cases b with
  | constant q =>
    obtain ⟨u, c, hq, hc, _⟩ := q.last_eq
    exact ⟨c, by simp [Body.plain, hq], hd c hc⟩
  | unknown m capital e =>
    cases e with
    | unwritten => exact ⟨'x', by simp [Body.plain, Exponent.plain], by decide⟩
    | caret n | raised n =>
      obtain ⟨u, c, hn, hc, _⟩ := n.last_eq
      exact ⟨c, by simp [Body.plain, Exponent.plain, hn, List.getLast?_cons], hd c hc⟩

def Body.spelling : Spelling Body where
  text := Body.text
  lowered := Body.lowered
  starless := Body.starless
  plain := Body.plain
  isSolid_text := Body.isSolid_text
  map_text := Body.map_plainChar
  dropStars := Body.dropStars
  lowerSuperscripts := Body.lowerSuperscripts
  plain_char := Body.plain_char
  plain_last := Body.last_plain

end Surd.Equation
