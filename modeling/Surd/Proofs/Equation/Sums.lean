import Mathlib
import Surd.Equation.Terms
import Surd.Proofs.Equation.Written
import Surd.Proofs.Text.Words

/-!
# Texts of sums

An equation is two sums of signed bodies, whatever these are. Cleaning lowers letters, drops blanks, drops
stars, and brings superscripts down, each in a pass over the whole text; then the sides are cut at their
signs. `Spelling.terms_eq`: where the passes turn the spellings of a body into one another, the terms that
are read are the plain spellings of the bodies, those of the right side with the other sign.
-/

namespace Surd.Equation

open Text (Spaced)

/-! ## Characters -/

/-- A character in lower case, where a long minus becomes a short one. -/
def plainChar (c : Char) : Char := if Text.lowerChar c = '−' then '-' else Text.lowerChar c

theorem plainChar_of_isDigit {c : Char} (h : Text.isDigit c = true) : plainChar c = c := by
  have hne : c ≠ '−' := by
    rintro rfl
    exact absurd h (by decide)
  rw [plainChar, Text.lowerChar_digit h, if_neg hne]

theorem plainChar_digit {c : Char} (h : c.isDigit = true) : plainChar c = c :=
  plainChar_of_isDigit (Text.isDigit_of_plain h)

theorem map_plainChar {u : List Char} (h : ∀ c ∈ u, plainChar c = c) : u.map plainChar = u := by
  rw [List.map_congr_left h, List.map_id']

/-- A character that neither is a blank nor becomes one, and whose lower case is one character. -/
def IsSolid (c : Char) : Prop := c ≠ 'Σ' ∧ c ≠ 'İ' ∧ Text.isBlank (Text.lowerChar c) = false

instance : DecidablePred IsSolid := fun c =>
  inferInstanceAs (Decidable (c ≠ 'Σ' ∧ c ≠ 'İ' ∧ Text.isBlank (Text.lowerChar c) = false))

theorem isSolid_of_isDigit {c : Char} (h : Text.isDigit c = true) : IsSolid c := by
  refine ⟨?_, ?_, ?_⟩
  · rintro rfl
    exact absurd h (by decide)
  · rintro rfl
    exact absurd h (by decide)
  · rw [Text.lowerChar_digit h]
    exact Text.isBlank_of_isDigit h

theorem isSolid_digit {c : Char} (h : c.isDigit = true) : IsSolid c :=
  isSolid_of_isDigit (Text.isDigit_of_plain h)

theorem isSign_of_isDigit {c : Char} (h : c.isDigit = true) : isSign c = false :=
  of_decide_eq_true (Text.of_plainDigits (fun c => isSign c = false) (by decide) h)

theorem ne_star_of_isDigit {c : Char} (h : c.isDigit = true) : c ≠ '*' := by
  rintro rfl; exact absurd h (by decide)

namespace Sign

def plain : Sign → Char
  | plus => '+'
  | minus | longMinus => '-'

def flip : Sign → Sign
  | plus => minus
  | minus | longMinus => plus

theorem isSolid_char (g : Sign) : IsSolid g.char := by
  cases g <;> decide

theorem plainChar_char (g : Sign) : plainChar g.char = g.plain := by
  cases g <;> decide

theorem isSign_plain (g : Sign) : isSign g.plain = true := by
  cases g <;> rfl

theorem plain_ne_equals (g : Sign) : g.plain ≠ '=' := by
  cases g <;> decide

theorem plain_ne_star (g : Sign) : g.plain ≠ '*' := by
  cases g <;> decide

theorem lookup_plain (g : Sign) : Text.superscripts.lookup g.plain = none := by
  cases g <;> decide

end Sign

/-! ## Rewriting along a text -/

/-- A function that walks along a text with a state rewrites `u` to `v` wherever it meets it. -/
def Rewrites {σ : Type} (F : σ → List Char → List Char) (u v : List Char) : Prop :=
  ∀ p rest, ∃ q, F p (u ++ rest) = v ++ F q rest

namespace Rewrites
variable {σ : Type} {F : σ → List Char → List Char}

theorem nil : Rewrites F [] [] := fun p _ => ⟨p, rfl⟩

theorem append {u₁ v₁ u₂ v₂ : List Char} (h₁ : Rewrites F u₁ v₁) (h₂ : Rewrites F u₂ v₂) :
    Rewrites F (u₁ ++ u₂) (v₁ ++ v₂) := by
  intro p rest
  obtain ⟨q, hq⟩ := h₁ p (u₂ ++ rest)
  obtain ⟨r, hr⟩ := h₂ q rest
  exact ⟨r, by rw [List.append_assoc, hq, hr, List.append_assoc]⟩

theorem cons {c d : Char} {u v : List Char} (h₁ : Rewrites F [c] [d]) (h₂ : Rewrites F u v) :
    Rewrites F (c :: u) (d :: v) := h₁.append h₂

theorem refl_of_forall {u : List Char} (h : ∀ c ∈ u, Rewrites F [c] [c]) : Rewrites F u u := by
  induction u with
  | nil => exact nil
  | cons c u ih => exact (h c (by simp)).cons (ih fun x hx => h x (by simp [hx]))

theorem flatMap {α : Type} {f g : α → List Char} (h : ∀ a, Rewrites F (f a) (g a)) (l : List α) :
    Rewrites F (l.flatMap f) (l.flatMap g) := by
  induction l with
  | nil => exact nil
  | cons a l ih => exact (h a).append ih

end Rewrites

theorem dropStarsAfter_cons {p c : Char} (h : c ≠ '*') (rest : List Char) :
    dropStarsAfter p (c :: rest) = c :: dropStarsAfter c rest := by
  rw [dropStarsAfter]
  rintro v more ⟨⟩
  exact absurd rfl h

theorem keeps_dropStars {c : Char} (h : c ≠ '*') : Rewrites dropStarsAfter [c] [c] :=
  fun _ rest => ⟨c, dropStarsAfter_cons h rest⟩

theorem keeps_superscripts {c : Char} (h : Text.superscripts.lookup c = none) :
    Rewrites Text.lowerSuperscriptsAfter [c] [c] :=
  fun _ _ => ⟨false, by simp [Text.lowerSuperscriptsAfter, h]⟩

theorem keeps_superscripts_of_isDigit {c : Char} (h : Text.isDigit c = true) :
    Rewrites Text.lowerSuperscriptsAfter [c] [c] := by
  have hraised : ∀ p ∈ Text.superscripts, Text.isDigit p.1 = false := by decide
  refine keeps_superscripts (List.lookup_eq_none_iff.mpr fun p hp => ?_)
  rw [bne_iff_ne]
  rintro rfl
  exact absurd h (by simp [hraised p hp])

theorem keeps_superscripts_digit {c : Char} (h : c.isDigit = true) :
    Rewrites Text.lowerSuperscriptsAfter [c] [c] :=
  keeps_superscripts_of_isDigit (Text.isDigit_of_plain h)

theorem clean_of_passes {s t lowered starless plain : List Char} (hs : Spaced s t) (ht : ∀ c ∈ t, IsSolid c)
    (hlowered : t.map plainChar = lowered) (hstarless : Rewrites dropStarsAfter lowered starless)
    (hplain : Rewrites Text.lowerSuperscriptsAfter starless plain) : clean s = plain := by
  have hpass : (Text.squeeze (Text.lower s)).map (fun c => if c = '−' then '-' else c) = lowered := by
    rw [hs.squeeze_lower ht, List.map_map, ← hlowered]
    rfl
  obtain ⟨p, hstars⟩ := hstarless ' ' []
  obtain ⟨q, hraised⟩ := hplain false []
  rw [List.append_nil, dropStarsAfter, List.append_nil] at hstars
  rw [List.append_nil, Text.lowerSuperscriptsAfter, List.append_nil] at hraised
  rw [clean, hpass, hstars, Text.lowerSuperscripts, hraised]

/-! ## Sums -/

/-- A body with its sign. -/
structure Signed (β : Type) where
  sign : Sign
  body : β

/-- A sum of signed bodies. A plus sign in front of the first of them may be left out. -/
structure SignedSum (β : Type) where
  bare : Bool
  first : Signed β
  rest : List (Signed β)

/-- Two sums that are said to be equal. -/
structure Balance (β : Type) where
  left : SignedSum β
  right : SignedSum β

section
variable {β : Type} (sign : Sign → Char) (body : β → List Char)

def Signed.write (t : Signed β) : List Char := sign t.sign :: body t.body

def Signed.flip (t : Signed β) : Signed β := { t with sign := t.sign.flip }

namespace SignedSum

def terms (s : SignedSum β) : List (Signed β) := s.first :: s.rest

def head (s : SignedSum β) : List Char :=
  if s.bare ∧ s.first.sign = .plus then body s.first.body else s.first.write sign body

def write (s : SignedSum β) : List Char := s.head sign body ++ s.rest.flatMap (Signed.write sign body)

end SignedSum

namespace Balance

def write (E : Balance β) : List Char := E.left.write sign body ++ '=' :: E.right.write sign body

def terms (E : Balance β) : List (Signed β) := E.left.terms ++ E.right.terms

/-- The terms with those of the right side brought to the left. -/
def allLeft (E : Balance β) : List (Signed β) := E.left.terms ++ E.right.terms.map Signed.flip

end Balance

variable {sign body}

theorem SignedSum.forall_write {P : Char → Prop} (hs : ∀ g, P (sign g)) (hb : ∀ b, ∀ c ∈ body b, P c)
    (s : SignedSum β) : ∀ c ∈ s.write sign body, P c := by
  have ht : ∀ t : Signed β, ∀ c ∈ t.write sign body, P c := fun t =>
    List.forall_mem_cons.mpr ⟨hs t.sign, hb t.body⟩
  simp only [write, head, List.forall_mem_append, List.forall_mem_flatMap]
  refine ⟨?_, fun t _ => ht t⟩
  split
  · exact hb _
  · exact ht _

theorem Balance.forall_write {P : Char → Prop} (he : P '=') (hs : ∀ g, P (sign g)) (hb : ∀ b, ∀ c ∈ body b, P c)
    (E : Balance β) : ∀ c ∈ E.write sign body, P c := by
  simp only [write, List.forall_mem_append, List.forall_mem_cons]
  exact ⟨E.left.forall_write hs hb, he, E.right.forall_write hs hb⟩

theorem Balance.forall_allLeft {P : β → Prop} (E : Balance β) :
    (∀ t ∈ E.allLeft, P t.body) ↔ ∀ t ∈ E.terms, P t.body := by
  simp only [allLeft, terms, List.forall_mem_append, List.forall_mem_map]
  rfl

theorem Balance.map_write (f : Char → Char) (he : f '=' = '=') (E : Balance β) :
    (E.write sign body).map f = E.write (fun g => f (sign g)) fun b => (body b).map f := by
  have hs : ∀ s : SignedSum β, (s.write sign body).map f = s.write (fun g => f (sign g)) fun b => (body b).map f := by
    intro s
    rw [SignedSum.write, SignedSum.write, List.map_append, List.map_flatMap, SignedSum.head, SignedSum.head]
    split <;> rfl
  rw [write, write, List.map_append, List.map_cons, hs, hs, he]

theorem Rewrites.write {σ : Type} {F : σ → List Char → List Char} {body' : β → List Char}
    (hs : ∀ g, Rewrites F [sign g] [sign g]) (he : Rewrites F ['='] ['='])
    (hb : ∀ b, Rewrites F (body b) (body' b)) (E : Balance β) :
    Rewrites F (E.write sign body) (E.write sign body') := by
  have ht : ∀ t : Signed β, Rewrites F (t.write sign body) (t.write sign body') := fun t =>
    (hs t.sign).cons (hb t.body)
  have hside : ∀ s : SignedSum β, Rewrites F (s.write sign body) (s.write sign body') := by
    intro s
    refine append ?_ (flatMap ht s.rest)
    unfold SignedSum.head
    split
    · exact hb _
    · exact ht _
  exact (hside E.left).append (he.cons (hside E.right))

end

/-! ## Cutting -/

theorem piecesAfter_ne_nil (p : Option Char) (s : List Char) : piecesAfter p s ≠ [] := by
  cases s with
  | nil => simp [piecesAfter]
  | cons c s =>
    rw [piecesAfter]
    split
    · simp
    · split <;> simp

/-- What holds no sign becomes part of the first piece after it. -/
theorem piecesAfter_append {u : List Char} (hu : ∀ c ∈ u, isSign c = false) (p : Option Char) (rest : List Char) :
    piecesAfter p (u ++ rest) = (piecesAfter (u.getLast?.or p) rest).modifyHead (u ++ ·) := by
  induction u generalizing p with
  | nil =>
    obtain ⟨q, qs, hq⟩ := List.exists_cons_of_ne_nil (piecesAfter_ne_nil p rest)
    simp [hq]
  | cons c u ih =>
    have ih := ih (fun x hx => hu x (List.mem_cons_of_mem c hx)) (some c)
    have hc : isSign c = false := hu c (by simp)
    have hlast : (c :: u).getLast?.or p = u.getLast?.or (some c) := by
      rw [List.getLast?_cons]
      cases u.getLast? <;> rfl
    obtain ⟨q, qs, hq⟩ := List.exists_cons_of_ne_nil (piecesAfter_ne_nil (u.getLast?.or (some c)) rest)
    rw [hq] at ih
    rw [List.cons_append, piecesAfter, ih, hlast, hq]
    simp [hc]

theorem piecesAfter_sign {c p : Char} (hc : isSign c = true) (hp : p ≠ '^') (rest : List Char) :
    piecesAfter (some p) (c :: rest) = [] :: (piecesAfter (some c) rest).modifyHead (c :: ·) := by
  obtain ⟨q, qs, hq⟩ := List.exists_cons_of_ne_nil (piecesAfter_ne_nil (some c) rest)
  simp [piecesAfter, hq, hc, hp]

/-- A cleaned text is cut at its only equals sign. -/
theorem terms_of_clean (cfg : Settings) {s u v : List Char} (hlen : s.length ≤ cfg.maxInputLength)
    (hclean : clean s = u ++ '=' :: v) (hu : ∀ c ∈ u, c ≠ '=') (hv : ∀ c ∈ v, c ≠ '=') (hune : u ≠ []) (hvne : v ≠ []) :
    terms cfg s = .ok (splitTerms u ++ (splitTerms v).map flip) := by
  have hkeep : ∀ c ∈ u, (c != '=') = true := fun c hc => by simpa using hu c hc
  have hcount : ∀ {w : List Char}, (∀ c ∈ w, c ≠ '=') → w.count '=' = 0 := fun hw =>
    List.count_eq_zero.mpr fun hmem => hw _ hmem rfl
  have htake := Text.takeWhile_append_stop (v := '=' :: v) hkeep (by simp)
  have hdrop := Text.dropWhile_append_stop (v := '=' :: v) hkeep (by simp)
  have hone : (u ++ '=' :: v).count '=' = 1 := by simp [List.count_append, hcount hu, hcount hv]
  unfold terms
  rw [if_neg (by omega), hclean]
  simp only [hone, ne_eq, not_true_eq_false, if_false]
  rw [htake, hdrop]
  simp only [List.drop_succ_cons, List.drop_zero, hune, hvne, or_self, if_false]
  rfl

/-! ## Spellings -/

/-- The spellings of a body from one pass of cleaning to the next. The plain one holds no sign, and does
not end in a caret. -/
structure Spelling (β : Type) where
  text : β → List Char
  lowered : β → List Char
  starless : β → List Char
  plain : β → List Char
  isSolid_text : ∀ b, ∀ c ∈ text b, IsSolid c
  map_text : ∀ b, (text b).map plainChar = lowered b
  dropStars : ∀ b, Rewrites dropStarsAfter (lowered b) (starless b)
  lowerSuperscripts : ∀ b, Rewrites Text.lowerSuperscriptsAfter (starless b) (plain b)
  plain_char : ∀ b, ∀ c ∈ plain b, isSign c = false ∧ c ≠ '='
  plain_last : ∀ b, ∃ c, (plain b).getLast? = some c ∧ c ≠ '^'

namespace Spelling

variable {β : Type} (S : Spelling β)

/-- The plain text of a term. -/
def term : Signed β → List Char := Signed.write Sign.plain S.plain

theorem term_eq (t : Signed β) : S.term t = t.sign.plain :: S.plain t.body := rfl

theorem clean_eq (E : Balance β) {s : List Char} (h : Spaced s (E.write Sign.char S.text)) :
    clean s = E.write Sign.plain S.plain := by
  have hlowered : (E.write Sign.char S.text).map plainChar = E.write Sign.plain S.lowered := by
    rw [Balance.map_write plainChar (by decide), funext Sign.plainChar_char, funext S.map_text]
  exact clean_of_passes h (E.forall_write (by decide) Sign.isSolid_char S.isSolid_text) hlowered
    (.write (fun g => keeps_dropStars g.plain_ne_star) (keeps_dropStars (by decide)) S.dropStars E)
    (.write (fun g => keeps_superscripts g.lookup_plain) (keeps_superscripts (by decide)) S.lowerSuperscripts E)

theorem isSign_plain (b : β) : ∀ c ∈ S.plain b, isSign c = false := fun c hc => (S.plain_char b c hc).1

theorem plain_ne_nil (b : β) : S.plain b ≠ [] := by
  obtain ⟨c, hc, _⟩ := S.plain_last b
  intro h
  rw [h] at hc
  cases hc

theorem piecesAfter_terms (ts : List (Signed β)) {p : Char} (hp : p ≠ '^') :
    piecesAfter (some p) (ts.flatMap S.term) = [] :: ts.map S.term := by
  induction ts generalizing p with
  | nil => rfl
  | cons t ts ih =>
    obtain ⟨c, hc, hcaret⟩ := S.plain_last t.body
    rw [List.flatMap_cons, S.term_eq, List.cons_append, piecesAfter_sign t.sign.isSign_plain hp,
      piecesAfter_append (S.isSign_plain t.body), hc, Option.some_or, ih hcaret]
    simp [S.term_eq]

theorem signed_term (t : Signed β) : signed (S.term t) = S.term t := by
  simp [S.term_eq, signed, t.sign.isSign_plain]

theorem signed_plain {t : Signed β} (h : t.sign = .plus) : signed (S.plain t.body) = S.term t := by
  obtain ⟨d, u, hu⟩ := List.exists_cons_of_ne_nil (S.plain_ne_nil t.body)
  have hd : isSign d = false := S.isSign_plain t.body d (by simp [hu])
  simp [hu, signed, hd, S.term_eq, h, Sign.plain]

theorem splitTerms_write (s : SignedSum β) : splitTerms (s.write Sign.plain S.plain) = s.terms.map S.term := by
  obtain ⟨c, hc, hcaret⟩ := S.plain_last s.first.body
  have hbody : ∀ p, piecesAfter p (S.plain s.first.body ++ s.rest.flatMap S.term) =
      S.plain s.first.body :: s.rest.map S.term := by
    intro p
    rw [piecesAfter_append (S.isSign_plain s.first.body), hc, Option.some_or, S.piecesAfter_terms s.rest hcaret]
    simp
  have hwhole : piecesAfter none (S.term s.first ++ s.rest.flatMap S.term) =
      S.term s.first :: s.rest.map S.term := by
    rw [S.term_eq, List.cons_append, piecesAfter, hbody]
    simp
  have hwrite : s.write Sign.plain S.plain = s.head Sign.plain S.plain ++ s.rest.flatMap S.term := rfl
  rw [splitTerms, hwrite, SignedSum.head]
  split
  · rename_i h
    rw [hbody, SignedSum.terms]
    simp [S.signed_plain h.2, S.signed_term]
  · have hfirst : s.first.write Sign.plain S.plain = S.term s.first := rfl
    rw [hfirst, hwhole, SignedSum.terms]
    simp [S.signed_term]

theorem flip_term (t : Signed β) : flip (S.term t) = S.term t.flip := by
  obtain ⟨g, b⟩ := t
  cases g <;> rfl

theorem write_ne_nil (s : SignedSum β) : s.write Sign.plain S.plain ≠ [] := by
  have hhead : s.head Sign.plain S.plain ≠ [] := by
    unfold SignedSum.head
    split
    · exact S.plain_ne_nil _
    · simp [Signed.write]
  simp [SignedSum.write, hhead]

theorem ne_equals (s : SignedSum β) : ∀ c ∈ s.write Sign.plain S.plain, c ≠ '=' :=
  s.forall_write Sign.plain_ne_equals fun b c hc => (S.plain_char b c hc).2

/-- The terms that are read are the plain spellings of the terms. -/
theorem terms_eq (cfg : Settings) (E : Balance β) {s : List Char} (h : Spaced s (E.write Sign.char S.text))
    (hlen : s.length ≤ cfg.maxInputLength) : terms cfg s = .ok (E.allLeft.map S.term) := by
  have hright : (E.right.terms.map S.term).map Equation.flip = (E.right.terms.map Signed.flip).map S.term := by
    rw [List.map_map, List.map_map]
    exact List.map_congr_left fun t _ => S.flip_term t
  rw [terms_of_clean cfg hlen (S.clean_eq E h) (S.ne_equals E.left) (S.ne_equals E.right) (S.write_ne_nil E.left)
    (S.write_ne_nil E.right), S.splitTerms_write, S.splitTerms_write, hright, Balance.allLeft, List.map_append]

end Spelling

/-! ## Pieces -/

/-- A text without signs that cleaning leaves as it is. -/
structure Piece where
  text : List Char
  nonempty : text ≠ []
  chars : ∀ c ∈ text, Text.isDigit c = true ∨ c ∈ ['.', '/', '^', 'x']
  last : ∀ c ∈ text.getLast?, c ≠ '^'

namespace Piece

/-- A piece without a caret. -/
def ofText (u : List Char) (hne : u ≠ []) (h : ∀ c ∈ u, Text.isDigit c = true ∨ c ∈ ['.', '/', 'x']) : Piece where
  text := u
  nonempty := hne
  chars c hc := (h c hc).imp_right fun hmark => (show ['.', '/', 'x'] ⊆ ['.', '/', '^', 'x'] by decide) hmark
  last := by
    rintro c hc rfl
    exact absurd (h '^' (List.mem_of_getLast? hc)) (by decide)

theorem forall_text {P : Char → Prop} (hd : ∀ c, Text.isDigit c = true → P c) (hc : P '.' ∧ P '/' ∧ P '^' ∧ P 'x')
    (p : Piece) : ∀ c ∈ p.text, P c := by
  intro c hmem
  rcases p.chars c hmem with hdigit | hmark
  · exact hd c hdigit
  · simp only [List.mem_cons, List.not_mem_nil, or_false] at hmark
    rcases hmark with rfl | rfl | rfl | rfl
    · exact hc.1
    · exact hc.2.1
    · exact hc.2.2.1
    · exact hc.2.2.2

theorem ne_of_mem {b : Char} (hd : Text.isDigit b = false) (hb : b ≠ '.' ∧ b ≠ '/' ∧ b ≠ '^' ∧ b ≠ 'x') (p : Piece) :
    ∀ c ∈ p.text, c ≠ b := by
  refine p.forall_text (fun c hc => ?_) ⟨hb.1.symm, hb.2.1.symm, hb.2.2.1.symm, hb.2.2.2.symm⟩
  rintro rfl
  exact absurd hc (by simp [hd])

def spelling : Spelling Piece where
  text := text
  lowered := text
  starless := text
  plain := text
  isSolid_text p := p.forall_text (fun _ => isSolid_of_isDigit) (by decide)
  map_text p := map_plainChar (p.forall_text (fun _ => plainChar_of_isDigit) (by decide))
  dropStars p := .refl_of_forall fun c hc => keeps_dropStars (p.ne_of_mem (by decide) (by decide) c hc)
  lowerSuperscripts p := by
    refine .refl_of_forall (p.forall_text (fun _ => keeps_superscripts_of_isDigit) ⟨?_, ?_, ?_, ?_⟩)
    all_goals exact keeps_superscripts (by decide)
  plain_char p c hc := by
    have hplus := p.ne_of_mem (b := '+') (by decide) (by decide) c hc
    have hminus := p.ne_of_mem (b := '-') (by decide) (by decide) c hc
    exact ⟨by simp [isSign, hplus, hminus], p.ne_of_mem (by decide) (by decide) c hc⟩
  plain_last p := by
    have hlast := List.getLast?_eq_some_getLast p.nonempty
    exact ⟨_, hlast, p.last _ hlast⟩

/-- Two pieces without a sign are two terms. -/
theorem terms_eq (cfg : Settings) (p q : Piece) (hlen : (p.text ++ '=' :: q.text).length ≤ cfg.maxInputLength) :
    terms cfg (p.text ++ '=' :: q.text) = .ok ['+' :: p.text, '-' :: q.text] := by
  have hwrite : (⟨⟨true, ⟨.plus, p⟩, []⟩, ⟨true, ⟨.plus, q⟩, []⟩⟩ : Balance Piece).write Sign.char text =
      p.text ++ '=' :: q.text := by
    simp [Balance.write, SignedSum.write, SignedSum.head]
  exact spelling.terms_eq cfg ⟨⟨true, ⟨.plus, p⟩, []⟩, ⟨true, ⟨.plus, q⟩, []⟩⟩ (hwrite ▸ Spaced.refl _) hlen

end Piece

/-! ## Adding up -/

/-- A running total of some of the elements is the sum over these. -/
theorem foldl_add_filter {α : Type} (p : α → Prop) [DecidablePred p] (f : α → Rat) (l : List α) (start : Rat) :
    l.foldl (fun total a => if p a then total + f a else total) start = start + ((l.filter p).map f).sum := by
  induction l generalizing start with
  | nil => simp
  | cons a l ih =>
    rw [List.foldl_cons, ih]
    by_cases ha : p a
    · simp [ha, add_assoc]
    · simp [ha]

end Surd.Equation
