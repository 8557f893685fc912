import Mathlib
import Surd.Report
import Surd.Proofs.Equation.Sums

/-!
# Cutting an equation loses nothing

The terms of a side are the side when they are put together again, but for a plus in front of it, and no sign
inside them could have been cut at. The terms of an equation are those of its two sides, with the other sign on
the right; a text without two sides is refused: `terms_split`.
-/

namespace Surd.Equation

/-! ## Terms -/

/-- A sign stands directly behind a caret. -/
def Carets (t : List Char) : Prop := t.IsChain fun a b => isSign b = true → a = '^'

/-- A term begins with a sign, and any other sign in it stands directly behind a caret. -/
structure IsTerm (t : List Char) : Prop where
  sign : ∃ c rest, t = c :: rest ∧ isSign c = true
  carets : Carets t

theorem sign_cases {c : Char} (h : isSign c = true) : c = '+' ∨ c = '-' := by
  simpa [isSign] using h

theorem signed_of_isTerm {t : List Char} (h : IsTerm t) : signed t = t := by
  obtain ⟨c, rest, rfl, hc⟩ := h.sign
  simp [signed, hc]

theorem isTerm_signed {c : Char} {rest : List Char} (h : Carets (c :: rest)) : IsTerm (signed (c :: rest)) := by
  by_cases hc : isSign c = true
  · have hsigned : signed (c :: rest) = c :: rest := by simp [signed, hc]
    rw [hsigned]
    exact ⟨⟨c, rest, rfl, hc⟩, h⟩
  · have hsigned : signed (c :: rest) = '+' :: c :: rest := by simp [signed, hc]
    rw [hsigned]
    refine ⟨⟨'+', c :: rest, rfl, rfl⟩, ?_⟩
    exact List.isChain_cons_cons.mpr ⟨fun h => absurd h hc, h⟩

theorem signed_append {c : Char} (rest more : List Char) :
    signed (c :: rest) ++ more = signed (c :: (rest ++ more)) := by
  by_cases hc : isSign c = true
  · simp [signed, hc]
  · simp [signed, hc]

theorem getLast?_signed {c : Char} (rest : List Char) : (signed (c :: rest)).getLast? = (c :: rest).getLast? := by
  by_cases hc : isSign c = true
  · simp [signed, hc]
  · simp [signed, hc]

theorem flip_flip {t : List Char} (h : IsTerm t) : flip (flip t) = t := by
  obtain ⟨c, rest, rfl, hc⟩ := h.sign
  rcases sign_cases hc with rfl | rfl
  · rfl
  · rfl

theorem isTerm_flip {t : List Char} (h : IsTerm t) : IsTerm (flip t) := by
  obtain ⟨⟨c, rest, rfl, hc⟩, hcarets⟩ := h
  obtain ⟨d, hflip, hd⟩ : ∃ d, flip (c :: rest) = d :: rest ∧ isSign d = true := by
    rcases sign_cases hc with rfl | rfl
    · exact ⟨'-', rfl, rfl⟩
    · exact ⟨'+', rfl, rfl⟩
  rw [hflip]
  refine ⟨⟨d, rest, rfl, hd⟩, ?_⟩
  cases rest with
  | nil => exact List.isChain_singleton d
  | cons e rest =>
    obtain ⟨hfirst, hrest⟩ := List.isChain_cons_cons.mp hcarets
    refine List.isChain_cons_cons.mpr ⟨fun he => ?_, hrest⟩
    rw [hfirst he] at hc
    cases hc

/-! ## Pieces -/

/-- How a text behind a character is cut: the first piece goes on with what the character belongs to, and the
others are terms. No cut is behind a caret. -/
structure Pieces (p : Option Char) (q : List Char) (qs : List (List Char)) : Prop where
  carets : Carets (p.toList ++ q)
  terms : ∀ t ∈ qs, IsTerm t
  uncut : ∀ t ∈ ((p.toList ++ q) :: qs).dropLast, t.getLast? ≠ some '^'

theorem piecesAfter_cons {c : Char} {s q : List Char} {qs : List (List Char)} (h : piecesAfter (some c) s = q :: qs)
    (p : Option Char) : piecesAfter p (c :: s) =
      if isSign c && p.isSome && p != some '^' then [] :: (c :: q) :: qs else (c :: q) :: qs := by
  rw [piecesAfter, h]

theorem pieces_piecesAfter (p : Option Char) (s : List Char) :
    ∃ q qs, piecesAfter p s = q :: qs ∧ q ++ qs.flatten = s ∧ Pieces p q qs := by
  induction s generalizing p with
  | nil =>
    refine ⟨[], [], rfl, rfl, ?_, by simp, by simp⟩
    cases p with
    | none => exact List.isChain_nil
    | some a => exact List.isChain_singleton a
  | cons c s ih =>
    obtain ⟨q, qs, hpieces, hflatten, hcarets, hterms, huncut⟩ := ih (some c)
    simp only [Option.toList_some, List.singleton_append] at hcarets huncut
    rw [piecesAfter_cons hpieces]
    by_cases hcut : (isSign c && p.isSome && p != some '^') = true
    · -- a cut: the sign begins a term, and the first piece ends before it
      simp only [Bool.and_eq_true, bne_iff_ne] at hcut
      obtain ⟨⟨hc, hsome⟩, hcaret⟩ := hcut
      obtain ⟨a, rfl⟩ := Option.isSome_iff_exists.mp hsome
      refine ⟨[], (c :: q) :: qs, by simp [hc, hcaret], by simp [hflatten], List.isChain_singleton a, ?_, ?_⟩
      · exact List.forall_mem_cons.mpr ⟨⟨⟨c, q, rfl, hc⟩, hcarets⟩, hterms⟩
      · simp only [Option.toList_some, List.append_nil, List.dropLast_cons_cons, List.forall_mem_cons]
        exact ⟨hcaret, huncut⟩
    · -- no cut: the character goes to the first piece
      refine ⟨c :: q, qs, if_neg hcut, by simp [hflatten], ?_, hterms, ?_⟩
      · cases p with
        | none => exact hcarets
        | some a =>
          refine List.isChain_cons_cons.mpr ⟨fun hc => ?_, hcarets⟩
          simpa [hc] using hcut
      · cases qs with
        | nil => simp
        | cons t qs =>
          simp only [List.dropLast_cons_cons, List.forall_mem_cons] at huncut ⊢
          refine ⟨?_, huncut.2⟩
          rw [List.getLast?_append_of_ne_nil _ (List.cons_ne_nil c q)]
          exact huncut.1

/-! ## Sides -/

/-- The terms of a side: put together they are the side, with a plus in front of it if it begins with no sign, and
the cuts are before every sign that is neither at the beginning nor behind a caret. -/
structure Splits (side : List Char) (ts : List (List Char)) : Prop where
  nonempty : ts ≠ []
  flatten : ts.flatten = signed side
  terms : ∀ t ∈ ts, IsTerm t
  uncut : ∀ t ∈ ts.dropLast, t.getLast? ≠ some '^'

theorem splits_splitTerms {side : List Char} (h : side ≠ []) : Splits side (splitTerms side) := by
  obtain ⟨c, s, rfl⟩ := List.exists_cons_of_ne_nil h
  obtain ⟨q, qs, hpieces, hflatten, hcarets, hterms, huncut⟩ := pieces_piecesAfter (some c) s
  simp only [Option.toList_some, List.singleton_append] at hcarets huncut
  have hsigned : qs.map signed = qs :=
    (List.map_congr_left fun t ht => signed_of_isTerm (hterms t ht)).trans (List.map_id qs)
  have hsplit : splitTerms (c :: s) = signed (c :: q) :: qs := by
    rw [splitTerms, piecesAfter_cons hpieces]
    simp [hsigned]
  rw [hsplit]
  refine ⟨List.cons_ne_nil _ _, ?_, ?_, ?_⟩
  · rw [List.flatten_cons, signed_append, hflatten]
  · exact List.forall_mem_cons.mpr ⟨isTerm_signed hcarets, hterms⟩
  · cases qs with
    | nil => simp
    | cons t qs =>
      simp only [List.dropLast_cons_cons, List.forall_mem_cons] at huncut ⊢
      exact ⟨by rw [getLast?_signed]; exact huncut.1, huncut.2⟩

/-- The two sides of a text with one equals sign. -/
structure Sides (text left right : List Char) : Prop where
  eq : text = left ++ '=' :: right
  left_ne : left ≠ []
  right_ne : right ≠ []
  left_plain : '=' ∉ left
  right_plain : '=' ∉ right

theorem terms_of_sides (cfg : Settings) {s left right : List Char} (hlen : s.length ≤ cfg.maxInputLength)
    (h : Sides (clean s) left right) : terms cfg s = .ok (splitTerms left ++ (splitTerms right).map flip) :=
  terms_of_clean cfg hlen h.eq (fun _ hc => ne_of_mem_of_not_mem hc h.left_plain)
    (fun _ hc => ne_of_mem_of_not_mem hc h.right_plain) h.left_ne h.right_ne

theorem sides_of_count {text : List Char} (hcount : text.count '=' = 1) (hleft : text.takeWhile (· != '=') ≠ [])
    (hright : (text.dropWhile (· != '=')).drop 1 ≠ []) :
    Sides text (text.takeWhile (· != '=')) ((text.dropWhile (· != '=')).drop 1) := by
  obtain ⟨rest, hrest⟩ : ∃ rest, text.dropWhile (· != '=') = '=' :: rest := by
    cases hdrop : text.dropWhile (· != '=') with
    | nil =>
      rw [hdrop] at hright
      exact absurd rfl hright
    | cons c rest =>
      have hc := List.head?_dropWhile_not (· != '=') text
      rw [hdrop] at hc
      simp only [List.head?_cons, bne_eq_false_iff_eq] at hc
      exact ⟨rest, by rw [hc]⟩
  have hwhole : text = text.takeWhile (· != '=') ++ '=' :: rest := by
    rw [← hrest, List.takeWhile_append_dropWhile]
  have hnone : '=' ∉ text.takeWhile (· != '=') := fun hmem => by simpa using List.mem_takeWhile_imp hmem
  rw [hrest] at hright ⊢
  refine ⟨hwhole, hleft, hright, hnone, ?_⟩
  rw [hwhole, List.count_append, List.count_eq_zero.mpr hnone, List.count_cons_self] at hcount
  exact List.count_eq_zero.mp (by simpa using hcount)

theorem terms_of_not_sides (cfg : Settings) {s : List Char} (hlen : s.length ≤ cfg.maxInputLength)
    (h : ¬∃ left right, Sides (clean s) left right) :
    ∃ e, terms cfg s = .error e ∧ e.kind = .parse ∧ e.code = some "INVALID_FORMAT" := by
  unfold terms
  dsimp only
  rw [if_neg (by omega)]
  by_cases hcount : (clean s).count '=' = 1
  · rw [if_neg (not_not.mpr hcount), if_pos]
    · exact ⟨_, rfl, rfl, rfl⟩
    · by_contra hne
      rw [not_or] at hne
      exact h ⟨_, _, sides_of_count hcount hne.1 hne.2⟩
  · rw [if_pos hcount]
    exact ⟨_, rfl, rfl, rfl⟩

/-- The terms of an equation are those of its sides, and nothing of these is lost. A text is refused exactly if
it is too long or its cleaned text does not have two sides. -/
theorem terms_split (cfg : Settings) (s : List Char) :
    (s.length ≤ cfg.maxInputLength ∧ ∃ left right first second, Sides (clean s) left right ∧
      terms cfg s = .ok (first ++ second) ∧ Splits left first ∧ Splits right (second.map flip) ∧
      ∀ t ∈ first ++ second, IsTerm t) ∨
    (cfg.maxInputLength < s.length ∧ ∃ e, terms cfg s = .error e ∧ e.kind = .validation) ∨
    (s.length ≤ cfg.maxInputLength ∧ (¬∃ left right, Sides (clean s) left right) ∧
      ∃ e, terms cfg s = .error e ∧ e.kind = .parse ∧ e.code = some "INVALID_FORMAT") := by
  by_cases hlong : cfg.maxInputLength < s.length
  · refine .inr (.inl ⟨hlong, ?_⟩)
    unfold terms
    dsimp only
    rw [if_pos hlong]
    exact ⟨_, rfl, rfl⟩
  · have hlen := not_lt.mp hlong
    by_cases hsides : ∃ left right, Sides (clean s) left right
    · obtain ⟨left, right, h⟩ := hsides
      have hleft := splits_splitTerms h.left_ne
      have hright := splits_splitTerms h.right_ne
      have hback : ((splitTerms right).map flip).map flip = splitTerms right := by
        rw [List.map_map]
        exact (List.map_congr_left fun t ht => flip_flip (hright.terms t ht)).trans (List.map_id _)
      refine .inl ⟨hlen, left, right, _, _, h, terms_of_sides cfg hlen h, hleft, hback.symm ▸ hright, ?_⟩
      rw [List.forall_mem_append, List.forall_mem_map]
      exact ⟨hleft.terms, fun t ht => isTerm_flip (hright.terms t ht)⟩
    · exact .inr (.inr ⟨hlen, hsides, terms_of_not_sides cfg hlen hsides⟩)

example : terms {} "-x ^ -2 = 3 - X".toList = .ok ["-x^-2".toList, "-3".toList, "+x".toList] := by decide +kernel

end Surd.Equation
