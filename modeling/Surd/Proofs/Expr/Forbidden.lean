import Mathlib
import Surd.Expr.Prepare
import Surd.Proofs.Text.Words

/-!
# Forbidden tokens in the prepared input

The tokens are looked for before the input is spelled out, and spelling it out can complete two of them:
`open` gets the parenthesis that a percentage begins with, and `mport` the end of a spelled-out `π`.
`prepare_token_iff` says that no other token comes about.
-/

namespace Surd.Input

open Text

/-! ## Superscripts -/

theorem of_superscripts (f : Char × Char → Bool) (hf : superscripts.all f = true) {c d : Char}
    (h : superscripts.lookup c = some d) : f (c, d) = true := by
  obtain ⟨l₁, l₂, heq, _⟩ := List.lookup_eq_some_iff.mp h
  have hmem : (c, d) ∈ superscripts := by rw [heq]; simp
  exact List.all_eq_true.mp hf (c, d) hmem

theorem superscripts_not_mem {c d : Char} (h : superscripts.lookup c = some d) :
    lowerChar c ∉ tokenChars ∧ lowerChar d ∉ tokenChars :=
  of_decide_eq_true
    (of_superscripts (fun p => lowerChar p.1 ∉ tokenChars ∧ lowerChar p.2 ∉ tokenChars) (by decide) h)

/-- What is left of a run of superscripts is raised like its start. -/
theorem lowerSuperscriptsAfter_run (s : List Char) : ∃ a b r, s = a ++ r ∧
    lowerSuperscriptsAfter true s = b ++ lowerSuperscripts r ∧
      (∀ y ∈ a, lowerChar y ∉ tokenChars) ∧ ∀ y ∈ b, lowerChar y ∉ tokenChars := by
  induction s with
  | nil => exact ⟨[], [], [], rfl, rfl, by simp, by simp⟩
  | cons c s ih =>
    cases hlookup : superscripts.lookup c with
    | none =>
      have hplain : lowerSuperscriptsAfter true (c :: s) = lowerSuperscripts (c :: s) := by
        simp [lowerSuperscripts, lowerSuperscriptsAfter, hlookup]
      exact ⟨[], [], c :: s, rfl, hplain, by simp, by simp⟩
    | some d =>
      obtain ⟨a, b, r, rfl, hrun, ha, hb⟩ := ih
      obtain ⟨hc, hd⟩ := superscripts_not_mem hlookup
      exact ⟨c :: a, d :: b, r, rfl, by simp [lowerSuperscriptsAfter, hlookup, hrun], by simpa [hc] using ha,
        by simpa [hd] using hb⟩

theorem tokenHeads_subset : tokenHeads ⊆ nameChars := by decide

theorem rewrites_lowerSuperscripts : Rewrites tokenChars lowerSuperscripts where
  nil := rfl
  cons c s := by
    cases hlookup : superscripts.lookup c with
    | none => exact .inl (by simp [lowerSuperscripts, lowerSuperscriptsAfter, hlookup])
    | some d =>
      obtain ⟨a, b, r, hs, hrun, ha, hb⟩ := lowerSuperscriptsAfter_run s
      obtain ⟨hc, hd⟩ := superscripts_not_mem hlookup
      have hcaret : lowerChar '^' ∉ tokenChars := by decide
      have hheads : tokenHeads ⊆ tokenChars := fun x hx => List.mem_cons_of_mem _ (tokenHeads_subset hx)
      refine .inr ⟨a, '^' :: d :: b, r, hs, ?_, ?_, ?_⟩
      · simp [lowerSuperscripts, lowerSuperscriptsAfter, hlookup, hrun]
      · exact foreign_of_forall hheads (by simp) (by simpa [hc] using ha)
      · exact foreign_of_forall hheads (by simp) (by simpa [hcaret, hd] using hb)

/-! ## Root signs -/

theorem lowerChar_root : lowerChar '√' = '√' := by decide

theorem rewrites_expandRoot : Rewrites tokenChars expandRoot where
  nil := by rw [expandRoot]
  cons c s := by
    by_cases hc : c = '√'
    · subst hc
      rw [expandRoot]
      split
      · rename_i more hmore
        have hs : s = s.takeWhile isBlank ++ '(' :: more := by rw [← hmore, List.takeWhile_append_dropWhile]
        have hblank : ∀ y, isBlank y = true → lowerChar y ∉ tokenHeads := fun y hy => by
          have hall : tokenHeads.all (fun x => isBlank x = false) = true := by decide
          intro hmem
          rw [lowerChar_blank hy] at hmem
          simpa [hy] using List.all_eq_true.mp hall y hmem
        refine .inr ⟨s.takeWhile isBlank ++ ['('], ['s', 'q', 'r', 't', '('], more, by simpa using hs, rfl, ?_, ?_⟩
        · refine ⟨⟨'√', _, rfl, by rw [lowerChar_root]; decide⟩, ?_⟩
          have hroot : lowerChar '√' ∉ tokenHeads := by rw [lowerChar_root]; decide
          have hopen : lowerChar '(' ∉ tokenHeads := by decide
          simp only [List.forall_mem_cons, List.forall_mem_append, hroot, hopen, not_false_eq_true, true_and,
            List.not_mem_nil, false_implies, implies_true, and_true]
          exact fun y hy => hblank y (List.mem_takeWhile_imp hy)
        · exact ⟨⟨'s', _, rfl, by decide⟩, not_mem_of_all (by decide)⟩
      · exact .inl rfl
    · left
      rw [expandRoot]
      exact hc

/-! ## Percentages -/

/-- The text begins with a percentage. -/
def StartsPercentage : List Char → Prop
  | [] => False
  | c :: s => isDigit c = true ∧ (afterPercentDigits (s.dropWhile isDigit)).isSome = true

theorem afterPercentDigits_eq {s fraction more : List Char} (h : afterPercentDigits s = some (fraction, more)) :
    s = fraction ++ '%' :: more ∧ ∀ y ∈ fraction, y = '.' ∨ isDigit y = true := by
  unfold afterPercentDigits at h
  split at h
  · cases h
    simp
  · rename_i rest
    have hsplit := (List.takeWhile_append_dropWhile (p := isDigit) (l := rest)).symm
    dsimp only at h
    split at h
    · rename_i d ds more' hdigits hmore
      cases h
      refine ⟨by rw [List.cons_append, ← hmore, ← hsplit], ?_⟩
      simp only [List.forall_mem_cons, true_or, true_and]
      exact fun y hy => .inr (List.mem_takeWhile_imp hy)
    · cases h
  · cases h

theorem rewrites_expandPercent : Rewrites nameChars expandPercent where
  nil := by rw [expandPercent]
  cons c s := by
    have hdigit : ∀ y, isDigit y = true → lowerChar y ∉ nameChars := fun y hy hmem =>
      lowerChar_digit_not_mem hy (List.mem_cons_of_mem _ hmem)
    rw [expandPercent]
    split
    · rename_i hc
      have hs := (List.takeWhile_append_dropWhile (p := isDigit) (l := s)).symm
      have hdigits : ∀ y ∈ c :: s.takeWhile isDigit, lowerChar y ∉ nameChars := by
        simp only [List.forall_mem_cons, hdigit c hc, not_false_eq_true, true_and]
        exact fun y hy => hdigit y (List.mem_takeWhile_imp hy)
      right
      dsimp only
      split
      · -- a percentage gets parentheses and a division, none of which a name has
        rename_i fraction more hsome
        obtain ⟨hmore, hfraction⟩ := afterPercentDigits_eq hsome
        have hfraction : ∀ y ∈ fraction, lowerChar y ∉ nameChars := fun y hy => by
          rcases hfraction y hy with rfl | hy
          · decide
          · exact hdigit y hy
        rw [hmore] at hs
        refine ⟨s.takeWhile isDigit ++ fraction ++ ['%'], _, more, by simpa using hs, rfl, ?_, ?_⟩
        · refine foreign_of_forall tokenHeads_subset (by simp) ?_
          rw [← List.cons_append, ← List.cons_append, List.forall_mem_append, List.forall_mem_append]
          exact ⟨⟨hdigits, hfraction⟩, not_mem_of_all (by decide)⟩
        · refine foreign_of_forall tokenHeads_subset (by simp) ?_
          rw [List.forall_mem_append, List.forall_mem_append, List.forall_mem_cons]
          exact ⟨⟨⟨by decide, hdigits⟩, hfraction⟩, not_mem_of_all (by decide)⟩
      · -- digits that are no percentage stay
        exact ⟨_, _, _, hs, rfl, foreign_of_forall tokenHeads_subset (by simp) hdigits,
          foreign_of_forall tokenHeads_subset (by simp) hdigits⟩
    · exact .inl rfl

theorem begins_parenthesis_expandPercent (s : List Char) :
    Begins ['('] Anything (expandPercent s) ↔ Begins ['('] Anything s ∨ StartsPercentage s := by
  cases s with
  | nil => simp [expandPercent, StartsPercentage]
  | cons c s =>
    rw [expandPercent]
    split
    · rename_i hc
      have hne : lowerChar c ≠ '(' := fun h => lowerChar_digit_not_mem hc (h ▸ List.mem_cons_self)
      dsimp only
      split
      · rename_i hsome
        simp [StartsPercentage, hc, hsome, (by decide : lowerChar '(' = '(')]
      · rename_i hnone
        simp [StartsPercentage, hnone, hne]
    · rename_i hc
      simp [StartsPercentage, hc]

/-! ## Operators and `π` -/

/-- The character, in this case only, is followed by a text of the kind. -/
def Follows (c : Char) (kind : List Char → Prop) : List Char → Prop
  | [] => False
  | d :: s => d = c ∧ kind s

theorem plainSymbol_cases (c : Char) : c = 'π' ∨ plainSymbol c = [c] ∧ c ≠ 'π' ∨
    ∃ y, plainSymbol c = [y] ∧ c ≠ 'π' ∧ lowerChar c ∉ tokenChars ∧ lowerChar y ∉ tokenChars := by
  by_cases hpi : c = 'π'
  · exact .inl hpi
  · unfold plainSymbol
    split
    · rename_i h
      exact .inr (.inr ⟨'*', rfl, hpi, h ▸ not_mem_of_all (w := ['×']) (by decide) _ (by simp), by decide⟩)
    · split
      · rename_i h
        exact .inr (.inr ⟨'/', rfl, hpi, h ▸ not_mem_of_all (w := ['÷']) (by decide) _ (by simp), by decide⟩)
      · split
        · rename_i h
          exact .inr (.inr ⟨'-', rfl, hpi, h ▸ not_mem_of_all (w := ['−']) (by decide) _ (by simp), by decide⟩)
        · simp [hpi]

theorem lowerChar_pi : lowerChar 'π' = 'π' := by decide

section
variable {word : List Char} {kind : List Char → Prop} (hword : ∀ y ∈ word, y ∈ tokenChars) (hi : 'i' ∉ word)
  (hp : word.getLast? ≠ some 'p')
include hword hi hp

/-- In no word does an `i` follow a `p`. -/
theorem begins_plainSymbol (s : List Char) :
    Begins word kind (s.flatMap plainSymbol) ↔ Begins word (fun r => kind (r.flatMap plainSymbol)) s := by
  induction word generalizing s with
  | nil => rfl
  | cons x word ih =>
    cases s with
    | nil => simp
    | cons c s =>
      have hx : x ∈ tokenChars := hword x (by simp)
      have hword : ∀ y ∈ word, y ∈ tokenChars := fun y hy => hword y (by simp [hy])
      have hi : 'i' ∉ word := fun h => hi (by simp [h])
      have hp' : word.getLast? ≠ some 'p' := by
        cases word with
        | nil => simp
        | cons y word => simpa [List.getLast?_cons_cons] using hp
      have ih := ih hword hi hp' s
      rw [List.flatMap_cons]
      rcases plainSymbol_cases c with rfl | ⟨hkeep, _⟩ | ⟨y, hy, _, hc, hy'⟩
      · have hpi : plainSymbol 'π' = ['p', 'i'] := rfl
        have hne : 'π' ≠ x := fun h => by simp [← h, tokenChars, nameChars] at hx
        simp only [hpi, List.cons_append, List.nil_append, begins_cons, lowerChar_pi, hne, false_and, iff_false]
        rintro ⟨rfl, hrest⟩
        cases word with
        | nil => exact hp rfl
        | cons y word =>
          have hlower : lowerChar 'i' = 'i' := by decide
          simp [← hrest.1, hlower] at hi
      · rw [hkeep, List.singleton_append, begins_cons, begins_cons, ih]
      · have hc : lowerChar c ≠ x := fun h => hc (h ▸ hx)
        have hy' : lowerChar y ≠ x := fun h => hy' (h ▸ hx)
        simp [hy, hc, hy']

theorem somewhere_plainSymbol {x : Char} (hx : x ∈ tokenHeads) (s : List Char) :
    Somewhere (Begins (x :: word) kind) (s.flatMap plainSymbol) ↔
      Somewhere (Begins (x :: word) fun r => kind (r.flatMap plainSymbol)) s ∨
        x = 'i' ∧ Somewhere (Follows 'π' (Begins word fun r => kind (r.flatMap plainSymbol))) s := by
  have hx' : x ∈ tokenChars := by
    have hsub : tokenHeads ⊆ tokenChars := by decide
    exact hsub hx
  have hxp : x ≠ 'p' := by
    rintro rfl
    revert hx
    decide
  induction s with
  | nil => simp [somewhere_nil, Follows]
  | cons c s ih =>
    have hrest : Begins word kind (s.flatMap plainSymbol) ↔ Begins word (fun r => kind (r.flatMap plainSymbol)) s :=
      begins_plainSymbol hword hi hp s
    have hlower : lowerChar 'p' = 'p' ∧ lowerChar 'i' = 'i' := by decide
    rw [List.flatMap_cons, @somewhere_cons (Begins _ _) c s, @somewhere_cons (Follows _ _) c s]
    rcases plainSymbol_cases c with rfl | ⟨hkeep, hpi⟩ | ⟨y, hy, hpi, hc, hy'⟩
    · have hpi : plainSymbol 'π' = ['p', 'i'] := rfl
      -- of the two letters for `π` only the second one may begin a word
      have hne : 'π' ≠ x := fun h => by simp [← h, tokenChars, nameChars] at hx'
      simp only [hpi, List.cons_append, List.nil_append, somewhere_cons, ih, Follows, begins_cons, hlower, lowerChar_pi,
        hne, hxp.symm, hrest, false_and, false_or, true_and]
      rw [eq_comm, and_or_left, or_left_comm]
    · simp only [hkeep, List.cons_append, List.nil_append, somewhere_cons, ih, Follows, begins_cons, hpi, hrest,
        false_and, false_or, or_assoc]
    · have hc : lowerChar c ≠ x := fun h => hc (h ▸ hx')
      have hy' : lowerChar y ≠ x := fun h => hy' (h ▸ hx')
      simp [hy, somewhere_cons, ih, Follows, hpi, hc, hy']

end

/-- Characters that percentages are written with stay, and no others get to be such. -/
theorem plainSymbol_inPercentage (c : Char) :
    plainSymbol c = [c] ∨ (c ≠ '.' ∧ c ≠ '%' ∧ isDigit c = false) ∧
      ∃ y t, plainSymbol c = y :: t ∧ y ≠ '.' ∧ y ≠ '%' ∧ isDigit y = false := by
  unfold plainSymbol
  split
  · rename_i h
    exact .inr ⟨h ▸ by decide, '*', [], rfl, by decide⟩
  · split
    · rename_i h
      exact .inr ⟨h ▸ by decide, '/', [], rfl, by decide⟩
    · split
      · rename_i h
        exact .inr ⟨h ▸ by decide, '-', [], rfl, by decide⟩
      · split
        · rename_i h
          exact .inr ⟨h ▸ by decide, 'p', ['i'], rfl, by decide⟩
        · exact .inl rfl

theorem takeWhile_flatMap_plainSymbol (s : List Char) :
    (s.flatMap plainSymbol).takeWhile isDigit = s.takeWhile isDigit ∧
      (s.flatMap plainSymbol).dropWhile isDigit = (s.dropWhile isDigit).flatMap plainSymbol := by
  induction s with
  | nil => exact ⟨rfl, rfl⟩
  | cons c s ih =>
    rw [List.flatMap_cons]
    rcases plainSymbol_inPercentage c with hkeep | ⟨⟨_, _, hc⟩, y, t, himage, _, _, hy⟩
    · rw [hkeep, List.singleton_append]
      cases hc : isDigit c with
      | true => simpa [hc] using ih
      | false => simp [hc, hkeep]
    · simp [himage, hc, hy]

theorem head?_flatMap_plainSymbol {c : Char} (hc : c = '.' ∨ c = '%') (s : List Char) :
    (s.flatMap plainSymbol).head? = some c ↔ s.head? = some c := by
  cases s with
  | nil => rfl
  | cons d s =>
    rw [List.flatMap_cons]
    rcases plainSymbol_inPercentage d with hkeep | ⟨⟨hdot, hpercent, _⟩, y, t, himage, hdot', hpercent', _⟩
    · simp [hkeep]
    · rcases hc with rfl | rfl
      · simp [himage, hdot, hdot']
      · simp [himage, hpercent, hpercent']

theorem isSome_afterPercentDigits (s : List Char) : (afterPercentDigits s).isSome = true ↔ s.head? = some '%' ∨
    s.head? = some '.' ∧ s.tail.takeWhile isDigit ≠ [] ∧ (s.tail.dropWhile isDigit).head? = some '%' := by
  unfold afterPercentDigits
  split
  · simp
  · rename_i r
    dsimp only [List.tail_cons]
    split
    · rename_i hdigits hmore
      rw [hdigits, hmore]
      simp
    · rename_i hother
      cases hdigits : r.takeWhile isDigit with
      | nil => simp
      | cons d ds =>
        cases hmore : r.dropWhile isDigit with
        | nil => simp
        | cons c more =>
          have hc : c ≠ '%' := by
            rintro rfl
            exact hother d ds more hdigits hmore
          simp [hc]
  · rename_i hpercent hdot
    cases s with
    | nil => simp
    | cons c r =>
      have hpercent : c ≠ '%' := fun h => hpercent r (h ▸ rfl)
      have hdot : c ≠ '.' := fun h => hdot r (h ▸ rfl)
      simp [hpercent, hdot]

theorem afterPercentDigits_flatMap (s : List Char) :
    (afterPercentDigits (s.flatMap plainSymbol)).isSome = true ↔ (afterPercentDigits s).isSome = true := by
  have htail : s.head? = some '.' → (s.flatMap plainSymbol).tail = s.tail.flatMap plainSymbol := by
    rintro h
    obtain ⟨r, rfl⟩ := List.head?_eq_some_iff.mp h
    rfl
  rw [isSome_afterPercentDigits, isSome_afterPercentDigits, head?_flatMap_plainSymbol (.inr rfl),
    head?_flatMap_plainSymbol (.inl rfl)]
  refine or_congr_right (and_congr_right fun h => ?_)
  obtain ⟨htake, hdrop⟩ := takeWhile_flatMap_plainSymbol s.tail
  rw [htail h, htake, hdrop, head?_flatMap_plainSymbol (.inr rfl)]

theorem startsPercentage_flatMap (s : List Char) : StartsPercentage (s.flatMap plainSymbol) ↔ StartsPercentage s := by
  cases s with
  | nil => rfl
  | cons c s =>
    rw [List.flatMap_cons]
    rcases plainSymbol_inPercentage c with hkeep | ⟨⟨_, _, hc⟩, y, t, himage, _, _, hy⟩
    · rw [hkeep, List.singleton_append, StartsPercentage, (takeWhile_flatMap_plainSymbol s).2,
        afterPercentDigits_flatMap, StartsPercentage]
    · simp [himage, StartsPercentage, hc, hy]

/-! ## Tokens -/

theorem occurs_iff (t s : List Char) : occurs t s = true ↔ t <:+: s := by
  induction s with
  | nil => simp [occurs]
  | cons c s ih => rw [occurs, Bool.or_eq_true, ih, List.isPrefixOf_iff_prefix, List.infix_cons_iff]

def tokenWords : List (List Char) :=
  [['_', '_'], ['i', 'm', 'p', 'o', 'r', 't'], ['l', 'a', 'm', 'b', 'd', 'a'], ['e', 'x', 'e', 'c'],
   ['e', 'v', 'a', 'l'], ['o', 'p', 'e', 'n', '(']]

theorem toList_mem_tokenWords {t : String} (ht : t ∈ forbiddenTokens) : t.toList ∈ tokenWords := by
  have hwords : forbiddenTokens.map String.toList = tokenWords := rfl
  exact hwords ▸ List.mem_map_of_mem ht

theorem tokenWords_spec {word : List Char} (h : word ∈ tokenWords) :
    word ≠ [] ∧ (∀ y ∈ word, y ∈ tokenChars) ∧ word.getLast? ≠ some 'i' := by
  have hall : tokenWords.all (fun w => w ≠ [] && w.all tokenChars.contains && w.getLast? ≠ some 'i') = true := by
    decide
  simpa [and_assoc] using List.all_eq_true.mp hall word h

theorem occurs_lower_iff {word : List Char} (h : word ∈ tokenWords) (s : List Char) :
    occurs word (lower s) = true ↔ Somewhere (Begins word Anything) s := by
  obtain ⟨hne, hchars, hlast⟩ := tokenWords_spec h
  rw [occurs_iff, lower, infix_lowerAfter hchars hlast hne]

theorem forbidden?_eq_none_iff (s : List Char) :
    forbidden? s = none ↔ ∀ t ∈ forbiddenTokens, ¬Somewhere (Begins t.toList Anything) s := by
  simp only [forbidden?, List.find?_eq_none]
  exact forall₂_congr fun t ht => not_congr (occurs_lower_iff (toList_mem_tokenWords ht) s)

section
variable {x : Char} {word : List Char} (hx : x ∈ tokenHeads)
include hx

theorem somewhere_spellOut (hword : ∀ y ∈ x :: word, y ∈ tokenChars) (s : List Char) :
    Somewhere (Begins (x :: word) Anything) (spellOut s) ↔
      Somewhere (Begins (x :: word) Anything) (expandPercent (s.flatMap plainSymbol)) := by
  rw [spellOut, rewrites_lowerSuperscripts.somewhere hx hword, rewrites_expandRoot.somewhere hx hword]

theorem somewhere_expandPercent {kind : List Char → Prop} (hword : ∀ y ∈ x :: word, y ∈ nameChars) (hi : 'i' ∉ word)
    (hp : word.getLast? ≠ some 'p') (s : List Char) :
    Somewhere (Begins (x :: word) kind) (expandPercent (s.flatMap plainSymbol)) ↔
      Somewhere (Begins (x :: word) fun r => kind (expandPercent (r.flatMap plainSymbol))) s ∨
        x = 'i' ∧ Somewhere (Follows 'π' (Begins word fun r => kind (expandPercent (r.flatMap plainSymbol)))) s := by
  rw [rewrites_expandPercent.somewhere hx hword, somewhere_plainSymbol _ hi hp hx]
  exact fun y hy => List.mem_cons_of_mem _ (hword y (List.mem_cons_of_mem _ hy))

end

/-- Spelling out the input completes the token. -/
def Completes (token input : List Char) : Prop :=
  token = ['o', 'p', 'e', 'n', '('] ∧ Somewhere (Begins ['o', 'p', 'e', 'n'] StartsPercentage) input ∨
    token = ['i', 'm', 'p', 'o', 'r', 't'] ∧ Somewhere (Follows 'π' (Begins ['m', 'p', 'o', 'r', 't'] Anything)) input

/-- A parenthesis is there, or it begins a percentage. -/
theorem somewhere_open (s : List Char) : Somewhere (Begins ['o', 'p', 'e', 'n', '('] Anything) (spellOut s) ↔
    Somewhere (Begins ['o', 'p', 'e', 'n', '('] Anything) s ∨
      Somewhere (Begins ['o', 'p', 'e', 'n'] StartsPercentage) s := by
  have hx : 'o' ∈ tokenHeads := by decide
  have hchars : ∀ y ∈ ['o', 'p', 'e', 'n', '('], y ∈ tokenChars := (tokenWords_spec (by decide)).2.1
  have hname : ∀ y ∈ ['o', 'p', 'e', 'n'], y ∈ nameChars := by simp [nameChars]
  have hsplit : Begins ['o', 'p', 'e', 'n', '('] Anything = Begins ['o', 'p', 'e', 'n'] (Begins ['('] Anything) :=
    funext fun r => propext (begins_append ['o', 'p', 'e', 'n'] ['('] r)
  have hkind : ∀ r, Begins ['('] Anything (expandPercent (r.flatMap plainSymbol)) ↔
      Begins ['('] Anything r ∨ StartsPercentage r := fun r => by
    rw [begins_parenthesis_expandPercent, startsPercentage_flatMap,
      begins_plainSymbol (by simp [tokenChars]) (by decide) (by decide)]
  rw [somewhere_spellOut hx hchars, hsplit, somewhere_expandPercent hx hname (by decide) (by decide),
    somewhere_congr (begins_congr hkind), somewhere_congr begins_or, somewhere_or]
  simp

/-- The tokens without a parenthesis; one of them begins with what a spelled-out `π` ends in. -/
theorem nameWords_spec {word : List Char} (h : word ∈ tokenWords) (hopen : word ≠ ['o', 'p', 'e', 'n', '(']) :
    (∀ y ∈ word.head?, y ∈ tokenHeads ∧ (y = 'i' ↔ word = ['i', 'm', 'p', 'o', 'r', 't'])) ∧
      (∀ y ∈ word, y ∈ nameChars) ∧ 'i' ∉ word.tail ∧ word.tail.getLast? ≠ some 'p' := by
  simp only [tokenWords, List.mem_cons, List.not_mem_nil, or_false] at h
  rcases h with rfl | rfl | rfl | rfl | rfl | rfl
  · simp [tokenHeads, nameChars]
  · simp [tokenHeads, nameChars]
  · simp [tokenHeads, nameChars]
  · simp [tokenHeads, nameChars]
  · simp [tokenHeads, nameChars]
  · exact absurd rfl hopen

theorem somewhere_name {word : List Char} (h : word ∈ tokenWords) (hopen : word ≠ ['o', 'p', 'e', 'n', '('])
    (s : List Char) :
    Somewhere (Begins word Anything) (spellOut s) ↔ Somewhere (Begins word Anything) s ∨ Completes word s := by
  obtain ⟨hhead, hchars, hi, hp⟩ := nameWords_spec h hopen
  obtain ⟨hne, hall, _⟩ := tokenWords_spec h
  have hcompletes : Completes word s ↔
      word = ['i', 'm', 'p', 'o', 'r', 't'] ∧ Somewhere (Follows 'π' (Begins word.tail Anything)) s := by
    simp only [Completes, hopen, false_and, false_or]
    exact and_congr_right fun h => by rw [h]; rfl
  rw [hcompletes]
  cases word with
  | nil => exact absurd rfl hne
  | cons x word =>
    obtain ⟨hx, himport⟩ := hhead x rfl
    rw [somewhere_spellOut hx hall, somewhere_expandPercent hx hchars hi hp, himport]
    rfl

/-! ## The prepared input -/

theorem prepare_eq_ok_iff {cfg : Settings} {s plain : List Char} : prepare cfg s = .ok plain ↔
    trim s ≠ [] ∧ (trim s).length ≤ cfg.maxInputLength ∧ forbidden? (trim s) = none ∧
      Brackets.firstFault (spellOut (trim s)) = none ∧ spellOut (trim s) = plain := by
  unfold prepare
  generalize trim s = input
  cases input with
  | nil => simp
  | cons c rest =>
    simp only [List.isEmpty_cons, Bool.false_eq_true, ite_false, ne_eq, reduceCtorEq, not_false_eq_true, true_and]
    by_cases hlong : cfg.maxInputLength < (c :: rest).length
    · rw [if_pos hlong]
      exact iff_of_false nofun fun h => absurd h.1 (Int.not_le.mpr hlong)
    · rw [if_neg hlong, and_iff_right (Int.not_lt.mp hlong)]
      cases forbidden? (c :: rest) with
      | some t => exact iff_of_false nofun fun h => nomatch h.1
      | none =>
        cases Brackets.firstFault (spellOut (c :: rest)) with
        | some position => exact iff_of_false nofun fun h => nomatch h.2.1
        | none => simp [pure, Except.pure]

/-- Of the tokens that the accepted input does not hold, the prepared one has those that get completed. -/
theorem prepare_token_iff {cfg : Settings} {s plain : List Char} (h : prepare cfg s = .ok plain) {t : String}
    (ht : t ∈ forbiddenTokens) : occurs t.toList (lower plain) = true ↔ Completes t.toList (trim s) := by
  obtain ⟨_, _, hnone, _, rfl⟩ := prepare_eq_ok_iff.mp h
  have habsent := (forbidden?_eq_none_iff _).mp hnone t ht
  rw [occurs_lower_iff (toList_mem_tokenWords ht)]
  by_cases hopen : t.toList = ['o', 'p', 'e', 'n', '(']
  · rw [hopen] at habsent ⊢
    rw [somewhere_open, or_iff_right habsent]
    simp [Completes]
  · rw [somewhere_name (toList_mem_tokenWords ht) hopen, or_iff_right habsent]

theorem spellOut_openPercentage : spellOut ['o', 'p', 'e', 'n', '5', '0', '%'] =
    ['o', 'p', 'e', 'n', '(', '5', '0', '/', '1', '0', '0', ')'] := by
  cbv

theorem spellOut_piImport : spellOut ['π', 'm', 'p', 'o', 'r', 't'] = ['p', 'i', 'm', 'p', 'o', 'r', 't'] := by
  cbv

theorem prepare_openPercentage : prepare {} ['o', 'p', 'e', 'n', '5', '0', '%'] =
    .ok ['o', 'p', 'e', 'n', '(', '5', '0', '/', '1', '0', '0', ')'] := by
  have htrim : trim ['o', 'p', 'e', 'n', '5', '0', '%'] = ['o', 'p', 'e', 'n', '5', '0', '%'] := by decide
  rw [prepare_eq_ok_iff, htrim, spellOut_openPercentage]
  exact ⟨by decide, by decide, by decide, by decide, rfl⟩

/-- `open50%` is accepted, and `open(50/100)` holds a token. -/
theorem prepare_openPercentage_forbidden :
    ¬∀ s plain, prepare {} s = .ok plain → ∀ t ∈ forbiddenTokens, occurs t.toList (lower plain) = false := by
  intro h
  exact absurd (h _ _ prepare_openPercentage "open(" (by decide)) (by decide)

theorem prepare_piImport : prepare {} ['π', 'm', 'p', 'o', 'r', 't'] = .ok ['p', 'i', 'm', 'p', 'o', 'r', 't'] ∧
    "import" ∈ forbiddenTokens ∧ (occurs "import".toList (lower ['p', 'i', 'm', 'p', 'o', 'r', 't']) = true ↔
      Completes "import".toList (trim ['π', 'm', 'p', 'o', 'r', 't'])) := by
  have hprepare : prepare {} ['π', 'm', 'p', 'o', 'r', 't'] = .ok ['p', 'i', 'm', 'p', 'o', 'r', 't'] := by
    have htrim : trim ['π', 'm', 'p', 'o', 'r', 't'] = ['π', 'm', 'p', 'o', 'r', 't'] := by decide
    rw [prepare_eq_ok_iff, htrim, spellOut_piImport]
    exact ⟨by decide, by decide, by decide, by decide, rfl⟩
  have hmem : "import" ∈ forbiddenTokens := by decide
  exact ⟨hprepare, hmem, prepare_token_iff hprepare hmem⟩

end Surd.Input
