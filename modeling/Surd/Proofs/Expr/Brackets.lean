import Mathlib
import Surd.Expr.Brackets

/-!
# Brackets and their faults

What a text leaves of the open brackets (`openAfter`) is nothing exactly if its brackets are well nested. So
`firstFault` accepts the balanced texts (`firstFault_eq_none_iff`), and in others it finds the first closing
bracket that closes nothing, or else the first opening bracket that is not closed (`firstFault_eq_some_iff`).
-/

namespace Surd.Brackets

/-! ## Brackets -/

def isBracket (c : Char) : Bool := (closing? c).isSome || isClosing c

theorem isBracket_iff {c : Char} : isBracket c = true ↔ c ∈ ['(', '[', '{', ')', ']', '}'] := by
  grind [isBracket, closing?, isClosing]

theorem not_isBracket {p : Char → Bool} (hp : ['(', '[', '{', ')', ']', '}'].all (fun c => !p c) = true) {c : Char}
    (h : p c = true) : isBracket c = false := by
  by_contra hc
  rw [Bool.not_eq_false, isBracket_iff] at hc
  have hp := List.all_eq_true.mp hp c hc
  simp [h] at hp

theorem isClosing_of_closing? {o c : Char} (h : closing? o = some c) : isClosing c = true ∧ closing? c = none := by
  unfold closing? at h
  split at h
  · cases h
    decide
  · split at h
    · cases h
      decide
    · split at h
      · cases h
        decide
      · cases h

theorem closing?_of_isClosing {c : Char} (h : isClosing c = true) : closing? c = none := by
  simp only [isClosing, Bool.or_eq_true, beq_iff_eq] at h
  rcases h with (rfl | rfl) | rfl <;> rfl

def brackets (s : List Char) : List Char := s.filter isBracket

/-- Words of brackets of which each has its partner. -/
inductive WellNested : List Char → Prop
  | nil : WellNested []
  | pair {o c : Char} {u v : List Char} (h : closing? o = some c) (hu : WellNested u) (hv : WellNested v) :
      WellNested (o :: (u ++ c :: v))

def Balanced (s : List Char) : Prop := WellNested (brackets s)

theorem balanced_nil : Balanced [] := .nil

theorem Balanced.cons {c : Char} {s : List Char} (hc : isBracket c = false) (h : Balanced s) : Balanced (c :: s) := by
  simpa [Balanced, brackets, hc] using h

theorem Balanced.pair {o c : Char} {u v : List Char} (h : closing? o = some c) (hu : Balanced u) (hv : Balanced v) :
    Balanced (o :: (u ++ c :: v)) := by
  have ho : isBracket o = true := by simp [isBracket, h]
  have hc : isBracket c = true := by simp [isBracket, isClosing_of_closing? h]
  simpa [Balanced, brackets, ho, hc] using WellNested.pair h hu hv

/-! ## What is left open -/

/-- What a character makes of the open brackets, each given by its closing one, innermost first. -/
def step (opened : List Char) (c : Char) : Option (List Char) :=
  match closing? c with
  | some d => some (d :: opened)
  | none =>
    if isClosing c then
      match opened with
      | [] => none
      | d :: outer => if c = d then some outer else none
    else some opened

def openAfter (opened s : List Char) : Option (List Char) := s.foldlM step opened

section
variable {opened : List Char} {c : Char}

theorem step_opening {d : Char} (h : closing? c = some d) : step opened c = some (d :: opened) := by
  simp [step, h]

theorem step_closing (h : isClosing c = true) : step (c :: opened) c = some opened := by
  simp [step, h, closing?_of_isClosing h]

theorem step_other (h : isBracket c = false) : step opened c = some opened := by
  simp only [isBracket, Bool.or_eq_false_iff, Option.isSome_eq_false_iff, Option.isNone_iff_eq_none] at h
  simp [step, h]

theorem step_eq_none_iff : step opened c = none ↔ isClosing c = true ∧ opened.head? ≠ some c := by
  cases hopening : closing? c with
  | some d =>
    have hc : ¬isClosing c = true := fun h => by simp [closing?_of_isClosing h] at hopening
    simp [step, hopening, hc]
  | none =>
    by_cases hc : isClosing c = true
    · cases opened with
      | nil => simp [step, hopening, hc]
      | cons d outer => simp [step, hopening, hc, eq_comm]
    · simp [step, hopening, hc]

theorem step_cases {after : List Char} (h : step opened c = some after) :
    (∃ d, closing? c = some d ∧ after = d :: opened) ∨ (isClosing c = true ∧ opened = c :: after) ∨
      (isBracket c = false ∧ after = opened) := by
  cases hopening : closing? c with
  | some d =>
    rw [step_opening hopening] at h
    cases h
    exact .inl ⟨d, rfl, rfl⟩
  | none =>
    by_cases hc : isClosing c = true
    · have hhead : opened.head? = some c := by
        by_contra hne
        rw [step_eq_none_iff.mpr ⟨hc, hne⟩] at h
        cases h
      obtain ⟨outer, rfl⟩ := List.head?_eq_some_iff.mp hhead
      rw [step_closing hc] at h
      cases h
      exact .inr (.inl ⟨hc, rfl⟩)
    · have hother : isBracket c = false := by simp [isBracket, hopening, hc]
      rw [step_other hother] at h
      cases h
      exact .inr (.inr ⟨hother, rfl⟩)

end

section
variable (opened : List Char)

@[simp] theorem openAfter_nil : openAfter opened [] = some opened := rfl

theorem openAfter_cons (c : Char) (s : List Char) :
    openAfter opened (c :: s) = (step opened c).bind fun after => openAfter after s := List.foldlM_cons

theorem openAfter_append (u v : List Char) :
    openAfter opened (u ++ v) = (openAfter opened u).bind fun after => openAfter after v := List.foldlM_append

theorem openAfter_other {u : List Char} (hu : ∀ c ∈ u, isBracket c = false) (v : List Char) :
    openAfter opened (u ++ v) = openAfter opened v := by
  induction u with
  | nil => rfl
  | cons c u ih =>
    rw [List.cons_append, openAfter_cons, step_other (hu c (by simp)), Option.bind_some,
      ih fun d hd => hu d (by simp [hd])]

theorem openAfter_brackets (s : List Char) : openAfter opened (brackets s) = openAfter opened s := by
  induction s generalizing opened with
  | nil => rfl
  | cons c s ih =>
    by_cases hc : isBracket c = true
    · have hbrackets : brackets (c :: s) = c :: brackets s := List.filter_cons_of_pos hc
      rw [hbrackets, openAfter_cons, openAfter_cons, funext ih]
    · have hbrackets : brackets (c :: s) = brackets s := List.filter_cons_of_neg hc
      rw [hbrackets, ih, openAfter_cons, step_other (Bool.not_eq_true _ ▸ hc), Option.bind_some]

theorem WellNested.openAfter_eq {w : List Char} (h : WellNested w) : openAfter opened w = some opened := by
  induction h generalizing opened with
  | nil => rfl
  | pair hclosing _ _ ihu ihv =>
    rw [openAfter_cons, step_opening hclosing, Option.bind_some, openAfter_append, ihu, Option.bind_some,
      openAfter_cons, step_closing (isClosing_of_closing? hclosing).1, Option.bind_some, ihv]

theorem Balanced.openAfter_eq {s : List Char} (h : Balanced s) : openAfter opened s = some opened := by
  rw [← openAfter_brackets, WellNested.openAfter_eq opened h]

theorem Balanced.openAfter_append {u : List Char} (h : Balanced u) (v : List Char) :
    openAfter opened (u ++ v) = openAfter opened v := by
  rw [Brackets.openAfter_append, h.openAfter_eq, Option.bind_some]

end

/-! ## Closing what is open -/

/-- The text closes the brackets, innermost first, with balanced texts in between. -/
def Closes : List Char → List Char → Prop
  | [], s => Balanced s
  | d :: opened, s => ∃ u v, s = u ++ d :: v ∧ Balanced u ∧ Closes opened v

theorem Closes.cons {opened : List Char} {c : Char} {s : List Char} (hc : isBracket c = false)
    (h : Closes opened s) : Closes opened (c :: s) := by
  cases opened with
  | nil => exact Balanced.cons hc h
  | cons d opened =>
    obtain ⟨u, v, rfl, hu, hv⟩ := h
    exact ⟨c :: u, v, rfl, hu.cons hc, hv⟩

theorem Closes.pair {opened : List Char} {o c : Char} {s : List Char} (ho : closing? o = some c)
    (h : Closes (c :: opened) s) : Closes opened (o :: s) := by
  obtain ⟨u, v, rfl, hu, hv⟩ := h
  cases opened with
  | nil => exact Balanced.pair ho hu hv
  | cons d opened =>
    obtain ⟨u', v', rfl, hu', hv'⟩ := hv
    exact ⟨o :: (u ++ c :: u'), v', by simp, hu.pair ho hu', hv'⟩

theorem closes_of_openAfter {opened s : List Char} (h : openAfter opened s = some []) : Closes opened s := by
  induction s generalizing opened with
  | nil =>
    cases h
    exact balanced_nil
  | cons c s ih =>
    rw [openAfter_cons] at h
    obtain ⟨after, hstep, hrest⟩ := Option.bind_eq_some_iff.mp h
    have ih := ih hrest
    obtain ⟨d, hd, rfl⟩ | ⟨hc, rfl⟩ | ⟨hc, rfl⟩ := step_cases hstep
    · exact ih.pair hd
    · exact ⟨[], s, rfl, balanced_nil, ih⟩
    · exact ih.cons hc

theorem balanced_iff {s : List Char} : Balanced s ↔ openAfter [] s = some [] :=
  ⟨fun h => h.openAfter_eq [], fun h => closes_of_openAfter h⟩

theorem balanced_of_other {s : List Char} (h : ∀ c ∈ s, isBracket c = false) : Balanced s := by
  simpa [balanced_iff] using openAfter_other [] h []

theorem Balanced.append {u v : List Char} (hu : Balanced u) (hv : Balanced v) : Balanced (u ++ v) := by
  rw [balanced_iff, hu.openAfter_append, hv.openAfter_eq]

/-- The text opens the brackets, innermost last, with balanced texts in between. -/
def Opens : List Char → List Char → Prop
  | [], s => Balanced s
  | d :: opened, s => ∃ u o v, s = u ++ o :: v ∧ closing? o = some d ∧ Opens opened u ∧ Balanced v

theorem Opens.append {opened u v : List Char} (h : Opens opened u) (hv : Balanced v) : Opens opened (u ++ v) := by
  cases opened with
  | nil => exact Balanced.append h hv
  | cons d opened =>
    obtain ⟨x, o, y, rfl, ho, hx, hy⟩ := h
    exact ⟨x, o, y ++ v, by simp, ho, hx, hy.append hv⟩

theorem opens_of_openAfter {opened s : List Char} (h : openAfter [] s = some opened) : Opens opened s := by
  induction s using List.reverseRecOn generalizing opened with
  | nil =>
    cases h
    exact balanced_nil
  | append_singleton s c ih =>
    rw [openAfter_append] at h
    obtain ⟨before, hbefore, hlast⟩ := Option.bind_eq_some_iff.mp h
    rw [openAfter_cons] at hlast
    obtain ⟨after, hstep, hafter⟩ := Option.bind_eq_some_iff.mp hlast
    cases hafter
    have ih := ih hbefore
    obtain ⟨d, hd, rfl⟩ | ⟨hc, rfl⟩ | ⟨hc, rfl⟩ := step_cases hstep
    · exact ⟨s, c, [], rfl, hd, ih, balanced_nil⟩
    · obtain ⟨u, o, v, rfl, ho, hu, hv⟩ := ih
      have hpair : Balanced (o :: (v ++ [c])) := Balanced.pair ho hv balanced_nil
      simpa using hu.append hpair
    · exact ih.append (balanced_nil.cons hc)

/-- The outermost bracket that is left open. -/
theorem Opens.outermost {d : Char} {opened s : List Char} (h : Opens (d :: opened) s) :
    ∃ x o y e after, s = x ++ o :: y ∧ closing? o = some e ∧ Balanced x ∧ openAfter [] y = some after := by
  induction opened generalizing d s with
  | nil =>
    obtain ⟨x, o, y, rfl, ho, hx, hy⟩ := h
    exact ⟨x, o, y, d, [], rfl, ho, hx, hy.openAfter_eq []⟩
  | cons e opened ih =>
    obtain ⟨u, o, v, rfl, ho, hu, hv⟩ := h
    obtain ⟨x, p, y, e, after, rfl, hp, hx, hy⟩ := ih hu
    refine ⟨x, p, y ++ o :: v, e, d :: after, by simp, hp, hx, ?_⟩
    rw [openAfter_append, hy, Option.bind_some, openAfter_cons, step_opening ho, Option.bind_some, hv.openAfter_eq]

/-! ## Faults -/

/-- At the position stands a closing bracket, and no balanced text leads back from it to a bracket that it closes:
it does not match the innermost open one, or there is none. -/
def Unopened (s : List Char) (j : Nat) : Prop := ∃ u c v, s = u ++ c :: v ∧ u.length = j ∧ isClosing c = true ∧
  ¬∃ x o y, u = x ++ o :: y ∧ closing? o = some c ∧ Balanced y

/-- At the position stands an opening bracket, and no balanced text leads from it to its closing one. -/
def Unclosed (s : List Char) (i : Nat) : Prop := ∃ u o d v, s = u ++ o :: v ∧ u.length = i ∧ closing? o = some d ∧
  ¬∃ y z, v = y ++ d :: z ∧ Balanced y

theorem Unopened.lt_length {s : List Char} {j : Nat} (h : Unopened s j) : j < s.length := by
  obtain ⟨u, c, v, rfl, rfl, -⟩ := h
  simp

theorem Unclosed.lt_length {s : List Char} {i : Nat} (h : Unclosed s i) : i < s.length := by
  obtain ⟨u, o, d, v, rfl, rfl, -⟩ := h
  simp

/-- The first closing bracket that closes nothing or, if there is none, the first opening bracket that is not
closed. -/
def Fault (s : List Char) (i : Nat) : Prop :=
  IsLeast {j | Unopened s j} i ∨ (∀ j, ¬Unopened s j) ∧ IsLeast {j | Unclosed s j} i

theorem Fault.unique {s : List Char} {i j : Nat} (hi : Fault s i) (hj : Fault s j) : i = j := by
  obtain hi | ⟨hnone, hi⟩ := hi
  · obtain hj | ⟨hnone, -⟩ := hj
    · exact hi.unique hj
    · exact absurd hi.1 (hnone i)
  · obtain hj | ⟨-, hj⟩ := hj
    · exact absurd hj.1 (hnone j)
    · exact hi.unique hj

theorem exists_opening_iff {u opened : List Char} (h : openAfter [] u = some opened) {c : Char} :
    (∃ x o y, u = x ++ o :: y ∧ closing? o = some c ∧ Balanced y) ↔ opened.head? = some c := by
  refine ⟨fun hopening => ?_, fun hhead => ?_⟩
  · obtain ⟨x, o, y, rfl, ho, hy⟩ := hopening
    rw [openAfter_append] at h
    obtain ⟨before, hx, h⟩ := Option.bind_eq_some_iff.mp h
    rw [openAfter_cons, step_opening ho, Option.bind_some, hy.openAfter_eq] at h
    cases h
    rfl
  · obtain ⟨outer, rfl⟩ := List.head?_eq_some_iff.mp hhead
    obtain ⟨x, o, y, rfl, ho, -, hy⟩ := opens_of_openAfter h
    exact ⟨x, o, y, rfl, ho, hy⟩

theorem unopened_iff {u v : List Char} {c : Char} {opened : List Char} (h : openAfter [] u = some opened) :
    Unopened (u ++ c :: v) u.length ↔ step opened c = none := by
  rw [step_eq_none_iff]
  refine ⟨fun hunopened => ?_, fun ⟨hc, hhead⟩ => ?_⟩
  · obtain ⟨u', c', v', heq, hlength, hc, hnone⟩ := hunopened
    obtain ⟨rfl, hrest⟩ := List.append_inj heq hlength.symm
    cases hrest
    exact ⟨hc, fun hhead => hnone ((exists_opening_iff h).mpr hhead)⟩
  · exact ⟨u, c, v, rfl, rfl, hc, fun hopening => hhead ((exists_opening_iff h).mp hopening)⟩

/-- Every closing bracket of a text that can be read closes something, whatever follows the text. -/
theorem not_unopened {u : List Char} {opened : List Char} (h : openAfter [] u = some opened) (v : List Char) {j : Nat}
    (hj : j < u.length) : ¬Unopened (u ++ v) j := by
  obtain ⟨x, y, rfl, rfl⟩ : ∃ x y, u = x ++ y ∧ x.length = j :=
    ⟨u.take j, u.drop j, (List.take_append_drop j u).symm, by simp; omega⟩
  rw [openAfter_append] at h
  obtain ⟨before, hx, hy⟩ := Option.bind_eq_some_iff.mp h
  cases y with
  | nil => simp at hj
  | cons c y =>
    rw [openAfter_cons] at hy
    obtain ⟨after, hstep, -⟩ := Option.bind_eq_some_iff.mp hy
    rw [List.append_assoc, List.cons_append, unopened_iff hx, hstep]
    exact Option.some_ne_none after

theorem unclosed_of_openAfter {x y : List Char} {o d : Char} (ho : closing? o = some d) {opened : List Char}
    (h : openAfter [] y = some opened) : Unclosed (x ++ o :: y) x.length := by
  refine ⟨x, o, d, y, rfl, rfl, ho, fun ⟨u, v, hy, hu⟩ => ?_⟩
  have hnone : step [] d = none := step_eq_none_iff.mpr ⟨(isClosing_of_closing? ho).1, by simp⟩
  rw [hy, hu.openAfter_append, openAfter_cons, hnone] at h
  cases h

/-- Every opening bracket of a balanced text is closed, whatever follows the text. -/
theorem not_unclosed {x : List Char} (h : Balanced x) (v : List Char) {i : Nat} (hi : i < x.length) :
    ¬Unclosed (x ++ v) i := by
  intro hunclosed
  obtain ⟨u, o, d, w, heq, rfl, ho, hnone⟩ := hunclosed
  obtain ⟨y, rfl⟩ : ∃ y, x = u ++ o :: y := by
    have hleft : u ++ [o] <+: x ++ v := ⟨w, by simp [heq]⟩
    obtain ⟨y, rfl⟩ := List.prefix_of_prefix_length_le hleft (List.prefix_append x v) (by simpa using hi)
    exact ⟨y, by simp⟩
  rw [balanced_iff, openAfter_append] at h
  obtain ⟨before, -, hy⟩ := Option.bind_eq_some_iff.mp h
  rw [openAfter_cons, step_opening ho, Option.bind_some] at hy
  obtain ⟨y', z, rfl, hy', -⟩ := closes_of_openAfter hy
  have hw : w = y' ++ d :: (z ++ v) := by
    have hcancel : (u ++ [o]) ++ w = (u ++ [o]) ++ (y' ++ d :: (z ++ v)) := by simpa using heq.symm
    exact List.append_cancel_left hcancel
  exact hnone ⟨y', z ++ v, hw, hy'⟩

/-! ## Looking for the first fault -/

section
variable {opened : List (Char × Nat)} {position : Nat} {c : Char} (s : List Char)

theorem faultAfter_opening {d : Char} (h : closing? c = some d) :
    faultAfter opened position (c :: s) = faultAfter ((d, position) :: opened) (position + 1) s := by
  simp [faultAfter, h]

theorem faultAfter_closing (h : isClosing c = true) {i : Nat} :
    faultAfter ((c, i) :: opened) position (c :: s) = faultAfter opened (position + 1) s := by
  simp [faultAfter, h, closing?_of_isClosing h]

theorem faultAfter_other (h : isBracket c = false) :
    faultAfter opened position (c :: s) = faultAfter opened (position + 1) s := by
  simp only [isBracket, Bool.or_eq_false_iff, Option.isSome_eq_false_iff, Option.isNone_iff_eq_none] at h
  simp [faultAfter, h]

theorem faultAfter_stuck (h : step (opened.map (·.1)) c = none) :
    faultAfter opened position (c :: s) = some position := by
  rw [step_eq_none_iff] at h
  obtain ⟨hc, hhead⟩ := h
  cases opened with
  | nil => simp [faultAfter, hc, closing?_of_isClosing hc]
  | cons p outer =>
    have hne : c ≠ p.1 := fun heq => hhead (by simp [heq])
    simp [faultAfter, hc, hne, closing?_of_isClosing hc]

end

/-- Reading a text goes on after it with what it leaves open, whatever was open before. -/
theorem faultAfter_append (opened : List (Char × Nat)) {u after : List Char} (position : Nat)
    (h : openAfter (opened.map (·.1)) u = some after) : ∃ left : List (Char × Nat), left.map (·.1) = after ∧
      ∀ outer rest, faultAfter (opened ++ outer) position (u ++ rest) =
        faultAfter (left ++ outer) (position + u.length) rest := by
  induction u generalizing opened position with
  | nil =>
    cases h
    exact ⟨opened, rfl, fun _ _ => rfl⟩
  | cons c u ih =>
    rw [openAfter_cons] at h
    obtain ⟨mid, hstep, hrest⟩ := Option.bind_eq_some_iff.mp h
    have hposition : position + (c :: u).length = position + 1 + u.length := by simp; omega
    rw [hposition]
    obtain ⟨d, hd, rfl⟩ | ⟨hc, hopened⟩ | ⟨hc, rfl⟩ := step_cases hstep
    · obtain ⟨left, hleft, hrun⟩ := ih ((d, position) :: opened) (position + 1) hrest
      exact ⟨left, hleft, fun outer rest => (faultAfter_opening _ hd).trans (hrun outer rest)⟩
    · obtain ⟨⟨c', i⟩, before, rfl, rfl, rfl⟩ := List.map_eq_cons_iff.mp hopened
      obtain ⟨left, hleft, hrun⟩ := ih before (position + 1) hrest
      exact ⟨left, hleft, fun outer rest => (faultAfter_closing _ hc).trans (hrun outer rest)⟩
    · obtain ⟨left, hleft, hrun⟩ := ih opened (position + 1) hrest
      exact ⟨left, hleft, fun outer rest => (faultAfter_other _ hc).trans (hrun outer rest)⟩

theorem faultAfter_balanced {u : List Char} (h : Balanced u) (position : Nat) (rest : List Char) :
    faultAfter [] position (u ++ rest) = faultAfter [] (position + u.length) rest := by
  obtain ⟨left, hleft, hrun⟩ := faultAfter_append [] position (h.openAfter_eq [])
  cases List.map_eq_nil_iff.mp hleft
  exact hrun [] rest

theorem exists_stuck {opened s : List Char} (h : openAfter opened s = none) :
    ∃ u c v after, s = u ++ c :: v ∧ openAfter opened u = some after ∧ step after c = none := by
  induction s generalizing opened with
  | nil => cases h
  | cons c s ih =>
    cases hstep : step opened c with
    | none => exact ⟨[], c, s, opened, rfl, rfl, hstep⟩
    | some after =>
      rw [openAfter_cons, hstep, Option.bind_some] at h
      obtain ⟨u, d, v, last, rfl, hu, hd⟩ := ih h
      exact ⟨c :: u, d, v, last, rfl, by rw [openAfter_cons, hstep, Option.bind_some, hu], hd⟩

variable {s : List Char}

theorem firstFault_balanced (h : Balanced s) : firstFault s = none := by
  simpa [firstFault, faultAfter] using faultAfter_balanced h 0 []

theorem not_fault (h : Balanced s) (i : Nat) : ¬Fault s i := by
  intro hfault
  obtain ⟨hi, -⟩ | ⟨-, hi, -⟩ := hfault
  · have hi : Unopened (s ++ []) i := (List.append_nil s).symm ▸ hi
    exact not_unopened (h.openAfter_eq []) [] (by simpa using hi.lt_length) hi
  · have hi : Unclosed (s ++ []) i := (List.append_nil s).symm ▸ hi
    exact not_unclosed h [] (by simpa using hi.lt_length) hi

theorem exists_fault_of_stuck (h : openAfter [] s = none) : ∃ i, firstFault s = some i ∧ Fault s i := by
  obtain ⟨u, c, v, after, rfl, hu, hc⟩ := exists_stuck h
  refine ⟨u.length, ?_, .inl ⟨(unopened_iff hu).mpr hc, fun j hj => ?_⟩⟩
  · obtain ⟨left, rfl, hrun⟩ := faultAfter_append [] 0 hu
    have hrun := hrun [] (c :: v)
    rw [List.append_nil left, faultAfter_stuck v hc, Nat.zero_add] at hrun
    exact hrun
  · by_contra hlt
    exact not_unopened hu _ (Nat.lt_of_not_le hlt) hj

theorem exists_fault_of_open {d : Char} {opened : List Char} (h : openAfter [] s = some (d :: opened)) :
    ∃ i, firstFault s = some i ∧ Fault s i := by
  have hmatched : ∀ j, ¬Unopened s j := fun j hj => by
    have hj : Unopened (s ++ []) j := (List.append_nil s).symm ▸ hj
    exact not_unopened h [] (by simpa using hj.lt_length) hj
  obtain ⟨x, o, y, e, after, rfl, ho, hx, hy⟩ := (opens_of_openAfter h).outermost
  refine ⟨x.length, ?_, .inr ⟨hmatched, unclosed_of_openAfter ho hy, fun i hi => ?_⟩⟩
  · obtain ⟨inner, -, hinner⟩ := faultAfter_append [] (0 + x.length + 1) hy
    have hlast : faultAfter ([] ++ [(e, 0 + x.length)]) (0 + x.length + 1) (y ++ []) = some x.length := by
      rw [hinner, faultAfter]
      simp
    rw [firstFault, faultAfter_balanced hx, faultAfter_opening _ ho]
    simpa using hlast
  · by_contra hlt
    exact not_unclosed hx _ (Nat.lt_of_not_le hlt) hi

theorem exists_fault (h : ¬Balanced s) : ∃ i, firstFault s = some i ∧ Fault s i := by
  rw [balanced_iff] at h
  cases hopen : openAfter [] s with
  | none => exact exists_fault_of_stuck hopen
  | some opened =>
    cases opened with
    | nil => exact absurd hopen h
    | cons d opened => exact exists_fault_of_open hopen

theorem firstFault_eq_none_iff : firstFault s = none ↔ Balanced s := by
  refine ⟨fun hnone => ?_, firstFault_balanced⟩
  by_contra h
  obtain ⟨i, hi, -⟩ := exists_fault h
  rw [hnone] at hi
  cases hi

theorem firstFault_eq_some_iff {i : Nat} : firstFault s = some i ↔ Fault s i := by
  have hunbalanced : ∀ j, firstFault s = some j ∨ Fault s j → ¬Balanced s := by
    intro j hj h
    obtain hj | hj := hj
    · rw [firstFault_balanced h] at hj
      cases hj
    · exact not_fault h j hj
  refine ⟨fun hi => ?_, fun hfault => ?_⟩
  · obtain ⟨j, hj, hfault⟩ := exists_fault (hunbalanced i (.inl hi))
    rw [hi] at hj
    cases hj
    exact hfault
  · obtain ⟨j, hj, hother⟩ := exists_fault (hunbalanced i (.inr hfault))
    rwa [hfault.unique hother]

end Surd.Brackets
