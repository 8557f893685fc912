import Mathlib
import Surd.CommandLine.Arguments
import Surd.Proofs.Text.Reading

/-!
# Arguments after others

The words of a command line are read one after another, unless one of them asks for help. So an input at
the end of a command line is read by the request of the arguments before it. After an equals sign it may
be any text; as a word of its own it must not look like an option.
-/

namespace Surd.CommandLine

/-! ## An option and its value -/

namespace Opt

/-- No name has an equals sign in it. -/
theorem named?_eq_none {s : List Char} (h : '=' ∈ s) : named? s = none := by
  have hnames : ∀ p ∈ names, '=' ∉ p.1 := by decide
  rw [named?, List.lookup_eq_none_iff]
  intro p hp
  rw [bne_iff_ne]
  rintro rfl
  exact hnames p hp h

end Opt

namespace Word

theorem atEquals_append {name : List Char} (h : '=' ∉ name) (s : List Char) :
    atEquals (name ++ '=' :: s) = some (name, s) := by
  have hname : ∀ c ∈ name, (c != '=') = true := by
    intro c hc
    rw [bne_iff_ne]
    rintro rfl
    exact h hc
  rw [atEquals, Text.dropWhile_append_stop hname (by simp), Text.takeWhile_append_stop hname (by simp)]

theorem ofText_equals {c : Char} {name : List Char} {o : Opt} (hname : Opt.named? ('-' :: c :: name) = some o)
    (s : List Char) :
    ofText ('-' :: c :: name ++ '=' :: s) = .option o (c == '-') (some (true, s)) := by
  have hnot : '=' ∉ '-' :: c :: name := by
    intro h
    rw [Opt.named?_eq_none h] at hname
    cases hname
  have hnone : Opt.named? ('-' :: c :: name ++ '=' :: s) = none := Opt.named?_eq_none (by simp)
  have hequals := atEquals_append hnot s
  simp only [List.cons_append] at hnone hequals ⊢
  simp only [ofText, hnone, hequals, Option.bind_some, hname, Option.map_some]

theorem unlisted_eq_plain {s t : List Char} (h : unlisted s = .plain t) : t = s := by
  unfold unlisted at h
  split at h
  · cases h
    rfl
  · cases h

theorem eq_of_ofText_plain {s t : List Char} (h : ofText s = .plain t) : t = s := by
  unfold ofText at h
  split at h
  · split at h
    · cases h
    · cases h
    · split at h
      · split at h
        · cases h
        · unfold abbreviated at h
          dsimp only at h
          split at h
          · exact unlisted_eq_plain h
          · cases h
          · cases h
      · split at h
        · cases h
        · exact unlisted_eq_plain h
  · cases h
    rfl

end Word

/-! ## Words -/

namespace Request

/-- A word that is understood, and does not end the reading by asking for help, leads to the same request whatever
the words after it are. -/
theorem addWords_cons {r r' : Request} {waiting : Option Opt} {w : Word} {words : List Word}
    (h : r.addWords waiting (w :: words) = some r') (hhelp : r'.help = false) :
    ∃ (r₁ : Request) (waiting₁ : Option Opt), ∀ rest,
      r.addWords waiting (w :: rest) = r₁.addWords waiting₁ rest := by
  cases w with
  | plain s =>
    rw [addWords] at h
    obtain ⟨o, ho, h⟩ := Option.bind_eq_some_iff.mp h
    obtain ⟨r₁, hr₁, h⟩ := Option.bind_eq_some_iff.mp h
    refine ⟨r₁, none, fun rest => ?_⟩
    rw [addWords, ho]
    simp only [Option.bind_eq_bind, Option.bind_some, hr₁]
  | option o isLong glued =>
    rw [addWords] at h
    split at h
    · cases h
    · rename_i hwaiting
      obtain ⟨⟨flags, last, value⟩, hunglue, h⟩ := Option.bind_eq_some_iff.mp h
      obtain ⟨r₁, hflags, h⟩ := Option.bind_eq_some_iff.mp h
      -- the same branches are taken for any words, as none of the tests looks at them
      simp only [addWords, if_neg hwaiting, hunglue, Option.bind_eq_bind, Option.bind_some, hflags]
      split at h
      · cases h
        rename_i hends
        cases hends.symm.trans hhelp
      · rename_i hgoes
        simp only [if_neg hgoes]
        split at h
        · exact ⟨r₁, some last, fun _ => rfl⟩
        · obtain ⟨r₂, hr₂, _⟩ := Option.bind_eq_some_iff.mp h
          exact ⟨r₂, none, fun _ => by rw [hr₂, Option.bind_some]⟩
        · obtain ⟨r₂, hr₂, h⟩ := Option.bind_eq_some_iff.mp h
          split at h
          · cases h
            rename_i hends
            cases hends.symm.trans hhelp
          · rename_i hgoes'
            exact ⟨r₂, none, fun _ => by rw [hr₂, Option.bind_some, if_neg hgoes']⟩
  | unknown => cases h
  | invalid => cases h

/-- The words behind others are added to the request of the words before them. -/
theorem addWords_append {r r' : Request} {waiting : Option Opt} {words : List Word}
    (h : r.addWords waiting words = some r') (hhelp : r'.help = false) (rest : List Word) :
    r.addWords waiting (words ++ rest) = r'.addWords none rest := by
  induction words generalizing r waiting with
  | nil =>
    rw [addWords] at h
    split at h
    · rename_i hnone
      cases h
      rw [Option.isNone_iff_eq_none.mp hnone, List.nil_append]
    · cases h
  | cons w words ih =>
    obtain ⟨r₁, waiting₁, hstep⟩ := addWords_cons h hhelp
    rw [hstep] at h
    rw [List.cons_append, hstep]
    exact ih h

theorem unglue_value {o : Opt} (ho : o.takesValue = true) (isLong equals : Bool) (s : List Char) :
    unglue isLong o (some (equals, s)) = some ([], o, some s) := by
  rw [unglue.eq_def]
  simp only [ho, if_true]

theorem addWords_value {r : Request} (hhelp : r.help = false) {o : Opt} (ho : o.takesValue = true)
    (isLong equals : Bool) (s : List Char) :
    r.addWords none [.option o isLong (some (equals, s))] = r.withValue o s := by
  rw [addWords]
  simp [unglue_value ho, hhelp, ho, addWords]

theorem addWords_waiting {r : Request} (hhelp : r.help = false) {o : Opt} (ho : o.takesValue = true)
    (isLong : Bool) (rest : List Word) :
    r.addWords none (.option o isLong none :: rest) = r.addWords (some o) rest := by
  rw [addWords]
  simp [unglue, hhelp, ho]

/-! ## Arguments -/

/-- Arguments are read as their words where none of them is invalid. -/
theorem words_of_read {args : List (List Char)} {r : Request} (h : read args = some r) :
    Word.invalid ∉ args.map Word.ofText ∧ addWords {} none (args.map Word.ofText) = some r := by
  unfold read at h
  dsimp only at h
  split at h
  · cases h
  · rename_i hinvalid
    exact ⟨by simpa using hinvalid, h⟩

theorem read_append {args : List (List Char)} {r : Request} (h : read args = some r) (hhelp : r.help = false)
    (rest : List (List Char)) :
    read (args ++ rest) =
      if .invalid ∈ rest.map Word.ofText then none else r.addWords none (rest.map Word.ofText) := by
  obtain ⟨hvalid, hwords⟩ := words_of_read h
  unfold read
  simp only [List.map_append, List.contains_iff_mem, List.mem_append, hvalid, false_or,
    addWords_append hwords hhelp]

/-- An input behind other arguments, after an equals sign. -/
theorem read_append_equals {args : List (List Char)} {r : Request} (h : read args = some r) (hhelp : r.help = false)
    (s : List Char) : read (args ++ ["--eval=".toList ++ s]) = some { r with input := s } := by
  have hnamed : Opt.named? "--eval".toList = some .eval := by decide
  have hword : Word.ofText ("--eval=".toList ++ s) = .option .eval true (some (true, s)) :=
    Word.ofText_equals hnamed s
  rw [read_append h hhelp, List.map_singleton, hword, if_neg (by simp), addWords_value hhelp rfl]
  rfl

/-- An input behind other arguments, as a word of its own. -/
theorem read_append_word {args : List (List Char)} {r : Request} (h : read args = some r) (hhelp : r.help = false)
    (s : List Char) :
    read (args ++ ["-e".toList, s]) =
      if Word.ofText s = .plain s then some { r with input := s } else none := by
  have hoption : Word.ofText "-e".toList = .option .eval false none := by decide
  rw [read_append h hhelp, List.map_cons, List.map_singleton, hoption, addWords_waiting hhelp rfl]
  cases hs : Word.ofText s with
  | plain t =>
    rw [Word.eq_of_ofText_plain hs, if_neg (by simp), if_pos rfl]
    rfl
  | option o isLong glued =>
    rw [if_neg (by simp), if_neg (by simp)]
    rfl
  | unknown =>
    rw [if_neg (by simp), if_neg (by simp)]
    rfl
  | invalid => simp

end Request

end Surd.CommandLine
