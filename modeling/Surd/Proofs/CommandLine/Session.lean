import Mathlib
import Surd.CommandLine.Run
import Surd.Proofs.CommandLine.Arguments
import Surd.Proofs.Computation

/-!
# A session is a sequence of single runs

What a session prints, apart from its prompts, is what single runs print for its lines: up to the first
line that leaves, each line that is neither blank nor asks for help is the input of a run of its own. The
session fails where one of these runs does.
-/

namespace Surd.CommandLine

/-! ## Lines by themselves -/

/-- A line that a single run does not take for a copied prompt or for an empty input. -/
def StandsAlone (s : List Char) : Prop := Text.trim s ≠ ['='] ∧ ¬['>', '>', '>'] <+: Text.trim s

instance : DecidablePred StandsAlone := fun s =>
  inferInstanceAs (Decidable (Text.trim s ≠ ['='] ∧ ¬['>', '>', '>'] <+: Text.trim s))

/-- What is printed for a line by itself, with the options of the session. -/
def alone (cfg : Settings) (options : List (List Char)) (s : List Char) : Except Failure Outcome :=
  match Line.ofText s with
  | .blank | .leave => pure ⟨0, ""⟩
  | .help => pure ⟨0, helpText⟩
  | .input _ => run cfg (options ++ ["--eval=".toList ++ s]) []

theorem single_eq_answer {s t : List Char} (hline : Line.ofText s = .input t) (h : StandsAlone s) (m : Mode) :
    single m s = (Line.input t).answer m := by
  have htrim : Text.trim s = t ∧ (Text.trim s).isEmpty = false := by
    unfold Line.ofText at hline
    dsimp only at hline
    split at hline
    · cases hline
    · rename_i hempty
      split at hline
      · cases hline
      · split at hline
        · cases hline
        · cases hline
          exact ⟨rfl, by simpa using hempty⟩
  obtain ⟨rfl, hempty⟩ := htrim
  have hprompt : ¬['>', '>', '>'].isPrefixOf (Text.trim s) = true := by
    rw [List.isPrefixOf_iff_prefix]
    exact h.2
  have hvoid : ¬isVoid (Text.trim s) = true := by simp [isVoid, hempty, h.1]
  simp only [single, withoutPrompt, if_neg hprompt, if_neg hvoid, Line.answer]

/-! ## Runs -/

theorem runRequest_eq {cfg : Settings} {r : Request} (hhelp : r.help = false) (hversion : r.version = false)
    {m : Mode} (hmode : r.mode cfg = .ok m) (lines : List (List Char)) :
    runRequest cfg r lines =
      (match r.input with
        | some s => single m s
        | none => Session.run m lines).map Answer.outcome := by
  rw [runRequest, if_neg (by simp [hhelp]), if_neg (by simp [hversion]), hmode, ok_bind]
  cases r.input with
  | none => cases Session.run m lines <;> rfl
  | some s => cases single m s <;> rfl

section
variable {cfg : Settings} {options : List (List Char)} {r : Request} (hread : Request.read options = some r)
  (hhelp : r.help = false) (hversion : r.version = false)
include hread hhelp hversion

theorem run_lines (hinput : r.input = none) {m : Mode} (hmode : r.mode cfg = .ok m) (lines : List (List Char)) :
    run cfg options lines = (Session.run m lines).map Answer.outcome := by
  simp only [run, hread]
  rw [runRequest_eq hhelp hversion hmode, hinput]

theorem run_single {m : Mode} (hmode : r.mode cfg = .ok m) (s : List Char) :
    run cfg (options ++ ["--eval=".toList ++ s]) [] = (single m s).map Answer.outcome := by
  have hsame : ({ r with input := some s } : Request).mode cfg = .ok m := hmode
  simp only [run, Request.read_append_equals hread hhelp]
  exact runRequest_eq (r := { r with input := some s }) hhelp hversion hsame []

theorem alone_eq {m : Mode} (hmode : r.mode cfg = .ok m) {s : List Char} (h : StandsAlone s) :
    alone cfg options s = ((Line.ofText s).answer m).map Answer.outcome := by
  unfold alone
  split
  · rename_i hline
    rw [hline]
    rfl
  · rename_i hline
    rw [hline]
    rfl
  · rename_i hline
    rw [hline]
    rfl
  · rename_i t hline
    rw [run_single hread hhelp hversion hmode, hline, single_eq_answer hline h]

end

/-! ## Sessions -/

namespace Session

/-- The lines before the first that leaves. -/
def before (lines : List (List Char)) : List (List Char) := lines.takeWhile fun s => Line.ofText s != .leave

/-- What follows the last prompt: the end of a line, unless a line leaves. -/
def ending (lines : List (List Char)) : String := if lines.any fun s => Line.ofText s == .leave then "" else "\n"

/-- What is printed in a session for outcomes of its lines. -/
def transcript (prompt : String) (outcomes : List Outcome) (ending : String) : Outcome where
  exitCode := if outcomes.any fun o => o.exitCode == 1 then 1 else 0
  text := String.join (outcomes.map fun o => prompt ++ o.text) ++ prompt ++ ending

theorem transcript_cons (prompt : String) (a : Answer) (outcomes : List Outcome) (last : String) (others : Answer)
    (h : others.outcome = transcript prompt outcomes last) :
    Answer.outcome ⟨prompt ++ a.text ++ others.text, a.ok && others.ok⟩ =
      transcript prompt (a.outcome :: outcomes) last := by
  obtain ⟨text, ok⟩ := a
  obtain ⟨texts, oks⟩ := others
  simp only [Answer.outcome, transcript, Outcome.mk.injEq] at h ⊢
  obtain ⟨hcode, rfl⟩ := h
  constructor
  · cases ok with
    | false => simp
    | true => simpa using hcode
  · simp [String.append_assoc]

theorem answers_cons (m : Mode) {line : Line} (h : line ≠ .leave) (rest : List Line) :
    answers m (line :: rest) =
      (do
        let a ← line.answer m
        let others ← answers m rest
        pure ⟨m.format.style.prompt ++ a.text ++ others.text, a.ok && others.ok⟩) := by
  cases line with
  | leave => exact absurd rfl h
  | blank => rfl
  | help => rfl
  | input s => rfl

/-- One line after another, each answered as it is answered by itself. -/
theorem answers_eq (m : Mode) {ask : List Char → Except Failure Outcome} {lines : List (List Char)}
    (h : ∀ s ∈ before lines, ask s = ((Line.ofText s).answer m).map Answer.outcome) :
    (answers m (lines.map Line.ofText)).map Answer.outcome =
      (before lines).mapM ask >>= fun outcomes => pure (transcript m.format.style.prompt outcomes (ending lines)) := by
  induction lines with
  | nil => rfl
  | cons s lines ih =>
    by_cases hleave : Line.ofText s = .leave
    · have hbefore : before (s :: lines) = [] := by simp [before, hleave]
      have hending : ending (s :: lines) = "" := by simp [ending, hleave]
      rw [hbefore, hending, List.map_cons, hleave]
      simp [answers, transcript, Answer.outcome, Except.map, pure, Except.pure, ok_bind]
    · have hbefore : before (s :: lines) = s :: before lines := by simp [before, hleave]
      have hending : ending (s :: lines) = ending lines := by simp [ending, hleave]
      have hs : s ∈ before (s :: lines) := by simp [hbefore]
      have hrest : ∀ t ∈ before lines, ask t = ((Line.ofText t).answer m).map Answer.outcome := by
        intro t ht
        exact h t (by simp [hbefore, ht])
      rw [hbefore, hending, List.mapM_cons, h s hs, List.map_cons, answers_cons m hleave]
      cases (Line.ofText s).answer m with
      | error e => rfl
      | ok a =>
        have ih := ih hrest
        cases hothers : answers m (lines.map Line.ofText) with
        | error e =>
          rw [hothers] at ih
          -- the lines behind fail, and so does the session, whatever this one prints
          rcases bind_error_iff.mp ih.symm with hfails | ⟨outcomes, _, hfails⟩
          · rw [Except.map, ok_bind, hfails]
            rfl
          · cases hfails
        | ok others =>
          rw [hothers] at ih
          obtain ⟨outcomes, houtcomes, hothers⟩ := bind_ok_iff.mp ih.symm
          rw [Except.map, ok_bind, houtcomes]
          exact congrArg Except.ok (transcript_cons _ a outcomes _ others (Except.ok.inj hothers).symm)

end Session

section
variable {cfg : Settings} {options : List (List Char)} {r : Request} {m : Mode} {lines : List (List Char)}

/-- A session prints what runs of its own print for its lines. An input of its own is given after an
equals sign; as a word by itself it is understood where it does not look like an option. -/
theorem run_session (hread : Request.read options = some r) (hinput : r.input = none) (hhelp : r.help = false)
    (hversion : r.version = false) (hmode : r.mode cfg = .ok m)
    (hlines : ∀ s ∈ Session.before lines, StandsAlone s) :
    run cfg options lines =
      (do
        let outcomes ← (Session.before lines).mapM (alone cfg options)
        let t := Session.transcript m.format.style.prompt outcomes (Session.ending lines)
        pure ⟨t.exitCode, banner ++ t.text⟩) ∧
    ∀ s, run cfg (options ++ ["-e".toList, s]) [] =
      if Word.ofText s = .plain s then run cfg (options ++ ["--eval=".toList ++ s]) [] else .ok ⟨2, ""⟩ := by
  constructor
  · have hanswers := Session.answers_eq m fun s hs => alone_eq hread hhelp hversion hmode (hlines s hs)
    have hbanner : (Session.run m lines).map Answer.outcome =
        (Session.answers m (lines.map Line.ofText)).map Answer.outcome >>= fun o =>
          pure ⟨o.exitCode, banner ++ o.text⟩ := by
      unfold Session.run
      cases Session.answers m (lines.map Line.ofText) <;> rfl
    rw [run_lines hread hhelp hversion hinput hmode, hbanner, hanswers, bind_assoc]
    rfl
  · intro s
    rw [run, Request.read_append_word hread hhelp, run, Request.read_append_equals hread hhelp]
    by_cases hplain : Word.ofText s = .plain s
    · rw [if_pos hplain, if_pos hplain]
    · rw [if_neg hplain, if_neg hplain]
      rfl

end

/-! ### Sessions of a few lines -/

def sampleLines : List (List Char) := ["1/2", " ", "Help", "1/0", " QUIT", "2"].map String.toList

theorem run_session_sampleLines :
    run {} ["--unicode".toList] sampleLines =
      (do
        let outcomes ← (Session.before sampleLines).mapM (alone {} ["--unicode".toList])
        let t := Session.transcript "➤ " outcomes (Session.ending sampleLines)
        pure ⟨t.exitCode, banner ++ t.text⟩) := by
  have hread : Request.read ["--unicode".toList] = some { style := some .unicode } := by decide +kernel
  have hmode : ({ style := some .unicode } : Request).mode {} = .ok ⟨{}, ⟨.unicode, 6⟩, .human⟩ := rfl
  have hlines : ∀ s ∈ Session.before sampleLines, StandsAlone s := by decide
  exact (run_session hread rfl rfl rfl hmode hlines).1

/-- A line that begins with a minus sign is answered in a session. As a word by itself it is taken for an
option. -/
theorem run_minus :
    run {} [] ["-1/2".toList] = .ok ⟨0, banner ++ ">>> -1/2\nDecimal: -0.5\n>>> \n"⟩ ∧
      run {} ["-e".toList, "-1/2".toList] [] = .ok ⟨2, ""⟩ := by
  decide +kernel

end Surd.CommandLine
