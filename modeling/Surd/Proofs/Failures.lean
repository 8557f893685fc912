import Mathlib
import Surd.Calculator
import Surd.Proofs.Binary64.Arithmetic
import Surd.Proofs.Computation

/-!
# Which failures a computation may have

`FailsOnly P x` bounds the failures of `x`. One lemma for each function says that its failures are
caught: a calculator turns them into an unsuccessful result. Divisions of doubles are the exception.
-/

namespace Surd

/-- Every failure of a computation satisfies a condition. -/
def FailsOnly {α : Type} (P : Failure → Prop) (x : Except Failure α) : Prop := ∀ e, x = .error e → P e

namespace FailsOnly

variable {α β : Type} {P : Failure → Prop}

theorem pure (a : α) : FailsOnly P (Pure.pure a) := by
  intro e he
  cases he

theorem throw {e : Failure} (h : P e) : FailsOnly P (throw e : Except Failure α) := by
  intro f hf
  cases hf
  exact h

theorem bind {x : Except Failure α} {f : α → Except Failure β} (hx : FailsOnly P x)
    (hf : ∀ a, x = .ok a → FailsOnly P (f a)) : FailsOnly P (x >>= f) := by
  intro e he
  cases h : x with
  | error e' =>
    rw [h] at he
    cases he
    exact hx e h
  | ok a =>
    rw [h] at he
    exact hf a h e he

theorem mapM {f : α → Except Failure β} {l : List α} (h : ∀ a ∈ l, FailsOnly P (f a)) :
    FailsOnly P (l.mapM f) := by
  induction l with
  | nil => exact .pure []
  | cons a l ih =>
    rw [List.mapM_cons]
    refine .bind (h a (by simp)) fun b _ => ?_
    exact .bind (ih fun c hc => h c (by simp [hc])) fun _ _ => .pure _

theorem findSomeM? {f : α → Except Failure (Option β)} {l : List α} (h : ∀ a ∈ l, FailsOnly P (f a)) :
    FailsOnly P (l.findSomeM? f) := by
  induction l with
  | nil => exact .pure none
  | cons a l ih =>
    rw [List.findSomeM?_cons]
    refine .bind (h a (by simp)) fun b _ => ?_
    cases b with
    | none => exact ih fun c hc => h c (by simp [hc])
    | some b => exact .pure _

theorem not_escapes {x : Except Failure α} (hx : FailsOnly P x) {e : Failure} : ¬(x = .error e ∧ ¬P e) := by
  intro h
  exact h.2 (hx e h.1)

/-- A failure of another kind is one of the second step. -/
theorem escapes_bind_iff {x : Except Failure α} {f : α → Except Failure β} (hx : FailsOnly P x) {e : Failure} :
    ((x >>= f) = .error e ∧ ¬P e) ↔ ∃ a, x = .ok a ∧ f a = .error e ∧ ¬P e := by
  rw [bind_error_iff]
  constructor
  · intro h
    obtain ⟨hfirst | ⟨a, ha, hfa⟩, hescapes⟩ := h
    · exact absurd (hx e hfirst) hescapes
    · exact ⟨a, ha, hfa, hescapes⟩
  · intro h
    obtain ⟨a, ha, hfa, hescapes⟩ := h
    exact ⟨.inr ⟨a, ha, hfa⟩, hescapes⟩

/-- A failure of another kind is one of the first step. -/
theorem escapes_bind_iff_first {x : Except Failure α} {f : α → Except Failure β}
    (hf : ∀ a, x = .ok a → FailsOnly P (f a)) {e : Failure} :
    ((x >>= f) = .error e ∧ ¬P e) ↔ x = .error e ∧ ¬P e := by
  rw [bind_error_iff]
  constructor
  · intro h
    obtain ⟨hfirst | ⟨a, ha, hfa⟩, hescapes⟩ := h
    · exact ⟨hfirst, hescapes⟩
    · exact absurd (hf a ha e hfa) hescapes
  · intro h
    exact ⟨.inl h.1, h.2⟩

end FailsOnly

/-- The failure has a code of its own. -/
def Coded (e : Failure) : Prop := e.kind.isCoded = true

/-- A calculator turns the failure into an unsuccessful result. -/
def Caught (e : Failure) : Prop := e.kind.isCaught = true

theorem coded_or_of_caught {e : Failure} (h : Caught e) : Coded e ∨ e.kind = .value ∨ e.kind = .overflow := by
  simpa [Caught, Coded, Kind.isCaught, or_assoc] using h

theorem caught_of_coded {e : Failure} (h : Coded e) : Caught e := by
  have hcode : e.kind.isCoded = true := h
  rw [Caught, Kind.isCaught, hcode]
  rfl

/-! ## Texts of numbers -/

theorem caught_writeInt (n : Int) : FailsOnly Caught (Text.writeInt n) := by
  unfold Text.writeInt
  split
  · exact .throw rfl
  · exact .pure _

theorem caught_readInt (s : List Char) : FailsOnly Caught (Text.readInt s) := by
  unfold Text.readInt
  dsimp only
  split
  · exact .throw rfl
  · split
    · exact .throw rfl
    · split
      · exact .pure _
      · exact .throw rfl

theorem caught_readDouble (s : List Char) : FailsOnly Caught (Binary64.read s) := by
  unfold Binary64.read
  dsimp only
  split
  · exact .pure _
  · exact .throw rfl

namespace Rational

theorem caught_write (x : Rat) : FailsOnly Caught (write x) := by
  unfold write
  refine (caught_writeInt _).bind fun n _ => ?_
  split
  · exact .pure _
  · exact (caught_writeInt _).bind fun d _ => .pure _

theorem caught_divInt (n d : Int) : FailsOnly Caught (divInt n d) := by
  unfold divInt
  split
  · exact (caught_writeInt n).bind fun s _ => .throw rfl
  · exact .pure _

/-! ## Doubles and fractions -/

theorem caught_ofDouble (cfg : Settings) (x : Binary64) : FailsOnly Caught (ofDouble cfg x) := by
  have hmagnitude : FailsOnly Caught (ofMagnitude cfg x.abs) := by
    unfold ofMagnitude
    split
    · exact .pure _
    · split
      · exact .throw rfl
      · exact .pure _
  unfold ofDouble
  split
  · exact .throw rfl
  · split
    · exact .pure _
    · exact hmagnitude.bind fun q _ => .pure _

theorem caught_read (cfg : Settings) (s : List Char) : FailsOnly Caught (read cfg s) := by
  unfold read
  dsimp only
  split
  · refine (caught_readInt _).bind fun n _ => ?_
    exact (caught_readInt _).bind fun d _ => caught_divInt n d
  · split
    · exact .pure _
    · exact (caught_readDouble _).bind fun x _ => caught_ofDouble cfg x

end Rational

theorem caught_inRange (x : Binary64) : FailsOnly Caught x.inRange := by
  cases x with
  | nan => exact .pure _
  | infinite s => exact .throw rfl
  | finite s r => exact .pure _

theorem caught_ofFraction (x : Rat) : FailsOnly Caught (Binary64.ofFraction x) := caught_inRange _

theorem caught_round (x : Binary64) : FailsOnly Caught x.round := by
  cases x with
  | nan => exact .throw rfl
  | infinite s => exact .throw rfl
  | finite s r => exact .pure _

theorem caught_div {x y : Binary64} (h : y.isZero = false) : FailsOnly Caught (x.div y) := by
  intro e he
  rw [(Binary64.div_error_iff.mp he).1] at h
  cases h

theorem caught_finiteImage {failure : Failure} (h : Caught failure) (x y : Binary64) :
    FailsOnly Caught (Elementary.finiteImage failure x y) := by
  unfold Elementary.finiteImage
  split
  · exact .throw h
  · exact .pure _

theorem caught_cosine (f : Elementary) (x : Binary64) : FailsOnly Caught (f.cosine x) := by
  cases x with
  | nan => exact .pure _
  | infinite s => exact .throw rfl
  | finite s r => exact .pure _

/-! ## Complex numbers -/

namespace Gaussian

theorem caught_ofDoubles (cfg : Settings) (x y : Binary64) : FailsOnly Caught (ofDoubles cfg x y) :=
  (Rational.caught_ofDouble cfg x).bind fun _ _ => (Rational.caught_ofDouble cfg y).bind fun _ _ => .pure _

theorem caught_write (z : Gaussian) : FailsOnly Caught z.write := by
  have him : ∀ y : Rat, FailsOnly Caught (writeImaginary y) := by
    intro y
    unfold writeImaginary
    split
    · exact .pure _
    · split
      · exact .pure _
      · exact (Rational.caught_write y).bind fun _ _ => .pure _
  unfold write
  split
  · exact Rational.caught_write _
  · split
    · exact him _
    · exact (Rational.caught_write _).bind fun _ _ => (him _).bind fun _ _ => .pure _

end Gaussian

theorem Number.caught_toGaussian (cfg : Settings) (x : Number) : FailsOnly Caught (x.toGaussian cfg) := by
  cases x with
  | int n => exact .pure _
  | fraction x => exact .pure _
  | double x => exact (Rational.caught_ofDouble cfg x).bind fun _ _ => .pure _
  | complexDouble x y => exact Gaussian.caught_ofDoubles cfg x y
  | gaussian z => exact .pure _

/-! ## Square roots -/

section
variable {cfg : Settings} (hsqrt : ∀ x, FailsOnly Caught (cfg.elementary.sqrt x))
include hsqrt

theorem Rational.caught_sqrt (x : Rat) : FailsOnly Caught (Rational.sqrt cfg x) :=
  (caught_ofFraction x).bind fun _ _ => (hsqrt _).bind fun _ _ => Rational.caught_ofDouble cfg _

theorem Gaussian.caught_sqrt (z : Gaussian) : FailsOnly Caught (z.sqrt cfg) := by
  have hroot := Rational.caught_sqrt hsqrt
  unfold Gaussian.sqrt
  split
  · split
    · exact (hroot _).bind fun _ _ => .pure _
    · exact (hroot _).bind fun _ _ => .pure _
  · exact (hroot _).bind fun _ _ => (hroot _).bind fun _ _ => (hroot _).bind fun _ _ => .pure _

end

end Surd
