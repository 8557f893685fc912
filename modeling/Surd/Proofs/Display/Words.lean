import Mathlib

/-!
# Words outside brackets

A text is cut at the blanks that stand outside brackets. If none of its words can be cut, the words of a
text are those that it was put together from: `words_unwords`.
-/

namespace Surd.Text

/-! ## Where texts part -/

section
variable {α : Type} {c : α} {u v u' v' : List α} (h : u ++ c :: v = u' ++ c :: v')
include h

/-- Two texts that agree agree before and after the first separator. -/
theorem append_cons_inj_first (hu : c ∉ u) (hu' : c ∉ u') : u = u' ∧ v = v' := by
  rcases List.append_eq_append_iff.mp h with ⟨a, rfl, ha⟩ | ⟨a, rfl, ha⟩
  · cases a with
    | nil => simpa using ha
    | cons d a => exact absurd (by simp [(List.cons.inj ha).1]) hu'
  · cases a with
    | nil => simpa [eq_comm] using ha
    | cons d a => exact absurd (by simp [(List.cons.inj ha).1]) hu

theorem append_cons_inj_last (hv : c ∉ v) (hv' : c ∉ v') : u = u' ∧ v = v' := by
  have hreverse := congrArg List.reverse h
  simp only [List.reverse_append, List.reverse_cons, List.append_assoc, List.singleton_append] at hreverse
  obtain ⟨hfirst, hlast⟩ := append_cons_inj_first hreverse (by simpa using hv) (by simpa using hv')
  exact ⟨List.reverse_injective hlast, List.reverse_injective hfirst⟩

end

/-! ## Words -/

/-- The number of open brackets after a character. -/
def nesting (k : Nat) (c : Char) : Nat :=
  if c = '(' ∨ c = '{' then k + 1 else if c = ')' ∨ c = '}' then k - 1 else k

/-- The parts of a text between the blanks outside brackets, where some brackets are open. -/
def words : Nat → List Char → List (List Char)
  | _, [] => [[]]
  | k, c :: s => if k = 0 ∧ c = ' ' then [] :: words 0 s else (words (nesting k c) s).modifyHead (c :: ·)

/-- Words with a blank between each two. -/
def unwords : List (List Char) → List Char
  | [] => []
  | [w] => w
  | w :: ws => w ++ ' ' :: unwords ws

/-- A text in which the number of open brackets changes and no word ends. -/
def Spans (j k : Nat) (u : List Char) : Prop := ∀ s, words j (u ++ s) = (words k s).modifyHead (u ++ ·)

theorem Spans.append {i j k : Nat} {u v : List Char} (hu : Spans i j u) (hv : Spans j k v) : Spans i k (u ++ v) := by
  intro s
  rw [List.append_assoc, hu, hv]
  cases words k s <;> simp

theorem spans_singleton {k : Nat} {c : Char} (h : k ≠ 0 ∨ c ≠ ' ') : Spans k (nesting k c) [c] := by
  intro s
  rw [List.singleton_append, words, if_neg (by tauto)]
  rfl

theorem spans_open {c : Char} (h : c = '(' ∨ c = '{') (k : Nat) : Spans k (k + 1) [c] := by
  have hspans := spans_singleton (k := k) (c := c) (.inr (by rcases h with rfl | rfl <;> decide))
  rwa [nesting, if_pos h] at hspans

theorem spans_close {c : Char} (h : c = ')' ∨ c = '}') (k : Nat) : Spans (k + 1) k [c] := by
  have hspans := spans_singleton (k := k + 1) (c := c) (.inl (Nat.succ_ne_zero k))
  rwa [nesting, if_neg (by rcases h with rfl | rfl <;> decide), if_pos h] at hspans

/-! ## Words that cannot be cut -/

/-- No word ends in a text inside brackets, and all brackets in it match. -/
def Inner (u : List Char) : Prop := ∀ k, Spans (k + 1) (k + 1) u

/-- No word ends in a text, and all brackets in it match. -/
def Closed (u : List Char) : Prop := ∀ k, Spans k k u

namespace Closed

variable {u v : List Char}

theorem inner (h : Closed u) : Inner u := fun k => h (k + 1)

theorem append (hu : Closed u) (hv : Closed v) : Closed (u ++ v) := fun k => (hu k).append (hv k)

theorem nil : Closed [] := by
  intro k s
  rw [List.nil_append]
  cases words k s <;> rfl

theorem singleton {c : Char} (h : c ∉ [' ', '(', ')', '{', '}']) : Closed [c] := by
  intro k
  simp only [List.mem_cons, List.not_mem_nil, or_false, not_or] at h
  obtain ⟨hblank, hopen, hclose, hopen', hclose'⟩ := h
  have hspans := spans_singleton (k := k) (.inr hblank)
  rwa [nesting, if_neg (by tauto), if_neg (by tauto)] at hspans

theorem cons {c : Char} (h : c ∉ [' ', '(', ')', '{', '}']) (hu : Closed u) : Closed (c :: u) := (singleton h).append hu

theorem of_forall (h : ∀ c ∈ u, c ∉ [' ', '(', ')', '{', '}']) : Closed u := by
  induction u with
  | nil => exact nil
  | cons c u ih => exact .cons (h c (by simp)) (ih fun d hd => h d (by simp [hd]))

theorem bracketed {o c : Char} (ho : o = '(' ∨ o = '{') (hc : c = ')' ∨ c = '}') (h : Inner u) :
    Closed (o :: u ++ [c]) := fun k => ((spans_open ho k).append (h k)).append (spans_close hc k)

end Closed

theorem Inner.append {u v : List Char} (hu : Inner u) (hv : Inner v) : Inner (u ++ v) := fun k => (hu k).append (hv k)

theorem inner_blank : Inner [' '] := fun k => spans_singleton (k := k + 1) (.inl (Nat.succ_ne_zero k))

theorem Inner.unwords {ws : List (List Char)} (h : ∀ w ∈ ws, Inner w) : Inner (unwords ws) := by
  induction ws with
  | nil => exact Closed.nil.inner
  | cons w ws ih =>
    cases ws with
    | nil => exact h w (by simp)
    | cons w' ws =>
      have hrest := ih fun v hv => h v (by simp [hv])
      exact (h w (by simp)).append (inner_blank.append hrest)

theorem subset_unwords {ws : List (List Char)} {w : List Char} (h : w ∈ ws) : w ⊆ unwords ws := by
  induction ws with
  | nil => cases h
  | cons v ws ih =>
    cases ws with
    | nil => exact List.mem_singleton.mp h ▸ List.Subset.refl _
    | cons v' ws =>
      rcases List.mem_cons.mp h with rfl | h
      · exact List.subset_append_left ..
      · exact List.Subset.trans (ih h) (List.Subset.trans (List.subset_cons_self ..) (List.subset_append_right ..))

theorem words_unwords {ws : List (List Char)} (hne : ws ≠ []) (h : ∀ w ∈ ws, Closed w) : words 0 (unwords ws) = ws := by
  induction ws with
  | nil => exact absurd rfl hne
  | cons w ws ih =>
    have hw := h w (by simp) 0
    cases ws with
    | nil =>
      have hend := hw []
      rw [List.append_nil] at hend
      simpa [words, unwords] using hend
    | cons w' ws =>
      have hrest := ih (by simp) fun v hv => h v (by simp [hv])
      change words 0 (w ++ ' ' :: Text.unwords (w' :: ws)) = _
      rw [hw, words, if_pos ⟨rfl, rfl⟩, hrest]
      simp

theorem unwords_inj {ws vs : List (List Char)} (hws : ws ≠ []) (hvs : vs ≠ []) (hwc : ∀ w ∈ ws, Closed w)
    (hvc : ∀ v ∈ vs, Closed v) (h : unwords ws = unwords vs) : ws = vs := by
  rw [← words_unwords hws hwc, ← words_unwords hvs hvc, h]

theorem unwords_append {ws vs : List (List Char)} (hws : ws ≠ []) (hvs : vs ≠ []) :
    unwords (ws ++ vs) = unwords ws ++ ' ' :: unwords vs := by
  induction ws with
  | nil => exact absurd rfl hws
  | cons w ws ih =>
    cases ws with
    | nil =>
      cases vs with
      | nil => exact absurd rfl hvs
      | cons v vs => rfl
    | cons w' ws =>
      have hrest := ih (by simp)
      change w ++ ' ' :: unwords ((w' :: ws) ++ vs) = (w ++ ' ' :: unwords (w' :: ws)) ++ ' ' :: unwords vs
      rw [hrest, List.append_assoc]
      rfl

end Surd.Text
