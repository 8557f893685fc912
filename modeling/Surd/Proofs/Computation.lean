import Mathlib

/-!
# Computations that may fail

A sequence of computations succeeds where each of them does, and fails with the first that fails.
-/

namespace Surd

/-! ## Sequences -/

theorem ok_bind {α β ε : Type} (a : α) (f : α → Except ε β) : (Except.ok a >>= f) = f a := rfl

theorem error_bind {α β ε : Type} (e : ε) (f : α → Except ε β) : (Except.error e >>= f) = .error e := rfl

theorem bind_error_iff {α β ε : Type} {x : Except ε α} {f : α → Except ε β} {e : ε} :
    (x >>= f) = .error e ↔ x = .error e ∨ ∃ a, x = .ok a ∧ f a = .error e := by
  cases x <;> simp [Bind.bind, Except.bind]

theorem bind_ok_iff {α β ε : Type} {x : Except ε α} {f : α → Except ε β} {b : β} :
    (x >>= f) = .ok b ↔ ∃ a, x = .ok a ∧ f a = .ok b := by
  cases x <;> simp [Bind.bind, Except.bind]

theorem map_error_iff {α β ε : Type} {x : Except ε α} {f : α → β} {e : ε} : x.map f = .error e ↔ x = .error e := by
  cases x <;> simp [Except.map]

theorem map_ok_iff {α β ε : Type} {x : Except ε α} {f : α → β} {b : β} :
    x.map f = .ok b ↔ ∃ a, x = .ok a ∧ f a = b := by
  cases x <;> simp [Except.map]

/-! ## Lists -/

theorem mapM_eq_ok {α β ε : Type} {f : α → Except ε β} {g : α → β} {l : List α} (h : ∀ a ∈ l, f a = .ok (g a)) :
    l.mapM f = .ok (l.map g) := by
  induction l with
  | nil => rfl
  | cons a l ih =>
    rw [List.mapM_cons, h a (by simp), ih fun b hb => h b (by simp [hb])]
    rfl

theorem mapM_ok_iff {α β ε : Type} {f : α → Except ε β} {l : List α} {bs : List β} :
    l.mapM f = .ok bs ↔ List.Forall₂ (fun a b => f a = .ok b) l bs := by
  induction l generalizing bs with
  | nil => cases bs <;> simp [Pure.pure, Except.pure]
  | cons a l ih =>
    rw [List.mapM_cons, bind_ok_iff]
    constructor
    · intro h
      obtain ⟨b, hb, h⟩ := h
      obtain ⟨cs, hcs, hbs⟩ := bind_ok_iff.mp h
      cases hbs
      exact .cons hb (ih.mp hcs)
    · intro h
      rcases h with _ | ⟨hb, hcs⟩
      exact ⟨_, hb, bind_ok_iff.mpr ⟨_, ih.mpr hcs, rfl⟩⟩

theorem mapM_ofFn {α β ε : Type} {f : α → Except ε β} {n : Nat} {a : Fin n → α} {b : Fin n → β}
    (h : ∀ i, f (a i) = .ok (b i)) : (List.ofFn a).mapM f = .ok (List.ofFn b) := by
  rw [mapM_ok_iff, List.forall₂_iff_get]
  refine ⟨by simp, fun i hi _ => ?_⟩
  simpa using h ⟨i, by simpa using hi⟩

theorem mapM_total {α β ε : Type} {f : α → Except ε β} {l : List α} (h : ∀ a ∈ l, ∃ b, f a = .ok b) :
    ∃ bs, l.mapM f = .ok bs ∧ bs.length = l.length := by
  induction l with
  | nil => exact ⟨[], rfl, rfl⟩
  | cons a l ih =>
    obtain ⟨b, hb⟩ := h a (List.mem_cons_self ..)
    obtain ⟨bs, hbs, hlength⟩ := ih fun c hc => h c (List.mem_cons_of_mem a hc)
    rw [List.mapM_cons, hb, ok_bind, hbs]
    exact ⟨b :: bs, rfl, congrArg (· + 1) hlength⟩

theorem le_foldl_max {α : Type} [LinearOrder α] (xs : List α) (start : α) :
    start ≤ xs.foldl max start ∧ ∀ x ∈ xs, x ≤ xs.foldl max start := by
  induction xs generalizing start with
  | nil => simp
  | cons x xs ih =>
    obtain ⟨hstart, hall⟩ := ih (max start x)
    rw [List.foldl_cons, List.forall_mem_cons]
    exact ⟨(le_max_left start x).trans hstart, (le_max_right start x).trans hstart, hall⟩

theorem findSomeM?_eq_some {α β ε : Type} {f : α → Except ε (Option β)} {l : List α} {b : β}
    (h : l.findSomeM? f = .ok (some b)) : ∃ a ∈ l, f a = .ok (some b) := by
  induction l with
  | nil => cases h
  | cons a l ih =>
    rw [List.findSomeM?_cons] at h
    obtain ⟨o, ho, h⟩ := bind_ok_iff.mp h
    cases o with
    | none =>
      obtain ⟨c, hc, hcb⟩ := ih h
      exact ⟨c, List.mem_cons_of_mem a hc, hcb⟩
    | some c =>
      cases h
      exact ⟨a, List.mem_cons_self .., ho⟩

theorem findSomeM?_total {α β ε : Type} {f : α → Except ε (Option β)} {l : List α} (h : ∀ a ∈ l, ∃ o, f a = .ok o) :
    ∃ o, l.findSomeM? f = .ok o := by
  induction l with
  | nil => exact ⟨none, rfl⟩
  | cons a l ih =>
    obtain ⟨o, ho⟩ := h a (List.mem_cons_self ..)
    rw [List.findSomeM?_cons, ho, ok_bind]
    cases o with
    | none => exact ih fun c hc => h c (List.mem_cons_of_mem a hc)
    | some c => exact ⟨some c, rfl⟩

theorem findSomeM?_eq_none {α β ε : Type} {f : α → Except ε (Option β)} {l : List α} (h : ∀ a ∈ l, f a = .ok none) :
    l.findSomeM? f = .ok none := by
  induction l with
  | nil => rfl
  | cons a l ih =>
    rw [List.findSomeM?_cons, h a (List.mem_cons_self ..), ok_bind]
    exact ih fun c hc => h c (List.mem_cons_of_mem a hc)

/-- A search that finds nothing fails with the first element that fails. -/
theorem findSomeM?_eq_error {α β ε : Type} {f : α → Except ε (Option β)} {l : List α} {e : ε}
    (h : ∀ a ∈ l, f a = .ok none ∨ f a = .error e) (hex : ∃ a ∈ l, f a = .error e) : l.findSomeM? f = .error e := by
  induction l with
  | nil => simp at hex
  | cons a l ih =>
    rw [List.findSomeM?_cons]
    rcases h a (List.mem_cons_self ..) with ha | ha
    · rw [ha, ok_bind]
      obtain ⟨c, hc, hce⟩ := hex
      rcases List.mem_cons.mp hc with rfl | hc
      · cases ha.symm.trans hce
      · exact ih (fun b hb => h b (List.mem_cons_of_mem a hb)) ⟨c, hc, hce⟩
    · rw [ha, error_bind]

theorem mapM_error_of_before {α β ε : Type} {f : α → Except ε β} {before after : List α} {a : α} {e : ε}
    (hbefore : ∀ b ∈ before, ∃ c, f b = .ok c) (ha : f a = .error e) : (before ++ a :: after).mapM f = .error e := by
  obtain ⟨cs, hcs, _⟩ := mapM_total hbefore
  rw [List.mapM_append, hcs, ok_bind, List.mapM_cons, ha, error_bind, error_bind]

theorem before_of_mapM_error {α β ε : Type} {f : α → Except ε β} {l : List α} {e : ε} (h : l.mapM f = .error e) :
    ∃ before a after, l = before ++ a :: after ∧ (∀ b ∈ before, ∃ c, f b = .ok c) ∧ f a = .error e := by
  induction l with
  | nil => cases h
  | cons a l ih =>
    rw [List.mapM_cons] at h
    rcases bind_error_iff.mp h with ha | ⟨b, hb, h⟩
    · exact ⟨[], a, l, rfl, by simp, ha⟩
    rcases bind_error_iff.mp h with hl | ⟨bs, _, h⟩
    · obtain ⟨before, c, after, rfl, hbefore, hc⟩ := ih hl
      exact ⟨a :: before, c, after, rfl, List.forall_mem_cons.mpr ⟨⟨b, hb⟩, hbefore⟩, hc⟩
    · cases h

/-- Running over a list fails with the first element that fails. -/
theorem mapM_error_iff {α β ε : Type} {f : α → Except ε β} {l : List α} {e : ε} :
    l.mapM f = .error e ↔
      ∃ before a after, l = before ++ a :: after ∧ (∀ b ∈ before, ∃ c, f b = .ok c) ∧ f a = .error e := by
  constructor
  · exact before_of_mapM_error
  · intro h
    obtain ⟨before, a, after, rfl, hbefore, ha⟩ := h
    exact mapM_error_of_before hbefore ha

end Surd
