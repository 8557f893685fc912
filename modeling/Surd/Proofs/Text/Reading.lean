import Mathlib
import Surd.Text.Integer
import Surd.Text.Lowercase
import Surd.Text.Superscript

/-!
# Characters and digits as they are read

Digits of all scripts, blanks and lower case do not get in each other's way, so that a text keeps
its characters when its blanks are dropped and its letters lowered. `readInt_digits` says what
becomes of a run of digits.
-/

namespace Surd.Text

/-! ## Runs -/

section
variable {α : Type} {p : α → Bool}

theorem takeWhile_append_stop {u v : List α} (hu : ∀ c ∈ u, p c = true) (hv : ∀ c ∈ v.head?, p c = false) :
    (u ++ v).takeWhile p = u := by
  rw [List.takeWhile_append_of_pos hu]
  cases v with
  | nil => simp
  | cons c v => simp [hv c (by simp)]

theorem dropWhile_append_stop {u v : List α} (hu : ∀ c ∈ u, p c = true) (hv : ∀ c ∈ v.head?, p c = false) :
    (u ++ v).dropWhile p = v := by
  rw [List.dropWhile_append_of_pos hu]
  cases v with
  | nil => rfl
  | cons c v => simp [hv c (by simp)]

theorem dropWhile_eq_self {u : List α} (hu : ∀ c ∈ u.head?, p c = false) : u.dropWhile p = u := by
  cases u with
  | nil => rfl
  | cons c u => simp [hu c (by simp)]

theorem takeWhile_eq_self {u : List α} (hu : ∀ c ∈ u, p c = true) : u.takeWhile p = u :=
  List.takeWhile_eq_self_iff.mpr hu

theorem dropWhile_eq_nil {u : List α} (hu : ∀ c ∈ u, p c = true) : u.dropWhile p = [] :=
  List.dropWhile_eq_nil_iff.mpr hu

end

/-! ## Digits -/

theorem digit?_lt {c : Char} {d : Nat} (h : digit? c = some d) : d < 10 := by
  unfold digit? at h
  obtain ⟨z, _, hz⟩ := List.exists_of_findSome?_eq_some h
  split at hz
  · simp only [Option.some.injEq] at hz; omega
  · cases hz

theorem exists_zero_of_isDigit {c : Char} (h : isDigit c = true) :
    ∃ z ∈ zeroDigits, ∃ i < 10, c = Char.ofNat (z + i) := by
  unfold isDigit digit? at h
  rw [List.findSome?_isSome_iff] at h
  obtain ⟨z, hz, hc⟩ := h
  split at hc
  · refine ⟨z, hz, c.toNat - z, by omega, ?_⟩
    rw [show z + (c.toNat - z) = c.toNat by omega, Char.ofNat_toNat]
  · cases hc

theorem isBlank_zeroDigits : ∀ z ∈ zeroDigits, ∀ i < 10, isBlank (Char.ofNat (z + i)) = false := by
  decide +kernel

theorem isBlank_of_isDigit {c : Char} (h : isDigit c = true) : isBlank c = false := by
  obtain ⟨z, hz, i, hi, rfl⟩ := exists_zero_of_isDigit h
  exact isBlank_zeroDigits z hz i hi

theorem isBlank_of_isMargin {c : Char} (h : isMargin c = true) : isBlank c = true := by
  unfold isMargin at h
  split at h
  · simp only [Bool.or_eq_true, Bool.and_eq_true, beq_iff_eq, decide_eq_true_eq] at h
    rcases h with rfl | h
    · decide
    · simp [isBlank, h]
  · exact h

theorem isMargin_of_isDigit {c : Char} (h : isDigit c = true) : isMargin c = false := by
  cases hm : isMargin c with
  | false => rfl
  | true => rw [← isBlank_of_isMargin hm, isBlank_of_isDigit h]

theorem ne_slash_of_isDigit {c : Char} (h : isDigit c = true) : (c != '/') = true := by
  rw [bne_iff_ne]
  rintro rfl
  exact absurd h (by decide)

theorem isDigit_digitChar : ∀ d < 10, (Nat.digitChar d).isDigit = true := by decide

theorem isDigit_plainDigit {c : Char} (h : isDigit c = true) : (plainDigit c).isDigit = true := by
  obtain ⟨d, hd⟩ := Option.isSome_iff_exists.mp h
  simp only [plainDigit, hd]
  exact isDigit_digitChar d (digit?_lt hd)

/-! ## Plain digits -/

/-- The ten characters that numbers are written with. -/
def plainDigits : List Char := ['0', '1', '2', '3', '4', '5', '6', '7', '8', '9']

theorem mem_plainDigits {c : Char} (h : c.isDigit = true) : c ∈ plainDigits := by
  have hb : 48 ≤ c.toNat ∧ c.toNat ≤ 57 := by simpa [Char.isDigit, UInt32.le_iff_toNat_le] using h
  obtain ⟨i, hi⟩ : ∃ i, c.toNat = 48 + i := ⟨c.toNat - 48, by omega⟩
  have hall : ∀ i < 10, Char.ofNat (48 + i) ∈ plainDigits := by decide
  rw [← Char.ofNat_toNat c, hi]
  exact hall i (by omega)

theorem of_plainDigits (f : Char → Bool) (hf : plainDigits.all f = true) {c : Char} (h : c.isDigit = true) :
    f c = true :=
  List.all_eq_true.mp hf c (mem_plainDigits h)

theorem isDigit_of_plain {c : Char} (h : c.isDigit = true) : isDigit c = true :=
  of_plainDigits isDigit (by decide) h

theorem plainDigit_of_plain {c : Char} (h : c.isDigit = true) : plainDigit c = c :=
  of_decide_eq_true (of_plainDigits (fun c => plainDigit c = c) (by decide) h)

theorem map_plainDigit {ds : List Char} (h : ∀ c ∈ ds, c.isDigit = true) : ds.map plainDigit = ds := by
  rw [List.map_congr_left fun c hc => plainDigit_of_plain (h c hc), List.map_id']

theorem forall_map_plainDigit {ds : List Char} (hd : ∀ c ∈ ds, isDigit c = true) :
    ∀ c ∈ ds.map plainDigit, c.isDigit = true := by
  rw [List.forall_mem_map]
  exact fun c hc => isDigit_plainDigit (hd c hc)

/-! ## Integers -/

theorem ungroup_digits {ds : List Char} (hne : ds ≠ []) (hd : ∀ c ∈ ds, c.isDigit = true) :
    ungroup ds = some ds := by
  induction ds with
  | nil => exact absurd rfl hne
  | cons c ds ih =>
    have hc : c.isDigit = true := hd c (by simp)
    cases ds with
    | nil => simp [ungroup, hc]
    | cons b ds =>
      have hb : b ≠ '_' := by
        rintro rfl
        exact absurd (hd '_' (by simp)) (by decide)
      have ih := ih (by simp) fun x hx => hd x (by simp [hx])
      rw [ungroup]
      · simp [hc, ih]
      · simp
      · rintro more h; exact hb (List.cons.inj h).1

theorem takeSign_of_ne {s : List Char} (h : ∀ c ∈ s.head?, c ≠ '-' ∧ c ≠ '+') : takeSign s = (false, s) := by
  unfold takeSign
  split
  · exact absurd rfl (h '-' rfl).1
  · exact absurd rfl (h '+' rfl).2
  · rfl

theorem ne_sign_of_isDigit {c : Char} (h : c.isDigit = true) : c ≠ '-' ∧ c ≠ '+' := by
  constructor
  · rintro rfl
    exact absurd h (by decide)
  · rintro rfl
    exact absurd h (by decide)

theorem takeSign_digits {ds : List Char} (hd : ∀ c ∈ ds, c.isDigit = true) : takeSign ds = (false, ds) :=
  takeSign_of_ne fun c hc => ne_sign_of_isDigit (hd c (List.mem_of_mem_head? hc))

theorem readInt_digits {ds : List Char} (hne : ds ≠ []) (hd : ∀ c ∈ ds, isDigit c = true) :
    readInt ds = if digitLimit < ds.length then .error (.tooManyDigits ds.length)
      else .ok (natOfDigits (ds.map plainDigit) : Int) := by
  have hp := forall_map_plainDigit hd
  have hg : ∀ c ∈ ds.map plainDigit, inGroup c = true := fun c hc => by simp [inGroup, hp c hc]
  have hm : ds.dropWhile isMargin = ds :=
    dropWhile_eq_self fun c hc => isMargin_of_isDigit (hd c (List.mem_of_mem_head? hc))
  unfold readInt
  simp only [hm, takeSign_digits hp, takeWhile_eq_self hg, dropWhile_eq_nil hg,
    ungroup_digits (by simpa using hne) hp, List.length_map, List.all_nil, ite_true, applySign]
  rfl

theorem map_plainDigit_point (u v : List Char) :
    (u ++ '.' :: v).map plainDigit = u.map plainDigit ++ '.' :: v.map plainDigit := by
  rw [List.map_append, List.map_cons]
  rfl

theorem head?_point {P : Char → Prop} {u : List Char} (hu : ∀ c ∈ u, P c) (hpoint : P '.') (v : List Char) :
    ∀ c ∈ (u ++ '.' :: v).head?, P c := by
  cases u with
  | nil =>
    rintro c ⟨⟩
    exact hpoint
  | cons b u =>
    rintro c ⟨⟩
    exact hu b (by simp)

/-- Digits before a point are no integer. -/
theorem readInt_point {u : List Char} (hu : ∀ c ∈ u, isDigit c = true) (v : List Char) :
    ∃ e, readInt (u ++ '.' :: v) = .error e := by
  have hp := forall_map_plainDigit hu
  have hg : ∀ c ∈ u.map plainDigit, inGroup c = true := fun c hc => by simp [inGroup, hp c hc]
  have hstop : ∀ c ∈ ('.' :: v.map plainDigit).head?, inGroup c = false := by
    rintro c ⟨⟩
    decide
  have hm : (u ++ '.' :: v).dropWhile isMargin = u ++ '.' :: v :=
    dropWhile_eq_self (head?_point (fun c hc => isMargin_of_isDigit (hu c hc)) (by decide) v)
  have hs : takeSign (u.map plainDigit ++ '.' :: v.map plainDigit) =
      (false, u.map plainDigit ++ '.' :: v.map plainDigit) :=
    takeSign_of_ne (head?_point (fun c hc => ne_sign_of_isDigit (hp c hc)) (by decide) _)
  unfold readInt
  simp only [hm, map_plainDigit_point, hs, takeWhile_append_stop hg hstop, dropWhile_append_stop hg hstop]
  split
  · exact ⟨_, rfl⟩
  · split
    · exact ⟨_, rfl⟩
    · exact ⟨_, rfl⟩

/-! ## Leading zeros -/

theorem ofDigitChars_dropWhile (ds : List Char) :
    Nat.ofDigitChars 10 (ds.dropWhile (· == '0')) 0 = Nat.ofDigitChars 10 ds 0 := by
  induction ds with
  | nil => rfl
  | cons c ds ih =>
    by_cases hc : c = '0'
    · subst hc
      simpa [Nat.ofDigitChars_cons] using ih
    · simp [hc]

theorem length_dropWhile_le {ds : List Char} (hd : ∀ c ∈ ds, c.isDigit = true) {m : Nat}
    (h : Nat.ofDigitChars 10 ds 0 ≤ m) : (ds.dropWhile (· == '0')).length ≤ (digits m).length := by
  rw [← ofDigitChars_dropWhile] at h
  cases hz : ds.dropWhile (· == '0') with
  | nil => simp
  | cons c es =>
    have hmem : c ∈ ds.dropWhile (· == '0') := by rw [hz]; simp
    have hc : c.isDigit = true := hd c ((List.dropWhile_sublist _).subset hmem)
    have hne : c ≠ '0' := by
      have := List.head?_dropWhile_not (· == '0') ds
      simpa [hz] using this
    have hpos : c ≠ '0' → 1 ≤ c.toNat - '0'.toNat :=
      of_decide_eq_true (of_plainDigits (fun c => c ≠ '0' → 1 ≤ c.toNat - '0'.toNat) (by decide) hc)
    have hpos := hpos hne
    rw [hz, Nat.ofDigitChars_cons, Nat.ofDigitChars_eq_ofDigitChars_zero] at h
    have hpow : 10 ^ es.length ≤ m := by
      calc 10 ^ es.length ≤ 10 ^ es.length * (10 * 0 + (c.toNat - '0'.toNat)) :=
            Nat.le_mul_of_pos_right _ (by omega)
        _ ≤ m := by omega
    by_contra hlt
    have hlt : (digits m).length ≤ es.length := by simpa using hlt
    rcases Nat.eq_zero_or_pos es.length with hes | hes
    · have : 0 < (digits m).length := Nat.length_toDigits_pos
      omega
    · have := (Nat.length_toDigits_le_iff (by decide) hes).mp hlt
      omega

/-! ## Lower case -/

theorem lowerAfter_eq_map (before : List Char) {s : List Char} (h : ∀ c ∈ s, c ≠ 'Σ' ∧ c ≠ 'İ') :
    lowerAfter before s = s.map lowerChar := by
  induction s generalizing before with
  | nil => rfl
  | cons c s ih =>
    obtain ⟨h₁, h₂⟩ := h c (by simp)
    simp [lowerAfter, h₁, h₂, ih (c :: before) fun x hx => h x (by simp [hx])]

theorem lower_eq_map {s : List Char} (h : ∀ c ∈ s, c ≠ 'Σ' ∧ c ≠ 'İ') : lower s = s.map lowerChar :=
  lowerAfter_eq_map [] h

/-! ## Blanks -/

def blankCodes : List Nat :=
  [9, 10, 11, 12, 13, 28, 29, 30, 31, 32, 0x85, 0xa0, 0x1680, 0x2000, 0x2001, 0x2002, 0x2003, 0x2004,
   0x2005, 0x2006, 0x2007, 0x2008, 0x2009, 0x200a, 0x2028, 0x2029, 0x202f, 0x205f, 0x3000]

theorem mem_blankCodes {c : Char} (h : isBlank c = true) : c.toNat ∈ blankCodes := by
  have hrun : ∀ first last n, (∀ i ≤ last - first, first + i ∈ blankCodes) → first ≤ n ∧ n ≤ last → n ∈ blankCodes := by
    intro first last n hall hn
    have hmem := hall (n - first) (Nat.sub_le_sub_right hn.2 first)
    rwa [Nat.add_sub_cancel' hn.1] at hmem
  simp only [isBlank, Bool.or_eq_true, Bool.and_eq_true, decide_eq_true_eq, beq_iff_eq] at h
  generalize c.toNat = n at h
  rcases h with (((((((((h | h) | rfl) | rfl) | rfl) | h) | rfl) | rfl) | rfl) | rfl) | rfl
  · exact hrun 0x09 0x0d n (by decide) h
  · exact hrun 0x1c 0x20 n (by decide) h
  · decide
  · decide
  · decide
  · exact hrun 0x2000 0x200a n (by decide) h
  all_goals decide

theorem lowerChar_blank {c : Char} (h : isBlank c = true) : lowerChar c = c := by
  have hall : ∀ n ∈ blankCodes, lowerChar (Char.ofNat n) = Char.ofNat n := by decide +kernel
  have := hall c.toNat (mem_blankCodes h)
  rwa [Char.ofNat_toNat] at this

/-- The first text is the second with blanks put between its characters. -/
inductive Spaced : List Char → List Char → Prop
  | nil : Spaced [] []
  | blank {c s t} : isBlank c = true → Spaced s t → Spaced (c :: s) t
  | keep {c s t} : Spaced s t → Spaced (c :: s) (c :: t)

theorem Spaced.refl (s : List Char) : Spaced s s := by
  induction s with
  | nil => exact .nil
  | cons c s ih => exact .keep ih

theorem spaced_squeeze (s : List Char) : Spaced s (squeeze s) := by
  induction s with
  | nil => exact .nil
  | cons c s ih =>
    unfold squeeze at *
    cases hc : isBlank c with
    | true => simpa [hc] using Spaced.blank hc ih
    | false => simpa [hc] using Spaced.keep ih

theorem spaced_of_squeeze {s t : List Char} (h : squeeze s = t) : Spaced s t := h ▸ spaced_squeeze s

theorem Spaced.mem {s t : List Char} (h : Spaced s t) : ∀ c ∈ s, isBlank c = true ∨ c ∈ t := by
  induction h with
  | nil => simp
  | blank hb _ ih => simp only [List.mem_cons, forall_eq_or_imp]; exact ⟨.inl hb, ih⟩
  | keep _ ih =>
    simp only [List.mem_cons, forall_eq_or_imp, true_or, or_true, true_and]
    exact fun c hc => (ih c hc).imp id .inr

theorem Spaced.squeeze_map {s t : List Char} (h : Spaced s t) (f : Char → Char)
    (hb : ∀ c, isBlank c = true → isBlank (f c) = true) (ht : ∀ c ∈ t, isBlank (f c) = false) :
    squeeze (s.map f) = t.map f := by
  induction h with
  | nil => rfl
  | blank hc _ ih => simpa [squeeze, hb _ hc] using ih ht
  | @keep c s t _ ih =>
    have hc : isBlank (f c) = false := ht c (by simp)
    simpa [squeeze, hc] using ih fun x hx => ht x (by simp [hx])

theorem Spaced.squeeze_lower {s t : List Char} (h : Spaced s t)
    (ht : ∀ c ∈ t, c ≠ 'Σ' ∧ c ≠ 'İ' ∧ isBlank (lowerChar c) = false) :
    squeeze (lower s) = t.map lowerChar := by
  have hs : ∀ c ∈ s, c ≠ 'Σ' ∧ c ≠ 'İ' := by
    intro c hc
    rcases h.mem c hc with hb | hc
    · exact ⟨by rintro rfl; exact absurd hb (by decide), by rintro rfl; exact absurd hb (by decide)⟩
    · exact ⟨(ht c hc).1, (ht c hc).2.1⟩
  rw [lower_eq_map hs]
  exact h.squeeze_map lowerChar (fun c hc => by rw [lowerChar_blank hc, hc]) fun c hc => (ht c hc).2.2

theorem trim_eq_self {s : List Char} (h : ∀ c ∈ s, isBlank c = false) : trim s = s := by
  have hd : s.dropWhile isBlank = s := dropWhile_eq_self fun c hc => h c (List.mem_of_mem_head? hc)
  have hr : s.reverse.dropWhile isBlank = s.reverse :=
    dropWhile_eq_self fun c hc => h c (List.mem_reverse.mp (List.mem_of_mem_head? hc))
  rw [trim, hd, dropTrailing, hr, List.reverse_reverse]

end Surd.Text
