import Stencil.Proofs.Expr.Rules

/-!
# Derivable phrases are read

A derivable phrase is read whole by the rule of its nonterminal, whatever follows it that does not
hold on to it. The induction is on the derivation; the fuel that it asks for is sixteen for each
lexeme and a few units more for the rules that lead to the next one.
-/

namespace Stencil.Expr

open Grammar

/-- The rule of a phrase takes it from the front of `ts` and leaves `rest`. -/
def Phrase.Reads (fuel : Nat) (ts rest : List Token) : Phrase → Prop
  | .sequence e => Grammar.sequence fuel ts = .ok (e, rest)
  | .listed es => Grammar.listed fuel ts = .ok (es, rest)
  | .conditional e => Grammar.conditional fuel ts = .ok (e, rest)
  | .binary level e => Grammar.binary fuel level ts = .ok (e, rest)
  | .joined level left e => Grammar.joined fuel level left ts = .ok (e, rest)
  | .unary e => Grammar.unary fuel ts = .ok (e, rest)
  | .extended base e => Grammar.extended fuel base ts = .ok (e, rest)
  | .primary e => Grammar.primary fuel ts = .ok (e, rest)
  | .arguments closing es => Grammar.arguments fuel closing ts = .ok (es, rest)
  | .members ms => Grammar.members fuel ts = .ok (ms, rest)

/-- How many rules the descent from a phrase can pass before it takes a lexeme. -/
def Phrase.rank : Phrase → Nat
  | .sequence _ => 11
  | .conditional _ => 10
  | .binary level _ => 9 - level
  | .unary _ => 2
  | _ => 1

/-- The phrases that a derivation of a sequence is made of: levels stop at the unary one, and
lists close with a parenthesis or a bracket. -/
def Phrase.Regular : Phrase → Prop
  | .binary level _ => level ≤ 6
  | .joined level _ _ => level < 6
  | .arguments closing _ => closing = ')' ∨ closing = ']'
  | _ => True

/-- No operand begins with a mark that closes. -/
theorem skip?_of_map_eq {c : Char} {φ : Phrase} {ls : List Lexeme} {ts : List Token}
    (h : Derives φ ls) (hφ : φ.isOperand = true) (hc : opens (.punctuation c) = false)
    (hts : ts.map Token.lexeme = ls) (rest : List Token) : skip? c (ts ++ rest) = none := by
  obtain ⟨l, more, rfl, hl⟩ := h.exists_cons hφ
  obtain ⟨t, ts, rfl, rfl, -⟩ := List.map_eq_cons_iff.1 hts
  exact skip?_of_opens (ts ++ rest) hc hl

/-- The rest of a row holds on to what it goes on from. -/
theorem Derives.follows {φ : Phrase} {ls : List Lexeme} {ts rest : List Token} (h : Derives φ ls)
    (hφ : φ.isOperand = false) (hts : ts.map Token.lexeme = ls) (hrest : Follows φ.reach rest) :
    Follows (φ.reach + 1) (ts ++ rest) := by
  cases h with
  | listedNil | joinedNil | extendedNil =>
    obtain rfl := List.map_eq_nil_iff.1 hts
    exact hrest.mono (Nat.le_succ _)
  | listedCons _ _ | member _ _ | brackets _ _ _ | call _ _ =>
    obtain ⟨⟨_, p⟩, ts, rfl, rfl, -⟩ := List.map_eq_cons_iff.1 hts
    exact follows_punctuation (by simp [Phrase.reach, tightness])
  | joinedCons hop _ _ =>
    obtain ⟨⟨_, p⟩, ts, rfl, rfl, -⟩ := List.map_eq_cons_iff.1 hts
    exact follows_cons.2 (by simp [tightness, hop, Phrase.reach])
  | argumentsNil | argumentsOne | argumentsCons | membersNil | membersOne | membersCons =>
    exact (follows_ten _).mono (by simp [Phrase.reach])
  | _ => simp [Phrase.isOperand] at hφ

/-- Each further item stands behind a comma. -/
theorem Derives.exists_comma {e : Expr} {es : List Expr} {ls : List Lexeme}
    (h : Derives (.listed (e :: es)) ls) : ∃ more, ls = .punctuation ',' :: more := by
  cases h with
  | listedCons _ _ => exact ⟨_, rfl⟩

/-- No primary expression starts with an operator. -/
theorem unaryAt?_of_map_eq {e : Expr} {ls : List Lexeme} {ts : List Token}
    (h : Derives (.primary e) ls) (hts : ts.map Token.lexeme = ls) (rest : List Token) :
    unaryAt? (ts ++ rest) = none := by
  cases h <;> obtain ⟨⟨_, p⟩, ts, rfl, rfl, -⟩ := List.map_eq_cons_iff.1 hts <;> rfl

/-- A derivable phrase is read by its rule: it is taken whole, whatever follows it. By induction on
the derivation; every case first has its bounds spelled out and one unit of fuel taken off. -/
theorem Derives.reads {φ : Phrase} {ls : List Lexeme} (h : Derives φ ls) (hφ : φ.Regular) :
    ∀ {ts : List Token}, ts.map Token.lexeme = ls → ∀ {rest : List Token}, Follows φ.reach rest →
      ∀ {fuel : Nat}, 16 * ls.length + φ.rank ≤ fuel → φ.Reads fuel (ts ++ rest) rest := by
  induction h with
    (intro ts hts rest hrest fuel hfuel
     simp only [Phrase.rank, Phrase.reach, Phrase.Regular, Phrase.Reads, List.length_append,
       List.length_cons, List.length_nil, true_imp_iff] at *
     obtain ⟨fuel, rfl⟩ : ∃ n, fuel = n + 1 := ⟨fuel - 1, by omega⟩)
  | single he ih => exact sequence_single (ih hts (hrest.mono (by decide)) (by omega)) hrest
  | several he hes ih ihs =>
    obtain ⟨t₁, t₂, rfl, h₁, h₂⟩ := List.map_eq_append_iff.1 hts
    obtain ⟨more, rfl⟩ := hes.exists_comma
    obtain ⟨⟨_, p⟩, t₃, rfl, rfl, -⟩ := List.map_eq_cons_iff.1 h₂
    rw [List.append_assoc, List.cons_append]
    refine sequence_several (ih h₁ (follows_punctuation (by decide)) (by omega)) ?_
    exact ihs h₂ hrest (by omega)
  | listedNil =>
    obtain rfl := List.map_eq_nil_iff.1 hts
    exact listed_nil hrest
  | listedCons he hes ih ihs =>
    obtain ⟨⟨_, p⟩, t, rfl, rfl, h⟩ := List.map_eq_cons_iff.1 hts
    obtain ⟨t₁, t₂, rfl, h₁, h₂⟩ := List.map_eq_append_iff.1 h
    rw [List.cons_append, List.append_assoc]
    exact listed_cons (ih h₁ (hes.follows rfl h₂ hrest) (by omega)) (ihs h₂ hrest (by omega))
  | test he ih => exact conditional_test (ih (by decide) hts (hrest.mono (by decide)) (by omega)) hrest
  | choice ht hy hn iht ihy ihn =>
    simp only [List.map_eq_append_iff, List.map_eq_cons_iff] at hts
    obtain ⟨t₁, _, rfl, h₁, ⟨_, p⟩, _, rfl, rfl, t₂, _, rfl, h₂, ⟨_, q⟩, t₃, rfl, rfl, h₃⟩ := hts
    simp only [List.append_assoc, List.cons_append]
    exact conditional_choice (iht (by decide) h₁ (follows_punctuation (by decide)) (by omega))
      (ihy h₂ (follows_punctuation (by decide)) (by omega)) (ihn h₃ hrest (by omega))
  | operands hlevel hl hj ihl ihj =>
    obtain ⟨t₁, t₂, rfl, h₁, h₂⟩ := List.map_eq_append_iff.1 hts
    rw [List.append_assoc]
    exact binary_operands hlevel (ihl (by omega) h₁ (hj.follows rfl h₂ hrest) (by omega))
      (ihj hlevel h₂ hrest (by omega))
  | operand he ih => exact binary_operand (ih hts hrest (by omega))
  | joinedNil =>
    obtain rfl := List.map_eq_nil_iff.1 hts
    exact joined_nil hrest
  | joinedCons hop hr hj ihr ihj =>
    obtain ⟨⟨_, p⟩, t, rfl, rfl, h⟩ := List.map_eq_cons_iff.1 hts
    obtain ⟨t₁, t₂, rfl, h₁, h₂⟩ := List.map_eq_append_iff.1 h
    rw [List.cons_append, List.append_assoc]
    exact joined_cons hop (ihr (by omega) h₁ (hj.follows rfl h₂ hrest) (by omega))
      (ihj hφ h₂ hrest (by omega))
  | negation hv ih =>
    obtain ⟨⟨_, p⟩, t, rfl, rfl, h⟩ := List.map_eq_cons_iff.1 hts
    exact unary_operator rfl (ih h hrest (by omega)) rfl
  | sign hs hv ih =>
    obtain ⟨⟨_, p⟩, t, rfl, rfl, h⟩ := List.map_eq_cons_iff.1 hts
    exact unary_operator hs.isUnary (ih h hrest (by omega)) hs.ofUnary_literal
  | operation hop hne he ih =>
    obtain ⟨⟨_, p⟩, t, rfl, rfl, h⟩ := List.map_eq_cons_iff.1 hts
    exact unary_operator hop (ih h hrest (by omega)) (ofUnary_of_isLiteral_eq_false _ hne)
  | extension hb he ihb ihe =>
    obtain ⟨t₁, t₂, rfl, h₁, h₂⟩ := List.map_eq_append_iff.1 hts
    rw [List.append_assoc]
    exact unary_extension (unaryAt?_of_map_eq hb h₁ _) (ihb h₁ (follows_ten _) (by omega))
      (ihe h₂ hrest (by omega))
  | extendedNil =>
    obtain rfl := List.map_eq_nil_iff.1 hts
    exact extended_nil hrest
  | member hm he ih =>
    simp only [List.map_eq_cons_iff] at hts
    obtain ⟨⟨_, p⟩, _, rfl, rfl, ⟨_, q⟩, t, rfl, rfl, h⟩ := hts
    exact extended_member hm (ih h hrest (by omega))
  | brackets hb hi he ihi ihe =>
    simp only [List.map_eq_append_iff, List.map_eq_cons_iff] at hts
    obtain ⟨⟨_, p⟩, _, rfl, rfl, t₁, _, rfl, h₁, ⟨_, q⟩, t₂, rfl, rfl, h₂⟩ := hts
    simp only [List.append_assoc, List.cons_append]
    exact extended_brackets hb (ihi h₁ (follows_punctuation (by decide)) (by omega))
      (ihe h₂ hrest (by omega))
  | call ha he iha ihe =>
    simp only [List.map_eq_append_iff, List.map_eq_cons_iff] at hts
    obtain ⟨⟨_, p⟩, _, rfl, rfl, t₁, t₂, rfl, h₁, h₂⟩ := hts
    simp only [List.append_assoc, List.cons_append]
    exact extended_call (iha (.inl trivial) h₁ (follows_ten _) (by omega)) (ihe h₂ hrest (by omega))
  | int n | float x | text s | this | aliasPath name | attributePath name =>
    simp only [List.map_eq_cons_iff, List.map_eq_nil_iff] at hts
    obtain ⟨⟨_, p⟩, _, rfl, rfl, rfl⟩ := hts
    rfl
  | constant hv =>
    simp only [List.map_eq_cons_iff, List.map_eq_nil_iff] at hts
    obtain ⟨⟨_, p⟩, _, rfl, rfl, rfl⟩ := hts
    simp [primary, ofName, hv]
  | path hc ht =>
    simp only [List.map_eq_cons_iff, List.map_eq_nil_iff] at hts
    obtain ⟨⟨_, p⟩, _, rfl, rfl, rfl⟩ := hts
    simp [primary, ofName, hc, ht]
  | group he ih =>
    simp only [List.map_eq_append_iff, List.map_eq_cons_iff, List.map_eq_nil_iff] at hts
    obtain ⟨⟨_, p⟩, _, rfl, rfl, t₁, _, rfl, h₁, ⟨_, q⟩, _, rfl, rfl, rfl⟩ := hts
    simp only [List.append_assoc, List.cons_append]
    exact primary_group (ih h₁ (follows_punctuation (by decide)) (by omega))
  | constantArray hvs ih =>
    obtain ⟨⟨_, p⟩, t, rfl, rfl, h⟩ := List.map_eq_cons_iff.1 hts
    rw [← ofItems_eq_iff.2 (.inl ⟨_, rfl, rfl⟩)]
    exact primary_items (ih (.inr trivial) h hrest (by omega))
  | array hne hes ih =>
    obtain ⟨⟨_, p⟩, t, rfl, rfl, h⟩ := List.map_eq_cons_iff.1 hts
    rw [← ofItems_eq_iff.2 (.inr ⟨hne, rfl⟩)]
    exact primary_items (ih (.inr trivial) h hrest (by omega))
  | constantObject hfs ih =>
    obtain ⟨⟨_, p⟩, t, rfl, rfl, h⟩ := List.map_eq_cons_iff.1 hts
    rw [← ofMembers_eq_iff.2 (.inl ⟨_, rfl, rfl⟩)]
    exact primary_members (ih h hrest (by omega))
  | object hne hms ih =>
    obtain ⟨⟨_, p⟩, t, rfl, rfl, h⟩ := List.map_eq_cons_iff.1 hts
    rw [← ofMembers_eq_iff.2 (.inr ⟨hne, rfl⟩)]
    exact primary_members (ih h hrest (by omega))
  | argumentsNil =>
    simp only [List.map_eq_cons_iff, List.map_eq_nil_iff] at hts
    obtain ⟨⟨_, p⟩, _, rfl, rfl, rfl⟩ := hts
    exact arguments_nil
  | argumentsOne he ih =>
    simp only [List.map_eq_append_iff, List.map_eq_cons_iff, List.map_eq_nil_iff] at hts
    obtain ⟨t₁, _, rfl, h₁, ⟨_, p⟩, _, rfl, rfl, rfl⟩ := hts
    obtain ⟨fuel, rfl⟩ : ∃ n, fuel = n + 1 := ⟨fuel - 1, by omega⟩
    simp only [List.append_assoc, List.cons_append]
    obtain rfl | rfl := hφ
    all_goals
      exact arguments_one (skip?_of_map_eq he rfl rfl h₁ _)
        (ih h₁ (follows_punctuation (by decide)) (by omega)) arguments_nil
  | argumentsCons he hes ih ihs =>
    simp only [List.map_eq_append_iff, List.map_eq_cons_iff] at hts
    obtain ⟨t₁, _, rfl, h₁, ⟨_, p⟩, t₂, rfl, rfl, h₂⟩ := hts
    simp only [List.append_assoc, List.cons_append]
    have hmore := @ihs hφ _ h₂ _ hrest fuel (by omega)
    obtain rfl | rfl := hφ
    all_goals
      exact arguments_cons (by decide) (skip?_of_map_eq he rfl rfl h₁ _)
        (ih h₁ (follows_punctuation (by decide)) (by omega)) hmore
  | membersNil =>
    simp only [List.map_eq_cons_iff, List.map_eq_nil_iff] at hts
    obtain ⟨⟨_, p⟩, _, rfl, rfl, rfl⟩ := hts
    exact members_nil
  | membersOne hk he ih =>
    simp only [List.map_eq_append_iff, List.map_eq_cons_iff, List.map_eq_nil_iff] at hts
    obtain ⟨⟨_, q⟩, _, rfl, rfl, ⟨_, r⟩, _, rfl, rfl, t₁, _, rfl, h₁, ⟨_, p⟩, _, rfl, rfl, rfl⟩ := hts
    obtain ⟨fuel, rfl⟩ : ∃ n, fuel = n + 1 := ⟨fuel - 1, by omega⟩
    simp only [List.append_assoc, List.cons_append]
    exact members_one hk (ih h₁ (follows_punctuation (by decide)) (by omega)) members_nil
  | membersCons hk he hms ih ihs =>
    simp only [List.map_eq_append_iff, List.map_eq_cons_iff] at hts
    obtain ⟨⟨_, q⟩, _, rfl, rfl, ⟨_, r⟩, _, rfl, rfl, t₁, _, rfl, h₁, ⟨_, p⟩, t₂, rfl, rfl, h₂⟩ := hts
    simp only [List.append_assoc, List.cons_append]
    exact members_cons hk (ih h₁ (follows_punctuation (by decide)) (by omega))
      (ihs h₂ hrest (by omega))

end Stencil.Expr
