import Stencil.Proofs.Expr.Completeness

/-!
# What is read is derivable

What a rule takes from the front of the tokens is a derivation of its phrase. The induction is on
the depth of the descent, with one lemma for each rule.
-/

namespace Stencil.Expr

open Grammar

/-- The tokens from `ts` up to `rest` are a derivation of the phrase. -/
def Phrase.Spans (ts rest : List Token) (φ : Phrase) : Prop :=
  ∃ pre, ts = pre ++ rest ∧ Derives φ (pre.map Token.lexeme)

/-- Without fuel no rule reads anything. -/
theorem Phrase.not_reads_zero {φ : Phrase} {ts rest : List Token} : ¬ φ.Reads 0 ts rest := by
  cases φ <;> cases ts <;> exact nofun

/-- With this fuel the rules read derivable phrases only. -/
def SoundAt (fuel : Nat) : Prop :=
  ∀ (φ : Phrase) {ts rest : List Token}, φ.Regular → φ.Reads fuel ts rest → φ.Spans ts rest

section

variable {fuel : Nat} {ts rest : List Token} {e : Expr}

theorem exists_cons_of_listed {p : Nat} {es : List Expr}
    (h : listed fuel (⟨.punctuation ',', p⟩ :: ts) = .ok (es, rest)) : ∃ e es', es = e :: es' := by
  cases fuel with
  | zero => cases h
  | succ fuel =>
    simp only [listed, skip?_self, bind_eq_ok, Prod.exists] at h
    obtain ⟨first, mid, -, more, rest', -, h⟩ := h
    exact ⟨first, more, (Prod.mk.inj (Except.ok.inj h)).1.symm⟩

theorem SoundAt.sequence (ih : SoundAt fuel)
    (h : Grammar.sequence (fuel + 1) ts = .ok (e, rest)) : Phrase.Spans ts rest (.sequence e) := by
  simp only [Grammar.sequence, bind_eq_ok, Prod.exists] at h
  obtain ⟨first, mid, hfirst, h⟩ := h
  obtain ⟨pre, rfl, hpre⟩ := ih (.conditional first) trivial hfirst
  split at h
  · obtain ⟨rfl, rfl⟩ := Prod.mk.inj (Except.ok.inj h)
    exact ⟨pre, rfl, .single hpre⟩
  · rename_i hcomma
    obtain ⟨p, rfl⟩ := exists_of_skip? hcomma
    simp only [bind_eq_ok, Prod.exists] at h
    obtain ⟨more, rest', hmore, h⟩ := h
    obtain ⟨rfl, rfl⟩ := Prod.mk.inj (Except.ok.inj h)
    obtain ⟨e', es, rfl⟩ := exists_cons_of_listed hmore
    obtain ⟨pre', hpre', hlisted⟩ := ih (.listed (e' :: es)) trivial hmore
    refine ⟨pre ++ pre', by rw [hpre', List.append_assoc], ?_⟩
    rw [List.map_append]
    exact .several hpre hlisted

theorem SoundAt.listed {es : List Expr} (ih : SoundAt fuel)
    (h : Grammar.listed (fuel + 1) ts = .ok (es, rest)) : Phrase.Spans ts rest (.listed es) := by
  unfold Grammar.listed at h
  split at h
  · obtain ⟨rfl, rfl⟩ := Prod.mk.inj (Except.ok.inj h)
    exact ⟨[], rfl, .listedNil⟩
  · rename_i hcomma
    obtain ⟨p, rfl⟩ := exists_of_skip? hcomma
    simp only [bind_eq_ok, Prod.exists] at h
    obtain ⟨first, mid, hfirst, more, rest', hmore, h⟩ := h
    obtain ⟨rfl, rfl⟩ := Prod.mk.inj (Except.ok.inj h)
    obtain ⟨pre, rfl, hpre⟩ := ih (.conditional first) trivial hfirst
    obtain ⟨pre', rfl, hpre'⟩ := ih (.listed more) trivial hmore
    refine ⟨⟨.punctuation ',', p⟩ :: (pre ++ pre'), by simp, ?_⟩
    rw [List.map_cons, List.map_append]
    exact .listedCons hpre hpre'

theorem SoundAt.conditional (ih : SoundAt fuel)
    (h : Grammar.conditional (fuel + 1) ts = .ok (e, rest)) :
    Phrase.Spans ts rest (.conditional e) := by
  simp only [Grammar.conditional, bind_eq_ok, Prod.exists] at h
  obtain ⟨test, mid, htest, h⟩ := h
  obtain ⟨pre, rfl, hpre⟩ := ih (.binary 0 test) (Nat.zero_le 6) htest
  split at h
  · obtain ⟨rfl, rfl⟩ := Prod.mk.inj (Except.ok.inj h)
    exact ⟨pre, rfl, .test hpre⟩
  · rename_i hmark
    obtain ⟨p, rfl⟩ := exists_of_skip? hmark
    simp only [bind_eq_ok, Prod.exists] at h
    obtain ⟨yes, mid₁, hyes, mid₂, hcolon, no, rest', hno, h⟩ := h
    obtain ⟨q, rfl⟩ := exists_of_demand hcolon
    obtain ⟨rfl, rfl⟩ := Prod.mk.inj (Except.ok.inj h)
    obtain ⟨pre₁, rfl, hpre₁⟩ := ih (.conditional yes) trivial hyes
    obtain ⟨pre₂, rfl, hpre₂⟩ := ih (.conditional no) trivial hno
    refine ⟨pre ++ ⟨.punctuation '?', p⟩ :: (pre₁ ++ ⟨.punctuation ':', q⟩ :: pre₂), by simp, ?_⟩
    simp only [List.map_append, List.map_cons]
    exact .choice hpre hpre₁ hpre₂

theorem SoundAt.binary {level : Nat} (ih : SoundAt fuel) (hlevel : level ≤ 6)
    (h : Grammar.binary (fuel + 1) level ts = .ok (e, rest)) :
    Phrase.Spans ts rest (.binary level e) := by
  unfold Grammar.binary at h
  split at h
  · rename_i heq
    obtain ⟨pre, rfl, hpre⟩ := ih (.unary e) trivial h
    exact ⟨pre, rfl, heq ▸ .operand hpre⟩
  · have hlt : level < 6 := by omega
    simp only [bind_eq_ok, Prod.exists] at h
    obtain ⟨left, mid, hleft, hjoined⟩ := h
    obtain ⟨pre, rfl, hpre⟩ := ih (.binary (level + 1) left) (Nat.succ_le_of_lt hlt) hleft
    obtain ⟨pre', rfl, hpre'⟩ := ih (.joined level left e) hlt hjoined
    refine ⟨pre ++ pre', by simp, ?_⟩
    rw [List.map_append]
    exact .operands hlt hpre hpre'

theorem SoundAt.joined {level : Nat} {left : Expr} (ih : SoundAt fuel) (hlevel : level < 6)
    (h : Grammar.joined (fuel + 1) level left ts = .ok (e, rest)) :
    Phrase.Spans ts rest (.joined level left e) := by
  unfold Grammar.joined at h
  split at h
  · obtain ⟨rfl, rfl⟩ := Prod.mk.inj (Except.ok.inj h)
    exact ⟨[], rfl, .joinedNil⟩
  · rename_i op mid hat
    obtain ⟨p, rfl, hop⟩ := exists_of_operatorAt? hat
    simp only [bind_eq_ok, Prod.exists] at h
    obtain ⟨right, mid, hright, hjoined⟩ := h
    obtain ⟨pre, rfl, hpre⟩ := ih (.binary (level + 1) right) (Nat.succ_le_of_lt hlevel) hright
    obtain ⟨pre', rfl, hpre'⟩ := ih (.joined level (.binary op left right) e) hlevel hjoined
    refine ⟨⟨.operator op, p⟩ :: (pre ++ pre'), by simp, ?_⟩
    rw [List.map_cons, List.map_append]
    exact .joinedCons hop hpre hpre'

/-- An operator that fits its constant is a negation or a sign. -/
theorem signed_of_foldUnary {op : Operator} {v w : Value} (hop : op.isUnary = true)
    (h : foldUnary op v = .ok w) : op = .not ∧ w = .bool !v.truthy ∨ Signed op v w := by
  cases op with
  | not => exact .inl ⟨rfl, (Except.ok.inj h).symm⟩
  | sub =>
    cases v with
    | int n => exact .inr (Except.ok.inj h ▸ .minusInt n)
    | float x => exact .inr (Except.ok.inj h ▸ .minusFloat x)
    | _ => cases h
  | add =>
    cases v with
    | int n => exact .inr (Except.ok.inj h ▸ .plusInt n)
    | float x => exact .inr (Except.ok.inj h ▸ .plusFloat x)
    | _ => cases h
  | _ => cases hop

/-- Folding a unary operator follows the grammar. -/
theorem Derives.of_ofUnary {op : Operator} {operand : Expr} {ls : List Lexeme}
    (h : Derives (.unary operand) ls) (hop : op.isUnary = true) (hfold : ofUnary op operand = .ok e) :
    Derives (.unary e) (.operator op :: ls) := by
  cases hlit : operand.isLiteral with
  | false =>
    rw [ofUnary_of_isLiteral_eq_false op hlit] at hfold
    obtain rfl := Except.ok.inj hfold
    exact .operation hop hlit h
  | true =>
    obtain ⟨v, hv⟩ := Option.isSome_iff_exists.1 hlit
    obtain rfl := literal?_eq_some_iff.1 hv
    obtain ⟨w, hw, rfl⟩ : ∃ w, foldUnary op v = .ok w ∧ e = .literal w := by
      simp only [ofUnary] at hfold
      cases hw : foldUnary op v with
      | error c => simp [hw, Except.map] at hfold
      | ok w => exact ⟨w, rfl, by simpa [hw, Except.map, eq_comm] using hfold⟩
    obtain ⟨rfl, rfl⟩ | hs := signed_of_foldUnary hop hw
    · exact .negation h
    · exact .sign hs h

theorem SoundAt.unary (ih : SoundAt fuel) (h : Grammar.unary (fuel + 1) ts = .ok (e, rest)) :
    Phrase.Spans ts rest (.unary e) := by
  unfold Grammar.unary at h
  split at h
  · rename_i op mid hat
    obtain ⟨p, rfl, hop⟩ := exists_of_unaryAt? hat
    simp only [bind_eq_ok, Prod.exists] at h
    obtain ⟨operand, mid, hoperand, e', hfold, h⟩ := h
    obtain ⟨rfl, rfl⟩ := Prod.mk.inj (Except.ok.inj h)
    obtain ⟨pre, rfl, hpre⟩ := ih (.unary operand) trivial hoperand
    exact ⟨⟨.operator op, p⟩ :: pre, rfl, hpre.of_ofUnary hop hfold⟩
  · simp only [bind_eq_ok, Prod.exists] at h
    obtain ⟨base, mid, hbase, hextended⟩ := h
    obtain ⟨pre, rfl, hpre⟩ := ih (.primary base) trivial hbase
    obtain ⟨pre', rfl, hpre'⟩ := ih (.extended base e) trivial hextended
    refine ⟨pre ++ pre', by simp, ?_⟩
    rw [List.map_append]
    exact .extension hpre hpre'

theorem stopAt_ne_ok {α : Type} {complaint : Complaint} {ts : List Token} {a : α} :
    stopAt complaint ts ≠ .ok a := by
  cases ts <;> exact nofun

/-- Each member, bracket or call takes the expression so far as its base. -/
theorem SoundAt.extended {base : Expr} (ih : SoundAt fuel)
    (h : Grammar.extended (fuel + 1) base ts = .ok (e, rest)) :
    Phrase.Spans ts rest (.extended base e) := by
  unfold Grammar.extended at h
  split at h
  · split at h
    · split at h
      · rename_i base' hm
        obtain ⟨pre, rfl, hpre⟩ := ih (.extended base' e) trivial h
        exact ⟨_ :: _ :: pre, rfl, .member hm hpre⟩
      · exact (stopAt_ne_ok h).elim
    · exact (stopAt_ne_ok h).elim
  · rename_i p mid
    simp only [bind_eq_ok, Prod.exists] at h
    obtain ⟨inside, mid₁, hinside, mid₂, hclose, h⟩ := h
    obtain ⟨q, rfl⟩ := exists_of_demand hclose
    obtain ⟨pre, rfl, hpre⟩ := ih (.sequence inside) trivial hinside
    split at h
    · rename_i hplace
      obtain ⟨pre', rfl, hpre'⟩ := ih (.extended (.brackets base inside []) e) trivial h
      refine ⟨⟨.punctuation '[', p⟩ :: (pre ++ ⟨.punctuation ']', q⟩ :: pre'), by simp, ?_⟩
      simp only [List.map_append, List.map_cons]
      exact .brackets hplace hpre hpre'
    · exact (stopAt_ne_ok h).elim
  · rename_i p mid
    split at h
    · rename_i f
      simp only [bind_eq_ok, Prod.exists] at h
      obtain ⟨args, mid₁, hargs, h⟩ := h
      obtain ⟨pre, rfl, hpre⟩ := ih (.arguments ')' args) (.inl rfl) hargs
      obtain ⟨pre', rfl, hpre'⟩ := ih (.extended (.call f args []) e) trivial h
      refine ⟨⟨.punctuation '(', p⟩ :: (pre ++ pre'), by simp, ?_⟩
      simp only [List.map_append, List.map_cons]
      exact .call hpre hpre'
    · exact (stopAt_ne_ok h).elim
  · obtain ⟨rfl, rfl⟩ := Prod.mk.inj (Except.ok.inj h)
    exact ⟨[], rfl, .extendedNil⟩

/-- Behind the closing mark there are no arguments. -/
theorem eq_nil_of_arguments {c : Char} {p : Nat} {es : List Expr}
    (h : Grammar.arguments fuel c (⟨.punctuation c, p⟩ :: ts) = .ok (es, rest)) :
    es = [] ∧ ts = rest := by
  cases fuel with
  | zero => exact (stopAt_ne_ok h).elim
  | succ fuel =>
    rw [arguments_nil] at h
    exact ⟨(Prod.mk.inj (Except.ok.inj h)).1.symm, (Prod.mk.inj (Except.ok.inj h)).2⟩

theorem SoundAt.arguments {closing : Char} {es : List Expr} (ih : SoundAt fuel)
    (hc : closing = ')' ∨ closing = ']')
    (h : Grammar.arguments (fuel + 1) closing ts = .ok (es, rest)) :
    Phrase.Spans ts rest (.arguments closing es) := by
  unfold Grammar.arguments at h
  split at h
  · rename_i hclose
    obtain ⟨p, rfl⟩ := exists_of_skip? hclose
    obtain ⟨rfl, rfl⟩ := Prod.mk.inj (Except.ok.inj h)
    exact ⟨[⟨.punctuation closing, p⟩], rfl, .argumentsNil⟩
  · simp only [bind_eq_ok, Prod.exists] at h
    obtain ⟨first, mid, hfirst, h⟩ := h
    obtain ⟨pre, rfl, hpre⟩ := ih (.conditional first) trivial hfirst
    split at h
    · rename_i hsome
      obtain ⟨mid', hclose⟩ := Option.isSome_iff_exists.1 hsome
      obtain ⟨p, rfl⟩ := exists_of_skip? hclose
      simp only [bind_eq_ok, Prod.exists] at h
      obtain ⟨_, ⟨⟩, more, rest', hmore, h⟩ := h
      obtain ⟨rfl, rfl⟩ := Prod.mk.inj (Except.ok.inj h)
      obtain ⟨rfl, rfl⟩ := eq_nil_of_arguments hmore
      refine ⟨pre ++ [⟨.punctuation closing, p⟩], by simp, ?_⟩
      rw [List.map_append]
      exact .argumentsOne hpre
    · simp only [bind_eq_ok, Prod.exists] at h
      obtain ⟨mid', hcomma, more, rest', hmore, h⟩ := h
      obtain ⟨p, rfl⟩ := exists_of_demand hcomma
      obtain ⟨rfl, rfl⟩ := Prod.mk.inj (Except.ok.inj h)
      obtain ⟨pre', rfl, hpre'⟩ := ih (.arguments closing more) hc hmore
      refine ⟨pre ++ ⟨.punctuation ',', p⟩ :: pre', by simp, ?_⟩
      rw [List.map_append]
      exact .argumentsCons hpre hpre'

theorem eq_nil_of_members {p : Nat} {ms : List (String × Expr)}
    (h : Grammar.members fuel (⟨.punctuation '}', p⟩ :: ts) = .ok (ms, rest)) :
    ms = [] ∧ ts = rest := by
  cases fuel with
  | zero => exact (stopAt_ne_ok h).elim
  | succ fuel =>
    rw [members_nil] at h
    exact ⟨(Prod.mk.inj (Except.ok.inj h)).1.symm, (Prod.mk.inj (Except.ok.inj h)).2⟩

theorem SoundAt.members {ms : List (String × Expr)} (ih : SoundAt fuel)
    (h : Grammar.members (fuel + 1) ts = .ok (ms, rest)) : Phrase.Spans ts rest (.members ms) := by
  unfold Grammar.members at h
  split at h
  · rename_i hclose
    obtain ⟨p, rfl⟩ := exists_of_skip? hclose
    obtain ⟨rfl, rfl⟩ := Prod.mk.inj (Except.ok.inj h)
    exact ⟨[⟨.punctuation '}', p⟩], rfl, .membersNil⟩
  · split at h
    · exact (stopAt_ne_ok h).elim
    · rename_i t mid _
      split at h
      · exact (stopAt_ne_ok h).elim
      · rename_i k hk
        simp only [bind_eq_ok, Prod.exists] at h
        obtain ⟨mid', hcolon, first, mid, hfirst, h⟩ := h
        obtain ⟨q, rfl⟩ := exists_of_demand hcolon
        obtain ⟨pre, rfl, hpre⟩ := ih (.conditional first) trivial hfirst
        split at h
        · rename_i hsome
          obtain ⟨mid', hclose⟩ := Option.isSome_iff_exists.1 hsome
          obtain ⟨p, rfl⟩ := exists_of_skip? hclose
          simp only [bind_eq_ok, Prod.exists] at h
          obtain ⟨_, ⟨⟩, more, rest', hmore, h⟩ := h
          obtain ⟨rfl, rfl⟩ := Prod.mk.inj (Except.ok.inj h)
          obtain ⟨rfl, rfl⟩ := eq_nil_of_members hmore
          refine ⟨t :: ⟨.punctuation ':', q⟩ :: (pre ++ [⟨.punctuation '}', p⟩]), by simp, ?_⟩
          simp only [List.map_append, List.map_cons]
          exact .membersOne hk hpre
        · simp only [bind_eq_ok, Prod.exists] at h
          obtain ⟨mid', hcomma, more, rest', hmore, h⟩ := h
          obtain ⟨p, rfl⟩ := exists_of_demand hcomma
          obtain ⟨rfl, rfl⟩ := Prod.mk.inj (Except.ok.inj h)
          obtain ⟨pre', rfl, hpre'⟩ := ih (.members more) trivial hmore
          refine ⟨t :: ⟨.punctuation ':', q⟩ :: (pre ++ ⟨.punctuation ',', p⟩ :: pre'), by simp, ?_⟩
          simp only [List.map_append, List.map_cons]
          exact .membersCons hk hpre hpre'

/-- Every name is a primary expression, whether it stands for a constant, a place or a path. -/
theorem derives_ofName (word : String) : Derives (.primary (ofName word)) [.name word] := by
  unfold ofName
  split
  · rename_i v hv
    exact .constant hv
  · rename_i hc
    split
    · rename_i ht
      exact ht ▸ .this
    · rename_i ht
      exact .path hc ht

/-- What a primary expression makes of a lexeme, a list or a group is derived. -/
theorem SoundAt.primary (ih : SoundAt fuel) (h : Grammar.primary (fuel + 1) ts = .ok (e, rest)) :
    Phrase.Spans ts rest (.primary e) := by
  unfold Grammar.primary at h
  split at h
  · obtain ⟨rfl, rfl⟩ := Prod.mk.inj (Except.ok.inj h)
    exact ⟨[_], rfl, .int _⟩
  · obtain ⟨rfl, rfl⟩ := Prod.mk.inj (Except.ok.inj h)
    exact ⟨[_], rfl, .float _⟩
  · obtain ⟨rfl, rfl⟩ := Prod.mk.inj (Except.ok.inj h)
    exact ⟨[_], rfl, .text _⟩
  · obtain ⟨rfl, rfl⟩ := Prod.mk.inj (Except.ok.inj h)
    exact ⟨[_], rfl, derives_ofName _⟩
  · obtain ⟨rfl, rfl⟩ := Prod.mk.inj (Except.ok.inj h)
    exact ⟨[_], rfl, .aliasPath _⟩
  · obtain ⟨rfl, rfl⟩ := Prod.mk.inj (Except.ok.inj h)
    exact ⟨[_], rfl, .attributePath _⟩
  · rename_i p mid
    simp only [bind_eq_ok, Prod.exists] at h
    obtain ⟨inside, mid₁, hinside, mid₂, hclose, h⟩ := h
    obtain ⟨q, rfl⟩ := exists_of_demand hclose
    obtain ⟨rfl, rfl⟩ := Prod.mk.inj (Except.ok.inj h)
    obtain ⟨pre, rfl, hpre⟩ := ih (.sequence inside) trivial hinside
    refine ⟨⟨.punctuation '(', p⟩ :: (pre ++ [⟨.punctuation ')', q⟩]), by simp, ?_⟩
    rw [List.map_cons, List.map_append]
    exact .group hpre
  · rename_i p mid
    simp only [bind_eq_ok, Prod.exists] at h
    obtain ⟨es, mid₁, hes, h⟩ := h
    obtain ⟨he, rfl⟩ := Prod.mk.inj (Except.ok.inj h)
    obtain ⟨pre, rfl, hpre⟩ := ih (.arguments ']' es) (.inr rfl) hes
    refine ⟨⟨.punctuation '[', p⟩ :: pre, rfl, ?_⟩
    obtain ⟨vs, rfl, rfl⟩ | ⟨hne, rfl⟩ := ofItems_eq_iff.1 he
    · exact .constantArray hpre
    · exact .array hne hpre
  · rename_i p mid
    simp only [bind_eq_ok, Prod.exists] at h
    obtain ⟨ms, mid₁, hms, h⟩ := h
    obtain ⟨he, rfl⟩ := Prod.mk.inj (Except.ok.inj h)
    obtain ⟨pre, rfl, hpre⟩ := ih (.members ms) trivial hms
    refine ⟨⟨.punctuation '{', p⟩ :: pre, rfl, ?_⟩
    obtain ⟨fields, rfl, rfl⟩ | ⟨hne, rfl⟩ := ofMembers_eq_iff.1 he
    · exact .constantObject hpre
    · exact .object hne hpre
  · exact (stopAt_ne_ok h).elim

end

/-- The rules read derivable phrases only. -/
theorem soundAt (fuel : Nat) : SoundAt fuel := by
  induction fuel with
  | zero => exact fun φ _ _ _ h => (Phrase.not_reads_zero h).elim
  | succ fuel ih =>
    intro φ ts rest hφ h
    cases φ with
    | sequence => exact ih.sequence h
    | listed => exact ih.listed h
    | conditional => exact ih.conditional h
    | binary => exact ih.binary hφ h
    | joined => exact ih.joined hφ h
    | unary => exact ih.unary h
    | extended => exact ih.extended h
    | primary => exact ih.primary h
    | arguments => exact ih.arguments hφ h
    | members => exact ih.members h

end Stencil.Expr
