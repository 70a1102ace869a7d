import Stencil.Proofs.Expr.Soundness

/-!
# Reading accepts exactly the grammar

What the rules do not read they refuse with an error of the grammar. With the end token set apart,
the expressions that a text can be read as are those that its lexemes derive, of which there is at
most one.
-/

namespace Stencil.Expr

open Grammar

/-! ## What is not read is refused as an error of the grammar -/

/-- A failure of the computation is an error of the grammar. -/
def Refuses {α : Type} (x : Except Cause α) : Prop :=
  ∀ cause, x = .error cause → ∃ position, cause.kind = .grammar position

section

variable {α β : Type}

theorem refuses_ok (a : α) : Refuses (.ok a) :=
  fun _ h => nomatch h

theorem refuses_stopAt (complaint : Complaint) (ts : List Token) :
    Refuses (stopAt complaint ts : Except Cause α) := by
  intro cause h
  cases ts with
  | nil =>
    obtain rfl := Except.error.inj h
    exact ⟨0, rfl⟩
  | cons t ts =>
    obtain rfl := Except.error.inj h
    exact ⟨t.position, rfl⟩

theorem refuses_demand (c : Char) (ts : List Token) : Refuses (demand c ts) := by
  unfold demand
  split
  · exact refuses_ok _
  · exact refuses_stopAt _ _

/-- If neither step fails in another way, both together do not. -/
theorem Refuses.bind {x : Except Cause α} {f : α → Except Cause β} (hx : Refuses x)
    (hf : ∀ a, Refuses (f a)) : Refuses (x >>= f) := by
  cases x with
  | error cause =>
    intro cause' h
    exact hx cause' (congrArg Except.error (Except.error.inj h))
  | ok a => exact hf a

/-- A sign that does not fit its constant is an error of the grammar. -/
theorem refuses_foldUnary (op : Operator) (v : Value) : Refuses (foldUnary op v) := by
  unfold foldUnary
  split
  case h_6 => exact fun cause h => ⟨-1, Except.error.inj h ▸ rfl⟩
  all_goals exact refuses_ok _

theorem refuses_ofUnary (op : Operator) (operand : Expr) : Refuses (ofUnary op operand) := by
  unfold ofUnary
  split
  · rename_i v
    intro cause h
    cases hv : foldUnary op v with
    | ok w => simp [hv, Except.map] at h
    | error cause' =>
      refine refuses_foldUnary op v cause ?_
      simpa [hv, Except.map] using h
  · exact refuses_ok _

end

/-- With this fuel the failures of all rules are errors of the grammar. -/
structure RefusesAt (fuel : Nat) : Prop where
  sequence (ts : List Token) : Refuses (Grammar.sequence fuel ts)
  listed (ts : List Token) : Refuses (Grammar.listed fuel ts)
  conditional (ts : List Token) : Refuses (Grammar.conditional fuel ts)
  binary (level : Nat) (ts : List Token) : Refuses (Grammar.binary fuel level ts)
  joined (level : Nat) (left : Expr) (ts : List Token) : Refuses (Grammar.joined fuel level left ts)
  unary (ts : List Token) : Refuses (Grammar.unary fuel ts)
  extended (base : Expr) (ts : List Token) : Refuses (Grammar.extended fuel base ts)
  arguments (closing : Char) (ts : List Token) : Refuses (Grammar.arguments fuel closing ts)
  primary (ts : List Token) : Refuses (Grammar.primary fuel ts)
  members (ts : List Token) : Refuses (Grammar.members fuel ts)

theorem refusesAt_zero : RefusesAt 0 where
  sequence := refuses_stopAt _
  listed := refuses_stopAt _
  conditional := refuses_stopAt _
  binary _ := refuses_stopAt _
  joined _ _ := refuses_stopAt _
  unary := refuses_stopAt _
  extended _ := refuses_stopAt _
  arguments _ := refuses_stopAt _
  primary := refuses_stopAt _
  members := refuses_stopAt _

/-- The separator of a list leads on to its rest. -/
theorem refuses_separated {α : Type} {f : List Token → Except Cause α} (hf : ∀ ts, Refuses (f ts))
    (c : Char) (ts : List Token) :
    Refuses (if (skip? c ts).isSome then Except.ok ts >>= f else demand ',' ts >>= f) := by
  split
  · exact hf ts
  · exact (refuses_demand ',' ts).bind hf

/-- One more unit of fuel adds no other failures. -/
theorem RefusesAt.succ {fuel : Nat} (ih : RefusesAt fuel) : RefusesAt (fuel + 1) where
  sequence ts := by
    unfold Grammar.sequence
    refine (ih.conditional ts).bind ?_
    rintro ⟨first, ts⟩
    dsimp only
    split
    · exact refuses_ok _
    · exact (ih.listed ts).bind fun _ => refuses_ok _
  listed ts := by
    unfold Grammar.listed
    split
    · exact refuses_ok _
    · exact (ih.conditional _).bind fun _ => (ih.listed _).bind fun _ => refuses_ok _
  conditional ts := by
    unfold Grammar.conditional
    refine (ih.binary 0 ts).bind ?_
    rintro ⟨test, ts⟩
    dsimp only
    split
    · exact refuses_ok _
    · exact (ih.conditional _).bind fun _ => (refuses_demand _ _).bind fun _ =>
        (ih.conditional _).bind fun _ => refuses_ok _
  binary level ts := by
    unfold Grammar.binary
    split
    · exact ih.unary ts
    · exact (ih.binary _ ts).bind fun _ => ih.joined _ _ _
  joined level left ts := by
    unfold Grammar.joined
    split
    · exact refuses_ok _
    · exact (ih.binary _ _).bind fun _ => ih.joined _ _ _
  unary ts := by
    unfold Grammar.unary
    split
    · exact (ih.unary _).bind fun _ => (refuses_ofUnary _ _).bind fun _ => refuses_ok _
    · exact (ih.primary _).bind fun _ => ih.extended _ _
  extended base ts := by
    unfold Grammar.extended
    split
    · split
      · split
        · exact ih.extended _ _
        · exact refuses_stopAt _ _
      · exact refuses_stopAt _ _
    · refine (ih.sequence _).bind fun _ => (refuses_demand _ _).bind fun _ => ?_
      split
      · exact ih.extended _ _
      · exact refuses_stopAt _ _
    · split
      · exact (ih.arguments _ _).bind fun _ => ih.extended _ _
      · exact refuses_stopAt _ _
    · exact refuses_ok _
  arguments closing ts := by
    unfold Grammar.arguments
    split
    · exact refuses_ok _
    · exact (ih.conditional ts).bind fun _ => refuses_separated
        (fun _ => (ih.arguments _ _).bind fun _ => refuses_ok _) _ _
  primary ts := by
    unfold Grammar.primary
    split
    case h_7 => exact (ih.sequence _).bind fun _ => (refuses_demand _ _).bind fun _ => refuses_ok _
    case h_8 => exact (ih.arguments _ _).bind fun _ => refuses_ok _
    case h_9 => exact (ih.members _).bind fun _ => refuses_ok _
    case h_10 => exact refuses_stopAt _ _
    all_goals exact refuses_ok _
  members ts := by
    unfold Grammar.members
    split
    · exact refuses_ok _
    · split
      · exact refuses_stopAt _ _
      · split
        · exact refuses_stopAt _ _
        · exact (refuses_demand _ _).bind fun _ => (ih.conditional _).bind fun _ =>
            refuses_separated (fun _ => (ih.members _).bind fun _ => refuses_ok _) _ _

/-- Whatever the fuel, the rules fail by errors of the grammar alone. -/
theorem refusesAt (fuel : Nat) : RefusesAt fuel := by
  induction fuel with
  | zero => exact refusesAt_zero
  | succ fuel ih => exact ih.succ

end Stencil.Expr

namespace Stencil.Token

/-! ## The end of a token list -/

theorem exists_of_floatLexeme (whole fraction rest : List Char) :
    ∃ x, (floatLexeme whole fraction rest).1 = .float x := by
  unfold floatLexeme
  split <;> exact ⟨_, rfl⟩

/-- A number is read as an integer or as a floating-point number. -/
theorem exists_of_number {cs rest : List Char} {l : Lexeme} (h : number cs = .ok (l, rest)) :
    (∃ n, l = .int n) ∨ ∃ x, l = .float x := by
  have hfloat {whole fraction more : List Char}
      (hl : Except.ok (floatLexeme whole fraction more) = (.ok (l, rest) : Except Cause _)) :
      ∃ x, l = .float x := by
    obtain ⟨x, hx⟩ := exists_of_floatLexeme whole fraction more
    exact ⟨x, (congrArg Prod.fst (Except.ok.inj hl)).symm.trans hx⟩
  simp only [number] at h
  split at h
  · split at h
    · cases h
    · exact .inr (hfloat h)
  · split at h
    · cases h
    · split at h
      · exact .inr (hfloat h)
      · split at h
        · cases h
        · exact .inl ⟨_, (Prod.mk.inj (Except.ok.inj h)).1.symm⟩

/-- The end token is no lexeme of a text. -/
theorem next_ne_stop {position : Nat} {c : Char} {cs rest : List Char} {l : Lexeme}
    (h : next position c cs = .ok (l, rest)) : l ≠ .stop := by
  unfold next at h
  split at h
  · obtain ⟨n, rfl⟩ | ⟨x, rfl⟩ := exists_of_number h <;> exact nofun
  · rintro rfl
    grind

/-- A token list ends with the end token, which stands nowhere else. -/
theorem readFrom_eq_ok {position : Nat} {cs : List Char} {ts : List Token}
    (h : readFrom position cs = .ok ts) :
    ∃ pre last, ts = pre ++ [⟨.stop, last⟩] ∧ ∀ t ∈ pre, t.lexeme ≠ .stop := by
  fun_induction readFrom position cs generalizing ts with
  | case1 position cs hcs =>
    obtain rfl := Except.ok.inj h
    exact ⟨[], _, rfl, by simp⟩
  | case2 => cases h
  | case3 => cases h
  | case4 position cs c rest hcs start lexeme after hnext tokens htokens =>
    rename_i ih
    obtain rfl := Except.ok.inj h
    obtain ⟨pre, last, rfl, hpre⟩ := ih htokens
    refine ⟨_ :: pre, last, rfl, ?_⟩
    intro t ht
    obtain rfl | ht := List.mem_cons.1 ht
    · exact next_ne_stop hnext
    · exact hpre t ht

end Stencil.Token

namespace Stencil.Expr

open Grammar

variable {pre : List Token} {last : Nat} {e : Expr}

/-- What the grammar derives is read. -/
theorem ofTokens_of_derives (h : Derives (.sequence e) (pre.map Token.lexeme)) :
    ofTokens (pre ++ [⟨.stop, last⟩]) = .ok e := by
  have hread : Grammar.sequence (fuelFor (pre ++ [⟨.stop, last⟩])) (pre ++ [⟨.stop, last⟩]) =
      .ok (e, [⟨.stop, last⟩]) := by
    have hrest : Follows 1 [⟨.stop, last⟩] := follows_cons.2 Nat.zero_lt_one
    refine h.reads trivial rfl hrest ?_
    simp only [fuelFor, Phrase.rank, List.length_append, List.length_map, List.length_singleton]
    omega
  simp only [ofTokens, hread]

/-- Of a list without an end token, what stands before an end token is all. -/
theorem eq_of_append_stop {pre' more : List Token} {p : Nat} (hpre : ∀ t ∈ pre, t.lexeme ≠ .stop)
    (h : pre ++ [⟨.stop, last⟩] = pre' ++ ⟨.stop, p⟩ :: more) : pre = pre' ∧ more = [] := by
  obtain rfl | ⟨more, t, rfl⟩ := more.eq_nil_or_concat
  · exact ⟨(List.append_inj' h rfl).1, rfl⟩
  · have hsplit : pre ++ [⟨.stop, last⟩] = (pre' ++ ⟨.stop, p⟩ :: more) ++ [t] := by simp [h]
    have hmem := (List.append_inj' hsplit rfl).1
    exact absurd rfl (hpre ⟨.stop, p⟩ (by simp [hmem]))

/-- What is read is derived by the grammar. -/
theorem derives_of_ofTokens (hpre : ∀ t ∈ pre, t.lexeme ≠ .stop)
    (h : ofTokens (pre ++ [⟨.stop, last⟩]) = .ok e) :
    Derives (.sequence e) (pre.map Token.lexeme) := by
  unfold ofTokens at h
  split at h
  · cases h
  · rename_i e' p more hread
    obtain rfl := Except.ok.inj h
    obtain ⟨pre', hsplit, hpre'⟩ := soundAt _ (.sequence e') trivial hread
    obtain ⟨rfl, -⟩ := eq_of_append_stop hpre hsplit
    exact hpre'
  · exact (stopAt_ne_ok h).elim

/-- The lexemes of an expression that is read derive it. -/
theorem exists_derives_of_read {source : String} {e : Expr} (h : Expr.read source = .ok e) :
    ∃ pre last, Token.read source = .ok (pre ++ [⟨.stop, last⟩]) ∧
      Derives (.sequence e) (pre.map Token.lexeme) := by
  unfold Expr.read at h
  split at h
  · cases h
  · rename_i ts htokens
    obtain ⟨pre, last, rfl, hpre⟩ := Token.readFrom_eq_ok htokens
    exact ⟨pre, last, htokens, derives_of_ofTokens hpre h⟩

/-- A list of tokens is read, or refused by an error of the grammar. -/
theorem refuses_ofTokens (ts : List Token) : Refuses (ofTokens ts) := by
  unfold ofTokens
  split
  · rename_i cause hread
    intro cause' h
    exact (refusesAt _).sequence ts cause' (hread.trans (congrArg _ (Except.error.inj h)))
  · exact refuses_ok _
  · exact refuses_stopAt _ _

/-- An expression is read from a text exactly if the text's lexemes derive it as a sequence. No
other expression is derived from them, and where none is, reading fails with an error of the
grammar. -/
theorem read_eq_ok_iff_derives {source : String} {tokens : List Token}
    (h : Token.read source = .ok tokens) :
    ∃ ls, tokens.map Token.lexeme = ls ++ [.stop] ∧
      (∀ e, Expr.read source = .ok e ↔ Derives (.sequence e) ls) ∧
      (∀ e e', Derives (.sequence e) ls → Derives (.sequence e') ls → e = e') ∧
      ((∀ e, ¬ Derives (.sequence e) ls) →
        ∃ cause position, Expr.read source = .error cause ∧ cause.kind = .grammar position) := by
  obtain ⟨pre, last, rfl, hpre⟩ := Token.readFrom_eq_ok h
  have hread : Expr.read source = ofTokens (pre ++ [⟨.stop, last⟩]) := by
    simp only [Expr.read, h]
  have haccept (e : Expr) :
      Expr.read source = .ok e ↔ Derives (.sequence e) (pre.map Token.lexeme) := by
    rw [hread]
    exact ⟨derives_of_ofTokens hpre, ofTokens_of_derives⟩
  refine ⟨pre.map Token.lexeme, by simp, haccept, ?_, ?_⟩
  · intro e e' he he'
    have hsame : Except.ok e = Except.ok e' := ((haccept e).2 he).symm.trans ((haccept e').2 he')
    exact Except.ok.inj hsame
  · intro hnone
    cases hresult : Expr.read source with
    | ok e => exact absurd ((haccept e).1 hresult) (hnone e)
    | error cause =>
      obtain ⟨position, hkind⟩ := refuses_ofTokens _ cause (hread ▸ hresult)
      exact ⟨cause, position, rfl, hkind⟩

/-- A condition with a sign, read as a choice between paths. -/
theorem read_signed_choice :
    ∃ tokens, Token.read "-a?1:b" = .ok tokens ∧ ∃ ls, tokens.map Token.lexeme = ls ++ [.stop] ∧
      (∀ e, Expr.read "-a?1:b" = .ok e ↔ Derives (.sequence e) ls) ∧
      (∀ e e', Derives (.sequence e) ls → Derives (.sequence e') ls → e = e') ∧
      ((∀ e, ¬ Derives (.sequence e) ls) →
        ∃ cause position, Expr.read "-a?1:b" = .error cause ∧ cause.kind = .grammar position) := by
  have hread : (Token.read "-a?1:b").isOk = true := by decide +kernel
  cases htokens : Token.read "-a?1:b" with
  | error cause =>
    rw [htokens] at hread
    cases hread
  | ok tokens => exact ⟨tokens, rfl, read_eq_ok_iff_derives htokens⟩

end Stencil.Expr