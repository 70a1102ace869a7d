import Stencil.Proofs.Expr.Acceptance

/-!
# Runs of the grammar side by side

Two runs of a rule stay in step as long as they see the same lexemes: they give the same
expressions, and where one stops the other stops with the same complaint. What `InStep` asks of the
two token lists holds of lists with the same lexemes, wherever these stand: they are read as the
same expression, or fail with errors that differ in their place only.
-/

namespace Stencil.Expr

open Grammar

/-- A rule of the grammar, with what it goes on from. -/
inductive Goal where
  | sequence
  | listed
  | conditional
  | binary (level : Nat)
  | joined (level : Nat) (left : Expr)
  | unary
  | extended (base : Expr)
  | primary
  | arguments (closing : Char)
  | members

namespace Goal

def Result : Goal → Type
  | .listed | .arguments _ => List Expr
  | .members => List (String × Expr)
  | _ => Expr

def run (fuel : Nat) (ts : List Token) : (g : Goal) → Except Cause (g.Result × List Token)
  | .sequence => Grammar.sequence fuel ts
  | .listed => Grammar.listed fuel ts
  | .conditional => Grammar.conditional fuel ts
  | .binary level => Grammar.binary fuel level ts
  | .joined level left => Grammar.joined fuel level left ts
  | .unary => Grammar.unary fuel ts
  | .extended base => Grammar.extended fuel base ts
  | .primary => Grammar.primary fuel ts
  | .arguments closing => Grammar.arguments fuel closing ts
  | .members => Grammar.members fuel ts

end Goal

/-! ## Rules that look at one lexeme -/

/-- What can follow an expression: a point, a bracket, a parenthesis, or its end. -/
theorem extended_cases (l : Lexeme) :
    l = .punctuation '.' ∨ l = .punctuation '[' ∨ l = .punctuation '(' ∨
      ∀ fuel base p us,
        Grammar.extended (fuel + 1) base (⟨l, p⟩ :: us) = .ok (base, ⟨l, p⟩ :: us) := by
  by_cases hpoint : l = .punctuation '.'
  · exact .inl hpoint
  by_cases hbracket : l = .punctuation '['
  · exact .inr (.inl hbracket)
  by_cases hcall : l = .punctuation '('
  · exact .inr (.inr (.inl hcall))
  refine .inr (.inr (.inr fun fuel base p us => ?_))
  unfold Grammar.extended
  split <;> simp_all

/-- What a primary expression can start with; any other lexeme is refused. -/
theorem primary_cases (l : Lexeme) :
    (∃ e, l ≠ .stop ∧ ∀ fuel p us, Grammar.primary (fuel + 1) (⟨l, p⟩ :: us) = .ok (e, us)) ∨
      l = .punctuation '(' ∨ l = .punctuation '[' ∨ l = .punctuation '{' ∨
      ((opens l = false ∨ ∃ op, l = .operator op) ∧
        ∀ fuel p us,
          Grammar.primary (fuel + 1) (⟨l, p⟩ :: us) = stopAt .unexpected (⟨l, p⟩ :: us)) := by
  cases l with
  | punctuation c =>
    by_cases hgroup : c = '('
    · exact .inr (.inl (by rw [hgroup]))
    by_cases harray : c = '['
    · exact .inr (.inr (.inl (by rw [harray])))
    by_cases hobject : c = '{'
    · exact .inr (.inr (.inr (.inl (by rw [hobject]))))
    refine .inr (.inr (.inr (.inr ⟨.inl ?_, fun fuel p us => ?_⟩)))
    · unfold opens
      simp [hgroup, harray, hobject]
    · unfold Grammar.primary
      split <;> simp_all
  | operator op => exact .inr (.inr (.inr (.inr ⟨.inr ⟨op, rfl⟩, fun _ _ _ => rfl⟩)))
  | stop => exact .inr (.inr (.inr (.inr ⟨.inl rfl, fun _ _ _ => rfl⟩)))
  | int n => exact .inl ⟨_, by simp, fun _ _ _ => rfl⟩
  | float x => exact .inl ⟨_, by simp, fun _ _ _ => rfl⟩
  | text s => exact .inl ⟨_, by simp, fun _ _ _ => rfl⟩
  | name s => exact .inl ⟨_, by simp, fun _ _ _ => rfl⟩
  | aliasName s => exact .inl ⟨_, by simp, fun _ _ _ => rfl⟩
  | attributeName s => exact .inl ⟨_, by simp, fun _ _ _ => rfl⟩

/-! ## Runs in step -/

/-- Related token lists start with the same lexeme, and are still related when a lexeme other than
the end is taken off both. -/
def InStep (R : List Token → List Token → Prop) : Prop :=
  ∀ ⦃ts ts' : List Token⦄, R ts ts' → ∃ l p p' us us', ts = ⟨l, p⟩ :: us ∧ ts' = ⟨l, p'⟩ :: us' ∧
    (l ≠ .stop → R us us')

/-- Two computations give related results, or stop with the same complaint at related tokens, or
refuse the same operand. -/
inductive Agrees (R : List Token → List Token → Prop) {α β : Type} (S : α → β → Prop) :
    Except Cause α → Except Cause β → Prop
  | ok {a : α} {b : β} (h : S a b) : Agrees R S (.ok a) (.ok b)
  | stopped {complaint : Complaint} {ts ts' : List Token} (h : R ts ts') :
    Agrees R S (stopAt complaint ts) (stopAt complaint ts')
  | refused {symbol : String} {v : Value} :
    Agrees R S (.error (.cannotApply symbol v)) (.error (.cannotApply symbol v))

def Beside (R : List Token → List Token → Prop) {α : Type} (a b : α × List Token) : Prop :=
  a.1 = b.1 ∧ R a.2 b.2

section

variable {R : List Token → List Token → Prop} {α β α' β' : Type} {S : α → β → Prop}
variable {S' : α' → β' → Prop} {ts ts' : List Token}

/-- Computations that agree step by step agree as a whole. -/
theorem Agrees.bind {x : Except Cause α} {y : Except Cause β} {f : α → Except Cause α'}
    {g : β → Except Cause β'} (h : Agrees R S x y) (hfg : ∀ a b, S a b → Agrees R S' (f a) (g b)) :
    Agrees R S' (x >>= f) (y >>= g) := by
  cases h with
  | ok h => exact hfg _ _ h
  | @stopped complaint ts ts' h =>
    have hfail {γ δ : Type} (us : List Token) (k : γ → Except Cause δ) :
        (stopAt complaint us >>= k) = stopAt complaint us := by
      cases us <;> rfl
    rw [hfail, hfail]
    exact .stopped h
  | refused => exact .refused

/-- Results of computations that agree are related. -/
theorem Agrees.rel_of_ok {x : Except Cause α} {y : Except Cause β} {a : α} {b : β}
    (h : Agrees R S x y) (hx : x = .ok a) (hy : y = .ok b) : S a b := by
  cases h with
  | ok h =>
    obtain rfl := Except.ok.inj hx
    obtain rfl := Except.ok.inj hy
    exact h
  | stopped => exact (stopAt_ne_ok hx).elim
  | refused => cases hx

theorem agrees_ok_pair {a : α} (h : R ts ts') :
    Agrees R (Beside R) (.ok (a, ts)) (.ok (a, ts')) :=
  .ok ⟨rfl, h⟩

theorem agrees_ofUnary (op : Operator) (e : Expr) :
    Agrees R Eq (ofUnary op e) (ofUnary op e) := by
  have hfold (v : Value) : Agrees R Eq (foldUnary op v) (foldUnary op v) := by
    unfold foldUnary
    split
    case h_6 => exact .refused
    all_goals exact .ok rfl
  unfold ofUnary
  split
  · rename_i v
    have hmap : (foldUnary op v).map Expr.literal =
        foldUnary op v >>= fun w => .ok (.literal w) := by
      cases foldUnary op v <;> rfl
    rw [hmap]
    exact (hfold v).bind fun a b hab => hab ▸ .ok rfl
  · exact .ok rfl

namespace InStep

variable (hR : InStep R) (h : R ts ts')
include hR h

/-- Both lists have the punctuation in front, or neither has. -/
theorem skip? (c : Char) : Grammar.skip? c ts = none ∧ Grammar.skip? c ts' = none ∨
    ∃ us us', Grammar.skip? c ts = some us ∧ Grammar.skip? c ts' = some us' ∧ R us us' := by
  obtain ⟨l, p, p', us, us', rfl, rfl, hus⟩ := hR h
  cases l with
  | punctuation d =>
    by_cases hd : d = c
    · exact .inr ⟨us, us', by simp [Grammar.skip?, hd], by simp [Grammar.skip?, hd], hus nofun⟩
    · exact .inl ⟨by simp [Grammar.skip?, hd], by simp [Grammar.skip?, hd]⟩
  | _ => exact .inl ⟨rfl, rfl⟩

/-- Both lists have the same operator in front, or neither has one. -/
theorem operatorAt? (level : Nat) :
    Grammar.operatorAt? level ts = none ∧ Grammar.operatorAt? level ts' = none ∨
      ∃ op us us', Grammar.operatorAt? level ts = some (op, us) ∧
        Grammar.operatorAt? level ts' = some (op, us') ∧ R us us' := by
  obtain ⟨l, p, p', us, us', rfl, rfl, hus⟩ := hR h
  cases l with
  | operator op =>
    by_cases hop : op.level? = some level
    · exact .inr ⟨op, us, us', by simp [Grammar.operatorAt?, hop],
        by simp [Grammar.operatorAt?, hop], hus nofun⟩
    · exact .inl ⟨by simp [Grammar.operatorAt?, hop], by simp [Grammar.operatorAt?, hop]⟩
  | _ => exact .inl ⟨rfl, rfl⟩

theorem unaryAt? : Grammar.unaryAt? ts = none ∧ Grammar.unaryAt? ts' = none ∨
    ∃ op us us', Grammar.unaryAt? ts = some (op, us) ∧ Grammar.unaryAt? ts' = some (op, us') ∧
      R us us' := by
  obtain ⟨l, p, p', us, us', rfl, rfl, hus⟩ := hR h
  cases l with
  | operator op =>
    by_cases hop : op.isUnary = true
    · exact .inr ⟨op, us, us', by simp [Grammar.unaryAt?, hop], by simp [Grammar.unaryAt?, hop],
        hus nofun⟩
    · exact .inl ⟨by simp [Grammar.unaryAt?, hop], by simp [Grammar.unaryAt?, hop]⟩
  | _ => exact .inl ⟨rfl, rfl⟩

theorem demand (c : Char) : Agrees R R (Grammar.demand c ts) (Grammar.demand c ts') := by
  obtain ⟨hnone, hnone'⟩ | ⟨us, us', hsome, hsome', hus⟩ := hR.skip? h c
  · simp only [Grammar.demand, hnone, hnone']
    exact .stopped h
  · simp only [Grammar.demand, hsome, hsome']
    exact .ok hus

/-- The separator of a list leads on to its rest. -/
theorem separated (c : Char) {f g : List Token → Except Cause α}
    {S : α → α → Prop} (hfg : ∀ us us', R us us' → Agrees R S (f us) (g us')) :
    Agrees R S
      (if (Grammar.skip? c ts).isSome then Except.ok ts >>= f else Grammar.demand ',' ts >>= f)
      (if (Grammar.skip? c ts').isSome then Except.ok ts' >>= g
        else Grammar.demand ',' ts' >>= g) := by
  obtain ⟨hnone, hnone'⟩ | ⟨us, us', hsome, hsome', hus⟩ := hR.skip? h c
  · rw [hnone, hnone']
    exact (hR.demand h ',').bind hfg
  · rw [hsome, hsome']
    exact hfg ts ts' h

end InStep

/-- With this fuel the rules stay in step on related tokens. -/
def AgreesAt (R : List Token → List Token → Prop) (fuel : Nat) : Prop :=
  ∀ (g : Goal) {ts ts' : List Token}, R ts ts' →
    Agrees R (Beside R) (g.run fuel ts) (g.run fuel ts')

/-- Without fuel both rules stop. -/
theorem agreesAt_zero : AgreesAt R 0 := by
  intro g ts ts' h
  cases g <;> exact .stopped h

namespace AgreesAt

variable {fuel : Nat} (hR : InStep R) (ih : AgreesAt R fuel) (h : R ts ts')
include hR ih h

/-- A sequence stays in step if its conditionals do. -/
theorem sequence : Agrees R (Beside R) (Grammar.sequence (fuel + 1) ts)
    (Grammar.sequence (fuel + 1) ts') := by
  unfold Grammar.sequence
  refine (ih .conditional h).bind ?_
  rintro ⟨first, us⟩ ⟨_, us'⟩ ⟨rfl, hus⟩
  obtain ⟨hnone, hnone'⟩ | ⟨vs, vs', hsome, hsome', -⟩ := hR.skip? hus ','
  · simp only [hnone, hnone']
    exact agrees_ok_pair hus
  · simp only [hsome, hsome']
    refine (ih .listed hus).bind ?_
    rintro ⟨more, vs⟩ ⟨_, vs'⟩ ⟨rfl, hvs⟩
    exact agrees_ok_pair hvs

theorem listed : Agrees R (Beside R) (Grammar.listed (fuel + 1) ts)
    (Grammar.listed (fuel + 1) ts') := by
  unfold Grammar.listed
  obtain ⟨hnone, hnone'⟩ | ⟨us, us', hsome, hsome', hus⟩ := hR.skip? h ','
  · simp only [hnone, hnone']
    exact agrees_ok_pair h
  · simp only [hsome, hsome']
    refine (ih .conditional hus).bind ?_
    rintro ⟨first, vs⟩ ⟨_, vs'⟩ ⟨rfl, hvs⟩
    refine (ih .listed hvs).bind ?_
    rintro ⟨more, ws⟩ ⟨_, ws'⟩ ⟨rfl, hws⟩
    exact agrees_ok_pair hws

theorem conditional : Agrees R (Beside R) (Grammar.conditional (fuel + 1) ts)
    (Grammar.conditional (fuel + 1) ts') := by
  unfold Grammar.conditional
  refine (ih (.binary 0) h).bind ?_
  rintro ⟨test, us⟩ ⟨_, us'⟩ ⟨rfl, hus⟩
  obtain ⟨hnone, hnone'⟩ | ⟨vs, vs', hsome, hsome', hvs⟩ := hR.skip? hus '?'
  · simp only [hnone, hnone']
    exact agrees_ok_pair hus
  · simp only [hsome, hsome']
    refine (ih .conditional hvs).bind ?_
    rintro ⟨yes, ws⟩ ⟨_, ws'⟩ ⟨rfl, hws⟩
    refine (hR.demand hws ':').bind fun vs vs' hvs => ?_
    refine (ih .conditional hvs).bind ?_
    rintro ⟨no, ws⟩ ⟨_, ws'⟩ ⟨rfl, hws⟩
    exact agrees_ok_pair hws

omit hR in
theorem binary (level : Nat) : Agrees R (Beside R) (Grammar.binary (fuel + 1) level ts)
    (Grammar.binary (fuel + 1) level ts') := by
  unfold Grammar.binary
  split
  · exact ih .unary h
  · refine (ih (.binary (level + 1)) h).bind ?_
    rintro ⟨left, us⟩ ⟨_, us'⟩ ⟨rfl, hus⟩
    exact ih (.joined level left) hus

theorem joined (level : Nat) (left : Expr) :
    Agrees R (Beside R) (Grammar.joined (fuel + 1) level left ts)
      (Grammar.joined (fuel + 1) level left ts') := by
  unfold Grammar.joined
  obtain ⟨hnone, hnone'⟩ | ⟨op, us, us', hsome, hsome', hus⟩ := hR.operatorAt? h level
  · simp only [hnone, hnone']
    exact agrees_ok_pair h
  · simp only [hsome, hsome']
    refine (ih (.binary (level + 1)) hus).bind ?_
    rintro ⟨right, vs⟩ ⟨_, vs'⟩ ⟨rfl, hvs⟩
    exact ih (.joined level (.binary op left right)) hvs

theorem unary : Agrees R (Beside R) (Grammar.unary (fuel + 1) ts)
    (Grammar.unary (fuel + 1) ts') := by
  unfold Grammar.unary
  obtain ⟨hnone, hnone'⟩ | ⟨op, us, us', hsome, hsome', hus⟩ := hR.unaryAt? h
  · simp only [hnone, hnone']
    refine (ih .primary h).bind ?_
    rintro ⟨base, us⟩ ⟨_, us'⟩ ⟨rfl, hus⟩
    exact ih (.extended base) hus
  · simp only [hsome, hsome']
    refine (ih .unary hus).bind ?_
    rintro ⟨operand, vs⟩ ⟨_, vs'⟩ ⟨rfl, hvs⟩
    refine (agrees_ofUnary op operand).bind ?_
    rintro e _ rfl
    exact agrees_ok_pair hvs

/-- What extends an expression stays in step. -/
theorem extended (base : Expr) : Agrees R (Beside R) (Grammar.extended (fuel + 1) base ts)
    (Grammar.extended (fuel + 1) base ts') := by
  obtain ⟨l, p, p', us, us', rfl, rfl, hus⟩ := hR h
  obtain rfl | rfl | rfl | hother := extended_cases l
  · obtain ⟨l, q, q', vs, vs', rfl, rfl, hvs⟩ := hR (hus (by simp))
    cases l with
    | name s =>
      cases hm : base.member? s with
      | some base' =>
        simp only [Grammar.extended, hm]
        exact ih (.extended base') (hvs (by simp))
      | none =>
        simp only [Grammar.extended, hm]
        exact .stopped (hvs (by simp))
    | _ => exact .stopped (hus (by simp))
  · simp only [Grammar.extended]
    refine (ih .sequence (hus (by simp))).bind ?_
    rintro ⟨inside, vs⟩ ⟨_, vs'⟩ ⟨rfl, hvs⟩
    refine (hR.demand hvs ']').bind fun ws ws' hws => ?_
    split
    · exact ih (.extended (.brackets base inside [])) hws
    · exact .stopped hws
  · cases base with
    | path f =>
      simp only [Grammar.extended]
      refine (ih (.arguments ')') (hus (by simp))).bind ?_
      rintro ⟨args, vs⟩ ⟨_, vs'⟩ ⟨rfl, hvs⟩
      exact ih (.extended (.call f args [])) hvs
    | _ => exact .stopped (hus (by simp))
  · rw [hother, hother]
    exact agrees_ok_pair h

/-- Arguments stay in step up to their closing mark. -/
theorem arguments (closing : Char) : Agrees R (Beside R) (Grammar.arguments (fuel + 1) closing ts)
    (Grammar.arguments (fuel + 1) closing ts') := by
  unfold Grammar.arguments
  obtain ⟨hnone, hnone'⟩ | ⟨us, us', hsome, hsome', hus⟩ := hR.skip? h closing
  · simp only [hnone, hnone']
    refine (ih .conditional h).bind ?_
    rintro ⟨first, us⟩ ⟨_, us'⟩ ⟨rfl, hus⟩
    refine hR.separated hus closing fun vs vs' hvs => ?_
    refine (ih (.arguments closing) hvs).bind ?_
    rintro ⟨more, ws⟩ ⟨_, ws'⟩ ⟨rfl, hws⟩
    exact agrees_ok_pair hws
  · simp only [hsome, hsome']
    exact agrees_ok_pair hus

/-- The rule with most cases: names, constants, lists and groups. -/
theorem primary : Agrees R (Beside R) (Grammar.primary (fuel + 1) ts)
    (Grammar.primary (fuel + 1) ts') := by
  obtain ⟨l, p, p', us, us', rfl, rfl, hus⟩ := hR h
  obtain ⟨e, hl, hread⟩ | rfl | rfl | rfl | ⟨-, hother⟩ := primary_cases l
  · rw [hread, hread]
    exact agrees_ok_pair (hus hl)
  · simp only [Grammar.primary]
    refine (ih .sequence (hus (by simp))).bind ?_
    rintro ⟨e, vs⟩ ⟨_, vs'⟩ ⟨rfl, hvs⟩
    exact (hR.demand hvs ')').bind fun ws ws' hws => agrees_ok_pair hws
  · simp only [Grammar.primary]
    refine (ih (.arguments ']') (hus (by simp))).bind ?_
    rintro ⟨items, vs⟩ ⟨_, vs'⟩ ⟨rfl, hvs⟩
    exact agrees_ok_pair hvs
  · simp only [Grammar.primary]
    refine (ih .members (hus (by simp))).bind ?_
    rintro ⟨ms, vs⟩ ⟨_, vs'⟩ ⟨rfl, hvs⟩
    exact agrees_ok_pair hvs
  · rw [hother, hother]
    exact .stopped h

theorem members : Agrees R (Beside R) (Grammar.members (fuel + 1) ts)
    (Grammar.members (fuel + 1) ts') := by
  unfold Grammar.members
  obtain ⟨hnone, hnone'⟩ | ⟨us, us', hsome, hsome', hus⟩ := hR.skip? h '}'
  · obtain ⟨l, p, p', us, us', rfl, rfl, hus⟩ := hR h
    simp only [hnone, hnone']
    cases hk : key? l with
    | none => exact .stopped h
    | some k =>
      have hl : l ≠ .stop := by
        rintro rfl
        cases hk
      refine (hR.demand (hus hl) ':').bind fun vs vs' hvs => ?_
      refine (ih .conditional hvs).bind ?_
      rintro ⟨v, ws⟩ ⟨_, ws'⟩ ⟨rfl, hws⟩
      refine hR.separated hws '}' fun vs vs' hvs => ?_
      refine (ih .members hvs).bind ?_
      rintro ⟨more, ws⟩ ⟨_, ws'⟩ ⟨rfl, hws⟩
      exact agrees_ok_pair hws
  · simp only [hsome, hsome']
    exact agrees_ok_pair hus

end AgreesAt

/-- The rules stay in step on related tokens. -/
theorem InStep.agreesAt (hR : InStep R) (fuel : Nat) : AgreesAt R fuel := by
  induction fuel with
  | zero => exact agreesAt_zero
  | succ fuel ih =>
    intro g ts ts' h
    cases g with
    | sequence => exact ih.sequence hR h
    | listed => exact ih.listed hR h
    | conditional => exact ih.conditional hR h
    | binary level => exact ih.binary h level
    | joined level left => exact ih.joined hR h level left
    | unary => exact ih.unary hR h
    | extended base => exact ih.extended hR h base
    | primary => exact ih.primary hR h
    | arguments closing => exact ih.arguments hR h closing
    | members => exact ih.members hR h

end

/-! ## Whole token lists -/

def close : Expr × List Token → Except Cause Expr
  | (e, ⟨.stop, _⟩ :: _) => .ok e
  | (_, rest) => stopAt .unexpected rest

theorem ofTokens_eq_bind (ts : List Token) :
    ofTokens ts = Grammar.sequence (fuelFor ts) ts >>= close := by
  unfold ofTokens close
  cases Grammar.sequence (fuelFor ts) ts with
  | error cause => rfl
  | ok found =>
    obtain ⟨e, rest⟩ := found
    cases rest with
    | nil => rfl
    | cons t rest => obtain ⟨_ | _, p⟩ := t <;> rfl

/-- The rules stay in step up to the end of the tokens. -/
theorem InStep.close {R : List Token → List Token → Prop} (hR : InStep R) {ts ts' : List Token}
    (h : R ts ts') (fuel : Nat) :
    Agrees R Eq (Grammar.sequence fuel ts >>= Expr.close)
      (Grammar.sequence fuel ts' >>= Expr.close) := by
  refine (hR.agreesAt fuel .sequence h).bind ?_
  rintro ⟨e, us⟩ ⟨_, us'⟩ ⟨rfl, hus⟩
  obtain ⟨l, p, p', vs, vs', rfl, rfl, -⟩ := hR hus
  cases l with
  | stop => exact .ok rfl
  | _ => exact .stopped hus

/-- The same lexemes, with the end among them. -/
def Alike (ts ts' : List Token) : Prop :=
  .stop ∈ ts.map Token.lexeme ∧ ts'.map Token.lexeme = ts.map Token.lexeme

/-- Positions do not matter. -/
theorem inStep_alike : InStep Alike := by
  rintro (_ | ⟨⟨l, p⟩, us⟩) ts' ⟨hstop, hsame⟩
  · cases hstop
  · obtain ⟨⟨l', p'⟩, us', rfl, rfl, hus⟩ := List.map_eq_cons_iff.1 hsame
    refine ⟨l', p, p', us, us', rfl, rfl, fun hl => ⟨?_, hus⟩⟩
    exact (List.mem_cons.1 hstop).resolve_left hl.symm

end Stencil.Expr

namespace Stencil

/-- A cause without the place where reading stopped. -/
def Cause.unplaced : Cause → Cause
  | .stopped complaint found _ => .stopped complaint found 0
  | cause => cause

/-- Where the tokens stand matters for the place of an error only. -/
theorem Expr.ofTokens_of_alike {ts ts' : List Token} (h : Alike ts ts') :
    (ofTokens ts').mapError Cause.unplaced = (ofTokens ts).mapError Cause.unplaced := by
  have hlength : ts'.length = ts.length := by simpa using congrArg List.length h.2
  have hfuel : Grammar.fuelFor ts' = Grammar.fuelFor ts := by
    rw [Grammar.fuelFor, hlength, Grammar.fuelFor]
  have hagrees := inStep_alike.close h (Grammar.fuelFor ts)
  rw [← ofTokens_eq_bind, ← hfuel, ← ofTokens_eq_bind] at hagrees
  generalize ofTokens ts = x, ofTokens ts' = y at hagrees
  cases hagrees with
  | ok h => rw [h]
  | refused => rfl
  | stopped h =>
    obtain ⟨l, p, p', us, us', rfl, rfl, -⟩ := inStep_alike h
    rfl

end Stencil
