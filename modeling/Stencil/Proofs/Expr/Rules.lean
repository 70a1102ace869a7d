import Stencil.Proofs.Expr.Derivation

/-!
# What the rules of the grammar read

One lemma for each way in which a rule of `Expr.Grammar` goes on, and what the rules fold. One
number decides where a phrase ends: `tightness` says how firmly a lexeme holds on to what stands
before it, and a phrase is read whole when the next lexeme holds less firmly than `Phrase.reach`.
-/

namespace Stencil.Expr

namespace Grammar

variable {α β : Type}

@[simp]
theorem ok_bind (a : α) (f : α → Except Cause β) : (Except.ok a >>= f) = f a := rfl

/-- Two steps succeed exactly if the first one does and the second one then does. -/
theorem bind_eq_ok {x : Except Cause α} {f : α → Except Cause β} {b : β} :
    (x >>= f) = .ok b ↔ ∃ a, x = .ok a ∧ f a = .ok b := by
  cases x with
  | error e =>
    constructor
    · intro h
      cases h
    · rintro ⟨a, h, -⟩
      cases h
  | ok a =>
    constructor
    · intro h
      exact ⟨a, rfl, h⟩
    · rintro ⟨_, ⟨⟩, h⟩
      exact h

theorem bind_eq_error {x : Except Cause α} {f : α → Except Cause β} {cause : Cause} :
    (x >>= f) = .error cause ↔ x = .error cause ∨ ∃ a, x = .ok a ∧ f a = .error cause := by
  cases x with
  | error cause' => simp [bind, Except.bind]
  | ok a => simp

theorem exists_of_skip? {c : Char} {ts rest : List Token} (h : skip? c ts = some rest) :
    ∃ p, ts = ⟨.punctuation c, p⟩ :: rest := by
  unfold skip? at h
  split at h
  · rename_i d p ts
    split at h
    · rename_i hd
      obtain rfl := Option.some.inj h
      exact ⟨p, by rw [hd]⟩
    · cases h
  · cases h

/-- Punctuation that is demanded stands in front. -/
theorem exists_of_demand {c : Char} {ts rest : List Token} (h : demand c ts = .ok rest) :
    ∃ p, ts = ⟨.punctuation c, p⟩ :: rest := by
  unfold demand at h
  split at h
  · rename_i ts' hskip
    obtain rfl := Except.ok.inj h
    exact exists_of_skip? hskip
  · cases ts <;> cases h

theorem exists_of_operatorAt? {level : Nat} {ts rest : List Token} {op : Operator}
    (h : operatorAt? level ts = some (op, rest)) :
    ∃ p, ts = ⟨.operator op, p⟩ :: rest ∧ op.level? = some level := by
  unfold operatorAt? at h
  split at h
  · rename_i op' p ts
    split at h
    · rename_i hop
      obtain ⟨rfl, rfl⟩ := Prod.mk.inj (Option.some.inj h)
      exact ⟨p, rfl, hop⟩
    · cases h
  · cases h

theorem exists_of_unaryAt? {ts rest : List Token} {op : Operator}
    (h : unaryAt? ts = some (op, rest)) :
    ∃ p, ts = ⟨.operator op, p⟩ :: rest ∧ op.isUnary = true := by
  unfold unaryAt? at h
  split at h
  · rename_i op' p ts
    split at h
    · rename_i hop
      obtain ⟨rfl, rfl⟩ := Prod.mk.inj (Option.some.inj h)
      exact ⟨p, rfl, hop⟩
    · cases h
  · cases h

@[simp]
theorem skip?_self (c : Char) (position : Nat) (ts : List Token) :
    skip? c (⟨.punctuation c, position⟩ :: ts) = some ts := by
  simp [skip?]

@[simp]
theorem demand_self (c : Char) (position : Nat) (ts : List Token) :
    demand c (⟨.punctuation c, position⟩ :: ts) = .ok ts := by
  simp [demand]

theorem operatorAt?_operator {op : Operator} {level : Nat} (h : op.level? = some level)
    (position : Nat) (ts : List Token) :
    operatorAt? level (⟨.operator op, position⟩ :: ts) = some (op, ts) := by
  simp [operatorAt?, h]

theorem unaryAt?_operator {op : Operator} (h : op.isUnary = true) (position : Nat)
    (ts : List Token) : unaryAt? (⟨.operator op, position⟩ :: ts) = some (op, ts) := by
  simp [unaryAt?, h]

end Grammar

open Grammar

/-! ## Where a phrase ends -/

/-- How firmly a lexeme holds on to the phrase before it. -/
def tightness : Lexeme → Nat
  | .punctuation c =>
    if c = ',' then 1 else if c = '?' then 2
    else if c = '.' ∨ c = '[' ∨ c = '(' then 9 else 0
  | .operator op => op.level?.elim 0 (· + 3)
  | _ => 0

/-- A phrase ends before lexemes that hold on to it less firmly than this. -/
def Phrase.reach : Phrase → Nat
  | .sequence _ | .listed _ => 1
  | .conditional _ => 2
  | .binary level _ | .joined level _ _ => level + 3
  | .unary _ | .extended _ _ => 9
  | .primary _ | .arguments _ _ | .members _ => 10

/-- The next lexeme holds on less firmly than `bound`. -/
def Follows (bound : Nat) (rest : List Token) : Prop :=
  ∀ t ∈ rest.head?, tightness t.lexeme < bound

/-- What follows a tight phrase follows a looser one. -/
theorem Follows.mono {a b : Nat} {rest : List Token} (h : Follows a rest) (hab : a ≤ b) :
    Follows b rest :=
  fun t ht => Nat.lt_of_lt_of_le (h t ht) hab

theorem follows_cons {bound : Nat} {t : Token} {rest : List Token} :
    Follows bound (t :: rest) ↔ tightness t.lexeme < bound := by
  simp [Follows]

theorem follows_punctuation {bound p : Nat} {c : Char} {rest : List Token}
    (h : tightness (.punctuation c) < bound) : Follows bound (⟨.punctuation c, p⟩ :: rest) :=
  follows_cons.2 h

theorem tightness_le (l : Lexeme) : tightness l ≤ 9 := by
  cases l with
  | punctuation c =>
    simp only [tightness]
    grind
  | operator op => cases op <;> decide
  | _ => exact Nat.zero_le 9

theorem follows_ten (rest : List Token) : Follows 10 rest :=
  fun t _ => Nat.lt_succ_of_le (tightness_le t.lexeme)

/-- Where less firm lexemes follow, the punctuation is not there. -/
theorem skip?_eq_none {c : Char} {bound : Nat} {rest : List Token}
    (h : Follows bound rest) (hc : bound ≤ tightness (.punctuation c)) : skip? c rest = none := by
  unfold skip?
  split
  · rename_i d p ts
    have hd : tightness (.punctuation d) < bound := follows_cons.1 h
    have hne : d ≠ c := by
      rintro rfl
      omega
    simp [hne]
  · rfl

/-- No operator of a level follows its operands. -/
theorem operatorAt?_eq_none {level : Nat} {rest : List Token} (h : Follows (level + 3) rest) :
    operatorAt? level rest = none := by
  unfold operatorAt?
  split
  · rename_i op p ts
    have hop : tightness (.operator op) < level + 3 := follows_cons.1 h
    have hne : op.level? ≠ some level := by
      intro he
      simp [tightness, he] at hop
    simp [hne]
  · rfl

/-- The lexemes that an operand can start with; no closing mark is one. -/
def opens : Lexeme → Bool
  | .punctuation c => c == '(' || c == '[' || c == '{'
  | .stop => false
  | _ => true

/-- The phrases that stand for one expression. -/
def Phrase.isOperand : Phrase → Bool
  | .sequence _ | .conditional _ | .binary _ _ | .unary _ | .primary _ => true
  | _ => false

/-- An operand has a first lexeme, and it is one that opens an operand. -/
theorem Derives.exists_cons {φ : Phrase} {ls : List Lexeme} (h : Derives φ ls)
    (hφ : φ.isOperand = true) : ∃ l more, ls = l :: more ∧ opens l = true := by
  induction h with
  | single _ ih | test _ ih | operand _ ih => exact ih rfl
  | several _ _ ih _ | choice _ _ _ ih _ _ | operands _ _ _ ih _ | extension _ _ ih _ =>
    obtain ⟨l, more, rfl, hl⟩ := ih rfl
    exact ⟨l, _, rfl, hl⟩
  | listedNil | listedCons | joinedNil | joinedCons | extendedNil | member | brackets | call |
    argumentsNil | argumentsOne | argumentsCons | membersNil | membersOne | membersCons =>
    simp [Phrase.isOperand] at hφ
  | negation | sign | operation | int | float | text | constant | this | path | aliasPath |
    attributePath | group | constantArray | array | constantObject | object =>
    exact ⟨_, _, rfl, rfl⟩

theorem skip?_of_opens {c : Char} {t : Token} (ts : List Token) (hc : opens (.punctuation c) = false)
    (ht : opens t.lexeme = true) : skip? c (t :: ts) = none := by
  unfold skip?
  split
  · rename_i d p ts' heq
    obtain ⟨rfl, rfl⟩ := List.cons.inj heq
    have hne : d ≠ c := by
      rintro rfl
      simp [hc] at ht
    simp [hne]
  · rfl

/-! ## What the rules fold -/

section

variable {α β : Type}

theorem literal?_eq_some_iff {e : Expr} {v : Value} : e.literal? = some v ↔ e = .literal v := by
  cases e <;> simp [literal?]

/-- What is no literal has no constant. -/
theorem literal?_eq_none_iff {e : Expr} : e.literal? = none ↔ e.isLiteral = false := by
  simp [isLiteral]

theorem mapM_eq_some_iff {f : α → Option β} {g : β → α} (hfg : ∀ a b, f a = some b ↔ a = g b)
    (xs : List α) (ys : List β) : xs.mapM f = some ys ↔ xs = ys.map g := by
  induction xs generalizing ys with
  | nil => simp [eq_comm]
  | cons x xs ih =>
    simp only [List.mapM_cons, bind, Option.bind_eq_some_iff, hfg, ih, pure, Option.some.injEq]
    cases ys with
    | nil => simp
    | cons y ys => simp

theorem mapM_eq_none_iff (f : α → Option β) (xs : List α) :
    xs.mapM f = none ↔ ∃ x ∈ xs, f x = none := by
  induction xs with
  | nil => simp
  | cons x xs ih =>
    simp only [List.mapM_cons, bind, pure, List.mem_cons, exists_eq_or_imp, ← ih]
    cases f x with
    | none => simp
    | some y => cases xs.mapM f <;> simp

/-- An array is a constant exactly if all its items are. -/
theorem ofItems_eq_iff {es : List Expr} {e : Expr} :
    ofItems es = e ↔ (∃ vs, es = vs.map .literal ∧ .literal (.list vs) = e) ∨
      ((∃ item ∈ es, item.isLiteral = false) ∧ .array es = e) := by
  have hsome := mapM_eq_some_iff (fun _ _ => literal?_eq_some_iff) es
  have hnone := mapM_eq_none_iff literal? es
  simp only [literal?_eq_none_iff] at hnone
  simp only [ofItems, ← hsome, ← hnone]
  cases es.mapM literal? <;> simp

/-- An object is a constant exactly if all its values are. -/
theorem ofMembers_eq_iff {ms : List (String × Expr)} {e : Expr} :
    ofMembers ms = e ↔
      (∃ fields, ms = constantMembers fields ∧ .literal (.object (Entries.ofPairs fields)) = e) ∨
      ((∃ m ∈ ms, m.2.isLiteral = false) ∧ .object ms = e) := by
  have hfield : ∀ (m : String × Expr) (field : String × Value),
      (m.2.literal?.map fun v => (m.1, v)) = some field ↔ m = (field.1, .literal field.2) := by
    rintro ⟨k, e⟩ ⟨k', v⟩
    simp only [Option.map_eq_some_iff, literal?_eq_some_iff, Prod.mk.injEq]
    grind
  have hsome := mapM_eq_some_iff hfield ms
  have hnone := mapM_eq_none_iff (fun m : String × Expr => m.2.literal?.map fun v => (m.1, v)) ms
  simp only [Option.map_eq_none_iff, literal?_eq_none_iff] at hnone
  simp only [ofMembers, constantMembers, ← hsome, ← hnone]
  cases ms.mapM fun m : String × Expr => m.2.literal?.map fun v => (m.1, v) <;> simp

end

/-- A sign in front of a constant is computed. -/
theorem Signed.ofUnary_literal {op : Operator} {v w : Value} (h : Signed op v w) :
    ofUnary op (.literal v) = .ok (.literal w) := by
  cases h <;> rfl

theorem Signed.isUnary {op : Operator} {v w : Value} (h : Signed op v w) : op.isUnary = true := by
  cases h <;> rfl

/-- A sign in front of anything else is kept. -/
theorem ofUnary_of_isLiteral_eq_false {e : Expr} (op : Operator) (h : e.isLiteral = false) :
    ofUnary op e = .ok (.unary op e) := by
  cases e with
  | literal v => simp [isLiteral, literal?] at h
  | _ => rfl

/-! ## What each rule reads -/

section

variable {fuel level p q : Nat} {ts ts₁ ts₂ ts₃ rest : List Token} {e e' left right base inside : Expr}
variable {es args : List Expr} {ms : List (String × Expr)} {op : Operator} {c : Char} {l : Lexeme}

attribute [local simp] Grammar.sequence listed conditional Grammar.binary joined Grammar.unary
  extended arguments primary members

/-- An expression without a comma behind it is a sequence of its own. -/
theorem sequence_single (he : conditional fuel ts = .ok (e, rest)) (hrest : Follows 1 rest) :
    Grammar.sequence (fuel + 1) ts = .ok (e, rest) := by
  have hnone : skip? ',' rest = none := skip?_eq_none hrest (by decide)
  simp [he, hnone]

theorem sequence_several (he : conditional fuel ts = .ok (e, ⟨.punctuation ',', p⟩ :: ts₁))
    (hes : listed fuel (⟨.punctuation ',', p⟩ :: ts₁) = .ok (es, rest)) :
    Grammar.sequence (fuel + 1) ts = .ok (.sequence (e :: es), rest) := by
  simp [he, hes]

theorem listed_nil (hrest : Follows 1 rest) : listed (fuel + 1) rest = .ok ([], rest) := by
  have hnone : skip? ',' rest = none := skip?_eq_none hrest (by decide)
  simp [hnone]

theorem listed_cons (he : conditional fuel ts = .ok (e, ts₁)) (hes : listed fuel ts₁ = .ok (es, rest)) :
    listed (fuel + 1) (⟨.punctuation ',', p⟩ :: ts) = .ok (e :: es, rest) := by
  simp [he, hes]

theorem conditional_test (he : Grammar.binary fuel 0 ts = .ok (e, rest)) (hrest : Follows 2 rest) :
    conditional (fuel + 1) ts = .ok (e, rest) := by
  have hnone : skip? '?' rest = none := skip?_eq_none hrest (by decide)
  simp [he, hnone]

/-- A choice is read from its three parts. -/
theorem conditional_choice {test yes no : Expr}
    (ht : Grammar.binary fuel 0 ts = .ok (test, ⟨.punctuation '?', p⟩ :: ts₁))
    (hy : conditional fuel ts₁ = .ok (yes, ⟨.punctuation ':', q⟩ :: ts₂))
    (hn : conditional fuel ts₂ = .ok (no, rest)) :
    conditional (fuel + 1) ts = .ok (.choice test yes no, rest) := by
  simp [ht, hy, hn]

/-- An operand, and those that are joined to it. -/
theorem binary_operands (hlevel : level < 6) (hl : Grammar.binary fuel (level + 1) ts = .ok (left, ts₁))
    (hj : joined fuel level left ts₁ = .ok (e, rest)) :
    Grammar.binary (fuel + 1) level ts = .ok (e, rest) := by
  have hne : level ≠ 6 := Nat.ne_of_lt hlevel
  simp [hne, hl, hj]

theorem binary_operand (he : Grammar.unary fuel ts = .ok (e, rest)) :
    Grammar.binary (fuel + 1) 6 ts = .ok (e, rest) := by
  simp [he]

theorem joined_nil (hrest : Follows (level + 3) rest) :
    joined (fuel + 1) level left rest = .ok (left, rest) := by
  simp [operatorAt?_eq_none hrest]

/-- One more operand is joined to all those before it. -/
theorem joined_cons (hop : op.level? = some level)
    (hr : Grammar.binary fuel (level + 1) ts = .ok (right, ts₁))
    (hj : joined fuel level (.binary op left right) ts₁ = .ok (e, rest)) :
    joined (fuel + 1) level left (⟨.operator op, p⟩ :: ts) = .ok (e, rest) := by
  simp [operatorAt?_operator hop, hr, hj]

/-- An operator in front of an operand. -/
theorem unary_operator (hop : op.isUnary = true) (he : Grammar.unary fuel ts = .ok (e, rest))
    (hfold : ofUnary op e = .ok e') :
    Grammar.unary (fuel + 1) (⟨.operator op, p⟩ :: ts) = .ok (e', rest) := by
  simp [unaryAt?_operator hop, he, hfold]

theorem unary_extension (hop : unaryAt? ts = none) (hb : primary fuel ts = .ok (base, ts₁))
    (he : extended fuel base ts₁ = .ok (e, rest)) : Grammar.unary (fuel + 1) ts = .ok (e, rest) := by
  simp [hop, hb, he]

theorem extended_nil (hrest : Follows 9 rest) : extended (fuel + 1) e rest = .ok (e, rest) := by
  unfold extended
  split
  · simp [follows_cons, tightness] at hrest
  · simp [follows_cons, tightness] at hrest
  · simp [follows_cons, tightness] at hrest
  · rfl

theorem extended_member {name : String} (hm : base.member? name = some e')
    (he : extended fuel e' ts = .ok (e, rest)) :
    extended (fuel + 1) base (⟨.punctuation '.', p⟩ :: ⟨.name name, q⟩ :: ts) = .ok (e, rest) := by
  simp [hm, he]

theorem extended_brackets (hb : base.isPlace = true)
    (hi : Grammar.sequence fuel ts = .ok (inside, ⟨.punctuation ']', q⟩ :: ts₁))
    (he : extended fuel (.brackets base inside []) ts₁ = .ok (e, rest)) :
    extended (fuel + 1) base (⟨.punctuation '[', p⟩ :: ts) = .ok (e, rest) := by
  simp [hi, hb, he]

/-- A path with arguments behind it is a call. -/
theorem extended_call {f : List String} (ha : arguments fuel ')' ts = .ok (args, ts₁))
    (he : extended fuel (.call f args []) ts₁ = .ok (e, rest)) :
    extended (fuel + 1) (.path f) (⟨.punctuation '(', p⟩ :: ts) = .ok (e, rest) := by
  simp [ha, he]

/-- Parentheses are read as what stands between them. -/
theorem primary_group (he : Grammar.sequence fuel ts = .ok (e, ⟨.punctuation ')', q⟩ :: rest)) :
    primary (fuel + 1) (⟨.punctuation '(', p⟩ :: ts) = .ok (e, rest) := by
  simp [he]

theorem primary_items (hes : arguments fuel ']' ts = .ok (es, rest)) :
    primary (fuel + 1) (⟨.punctuation '[', p⟩ :: ts) = .ok (ofItems es, rest) := by
  simp [hes]

theorem primary_members (hms : members fuel ts = .ok (ms, rest)) :
    primary (fuel + 1) (⟨.punctuation '{', p⟩ :: ts) = .ok (ofMembers ms, rest) := by
  simp [hms]

theorem arguments_nil : arguments (fuel + 1) c (⟨.punctuation c, p⟩ :: rest) = .ok ([], rest) := by
  simp

/-- The last argument stands before the closing mark. -/
theorem arguments_one (hskip : skip? c ts = none)
    (he : conditional fuel ts = .ok (e, ⟨.punctuation c, p⟩ :: ts₁))
    (hes : arguments fuel c (⟨.punctuation c, p⟩ :: ts₁) = .ok (es, rest)) :
    arguments (fuel + 1) c ts = .ok (e :: es, rest) := by
  simp [hskip, he, hes]

/-- An argument with a comma behind it. -/
theorem arguments_cons (hc : c ≠ ',') (hskip : skip? c ts = none)
    (he : conditional fuel ts = .ok (e, ⟨.punctuation ',', p⟩ :: ts₁))
    (hes : arguments fuel c ts₁ = .ok (es, rest)) :
    arguments (fuel + 1) c ts = .ok (e :: es, rest) := by
  have hcomma : skip? c (⟨.punctuation ',', p⟩ :: ts₁) = none := by simp [skip?, hc.symm]
  simp [hskip, he, hcomma, hes]

theorem members_nil : members (fuel + 1) (⟨.punctuation '}', p⟩ :: rest) = .ok ([], rest) := by
  simp

/-- A key is no closing brace. -/
theorem skip?_of_key {k : String} (hk : key? l = some k) :
    skip? '}' (⟨l, p⟩ :: ts) = none := by
  cases l <;> simp [skip?, key?] at hk ⊢

theorem members_one {r : Nat} {k : String} (hk : key? l = some k)
    (he : conditional fuel ts = .ok (e, ⟨.punctuation '}', p⟩ :: ts₁))
    (hms : members fuel (⟨.punctuation '}', p⟩ :: ts₁) = .ok (ms, rest)) :
    members (fuel + 1) (⟨l, q⟩ :: ⟨.punctuation ':', r⟩ :: ts) = .ok ((k, e) :: ms, rest) := by
  simp [skip?_of_key hk, hk, he, hms]

theorem members_cons {r : Nat} {k : String} (hk : key? l = some k)
    (he : conditional fuel ts = .ok (e, ⟨.punctuation ',', p⟩ :: ts₁))
    (hms : members fuel ts₁ = .ok (ms, rest)) :
    members (fuel + 1) (⟨l, q⟩ :: ⟨.punctuation ':', r⟩ :: ts) = .ok ((k, e) :: ms, rest) := by
  have hcomma : skip? '}' (⟨.punctuation ',', p⟩ :: ts₁) = none := by simp [skip?]
  simp [skip?_of_key hk, hk, he, hcomma, hms]

end

end Stencil.Expr
