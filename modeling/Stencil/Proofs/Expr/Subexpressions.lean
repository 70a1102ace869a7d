import Mathlib.Logic.Relation
import Stencil.Expr.Dump
import Stencil.Proofs.Expr.Acceptance
import Stencil.Proofs.Expr.Printing

/-!
# The subexpressions of what is read

What can stand in an expression that has been read. Paths are made of identifiers, and the first
name of one is no word with a meaning of its own; brackets follow a place; an operator that stands
before a constant, and an array or object of constants, has been computed. This holds of the whole
expression and of everything in it, because each rule of the grammar keeps it.
-/

namespace Stencil.Expr

open Grammar

/-! ## What an expression is made of -/

/-- The operator that an expression applies, by name, with its arguments. Those of an object are its
keys and values in turn. -/
def operation? : Expr → Option (String × List Expr)
  | .unary op operand => some (op.symbol, [operand])
  | .binary op left right => some (op.symbol, [left, right])
  | .choice test yes no => some ("?", [test, yes, no])
  | .array items => some ("[]", items)
  | .object members => some ("\x7b\x7d", members.flatMap fun m => [.literal (.text m.1), m.2])
  | _ => none

theorem dumpItems_eq_map (es : List Expr) : dumpItems es = es.map dump := by
  induction es with
  | nil => rfl
  | cons e es ih => rw [dumpItems, ih, List.map_cons]

/-- An operator is dumped with its name and its arguments. -/
theorem dump_of_operation? {e : Expr} {name : String} {args : List Expr}
    (h : e.operation? = some (name, args)) : e.dump = dumpOperator name (args.map dump) := by
  have hmembers (ms : List (String × Expr)) : dumpMembers ms =
      (ms.flatMap fun m => [literal (.text m.1), m.2]).map dump := by
    induction ms with
    | nil => rfl
    | cons m ms ih =>
      rw [dumpMembers, ih]
      rfl
  cases e with
  | object members =>
    obtain ⟨rfl, rfl⟩ := Prod.mk.inj (Option.some.inj h)
    rw [dump, hmembers]
  | array items =>
    obtain ⟨rfl, rfl⟩ := Prod.mk.inj (Option.some.inj h)
    rw [dump, dumpItems_eq_map]
  | unary | binary | choice =>
    obtain ⟨rfl, rfl⟩ := Prod.mk.inj (Option.some.inj h)
    rfl
  | _ => cases h

/-- The expressions that an expression is put together from. -/
def parts : Expr → List Expr
  | .brackets before inside _ => [before, inside]
  | .call _ args _ => args
  | .sequence items => items
  | e => (e.operation?.map Prod.snd).getD []

/-- The first expression stands somewhere in the second, or is the whole of it. -/
def IsSubexpr : Expr → Expr → Prop :=
  Relation.ReflTransGen fun part e => part ∈ e.parts

/-! ## Normal expressions -/

def reserved : List String :=
  ["true", "false", "null", "undefined", "this"]

def unaryNames : List String :=
  ["!", "-", "+"]

def binaryNames : List String :=
  ["||", "&&", "==", "!=", "===", "!==", "<", ">", "<=", ">=", "+", "-", "*", "/", "%"]

def AreIdentifiers (names : List String) : Prop :=
  ∀ name ∈ names, isIdentifier name = true

/-- There is a first name, it is not reserved, and all names are identifiers. -/
def IsPath (names : List String) : Prop :=
  (∃ first ∈ names.head?, first ∉ reserved) ∧ AreIdentifiers names

/-- An operator with arguments that leave it something to compute. -/
inductive IsOperation : String → List Expr → Prop
  | unary {name : String} {operand : Expr} (hname : name ∈ unaryNames)
    (hoperand : operand.isLiteral = false) : IsOperation name [operand]
  | binary {name : String} (left right : Expr) (hname : name ∈ binaryNames) :
    IsOperation name [left, right]
  | choice (test yes no : Expr) : IsOperation "?" [test, yes, no]
  | array {items : List Expr} (hitems : ∃ item ∈ items, item.isLiteral = false) :
    IsOperation "[]" items
  | object {members : List (String × Expr)} (hvalues : ∃ m ∈ members, m.2.isLiteral = false) :
    IsOperation "\x7b\x7d" (members.flatMap fun m => [.literal (.text m.1), m.2])

/-- What reading makes of an expression, apart from its parts. -/
def Normal : Expr → Prop
  | .literal _ => True
  | .path names => IsPath names
  | .relative names => AreIdentifiers names
  | .aliasPath name names =>
    (∃ word, name = "#" ++ word ∧ isIdentifier word = true) ∧ AreIdentifiers names
  | .attributePath name names => AreIdentifiers (name :: names)
  | .brackets before _ after => before.isPlace = true ∧ AreIdentifiers after
  | .call names _ after => IsPath names ∧ AreIdentifiers after
  | .sequence items => 2 ≤ items.length
  | e => ∃ name args, e.operation? = some (name, args) ∧ IsOperation name args

/-- All that stands in the expression is normal. -/
def NormalThroughout (e : Expr) : Prop :=
  ∀ sub : Expr, sub.IsSubexpr e → sub.Normal

/-- An expression is normal throughout if it is normal and its parts are so. -/
theorem normalThroughout_iff {e : Expr} :
    e.NormalThroughout ↔ e.Normal ∧ ∀ part ∈ e.parts, part.NormalThroughout := by
  constructor
  · intro h
    refine ⟨h e .refl, fun part hpart sub hsub => ?_⟩
    exact h sub (hsub.tail hpart)
  · rintro ⟨he, hparts⟩ sub hsub
    obtain rfl | ⟨part, hsub, hpart⟩ := Relation.ReflTransGen.cases_tail hsub
    · exact he
    · exact hparts part hpart sub hsub

/-- Without parts there is only the expression itself. -/
theorem normalThroughout_of_parts_eq_nil {e : Expr} (hparts : e.parts = []) (he : e.Normal) :
    e.NormalThroughout := by
  rw [normalThroughout_iff, hparts]
  exact ⟨he, List.forall_mem_nil _⟩

theorem normalThroughout_literal (v : Value) : (literal v).NormalThroughout :=
  normalThroughout_of_parts_eq_nil rfl trivial

/-! ## What the rules make -/

theorem areIdentifiers_concat {names : List String} {name : String} (hnames : AreIdentifiers names)
    (hname : isIdentifier name = true) : AreIdentifiers (names ++ [name]) := by
  intro s hs
  obtain hs | hs := List.mem_append.1 hs
  · exact hnames s hs
  · rwa [List.mem_singleton.1 hs]

/-- A path goes on with any identifier. -/
theorem IsPath.concat {names : List String} {name : String} (h : IsPath names)
    (hname : isIdentifier name = true) : IsPath (names ++ [name]) := by
  obtain ⟨⟨first, hfirst, hfree⟩, hnames⟩ := h
  cases names with
  | nil => cases hfirst
  | cons s names => exact ⟨⟨first, hfirst, hfree⟩, areIdentifiers_concat hnames hname⟩

/-- An identifier that is no constant and not `this` is a path by itself. -/
theorem isPath_singleton {word : String} (hword : isIdentifier word = true)
    (hconstant : constant? word = none) (hthis : word ≠ "this") : IsPath [word] := by
  refine ⟨⟨word, rfl, fun hreserved => ?_⟩, fun s hs => by rwa [List.mem_singleton.1 hs]⟩
  simp only [reserved, List.mem_cons, List.not_mem_nil, or_false] at hreserved
  obtain rfl | rfl | rfl | rfl | rfl := hreserved
  case inr.inr.inr.inr => exact hthis rfl
  all_goals exact absurd hconstant (by decide)

/-- A member name goes to the end of the names that a place has there already. -/
theorem NormalThroughout.member {e e' : Expr} {name : String} (h : e.NormalThroughout)
    (hname : isIdentifier name = true) (hmember : e.member? name = some e') :
    e'.NormalThroughout := by
  rw [normalThroughout_iff] at h ⊢
  obtain ⟨he, hparts⟩ := h
  cases e with
  | path names => exact Option.some.inj hmember ▸ ⟨he.concat hname, hparts⟩
  | relative names =>
    exact Option.some.inj hmember ▸ ⟨areIdentifiers_concat he hname, hparts⟩
  | aliasPath word names =>
    exact Option.some.inj hmember ▸ ⟨⟨he.1, areIdentifiers_concat he.2 hname⟩, hparts⟩
  | attributePath word names =>
    exact Option.some.inj hmember ▸ ⟨areIdentifiers_concat he hname, hparts⟩
  | brackets before inside after =>
    exact Option.some.inj hmember ▸ ⟨⟨he.1, areIdentifiers_concat he.2 hname⟩, hparts⟩
  | call names args after =>
    exact Option.some.inj hmember ▸ ⟨⟨he.1, areIdentifiers_concat he.2 hname⟩, hparts⟩
  | _ => cases hmember

theorem symbol_mem_unaryNames {op : Operator} (h : op.isUnary = true) :
    op.symbol ∈ unaryNames := by
  revert h
  cases op <;> decide

theorem symbol_mem_binaryNames {op : Operator} {level : Nat} (h : op.level? = some level) :
    op.symbol ∈ binaryNames := by
  have hsome : op.level?.isSome = true := by rw [h, Option.isSome_some]
  revert hsome
  cases op <;> decide

/-- What a phrase makes is normal throughout, if what it is added to is. -/
def Phrase.MakesNormal : Phrase → Prop
  | .sequence e | .conditional e | .binary _ e | .unary e | .primary e => e.NormalThroughout
  | .joined _ base e | .extended base e => base.NormalThroughout → e.NormalThroughout
  | .listed es | .arguments _ es => ∀ e ∈ es, e.NormalThroughout
  | .members ms => ∀ m ∈ ms, m.2.NormalThroughout

end Stencil.Expr

namespace Stencil.Lexeme

/-- The name that the lexeme has, if it has one, is an identifier. -/
def IsNamed : Lexeme → Prop
  | .name s | .aliasName s | .attributeName s => Expr.isIdentifier s = true
  | _ => True

end Stencil.Lexeme

namespace Stencil.Expr

open Grammar

/-- Each rule of the grammar keeps expressions normal. -/
theorem Derives.makesNormal {φ : Phrase} {ls : List Lexeme} (h : Derives φ ls)
    (hnames : ∀ l ∈ ls, l.IsNamed) : φ.MakesNormal := by
  induction h with
  | single _ ih | test _ ih | operand _ ih => exact ih hnames
  | several _ _ ih ihs =>
    rw [List.forall_mem_append] at hnames
    refine normalThroughout_iff.2 ⟨?_, List.forall_mem_cons.2 ⟨ih hnames.1, ihs hnames.2⟩⟩
    exact Nat.le_add_left 2 _
  | listedNil | argumentsNil | membersNil => exact List.forall_mem_nil _
  | listedCons _ _ ih ihs =>
    rw [List.forall_mem_cons, List.forall_mem_append] at hnames
    exact List.forall_mem_cons.2 ⟨ih hnames.2.1, ihs hnames.2.2⟩
  | choice _ _ _ iht ihy ihn =>
    simp only [List.forall_mem_append, List.forall_mem_cons] at hnames
    refine normalThroughout_iff.2 ⟨⟨_, _, rfl, .choice _ _ _⟩, ?_⟩
    exact List.forall_mem_cons.2 ⟨iht hnames.1, List.forall_mem_cons.2 ⟨ihy hnames.2.2.1,
      List.forall_mem_singleton.2 (ihn hnames.2.2.2.2)⟩⟩
  | operands _ _ _ ihl ihj =>
    rw [List.forall_mem_append] at hnames
    exact ihj hnames.2 (ihl hnames.1)
  | joinedNil | extendedNil => exact id
  | joinedCons hop _ _ ihr ihj =>
    rw [List.forall_mem_cons, List.forall_mem_append] at hnames
    intro hleft
    refine ihj hnames.2.2 (normalThroughout_iff.2 ⟨?_, ?_⟩)
    · exact ⟨_, _, rfl, .binary _ _ (symbol_mem_binaryNames hop)⟩
    · exact List.forall_mem_cons.2 ⟨hleft, List.forall_mem_singleton.2 (ihr hnames.2.1)⟩
  | negation | sign | int | float | text | constant | constantArray | constantObject =>
    exact normalThroughout_literal _
  | operation hop hne _ ih =>
    rw [List.forall_mem_cons] at hnames
    refine normalThroughout_iff.2 ⟨⟨_, _, rfl, .unary (symbol_mem_unaryNames hop) hne⟩, ?_⟩
    exact List.forall_mem_singleton.2 (ih hnames.2)
  | extension _ _ ihb ihe =>
    rw [List.forall_mem_append] at hnames
    exact ihe hnames.2 (ihb hnames.1)
  | member hm _ ih =>
    simp only [List.forall_mem_cons] at hnames
    exact fun hbase => ih hnames.2.2 (hbase.member hnames.2.1 hm)
  | brackets hb _ _ ihi ihe =>
    simp only [List.forall_mem_cons, List.forall_mem_append] at hnames
    intro hbase
    refine ihe hnames.2.2.2 (normalThroughout_iff.2 ⟨⟨hb, List.forall_mem_nil _⟩, ?_⟩)
    exact List.forall_mem_cons.2 ⟨hbase, List.forall_mem_singleton.2 (ihi hnames.2.1)⟩
  | call _ _ iha ihe =>
    rw [List.forall_mem_cons, List.forall_mem_append] at hnames
    intro hpath
    refine ihe hnames.2.2 (normalThroughout_iff.2 ⟨⟨?_, List.forall_mem_nil _⟩, iha hnames.2.1⟩)
    exact (normalThroughout_iff.1 hpath).1
  | this => exact normalThroughout_of_parts_eq_nil rfl (List.forall_mem_nil _)
  | path hc ht =>
    exact normalThroughout_of_parts_eq_nil rfl
      (isPath_singleton (hnames _ List.mem_cons_self) hc ht)
  | aliasPath name =>
    exact normalThroughout_of_parts_eq_nil rfl
      ⟨⟨name, rfl, hnames _ List.mem_cons_self⟩, List.forall_mem_nil _⟩
  | attributePath name =>
    exact normalThroughout_of_parts_eq_nil rfl
      (List.forall_mem_singleton.2 (hnames _ List.mem_cons_self))
  | group _ ih =>
    rw [List.forall_mem_cons, List.forall_mem_append] at hnames
    exact ih hnames.2.1
  | array hne _ ih =>
    rw [List.forall_mem_cons] at hnames
    exact normalThroughout_iff.2 ⟨⟨_, _, rfl, .array hne⟩, ih hnames.2⟩
  | object hne _ ih =>
    rw [List.forall_mem_cons] at hnames
    refine normalThroughout_iff.2 ⟨⟨_, _, rfl, .object hne⟩, fun part hpart => ?_⟩
    obtain ⟨m, hm, hpart⟩ := List.mem_flatMap.1 hpart
    obtain rfl | hpart := List.mem_cons.1 hpart
    · exact normalThroughout_literal _
    · exact List.mem_singleton.1 hpart ▸ ih hnames.2 m hm
  | argumentsOne _ ih =>
    rw [List.forall_mem_append] at hnames
    exact List.forall_mem_singleton.2 (ih hnames.1)
  | argumentsCons _ _ ih ihs =>
    rw [List.forall_mem_append, List.forall_mem_cons] at hnames
    exact List.forall_mem_cons.2 ⟨ih hnames.1, ihs hnames.2.2⟩
  | membersOne _ _ ih =>
    simp only [List.forall_mem_cons, List.forall_mem_append] at hnames
    exact List.forall_mem_singleton.2 (ih hnames.2.2.1)
  | membersCons _ _ _ ih ihs =>
    simp only [List.forall_mem_cons, List.forall_mem_append] at hnames
    exact List.forall_mem_cons.2 ⟨ih hnames.2.2.1, ihs hnames.2.2.2.2⟩

end Stencil.Expr

namespace Stencil.Token

/-! ## The names among the tokens -/

/-- What is read as a name is an identifier. -/
theorem isIdentifier_of_name? {cs s rest : List Char} (h : name? cs = some (s, rest)) :
    Expr.isIdentifier (String.ofList s) = true := by
  cases cs with
  | nil => cases h
  | cons c cs =>
    simp only [name?] at h
    split at h
    · rename_i hc
      obtain ⟨rfl, -⟩ := Prod.mk.inj (Option.some.inj h)
      simp only [Expr.isIdentifier, String.toList_ofList, hc, Bool.true_and]
      exact List.all_takeWhile
    · cases h

theorem isNamed_of_next {position : Nat} {c : Char} {cs rest : List Char} {l : Lexeme}
    (h : next position c cs = .ok (l, rest)) : l.IsNamed := by
  unfold next at h
  split at h
  · obtain ⟨n, rfl⟩ | ⟨x, rfl⟩ := exists_of_number h <;> trivial
  split at h
  · split at h
    · obtain ⟨rfl, -⟩ := Prod.mk.inj (Except.ok.inj h)
      trivial
    · cases h
  split at h
  · rename_i s rest' hname
    have hs : Expr.isIdentifier (String.ofList s) = true := by
      split at hname
      · exact isIdentifier_of_name? hname
      · cases hname
    obtain ⟨rfl, -⟩ := Prod.mk.inj (Except.ok.inj h)
    split <;> exact hs
  split at h
  · rename_i hname
    obtain ⟨rfl, -⟩ := Prod.mk.inj (Except.ok.inj h)
    exact isIdentifier_of_name? hname
  split at h
  · obtain ⟨rfl, -⟩ := Prod.mk.inj (Except.ok.inj h)
    trivial
  split at h
  · obtain ⟨rfl, -⟩ := Prod.mk.inj (Except.ok.inj h)
    trivial
  · cases h

/-- All names among the tokens of a text are identifiers. -/
theorem isNamed_of_readFrom {position : Nat} {cs : List Char} {ts : List Token}
    (h : readFrom position cs = .ok ts) : ∀ t ∈ ts, t.lexeme.IsNamed := by
  fun_induction readFrom position cs generalizing ts with
  | case1 position cs hcs =>
    obtain rfl := Except.ok.inj h
    exact List.forall_mem_singleton.2 trivial
  | case2 => cases h
  | case3 => cases h
  | case4 position cs c rest hcs start lexeme after hnext tokens htokens =>
    rename_i ih
    obtain rfl := Except.ok.inj h
    exact List.forall_mem_cons.2 ⟨isNamed_of_next hnext, ih htokens⟩

end Stencil.Token

namespace Stencil.Expr

/-- All that stands in an expression that has been read is normal, and none of it is an expression
without content, as directives without an expression have. -/
theorem normal_of_read {source : String} {e : Expr} (h : Expr.read source = .ok e) :
    ∀ sub : Expr, sub.IsSubexpr e → sub.Normal ∧ sub.className ≠ "Expression" := by
  have hnormal : e.NormalThroughout := by
    unfold Expr.read at h
    split at h
    · cases h
    · rename_i tokens htokens
      have hnamed := Token.isNamed_of_readFrom htokens
      obtain ⟨pre, last, rfl, hpre⟩ := Token.readFrom_eq_ok htokens
      refine (derives_of_ofTokens hpre h).makesNormal fun l hl => ?_
      obtain ⟨t, ht, rfl⟩ := List.mem_map.1 hl
      exact hnamed t (List.mem_append_left _ ht)
  intro sub hsub
  refine ⟨hnormal sub hsub, ?_⟩
  cases sub <;> simp [className]

/-- An expression with calls, brackets, an object and a choice. -/
theorem normal_of_read_call :
    ∃ e, Expr.read "f(\x7bk: [1, -x.y]\x7d, #a[this.b]).c ? !'s' : ([], @d)" = .ok e ∧
      ∀ sub : Expr, sub.IsSubexpr e → sub.Normal ∧ sub.className ≠ "Expression" := by
  have hread :
      (Expr.read "f(\x7bk: [1, -x.y]\x7d, #a[this.b]).c ? !'s' : ([], @d)").isOk = true := by
    decide +kernel
  cases h : Expr.read "f(\x7bk: [1, -x.y]\x7d, #a[this.b]).c ? !'s' : ([], @d)" with
  | error cause =>
    rw [h] at hread
    cases hread
  | ok e => exact ⟨e, rfl, normal_of_read h⟩

end Stencil.Expr
