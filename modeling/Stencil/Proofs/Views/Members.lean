import Stencil.Proofs.Building.Calls
import Stencil.Proofs.Expr.Objects

/-!
# What the members of an object give

Hooks and view attributes are given as members of an object. An object of constants is a constant
itself and keeps the last value of each key; an object with computed members keeps all of them until
it is asked. Both give every key once, at the place where it came first, with the last expression
that it has, so nothing is to be seen of the difference.

The text of an attribute `on` becomes an object between braces that are added to it. It is accepted
only if it lists the members of this object: it cannot close the object itself.
-/

namespace Stencil

open Stencil.Expr (Lists)

/-! ## View attributes -/

/-- The attribute that a member of an object gives. -/
def ViewAttribute.ofExpr : Expr → ViewAttribute
  | .literal v => .literal v
  | e => .wrapped (.term (.bare e))

/-- The members of an object are the pairs it was made of. -/
theorem exists_members (ms : List (String × Expr)) :
    ∃ m, Members.ofExpr (.ofMembers ms) = .ok m ∧ m.exprs = Entries.ofPairs ms := by
  obtain ⟨fields, rfl, heq⟩ | ⟨-, heq⟩ := Expr.ofMembers_eq_iff.1 (Eq.refl (Expr.ofMembers ms))
  · rw [← heq]
    exact ⟨_, rfl, Entries.mapValues_ofPairs _ _⟩
  · rw [← heq]
    exact ⟨_, rfl, rfl⟩

theorem ofMembers_eq (m : Members) :
    ViewAttributes.ofMembers m = m.exprs.mapValues .ofExpr := by
  refine List.map_congr_left fun p _ => Prod.ext rfl ?_
  obtain ⟨k, e⟩ := p
  cases e <;> rfl

/-- The members of an object, each key once and with its last expression. -/
theorem exists_members_eq_lastOfEach (ms : List (String × Expr)) :
    ∃ m, Members.ofExpr (.ofMembers ms) = .ok m ∧ m.exprs = Entries.lastOfEach ms ∧
      ViewAttributes.ofMembers m = (Entries.lastOfEach ms).mapValues .ofExpr := by
  obtain ⟨m, hm, hexprs⟩ := exists_members ms
  rw [Entries.ofPairs_eq_lastOfEach] at hexprs
  exact ⟨m, hm, hexprs, by rw [ofMembers_eq, hexprs]⟩

/-- An object is a constant if all its members are. -/
theorem isLiteral_ofMembers (ms : List (String × Expr)) :
    (Expr.ofMembers ms).isLiteral = true ↔ ∀ m ∈ ms, m.2.isLiteral = true := by
  obtain ⟨fields, rfl, heq⟩ | ⟨⟨m, hm, hne⟩, heq⟩ :=
    Expr.ofMembers_eq_iff.1 (Eq.refl (Expr.ofMembers ms))
  · rw [← heq]
    refine iff_of_true rfl fun m hm => ?_
    obtain ⟨field, -, rfl⟩ := List.mem_map.1 hm
    rfl
  · rw [← heq]
    refine iff_of_false (by simp [Expr.isLiteral, Expr.literal?]) fun hall => ?_
    exact Bool.false_ne_true (hne.symm.trans (hall m hm))

/-- What a directive gives to its view is declared by the members of the object after the name. -/
theorem given_ofMembers_iff {ms : List (String × Expr)} {hooks : Option (List Hook)}
    {attributes : Option ViewAttributes} :
    ViewAttributes.Given (some (.ofMembers ms)) hooks attributes ↔
      ∃ rest, ViewAttributes.declared ((Entries.lastOfEach ms).mapValues .ofExpr) =
        .ok (hooks, rest) ∧ attributes = some rest := by
  obtain ⟨m, hm, -, hattributes⟩ := exists_members_eq_lastOfEach ms
  rw [ViewAttributes.Given, ← hattributes]
  constructor
  · rintro ⟨m', rest, hm', hdeclared, heq⟩
    obtain rfl := Except.ok.inj (hm.symm.trans hm')
    exact ⟨rest, hdeclared, heq⟩
  · rintro ⟨rest, hdeclared, heq⟩
    exact ⟨m, rest, hm, hdeclared, heq⟩

/-! ## Hooks -/

namespace Hook

variable {α : Type} {literal? : α → Option Value} {make : String → Expr → Hook} {as rest : Entries α}
  {hooks : Option (List Hook)} {d : String}

/-- The attribute of this name is a literal text, or it is missing. -/
def IsText (literal? : α → Option Value) (name : String) (as : Entries α) (text? : Option String) :
    Prop :=
  (Entries.get? name as).map literal? = text?.map fun s => some (.text s)

/-- The hooks that an attribute `as` declares, which may be missing. -/
def aliases (path? : Option String) : List Hook :=
  (path?.map fun path => .named (aliasSegments path)).toList

/-- The hooks that an attribute `on` declares, which may be missing: one for each key that the text
lists. -/
inductive Listens (make : String → Expr → Hook) : Option String → List Hook → Prop where
  | missing : Listens make none []
  | members {d : String} {ms : List (String × Expr)} (h : Lists d ms) :
      Listens make (some d) ((Entries.lastOfEach ms).map fun m => make m.1 m.2)

/-- The reactions of a text are those of the members that it lists. -/
theorem reactions_eq_ok_iff {hooks : List Hook} :
    reactions make d = .ok hooks ↔
      ∃ ms, Lists d ms ∧ hooks = (Entries.lastOfEach ms).map fun m => make m.1 m.2 := by
  constructor
  · intro h
    obtain ⟨e, hread, hrest⟩ := Expr.Grammar.bind_eq_ok.1 h
    obtain ⟨m, hm, hhooks⟩ := Expr.Grammar.bind_eq_ok.1 hrest
    obtain ⟨ms, hlists, rfl⟩ := Expr.exists_lists hread hm
    obtain ⟨m', hm', hexprs, -⟩ := exists_members_eq_lastOfEach ms
    obtain rfl := Except.ok.inj (hm.symm.trans hm')
    exact ⟨ms, hlists, by rw [← hexprs]; exact (Except.ok.inj hhooks).symm⟩
  · rintro ⟨ms, hlists, rfl⟩
    obtain ⟨m, hm, hexprs, -⟩ := exists_members_eq_lastOfEach ms
    refine Expr.Grammar.bind_eq_ok.2 ⟨_, hlists.read, Expr.Grammar.bind_eq_ok.2 ⟨m, hm, ?_⟩⟩
    rw [hexprs]

theorem literalText_eq_ok_iff {name s : String} {a : α} :
    literalText literal? name a = .ok s ↔ literal? a = some (.text s) := by
  rw [literalText]
  split
  · rename_i t ht
    simp [ht]
  · rename_i hne
    simpa using fun h => hne s h

def textOf (literal? : α → Option Value) (name : String) (as : Entries α) :
    Except Cause (Option String) :=
  match Entries.get? name as with
  | some a => (literalText literal? name a).map some
  | none => .ok none

theorem textOf_eq_ok_iff {name : String} {text? : Option String} :
    textOf literal? name as = .ok text? ↔ IsText literal? name as text? := by
  rw [textOf, IsText]
  cases Entries.get? name as with
  | none => cases text? <;> simp
  | some a =>
    dsimp only
    cases text? with
    | none => cases literalText literal? name a <;> simp [Except.map]
    | some s =>
      rw [Option.map_some, Option.map_some, Option.some_inj, ← literalText_eq_ok_iff]
      cases literalText literal? name a <;> simp [Except.map]

def listeners (make : String → Expr → Hook) : Option String → Except Cause (List Hook)
  | some d => reactions make d
  | none => .ok []

theorem listeners_eq_ok_iff {members? : Option String} {hooks : List Hook} :
    listeners make members? = .ok hooks ↔ Listens make members? hooks := by
  cases members? with
  | none =>
    constructor
    · intro h
      exact Except.ok.inj h ▸ .missing
    · rintro ⟨⟩
      rfl
  | some d =>
    rw [listeners, reactions_eq_ok_iff]
    constructor
    · rintro ⟨ms, hlists, rfl⟩
      exact .members hlists
    · intro h
      cases h with
      | members hlists => exact ⟨_, hlists, rfl⟩

theorem declared_eq (literal? : α → Option Value) (make : String → Expr → Hook) (as : Entries α) :
    declared literal? make as = textOf literal? "as" as >>= fun path? =>
      textOf literal? "on" as >>= fun members? => listeners make members? >>= fun listeners =>
        .ok (someOf (aliases path? ++ listeners), Entries.erase "on" (Entries.erase "as" as)) := by
  rw [declared, textOf, textOf]
  cases Entries.get? "as" as with
  | none =>
    cases Entries.get? "on" as with
    | none => rfl
    | some b =>
      dsimp only
      cases literalText literal? "on" b <;> rfl
  | some a =>
    dsimp only
    cases literalText literal? "as" a with
    | error cause => rfl
    | ok s =>
      cases Entries.get? "on" as with
      | none => rfl
      | some b =>
        dsimp only
        cases literalText literal? "on" b <;> rfl

/-- The attributes `as` and `on` have to be literal texts if they are there, and the latter has to
list members. They are taken away, and nothing else is. -/
theorem declared_eq_ok_iff :
    declared literal? make as = .ok (hooks, rest) ↔
      ∃ path? members? listeners, IsText literal? "as" as path? ∧ IsText literal? "on" as members? ∧
        Listens make members? listeners ∧ hooks = someOf (aliases path? ++ listeners) ∧
        rest = Entries.erase "on" (Entries.erase "as" as) := by
  rw [declared_eq, Expr.Grammar.bind_eq_ok]
  simp only [Expr.Grammar.bind_eq_ok, textOf_eq_ok_iff, listeners_eq_ok_iff, Except.ok.injEq,
    Prod.mk.injEq]
  constructor
  · rintro ⟨path?, hpath, members?, hmembers, listeners, hlistens, rfl, rfl⟩
    exact ⟨path?, members?, listeners, hpath, hmembers, hlistens, rfl, rfl⟩
  · rintro ⟨path?, members?, listeners, hpath, hmembers, hlistens, rfl, rfl⟩
    exact ⟨path?, hpath, members?, hmembers, listeners, hlistens, rfl, rfl⟩

/-- Of attributes with different names those that declare hooks are left out. -/
theorem erase_declaring (h : (Entries.keys as).Nodup) :
    Entries.erase "on" (Entries.erase "as" as) = as.filter fun a => a.1 ≠ "as" ∧ a.1 ≠ "on" := by
  have hrest := (Entries.keys_erase_sublist "as" as).nodup h
  rw [Entries.erase_eq_filter hrest, Entries.erase_eq_filter h, List.filter_filter]
  refine List.filter_congr fun a _ => ?_
  rw [Bool.and_comm]
  simp

end Hook

/-- The members of an object give each key once, where it came first, with its last expression,
whether or not the object is a constant: to a view, as plain values and wrapped expressions, and to
the hooks of an attribute `on`. The text of such an attribute is accepted exactly if it lists
members. With the braces that are added it is then one object, which the first of them opens and the
last one closes. Of the attributes that declare hooks only these two are taken away. -/
theorem members_give_last_of_each :
    (∀ ms : List (String × Expr),
      (∃ m, Members.ofExpr (.ofMembers ms) = .ok m ∧
        ViewAttributes.ofMembers m = (Entries.lastOfEach ms).mapValues .ofExpr) ∧
      ((Expr.ofMembers ms).isLiteral = true ↔ ∀ m ∈ ms, m.2.isLiteral = true) ∧
      ∀ (d : Directive) (name : Expr) (more : List Expr) (hooks : Option (List Hook))
        (attributes : Option ViewAttributes),
        d.expr? = some (.sequence (name :: .ofMembers ms :: more)) →
        (ViewAttributes.Given (Build.viewParts d).2 hooks attributes ↔
          ∃ rest, ViewAttributes.declared ((Entries.lastOfEach ms).mapValues .ofExpr) =
            .ok (hooks, rest) ∧ attributes = some rest)) ∧
    (∀ (d : String) (ms : List (String × Expr)), Lists d ms →
      Expr.read ("\x7b" ++ d ++ "\x7d") = .ok (.ofMembers ms) ∧
      ∃ ts, Token.read ("\x7b" ++ d ++ "\x7d") = .ok (Token.braced d.length ts) ∧
        Expr.Derives (.members ms) (ts.map Token.lexeme ++ [.punctuation '}'])) ∧
    (∀ (make : String → Expr → Hook) (d : String) (hooks : List Hook),
      Hook.reactions make d = .ok hooks ↔
        ∃ ms, Lists d ms ∧ hooks = (Entries.lastOfEach ms).map fun m => make m.1 m.2) ∧
    ∀ (α : Type) (literal? : α → Option Value) (make : String → Expr → Hook) (as rest : Entries α)
      (hooks : Option (List Hook)), (Entries.keys as).Nodup →
      (Hook.declared literal? make as = .ok (hooks, rest) ↔
        ∃ path? members? listeners, Hook.IsText literal? "as" as path? ∧
          Hook.IsText literal? "on" as members? ∧ Hook.Listens make members? listeners ∧
          hooks = Hook.someOf (Hook.aliases path? ++ listeners) ∧
          rest = as.filter fun a => a.1 ≠ "as" ∧ a.1 ≠ "on") := by
  refine ⟨fun ms => ⟨?_, isLiteral_ofMembers ms, ?_⟩, ?_, ?_, ?_⟩
  · obtain ⟨m, hm, -, hattributes⟩ := exists_members_eq_lastOfEach ms
    exact ⟨m, hm, hattributes⟩
  · intro d name more hooks attributes hd
    have hparts : (Build.viewParts d).2 = some (.ofMembers ms) := by
      rw [Build.viewParts, hd]
      rfl
    rw [hparts, given_ofMembers_iff]
  · intro d ms hlists
    exact ⟨hlists.read, hlists.derives⟩
  · intro make d hooks
    exact Hook.reactions_eq_ok_iff
  · intro α literal? make as rest hooks hnodup
    rw [Hook.declared_eq_ok_iff, Hook.erase_declaring hnodup]

/-- Of two reactions to one event the last one counts, and an attribute of another name is kept. -/
theorem members_give_last_of_each_click :
    let d := "click: open(), 'key': \x7b\x7d, click: close()"
    let as : Attributes := [("class", .literal (.text "x")), ("on", .literal (.text d))]
    ∃ hooks ms, Hook.declared Attribute.literal? .onElement as =
        .ok (some hooks, [("class", .literal (.text "x"))]) ∧
      Lists d ms ∧ hooks = (Entries.lastOfEach ms).map (fun m => .onElement m.1 m.2) ∧
      hooks.map (fun
        | .onElement event e => (event, e.print)
        | _ => ("", "")) = [("click", "close()"), ("key", "\x7b\x7d")] := by
  intro d as
  have hprinted : (Hook.reactions .onElement d).toOption.map (List.map fun
      | .onElement event e => (event, e.print)
      | _ => ("", "")) = some [("click", "close()"), ("key", "\x7b\x7d")] := by
    decide +kernel
  cases hreactions : Hook.reactions .onElement d with
  | error cause =>
    rw [hreactions] at hprinted
    cases hprinted
  | ok hooks =>
    rw [hreactions] at hprinted
    obtain ⟨-, -, haccepts, hdeclares⟩ := members_give_last_of_each
    obtain ⟨ms, hlists, heq⟩ := (haccepts .onElement d hooks).1 hreactions
    have hsome : some hooks = Hook.someOf hooks := by
      cases hooks with
      | nil => cases Option.some.inj hprinted
      | cons hook hooks => rfl
    refine ⟨hooks, ms, ?_, hlists, heq, Option.some.inj hprinted⟩
    exact (hdeclares _ _ _ as _ _ (by decide)).2
      ⟨none, some d, hooks, rfl, rfl, heq ▸ .members hlists, hsome, rfl⟩

end Stencil
