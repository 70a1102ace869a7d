import Stencil.Proofs.Tree.Made
import Stencil.Proofs.Views.Children

/-!
# Arrays of a pointer

Where the children of a view's element add items to an array, the pointer has one entry for each,
in their order. A name with any other value than a constant list cannot be extended: then the end
tag of the element fails. The items of a constant list stay in front of the entries, and an array
is lost where a later child gives the attribute of its name.

Every pointer of a template that is read comes from such an element or from a directive, which
gives no arrays.
-/

namespace Stencil

open Builder Nesting
open Expr.Grammar (bind_eq_ok bind_eq_error)

/-! ## Where pointers come from -/

/-- The element stands for the view `v` and gives it the attributes `own`. -/
inductive Represents (scene : Scene) (tag : String) (as : Attributes) : View → Attributes → Prop where
  | named {name : String} {v : View} (htag : tag = "view")
      (hname : Entries.get? "name" as = some (.literal (.text name))) (hne : name ≠ "")
      (hfind : scene.find? name = some v) : Represents scene tag as v (Entries.erase "name" as)
  | custom {v : View} (htag : tag ≠ "view") (hfind : scene.elementView? tag = some v) :
      Represents scene tag as v as

variable {scene : Scene}

theorem exists_represents_of_stands {tag name : String} {as : Attributes} {content : List Node}
    {attributes : Option ViewAttributes} {hooks : Option (List Hook)}
    (h : Stands scene tag as content (.view name attributes hooks)) :
    ∃ v own, Represents scene tag as v own ∧
      ViewAttributes.pointer v own content = .ok (.view name attributes hooks) := by
  cases h with
  | named htag hname hne hfind hn => exact ⟨_, _, .named htag hname hne hfind, hn⟩
  | dynamic htag hname hn =>
    obtain ⟨parts, -, hok⟩ := bind_eq_ok.1 hn
    cases hok
  | custom htag hfind hn => exact ⟨_, _, .custom htag hfind, hn⟩

/-- A pointer comes from a directive or from an element. -/
def Node.Sourced (scene : Scene) : Node → Prop
  | .view name attributes hooks =>
    (∃ d : Directive, d.Refers scene (.view name attributes hooks)) ∨
      ∃ tag as content, Stands scene tag as content (.view name attributes hooks)
  | _ => True

theorem Node.sourced_inherent (scene : Scene) : Node.Inherent scene (Node.Sourced scene) where
  text _ := trivial
  comment _ := trivial
  doctype _ _ _ := trivial
  element _ _ _ _ _ := trivial
  bare _ := trivial
  value _ := trivial
  unbranched := trivial
  branch _ _ _ := trivial
  each _ _ := trivial
  eachElse _ _ := trivial
  block _ _ := trivial
  stands {tag as content n} h := by
    cases n with
    | view => exact .inr ⟨tag, as, content, h⟩
    | _ => trivial
  refers {d n} _ h := by
    cases n with
    | view => exact .inl ⟨d, h⟩
    | _ => trivial

namespace ViewAttributes

/-! ## Values without arrays -/

/-- The value is one entry alone: a constant, or what is evaluated later. -/
def IsSingle (a : ViewAttribute) : Prop :=
  ∀ given entries, a ≠ .array given entries

theorem single_ofAttributes (as : Attributes) : ∀ a ∈ ofAttributes as, IsSingle a.2 := by
  refine Entries.forall_mem_ofPairs fun p hp => ?_
  obtain ⟨⟨k, a⟩, -, rfl⟩ := List.mem_map.1 hp
  cases a <;> intro given entries h <;> cases h

theorem single_ofMembers (ms : Members) : ∀ a ∈ ofMembers ms, IsSingle a.2 := by
  intro a ha
  obtain ⟨m, -, rfl⟩ := List.mem_map.1 ha
  intro given entries h
  dsimp only at h
  split at h <;> cases h

theorem single_of_declared {as rest : ViewAttributes} {hooks : Option (List Hook)}
    (h : declared as = .ok (hooks, rest)) (has : ∀ a ∈ as, IsSingle a.2) :
    ∀ a ∈ rest, IsSingle a.2 := by
  rw [Hook.eq_erase_of_declared h]
  exact Entries.forall_mem_erase (Entries.forall_mem_erase has)

/-- The attributes that a directive gives to a pointer. -/
theorem single_of_refers {d : Directive} {name : String} {attributes : ViewAttributes}
    {hooks : Option (List Hook)} (h : d.Refers scene (.view name (some attributes) hooks)) :
    ∀ a ∈ attributes, IsSingle a.2 := by
  cases h with
  | view _ _ hgiven =>
    generalize (Build.viewParts d).2 = object at hgiven
    cases object with
    | none => cases hgiven.2
    | some e =>
      obtain ⟨ms, rest, -, hdeclared, hrest⟩ := hgiven
      obtain rfl := Option.some.inj hrest
      exact single_of_declared hdeclared (single_ofMembers ms)

/-- A name can be extended if it has no value or a constant list. -/
theorem extendable_cases {a? : Option ViewAttribute} (h : Extendable a?)
    (hsingle : ∀ a ∈ a?, IsSingle a) :
    a? = none ∨ ∃ given, a? = some (.literal (.list given)) := by
  unfold Extendable at h
  split at h
  · exact .inl rfl
  · rename_i given entries
    exact absurd rfl (hsingle _ rfl given entries)
  · rename_i given
    exact .inr ⟨given, rfl⟩
  · exact h.elim

/-! ## Items and entries -/

/-- What the items of an array come to: one entry each, in their order, behind the items of a
constant list that was given. A child that gives the attribute comes after them and takes their
place. -/
inductive Gathers (v : View) (k : String) (children : List Node)
    (before? after? : Option ViewAttribute) : Prop where
  | array {given : List Value} {entries : List ViewAttributes}
      (hbefore : before? = none ∧ given = [] ∨ before? = some (.literal (.list given)))
      (hcontents : contentsOf v k children = []) (hafter : after? = some (.array given entries))
      (hentries : List.Forall₂ (fun item entry => ∀ k', Entries.get? k' entry = entryValue? item k')
        (itemsOf v k children) entries)
  | replaced {front back : List Node} {content : List Node} (hchildren : children = front ++ back)
      (hitems : itemsOf v k children = itemsOf v k front) (hfront : contentsOf v k front = [])
      (hlast : (contentsOf v k back).getLast? = some content)
      (hafter : after? = some (.wrapped (.nodes content)))

variable {v : View} {own : Attributes} {rest : ViewAttributes} {hooks : Option (List Hook)}
  {children : List Node} {k : String}

theorem gathers_of_adds {a? a?' : Option ViewAttribute} (h : Adds v k children a? a?')
    (hsingle : ∀ a ∈ a?, IsSingle a) (hitems : itemsOf v k children ≠ []) :
    Gathers v k children a? a?' := by
  cases hcontents : contentsOf v k children with
  | nil =>
    have hentries : List.Forall₂
        (fun item entry => ∀ k', Entries.get? k' entry = entryValue? item k')
        (itemsOf v k children) ((itemsOf v k children).map entryOf) :=
      List.forall₂_map_right_iff.2 (List.forall₂_same.2 fun item _ => get?_entryOf item)
    have hvalue := h.value
    rw [hcontents] at hvalue
    obtain rfl | ⟨given, rfl⟩ := extendable_cases (h.extendable hitems) hsingle
    · refine .array (.inl ⟨rfl, rfl⟩) hcontents ?_ hentries
      simpa [extended, hitems] using hvalue
    · refine .array (.inr rfl) hcontents ?_ hentries
      simpa [extended, hitems] using hvalue
  | cons content contents =>
    obtain ⟨front, back, rfl, hfront, hback⟩ := h.order
    have hcontents' : contentsOf v k (front ++ back) = contentsOf v k back := by
      rw [contentsOf_append, hfront, List.nil_append]
    obtain ⟨last, hlast⟩ : ∃ last, (contentsOf v k back).getLast? = some last := by
      rw [← hcontents', hcontents]
      exact ⟨_, List.getLast?_cons⟩
    refine .replaced rfl (by rw [itemsOf_append, hback, List.append_nil]) hfront hlast ?_
    rw [h.value, hcontents', hlast]

/-- Without items a name has no array. -/
theorem single_of_adds {a? a?' : Option ViewAttribute} (h : Adds v k children a? a?')
    (hsingle : ∀ a ∈ a?, IsSingle a) (hitems : itemsOf v k children = []) :
    ∀ a ∈ a?', IsSingle a := by
  rw [h.value, hitems]
  split
  · intro a ha given entries heq
    cases ha
    cases heq
  · simpa using hsingle

/-- The arrays of a pointer are what its items come to. -/
theorem gathers_of_pointer {n : Node} (hdeclared : declared (ofAttributes own) = .ok (hooks, rest))
    (h : pointer v own children = .ok n) :
    ∃ attributes, n = .view v.name (some attributes) hooks ∧ ∀ k,
      (itemsOf v k children ≠ [] →
        Gathers v k children (Entries.get? k rest) (Entries.get? k attributes)) ∧
      (itemsOf v k children = [] → ∀ a ∈ Entries.get? k attributes, IsSingle a) := by
  rw [pointer, hdeclared] at h
  obtain ⟨⟨body, all⟩, hsplit, hok⟩ := bind_eq_ok.1 (show (split v rest children >>= _) = _ from h)
  cases hok
  have hsingle (k : String) : ∀ a ∈ Entries.get? k rest, IsSingle a := fun a ha =>
    single_of_declared hdeclared (single_ofAttributes own) (k, a) (Entries.mem_of_get? ha)
  refine ⟨_, rfl, fun k => ⟨fun hitems => ?_, fun hitems => ?_⟩⟩
  · have hadds := adds_of_split hsplit k
    have hgathers := gathers_of_adds hadds (hsingle k) hitems
    have hsome : Entries.get? k all ≠ none := by
      cases hgathers with
      | array _ _ hafter => simp [hafter]
      | replaced _ _ _ _ hafter => simp [hafter]
    rwa [get?_withContent, if_neg]
    rintro ⟨rfl, -, hnone⟩
    exact hsome hnone
  · rw [get?_withContent]
    split
    · intro a ha given entries heq
      cases ha
      cases heq
    · exact single_of_adds (adds_of_split hsplit k) (hsingle k) hitems

/-! ## Refusals -/

theorem kind_of_childRole_eq_error {n : Node} {cause : Cause}
    (h : childRole v n = .error cause) : cause.kind = .structural := by
  have hname {α : Type} {tag : String} {as : Attributes} {f : String × Attributes → α}
      (h : (childName tag as).map f = .error cause) : cause.kind = .structural := by
    rw [childName] at h
    split at h
    · split at h
      · cases h
        rfl
      · cases h
    · cases h
      rfl
  cases n with
  | element tag as content selfClosing hooks =>
    rw [childRole] at h
    dsimp only at h
    split at h
    · exact hname h
    · split at h
      · cases h
      · split at h
        · exact hname h
        · split at h <;> cases h
  | _ => cases h

theorem kind_of_addEntry_eq_error {name : String} {entry as : ViewAttributes} {cause : Cause}
    (h : addEntry name entry as = .error cause) : cause.kind = .structural := by
  rw [addEntry] at h
  split at h <;> cases h
  rfl

/-- Children are refused for their names, or for what they add to. -/
theorem kind_of_split_eq_error {as : ViewAttributes} {cause : Cause}
    (h : split v as children = .error cause) : cause.kind = .structural := by
  induction children generalizing as with
  | nil => cases h
  | cons n children ih =>
    obtain hrole | ⟨role, -, hrest⟩ := bind_eq_error.1 h
    · exact kind_of_childRole_eq_error hrole
    · cases role with
      | named name content => exact ih hrest
      | item name own content =>
        obtain hadd | ⟨as', -, hmore⟩ := bind_eq_error.1 hrest
        · exact kind_of_addEntry_eq_error hadd
        · exact ih hmore
      | body =>
        obtain hmore | ⟨parts, -, hok⟩ := bind_eq_error.1 hrest
        · exact ih hmore
        · cases hok

/-- Items are not added to any other value than a constant list. -/
theorem exists_cause_of_items {a : ViewAttribute}
    (hdeclared : declared (ofAttributes own) = .ok (hooks, rest))
    (hitems : itemsOf v k children ≠ []) (hgiven : Entries.get? k rest = some a)
    (hlist : ∀ given, a ≠ .literal (.list given)) :
    ∃ cause, pointer v own children = .error cause ∧ cause.kind = .structural := by
  have hrun : pointer v own children = split v rest children >>= fun parts =>
      .ok (.view v.name (some (withContent parts.1 parts.2)) hooks) := by
    rw [pointer, hdeclared]
    rfl
  rw [hrun]
  cases hsplit : split v rest children with
  | error cause => exact ⟨cause, rfl, kind_of_split_eq_error hsplit⟩
  | ok parts =>
    have hsingle := single_of_declared hdeclared (single_ofAttributes own) _
      (Entries.mem_of_get? hgiven)
    have hextendable := (adds_of_split hsplit k).extendable hitems
    rw [hgiven] at hextendable
    obtain hnone | ⟨given, hsome⟩ := extendable_cases hextendable (by simpa using hsingle)
    · cases hnone
    · exact absurd (Option.some.inj hsome) (hlist given)

end ViewAttributes

namespace Builder

variable {b : Builder} {s : Stack} {tag : String} {as own : Attributes} {v : View} {cause : Cause}

/-- An element of which no pointer can be made is refused when it is closed. -/
theorem exists_of_run_closeElement_of_represents {content : Option (List Node)}
    {selfClosing : Bool} {hooks : Option (List Hook)}
    (hs : b.stack = s.push (.element tag as content selfClosing hooks))
    (h : Represents scene tag as v own)
    (hcause : ViewAttributes.pointer v own (content.getD []) = .error cause) :
    ∃ b', b.run (Build.closeElement scene tag) = (.error (.of cause), b') := by
  have hcheck (b : Builder) : b.run (do
      Build.append (← Build.check (ViewAttributes.pointer v own (content.getD [])))) =
        (.error (.of cause), b) := by
    rw [hcause]
    exact run_bind_of_error (run_fail b cause) Build.append
  rw [Build.closeElement, run_bind_of_ok (run_stack b), hs, newest?_push]
  cases h with
  | @named name v htag hname hne hfind =>
    subst htag
    have hview (b : Builder) : b.run (Build.findView scene name) = (.ok v, b) :=
      run_findView_eq_ok.2 ⟨hfind, rfl⟩
    refine ⟨b.withStack b.stack.dropNewest, ?_⟩
    dsimp only
    rw [if_pos rfl, run_bind_of_ok (run_onStack b _), Build.viewElement, hname]
    dsimp only
    rw [if_neg hne, run_bind_of_ok (hview _)]
    exact hcheck _
  | custom htag hfind =>
    refine ⟨b.withStack b.stack.dropNewest, ?_⟩
    dsimp only
    rw [if_neg htag, hfind]
    dsimp only
    rw [run_bind_of_ok (run_onStack b _)]
    exact hcheck _

/-- So its end tag fails. -/
theorem exists_of_run_endElement_of_represents {hooks : Option (List Hook)} {content : List Node}
    {fs : List Frame} {root : List Node}
    (hs : b.stack = ⟨⟨.element tag as hooks, content⟩ :: fs, root⟩)
    (h : Represents scene tag as v own)
    (hcause : ViewAttributes.pointer v own content.reverse = .error cause) (text : String) :
    ∃ b', b.run (Build.endElement scene text tag) = (.error (.of cause), b') := by
  have hclosed : b.stack.closed? =
      some (Stack.push (.element tag as (some content.reverse) false hooks) ⟨fs, root⟩) := by
    rw [hs]
    rfl
  have hascend : b.run (Build.ascend (.strayEndTag text)) = (.ok (), b.withStack
      (Stack.push (.element tag as (some content.reverse) false hooks) ⟨fs, root⟩)) := by
    rw [run_ascend, hclosed]
  obtain ⟨b', hclose⟩ := exists_of_run_closeElement_of_represents
    (stack_withStack (Stack.push (.element tag as (some content.reverse) false hooks) ⟨fs, root⟩) b)
    h hcause
  refine ⟨b', ?_⟩
  rw [Build.endElement, run_bind_of_ok hascend, run_bind_of_ok (run_stack _), stack_withStack,
    newest?_push]
  simpa [Node.isElement] using hclose

end Builder

/-! ## Templates -/

open ViewAttributes in
/-- In a template that is read every pointer comes from a directive, without arrays, or from an
element. Whenever a pointer is made of an element, its arrays are what the items come to: one entry
each, behind the items of a constant list, unless a later child gives the attribute. Items for a
name that has been given anything but a constant list make the end tag fail. -/
theorem gathers_of_isReadFrom :
    (∀ observers source t, Template.IsReadFrom scene observers source t →
      ∀ name attributes hooks, .view name (some attributes) hooks ∈ t.nodes →
        (∃ d : Directive, d.Refers scene (.view name (some attributes) hooks)) ∧
            (∀ a ∈ attributes, IsSingle a.2) ∨
          ∃ tag as v own children, Represents scene tag as v own ∧
            pointer v own children = .ok (.view name (some attributes) hooks)) ∧
      (∀ v own children hooks rest n, declared (ofAttributes own) = .ok (hooks, rest) →
        pointer v own children = .ok n →
        ∃ attributes, n = .view v.name (some attributes) hooks ∧ ∀ k,
          (itemsOf v k children ≠ [] →
            Gathers v k children (Entries.get? k rest) (Entries.get? k attributes)) ∧
          (itemsOf v k children = [] → ∀ a ∈ Entries.get? k attributes, IsSingle a)) ∧
      ∀ (b : Builder) tag as hooks' content fs root v own hooks rest k a text,
        b.stack = ⟨⟨.element tag as hooks', content⟩ :: fs, root⟩ →
        Represents scene tag as v own → declared (ofAttributes own) = .ok (hooks, rest) →
        itemsOf v k content.reverse ≠ [] → Entries.get? k rest = some a →
        (∀ given, a ≠ .literal (.list given)) →
        ∃ e b', b.run (Build.endElement scene text tag) = (.error e, b') ∧ e.kind = .structural := by
  refine ⟨?_, fun v own children hooks rest n hdeclared h => gathers_of_pointer hdeclared h, ?_⟩
  · intro observers source t h name attributes hooks hn
    obtain ⟨d, hrefers⟩ | ⟨tag, as, content, hstands⟩ :=
      (Node.sourced_inherent scene).forall_mem_nodes h _ hn
    · exact .inl ⟨⟨d, hrefers⟩, single_of_refers hrefers⟩
    · obtain ⟨v, own, hrepresents, hpointer⟩ := exists_represents_of_stands hstands
      exact .inr ⟨tag, as, v, own, content, hrepresents, hpointer⟩
  · intro b tag as hooks' content fs root v own hooks rest k a text hs hrepresents hdeclared hitems
      hgiven hlist
    obtain ⟨cause, hcause, hkind⟩ := exists_cause_of_items hdeclared hitems hgiven hlist
    obtain ⟨b', hrun⟩ := exists_of_run_endElement_of_represents hs hrepresents hcause text
    refine ⟨_, b', hrun, ?_⟩
    simpa [Error.kind, Error.of] using hkind

section Card

open ViewAttributes

def cardPage : Scene :=
  ⟨some ⟨"page", "", .null, .null, [], [], [], none⟩, Registry.empty.insert card, true, .passive⟩

/-- The pointer has an array with constants in front. -/
def Node.keepsConstants (k : String) : Node → Bool
  | .view _ (some attributes) _ =>
    match Entries.get? k attributes with
    | some (.array (_ :: _) _) => true
    | _ => false
  | _ => false

theorem Node.exists_of_keepsConstants {k : String} {n : Node} (h : n.keepsConstants k = true) :
    ∃ name attributes hooks given entries, n = .view name (some attributes) hooks ∧ given ≠ [] ∧
      Entries.get? k attributes = some (.array given entries) := by
  unfold Node.keepsConstants at h
  split at h
  · split at h
    · rename_i hget
      exact ⟨_, _, _, _, _, rfl, List.cons_ne_nil _ _, hget⟩
    · cases h
  · cases h

theorem exists_cardPage :
    ∃ t : Template,
      t.IsReadFrom cardPage .default "<card items=\"\x7b\x7b[1]\x7d\x7d\"><item></item></card>" ∧
        ∃ n ∈ t.nodes, n.keepsConstants "items" = true := by
  have hrun : ((Builder.start .default).run (Build.markup cardPage
      "<card items=\"\x7b\x7b[1]\x7d\x7d\"><item></item></card>")).1.toOption.map
        (fun t => t.nodes.any (Node.keepsConstants "items")) = some true := by
    decide +kernel
  obtain ⟨t, ht, hany⟩ := exists_of_toOption_map hrun
  obtain ⟨n, hn, hkeeps⟩ := List.any_eq_true.1 hany
  exact ⟨t, .inl ht, n, hn, hkeeps⟩

theorem gathers_of_isReadFrom_card :
    (∃ t : Template,
      t.IsReadFrom cardPage .default "<card items=\"\x7b\x7b[1]\x7d\x7d\"><item></item></card>" ∧
        ∃ name attributes hooks, .view name (some attributes) hooks ∈ t.nodes ∧
          ((∃ d : Directive, d.Refers cardPage (.view name (some attributes) hooks)) ∧
              (∀ a ∈ attributes, IsSingle a.2) ∨
            ∃ tag as v own children, Represents cardPage tag as v own ∧
              pointer v own children = .ok (.view name (some attributes) hooks))) ∧
      (∃ n, pointer card [("items", .literal (.list [.int 1]))] cardChildren = .ok n ∧
        ∃ attributes, n = .view "card" (some attributes) none ∧
          Gathers card "items" cardChildren (some (.literal (.list [.int 1])))
            (Entries.get? "items" attributes)) ∧
      ∃ e b', Builder.run ⟨⟨[⟨.element "card" [("items", .literal (.text "1"))] none,
          cardChildren.reverse⟩], []⟩, .default, [], []⟩
        (Build.endElement cardPage "</card>" "card") = (.error e, b') ∧ e.kind = .structural := by
  have hitems : itemsOf card "items" cardChildren ≠ [] := by
    rw [show itemsOf card "items" cardChildren = [_, _] by rfl]
    simp
  refine ⟨?_, ?_, ?_⟩
  · obtain ⟨t, ht, n, hn, hkeeps⟩ := exists_cardPage
    obtain ⟨name, attributes, hooks, given, entries, rfl, -⟩ := Node.exists_of_keepsConstants hkeeps
    exact ⟨t, ht, name, attributes, hooks, hn, gathers_of_isReadFrom.1 _ _ t ht _ _ _ hn⟩
  · obtain ⟨n, hn⟩ :
        ∃ n, pointer card [("items", .literal (.list [.int 1]))] cardChildren = .ok n := ⟨_, by rfl⟩
    obtain ⟨attributes, hattributes, hlaw⟩ := (@gathers_of_isReadFrom cardPage).2.1
      card [("items", .literal (.list [.int 1]))] cardChildren none _ n (by rfl) hn
    exact ⟨n, hn, attributes, hattributes, (hlaw "items").1 hitems⟩
  · refine gathers_of_isReadFrom.2.2 _ "card" [("items", .literal (.text "1"))] none
      cardChildren.reverse [] [] card _ none [("items", .literal (.text "1"))] "items"
      (.literal (.text "1")) "</card>" rfl (.custom (by decide) (by rfl)) (by rfl) ?_ (by rfl) ?_
    · rwa [List.reverse_reverse]
    · intro given h
      cases h

/-- A constant list that is given stays in front of the entries. -/
theorem not_forall_entries :
    ¬ ∀ (scene : Scene) (observers : Observers) (source : String) (t : Template),
      t.IsReadFrom scene observers source → ∀ name attributes hooks,
        .view name (some attributes) hooks ∈ t.nodes → ∀ k given entries,
          Entries.get? k attributes = some (.array given entries) → given = [] := by
  intro hall
  obtain ⟨t, ht, n, hn, hkeeps⟩ := exists_cardPage
  obtain ⟨name, attributes, hooks, given, entries, rfl, hne, hget⟩ :=
    Node.exists_of_keepsConstants hkeeps
  exact hne (hall _ _ _ t ht name attributes hooks hn _ given entries hget)

end Card

end Stencil
