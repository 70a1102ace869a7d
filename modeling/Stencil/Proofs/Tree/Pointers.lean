import Stencil.Proofs.Building.Calls
import Stencil.Proofs.Tree.Nodes

/-!
# The nodes inside attributes and view pointers

An attribute holds the nodes of its value. A pointer takes its attributes from an element, with its
children, or from the object of a directive. Either way it holds no nodes but those that were there
before: a property of all of them is a property of all nodes inside the pointer. Its arrays come
from array children, so none of them is without a set of attributes.
-/

namespace Stencil

/-- The attribute that a content makes holds no nodes but those of the content. -/
theorem Attribute.everywhere_of_ofContent {P : Node → Prop} {name value : String}
    {ns : List Node} {a : Attribute} (h : Build.ofContent name value ns = .ok a)
    (hns : ∀ n ∈ ns, n.Everywhere P) : a.Everywhere P := by
  rw [Build.ofContent.eq_def] at h
  split at h
  · cases h
  · cases h
    exact Attribute.everywhere_literal
  · rename_i t
    split at h
    · cases h
      exact Attribute.everywhere_literal
    · cases h
      simpa using (hns _ List.mem_cons_self).1
  · cases h
    simpa using hns

namespace ViewAttribute

variable {P : Node → Prop}

/-- All nodes inside the attribute are as `P` says, and its arrays have sets of attributes. -/
def Whole (P : Node → Prop) (a : ViewAttribute) : Prop :=
  a.Everywhere P ∧ a.IsFilled fun _ => True

theorem whole_literal (v : Value) : (ViewAttribute.literal v).Whole P :=
  ⟨everywhere_literal, .literal trivial⟩

theorem whole_wrapped {d : Dynamic} (h : d.Everywhere P) : (ViewAttribute.wrapped d).Whole P :=
  ⟨everywhere_wrapped.2 h, .wrapped d⟩

theorem whole_array {entries : List ViewAttributes} (hentries : entries ≠ [])
    (h : ∀ as ∈ entries, ∀ a ∈ as, a.2.Whole P) (given : List Value) :
    (ViewAttribute.array given entries).Whole P :=
  ⟨everywhere_array.2 fun as has a ha => (h as has a ha).1,
    .array trivial hentries fun as has a ha => (h as has a ha).2⟩

theorem Whole.entries {given : List Value} {entries : List ViewAttributes}
    (h : (ViewAttribute.array given entries).Whole P) :
    ∀ as ∈ entries, ∀ a ∈ as, a.2.Whole P := by
  obtain ⟨heverywhere, hfilled⟩ := h
  rw [everywhere_array] at heverywhere
  cases hfilled with
  | array _ _ hfilled => exact fun as has a ha => ⟨heverywhere as has a ha, hfilled as has a ha⟩

end ViewAttribute

/-- The attributes of a pointer, if it has any, are filled. -/
def ViewAttributes.Filled (as : Option ViewAttributes) : Prop :=
  ∀ es ∈ as, ∀ a ∈ es, a.2.IsFilled fun _ => True

/-- A pointer that has hooks if it has a list of them, and whose arrays have sets of attributes. -/
inductive Node.IsPointer : Node → Prop where
  | view (name : String) {as : Option ViewAttributes} {hooks : Option (List Hook)}
      (hhooks : hooks ≠ some []) (h : ViewAttributes.Filled as) : IsPointer (.view name as hooks)
  | dynamicView (name : Dynamic) {as : Option ViewAttributes} {hooks : Option (List Hook)}
      (hhooks : hooks ≠ some []) (h : ViewAttributes.Filled as) :
      IsPointer (.dynamicView name as hooks)

namespace ViewAttributes

open Expr.Grammar (bind_eq_ok)

variable {P : Node → Prop}

theorem exists_of_map_eq_ok {α β : Type} {x : Except Cause α} {f : α → β} {b : β}
    (h : x.map f = .ok b) : ∃ a, x = .ok a ∧ f a = b := by
  cases x with
  | error cause => cases h
  | ok a => exact ⟨a, rfl, Except.ok.inj h⟩

/-- An attribute handed to a view keeps the property on its parts. -/
theorem ofAttribute_whole {a : Attribute} (h : a.Everywhere P) : (ofAttribute a).Whole P := by
  cases a with
  | literal v => exact ViewAttribute.whole_literal v
  | dynamic d => exact ViewAttribute.whole_wrapped (Attribute.everywhere_dynamic.1 h)

theorem ofAttributes_whole {as : Attributes} (h : ∀ a ∈ as, a.2.Everywhere P) :
    ∀ a ∈ ofAttributes as, a.2.Whole P := by
  refine Entries.forall_mem_ofPairs fun p hp => ?_
  obtain ⟨a, ha, rfl⟩ := List.mem_map.1 hp
  exact ofAttribute_whole (h a ha)

/-- The attributes of an object are constants and bare expressions. -/
theorem ofMembers_whole (hbare : ∀ e, P (.value (.bare e))) (ms : Members) :
    ∀ a ∈ ofMembers ms, a.2.Whole P := by
  intro a ha
  obtain ⟨m, -, rfl⟩ := List.mem_map.1 ha
  dsimp only
  split
  · exact ViewAttribute.whole_literal _
  · exact ViewAttribute.whole_wrapped (Dynamic.everywhere_term.2 (hbare _))

/-- Taking out the declared parts keeps the property on the others. -/
theorem declared_whole {as rest : ViewAttributes} {hooks : Option (List Hook)}
    (h : declared as = .ok (hooks, rest)) (has : ∀ a ∈ as, a.2.Whole P) :
    ∀ a ∈ rest, a.2.Whole P := by
  rw [Hook.eq_erase_of_declared h]
  exact Entries.forall_mem_erase (Entries.forall_mem_erase has)

theorem withContent_whole {body : List Node} {as : ViewAttributes}
    (hbody : ∀ n ∈ body, n.Everywhere P) (has : ∀ a ∈ as, a.2.Whole P) :
    ∀ a ∈ withContent body as, a.2.Whole P := by
  rw [withContent]
  split
  · exact has
  · exact Entries.forall_mem_set has
      (ViewAttribute.whole_wrapped (Dynamic.everywhere_nodes.2 hbody))

/-- An item added to an array keeps the property. -/
theorem addEntry_whole {name : String} {entry as rest : ViewAttributes}
    (h : addEntry name entry as = .ok rest) (hentry : ∀ a ∈ entry, a.2.Whole P)
    (has : ∀ a ∈ as, a.2.Whole P) : ∀ a ∈ rest, a.2.Whole P := by
  have hone : ∀ es ∈ [entry], ∀ a ∈ es, a.2.Whole P := List.forall_mem_singleton.2 hentry
  rw [addEntry] at h
  split at h
  · cases h
    exact Entries.forall_mem_set has (ViewAttribute.whole_array (by simp) hone _)
  · rename_i given entries hget
    cases h
    have hearlier := (has _ (Entries.mem_of_get? hget)).entries
    refine Entries.forall_mem_set has (ViewAttribute.whole_array (by simp) ?_ given)
    exact List.forall_mem_append.2 ⟨hearlier, hone⟩
  · cases h
    exact Entries.forall_mem_set has (ViewAttribute.whole_array (by simp) hone _)
  · cases h

theorem childName_everywhere {tag name : String} {as rest : Attributes}
    (h : childName tag as = .ok (name, rest)) (has : ∀ a ∈ as, a.2.Everywhere P) :
    ∀ a ∈ rest, a.2.Everywhere P := by
  rw [childName] at h
  split at h
  · split at h
    · cases h
    · cases h
      exact Entries.forall_mem_erase has
  · cases h

/-- All nodes inside the attributes and the content that a child's role gives. -/
def ChildRole.Everywhere (P : Node → Prop) : ChildRole → Prop
  | .named _ content => ∀ n ∈ content, n.Everywhere P
  | .item _ as content => (∀ a ∈ as, a.2.Everywhere P) ∧ ∀ n ∈ content, n.Everywhere P
  | .body => True

/-- Whatever its role, a child keeps the property. -/
theorem childRole_everywhere {v : View} {n : Node} {role : ChildRole}
    (h : childRole v n = .ok role) (hn : n.Everywhere P) : role.Everywhere P := by
  cases n with
  | element tag as content selfClosing hooks =>
    rw [Node.everywhere_element] at hn
    have hcontent : ∀ n ∈ content.getD [], n.Everywhere P := by
      cases content with
      | none => simp
      | some ns => exact hn.2.2 ns rfl
    rw [childRole] at h
    dsimp only at h
    split at h
    · obtain ⟨⟨name, rest⟩, -, rfl⟩ := exists_of_map_eq_ok h
      exact hcontent
    · split at h
      · cases h
        exact hcontent
      · split at h
        · obtain ⟨⟨name, rest⟩, hname, rfl⟩ := exists_of_map_eq_ok h
          exact ⟨childName_everywhere hname hn.2.1, hcontent⟩
        · split at h
          · cases h
            exact ⟨hn.2.1, hcontent⟩
          · cases h
            trivial
  | _ =>
    cases h
    trivial

/-- Splitting children into body and attributes keeps the property. -/
theorem split_whole {v : View} {as all : ViewAttributes} {content body : List Node}
    (h : split v as content = .ok (body, all)) (has : ∀ a ∈ as, a.2.Whole P)
    (hcontent : ∀ n ∈ content, n.Everywhere P) :
    (∀ n ∈ body, n.Everywhere P) ∧ ∀ a ∈ all, a.2.Whole P := by
  induction content generalizing as body with
  | nil =>
    cases h
    exact ⟨List.forall_mem_nil _, has⟩
  | cons n content ih =>
    rw [List.forall_mem_cons] at hcontent
    obtain ⟨role, hrole, hrest⟩ := bind_eq_ok.1 h
    have hparts := childRole_everywhere hrole hcontent.1
    cases role with
    | named name inner =>
      have hinner := ViewAttribute.whole_wrapped (Dynamic.everywhere_nodes.2 hparts)
      exact ih hrest (Entries.forall_mem_set has hinner) hcontent.2
    | item name own inner =>
      obtain ⟨as', hentry, hmore⟩ := bind_eq_ok.1 hrest
      refine ih hmore (addEntry_whole hentry ?_ has) hcontent.2
      exact withContent_whole hparts.2 (ofAttributes_whole hparts.1)
    | body =>
      obtain ⟨⟨body', all'⟩, hsplit, hok⟩ := bind_eq_ok.1 hrest
      cases hok
      have hmore := ih hsplit has hcontent.2
      exact ⟨List.forall_mem_cons.2 ⟨hcontent.1, hmore.1⟩, hmore.2⟩

theorem view_everywhere {name : String} {as : Option ViewAttributes} {hooks : Option (List Hook)}
    (hn : P (.view name as hooks)) (has : ∀ es ∈ as, ∀ a ∈ es, a.2.Whole P) :
    (Node.view name as hooks).Everywhere P :=
  Node.everywhere_view.2 ⟨hn, fun es hes a ha => (has es hes a ha).1⟩

theorem dynamicView_everywhere {name : Dynamic} {as : Option ViewAttributes} {hooks : Option (List Hook)}
    (hn : P (.dynamicView name as hooks)) (hname : name.Everywhere P)
    (has : ∀ es ∈ as, ∀ a ∈ es, a.2.Whole P) : (Node.dynamicView name as hooks).Everywhere P :=
  Node.everywhere_dynamicView.2 ⟨hn, hname, fun es hes a ha => (has es hes a ha).1⟩

/-- A pointer has the attributes that its element gives and those that the children add. -/
theorem exists_of_pointer {v : View} {as : Attributes} {content : List Node} {n : Node}
    (h : pointer v as content = .ok n) (has : ∀ a ∈ as, a.2.Everywhere P)
    (hcontent : ∀ n ∈ content, n.Everywhere P) :
    ∃ all hooks, n = .view v.name (some all) hooks ∧ hooks ≠ some [] ∧ ∀ a ∈ all, a.2.Whole P := by
  obtain ⟨⟨hooks, own⟩, hdeclared, hrest⟩ := bind_eq_ok.1 h
  obtain ⟨⟨body, all⟩, hsplit, hok⟩ := bind_eq_ok.1 hrest
  cases hok
  have hparts := split_whole hsplit (declared_whole hdeclared (ofAttributes_whole has)) hcontent
  exact ⟨_, _, rfl, Hook.ne_nil_of_declared hdeclared, withContent_whole hparts.1 hparts.2⟩

theorem exists_of_dynamicPointer {name : Dynamic} {as : Attributes} {content : List Node}
    {n : Node} (h : dynamicPointer name as content = .ok n) (has : ∀ a ∈ as, a.2.Everywhere P)
    (hcontent : ∀ n ∈ content, n.Everywhere P) :
    ∃ all hooks, n = .dynamicView name (some all) hooks ∧ hooks ≠ some [] ∧
      ∀ a ∈ all, a.2.Whole P := by
  obtain ⟨⟨hooks, own⟩, hdeclared, hok⟩ := bind_eq_ok.1 h
  cases hok
  have hown := declared_whole hdeclared (ofAttributes_whole has)
  exact ⟨_, _, rfl, Hook.ne_nil_of_declared hdeclared, withContent_whole hcontent hown⟩

/-- A pointer made of parts with the property has it everywhere. -/
theorem pointer_everywhere {v : View} {as : Attributes} {content : List Node} {n : Node}
    (h : pointer v as content = .ok n) (hn : P n) (has : ∀ a ∈ as, a.2.Everywhere P)
    (hcontent : ∀ n ∈ content, n.Everywhere P) : n.Everywhere P := by
  obtain ⟨all, hooks, rfl, -, hall⟩ := exists_of_pointer h has hcontent
  exact view_everywhere hn (by simpa using hall)

theorem dynamicPointer_everywhere {name : Dynamic} {as : Attributes} {content : List Node}
    {n : Node} (h : dynamicPointer name as content = .ok n) (hn : P n) (hname : name.Everywhere P)
    (has : ∀ a ∈ as, a.2.Everywhere P) (hcontent : ∀ n ∈ content, n.Everywhere P) :
    n.Everywhere P := by
  obtain ⟨all, hooks, rfl, -, hall⟩ := exists_of_dynamicPointer h has hcontent
  exact dynamicView_everywhere hn hname (by simpa using hall)

section

variable {scene : Scene} {tag : String} {as : Attributes} {content : List Node} {n : Node}

/-- The element of a view keeps its nodes when it becomes a pointer. -/
theorem stands_everywhere (h : Stands scene tag as content n) (hn : P n)
    (has : ∀ a ∈ as, a.2.Everywhere P) (hcontent : ∀ n ∈ content, n.Everywhere P) :
    n.Everywhere P := by
  cases h with
  | named _ _ _ _ hpointer =>
    exact pointer_everywhere hpointer hn (Entries.forall_mem_erase has) hcontent
  | dynamic _ hname hpointer =>
    have hdynamicName := has _ (Entries.mem_of_get? hname)
    rw [Attribute.everywhere_dynamic] at hdynamicName
    exact dynamicPointer_everywhere hpointer hn hdynamicName (Entries.forall_mem_erase has) hcontent
  | custom _ _ hpointer => exact pointer_everywhere hpointer hn has hcontent

/-- What a view tag makes is a pointer. -/
theorem isPointer_of_stands (h : Stands scene tag as content n) : n.IsPointer := by
  have hview {v : View} {own : Attributes} (h : pointer v own content = .ok n) : n.IsPointer := by
    obtain ⟨all, hooks, rfl, hhooks, hall⟩ :=
      exists_of_pointer h (fun _ _ _ _ => trivial) fun _ _ => ⟨trivial, by simp⟩
    exact .view _ hhooks (by simpa [Filled] using fun k a ha => (hall (k, a) ha).2)
  cases h with
  | named _ _ _ _ hpointer => exact hview hpointer
  | dynamic _ _ hpointer =>
    obtain ⟨all, hooks, rfl, hhooks, hall⟩ := exists_of_dynamicPointer hpointer
      (fun _ _ _ _ => trivial) fun _ _ => ⟨trivial, by simp⟩
    exact .dynamicView _ hhooks (by simpa [Filled] using fun k a ha => (hall (k, a) ha).2)
  | custom _ _ hpointer => exact hview hpointer

end

/-- A directive gives hooks, or none at all. -/
theorem Given.ne_nil {object : Option Expr} {hooks : Option (List Hook)}
    {attributes : Option ViewAttributes} (h : Given object hooks attributes) : hooks ≠ some [] := by
  cases object with
  | none => simp [h.1]
  | some e =>
    obtain ⟨ms, rest, -, hdeclared, -⟩ := h
    exact Hook.ne_nil_of_declared hdeclared

theorem given_whole (hbare : ∀ e, P (.value (.bare e))) {object : Option Expr}
    {hooks : Option (List Hook)} {attributes : Option ViewAttributes}
    (h : Given object hooks attributes) : ∀ as ∈ attributes, ∀ a ∈ as, a.2.Whole P := by
  cases object with
  | none => simp [h.2]
  | some e =>
    obtain ⟨ms, rest, -, hdeclared, rfl⟩ := h
    simpa using declared_whole hdeclared (ofMembers_whole hbare ms)

section

variable {scene : Scene} {d : Directive} {n : Node}

/-- A view directive makes a pointer with nothing but expressions inside. -/
theorem refers_everywhere (hbare : ∀ e, P (.value (.bare e))) (hmarked : P (.value (.marked d)))
    (h : d.Refers scene n) (hn : P n) : n.Everywhere P := by
  cases h with
  | view _ _ hgiven => exact view_everywhere hn (given_whole hbare hgiven)
  | dynamicView _ hgiven =>
    refine dynamicView_everywhere hn ?_ (given_whole hbare hgiven)
    rw [Dynamic.everywhere_term, Build.viewParts]
    split
    · exact hbare _
    · exact hmarked

/-- What a view directive makes is a pointer. -/
theorem isPointer_of_refers (h : d.Refers scene n) : n.IsPointer := by
  have hfilled {object : Option Expr} {hooks : Option (List Hook)} {attributes : Option ViewAttributes}
      (h : Given object hooks attributes) : Filled attributes := fun as has a ha =>
    (given_whole (P := fun _ => True) (fun _ => trivial) h as has a ha).2
  cases h with
  | view _ _ hgiven => exact .view _ hgiven.ne_nil (hfilled hgiven)
  | dynamicView _ hgiven => exact .dynamicView _ hgiven.ne_nil (hfilled hgiven)

end

end ViewAttributes

end Stencil
