import Stencil.Proofs.Text.Camel
import Stencil.Proofs.Views.Arrays
import Stencil.Proofs.Views.Members

/-!
# The names under which a view is given its attributes

An element passes values to its view as attributes and as children, which name the attribute or the
array themselves or have a tag that the view declares. Each way has its own idea of the name under
which the value is stored. An attribute of the element has capitals for its hyphens there, a child
keeps the name as it is written, so they agree on names without hyphens only.
-/

namespace Stencil

open Expr.Grammar (bind_eq_ok)

namespace ViewAttributes

/-- How an element passes a value to its view. -/
inductive Way where
  /-- As an attribute of the element. -/
  | own
  /-- As a child `attribute` that names it. -/
  | child
  /-- As a child with the name for its tag, which the view declares. -/
  | declaredChild
  /-- As a child `array` that names it. -/
  | array
  /-- As a child whose tag the view declares for the array. -/
  | declaredArray
deriving DecidableEq

/-- A value that an element passes to its view under a name. -/
structure Passing where
  way : Way
  name : String
  value : ViewAttribute

/-- The name under which the value is stored. -/
def Passing.key (p : Passing) : String :=
  if p.way = .own then Text.camel p.name else p.name

/-- What the attributes of an element pass; those that declare hooks pass nothing. -/
def ownPassings (own : Attributes) : List Passing :=
  (own.filter fun a => Text.camel a.1 ≠ "as" ∧ Text.camel a.1 ≠ "on").map
    fun a => ⟨.own, a.1, ofAttribute a.2⟩

/-- What a child passes. An array is passed entry by entry. -/
def passing? (v : View) : Node → Option Passing
  | .element tag as content _ _ =>
    let nodes := content.getD []
    if tag = "attribute" then
      (literalName? as).map fun name => ⟨.child, name, .wrapped (.nodes nodes)⟩
    else if v.hasAttribute tag then some ⟨.declaredChild, tag, .wrapped (.nodes nodes)⟩
    else if tag = "array" then (literalName? as).map
      fun name => ⟨.array, name, .array [] [entryOf (Entries.erase "name" as, nodes)]⟩
    else (Entries.get? tag v.arrays).map
      fun name => ⟨.declaredArray, name, .array [] [entryOf (as, nodes)]⟩
  | _ => none

/-- All that an element passes. -/
def passings (v : View) (own : Attributes) (children : List Node) : List Passing :=
  ownPassings own ++ children.filterMap (passing? v)

/-- The attributes have the names of what is passed, and that of the body if there is one. What
alone is passed for a name is its value. -/
structure Stores (v : View) (own : Attributes) (children : List Node)
    (attributes : ViewAttributes) : Prop where
  keys : ∀ k, k ∈ Entries.keys attributes ↔
    (∃ p ∈ passings v own children, p.key = k) ∨ (k = "content" ∧ ∃ n ∈ children, isBody v n = true)
  value : ∀ p, (passings v own children).filter (fun p' => p'.key = p.key) = [p] →
    Entries.get? p.key attributes = some p.value

variable {v : View} {own : Attributes} {rest all : ViewAttributes} {hooks : Option (List Hook)}
  {children : List Node} {k : String}

def valuesFor (k : String) (ps : List Passing) : List ViewAttribute :=
  (ps.filter fun p => p.key = k).map Passing.value

theorem valuesFor_append (ps qs : List Passing) :
    valuesFor k (ps ++ qs) = valuesFor k ps ++ valuesFor k qs := by
  simp [valuesFor]

theorem valuesFor_eq_nil_iff {ps : List Passing} :
    valuesFor k ps = [] ↔ ¬ ∃ p ∈ ps, p.key = k := by
  simp [valuesFor]

theorem valuesFor_ownPassings (own : Attributes) (k : String) :
    valuesFor k (ownPassings own) =
      if k ≠ "as" ∧ k ≠ "on" then
        Entries.valuesOf k (own.map fun a => (Text.camel a.1, ofAttribute a.2))
      else [] := by
  induction own with
  | nil => simp [valuesFor, ownPassings]
  | cons a own ih =>
    have hcons : ownPassings (a :: own) = (if Text.camel a.1 ≠ "as" ∧ Text.camel a.1 ≠ "on" then
        [⟨.own, a.1, ofAttribute a.2⟩] else []) ++ ownPassings own := by
      rw [ownPassings, List.filter_cons]
      split <;> simp_all [ownPassings]
    rw [hcons, valuesFor_append, ih, List.map_cons, Entries.valuesOf_cons]
    by_cases hk : Text.camel a.1 = k
    · subst hk
      split <;> simp [valuesFor, Passing.key]
    · split <;> simp [valuesFor, Passing.key, hk]

/-- Of the attributes with one name the last one counts. -/
theorem get?_of_declared (h : declared (ofAttributes own) = .ok (hooks, rest)) (k : String) :
    Entries.get? k rest = (valuesFor k (ownPassings own)).getLast? := by
  have hnodup : (Entries.keys (ofAttributes own)).Nodup := Entries.nodup_keys_ofPairs _
  rw [Hook.eq_erase_of_declared h, Hook.erase_declaring hnodup,
    Entries.get?_filter fun k => decide (k ≠ "as" ∧ k ≠ "on"), valuesFor_ownPassings,
    ofAttributes, Entries.get?_ofPairs]
  by_cases hk : k ≠ "as" ∧ k ≠ "on"
  · rw [if_pos (decide_eq_true hk), if_pos hk]
  · rw [if_neg (by simpa using hk), if_neg hk]
    rfl

/-- What a child passes is a content or an item, and nothing if it belongs to the body. -/
inductive Passed (v : View) (n : Node) : Option Passing → Prop where
  | content {p : Passing} {content : List Node} (hcontent : givenAttribute? v n = some (p.key, content))
      (hitem : givenItem? v n = none) (hvalue : p.value = .wrapped (.nodes content)) :
      Passed v n (some p)
  | item {p : Passing} {item : Attributes × List Node} (hcontent : givenAttribute? v n = none)
      (hitem : givenItem? v n = some (p.key, item)) (hvalue : p.value = .array [] [entryOf item]) :
      Passed v n (some p)
  | nothing (hcontent : givenAttribute? v n = none) (hitem : givenItem? v n = none) : Passed v n none

theorem passed (v : View) (n : Node) : Passed v n (passing? v n) := by
  cases n with
  | element tag as content selfClosing hooks =>
    rw [passing?]
    split
    · rename_i htag
      cases hname : literalName? as with
      | none => exact .nothing (by simp [givenAttribute?, htag, hname]) (by simp [givenItem?, htag])
      | some name =>
        exact .content (by simp [givenAttribute?, htag, hname, Passing.key])
          (by simp [givenItem?, htag]) rfl
    · rename_i htag
      split
      · rename_i hdeclared
        exact .content (by simp [givenAttribute?, htag, hdeclared, Passing.key])
          (by simp [givenItem?, hdeclared]) rfl
      · rename_i hdeclared
        have hcontent : givenAttribute? v (.element tag as content selfClosing hooks) = none := by
          simp [givenAttribute?, htag, hdeclared]
        split
        · rename_i harray
          cases hname : literalName? as with
          | none => exact .nothing hcontent (by simp_all [givenItem?])
          | some name => exact .item hcontent (by simp_all [givenItem?, Passing.key]) rfl
        · rename_i harray
          cases hname : Entries.get? tag v.arrays with
          | none => exact .nothing hcontent (by simp_all [givenItem?])
          | some name => exact .item hcontent (by simp_all [givenItem?, Passing.key]) rfl
  | _ => exact .nothing rfl rfl

/-- The values that a child passes for a name are its contents and its items. -/
theorem valuesFor_child (v : View) (k : String) (n : Node) :
    valuesFor k (passing? v n).toList =
      (contentsOf v k [n]).map (fun content => .wrapped (.nodes content)) ++
        (itemsOf v k [n]).map fun item => .array [] [entryOf item] := by
  have hpassed := passed v n
  cases hp : passing? v n with
  | none =>
    rw [hp] at hpassed
    cases hpassed with
    | nothing hcontent hitem => simp [valuesFor, contentsOf, itemsOf, hcontent, hitem]
  | some p =>
    rw [hp] at hpassed
    by_cases hk : p.key = k
    · cases hpassed with
      | content hcontent hitem hvalue =>
        simp [valuesFor, contentsOf, itemsOf, hcontent, hitem, hk, hvalue]
      | item hcontent hitem hvalue =>
        simp [valuesFor, contentsOf, itemsOf, hcontent, hitem, hk, hvalue]
    · cases hpassed with
      | content hcontent hitem => simp [valuesFor, contentsOf, itemsOf, hcontent, hitem, hk]
      | item hcontent hitem => simp [valuesFor, contentsOf, itemsOf, hcontent, hitem, hk]

theorem valuesFor_children_cons (n : Node) (children : List Node) :
    valuesFor k ((n :: children).filterMap (passing? v)) =
      valuesFor k (passing? v n).toList ++ valuesFor k (children.filterMap (passing? v)) := by
  rw [← valuesFor_append, List.filterMap_cons]
  cases passing? v n <;> rfl

theorem valuesFor_children_eq_nil_iff :
    valuesFor k (children.filterMap (passing? v)) = [] ↔
      contentsOf v k children = [] ∧ itemsOf v k children = [] := by
  induction children with
  | nil => simp [valuesFor, contentsOf, itemsOf]
  | cons n children ih =>
    rw [valuesFor_children_cons, valuesFor_child, contentsOf_cons k n children,
      itemsOf_cons k n children]
    simp only [List.append_eq_nil_iff, List.map_eq_nil_iff, ih]
    exact and_and_and_comm

/-- One value for a name is a content or an item. -/
theorem eq_of_valuesFor_children {a : ViewAttribute}
    (h : valuesFor k (children.filterMap (passing? v)) = [a]) :
    (∃ content, contentsOf v k children = [content] ∧ itemsOf v k children = [] ∧
        a = .wrapped (.nodes content)) ∨
      ∃ item, contentsOf v k children = [] ∧ itemsOf v k children = [item] ∧
        a = .array [] [entryOf item] := by
  induction children with
  | nil => cases h
  | cons n children ih =>
    rw [valuesFor_children_cons] at h
    rw [contentsOf_cons k n children, itemsOf_cons k n children]
    obtain ⟨hfirst, hrest⟩ | ⟨hfirst, hrest⟩ := List.append_eq_singleton_iff.1 h
    · rw [valuesFor_child, List.append_eq_nil_iff, List.map_eq_nil_iff, List.map_eq_nil_iff] at hfirst
      rw [hfirst.1, hfirst.2, List.nil_append, List.nil_append]
      exact ih hrest
    · obtain ⟨hcontents, hitems⟩ := valuesFor_children_eq_nil_iff.1 hrest
      rw [hcontents, hitems, List.append_nil, List.append_nil]
      rw [valuesFor_child] at hfirst
      obtain ⟨hnone, hone⟩ | ⟨hone, hnone⟩ := List.append_eq_singleton_iff.1 hfirst
      · obtain ⟨item, hitem, rfl⟩ := List.map_eq_singleton_iff.1 hone
        exact .inr ⟨item, List.map_eq_nil_iff.1 hnone, hitem, rfl⟩
      · obtain ⟨content, hcontent, rfl⟩ := List.map_eq_singleton_iff.1 hone
        exact .inl ⟨content, hcontent, List.map_eq_nil_iff.1 hnone, rfl⟩

theorem extended_eq_none_iff {entries : List ViewAttributes} {a? : Option ViewAttribute} :
    extended entries a? = none ↔ entries = [] ∧ a? = none := by
  unfold extended
  split
  · simp
  · simp
  · split <;> simp
  · simp

/-- What is stored for a name before the body is added. -/
theorem get?_of_split {body : List Node} (hdeclared : declared (ofAttributes own) = .ok (hooks, rest))
    (h : split v rest children = .ok (body, all)) (k : String) :
    (Entries.get? k all ≠ none ↔ ∃ p ∈ passings v own children, p.key = k) ∧
      ∀ a, valuesFor k (passings v own children) = [a] → Entries.get? k all = some a := by
  have hvalue := (adds_of_split h k).value
  rw [get?_of_declared hdeclared] at hvalue
  constructor
  · rw [← not_iff_not, not_not, ← valuesFor_eq_nil_iff, passings, valuesFor_append,
      List.append_eq_nil_iff, valuesFor_children_eq_nil_iff, hvalue]
    cases hcontents : contentsOf v k children with
    | nil =>
      rw [List.getLast?_nil]
      dsimp only
      rw [extended_eq_none_iff, List.map_eq_nil_iff, List.getLast?_eq_none_iff]
      simp [and_comm]
    | cons content contents => simp [List.getLast?_cons]
  · intro a ha
    rw [passings, valuesFor_append] at ha
    rw [hvalue]
    obtain ⟨hown, hchildren⟩ | ⟨hown, hchildren⟩ := List.append_eq_singleton_iff.1 ha
    · obtain ⟨content, hcontents, hitems, rfl⟩ | ⟨item, hcontents, hitems, rfl⟩ :=
        eq_of_valuesFor_children hchildren
      · rw [hcontents]
        rfl
      · rw [hcontents, hitems, hown]
        rfl
    · obtain ⟨hcontents, hitems⟩ := valuesFor_children_eq_nil_iff.1 hchildren
      rw [hcontents, hitems, hown]
      exact extended_nil _

/-- A pointer has its attributes under the names of what its element passes. -/
theorem stores_of_pointer {n : Node} (h : pointer v own children = .ok n) :
    ∃ attributes hooks, n = .view v.name (some attributes) hooks ∧ Stores v own children attributes := by
  obtain ⟨⟨hooks, rest⟩, hdeclared, hmore⟩ := bind_eq_ok.1 h
  obtain ⟨⟨body, all⟩, hsplit, hok⟩ := bind_eq_ok.1 hmore
  refine ⟨withContent body all, hooks, (Except.ok.inj hok).symm, ?_, ?_⟩
  · intro k
    have hbody : body ≠ [] ↔ ∃ n ∈ children, isBody v n = true := by
      simp [body_of_split hsplit]
    rw [Entries.mem_keys_iff, get?_withContent, ← (get?_of_split hdeclared hsplit k).1, ← hbody]
    split
    · rename_i hadd
      exact iff_of_true (by simp) (.inr ⟨hadd.1, hadd.2.1⟩)
    · rename_i hkeep
      refine ⟨.inl, ?_⟩
      rintro (hsome | ⟨rfl, hbody⟩)
      · exact hsome
      · exact fun hnone => hkeep ⟨rfl, hbody, hnone⟩
  · intro p hp
    have hvalues : valuesFor p.key (passings v own children) = [p.value] := by
      rw [valuesFor, hp, List.map_singleton]
    have hall := (get?_of_split hdeclared hsplit p.key).2 p.value hvalues
    rw [get?_withContent, if_neg]
    · exact hall
    · rintro ⟨hkey, -, hnone⟩
      rw [hkey, hnone] at hall
      cases hall

/-- The names of the two agree where an attribute gets no capitals. -/
theorem key_eq_camel_iff (p : Passing) :
    p.key = Text.camel p.name ↔ p.way = .own ∨ ¬ Text.HasHyphen p.name.toList := by
  rw [Passing.key]
  split
  · rename_i hway
    exact iff_of_true rfl (.inl hway)
  · rename_i hway
    rw [or_iff_right hway, eq_comm, Text.camel_eq_self_iff]

end ViewAttributes

open ViewAttributes in
/-- In a template that is read every pointer comes from a directive, or from an element that stores
what it passes under its names: those of attributes have capitals for their hyphens, those of
children are kept. The same is true whenever a pointer is made of an element. The name with capitals
is therefore the one of attributes, and of children whose names have no hyphen in front of a
character. -/
theorem stores_of_isReadFrom (scene : Scene) :
    (∀ observers source t, Template.IsReadFrom scene observers source t →
      ∀ name attributes hooks, .view name (some attributes) hooks ∈ t.nodes →
        (∃ d : Directive, d.Refers scene (.view name (some attributes) hooks)) ∨
          ∃ tag as v own children, Represents scene tag as v own ∧
            pointer v own children = .ok (.view name (some attributes) hooks) ∧
            Stores v own children attributes) ∧
      (∀ v own children n, pointer v own children = .ok n →
        ∃ attributes hooks, n = .view v.name (some attributes) hooks ∧
          Stores v own children attributes) ∧
      ∀ p : Passing,
        p.key = Text.camel p.name ↔ p.way = .own ∨ ¬ Text.HasHyphen p.name.toList := by
  refine ⟨?_, fun v own children n => stores_of_pointer, key_eq_camel_iff⟩
  intro observers source t h name attributes hooks hn
  obtain hrefers | ⟨tag, as, content, hstands⟩ :=
    (Node.sourced_inherent scene).forall_mem_nodes h _ hn
  · exact .inl hrefers
  · obtain ⟨v, own, hrepresents, hpointer⟩ := exists_represents_of_stands hstands
    obtain ⟨attributes', hooks', heq, hstores⟩ := stores_of_pointer hpointer
    obtain ⟨-, hattributes, -⟩ := Node.view.inj heq
    obtain rfl := Option.some.inj hattributes
    exact .inr ⟨tag, as, v, own, content, hrepresents, hpointer, hstores⟩

section Card

open ViewAttributes

def Node.givenKeys : Node → List String
  | .view _ (some attributes) _ => Entries.keys attributes
  | _ => []

theorem stores_of_isReadFrom_card :
    let source := "<card data-id=\"1\"><attribute name=\"page-title\">x</attribute></card>"
    ∃ t : Template, t.IsReadFrom cardPage .default source ∧
      ∃ name attributes hooks, .view name (some attributes) hooks ∈ t.nodes ∧
        Entries.keys attributes = ["dataId", "page-title"] ∧
        ((∃ d : Directive, d.Refers cardPage (.view name (some attributes) hooks)) ∨
          ∃ tag as v own children, Represents cardPage tag as v own ∧
            pointer v own children = .ok (.view name (some attributes) hooks) ∧
            Stores v own children attributes) := by
  intro source
  have hrun : ((Builder.start .default).run (Build.markup cardPage source)).1.toOption.map
      (fun t => t.nodes.any fun n => n.givenKeys == ["dataId", "page-title"]) = some true := by
    decide +kernel
  obtain ⟨t, ht, hany⟩ := exists_of_toOption_map hrun
  obtain ⟨n, hn, hkeys⟩ := List.any_eq_true.1 hany
  have hread : t.IsReadFrom cardPage .default source := .inl ht
  unfold Node.givenKeys at hkeys
  split at hkeys
  · rename_i name attributes hooks
    exact ⟨t, hread, name, attributes, hooks, hn, by simpa using hkeys,
      (stores_of_isReadFrom cardPage).1 _ _ t hread _ _ _ hn⟩
  · cases hkeys

def hyphened : View :=
  ⟨"card", "", .null, .null, [.text "card"], [.text "page-title"], [("page-row", "page-title")], none⟩

def hyphenedChild : Way → Node
  | .own => .text ""
  | .child => .element "attribute" [("name", .literal (.text "page-title"))] (some []) false none
  | .declaredChild => .element "page-title" [] (some []) false none
  | .array => .element "array" [("name", .literal (.text "page-title"))] (some []) false none
  | .declaredArray => .element "page-row" [] (some []) false none

/-- No way but that of attributes stores every value under its name with capitals. -/
theorem not_forall_camel :
    ¬ ∃ w : Way, w ≠ .own ∧
      ∀ (v : View) (own : Attributes) (children : List Node) (name : String)
        (attributes : ViewAttributes) (hooks : Option (List Hook)),
        pointer v own children = .ok (.view name (some attributes) hooks) →
        ∀ p ∈ passings v own children, p.way = w → Text.camel p.name ∈ Entries.keys attributes := by
  rintro ⟨w, hw, hall⟩
  have hpointer : ∃ attributes, pointer hyphened [] [hyphenedChild w] =
      .ok (.view "card" (some attributes) none) ∧ Entries.keys attributes = ["page-title"] := by
    cases w with
    | own => exact absurd rfl hw
    | _ => exact ⟨_, rfl, rfl⟩
  have hpassing : ∃ p ∈ passings hyphened [] [hyphenedChild w],
      p.way = w ∧ p.name = "page-title" := by
    cases w with
    | own => exact absurd rfl hw
    | _ => exact ⟨_, List.mem_singleton.2 rfl, rfl, rfl⟩
  obtain ⟨attributes, hpointer, hkeys⟩ := hpointer
  obtain ⟨p, hp, hway, hname⟩ := hpassing
  have hmem := hall _ _ _ _ _ _ hpointer p hp hway
  rw [hkeys, hname] at hmem
  revert hmem
  decide +kernel

end Card

end Stencil
