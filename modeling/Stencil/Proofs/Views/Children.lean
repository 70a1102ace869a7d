import Mathlib.Data.List.Forall2
import Stencil.Proofs.Tree.Pointers

/-!
# The children of a view's element

A child of the element gives an attribute, adds an entry to an array or belongs to the body. For
each name the children that add entries come before those that give the attribute, and the last of
these counts. Without them the value is what was there before with the entries behind it; only a
name without a value and a constant list can be extended.
-/

namespace Stencil.ViewAttributes

open Entries (valuesOf)
open Expr.Grammar (bind_eq_ok)

/-! ## What a child is -/

/-- The name that a child has as a literal text. -/
def literalName? (as : Attributes) : Option String :=
  match Entries.get? "name" as with
  | some (.literal (.text s)) => some s
  | _ => none

/-- The name and content of a child that gives an attribute: one tagged so, or one whose tag the
view declares. -/
def givenAttribute? (v : View) : Node → Option (String × List Node)
  | .element tag as content _ _ =>
    if tag = "attribute" then (literalName? as).map fun name => (name, content.getD [])
    else if v.hasAttribute tag then some (tag, content.getD [])
    else none
  | _ => none

/-- The array, the attributes and the content of a child that adds an entry: one tagged `array`,
which names the array, or one whose tag the view declares. -/
def givenItem? (v : View) : Node → Option (String × Attributes × List Node)
  | .element tag as content _ _ =>
    if tag = "attribute" ∨ v.hasAttribute tag = true then none
    else if tag = "array" then
      (literalName? as).map fun name => (name, Entries.erase "name" as, content.getD [])
    else (Entries.get? tag v.arrays).map fun name => (name, as, content.getD [])
  | _ => none

/-- The children that are no elements with one of the tags for attributes and arrays. -/
def isBody (v : View) : Node → Bool
  | .element tag _ _ _ _ =>
    tag ≠ "attribute" && !v.hasAttribute tag && tag ≠ "array" && !Entries.has tag v.arrays
  | _ => true

def entryOf (item : Attributes × List Node) : ViewAttributes :=
  withContent item.2 (ofAttributes item.1)

variable {v : View} {as all : ViewAttributes} {children body : List Node}

def contentsOf (v : View) (k : String) (children : List Node) : List (List Node) :=
  valuesOf k (children.filterMap (givenAttribute? v))

def itemsOf (v : View) (k : String) (children : List Node) : List (Attributes × List Node) :=
  valuesOf k (children.filterMap (givenItem? v))

@[simp]
theorem contentsOf_append (k : String) (front back : List Node) :
    contentsOf v k (front ++ back) = contentsOf v k front ++ contentsOf v k back := by
  simp [contentsOf]

@[simp]
theorem itemsOf_append (k : String) (front back : List Node) :
    itemsOf v k (front ++ back) = itemsOf v k front ++ itemsOf v k back := by
  simp [itemsOf]

theorem contentsOf_cons (k : String) (n : Node) (children : List Node) :
    contentsOf v k (n :: children) = contentsOf v k [n] ++ contentsOf v k children :=
  contentsOf_append k [n] children

theorem itemsOf_cons (k : String) (n : Node) (children : List Node) :
    itemsOf v k (n :: children) = itemsOf v k [n] ++ itemsOf v k children :=
  itemsOf_append k [n] children

theorem childName_eq_ok {tag name : String} {own rest : Attributes}
    (h : childName tag own = .ok (name, rest)) :
    literalName? own = some name ∧ rest = Entries.erase "name" own := by
  rw [childName] at h
  split at h
  · rename_i hget
    split at h
    · cases h
    · cases h
      exact ⟨by rw [literalName?, hget], rfl⟩
  · cases h

/-- What a role says of the child: the attribute and the item that it gives. -/
structure ChildRole.Tells (v : View) (n : Node) (named? : Option (String × List Node))
    (item? : Option (String × Attributes × List Node)) (body : Bool) : Prop where
  named : givenAttribute? v n = named?
  item : givenItem? v n = item?
  body : isBody v n = body

def ChildRole.Told (v : View) (n : Node) : ChildRole → Prop
  | .named name content => Tells v n (some (name, content)) none false
  | .item name own content => Tells v n none (some (name, own, content)) false
  | .body => Tells v n none none true

theorem told_of_childRole {n : Node} {role : ChildRole} (h : childRole v n = .ok role) :
    role.Told v n := by
  cases n with
  | element tag own content selfClosing hooks =>
    rw [childRole] at h
    dsimp only at h
    split at h
    · rename_i htag
      obtain ⟨⟨name, rest⟩, hname, rfl⟩ := exists_of_map_eq_ok h
      obtain ⟨hliteral, -⟩ := childName_eq_ok hname
      constructor <;> simp [givenAttribute?, givenItem?, isBody, htag, hliteral]
    · rename_i htag
      split at h
      · rename_i hdeclared
        cases h
        constructor <;> simp [givenAttribute?, givenItem?, isBody, htag, hdeclared]
      · rename_i hdeclared
        split at h
        · rename_i harray
          obtain ⟨⟨name, rest⟩, hname, rfl⟩ := exists_of_map_eq_ok h
          obtain ⟨hliteral, rfl⟩ := childName_eq_ok hname
          constructor <;>
            simp_all [givenAttribute?, givenItem?, isBody]
        · rename_i harray
          split at h
          · rename_i name hget
            cases h
            constructor <;>
              simp [givenAttribute?, givenItem?, isBody, Entries.has, htag, hdeclared, harray, hget]
          · rename_i hget
            cases h
            constructor <;>
              simp [givenAttribute?, givenItem?, isBody, Entries.has, htag, hdeclared, harray, hget]
  | _ =>
    cases h
    exact ⟨rfl, rfl, rfl⟩

/-! ## The body -/

/-- The body is the children that give nothing else, in their order. -/
theorem body_of_split (h : split v as children = .ok (body, all)) :
    body = children.filter (isBody v) := by
  induction children generalizing as body with
  | nil =>
    cases h
    rfl
  | cons n children ih =>
    obtain ⟨role, hrole, hrest⟩ := bind_eq_ok.1 h
    have htold := told_of_childRole hrole
    cases role with
    | named name content => rw [ih hrest, List.filter_cons_of_neg (by simp [htold.body])]
    | item name own content =>
      obtain ⟨as', -, hmore⟩ := bind_eq_ok.1 hrest
      rw [ih hmore, List.filter_cons_of_neg (by simp [htold.body])]
    | body =>
      obtain ⟨⟨body', all'⟩, hsplit, hok⟩ := bind_eq_ok.1 hrest
      cases hok
      rw [ih hsplit, List.filter_cons_of_pos htold.body]

/-! ## The values -/

/-- A value that entries can be added to. -/
def Extendable : Option ViewAttribute → Prop
  | none | some (.array _ _) | some (.literal (.list _)) => True
  | _ => False

def extended (entries : List ViewAttributes) : Option ViewAttribute → Option ViewAttribute
  | none => if entries.isEmpty then none else some (.array [] entries)
  | some (.array given before) => some (.array given (before ++ entries))
  | some (.literal (.list given)) =>
    if entries.isEmpty then some (.literal (.list given)) else some (.array given entries)
  | some a => some a

@[simp]
theorem extended_nil (a? : Option ViewAttribute) : extended [] a? = a? := by
  unfold extended
  split <;> simp

/-- Adding an entry and then more of them. -/
theorem extended_addEntry {name : String} {entry as' : ViewAttributes}
    (h : addEntry name entry as = .ok as') :
    Extendable (Entries.get? name as) ∧ ∀ entries, extended entries (Entries.get? name as') =
      extended (entry :: entries) (Entries.get? name as) := by
  rw [addEntry] at h
  split at h <;> rename_i hget
  · cases h
    simp [hget, Extendable, extended]
  · cases h
    simp [hget, Extendable, extended]
  · cases h
    simp [hget, Extendable, extended]
  · cases h

theorem get?_of_addEntry {name k : String} {entry as' : ViewAttributes}
    (h : addEntry name entry as = .ok as') (hk : name ≠ k) :
    Entries.get? k as' = Entries.get? k as := by
  rw [addEntry] at h
  split at h <;> cases h <;> exact Entries.get?_set_of_ne hk _ _

/-- What the children make of a value: entries first, then contents, of which the last counts. -/
structure Adds (v : View) (k : String) (children : List Node) (a? a?' : Option ViewAttribute) :
    Prop where
  order : ∃ front back, children = front ++ back ∧ contentsOf v k front = [] ∧
    itemsOf v k back = []
  extendable : itemsOf v k children ≠ [] → Extendable a?
  value : a?' = match (contentsOf v k children).getLast? with
    | some content => some (.wrapped (.nodes content))
    | none => extended ((itemsOf v k children).map entryOf) a?

/-- A child that gives nothing for the name. -/
theorem Adds.skip {k : String} {n : Node} {a? a?' : Option ViewAttribute}
    (h : Adds v k children a? a?') (hcontents : contentsOf v k [n] = [])
    (hitems : itemsOf v k [n] = []) : Adds v k (n :: children) a? a?' := by
  have hcontents' : contentsOf v k (n :: children) = contentsOf v k children := by
    rw [contentsOf_cons, hcontents, List.nil_append]
  have hitems' : itemsOf v k (n :: children) = itemsOf v k children := by
    rw [itemsOf_cons, hitems, List.nil_append]
  obtain ⟨front, back, rfl, hfront, hback⟩ := h.order
  refine ⟨⟨n :: front, back, rfl, ?_, hback⟩, ?_, ?_⟩
  · rw [contentsOf_cons, hcontents, hfront, List.nil_append]
  · rw [hitems']
    exact h.extendable
  · rw [hcontents', hitems']
    exact h.value

/-- A child that gives the attribute, in front of others. No entry is added to a content, so all
that follow give the attribute again. -/
theorem Adds.content {k : String} {n : Node} {content : List Node} {a? a?' : Option ViewAttribute}
    (h : Adds v k children (some (.wrapped (.nodes content))) a?')
    (hcontents : contentsOf v k [n] = [content]) (hitems : itemsOf v k [n] = []) :
    Adds v k (n :: children) a? a?' := by
  have hnone : itemsOf v k children = [] :=
    Classical.byContradiction fun hne => h.extendable hne
  have hcontents' : contentsOf v k (n :: children) = content :: contentsOf v k children := by
    rw [contentsOf_cons, hcontents, List.singleton_append]
  have hitems' : itemsOf v k (n :: children) = [] := by
    rw [itemsOf_cons, hitems, hnone, List.nil_append]
  refine ⟨⟨[], n :: children, rfl, rfl, hitems'⟩, fun hne => absurd hitems' hne, ?_⟩
  rw [h.value, hcontents', hnone, List.getLast?_cons]
  cases (contentsOf v k children).getLast? <;> rfl

/-- A child that adds an entry, in front of others. -/
theorem Adds.item {k : String} {n : Node} {item : Attributes × List Node}
    {a? b? a?' : Option ViewAttribute} (h : Adds v k children b? a?')
    (hcontents : contentsOf v k [n] = []) (hitems : itemsOf v k [n] = [item])
    (hextendable : Extendable a?)
    (hadd : ∀ entries, extended entries b? = extended (entryOf item :: entries) a?) :
    Adds v k (n :: children) a? a?' := by
  have hcontents' : contentsOf v k (n :: children) = contentsOf v k children := by
    rw [contentsOf_cons, hcontents, List.nil_append]
  have hitems' : itemsOf v k (n :: children) = item :: itemsOf v k children := by
    rw [itemsOf_cons, hitems, List.singleton_append]
  obtain ⟨front, back, rfl, hfront, hback⟩ := h.order
  refine ⟨⟨n :: front, back, rfl, ?_, hback⟩, fun _ => hextendable, ?_⟩
  · rw [contentsOf_cons, hcontents, hfront, List.nil_append]
  · rw [hcontents', hitems', List.map_cons, ← hadd]
    exact h.value

/-- By induction along the children, with the attributes that are there so far. -/
theorem adds_of_split (h : split v as children = .ok (body, all)) (k : String) :
    Adds v k children (Entries.get? k as) (Entries.get? k all) := by
  induction children generalizing as body with
  | nil =>
    cases h
    exact ⟨⟨[], [], rfl, rfl, rfl⟩, by simp [itemsOf], by simp [itemsOf, contentsOf]⟩
  | cons n children ih =>
    obtain ⟨role, hrole, hrest⟩ := bind_eq_ok.1 h
    have htold := told_of_childRole hrole
    cases role with
    | named name content =>
      have hmore := ih hrest
      have hitems : itemsOf v k [n] = [] := by simp [itemsOf, htold.item]
      by_cases hk : name = k
      · subst hk
        rw [Entries.get?_set_self] at hmore
        exact hmore.content (by simp [contentsOf, htold.named]) hitems
      · rw [Entries.get?_set_of_ne hk] at hmore
        exact hmore.skip (by simp [contentsOf, htold.named, hk]) hitems
    | item name own content =>
      obtain ⟨as', hadd, hrest⟩ := bind_eq_ok.1 hrest
      have hmore := ih hrest
      have hcontents : contentsOf v k [n] = [] := by simp [contentsOf, htold.named]
      by_cases hk : name = k
      · subst hk
        obtain ⟨hextendable, hextended⟩ := extended_addEntry hadd
        have hitems : itemsOf v name [n] = [(own, content)] := by simp [itemsOf, htold.item]
        exact hmore.item hcontents hitems hextendable hextended
      · rw [get?_of_addEntry hadd hk] at hmore
        exact hmore.skip hcontents (by simp [itemsOf, htold.item, hk])
    | body =>
      obtain ⟨⟨body', all'⟩, hsplit, hok⟩ := bind_eq_ok.1 hrest
      cases hok
      have hmore := ih hsplit
      exact hmore.skip (by simp [contentsOf, htold.named]) (by simp [itemsOf, htold.item])

/-! ## Body, attributes and arrays -/

/-- The value of a name among the attributes of an item: the last attribute that is called so with
capitals inside; without one, the item's content is called `content`, if there is any. -/
def entryValue? (item : Attributes × List Node) (k : String) : Option ViewAttribute :=
  match (valuesOf k (item.1.map fun a => (Text.camel a.1, ofAttribute a.2))).getLast? with
  | some a => some a
  | none => if k = "content" ∧ item.2 ≠ [] then some (.wrapped (.nodes item.2)) else none

theorem get?_withContent (body : List Node) (as : ViewAttributes) (k : String) :
    Entries.get? k (withContent body as) =
      if k = "content" ∧ body ≠ [] ∧ Entries.get? "content" as = none then
        some (.wrapped (.nodes body))
      else Entries.get? k as := by
  rw [withContent]
  split
  · rename_i hkeep
    rw [if_neg]
    rintro ⟨-, hbody, hnone⟩
    simp [hbody, Entries.has, hnone] at hkeep
  · rename_i hadd
    by_cases hk : k = "content"
    · subst hk
      rw [Entries.get?_set_self, if_pos]
      simpa [Entries.has] using hadd
    · rw [Entries.get?_set_of_ne (Ne.symm hk), if_neg fun h => hk h.1]

theorem get?_entryOf (item : Attributes × List Node) (k : String) :
    Entries.get? k (entryOf item) = entryValue? item k := by
  rw [entryOf, get?_withContent, ofAttributes, Entries.get?_ofPairs, Entries.get?_ofPairs,
    entryValue?]
  by_cases hk : k = "content"
  · subst hk
    cases (valuesOf "content" (item.1.map fun a => (Text.camel a.1, ofAttribute a.2))).getLast? <;>
      simp
  · cases (valuesOf k (item.1.map fun a => (Text.camel a.1, ofAttribute a.2))).getLast? <;>
      simp [hk]

/-- The children of a view's element are split into body, attributes and arrays. Each attribute has
the content of its last child, each array one entry a child, all other names keep their values, and
the pointer that the element becomes has the body as its content unless there is one. -/
theorem split_children (h : split v as children = .ok (body, all))
    (hapart : ∀ k, contentsOf v k children = [] ∨ itemsOf v k children = [])
    (hnew : ∀ k, itemsOf v k children ≠ [] → Entries.get? k as = none) :
    body = children.filter (isBody v) ∧
      (∀ k content, (contentsOf v k children).getLast? = some content →
        Entries.get? k all = some (.wrapped (.nodes content))) ∧
      (∀ k, itemsOf v k children ≠ [] → ∃ entries, Entries.get? k all = some (.array [] entries) ∧
        List.Forall₂ (fun item entry => ∀ k', Entries.get? k' entry = entryValue? item k')
          (itemsOf v k children) entries) ∧
      (∀ k, contentsOf v k children = [] → itemsOf v k children = [] →
        Entries.get? k all = Entries.get? k as) ∧
      ∀ own hooks, declared (ofAttributes own) = .ok (hooks, as) →
        ∃ attributes, pointer v own children = .ok (.view v.name (some attributes) hooks) ∧
          ∀ k, Entries.get? k attributes =
            if k = "content" ∧ body ≠ [] ∧ Entries.get? "content" all = none then
              some (.wrapped (.nodes body))
            else Entries.get? k all := by
  refine ⟨body_of_split h, ?_, ?_, ?_, ?_⟩
  · intro k content hcontent
    rw [(adds_of_split h k).value, hcontent]
  · intro k hitems
    have hcontents : contentsOf v k children = [] := (hapart k).resolve_right hitems
    refine ⟨(itemsOf v k children).map entryOf, ?_, ?_⟩
    · rw [(adds_of_split h k).value, hcontents, hnew k hitems]
      simp [extended, hitems]
    · exact List.forall₂_map_right_iff.2 (List.forall₂_same.2 fun item _ => get?_entryOf item)
  · intro k hcontents hitems
    rw [(adds_of_split h k).value, hcontents, hitems]
    simp
  · intro own hooks hdeclared
    refine ⟨withContent body all, ?_, get?_withContent body all⟩
    rw [pointer, hdeclared]
    change (split v as children >>= _) = _
    rw [h]
    rfl

def card : View :=
  ⟨"card", "", .null, .null, [.text "card"], [.text "title"], [("item", "items")], none⟩

def cardChildren : List Node :=
  [.text "a", .element "title" [] (some [.text "t"]) false none,
    .element "item" [("data-id", .literal (.text "1"))] (some [.text "x"]) false none,
    .element "array" [("name", .literal (.text "items")), ("content", .literal (.text "y"))]
      (some [.text "z"]) false none]

theorem split_children_card :
    ∃ all, split card [] cardChildren = .ok ([.text "a"], all) ∧
      (∀ k, contentsOf card k cardChildren = [] ∨ itemsOf card k cardChildren = []) ∧
      (∀ k, itemsOf card k cardChildren ≠ [] → Entries.get? k ([] : ViewAttributes) = none) ∧
      Entries.get? "title" all = some (.wrapped (.nodes [.text "t"])) ∧
      ∃ entries, Entries.get? "items" all = some (.array [] entries) ∧
        List.Forall₂ (fun item entry => ∀ k', Entries.get? k' entry = entryValue? item k')
          (itemsOf card "items" cardChildren) entries := by
  have hsplit : ∃ all, split card [] cardChildren = .ok ([.text "a"], all) := ⟨_, by rfl⟩
  obtain ⟨all, hall⟩ := hsplit
  have hcontents (k : String) :
      contentsOf card k cardChildren = valuesOf k [("title", [.text "t"])] := by rfl
  have hitems (k : String) : itemsOf card k cardChildren =
      valuesOf k [("items", [("data-id", .literal (.text "1"))], [.text "x"]),
        ("items", [("content", .literal (.text "y"))], [.text "z"])] := by rfl
  have hapart (k : String) : contentsOf card k cardChildren = [] ∨ itemsOf card k cardChildren = [] := by
    rw [hcontents, hitems]
    by_cases hk : "items" = k
    · subst hk
      exact .inl (by simp)
    · exact .inr (by simp [hk])
  have hnew (k : String) (_ : itemsOf card k cardChildren ≠ []) :
      Entries.get? k ([] : ViewAttributes) = none := rfl
  obtain ⟨-, hattributes, harrays, -⟩ := split_children hall hapart hnew
  refine ⟨all, hall, hapart, hnew, hattributes "title" _ ?_, harrays "items" ?_⟩
  · rw [hcontents]
    rfl
  · rw [hitems]
    simp

end Stencil.ViewAttributes
