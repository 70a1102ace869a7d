import Stencil.Proofs.Dump.Expressions
import Stencil.Proofs.Tree.Nodes
import Stencil.Template.Dump

/-!
# Templates from their dumps

`Template.ofDump?` reads a dumped template back. What a dump leaves out has one meaning: no
attributes, no content, no hooks, not self-closing, and null. The attributes of a view are the one
place where the dump of a node and a constant could be taken for each other. There an object is
always a node, and a list that ends in objects is an array with sets of attributes.

`Node.ComesBack` says what a node must be like: the words of its directives are those of their
sources, no constant that a view is given is an object or has objects among its items, and an array
has at least one set of attributes.
-/

namespace Stencil

/-! ## Hooks -/

namespace Hook

def ofDump? (v : Value) : Option Hook :=
  match v.textAt? "type" with
  | some "MARKUP_AS" => (v.textsAt? "segments").map .named
  | some "ELEMENT_ON" => do
    return .onElement (← v.textAt? "name") (← (v.field? "expression").bind Expr.ofDump?)
  | some "COMPONENT_ON" => do
    return .onComponent (← v.textAt? "name") (← (v.field? "expression").bind Expr.ofDump?)
  | _ => none

def allIn? : Value → Option (List Hook)
  | .list vs => vs.mapM ofDump?
  | _ => none

/-- Reads the hooks of a dumped node, which may have none. -/
def allOf? (v : Value) : Option (Option (List Hook)) :=
  Value.readIf allIn? (v.field? "hooks")

/-- Every hook comes back from its dump. -/
theorem ofDump?_dump (h : Hook) : ofDump? h.dump = some h := by
  cases h with
  | named ss =>
    have htexts := Value.asTexts?_texts ss
    rw [Expr.texts] at htexts
    simp [ofDump?, dump, htexts]
  | onElement | onComponent => simp [ofDump?, dump, Expr.ofDump?_dump]

theorem allIn?_map_dump (hs : List Hook) : allIn? (.list (hs.map dump)) = some hs := by
  rw [allIn?]
  induction hs with
  | nil => rfl
  | cons h hs ih =>
    rw [List.map_cons, List.mapM_cons, ofDump?_dump, ih]
    rfl

end Hook

/-! ## Reading nodes -/

namespace Node

def directivesIn? : Value → Option (List Directive)
  | .list vs => vs.mapM Directive.ofDump?
  | _ => none

mutual

def ofDump? (v : Value) : Option Node :=
  match v.textAt? "type" with
  | some "TEXT" => (v.textAt? "data").map .text
  | some "DYNAMIC_TEXT" => ((v.field? "expression").bind Term.ofDump?).map .value
  | some "COMMENT" => (v.textAt? "data").map .comment
  | some "DOCTYPE" =>
    (v.textAt? "name").map fun name =>
      .doctype name (v.textAt? "public_id") (v.textAt? "system_id")
  | some "ELEMENT" => do
    let attributes ← v.readAt? "attributes" fun w _ => attributesIn? w
    let content ← v.readAt? "content" fun w _ => nodesIn? w
    return .element (← v.textAt? "tag_name") (attributes.getD []) content
      (v.field? "self_closing").isSome (← Hook.allOf? v)
  | some "CONDITIONAL_BLOCK" => do
    let contents ← v.readAt "contents" fun w _ => contentsIn? w
    return .conditional ((← (v.field? "expressions").bind directivesIn?).zip contents)
  | some "EACH_BLOCK" => do
    let content ← v.readAt "content" fun w _ => nodesIn? w
    let otherwise ← v.readAt? "else_content" fun w _ => nodesIn? w
    return .each (← (v.field? "expression").bind Directive.ofDump?) content otherwise
  | some "BLOCK" => do
    let content ← v.readAt "content" fun w _ => nodesIn? w
    return .block (← (v.field? "expression").bind Directive.ofDump?) content
  | some "VIEW_POINTER" => do
    let attributes ← v.readAt? "view_attributes" fun w _ => viewAttributesIn? w
    return .view (← v.textAt? "name") attributes (← Hook.allOf? v)
  | some "DYNAMIC_VIEW_POINTER" => do
    let name ← v.readAt "name_expression" fun w _ => dynamicOf? w
    let attributes ← v.readAt? "view_attributes" fun w _ => viewAttributesIn? w
    return .dynamicView name attributes (← Hook.allOf? v)
  | _ => none
termination_by sizeOf v

def nodesIn? (v : Value) : Option (List Node) :=
  match v with
  | .list vs => nodesOf? vs
  | _ => none
termination_by sizeOf v

def nodesOf? (vs : List Value) : Option (List Node) :=
  match vs with
  | [] => some []
  | v :: vs => do return (← ofDump? v) :: (← nodesOf? vs)
termination_by sizeOf vs

def contentsIn? (v : Value) : Option (List (List Node)) :=
  match v with
  | .list vs => contentsOf? vs
  | _ => none
termination_by sizeOf v

def contentsOf? (vs : List Value) : Option (List (List Node)) :=
  match vs with
  | [] => some []
  | v :: vs => do return (← nodesIn? v) :: (← contentsOf? vs)
termination_by sizeOf vs

def dynamicOf? (v : Value) : Option Dynamic :=
  if v.textAt? "type" = some "TEMPLATE" then
    (v.readAt "content" fun w _ => nodesIn? w).map .nodes
  else (Term.ofDump? v).map .term
termination_by sizeOf v

def attributeOf? (v : Value) : Option Attribute :=
  match v.textAt? "type" with
  | some "ATTRIBUTE" => some (.literal ((v.field? "data").getD .null))
  | some "DYNAMIC_ATTRIBUTE" => (v.readAt "template" fun w _ => dynamicOf? w).map .dynamic
  | _ => none
termination_by sizeOf v

def attributesIn? (v : Value) : Option Attributes :=
  match v with
  | .object fs => attributesOf? fs
  | _ => none
termination_by sizeOf v

def attributesOf? (fs : List (String × Value)) : Option Attributes :=
  match fs with
  | [] => some []
  | (k, v) :: fs => do return (k, ← attributeOf? v) :: (← attributesOf? fs)
termination_by sizeOf fs

def viewAttributeOf? (v : Value) : Option ViewAttribute :=
  match v with
  | .object fs =>
    match (Value.object fs).field? "expression" with
    | some w => (Term.ofDump? w).map fun t => .wrapped (.term t)
    | none => ((Value.object fs).readAt "template" fun w _ => dynamicOf? w).map .wrapped
  | .list vs =>
    (entriesOf? vs).map fun entries =>
      if entries.isEmpty then .literal (.list vs)
      else .array (vs.filter fun v => !v.isObject) entries
  | v => some (.literal v)
termination_by sizeOf v
decreasing_by
  · assumption
  · decreasing_tactic

def viewAttributesIn? (v : Value) : Option ViewAttributes :=
  match v with
  | .object fs => viewAttributesOf? fs
  | _ => none
termination_by sizeOf v

def viewAttributesOf? (fs : List (String × Value)) : Option ViewAttributes :=
  match fs with
  | [] => some []
  | (k, v) :: fs => do return (k, ← viewAttributeOf? v) :: (← viewAttributesOf? fs)
termination_by sizeOf fs

def entriesOf? (vs : List Value) : Option (List ViewAttributes) :=
  match vs with
  | [] => some []
  | .object fs :: vs => do return (← viewAttributesOf? fs) :: (← entriesOf? vs)
  | _ :: vs => entriesOf? vs
termination_by sizeOf vs

end

/-! ## Fields that may be left out -/

/-- A list that is left out where it is empty. -/
def present? {α : Type} (as : List α) : Option (List α) :=
  if as.isEmpty then none else some as

@[simp]
theorem getD_present? {α : Type} (as : List α) : (present? as).getD [] = as := by
  cases as <;> simp [present?]

theorem eq_of_mem_present? {α : Type} {as as' : List α} (h : as' ∈ present? as) : as' = as := by
  cases as with
  | nil => cases h
  | cons a as => exact (Option.some.inj h).symm

section

variable (k : String)

theorem field?_attributesField (as : Attributes) :
    (Value.object (attributesField (dumpAttributes as))).field? k =
      if "attributes" = k then (present? as).map fun as => .object (dumpAttributes as)
      else none := by
  cases as <;> simp [attributesField, dumpAttributes, present?]

theorem field?_dumpContent (key : String) (content : Option (List Node)) :
    (Value.object (dumpContent key content)).field? k =
      if key = k then content.map fun ns => .list (dumpNodes ns) else none := by
  cases content <;> simp [dumpContent]

theorem field?_dumpViewAttributes? (as : Option ViewAttributes) :
    (Value.object (dumpViewAttributes? as)).field? k =
      if "view_attributes" = k then as.map fun as => .object (dumpViewAttributes as) else none := by
  cases as <;> simp [dumpViewAttributes?]

theorem field?_hooksField (hooks : Option (List Hook)) :
    (Value.object (hooksField hooks)).field? k =
      if "hooks" = k then hooks.map fun hooks => .list (hooks.map Hook.dump) else none := by
  cases hooks <;> simp [hooksField]

end

end Node

/-! ## Nodes that come back -/

/-- Whether a value is an object or a list with an object among its items. -/
def Value.showsObject : Value → Bool
  | .object _ => true
  | .list vs => vs.any isObject
  | _ => false

abbrev ViewAttribute.ComesBack : ViewAttribute → Prop :=
  IsFilled fun v => v.showsObject = false

namespace Node

/-- The directives of a node are told by their sources, and the attributes of a view are filled,
with constants as `P` says. What is inside the node does not count. -/
def IsTold (P : Value → Prop) : Node → Prop
  | .value t => t.IsTold
  | .conditional bs => ∀ b ∈ bs, b.1.IsTold
  | .each d _ _ => d.IsTold
  | .block d _ => d.IsTold
  | .view _ as _ => ∀ es ∈ as, ∀ a ∈ es, a.2.IsFilled P
  | .dynamicView _ as _ => ∀ es ∈ as, ∀ a ∈ es, a.2.IsFilled P
  | _ => True

/-- What a node must be like to come back from its dump. -/
abbrev ComesBack : Node → Prop :=
  IsTold fun v => v.showsObject = false

theorem readIf_present? {α : Type} {f : Value → Option (List α)} {g : List α → Value}
    {as : List α} (h : f (g as) = some as) :
    Value.readIf f ((present? as).map g) = some (present? as) :=
  Value.readIf_map fun as' has' => by rw [eq_of_mem_present? has', h]

/-- Hooks that are missing are told from an empty list of hooks. -/
theorem allOf?_of_field? {v : Value} {hooks : Option (List Hook)}
    (h : v.field? "hooks" = hooks.map fun hooks => .list (hooks.map Hook.dump)) :
    Hook.allOf? v = some hooks := by
  rw [Hook.allOf?, h]
  exact Value.readIf_map fun hooks _ => Hook.allIn?_map_dump hooks

theorem directivesIn?_map_dump {ds : List Directive} (h : ∀ d ∈ ds, d.IsTold) :
    directivesIn? (.list (ds.map Directive.dump)) = some ds := by
  rw [directivesIn?]
  induction ds with
  | nil => rfl
  | cons d ds ih =>
    rw [List.forall_mem_cons] at h
    rw [List.map_cons, List.mapM_cons, d.ofDump?_dump h.1, ih h.2]
    rfl

theorem zip_fst_snd (bs : List (Directive × List Node)) :
    (bs.map Prod.fst).zip (bs.map Prod.snd) = bs := by
  simp [List.zip_map']

/-- The constants in front of the sets of attributes are passed over. -/
theorem entriesOf?_append {given : List Value} (h : (Value.list given).showsObject = false)
    (vs : List Value) : entriesOf? (given ++ vs) = entriesOf? vs := by
  induction given with
  | nil => rfl
  | cons v given ih =>
    simp only [Value.showsObject, List.any_cons, Bool.or_eq_false_iff] at h
    rw [List.cons_append, entriesOf?, ih (by simpa [Value.showsObject] using h.2)]
    rintro fs rfl
    cases h.1

/-- Sets of attributes are dumped as objects, which tells them from the constants in front of them.
-/
theorem isObject_of_mem_dumpEntries {entries : List ViewAttributes} {v : Value}
    (h : v ∈ dumpEntries entries) : v.isObject = true := by
  induction entries with
  | nil => cases h
  | cons as entries ih =>
    rw [dumpEntries, List.mem_cons] at h
    obtain rfl | h := h
    · rfl
    · exact ih h

/-- The constants of an array are those of its items that show no object. -/
theorem filter_append_dumpEntries {given : List Value}
    (h : (Value.list given).showsObject = false) (entries : List ViewAttributes) :
    (given ++ dumpEntries entries).filter (fun v => !v.isObject) = given := by
  rw [List.filter_append, List.filter_eq_self.2, List.filter_eq_nil_iff.2, List.append_nil]
  · intro v hv
    simp [isObject_of_mem_dumpEntries hv]
  · simpa [Value.showsObject] using h

mutual

/-- A node comes back from its dump. -/
theorem ofDump?_dump (n : Node) (h : n.Everywhere ComesBack) : ofDump? n.dump = some n := by
  rw [ofDump?]
  cases n with
  | text data | comment data => simp [dump, tagged]
  | value t => simp [dump, tagged, Term.ofDump?_dump (show t.IsTold from h.1)]
  | doctype name publicId systemId =>
    have hoptional (s : Option String) : (s.map Value.text).bind Value.asText? = s := by
      cases s <;> rfl
    simp [dump, tagged, Value.textAt?, Value.field?_append, Directive.field?_optional, hoptional]
  | element tag as content selfClosing hooks =>
    rw [everywhere_element] at h
    have has := readIf_present? (g := fun as => .object (dumpAttributes as))
      (attributesIn?_dumpAttributes as h.2.1)
    have hcontent := Value.readIf_map (g := fun ns => .list (dumpNodes ns))
      (nodesIn?_content content h.2.2)
    have hflag : (if selfClosing = true then some (Value.bool true) else none).isSome =
        selfClosing := by
      cases selfClosing <;> rfl
    have hhooks : Hook.allOf? (dump (.element tag as content selfClosing hooks)) = some hooks :=
      allOf?_of_field? (by
        simp [dump, tagged, Value.field?_append, field?_attributesField, field?_dumpContent,
          Directive.field?_flag, field?_hooksField])
    simp only [hhooks]
    simp [dump, tagged, Value.field?_append, field?_attributesField, field?_dumpContent,
      Directive.field?_flag, field?_hooksField, has, hcontent, hflag]
  | conditional bs =>
    rw [everywhere_conditional] at h
    have hds : ∀ d ∈ bs.map Prod.fst, d.IsTold := by
      intro d hd
      obtain ⟨b, hb, rfl⟩ := List.mem_map.1 hd
      exact h.1 b hb
    have hdirectives := directivesIn?_map_dump hds
    rw [List.map_map] at hdirectives
    have hmap : (bs.map fun b => b.1.dump) = bs.map (Directive.dump ∘ Prod.fst) := rfl
    simp [dump, tagged, hmap, hdirectives, contentsIn?_dumpBranches bs h.2, zip_fst_snd]
  | each d ns otherwise =>
    rw [everywhere_each] at h
    have hotherwise := Value.readIf_map (g := fun ns => .list (dumpNodes ns))
      (nodesIn?_content otherwise h.2.2)
    simp [dump, tagged, field?_dumpContent, d.ofDump?_dump h.1, nodesIn?_dumpNodes ns h.2.1,
      hotherwise]
  | block d ns =>
    rw [everywhere_block] at h
    simp [dump, tagged, d.ofDump?_dump h.1, nodesIn?_dumpNodes ns h.2]
  | view name as hooks =>
    rw [everywhere_view] at h
    have has := Value.readIf_map (g := fun as => .object (dumpViewAttributes as))
      (viewAttributesIn?_content as h.2 h.1)
    have hhooks : Hook.allOf? (dump (.view name as hooks)) = some hooks :=
      allOf?_of_field? (by
        simp [dump, tagged, Value.field?_append, field?_dumpViewAttributes?, field?_hooksField])
    simp only [hhooks]
    simp [dump, tagged, Value.field?_append, field?_dumpViewAttributes?, field?_hooksField, has]
  | dynamicView name as hooks =>
    rw [everywhere_dynamicView] at h
    have has := Value.readIf_map (g := fun as => .object (dumpViewAttributes as))
      (viewAttributesIn?_content as h.2.2 h.1)
    have hhooks : Hook.allOf? (dump (.dynamicView name as hooks)) = some hooks :=
      allOf?_of_field? (by
        simp [dump, tagged, Value.field?_append, field?_dumpViewAttributes?, field?_hooksField])
    simp only [hhooks]
    simp [dump, tagged, Value.field?_append, field?_dumpViewAttributes?, field?_hooksField, has,
      dynamicOf?_dumpDynamic name h.2.1]
termination_by structural n

/-- Nodes come back from their dumps, in their order. -/
theorem nodesIn?_dumpNodes (ns : List Node) (h : ∀ n ∈ ns, n.Everywhere ComesBack) :
    nodesIn? (.list (dumpNodes ns)) = some ns := by
  rw [nodesIn?]
  cases ns with
  | nil => rw [dumpNodes, nodesOf?]
  | cons n ns =>
    rw [List.forall_mem_cons] at h
    have hns := nodesIn?_dumpNodes ns h.2
    rw [nodesIn?] at hns
    rw [dumpNodes, nodesOf?, ofDump?_dump n h.1, hns]
    rfl
termination_by structural ns

theorem nodesIn?_content (content : Option (List Node))
    (h : ∀ ns ∈ content, ∀ n ∈ ns, n.Everywhere ComesBack) :
    ∀ ns ∈ content, nodesIn? (.list (dumpNodes ns)) = some ns := by
  cases content with
  | none => simp
  | some ns => simpa using nodesIn?_dumpNodes ns (h ns rfl)
termination_by structural content

/-- The branches of a condition come back with their contents. -/
theorem contentsIn?_dumpBranches (bs : List (Directive × List Node))
    (h : ∀ b ∈ bs, ∀ n ∈ b.2, n.Everywhere ComesBack) :
    contentsIn? (.list (dumpBranches bs)) = some (bs.map Prod.snd) := by
  rw [contentsIn?]
  cases bs with
  | nil => rw [dumpBranches, contentsOf?, List.map_nil]
  | cons b bs =>
    obtain ⟨d, ns⟩ := b
    rw [List.forall_mem_cons] at h
    have hbs := contentsIn?_dumpBranches bs h.2
    rw [contentsIn?] at hbs
    rw [dumpBranches, contentsOf?, nodesIn?_dumpNodes ns h.1, hbs]
    rfl
termination_by structural bs

theorem dynamicOf?_dumpDynamic (d : Dynamic) (h : d.Everywhere ComesBack) :
    dynamicOf? (dumpDynamic d) = some d := by
  rw [dynamicOf?]
  cases d with
  | term t =>
    rw [Dynamic.everywhere_term] at h
    simp [dumpDynamic, t.textAt?_dump_ne, Term.ofDump?_dump (show t.IsTold from h)]
  | nodes ns =>
    rw [Dynamic.everywhere_nodes] at h
    simp [dumpDynamic, tagged, nodesIn?_dumpNodes ns h]
termination_by structural d

theorem attributeOf?_dumpAttribute (a : Attribute) (h : a.Everywhere ComesBack) :
    attributeOf? (dumpAttribute a) = some a := by
  rw [attributeOf?]
  cases a with
  | literal v => cases v <;> simp [dumpAttribute, tagged]
  | dynamic d =>
    rw [Attribute.everywhere_dynamic] at h
    simp [dumpAttribute, tagged, dynamicOf?_dumpDynamic d h]
termination_by structural a

theorem attributesIn?_dumpAttributes (as : List (String × Attribute))
    (h : ∀ a ∈ as, a.2.Everywhere ComesBack) :
    attributesIn? (.object (dumpAttributes as)) = some as := by
  rw [attributesIn?]
  cases as with
  | nil => rw [dumpAttributes, attributesOf?]
  | cons a as =>
    obtain ⟨k, a⟩ := a
    rw [List.forall_mem_cons] at h
    have has := attributesIn?_dumpAttributes as h.2
    rw [attributesIn?] at has
    rw [dumpAttributes, attributesOf?, attributeOf?_dumpAttribute a h.1, has]
    rfl
termination_by structural as

/-- An attribute of a view comes back if its constants can be told from its entries. -/
theorem viewAttributeOf?_dumpViewAttribute (a : ViewAttribute) (h : a.Everywhere ComesBack)
    (ha : a.ComesBack) : viewAttributeOf? (dumpViewAttribute a) = some a := by
  cases a with
  | literal v =>
    cases ha with
    | literal hv =>
      cases v with
      | object fs => cases hv
      | list vs =>
        have hnone := entriesOf?_append hv []
        rw [List.append_nil] at hnone
        rw [dumpViewAttribute, viewAttributeOf?, hnone, entriesOf?]
        rfl
      | _ => simp [dumpViewAttribute, viewAttributeOf?]
  | wrapped d =>
    rw [ViewAttribute.everywhere_wrapped] at h
    have hd := dynamicOf?_dumpDynamic d h
    cases d with
    | term t =>
      rw [Dynamic.everywhere_term] at h
      simp [dumpViewAttribute, dumpWrapped, tagged, viewAttributeOf?,
        Term.ofDump?_dump (show t.IsTold from h)]
    | nodes ns =>
      rw [dumpDynamic, tagged] at hd
      simp [dumpViewAttribute, dumpWrapped, tagged, viewAttributeOf?, hd]
  | array given entries =>
    rw [ViewAttribute.everywhere_array] at h
    cases ha with
    | array hgiven hentries ha =>
      rw [dumpViewAttribute, viewAttributeOf?, entriesOf?_append hgiven,
        entriesOf?_dumpEntries entries h ha, filter_append_dumpEntries hgiven]
      simp [hentries]
termination_by structural a

theorem viewAttributesIn?_dumpViewAttributes (as : List (String × ViewAttribute))
    (h : ∀ a ∈ as, a.2.Everywhere ComesBack) (ha : ∀ a ∈ as, a.2.ComesBack) :
    viewAttributesIn? (.object (dumpViewAttributes as)) = some as := by
  rw [viewAttributesIn?]
  cases as with
  | nil => rw [dumpViewAttributes, viewAttributesOf?]
  | cons a as =>
    obtain ⟨k, a⟩ := a
    rw [List.forall_mem_cons] at h ha
    have has := viewAttributesIn?_dumpViewAttributes as h.2 ha.2
    rw [viewAttributesIn?] at has
    rw [dumpViewAttributes, viewAttributesOf?, viewAttributeOf?_dumpViewAttribute a h.1 ha.1, has]
    rfl
termination_by structural as

theorem viewAttributesIn?_content (as : Option (List (String × ViewAttribute)))
    (h : ∀ es ∈ as, ∀ a ∈ es, a.2.Everywhere ComesBack) (ha : ∀ es ∈ as, ∀ a ∈ es, a.2.ComesBack) :
    ∀ es ∈ as, viewAttributesIn? (.object (dumpViewAttributes es)) = some es := by
  cases as with
  | none => simp
  | some es => simpa using viewAttributesIn?_dumpViewAttributes es (h es rfl) (ha es rfl)
termination_by structural as

/-- The sets of attributes of an array come back. -/
theorem entriesOf?_dumpEntries (entries : List (List (String × ViewAttribute)))
    (h : ∀ as ∈ entries, ∀ a ∈ as, a.2.Everywhere ComesBack)
    (ha : ∀ as ∈ entries, ∀ a ∈ as, a.2.ComesBack) :
    entriesOf? (dumpEntries entries) = some entries := by
  cases entries with
  | nil => rw [dumpEntries, entriesOf?]
  | cons as entries =>
    rw [List.forall_mem_cons] at h ha
    have has := viewAttributesIn?_dumpViewAttributes as h.1 ha.1
    rw [viewAttributesIn?] at has
    rw [dumpEntries, entriesOf?, has, entriesOf?_dumpEntries entries h.2 ha.2]
    rfl
termination_by structural entries

end

end Node

def Template.ofDump? (v : Value) : Option Template :=
  if v.textAt? "type" = some "TEMPLATE" then
    ((v.field? "content").bind Node.nodesIn?).map Template.mk
  else none

/-- A template comes back from its dump. -/
theorem Template.ofDump?_dump {t : Template} (h : ∀ n ∈ t.nodes, n.ComesBack) :
    ofDump? t.dump = some t := by
  rw [Template.forall_mem_nodes] at h
  simp [ofDump?, dump, Node.tagged, Node.nodesIn?_dumpNodes t.content h]

end Stencil
