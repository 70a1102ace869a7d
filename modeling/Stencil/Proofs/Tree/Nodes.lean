import Stencil.Template.Node

/-!
# All nodes of a tree

A tree holds nodes not only in the content of its elements and blocks. The value of an attribute may
be a small template, and so may the name of a view; the attributes of a view may hold templates and
arrays of further attributes. `Template.nodes` lists the nodes in all these places. An expression
that stands where a template might stand counts as the value that it shows.

`Everywhere P` says that a node and all nodes inside it are as `P` says. The lemmas take it apart
along the constructors, so that nothing else needs to look into the lists.
-/

namespace Stencil

namespace Node

mutual

/-- The nodes inside a node, in source order, each before those inside it. -/
def descendants : Node → List Node
  | .element _ as content _ _ => descendantsAttributes as ++ descendantsContent content
  | .conditional bs => descendantsBranches bs
  | .each _ ns otherwise => descendantsAll ns ++ descendantsContent otherwise
  | .block _ ns => descendantsAll ns
  | .view _ as _ => descendantsViewAttributes? as
  | .dynamicView name as _ => descendantsDynamic name ++ descendantsViewAttributes? as
  | _ => []
termination_by structural n => n

def descendantsAll : List Node → List Node
  | [] => []
  | n :: ns => n :: (descendants n ++ descendantsAll ns)
termination_by structural ns => ns

def descendantsContent : Option (List Node) → List Node
  | none => []
  | some ns => descendantsAll ns
termination_by structural content => content

def descendantsBranches : List (Directive × List Node) → List Node
  | [] => []
  | (_, ns) :: bs => descendantsAll ns ++ descendantsBranches bs
termination_by structural bs => bs

def descendantsDynamic : Dynamic → List Node
  | .term t => [.value t]
  | .nodes ns => descendantsAll ns
termination_by structural d => d

def descendantsAttribute : Attribute → List Node
  | .literal _ => []
  | .dynamic d => descendantsDynamic d
termination_by structural a => a

def descendantsAttributes : List (String × Attribute) → List Node
  | [] => []
  | (_, a) :: as => descendantsAttribute a ++ descendantsAttributes as
termination_by structural as => as

def descendantsViewAttribute : ViewAttribute → List Node
  | .literal _ => []
  | .wrapped d => descendantsDynamic d
  | .array _ entries => descendantsEntries entries
termination_by structural a => a

def descendantsViewAttributes : List (String × ViewAttribute) → List Node
  | [] => []
  | (_, a) :: as => descendantsViewAttribute a ++ descendantsViewAttributes as
termination_by structural as => as

def descendantsViewAttributes? : Option (List (String × ViewAttribute)) → List Node
  | none => []
  | some as => descendantsViewAttributes as
termination_by structural as => as

def descendantsEntries : List (List (String × ViewAttribute)) → List Node
  | [] => []
  | as :: es => descendantsViewAttributes as ++ descendantsEntries es
termination_by structural es => es

end

end Node

/-- All nodes of a template, wherever they stand. -/
def Template.nodes (t : Template) : List Node :=
  Node.descendantsAll t.content

/-- The constants of a view's attribute are as `P` says, and an array has sets of attributes. -/
inductive ViewAttribute.IsFilled (P : Value → Prop) : ViewAttribute → Prop where
  | literal {v : Value} (h : P v) : IsFilled P (.literal v)
  | wrapped (d : Dynamic) : IsFilled P (.wrapped d)
  | array {given : List Value} {entries : List ViewAttributes} (hgiven : P (.list given))
      (hentries : entries ≠ []) (h : ∀ as ∈ entries, ∀ a ∈ as, a.2.IsFilled P) :
      IsFilled P (.array given entries)

/-! ## Properties of all nodes -/

section

variable (P : Node → Prop)

/-- A node and all nodes inside it are as `P` says. -/
def Node.Everywhere (n : Node) : Prop :=
  P n ∧ ∀ m ∈ n.descendants, P m

def Dynamic.Everywhere (d : Dynamic) : Prop :=
  ∀ m ∈ Node.descendantsDynamic d, P m

def Attribute.Everywhere (a : Attribute) : Prop :=
  ∀ m ∈ Node.descendantsAttribute a, P m

def ViewAttribute.Everywhere (a : ViewAttribute) : Prop :=
  ∀ m ∈ Node.descendantsViewAttribute a, P m

end

variable {P Q : Node → Prop}

theorem Node.Everywhere.mono {n : Node} (h : n.Everywhere P) (hPQ : ∀ m, P m → Q m) :
    n.Everywhere Q :=
  ⟨hPQ n h.1, fun m hm => hPQ m (h.2 m hm)⟩

namespace Node

attribute [local simp] descendants descendantsAll descendantsContent descendantsBranches
  descendantsDynamic descendantsAttribute descendantsAttributes descendantsViewAttribute
  descendantsViewAttributes descendantsViewAttributes? descendantsEntries

@[simp]
theorem forall_mem_descendantsAll {ns : List Node} :
    (∀ m ∈ descendantsAll ns, P m) ↔ ∀ n ∈ ns, n.Everywhere P := by
  induction ns with
  | nil => simp
  | cons n ns ih =>
    rw [descendantsAll, List.forall_mem_cons, List.forall_mem_append, List.forall_mem_cons, ih,
      Everywhere, and_assoc]

@[simp]
theorem forall_mem_descendantsContent {content : Option (List Node)} :
    (∀ m ∈ descendantsContent content, P m) ↔ ∀ ns ∈ content, ∀ n ∈ ns, n.Everywhere P := by
  cases content <;> simp

@[simp]
theorem forall_mem_descendantsBranches {bs : List (Directive × List Node)} :
    (∀ m ∈ descendantsBranches bs, P m) ↔ ∀ b ∈ bs, ∀ n ∈ b.2, n.Everywhere P := by
  induction bs with
  | nil => simp
  | cons b bs ih =>
    rw [descendantsBranches, List.forall_mem_append, forall_mem_descendantsAll, ih,
      List.forall_mem_cons]

@[simp]
theorem forall_mem_descendantsAttributes {as : Attributes} :
    (∀ m ∈ descendantsAttributes as, P m) ↔ ∀ a ∈ as, a.2.Everywhere P := by
  induction as with
  | nil => simp
  | cons a as ih =>
    rw [descendantsAttributes, List.forall_mem_append, ih, List.forall_mem_cons,
      Attribute.Everywhere]

@[simp]
theorem forall_mem_descendantsViewAttributes {as : ViewAttributes} :
    (∀ m ∈ descendantsViewAttributes as, P m) ↔ ∀ a ∈ as, a.2.Everywhere P := by
  induction as with
  | nil => simp
  | cons a as ih =>
    rw [descendantsViewAttributes, List.forall_mem_append, ih, List.forall_mem_cons,
      ViewAttribute.Everywhere]

@[simp]
theorem forall_mem_descendantsViewAttributes? {as : Option ViewAttributes} :
    (∀ m ∈ descendantsViewAttributes? as, P m) ↔ ∀ es ∈ as, ∀ a ∈ es, a.2.Everywhere P := by
  cases as <;> simp

@[simp]
theorem forall_mem_descendantsEntries {es : List ViewAttributes} :
    (∀ m ∈ descendantsEntries es, P m) ↔ ∀ as ∈ es, ∀ a ∈ as, a.2.Everywhere P := by
  induction es with
  | nil => simp
  | cons as es ih =>
    rw [descendantsEntries, List.forall_mem_append, forall_mem_descendantsViewAttributes, ih,
      List.forall_mem_cons]

theorem everywhere_of_leaf {n : Node} (hleaf : n.descendants = []) (h : P n) : n.Everywhere P :=
  ⟨h, by simp [hleaf]⟩

@[simp]
theorem everywhere_element {tag : String} {as : Attributes} {content : Option (List Node)}
    {selfClosing : Bool} {hooks : Option (List Hook)} :
    (element tag as content selfClosing hooks).Everywhere P ↔
      P (element tag as content selfClosing hooks) ∧ (∀ a ∈ as, a.2.Everywhere P) ∧
        ∀ ns ∈ content, ∀ n ∈ ns, n.Everywhere P := by
  rw [Everywhere, descendants, List.forall_mem_append, forall_mem_descendantsAttributes,
    forall_mem_descendantsContent]

@[simp]
theorem everywhere_conditional {bs : List (Directive × List Node)} :
    (conditional bs).Everywhere P ↔
      P (conditional bs) ∧ ∀ b ∈ bs, ∀ n ∈ b.2, n.Everywhere P := by
  rw [Everywhere, descendants, forall_mem_descendantsBranches]

@[simp]
theorem everywhere_each {d : Directive} {ns : List Node} {otherwise : Option (List Node)} :
    (each d ns otherwise).Everywhere P ↔
      P (each d ns otherwise) ∧ (∀ n ∈ ns, n.Everywhere P) ∧
        ∀ ms ∈ otherwise, ∀ n ∈ ms, n.Everywhere P := by
  rw [Everywhere, descendants, List.forall_mem_append, forall_mem_descendantsAll,
    forall_mem_descendantsContent]

@[simp]
theorem everywhere_block {d : Directive} {ns : List Node} :
    (block d ns).Everywhere P ↔ P (block d ns) ∧ ∀ n ∈ ns, n.Everywhere P := by
  rw [Everywhere, descendants, forall_mem_descendantsAll]

@[simp]
theorem everywhere_view {name : String} {as : Option ViewAttributes} {hooks : Option (List Hook)} :
    (view name as hooks).Everywhere P ↔
      P (view name as hooks) ∧ ∀ es ∈ as, ∀ a ∈ es, a.2.Everywhere P := by
  rw [Everywhere, descendants, forall_mem_descendantsViewAttributes?]

@[simp]
theorem everywhere_dynamicView {name : Dynamic} {as : Option ViewAttributes}
    {hooks : Option (List Hook)} :
    (dynamicView name as hooks).Everywhere P ↔
      P (dynamicView name as hooks) ∧ name.Everywhere P ∧
        ∀ es ∈ as, ∀ a ∈ es, a.2.Everywhere P := by
  rw [Everywhere, descendants, List.forall_mem_append, forall_mem_descendantsViewAttributes?,
    Dynamic.Everywhere]

end Node

@[simp]
theorem Dynamic.everywhere_term {t : Term} : (Dynamic.term t).Everywhere P ↔ P (.value t) := by
  simp [Dynamic.Everywhere, Node.descendantsDynamic]

@[simp]
theorem Dynamic.everywhere_nodes {ns : List Node} :
    (Dynamic.nodes ns).Everywhere P ↔ ∀ n ∈ ns, n.Everywhere P := by
  rw [Dynamic.Everywhere, Node.descendantsDynamic, Node.forall_mem_descendantsAll]

@[simp]
theorem Attribute.everywhere_literal {v : Value} : (Attribute.literal v).Everywhere P := by
  simp [Attribute.Everywhere, Node.descendantsAttribute]

@[simp]
theorem Attribute.everywhere_dynamic {d : Dynamic} :
    (Attribute.dynamic d).Everywhere P ↔ d.Everywhere P := by
  rw [Attribute.Everywhere, Node.descendantsAttribute, Dynamic.Everywhere]

@[simp]
theorem ViewAttribute.everywhere_literal {v : Value} :
    (ViewAttribute.literal v).Everywhere P := by
  simp [ViewAttribute.Everywhere, Node.descendantsViewAttribute]

@[simp]
theorem ViewAttribute.everywhere_wrapped {d : Dynamic} :
    (ViewAttribute.wrapped d).Everywhere P ↔ d.Everywhere P := by
  rw [ViewAttribute.Everywhere, Node.descendantsViewAttribute, Dynamic.Everywhere]

@[simp]
theorem ViewAttribute.everywhere_array {given : List Value} {entries : List ViewAttributes} :
    (ViewAttribute.array given entries).Everywhere P ↔
      ∀ as ∈ entries, ∀ a ∈ as, a.2.Everywhere P := by
  rw [ViewAttribute.Everywhere, Node.descendantsViewAttribute, Node.forall_mem_descendantsEntries]

/-- All nodes of a template are as `P` says if those of its content are, with what is inside. -/
theorem Template.forall_mem_nodes {t : Template} :
    (∀ n ∈ t.nodes, P n) ↔ ∀ n ∈ t.content, n.Everywhere P :=
  Node.forall_mem_descendantsAll

end Stencil
