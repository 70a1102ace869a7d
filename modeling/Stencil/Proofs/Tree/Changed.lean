import Stencil.Proofs.Entries
import Stencil.Proofs.Tree.Nodes
import Stencil.Template.Building

/-!
# Trees with other names and hooks

`changed c` gives a tree other names of the views that its pointers refer to and other hooks of its
elements, as `c` says, and keeps everything else. Nothing that is done to a stack looks at these,
and neither does what makes a pointer of an element. So all of it comes to the same before and after
the change.

On a stack, the elements that are still open keep their hooks. So the node that a frame becomes is
changed inside, but its own hooks are as they were.
-/

namespace Stencil

/-- Which name a pointer gets in place of its own, and which hooks an element of a tag. -/
structure Change where
  name : String → String
  hooks : String → Option (List Hook) → Option (List Hook)

/-- No element gets other hooks. -/
def Change.KeepsHooks (c : Change) : Prop :=
  ∀ tag hooks, c.hooks tag hooks = hooks

/-! ## Nodes -/

mutual

def Node.changed (c : Change) : Node → Node
  | .element tag as content selfClosing hooks =>
    .element tag (Node.changedAttributes c as) (Node.changedContent c content) selfClosing
      (c.hooks tag hooks)
  | .conditional bs => .conditional (Node.changedBranches c bs)
  | .each d ns otherwise => .each d (Node.changedAll c ns) (Node.changedContent c otherwise)
  | .block d ns => .block d (Node.changedAll c ns)
  | .view name as hooks => .view (c.name name) (Node.changedViewAttributes? c as) hooks
  | .dynamicView name as hooks =>
    .dynamicView (name.changed c) (Node.changedViewAttributes? c as) hooks
  | n => n
termination_by structural n => n

def Dynamic.changed (c : Change) : Dynamic → Dynamic
  | .term t => .term t
  | .nodes ns => .nodes (Node.changedAll c ns)
termination_by structural d => d

def Attribute.changed (c : Change) : Attribute → Attribute
  | .literal v => .literal v
  | .dynamic d => .dynamic (d.changed c)
termination_by structural a => a

def ViewAttribute.changed (c : Change) : ViewAttribute → ViewAttribute
  | .literal v => .literal v
  | .wrapped d => .wrapped (d.changed c)
  | .array given entries => .array given (Node.changedEntries c entries)
termination_by structural a => a

def Node.changedAll (c : Change) : List Node → List Node
  | [] => []
  | n :: ns => n.changed c :: Node.changedAll c ns
termination_by structural ns => ns

def Node.changedContent (c : Change) : Option (List Node) → Option (List Node)
  | none => none
  | some ns => some (Node.changedAll c ns)
termination_by structural content => content

def Node.changedBranches (c : Change) :
    List (Directive × List Node) → List (Directive × List Node)
  | [] => []
  | (d, ns) :: bs => (d, Node.changedAll c ns) :: Node.changedBranches c bs
termination_by structural bs => bs

def Node.changedAttributes (c : Change) : List (String × Attribute) → List (String × Attribute)
  | [] => []
  | (k, a) :: as => (k, a.changed c) :: Node.changedAttributes c as
termination_by structural as => as

def Node.changedViewAttributes (c : Change) :
    List (String × ViewAttribute) → List (String × ViewAttribute)
  | [] => []
  | (k, a) :: as => (k, a.changed c) :: Node.changedViewAttributes c as
termination_by structural as => as

def Node.changedViewAttributes? (c : Change) :
    Option (List (String × ViewAttribute)) → Option (List (String × ViewAttribute))
  | none => none
  | some as => some (Node.changedViewAttributes c as)
termination_by structural as => as

def Node.changedEntries (c : Change) :
    List (List (String × ViewAttribute)) → List (List (String × ViewAttribute))
  | [] => []
  | as :: es => Node.changedViewAttributes c as :: Node.changedEntries c es
termination_by structural es => es

end

abbrev Attributes.changed (c : Change) (as : Attributes) : Attributes :=
  as.mapValues (Attribute.changed c)

abbrev ViewAttributes.changed (c : Change) (as : ViewAttributes) : ViewAttributes :=
  as.mapValues (ViewAttribute.changed c)

def Template.changed (c : Change) (t : Template) : Template :=
  ⟨t.content.map (Node.changed c)⟩

/-- The node with everything inside it changed. An element keeps its own hooks. -/
def Node.changedInside (c : Change) : Node → Node
  | .element tag as content selfClosing hooks =>
    .element tag (Attributes.changed c as) (content.map (List.map (Node.changed c))) selfClosing
      hooks
  | n => n.changed c

variable {c : Change}

namespace Node

attribute [local simp] changed Dynamic.changed Attribute.changed ViewAttribute.changed changedAll
  changedContent changedBranches changedAttributes changedViewAttributes changedViewAttributes?
  changedEntries

@[simp]
theorem changedAll_eq (ns : List Node) : changedAll c ns = ns.map (changed c) := by
  induction ns with
  | nil => rfl
  | cons n ns ih => rw [changedAll, ih, List.map_cons]

@[simp]
theorem changedContent_eq (content : Option (List Node)) :
    changedContent c content = content.map (List.map (changed c)) := by
  cases content <;> simp

@[simp]
theorem changedBranches_eq (bs : List (Directive × List Node)) :
    changedBranches c bs = bs.map fun b => (b.1, b.2.map (changed c)) := by
  induction bs with
  | nil => rfl
  | cons b bs ih => rw [changedBranches, ih, changedAll_eq, List.map_cons]

@[simp]
theorem changedAttributes_eq (as : Attributes) : changedAttributes c as = as.changed c := by
  induction as with
  | nil => rfl
  | cons a as ih =>
    rw [changedAttributes, ih]
    rfl

@[simp]
theorem changedViewAttributes_eq (as : ViewAttributes) :
    changedViewAttributes c as = as.changed c := by
  induction as with
  | nil => rfl
  | cons a as ih =>
    rw [changedViewAttributes, ih]
    rfl

@[simp]
theorem changedViewAttributes?_eq (as : Option ViewAttributes) :
    changedViewAttributes? c as = as.map (ViewAttributes.changed c) := by
  cases as <;> simp

@[simp]
theorem changedEntries_eq (es : List ViewAttributes) :
    changedEntries c es = es.map (ViewAttributes.changed c) := by
  induction es with
  | nil => rfl
  | cons as es ih => rw [changedEntries, ih, changedViewAttributes_eq, List.map_cons]

@[simp]
theorem opening?_changed (n : Node) : (n.changed c).opening? = n.opening? := by
  cases n with
  | conditional bs => cases bs <;> simp [opening?]
  | _ => simp [opening?]

@[simp]
theorem isElement_changed (n : Node) (tag : String) :
    (n.changed c).isElement tag = n.isElement tag := by
  cases n <;> simp [isElement]

@[simp]
theorem isElement_changedInside (n : Node) (tag : String) :
    (n.changedInside c).isElement tag = n.isElement tag := by
  cases n with
  | element => rfl
  | _ => exact isElement_changed _ tag

theorem changedInside_eq_changed (hc : c.KeepsHooks) (n : Node) :
    n.changedInside c = n.changed c := by
  cases n with
  | element tag as content selfClosing hooks => simp [changedInside, hc tag hooks]
  | _ => rfl

end Node

@[simp]
theorem Attribute.literal?_changed (a : Attribute) : (a.changed c).literal? = a.literal? := by
  cases a <;> simp [changed, literal?]

@[simp]
theorem ViewAttribute.literal?_changed (a : ViewAttribute) :
    (a.changed c).literal? = a.literal? := by
  cases a <;> simp [changed, literal?]

/-- The attribute that a content makes does not depend on names and hooks. -/
theorem Build.ofContent_map_changed (name value : String) (ns : List Node) :
    Build.ofContent name value (ns.map (Node.changed c)) =
      (Build.ofContent name value ns).map (Attribute.changed c) := by
  rcases ns with _ | ⟨n, _ | ⟨m, ns⟩⟩
  · rfl
  · cases n with
    | value t =>
      simp only [List.map_cons, List.map_nil, Node.changed, ofContent]
      split <;> rfl
    | _ => simp [ofContent, Except.map, Attribute.changed, Dynamic.changed, Node.changed]
  · simp [ofContent, Except.map, Attribute.changed, Dynamic.changed]

/-! ## Stacks -/

def Opener.changed (c : Change) : Opener → Opener
  | .element tag as hooks => .element tag (as.changed c) hooks
  | .conditional earlier d =>
    .conditional (earlier.map fun b => (b.1, b.2.map (Node.changed c))) d
  | .eachElse d body => .eachElse d (body.map (Node.changed c))
  | o => o

def Frame.changed (c : Change) (f : Frame) : Frame :=
  ⟨f.opener.changed c, f.content.map (Node.changed c)⟩

def Stack.changed (c : Change) (s : Stack) : Stack :=
  ⟨s.frames.map (Frame.changed c), s.root.map (Node.changed c)⟩

/-- A changed block closes into the changed node. -/
theorem Opener.close_changed (o : Opener) (content : List Node) :
    (o.changed c).close (content.map (Node.changed c)) =
      (o.close content).map (Node.changedInside c) := by
  cases o <;> simp [changed, close, Node.changedInside, Node.changed]

@[simp]
theorem Build.openerOf_changed (w : BlockWord) (d : Directive) :
    (Build.openerOf w d).changed c = Build.openerOf w d := by
  cases w <;> rfl

namespace Stack

variable (s : Stack)

@[simp]
theorem depth_changed : (s.changed c).depth = s.depth := by
  simp [depth, changed]

@[simp]
theorem top_changed : (s.changed c).top = s.top.map (Node.changed c) := by
  obtain ⟨frames, root⟩ := s
  cases frames <;> rfl

@[simp]
theorem newest?_changed : (s.changed c).newest? = s.newest?.map (Node.changed c) := by
  rw [newest?, newest?, top_changed, List.head?_map]

theorem changed_setTop (content : List Node) :
    (s.setTop content).changed c = (s.changed c).setTop (content.map (Node.changed c)) := by
  obtain ⟨frames, root⟩ := s
  cases frames <;> rfl

theorem changed_push (n : Node) : (s.push n).changed c = (s.changed c).push (n.changed c) := by
  rw [push, push, changed_setTop, top_changed, List.map_cons]

theorem changed_dropNewest : s.dropNewest.changed c = (s.changed c).dropNewest := by
  rw [dropNewest, dropNewest, changed_setTop, top_changed, List.map_drop]

theorem changed_opened (o : Opener) :
    (s.opened o).changed c = (s.changed c).opened (o.changed c) := rfl

/-- The second stack is the first one changed, but its newest node may have its own hooks still. -/
inductive Nearly (c : Change) : Stack → Stack → Prop where
  | changed (s : Stack) : Nearly c s (s.changed c)
  | fresh (s : Stack) (n : Node) : Nearly c (s.push n) ((s.changed c).push (n.changedInside c))

theorem Nearly.eq_changed_or {s s' : Stack} (h : Nearly c s s') :
    s' = s.changed c ∨ ∃ (below : Stack) (tag : String) (as : Attributes)
      (content : Option (List Node)) (selfClosing : Bool) (hooks : Option (List Hook)),
      s = below.push (.element tag as content selfClosing hooks) ∧
      s' = (below.changed c).push
        (.changedInside c (.element tag as content selfClosing hooks)) := by
  cases h with
  | changed s => exact .inl rfl
  | fresh s n =>
    cases n with
    | element tag as content selfClosing hooks =>
      exact .inr ⟨s, tag, as, content, selfClosing, hooks, rfl, rfl⟩
    | _ => exact .inl (changed_push _ _).symm

/-- Under a change that keeps hooks, a stack that is nearly the changed one is the changed one. -/
theorem Nearly.eq_changed (hc : c.KeepsHooks) {s s' : Stack} (h : Nearly c s s') :
    s' = s.changed c := by
  cases h with
  | changed s => rfl
  | fresh s n => rw [changed_push, Node.changedInside_eq_changed hc]

/-- Closing the innermost block of a changed stack gives the changed stack, up to the hooks of the
new node. -/
theorem closed?_changed : Option.Rel (Nearly c) s.closed? (s.changed c).closed? := by
  obtain ⟨frames, root⟩ := s
  cases frames with
  | nil => exact .none
  | cons f fs =>
    have hclose := f.opener.close_changed (c := c) f.content.reverse
    rw [List.map_reverse] at hclose
    simp only [closed?, changed, Frame.changed, List.map_cons, hclose]
    cases f.opener.close f.content.reverse with
    | none => exact .some (.changed ⟨fs, root⟩)
    | some n => exact .some (.fresh ⟨fs, root⟩ n)

theorem closeAll_changed (hc : c.KeepsHooks) (root content : List Node) (fs : List Frame) :
    closeAll (root.map (Node.changed c)) (fs.map (Frame.changed c))
        (content.map (Node.changed c)) =
      (closeAll root fs content).map (Node.changed c) := by
  induction fs generalizing content with
  | nil => simp [closeAll]
  | cons f fs ih =>
    have hclose := f.opener.close_changed (c := c) (content ++ f.content).reverse
    rw [List.map_reverse, List.map_append] at hclose
    rw [List.map_cons, closeAll, closeAll, ← ih, Frame.changed, hclose]
    cases f.opener.close (content ++ f.content).reverse with
    | none => rfl
    | some n => simp [Node.changedInside_eq_changed hc]

/-- With no block open, the nodes of the changed stack are the changed nodes. -/
theorem nodes_changed_of_depth (h : s.depth = 0) :
    (s.changed c).nodes = s.nodes.map (Node.changed c) := by
  obtain ⟨frames, root⟩ := s
  obtain rfl := List.length_eq_zero_iff.1 h
  simp [nodes, changed, closeAll]

theorem changed_flattened (hc : c.KeepsHooks) :
    s.flattened.changed c = (s.changed c).flattened := by
  have hclose := closeAll_changed hc s.root [] s.frames
  rw [List.map_nil] at hclose
  rw [flattened, changed, ← hclose]
  rfl

@[simp]
theorem isInside_changed (depth : Nat) :
    Build.isInside depth (s.changed c) = Build.isInside depth s := by
  obtain ⟨frames, root⟩ := s
  cases frames with
  | nil => rfl
  | cons f fs =>
    obtain ⟨o, content⟩ := f
    cases o <;> simp [Build.isInside, Stack.depth, changed, Frame.changed, Opener.changed]

end Stack

/-! ## Pointers -/

/-- The second view gives the same pointers as the first one, but for the change. -/
structure View.Matches (c : Change) (v v' : View) : Prop where
  name : v'.name = c.name v.name
  attributes : v'.attributes = v.attributes
  arrays : v'.arrays = v.arrays

/-- Two steps that each come to the same after a change come to the same together. -/
theorem bind_eq_map {α α' β β' : Type} {x : Except Cause α} {x' : Except Cause α'}
    {k : α → Except Cause β} {k' : α' → Except Cause β'} {f : α → α'} {g : β → β'}
    (hx : x' = x.map f) (hk : ∀ a, k' (f a) = (k a).map g) :
    (x' >>= k') = (x >>= k).map g := by
  subst hx
  cases x with
  | error cause => rfl
  | ok a => exact hk a

/-- The hooks are declared by constants, which have no names. The names of the hooks and the
reactions are read in turn, and either may fail. -/
theorem Hook.declared_mapValues {α : Type} {literal? : α → Option Value} {f : α → α}
    (h : ∀ a, literal? (f a) = literal? a) (make : String → Expr → Hook) (as : Entries α) :
    Hook.declared literal? make (as.mapValues f) =
      (Hook.declared literal? make as).map fun p => (p.1, p.2.mapValues f) := by
  have htext (name : String) (a : α) :
      literalText literal? name (f a) = literalText literal? name a := by
    rw [literalText, literalText, h]
  rw [declared, declared, Entries.get?_mapValues, Entries.get?_mapValues,
    ← Entries.mapValues_erase, ← Entries.mapValues_erase]
  generalize Entries.get? "as" as = named?, Entries.get? "on" as = reacts?
  cases named? with
  | none =>
    cases reacts? with
    | none => rfl
    | some b =>
      simp only [Option.map_some, Option.map_none, htext]
      cases (literalText literal? "on" b).bind (reactions make) <;> rfl
  | some a =>
    simp only [Option.map_some, htext]
    cases literalText literal? "as" a with
    | error cause => rfl
    | ok s =>
      cases reacts? with
      | none => rfl
      | some b =>
        simp only [Option.map_some, htext]
        cases (literalText literal? "on" b).bind (reactions make) <;> rfl

namespace ViewAttributes

/-- Handing an attribute to a view goes with every change. -/
theorem ofAttribute_changed (a : Attribute) :
    ofAttribute (a.changed c) = (ofAttribute a).changed c := by
  cases a <;> simp [Attribute.changed, ofAttribute, ViewAttribute.changed]

theorem ofAttributes_changed (as : Attributes) :
    ofAttributes (as.changed c) = (ofAttributes as).changed c := by
  rw [ofAttributes, ofAttributes, changed, Entries.mapValues_ofPairs]
  simp [Entries.mapValues, Function.comp_def, ofAttribute_changed]

/-- What an object gives has no names of views and no elements. -/
theorem changed_ofMembers (ms : Members) : (ofMembers ms).changed c = ofMembers ms := by
  rw [ofMembers, changed, Entries.mapValues, List.map_map]
  refine List.map_congr_left fun m _ => Prod.ext rfl ?_
  simp only [Function.comp_apply]
  split <;> simp [ViewAttribute.changed, Dynamic.changed]

theorem declared_changed (as : ViewAttributes) :
    declared (as.changed c) = (declared as).map fun p => (p.1, p.2.changed c) :=
  Hook.declared_mapValues ViewAttribute.literal?_changed _ as

theorem withContent_changed (body : List Node) (as : ViewAttributes) :
    withContent (body.map (Node.changed c)) (as.changed c) = (withContent body as).changed c := by
  rw [withContent, withContent, List.isEmpty_map, Entries.has_mapValues]
  split
  · rfl
  · simp [changed, Entries.mapValues_set, ViewAttribute.changed, Dynamic.changed]

theorem addEntry_changed (name : String) (entry as : ViewAttributes) :
    addEntry name (entry.changed c) (as.changed c) =
      (addEntry name entry as).map (changed c) := by
  rw [addEntry, addEntry, Entries.get?_mapValues]
  rcases Entries.get? name as with _ | (v | d | ⟨given, entries⟩)
  · simp [Except.map, changed, Entries.mapValues_set, ViewAttribute.changed]
  · cases v <;> simp [Except.map, changed, Entries.mapValues_set, ViewAttribute.changed]
  · simp [Except.map, ViewAttribute.changed]
  · simp [Except.map, changed, Entries.mapValues_set, ViewAttribute.changed]

theorem childName_changed (tag : String) (as : Attributes) :
    childName tag (as.changed c) = (childName tag as).map fun p => (p.1, p.2.changed c) := by
  rw [childName, childName, Entries.get?_mapValues, ← Entries.mapValues_erase]
  rcases Entries.get? "name" as with _ | (v | d)
  · rfl
  · cases v with
    | text s =>
      simp only [Option.map_some, Attribute.changed]
      split <;> rfl
    | _ => rfl
  · rfl

def ChildRole.changed (c : Change) : ChildRole → ChildRole
  | .named name content => .named name (content.map (Node.changed c))
  | .item name as content => .item name (as.changed c) (content.map (Node.changed c))
  | .body => .body

variable {v v' : View}

/-- A changed child keeps its role. -/
theorem childRole_changed (hv : v.Matches c v') (n : Node) :
    childRole v' (n.changed c) = (childRole v n).map (ChildRole.changed c) := by
  cases n with
  | element tag as content selfClosing hooks =>
    have hcontent : (content.map (List.map (Node.changed c))).getD [] =
        (content.getD []).map (Node.changed c) := by
      cases content <;> rfl
    simp only [Node.changed, Node.changedAttributes_eq, Node.changedContent_eq, childRole, hcontent,
      childName_changed, View.hasAttribute, hv.attributes, hv.arrays]
    split
    · cases childName tag as <;> rfl
    · split
      · rfl
      · split
        · cases childName tag as <;> rfl
        · split <;> rfl
  | _ => rfl

/-- The children of a view are split the same way after a change. -/
theorem split_changed (hv : v.Matches c v') (as : ViewAttributes) (content : List Node) :
    split v' (as.changed c) (content.map (Node.changed c)) =
      (split v as content).map fun p => (p.1.map (Node.changed c), p.2.changed c) := by
  induction content generalizing as with
  | nil => rfl
  | cons n content ih =>
    rw [List.map_cons, split, split]
    refine bind_eq_map (childRole_changed hv n) fun role => ?_
    cases role with
    | named name inner =>
      have hset := ih (Entries.set name (.wrapped (.nodes inner)) as)
      rw [changed, Entries.mapValues_set, ViewAttribute.changed, Dynamic.changed,
        Node.changedAll_eq] at hset
      exact hset
    | item name own inner =>
      have hadd := addEntry_changed (c := c) name (withContent inner (ofAttributes own)) as
      rw [← withContent_changed, ← ofAttributes_changed] at hadd
      exact bind_eq_map hadd ih
    | body => exact bind_eq_map (ih as) fun p => rfl

/-- A changed element points to the view with the changed parts. -/
theorem pointer_changed (hv : v.Matches c v') (as : Attributes) (content : List Node) :
    pointer v' (as.changed c) (content.map (Node.changed c)) =
      (pointer v as content).map (Node.changed c) := by
  have hdeclared := declared_changed (c := c) (ofAttributes as)
  rw [← ofAttributes_changed] at hdeclared
  refine bind_eq_map hdeclared fun p => ?_
  refine bind_eq_map (split_changed hv p.2 content) fun q => ?_
  simp [hv.name, withContent_changed, Except.map, Node.changed]

theorem dynamicPointer_changed (name : Dynamic) (as : Attributes) (content : List Node) :
    dynamicPointer (name.changed c) (as.changed c) (content.map (Node.changed c)) =
      (dynamicPointer name as content).map (Node.changed c) := by
  have hdeclared := declared_changed (c := c) (ofAttributes as)
  rw [← ofAttributes_changed] at hdeclared
  refine bind_eq_map hdeclared fun p => ?_
  simp [withContent_changed, Except.map, Node.changed]

end ViewAttributes

end Stencil
