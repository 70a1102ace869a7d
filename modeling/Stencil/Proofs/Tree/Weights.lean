import Mathlib.Algebra.BigOperators.Group.List.Basic
import Mathlib.Algebra.GroupWithZero.Nat
import Mathlib.Data.List.Perm.Subperm
import Stencil.Proofs.Tree.Made

/-!
# Weighing the elements of a tree

A weight gives a number to each element, and some nodes weigh what the elements among them do. Nodes
that never weigh more than others, whatever the weights are, have their elements among these, each as
often as it is there. A pointer weighs no more inside than the element that it stands for, so the
elements of a stack are moved by the calls of a builder, and none of them is copied.
-/

namespace Stencil

open Builder Nesting

namespace Node

def tag? : Node → Option String
  | .element tag _ _ _ _ => some tag
  | _ => none

theorem tag?_of_opening? {n : Node} {d : Directive} (h : n.opening? = some d) : n.tag? = none := by
  cases n with
  | element => cases h
  | _ => rfl

def weight (w : Node → ℕ) (n : Node) : ℕ :=
  if n.tag?.isSome then w n else 0

def weigh (w : Node → ℕ) (ns : List Node) : ℕ :=
  (ns.map (weight w)).sum

variable {w : Node → ℕ}

@[simp]
theorem weigh_nil (w : Node → ℕ) : weigh w [] = 0 := rfl

@[simp]
theorem weigh_cons (n : Node) (ns : List Node) : weigh w (n :: ns) = weight w n + weigh w ns := by
  simp [weigh]

@[simp]
theorem weigh_append (ns ms : List Node) : weigh w (ns ++ ms) = weigh w ns + weigh w ms := by
  simp [weigh]

/-- Nodes that are no elements weigh nothing. -/
theorem weigh_eq_zero {ns : List Node} (h : ∀ n ∈ ns, n.tag? = none) : weigh w ns = 0 := by
  induction ns with
  | nil => rfl
  | cons n ns ih =>
    rw [List.forall_mem_cons] at h
    simp [weight, h.1, ih h.2]

/-- What never weighs more than some elements is a part of them. -/
theorem subperm_of_weigh {ns ms : List Node} (h : ∀ w, weigh w ns ≤ (ms.map w).sum) :
    (ns.filter fun n => n.tag?.isSome).Subperm ms := by
  classical
  have hfilter (w : Node → ℕ) (ns : List Node) :
      weigh w ns = ((ns.filter fun n => n.tag?.isSome).map w).sum := by
    induction ns with
    | nil => rfl
    | cons n ns ih => by_cases hn : n.tag?.isSome <;> simp [weight, hn, ih]
  have hcount (l : List Node) (n : Node) :
      (l.map fun m => if m = n then 1 else 0).sum = l.count n := by
    induction l with
    | nil => rfl
    | cons m l ih => simp [List.count_cons, ih, Nat.add_comm]
  refine List.subperm_ext_iff.2 fun n _ => ?_
  have hn := h fun m => if m = n then 1 else 0
  rwa [hfilter, hcount, hcount] at hn

/-! ## Nodes -/

/-- What the elements among these nodes and inside them weigh. -/
def weighAll (w : Node → ℕ) (ns : List Node) : ℕ :=
  weigh w (descendantsAll ns)

@[simp]
theorem weighAll_nil (w : Node → ℕ) : weighAll w [] = 0 := rfl

@[simp]
theorem weighAll_cons (n : Node) (ns : List Node) :
    weighAll w (n :: ns) = weight w n + weigh w n.descendants + weighAll w ns := by
  simp [weighAll, descendantsAll, Nat.add_assoc]

@[simp]
theorem weighAll_append (ns ms : List Node) :
    weighAll w (ns ++ ms) = weighAll w ns + weighAll w ms := by
  induction ns with
  | nil => simp
  | cons n ns ih =>
    simp only [List.cons_append, weighAll_cons, ih]
    omega

@[simp]
theorem weighAll_reverse (ns : List Node) : weighAll w ns.reverse = weighAll w ns := by
  induction ns with
  | nil => rfl
  | cons n ns ih =>
    simp only [List.reverse_cons, weighAll_append, weighAll_cons, weighAll_nil, ih]
    omega

@[simp]
theorem weigh_descendantsContent (content : Option (List Node)) :
    weigh w (descendantsContent content) = weighAll w (content.getD []) := by
  cases content <;> rfl

def weighBranches (w : Node → ℕ) (bs : List (Directive × List Node)) : ℕ :=
  weigh w (descendantsBranches bs)

@[simp]
theorem weighBranches_concat (bs : List (Directive × List Node)) (d : Directive) (ns : List Node) :
    weighBranches w (bs ++ [(d, ns)]) = weighBranches w bs + weighAll w ns := by
  induction bs with
  | nil => simp [weighBranches, descendantsBranches, weighAll]
  | cons b bs ih =>
    simp only [weighBranches, List.cons_append, descendantsBranches, weigh_append] at ih ⊢
    omega

end Node

/-! ## Entries -/

/-- What is inside the attributes of an element weighs this much. -/
def Attributes.weigh (w : Node → ℕ) (as : Attributes) : ℕ :=
  Node.weigh w (Node.descendantsAttributes as)

def ViewAttributes.weigh (w : Node → ℕ) (as : ViewAttributes) : ℕ :=
  Node.weigh w (Node.descendantsViewAttributes as)

def ViewAttribute.weigh (w : Node → ℕ) (a : ViewAttribute) : ℕ :=
  Node.weigh w (Node.descendantsViewAttribute a)

variable {w : Node → ℕ} {k : String}

theorem Node.weigh_descendants_element (tag : String) (as : Attributes)
    (content : Option (List Node)) (selfClosing : Bool) (hooks : Option (List Hook)) :
    Node.weigh w (Node.element tag as content selfClosing hooks).descendants =
      Attributes.weigh w as + Node.weighAll w (content.getD []) := by
  simp [Node.descendants, Attributes.weigh]

@[simp]
theorem Attributes.weigh_nil (w : Node → ℕ) : Attributes.weigh w [] = 0 := rfl

theorem Attributes.weigh_cons (a : String × Attribute) (as : Attributes) :
    weigh w (a :: as) = Node.weigh w (Node.descendantsAttribute a.2) + weigh w as :=
  Node.weigh_append _ _

theorem Attributes.weigh_erase_le (k : String) (as : Attributes) :
    weigh w (Entries.erase k as) ≤ weigh w as := by
  induction as with
  | nil => exact Nat.le_refl _
  | cons a as ih =>
    rw [Entries.erase.eq_def]
    dsimp only
    split <;> simp only [weigh_cons] <;> omega

/-- An attribute that is taken away is missing from the weight. -/
theorem Attributes.weigh_erase_of_get? {as : Attributes} {a : Attribute}
    (h : Entries.get? k as = some a) :
    Node.weigh w (Node.descendantsAttribute a) + weigh w (Entries.erase k as) = weigh w as := by
  induction as with
  | nil => cases h
  | cons b as ih =>
    rw [Entries.get?.eq_def] at h
    rw [Entries.erase.eq_def]
    dsimp only at h ⊢
    split at h
    · cases h
      rename_i hk
      rw [if_pos hk, weigh_cons]
    · rename_i hk
      have hrest := ih h
      rw [if_neg hk]
      simp only [weigh_cons]
      omega

namespace ViewAttributes

@[simp]
theorem weigh_nil (w : Node → ℕ) : weigh w [] = 0 := rfl

theorem weigh_cons (a : String × ViewAttribute) (as : ViewAttributes) :
    weigh w (a :: as) = a.2.weigh w + weigh w as :=
  Node.weigh_append _ _

/-- Dropping an attribute adds no weight. -/
theorem weigh_erase_le (k : String) (as : ViewAttributes) :
    weigh w (Entries.erase k as) ≤ weigh w as := by
  induction as with
  | nil => exact Nat.le_refl _
  | cons a as ih =>
    rw [Entries.erase.eq_def]
    dsimp only
    split <;> simp only [weigh_cons] <;> omega

/-- An attribute that is written takes the place of an earlier one. -/
theorem weigh_set (a : ViewAttribute) (as : ViewAttributes) :
    weigh w (Entries.set k a as) + ((Entries.get? k as).map (·.weigh w)).getD 0 =
      weigh w as + a.weigh w := by
  induction as with
  | nil => simp [Entries.set, weigh_cons]
  | cons b as ih =>
    rw [Entries.set.eq_def, Entries.get?.eq_def]
    dsimp only
    split
    · simp only [weigh_cons, Option.map_some, Option.getD_some]
      omega
    · simp only [weigh_cons]
      omega

/-- Setting an attribute adds at most its weight. -/
theorem weigh_set_le (a : ViewAttribute) (as : ViewAttributes) :
    weigh w (Entries.set k a as) ≤ weigh w as + a.weigh w := by
  have h := weigh_set (w := w) (k := k) a as
  omega

theorem weigh_ofPairs_le (ps : List (String × ViewAttribute)) :
    weigh w (Entries.ofPairs ps) ≤ weigh w ps := by
  have hfold (as : ViewAttributes) :
      weigh w (ps.foldl (fun es p => Entries.set p.1 p.2 es) as) ≤ weigh w as + weigh w ps := by
    induction ps generalizing as with
    | nil => simp
    | cons p ps ih =>
      have hp := weigh_set_le (w := w) (k := p.1) p.2 as
      have hps := ih (Entries.set p.1 p.2 as)
      rw [List.foldl_cons, weigh_cons]
      omega
  simpa [Entries.ofPairs] using hfold []

/-! ## Pointers -/

open Expr.Grammar (bind_eq_ok)

@[simp]
theorem weigh_wrapped_nodes (ns : List Node) :
    (ViewAttribute.wrapped (.nodes ns)).weigh w = Node.weighAll w ns := rfl

theorem weigh_ofAttributes_le (as : Attributes) :
    weigh w (ofAttributes as) ≤ Attributes.weigh w as := by
  refine Nat.le_trans (weigh_ofPairs_le _) (Nat.le_of_eq ?_)
  induction as with
  | nil => rfl
  | cons a as ih =>
    rw [List.map_cons, weigh_cons, ih, Attributes.weigh_cons]
    cases a.2 <;> rfl

theorem weigh_declared_le {as rest : ViewAttributes} {hooks : Option (List Hook)}
    (h : declared as = .ok (hooks, rest)) : weigh w rest ≤ weigh w as := by
  rw [Hook.eq_erase_of_declared h]
  exact Nat.le_trans (weigh_erase_le _ _) (weigh_erase_le _ _)

theorem weigh_withContent_le (body : List Node) (as : ViewAttributes) :
    weigh w (withContent body as) ≤ weigh w as + Node.weighAll w body := by
  rw [withContent]
  split
  · omega
  · exact weigh_set_le _ as

theorem weigh_array_concat (given : List Value) (entries : List ViewAttributes)
    (entry : ViewAttributes) :
    (ViewAttribute.array given (entries ++ [entry])).weigh w =
      (ViewAttribute.array given entries).weigh w + weigh w entry := by
  simp only [ViewAttribute.weigh, Node.descendantsViewAttribute]
  induction entries with
  | nil => simp [Node.descendantsEntries, weigh]
  | cons as entries ih =>
    simp only [List.cons_append, Node.descendantsEntries, Node.weigh_append, ih]
    omega

/-- An item added to an array adds at most its own weight. -/
theorem weigh_addEntry_le {name : String} {entry as rest : ViewAttributes}
    (h : addEntry name entry as = .ok rest) : weigh w rest ≤ weigh w as + weigh w entry := by
  have hone (given : List Value) :
      (ViewAttribute.array given [entry]).weigh w = weigh w entry := by
    simp [ViewAttribute.weigh, Node.descendantsViewAttribute, Node.descendantsEntries, weigh]
  rw [addEntry] at h
  split at h
  · cases h
    have hset := weigh_set_le (w := w) (k := name) (.array [] [entry]) as
    rwa [hone] at hset
  · rename_i given entries hget
    cases h
    have hset := weigh_set (w := w) (k := name) (.array given (entries ++ [entry])) as
    rw [hget, Option.map_some, Option.getD_some, weigh_array_concat] at hset
    omega
  · rename_i given hget
    cases h
    have hset := weigh_set_le (w := w) (k := name) (.array given [entry]) as
    rwa [hone] at hset
  · cases h

/-- What the content and the attributes weigh that a child's role gives. -/
def ChildRole.weigh (w : Node → ℕ) : ChildRole → ℕ
  | .named _ content => Node.weighAll w content
  | .item _ as content => Attributes.weigh w as + Node.weighAll w content
  | .body => 0

theorem weigh_childRole_le {v : View} {n : Node} {role : ChildRole}
    (h : childRole v n = .ok role) : role.weigh w ≤ Node.weigh w n.descendants := by
  cases n with
  | element tag as content selfClosing hooks =>
    rw [Node.weigh_descendants_element]
    rw [childRole] at h
    dsimp only at h
    split at h
    · obtain ⟨⟨name, rest⟩, -, rfl⟩ := exists_of_map_eq_ok h
      exact Nat.le_add_left _ _
    · split at h
      · cases h
        exact Nat.le_add_left _ _
      · split at h
        · obtain ⟨⟨name, rest⟩, hname, rfl⟩ := exists_of_map_eq_ok h
          have hrest : Attributes.weigh w rest ≤ Attributes.weigh w as := by
            rw [childName] at hname
            split at hname
            · split at hname
              · cases hname
              · cases hname
                exact Attributes.weigh_erase_le _ _
            · cases hname
          exact Nat.add_le_add_right hrest _
        · split at h
          · cases h
            exact Nat.le_refl _
          · cases h
            exact Nat.zero_le _
  | _ =>
    cases h
    exact Nat.zero_le _

/-- Splitting the children of a view adds no weight. -/
theorem weigh_split_le {v : View} {as all : ViewAttributes} {ns body : List Node}
    (h : split v as ns = .ok (body, all)) :
    Node.weighAll w body + weigh w all ≤ weigh w as + Node.weighAll w ns := by
  induction ns generalizing as body with
  | nil =>
    cases h
    simp
  | cons n ns ih =>
    obtain ⟨role, hrole, hrest⟩ := bind_eq_ok.1 h
    have hinside := weigh_childRole_le (w := w) hrole
    rw [Node.weighAll_cons]
    cases role with
    | named name inner =>
      have hset := weigh_set_le (w := w) (k := name) (.wrapped (.nodes inner)) as
      have hmore := ih hrest
      simp only [ChildRole.weigh, weigh_wrapped_nodes] at hinside hset
      omega
    | item name own inner =>
      obtain ⟨as', hentry, hmore⟩ := bind_eq_ok.1 hrest
      have hadded := weigh_addEntry_le (w := w) hentry
      have hcontent := weigh_withContent_le (w := w) inner (ofAttributes own)
      have hown := weigh_ofAttributes_le (w := w) own
      have hlater := ih hmore
      simp only [ChildRole.weigh] at hinside
      omega
    | body =>
      obtain ⟨⟨body', all'⟩, hsplit, hok⟩ := bind_eq_ok.1 hrest
      cases hok
      have hmore := ih hsplit
      rw [Node.weighAll_cons]
      omega

/-- A pointer weighs at most what its attributes and content weigh. -/
theorem weigh_pointer_le {v : View} {as : Attributes} {content : List Node} {n : Node}
    (h : pointer v as content = .ok n) :
    Node.weigh w n.descendants ≤ Attributes.weigh w as + Node.weighAll w content := by
  obtain ⟨⟨hooks, own⟩, hdeclared, hrest⟩ := bind_eq_ok.1 h
  obtain ⟨⟨body, all⟩, hsplit, hok⟩ := bind_eq_ok.1 hrest
  cases hok
  have hown := Nat.le_trans (weigh_declared_le (w := w) hdeclared) (weigh_ofAttributes_le as)
  have hall := weigh_split_le (w := w) hsplit
  have hcontent := weigh_withContent_le (w := w) body all
  simp only [Node.descendants, Node.descendantsViewAttributes?]
  change weigh w (withContent body all) ≤ _
  omega

/-- The element of a view takes nothing into its pointer but what is inside it, and once. -/
theorem weigh_stands_le {scene : Scene} {tag : String} {as : Attributes} {content : List Node}
    {n : Node} (h : Stands scene tag as content n) :
    Node.weigh w n.descendants ≤ Attributes.weigh w as + Node.weighAll w content := by
  cases h with
  | named _ _ _ _ hpointer =>
    have hpart := weigh_pointer_le (w := w) hpointer
    have herase := Attributes.weigh_erase_le (w := w) "name" as
    omega
  | @dynamic d n _ hname hpointer =>
    obtain ⟨⟨hooks, own⟩, hdeclared, hok⟩ := bind_eq_ok.1 hpointer
    cases hok
    have hown := Nat.le_trans (weigh_declared_le (w := w) hdeclared) (weigh_ofAttributes_le _)
    have hcontent := weigh_withContent_le (w := w) content own
    have herase := Attributes.weigh_erase_of_get? (w := w) hname
    simp only [Node.descendantsAttribute] at herase
    simp only [Node.descendants, Node.descendantsViewAttributes?, Node.weigh_append]
    change _ + weigh w (withContent content own) ≤ _
    omega
  | custom _ _ hpointer => exact weigh_pointer_le hpointer

end ViewAttributes

/-! ## Stacks -/

/-- What is complete inside an open node weighs this much. -/
def Opener.weigh (w : Node → ℕ) : Opener → ℕ
  | .element _ as _ => Attributes.weigh w as
  | .conditional earlier _ => Node.weighBranches w earlier
  | .eachElse _ body => Node.weighAll w body
  | .each _ | .block _ | .detached => 0

def Frame.weigh (w : Node → ℕ) (f : Frame) : ℕ :=
  f.opener.weigh w + Node.weighAll w f.content

def Stack.weigh (w : Node → ℕ) (s : Stack) : ℕ :=
  Node.weighAll w s.root + (s.frames.map (Frame.weigh w)).sum

/-- A frame is closed to a node that weighs as much inside as the frame does. -/
theorem Opener.weigh_close {o : Opener} {content : List Node} {n : Node}
    (h : o.close content = some n) :
    Node.weigh w n.descendants = o.weigh w + Node.weighAll w content := by
  cases o with
  | element =>
    cases h
    exact Node.weigh_descendants_element _ _ _ _ _
  | conditional earlier d =>
    cases h
    exact Node.weighBranches_concat earlier d content
  | each | block | eachElse =>
    cases h
    simp [Node.descendants, weigh, Node.weighAll, Node.descendantsContent]
  | detached => cases h

namespace Stack

variable {s s' : Stack} {n : Node}

theorem weigh_setTop (s : Stack) (content : List Node) :
    (s.setTop content).weigh w + Node.weighAll w s.top = s.weigh w + Node.weighAll w content := by
  obtain ⟨frames, root⟩ := s
  cases frames with
  | nil =>
    simp only [weigh, setTop, top, List.map_nil, List.sum_nil]
    omega
  | cons f fs =>
    simp only [weigh, setTop, top, Frame.weigh, List.map_cons, List.sum_cons]
    omega

@[simp]
theorem weigh_push (s : Stack) (n : Node) :
    (s.push n).weigh w = s.weigh w + (Node.weight w n + Node.weigh w n.descendants) := by
  have h := s.weigh_setTop (w := w) (n :: s.top)
  rw [Node.weighAll_cons] at h
  rw [push]
  omega

/-- An element brings its own weight, and what its attributes and its content weigh. -/
theorem weigh_push_element (s : Stack) (tag : String) (as : Attributes)
    (content : Option (List Node)) (selfClosing : Bool) (hooks : Option (List Hook)) :
    (s.push (.element tag as content selfClosing hooks)).weigh w =
      s.weigh w + (w (.element tag as content selfClosing hooks) +
        (Attributes.weigh w as + Node.weighAll w (content.getD []))) := by
  rw [weigh_push, Node.weigh_descendants_element]
  rfl

@[simp]
theorem weigh_opened (s : Stack) (o : Opener) : (s.opened o).weigh w = s.weigh w + o.weigh w := by
  simp only [weigh, opened, Frame.weigh, List.map_cons, List.sum_cons, Node.weighAll_nil]
  omega

/-- Taking a node off the stack takes off its weight. -/
theorem weigh_dropNewest (h : s.newest? = some n) :
    s.dropNewest.weigh w + (Node.weight w n + Node.weigh w n.descendants) = s.weigh w := by
  rw [← weigh_push, push_dropNewest h]

/-- Closing a frame adds at most the node that it becomes. -/
theorem weigh_closed?_le (h : s.closed? = some s') (hn : s'.newest? = some n) :
    s'.weigh w ≤ s.weigh w + Node.weight w n := by
  obtain ⟨frames, root⟩ := s
  cases frames with
  | nil => cases h
  | cons f fs =>
    have hall : Stack.weigh w ⟨f :: fs, root⟩ = Stack.weigh w ⟨fs, root⟩ + f.weigh w := by
      simp only [weigh, List.map_cons, List.sum_cons]
      omega
    simp only [closed?, Option.some.injEq] at h
    subst h
    cases hm : f.opener.close f.content.reverse with
    | none =>
      rw [hall]
      dsimp only
      omega
    | some m =>
      rw [hm, newest?_push, Option.some.injEq] at hn
      subst hn
      have hclose := Opener.weigh_close (w := w) hm
      rw [Node.weighAll_reverse] at hclose
      rw [hall, weigh_push, hclose, Frame.weigh]
      omega

end Stack

/-! ## Moves -/

variable {scene : Scene} {s s' : Stack}

/-- What is no element is common to all nodes that spans make. -/
theorem Node.common_untagged : Node.Common scene fun n => n.tag? = none where
  text _ := rfl
  comment _ := rfl
  doctype _ _ _ := rfl
  bare _ := rfl
  value _ := rfl
  unbranched := rfl
  branch _ _ _ := rfl
  each _ _ := rfl
  eachElse _ _ := rfl
  block _ _ := rfl
  stands h := by cases ViewAttributes.isPointer_of_stands h <;> rfl
  refers _ h := by cases ViewAttributes.isPointer_of_refers h <;> rfl

theorem Attributes.weigh_eq_zero {as : Attributes} (has : ∀ a ∈ as, a.2.IsRead scene) :
    Attributes.weigh w as = 0 := by
  refine Node.weigh_eq_zero (Node.forall_mem_descendantsAttributes.2 fun a ha => ?_)
  exact Node.common_untagged.everywhere_of_isRead (has a ha)

/-- Spans bring no elements, and they copy none. -/
theorem SpanMove.weigh_le {span : Span} (h : SpanMove scene span s s')
    (hspan : ∀ d, span = .directive d → d.IsRead) : s'.weigh w ≤ s.weigh w := by
  have hopener (word : BlockWord) (d : Directive) : (Build.openerOf word d).weigh w = 0 := by
    cases word <;> rfl
  cases h with
  | text data => simp [Node.weight, Node.tag?, Node.descendants]
  | value => simp [Node.weight, Node.tag?, Node.descendants]
  | view _ _ hn =>
    have heverywhere := ViewAttributes.refers_everywhere (P := fun n => n.tag? = none)
      (fun _ => rfl) rfl hn (Node.common_untagged.refers (hspan _ rfl) hn)
    rw [Stack.weigh_push, Node.weight, heverywhere.1, Node.weigh_eq_zero heverywhere.2]
    simp
  | opens => simp [hopener]
  | @closes _ first _ _ n _ _ _ hclosed hn hfirst =>
    have hle := Stack.weigh_closed?_le (w := w) hclosed hn
    rw [Node.weight, Node.tag?_of_opening? hfirst] at hle
    exact hle
  | branch _ hclosed hn | eachElse _ hclosed hn =>
    have hle := Stack.weigh_closed?_le (w := w) hclosed hn
    have hdrop := Stack.weigh_dropNewest (w := w) hn
    rw [Stack.weigh_opened]
    simp only [Node.weight, Node.tag?, Node.descendants, Opener.weigh, Node.weighBranches,
      Node.descendantsContent, Node.weigh_append, Node.weigh_nil, Node.weighAll] at hle hdrop ⊢
    simp only [Option.isSome_none, Bool.false_eq_true, if_false] at hle hdrop
    omega

/-- Directives add no elements. -/
theorem SpanMoves.weigh_le {spans : List Span} (h : SpanMoves scene spans s s')
    (hspans : ∀ d, .directive d ∈ spans → d.IsRead) : s'.weigh w ≤ s.weigh w := by
  induction h with
  | nil => exact Nat.le_refl _
  | cons hmove _ ih =>
    have hfirst := hmove.weigh_le (w := w) fun d hd => hspans d (hd ▸ List.mem_cons_self)
    exact Nat.le_trans (ih fun d hd => hspans d (List.mem_cons_of_mem _ hd)) hfirst

end Stencil
