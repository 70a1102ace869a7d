import Stencil.Proofs.Building.Reached
import Stencil.Proofs.Tree.Pointers
import Stencil.Proofs.Tree.Stacks
import Stencil.Template.Dump

/-!
# Well-formed trees

`Node.Formed` says what is always true of a node that a builder makes: how the directives of a block
follow each other, which elements have content, that no element stands for a view, and which
attributes are gone. A stack is formed if its nodes are, with all nodes inside them, and if every
open frame will become a formed node. An open view element is the exception, since it is replaced
when it is closed.

Every move keeps a stack formed. So all nodes of a template are formed if nothing was open at its
end, and its blocks are formed in any case.
-/

namespace Stencil

open Builder Nesting

/-! ## Nodes -/

/-- The directive opens a block with one of these words. -/
def Directive.Opens (ws : List BlockWord) (d : Directive) : Prop :=
  ∃ w ∈ ws, ∃ a, d.role = .opens w a

/-- The directives of the branches of a condition: it is opened and then continued. -/
def Branched : List Directive → Prop
  | [] => False
  | d :: ds => d.Opens [.condition, .negation] ∧ ∀ d' ∈ ds, Continues d'

/-- A conditional may be continued by any of its words. -/
theorem Branched.append_singleton {ds : List Directive} {d : Directive} (h : Branched ds)
    (hd : Continues d) : Branched (ds ++ [d]) := by
  cases ds with
  | nil => exact h.elim
  | cons first ds =>
    exact ⟨h.1, List.forall_mem_append.2 ⟨h.2, List.forall_mem_singleton.2 hd⟩⟩

namespace Node

/-- What is true of a block or a value, apart from what is inside. -/
def BlockFormed : Node → Prop
  | .conditional bs => Branched (bs.map Prod.fst)
  | .each d _ _ => d.Opens [.each]
  | .block d _ => d.Opens [.scope, .unbound, .bound]
  | .value (.marked d) => d.role.blockWord? = none
  | _ => True

/-- What is true of an element or a pointer, apart from what is inside. -/
def ElementFormed (scene : Scene) : Node → Prop
  | .element tag as content selfClosing _ =>
    (content = none ↔ Markup.isVoid tag = true ∨ selfClosing = true) ∧
      (tag ≠ "view" ∧ scene.elementView? tag = none) ∧
      "as" ∉ Entries.keys as ∧ "on" ∉ Entries.keys as
  | .view _ _ hooks | .dynamicView _ _ hooks => hooks ≠ some []
  | _ => True

structure Formed (scene : Scene) (n : Node) : Prop where
  block : n.BlockFormed
  element : n.ElementFormed scene

theorem elementFormed_of_opening? {scene : Scene} {n : Node} {d : Directive}
    (h : n.opening? = some d) : n.ElementFormed scene := by
  cases n with
  | element => cases h
  | _ => trivial

/-- Pointers to views are well-formed nodes. -/
theorem IsPointer.formed {scene : Scene} {n : Node} (h : n.IsPointer) : n.Formed scene := by
  cases h with
  | view _ hhooks | dynamicView _ hhooks => exact ⟨trivial, hhooks⟩

end Node

/-! ## Stacks -/

/-- What is true of the opener of a frame, so that the frame becomes a formed node. -/
def Opener.Formed (scene : Scene) : Opener → Prop
  | .element tag as _ =>
    Markup.isVoid tag = false ∧ (∀ a ∈ as, a.2.Everywhere (Node.Formed scene)) ∧
      (scene.isViewTag tag = false → "as" ∉ Entries.keys as ∧ "on" ∉ Entries.keys as)
  | .conditional earlier d =>
    Branched (earlier.map Prod.fst ++ [d]) ∧
      ∀ b ∈ earlier, ∀ n ∈ b.2, n.Everywhere (Node.Formed scene)
  | .each d => d.Opens [.each]
  | .eachElse d body => d.Opens [.each] ∧ ∀ n ∈ body, n.Everywhere (Node.Formed scene)
  | .block d => d.Opens [.scope, .unbound, .bound]
  | .detached => True

abbrev Stack.Formed (scene : Scene) : Stack → Prop :=
  Stack.MadeOf (Opener.Formed scene) (Node.Formed scene)

section Stacks

variable {scene : Scene} {s s' : Stack} {n : Node} {o : Opener} {content : List Node}

theorem Scene.isViewTag_eq_false {tag : String} :
    scene.isViewTag tag = false ↔ tag ≠ "view" ∧ scene.elementView? tag = none := by
  simp [Scene.isViewTag]

/-- The block that an open frame becomes. -/
theorem Opener.Formed.blockFormed (h : o.Formed scene) (hn : o.close content = some n) :
    n.BlockFormed := by
  cases o with
  | element =>
    cases hn
    trivial
  | conditional earlier d =>
    cases hn
    simpa [Node.BlockFormed] using h.1
  | each d | block d =>
    cases hn
    exact h
  | eachElse d body =>
    cases hn
    exact h.1
  | detached => cases hn

/-- A property of formed nodes holds everywhere in the node that an open frame becomes, if it holds
of this node and in the content. -/
theorem Opener.Formed.everywhere {Q : Node → Prop} (h : o.Formed scene)
    (hformed : ∀ m, m.Formed scene → Q m) (hcontent : ∀ m ∈ content, m.Everywhere Q)
    (hn : o.close content = some n) (hQ : Q n) : n.Everywhere Q := by
  cases o with
  | element tag as hooks =>
    cases hn
    have has : ∀ a ∈ as, a.2.Everywhere Q := fun a ha m hm => hformed m (h.2.1 a ha m hm)
    exact Node.everywhere_element.2 ⟨hQ, has, by simpa using hcontent⟩
  | conditional earlier d =>
    cases hn
    refine Node.everywhere_conditional.2 ⟨hQ, List.forall_mem_append.2 ⟨?_, by simpa using hcontent⟩⟩
    exact fun b hb m hm => (h.2 b hb m hm).mono hformed
  | each d =>
    cases hn
    exact Node.everywhere_each.2 ⟨hQ, hcontent, by simp⟩
  | eachElse d body =>
    cases hn
    have hbody : ∀ m ∈ body, m.Everywhere Q := fun m hm => (h.2 m hm).mono hformed
    exact Node.everywhere_each.2 ⟨hQ, hbody, by simpa using hcontent⟩
  | block d =>
    cases hn
    exact Node.everywhere_block.2 ⟨hQ, hcontent⟩
  | detached => cases hn

namespace Stack.Formed

/-- A frame is closed to a formed node, unless this is an element that stands for a view. -/
theorem closed? (h : s.Formed scene) (hs : s.closed? = some s') (hn : s'.newest? = some n)
    (helement : n.ElementFormed scene) : s'.Formed scene := by
  obtain ⟨frames, root⟩ := s
  cases frames with
  | nil => cases hs
  | cons f fs =>
    obtain ⟨hopener, hcontent⟩ := h.frames f List.mem_cons_self
    cases hm : f.opener.close f.content.reverse with
    | none =>
      simp only [Stack.closed?, hm, Option.some.injEq] at hs
      exact hs ▸ h.below
    | some m =>
      simp only [Stack.closed?, hm, Option.some.injEq] at hs
      subst hs
      rw [newest?_push, Option.some.injEq] at hn
      subst hn
      exact h.below.push (hopener.everywhere (fun _ h => h) (by simpa using hcontent) hm
        ⟨hopener.blockFormed hm, helement⟩)

/-- Whatever is open at the end, the blocks of the template are formed. By induction on the frames:
what was inside those above is closed already. -/
theorem nodes (h : s.Formed scene) : ∀ n ∈ s.nodes, n.Everywhere Node.BlockFormed := by
  obtain ⟨frames, root⟩ := s
  have hclose : ∀ above : List Node, (∀ n ∈ above, n.Everywhere Node.BlockFormed) →
      ∀ n ∈ Stack.closeAll root frames above, n.Everywhere Node.BlockFormed := by
    induction frames with
    | nil =>
      exact fun above habove => List.forall_mem_append.2
        ⟨habove, fun n hn => (h.root n hn).mono fun _ h => h.block⟩
    | cons f fs ih =>
      intro above habove
      obtain ⟨hopener, hcontent⟩ := h.frames f List.mem_cons_self
      refine ih h.below _ ?_
      split
      · rename_i m hm
        refine List.forall_mem_singleton.2
          (hopener.everywhere (fun _ h => h.block) ?_ hm (hopener.blockFormed hm))
        intro n hn
        obtain hn | hn := List.mem_append.1 (List.mem_reverse.1 hn)
        · exact habove n hn
        · exact (hcontent n hn).mono fun _ h => h.block
      · exact List.forall_mem_nil _
  simpa [Stack.nodes] using hclose [] (List.forall_mem_nil _)

end Stack.Formed

end Stacks

/-! ## Moves -/

section Moves

variable {scene : Scene} {s s' : Stack}

theorem openerOf_formed {d : Directive} {w : BlockWord} {a : Option String}
    (h : d.role = .opens w a) : (Build.openerOf w d).Formed scene := by
  cases w with
  | condition | negation => exact ⟨⟨⟨_, by simp, a, h⟩, List.forall_mem_nil _⟩, List.forall_mem_nil _⟩
  | each | scope | unbound | bound => exact ⟨_, by simp, a, h⟩

/-- One span keeps a well-formed stack well-formed. -/
theorem SpanMove.formed {span : Span} (h : SpanMove scene span s s') (hs : s.Formed scene) :
    s'.Formed scene := by
  have hvalue {d : Directive} {ws : List ValueWord} (hd : d.role = .shows ws) :
      (Node.value (.marked d)).Formed scene :=
    ⟨by simp [Node.BlockFormed, hd, Role.blockWord?], trivial⟩
  cases h with
  | text data => exact hs.push (Node.everywhere_of_leaf rfl (⟨trivial, trivial⟩))
  | value hd => exact hs.push (Node.everywhere_of_leaf rfl (hvalue hd))
  | view hd _ hn =>
    refine hs.push (ViewAttributes.refers_everywhere ?_ (hvalue hd) hn ?_)
    · exact fun _ => ⟨trivial, trivial⟩
    · exact (ViewAttributes.isPointer_of_refers hn).formed
  | opens hd => exact hs.opened (openerOf_formed hd)
  | closes _ hclosed hn hfirst => exact hs.closed? hclosed hn (Node.elementFormed_of_opening? hfirst)
  | branch hd hclosed hn =>
    have hs' := hs.closed? hclosed hn trivial
    have hcondition := Node.everywhere_conditional.1 (hs'.newest hn)
    exact hs'.dropNewest.opened ⟨hcondition.1.block.append_singleton hd, hcondition.2⟩
  | eachElse hd hclosed hn =>
    have hs' := hs.closed? hclosed hn trivial
    have hloop := Node.everywhere_each.1 (hs'.newest hn)
    exact hs'.dropNewest.opened ⟨hloop.1.block, hloop.2.1⟩

theorem SpanMoves.formed {spans : List Span} (h : SpanMoves scene spans s s')
    (hs : s.Formed scene) : s'.Formed scene := by
  induction h with
  | nil => exact hs
  | cons hmove _ ih => exact ih (hmove.formed hs)

/-- The nodes inside an attribute are those that its value leaves in a frame. -/
theorem Attribute.IsRead.everywhere {a : Attribute} (h : a.IsRead scene) :
    a.Everywhere (Node.Formed scene) := by
  obtain ⟨name, v, h⟩ := h
  cases h with
  | literal => exact Attribute.everywhere_literal
  | @content value ns a _ _ hmoves ha =>
    have hns : ∀ n ∈ ns, n.Everywhere (Node.Formed scene) := by
      simpa [Stack.top] using ((hmoves .empty).formed (Stack.MadeOf.empty.opened trivial)).top
    exact Attribute.everywhere_of_ofContent ha hns

/-- One handler call keeps a well-formed stack well-formed. -/
theorem Move.formed (h : Move scene s s') (hs : s.Formed scene) : s'.Formed scene := by
  have hread {as : Attributes} (has : ∀ a ∈ as, a.2.IsRead scene) :
      ∀ a ∈ as, a.2.Everywhere (Node.Formed scene) := fun a ha => (has a ha).everywhere
  have hstands {tag : String} {as : Attributes} {content : List Node} {n : Node}
      (hn : Stands scene tag as content n) (has : ∀ a ∈ as, a.2.Everywhere (Node.Formed scene))
      (hcontent : ∀ n ∈ content, n.Everywhere (Node.Formed scene)) :
      n.Everywhere (Node.Formed scene) :=
    ViewAttributes.stands_everywhere hn (ViewAttributes.isPointer_of_stands hn).formed has hcontent
  cases h with
  | spans h => exact h.formed hs
  | comment | doctype =>
    exact hs.push (Node.everywhere_of_leaf rfl (⟨trivial, trivial⟩))
  | leaf hooks has hleaf htag hnames =>
    refine hs.push (Node.everywhere_element.2 ⟨⟨trivial, ?_⟩, hread has, by simp⟩)
    refine ⟨?_, Scene.isViewTag_eq_false.1 htag, hnames⟩
    simpa [or_comm] using hleaf
  | leafView has hn => exact hs.push (hstands hn (hread has) (List.forall_mem_nil _))
  | start hooks has hvoid hnames => exact hs.opened ⟨hvoid, hread has, hnames⟩
  | stop as hooks hooks' content fs root htag =>
    obtain ⟨⟨hvoid, has, hnames⟩, hcontent⟩ := hs.frames _ List.mem_cons_self
    refine hs.below.push (Node.everywhere_element.2 ⟨⟨trivial, ?_⟩, has, ?_⟩)
    · exact ⟨by simp [hvoid], Scene.isViewTag_eq_false.1 htag, hnames htag⟩
    · simpa using hcontent
  | stopView hooks hn fs root =>
    obtain ⟨⟨-, has, -⟩, hcontent⟩ := hs.frames _ List.mem_cons_self
    exact hs.below.push (hstands hn has (by simpa using hcontent))

/-- The stacks of all builders that are reached are formed. -/
theorem Reached.formed {b : Builder} (h : Reached scene b) : b.stack.Formed scene :=
  h.induction .empty fun _ _ _ hmove => hmove.formed

end Moves

/-! ## Templates -/

section Templates

variable {scene : Scene} {observers : Observers} {source : String} {t : Template}

def Node.branchRoles? : Node → Option (List Role)
  | .conditional bs => some (bs.map fun b => b.1.role)
  | _ => none

/-- In every template that is read, a condition has a first branch that opens it and further
branches that continue it. -/
theorem branched_of_isReadFrom (h : t.IsReadFrom scene observers source)
    {bs : List (Directive × List Node)} (hbs : Node.conditional bs ∈ t.nodes) :
    Branched (bs.map Prod.fst) := by
  obtain ⟨b, hb, hfinish⟩ := h.exists_reached
  have hnodes : ∀ n ∈ t.nodes, n.BlockFormed := by
    rw [Template.forall_mem_nodes, content_of_run_finish hfinish]
    exact hb.formed.nodes
  exact hnodes _ hbs

/-- A condition in an attribute, and one that is still open when the template ends. -/
theorem branched_open_condition :
    let scene : Scene := ⟨none, .empty, false, .passive⟩
    let source := "<p title=\"\x7b\x7bif a\x7d\x7dA\x7b\x7belse if b\x7d\x7dB\x7b\x7b/if\x7d\x7d\">" ++
      "\x7b\x7bunless c\x7d\x7d<br>"
    ∃ t : Template, t.IsReadFrom scene .default source ∧
      t.nodes.filterMap Node.branchRoles? =
        [[.opens .condition none, .elseIf none], [.opens .negation none]] ∧
      ∀ bs, Node.conditional bs ∈ t.nodes → Branched (bs.map Prod.fst) := by
  intro scene source
  have hrun : ((Builder.start .default).run (Build.markup scene source)).1.toOption.map
      (fun t => t.nodes.filterMap Node.branchRoles?) =
        some [[.opens .condition none, .elseIf none], [.opens .negation none]] := by
    decide +kernel
  obtain ⟨t, ht, hroles⟩ := exists_of_toOption_map hrun
  exact ⟨t, .inl ht, hroles, fun bs hbs => branched_of_isReadFrom (.inl ht) hbs⟩

/-- The `else` of a condition need not be its last branch: a condition is continued after it once
more, where a loop is not. -/
theorem not_forall_else_last :
    ¬ ∀ (scene : Scene) (observers : Observers) (source : String) (t : Template),
      t.IsReadFrom scene observers source → ∀ bs, Node.conditional bs ∈ t.nodes →
        Role.otherwise ∉ (bs.map fun b => b.1.role).dropLast := by
  intro h
  let source := "\x7b\x7bif a\x7d\x7dA\x7b\x7belse\x7d\x7dB\x7b\x7belse\x7d\x7dC\x7b\x7b/if\x7d\x7d"
  have hrun : ((Builder.start .default).run (Build.plain (bareScene .empty) source)).1.toOption.map
      (fun t => t.nodes.filterMap Node.branchRoles?) =
        some [[.opens .condition none, .otherwise, .otherwise]] := by
    decide +kernel
  obtain ⟨t, ht, hroles⟩ := exists_of_toOption_map hrun
  obtain ⟨n, hn, hn'⟩ := List.mem_filterMap.1 (hroles ▸ List.mem_singleton_self _)
  cases n with
  | conditional bs =>
    have hlast := h _ _ source t (.inr ht) bs hn
    rw [Option.some.inj hn'] at hlast
    exact hlast (by decide)
  | _ => cases hn'

end Templates

end Stencil
