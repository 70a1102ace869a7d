import Stencil.Proofs.Building.Reached
import Stencil.Proofs.Text.Search
import Stencil.Proofs.Tree.Pointers
import Stencil.Proofs.Tree.Stacks

/-!
# What all nodes have by the way they are made

A property that every node has when a builder makes it, and keeps when a block goes on, is one of
all nodes of every template that is read, wherever they stand. `Node.Inherent` lists what has to be
shown for that, one line for each way in which a node is made or changed. `Node.Common` is its part
without elements, whose hooks depend on the observers too.
-/

namespace Stencil

open Builder Nesting

/-- A directive that is read from a text. -/
def Directive.IsRead (d : Directive) : Prop :=
  ∃ s, Directive.read s = .ok d

theorem Span.isRead_of_mem_scan {text : String} {d : Directive}
    (h : .directive d ∈ (scan text).spans) : d.IsRead :=
  Span.exists_read_of_mem_scan h

/-- All nodes but elements have the property by the way they are made. -/
structure Node.Common (scene : Scene) (P : Node → Prop) : Prop where
  text (data : String) : P (.text data)
  comment (data : String) : P (.comment data)
  doctype (name : String) (publicId systemId : Option String) : P (.doctype name publicId systemId)
  bare (e : Expr) : P (.value (.bare e))
  value {d : Directive} (hd : d.IsRead) : P (.value (.marked d))
  unbranched : P (.conditional [])
  branch {d : Directive} {earlier : List (Directive × List Node)} (hd : d.IsRead)
    (h : P (.conditional earlier)) (ns : List Node) : P (.conditional (earlier ++ [(d, ns)]))
  each {d : Directive} (hd : d.IsRead) (ns : List Node) : P (.each d ns none)
  eachElse {d : Directive} {body : List Node} (h : P (.each d body none)) (ns : List Node) :
    P (.each d body (some ns))
  block {d : Directive} (hd : d.IsRead) (ns : List Node) : P (.block d ns)
  stands {tag : String} {as : Attributes} {content : List Node} {n : Node}
    (h : Stands scene tag as content n) : P n
  refers {d : Directive} {n : Node} (hd : d.IsRead) (h : d.Refers scene n) : P n

/-- The property of nodes that comes with the way they are made. -/
structure Node.Inherent (scene : Scene) (P : Node → Prop) : Prop extends Node.Common scene P where
  element (tag : String) (as : Attributes) (content : Option (List Node)) (selfClosing : Bool)
    (hooks : Option (List Hook)) : P (.element tag as content selfClosing hooks)

/-- All nodes of a stack have the property, and its frames become nodes that have it. -/
abbrev Stack.Has (P : Node → Prop) : Stack → Prop :=
  Stack.MadeOf (Opener.Yields P) P

namespace Node

variable {scene : Scene} {P : Node → Prop} {s s' : Stack} {d : Directive}

/-! ## Frames -/

theorem yields_element {tag : String} {as : Attributes} {hooks : Option (List Hook)}
    (helement : ∀ content, P (.element tag as (some content) false hooks))
    (has : ∀ a ∈ as, a.2.Everywhere P) : (Opener.element tag as hooks).Yields P := by
  rintro content n hcontent ⟨⟩
  exact everywhere_element.2 ⟨helement content, has, by simpa using hcontent⟩

theorem yields_detached : Opener.detached.Yields P := by
  rintro content n - ⟨⟩

namespace Common

theorem yields_conditional (hP : Common scene P) (hd : d.IsRead)
    {earlier : List (Directive × List Node)} (h : (conditional earlier).Everywhere P) :
    (Opener.conditional earlier d).Yields P := by
  rintro content n hcontent ⟨⟩
  rw [everywhere_conditional] at h ⊢
  exact ⟨hP.branch hd h.1 content,
    List.forall_mem_append.2 ⟨h.2, List.forall_mem_singleton.2 hcontent⟩⟩

theorem yields_eachElse (hP : Common scene P) {body : List Node}
    (h : (Node.each d body none).Everywhere P) : (Opener.eachElse d body).Yields P := by
  rintro content n hcontent ⟨⟩
  rw [everywhere_each] at h ⊢
  exact ⟨hP.eachElse h.1 content, h.2.1, by simpa using hcontent⟩

/-- A block that is opened by a directive of the source yields nodes with the property. -/
theorem yields_openerOf (hP : Common scene P) (hd : d.IsRead) (w : BlockWord) :
    (Build.openerOf w d).Yields P := by
  cases w with
  | condition | negation =>
    exact hP.yields_conditional hd (everywhere_conditional.2 ⟨hP.unbranched, by simp⟩)
  | each =>
    rintro content n hcontent ⟨⟩
    exact everywhere_each.2 ⟨hP.each hd content, hcontent, by simp⟩
  | scope | unbound | bound =>
    rintro content n hcontent ⟨⟩
    exact everywhere_block.2 ⟨hP.block hd content, hcontent⟩

/-! ## Moves -/

/-- One span keeps the property on every node of the stack. -/
theorem spanMove (hP : Common scene P) {span : Span} (h : SpanMove scene span s s')
    (hspan : ∀ d, span = .directive d → d.IsRead) (hs : s.Has P) : s'.Has P := by
  cases h with
  | text data => exact hs.push (everywhere_of_leaf rfl (hP.text data))
  | value => exact hs.push (everywhere_of_leaf rfl (hP.value (hspan _ rfl)))
  | view _ _ hn =>
    have hd := hspan _ rfl
    exact hs.push (ViewAttributes.refers_everywhere hP.bare (hP.value hd) hn (hP.refers hd hn))
  | opens => exact hs.opened (hP.yields_openerOf (hspan _ rfl) _)
  | closes _ hclosed => exact hs.closed? hclosed
  | branch _ hclosed hn =>
    have hs' := hs.closed? hclosed
    exact hs'.dropNewest.opened (hP.yields_conditional (hspan _ rfl) (hs'.newest hn))
  | eachElse _ hclosed hn =>
    have hs' := hs.closed? hclosed
    exact hs'.dropNewest.opened (hP.yields_eachElse (hs'.newest hn))

theorem spanMoves (hP : Common scene P) {spans : List Span} (h : SpanMoves scene spans s s')
    (hspans : ∀ d, .directive d ∈ spans → d.IsRead) (hs : s.Has P) : s'.Has P := by
  induction h with
  | nil => exact hs
  | cons hmove _ ih =>
    have hs' := hP.spanMove hmove (fun d hd => hspans d (hd ▸ List.mem_cons_self)) hs
    exact ih (fun d hd => hspans d (List.mem_cons_of_mem _ hd)) hs'

/-- The nodes inside an attribute are those that its value leaves in a frame. -/
theorem everywhere_of_isRead (hP : Common scene P) {a : Attribute} (h : a.IsRead scene) :
    a.Everywhere P := by
  obtain ⟨name, v, h⟩ := h
  cases h with
  | literal => exact Attribute.everywhere_literal
  | @content value ns a _ _ hmoves ha =>
    have hns : ∀ n ∈ ns, n.Everywhere P := by
      have hframe : (Stack.empty.opened .detached).Has P :=
        Stack.MadeOf.empty.opened yields_detached
      have hread := hP.spanMoves (hmoves .empty) (fun d => Span.isRead_of_mem_scan) hframe
      simpa [Stack.top] using hread.top
    exact Attribute.everywhere_of_ofContent ha hns

end Common

namespace Inherent

/-- One handler call keeps the property on every node of the stack. -/
theorem move (hP : Inherent scene P) (h : Move scene s s') (hs : s.Has P) : s'.Has P := by
  have hread {as : Attributes} (has : ∀ a ∈ as, a.2.IsRead scene) :
      ∀ a ∈ as, a.2.Everywhere P := fun a ha => hP.everywhere_of_isRead (has a ha)
  cases h with
  | spans h => exact hP.spanMoves h (fun d => Span.isRead_of_mem_scan) hs
  | comment data => exact hs.push (everywhere_of_leaf rfl (hP.comment data))
  | doctype name publicId systemId => exact hs.push (everywhere_of_leaf rfl (hP.doctype ..))
  | leaf hooks has => exact hs.push (everywhere_element.2 ⟨hP.element .., hread has, by simp⟩)
  | leafView has hn =>
    exact hs.push
      (ViewAttributes.stands_everywhere hn (hP.stands hn) (hread has) (List.forall_mem_nil _))
  | start hooks has => exact hs.opened (yields_element (fun _ => hP.element ..) (hread has))
  | stop as hooks hooks' content fs root =>
    obtain ⟨hopener, hcontent⟩ := hs.frames _ List.mem_cons_self
    have hn := hopener content.reverse _ (by simpa using hcontent) rfl
    rw [everywhere_element] at hn
    exact hs.below.push (everywhere_element.2 ⟨hP.element .., hn.2⟩)
  | @stopView tag as content n hooks hn fs root =>
    obtain ⟨hopener, hcontent⟩ := hs.frames _ List.mem_cons_self
    have helement := hopener content.reverse _ (by simpa using hcontent) rfl
    rw [everywhere_element] at helement
    exact hs.below.push
      (ViewAttributes.stands_everywhere hn (hP.stands hn) helement.2.1 (by simpa using hcontent))

/-- All nodes of a template that is read have the property. -/
theorem forall_mem_nodes (hP : Inherent scene P) {observers : Observers} {source : String}
    {t : Template} (h : t.IsReadFrom scene observers source) : ∀ n ∈ t.nodes, P n := by
  obtain ⟨b, hb, hfinish⟩ := h.exists_reached
  have hstack : b.stack.Has P := hb.induction .empty fun _ _ _ hmove => hP.move hmove
  rw [Template.forall_mem_nodes, content_of_run_finish hfinish]
  exact hstack.nodes

end Inherent

end Node

end Stencil
