import Stencil.Proofs.Building.Reached

/-!
# The expressions of a tree

`Node.exprs` lists the expressions of a node in the order in which they stand in the source. The
value of a constant attribute is one of them, since a directive may have given it. A stack has
expressions too: those of its nodes, and those with which its open frames began. A span adds its own
expressions at the end and changes nothing before, so the expressions of a template are those of its
source, whatever else the source has.
-/

namespace Stencil

open Builder Nesting

/-! ## Nodes -/

def Hook.exprs : Hook → List Expr
  | .named _ => []
  | .onElement _ e | .onComponent _ e => [e]

/-- The expressions of hooks, of which there may be none. -/
def Hook.exprsAll (hooks : Option (List Hook)) : List Expr :=
  (hooks.getD []).flatMap exprs

namespace Node

mutual

def exprs : Node → List Expr
  | .value t => t.expr?.toList
  | .element _ as content _ hooks =>
    exprsAttributes as ++ Hook.exprsAll hooks ++ exprsContent content
  | .conditional bs => exprsBranches bs
  | .each d ns otherwise => d.expr?.toList ++ exprsAll ns ++ exprsContent otherwise
  | .block d ns => d.expr?.toList ++ exprsAll ns
  | .view _ as hooks => exprsViewAttributes? as ++ Hook.exprsAll hooks
  | .dynamicView name as hooks =>
    exprsDynamic name ++ exprsViewAttributes? as ++ Hook.exprsAll hooks
  | _ => []
termination_by structural n => n

def exprsAll : List Node → List Expr
  | [] => []
  | n :: ns => exprs n ++ exprsAll ns
termination_by structural ns => ns

def exprsContent : Option (List Node) → List Expr
  | none => []
  | some ns => exprsAll ns
termination_by structural content => content

def exprsBranches : List (Directive × List Node) → List Expr
  | [] => []
  | (d, ns) :: bs => d.expr?.toList ++ exprsAll ns ++ exprsBranches bs
termination_by structural bs => bs

def exprsDynamic : Dynamic → List Expr
  | .term t => t.expr?.toList
  | .nodes ns => exprsAll ns
termination_by structural d => d

def exprsAttribute : Attribute → List Expr
  | .literal v => [.literal v]
  | .dynamic d => exprsDynamic d
termination_by structural a => a

def exprsAttributes : List (String × Attribute) → List Expr
  | [] => []
  | (_, a) :: as => exprsAttribute a ++ exprsAttributes as
termination_by structural as => as

def exprsViewAttribute : ViewAttribute → List Expr
  | .literal v => [.literal v]
  | .wrapped d => exprsDynamic d
  | .array _ entries => exprsEntries entries
termination_by structural a => a

def exprsViewAttributes : List (String × ViewAttribute) → List Expr
  | [] => []
  | (_, a) :: as => exprsViewAttribute a ++ exprsViewAttributes as
termination_by structural as => as

def exprsViewAttributes? : Option (List (String × ViewAttribute)) → List Expr
  | none => []
  | some as => exprsViewAttributes as
termination_by structural as => as

def exprsEntries : List (List (String × ViewAttribute)) → List Expr
  | [] => []
  | as :: es => exprsViewAttributes as ++ exprsEntries es
termination_by structural es => es

end

theorem exprsAll_append (ns ms : List Node) : exprsAll (ns ++ ms) = exprsAll ns ++ exprsAll ms := by
  induction ns with
  | nil => rfl
  | cons n ns ih => rw [List.cons_append, exprsAll, exprsAll, ih, List.append_assoc]

theorem exprsBranches_append (bs cs : List (Directive × List Node)) :
    exprsBranches (bs ++ cs) = exprsBranches bs ++ exprsBranches cs := by
  induction bs with
  | nil => rfl
  | cons b bs ih => simp [exprsBranches, ih]

@[simp]
theorem exprsAll_singleton (n : Node) : exprsAll [n] = n.exprs := by
  rw [exprsAll, exprsAll, List.append_nil]

end Node

def Template.exprs (t : Template) : List Expr :=
  Node.exprsAll t.content

/-! ## Stacks -/

def Opener.exprs : Opener → List Expr
  | .element _ as hooks => Node.exprsAttributes as ++ Hook.exprsAll hooks
  | .conditional earlier d => Node.exprsBranches earlier ++ d.expr?.toList
  | .each d | .block d => d.expr?.toList
  | .eachElse d body => d.expr?.toList ++ Node.exprsAll body
  | .detached => []

def Frame.exprs (f : Frame) : List Expr :=
  f.opener.exprs ++ Node.exprsAll f.content.reverse

namespace Stack

def exprs (s : Stack) : List Expr :=
  Node.exprsAll s.root.reverse ++ s.frames.reverse.flatMap Frame.exprs

variable {s s' : Stack}

@[simp]
theorem exprs_push (s : Stack) (n : Node) : (s.push n).exprs = s.exprs ++ n.exprs := by
  obtain ⟨frames, root⟩ := s
  cases frames with
  | nil => simp [exprs, push, setTop, top, Node.exprsAll_append]
  | cons f fs => simp [exprs, push, setTop, top, Frame.exprs, Node.exprsAll_append]

@[simp]
theorem exprs_opened (s : Stack) (o : Opener) : (s.opened o).exprs = s.exprs ++ o.exprs := by
  simp [exprs, opened, Frame.exprs, Node.exprsAll]

theorem exprs_dropNewest {n : Node} (h : s.newest? = some n) :
    s.dropNewest.exprs ++ n.exprs = s.exprs := by
  rw [← exprs_push, push_dropNewest h]

end Stack

/-- Closing a block keeps its expressions, in their order. -/
theorem Opener.exprs_close {o : Opener} {content : List Node} {n : Node}
    (h : o.close content = some n) : n.exprs = o.exprs ++ Node.exprsAll content := by
  cases o with
  | element | each | block =>
    cases h
    simp [Node.exprs, Opener.exprs, Node.exprsContent]
  | eachElse =>
    cases h
    simp [Node.exprs, Opener.exprs, Node.exprsContent]
  | conditional =>
    cases h
    simp [Node.exprs, Opener.exprs, Node.exprsBranches_append, Node.exprsBranches]
  | detached => cases h

section

variable {scene : Scene} {s s' : Stack}

/-- Closing the innermost block keeps the expressions of the stack, in their order. -/
theorem Stack.exprs_closed? (hs : Attached s) (h : s.closed? = some s') : s'.exprs = s.exprs := by
  obtain ⟨frames, root⟩ := s
  cases frames with
  | nil => cases h
  | cons f fs =>
    obtain ⟨n, hn⟩ := exists_close (hs f List.mem_cons_self) f.content.reverse
    simp only [Stack.closed?, hn, Option.some.injEq] at h
    rw [← h, Stack.exprs_push, Opener.exprs_close hn]
    simp [Stack.exprs, Frame.exprs]

/-- The template has the expressions of the stack, also if nodes were open. By induction on the
frames: what was inside those above is closed already. -/
theorem Stack.exprs_nodes (hs : Attached s) : Node.exprsAll s.nodes = s.exprs := by
  obtain ⟨frames, root⟩ := s
  have hclose : ∀ above : List Node, Node.exprsAll (Stack.closeAll root frames above).reverse =
      Stack.exprs ⟨frames, root⟩ ++ Node.exprsAll above.reverse := by
    induction frames with
    | nil => simp [Stack.closeAll, Stack.exprs, Node.exprsAll_append]
    | cons f fs ih =>
      intro above
      obtain ⟨n, hn⟩ := exists_close (hs f List.mem_cons_self) (above ++ f.content).reverse
      simp only [Stack.closeAll, hn]
      rw [ih hs.below, List.reverse_singleton, Node.exprsAll_singleton, Opener.exprs_close hn]
      simp [Stack.exprs, Frame.exprs, Node.exprsAll_append]
  simpa [Stack.nodes, Node.exprsAll] using hclose []

/-! ## Spans -/

/-- The pointer that a view directive stands for, if there is one. -/
def Directive.pointer? (scene : Scene) (d : Directive) : Option Node :=
  ((Builder.start .empty).run (Build.viewDirective scene d)).2.stack.newest?

theorem Directive.Refers.pointer?_eq {d : Directive} {n : Node} (h : d.Refers scene n) :
    d.pointer? scene = some n := by
  rw [Directive.pointer?, run_viewDirective_of_refers h, stack_withStack, newest?_push]

def Span.exprs (scene : Scene) : Span → List Expr
  | .literal _ => []
  | .directive d =>
    if d.role.isView then (d.pointer? scene).toList.flatMap Node.exprs else d.expr?.toList

/-- Directives that leave no trace in a tree, or may leave none, have no expression. -/
def Directive.Sound (d : Directive) : Prop :=
  d.role = .otherwise ∨ d.role.isEnd = true → d.expr? = none

/-- A span adds its expressions and keeps those that are there. -/
theorem SpanMove.exprs {span : Span} (h : SpanMove scene span s s') (hs : Attached s)
    (hsound : ∀ d, span = .directive d → d.Sound) : s'.exprs = s.exprs ++ span.exprs scene := by
  cases h with
  | text data => simp [Span.exprs, Node.exprs]
  | value _ hview => simp [Span.exprs, hview, Node.exprs, Term.expr?]
  | view _ hview hn => simp [Span.exprs, hview, hn.pointer?_eq]
  | @opens d w a hrole =>
    have hopener : (Build.openerOf w d).exprs = d.expr?.toList := by
      cases w <;> simp [Build.openerOf, Opener.exprs, Node.exprsBranches]
    simp [Span.exprs, hrole, Role.isView, Role.words, hopener]
  | @closes d _ _ _ _ _ _ hrole hclosed =>
    have hnone := hsound d rfl (.inr (by simp [hrole, Role.isEnd]))
    rw [Stack.exprs_closed? hs hclosed]
    simp [Span.exprs, hrole, Role.isView, Role.words, hnone]
  | @branch d bs _ _ hd hclosed hn =>
    have hview : d.role.isView = false := by
      obtain hd | ⟨a, hd⟩ := hd <;> simp [hd, Role.isView, Role.words]
    rw [← Stack.exprs_closed? hs hclosed, ← Stack.exprs_dropNewest hn, Stack.exprs_opened]
    simp [Span.exprs, hview, Opener.exprs, Node.exprs]
  | @eachElse d _ _ _ _ hrole hclosed hn =>
    have hnone := hsound d rfl (.inl hrole)
    rw [← Stack.exprs_closed? hs hclosed, ← Stack.exprs_dropNewest hn, Stack.exprs_opened]
    simp [Span.exprs, hrole, Role.isView, Role.words, hnone, Opener.exprs, Node.exprs,
      Node.exprsContent]

/-- The spans of a text add their expressions at the end. -/
theorem SpanMoves.exprs {spans : List Span} (h : SpanMoves scene spans s s') (hs : Attached s)
    (hsound : ∀ d, .directive d ∈ spans → d.Sound) :
    s'.exprs = s.exprs ++ spans.flatMap (Span.exprs scene) := by
  induction h with
  | nil => simp
  | @cons span spans _ _ _ hmove _ ih =>
    have hfirst := hmove.exprs hs fun d hd => hsound d (hd ▸ List.mem_cons_self)
    rw [ih (hmove.attached hs) fun d hd => hsound d (List.mem_cons_of_mem _ hd), hfirst,
      List.flatMap_cons, List.append_assoc]

end

end Stencil
