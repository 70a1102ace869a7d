import Stencil.Proofs.Building.Reached
import Stencil.Proofs.Tree.Nodes

/-!
# While an element is open

An element that stands for a view is open from its start tag on. The calls that follow work above
its frame until one of them closes it: then a pointer takes its place, and what is below is as it
was before the start tag. If none does, the element is open at the end of the template. Where that
is no error the tree keeps the element as it stands.
-/

namespace Stencil

open Builder Nesting

/-- A frame with this opener stands on the base, perhaps with further frames above it. -/
def Stack.OpenOver (base : Stack) (o : Opener) (s : Stack) : Prop :=
  ∃ above content, s.frames = above ++ ⟨o, content⟩ :: base.frames ∧ s.root = base.root

variable {scene : Scene} {base s s' : Stack} {o : Opener} {tag : String} {as : Attributes}
  {hooks : Option (List Hook)}

namespace Stack.OpenOver

/-- An opener that is opened on a base is open over it. -/
theorem start (base : Stack) (o : Opener) : OpenOver base o (base.opened o) :=
  ⟨[], [], rfl, rfl⟩

theorem setTop (h : OpenOver base o s) (content : List Node) :
    OpenOver base o (s.setTop content) := by
  obtain ⟨frames, root⟩ := s
  obtain ⟨above, inside, hframes, hroot⟩ := h
  obtain rfl : frames = above ++ ⟨o, inside⟩ :: base.frames := hframes
  cases above with
  | nil => exact ⟨[], content, rfl, hroot⟩
  | cons f above => exact ⟨{ f with content } :: above, inside, rfl, hroot⟩

theorem opened (h : OpenOver base o s) (inner : Opener) : OpenOver base o (s.opened inner) := by
  obtain ⟨above, content, hframes, hroot⟩ := h
  refine ⟨⟨inner, []⟩ :: above, content, ?_, hroot⟩
  rw [Stack.opened, hframes, List.cons_append]

/-- Without its innermost frame the stack has the frame still open, or it is the base. -/
theorem below {f : Frame} {fs : List Frame} {root : List Node}
    (h : OpenOver base o ⟨f :: fs, root⟩) :
    OpenOver base o ⟨fs, root⟩ ∨ f.opener = o ∧ base = ⟨fs, root⟩ := by
  obtain ⟨above, content, hframes, hroot⟩ := h
  cases above with
  | nil =>
    obtain ⟨rfl, rfl⟩ := List.cons.inj hframes
    exact .inr ⟨rfl, congrArg (Stack.mk base.frames) hroot.symm⟩
  | cons g above => exact .inl ⟨above, content, (List.cons.inj hframes).2, hroot⟩

/-- Only the element is what its frame is closed to. If the frame of the element were closed, the
newest node would be the element. -/
theorem closed? {n : Node} (h : OpenOver base (.element tag as hooks) s)
    (hs : s.closed? = some s') (hn : s'.newest? = some n) (hblock : n.isElement tag = false) :
    OpenOver base (.element tag as hooks) s' := by
  obtain ⟨frames, root⟩ := s
  cases frames with
  | nil => cases hs
  | cons f fs =>
    obtain hbelow | ⟨hopener, -⟩ := h.below
    · rw [← Option.some.inj hs]
      split
      · exact hbelow.setTop _
      · exact hbelow
    · obtain ⟨inner, content⟩ := f
      obtain rfl : inner = .element tag as hooks := hopener
      rw [← Option.some.inj hs] at hn
      obtain rfl := Option.some.inj ((newest?_push _ _).symm.trans hn)
      simp [Node.isElement] at hblock

end Stack.OpenOver

/-! ## Moves -/

theorem Node.isElement_of_opening? {n : Node} {d : Directive} (h : n.opening? = some d)
    (tag : String) : n.isElement tag = false := by
  cases n with
  | element => cases h
  | _ => rfl

/-- Spans leave an element open. -/
theorem SpanMove.openOver {span : Span} (h : SpanMove scene span s s')
    (hs : Stack.OpenOver base (.element tag as hooks) s) :
    Stack.OpenOver base (.element tag as hooks) s' := by
  cases h with
  | text | value | view => exact hs.setTop _
  | opens => exact hs.opened _
  | closes _ hclosed hn hfirst => exact hs.closed? hclosed hn (Node.isElement_of_opening? hfirst tag)
  | branch _ hclosed hn | eachElse _ hclosed hn => exact ((hs.closed? hclosed hn rfl).setTop _).opened _

/-- The directives of a text do not close the element in which they stand. -/
theorem SpanMoves.openOver {spans : List Span} (h : SpanMoves scene spans s s')
    (hs : Stack.OpenOver base (.element tag as hooks) s) :
    Stack.OpenOver base (.element tag as hooks) s' := by
  induction h with
  | nil => exact hs
  | cons hmove _ ih => exact ih (hmove.openOver hs)

/-- A call leaves the element open, or closes it and leaves a pointer in its place. -/
theorem Move.openOver (h : Move scene s s') (hview : scene.isViewTag tag = true)
    (hs : Stack.OpenOver base (.element tag as hooks) s) :
    Stack.OpenOver base (.element tag as hooks) s' ∨
      ∃ content n, Stands scene tag as content n ∧ s' = base.push n := by
  cases h with
  | spans h => exact .inl (h.openOver hs)
  | comment | doctype | leaf | leafView => exact .inl (hs.setTop _)
  | start => exact .inl (hs.opened _)
  | stop _ _ _ _ _ _ htag =>
    obtain hbelow | ⟨hopener, -⟩ := hs.below
    · exact .inl (hbelow.setTop _)
    · cases hopener
      rw [hview] at htag
      cases htag
  | stopView _ hn =>
    obtain hbelow | ⟨hopener, rfl⟩ := hs.below
    · exact .inl (hbelow.setTop _)
    · cases hopener
      exact .inr ⟨_, _, hn, rfl⟩

/-- A call among calls that all succeed, from the builder that the calls before it reach. -/
theorem Reached.exists_of_append {b b' : Builder} {before after : List Call} {c : Call}
    (hb : Reached scene b)
    (h : b.run ((before ++ c :: after).forM (Call.run scene)) = (.ok (), b')) :
    ∃ b₁ b₂, b.run (before.forM (Call.run scene)) = (.ok (), b₁) ∧ Reached scene b₁ ∧
      b₁.run (c.run scene) = (.ok (), b₂) ∧ b₂.run (after.forM (Call.run scene)) = (.ok (), b') := by
  rw [Build.forM_append] at h
  obtain ⟨_, b₁, hbefore, hrest⟩ := run_bind_eq_ok.1 h
  rw [run_forM_cons] at hrest
  obtain ⟨_, b₂, hcall, hafter⟩ := run_bind_eq_ok.1 hrest
  exact ⟨b₁, b₂, hbefore, .forM hb hbefore, hcall, hafter⟩

/-- Behind the calls `before` the calls change the stack as `R` says. -/
def Call.EffectFrom (scene : Scene) (b : Builder) (before calls : List Call)
    (R : Stack → Stack → Prop) : Prop :=
  ∃ b₁ b₂ : Builder, b.run (before.forM (Call.run scene)) = (.ok (), b₁) ∧
    b₁.run (calls.forM (Call.run scene)) = (.ok (), b₂) ∧ R b₁.stack b₂.stack

/-- Any number of calls leave the element open, or the first of them put a pointer in its place. -/
theorem Reached.openOver {b b' : Builder} {calls : List Call} (hb : Reached scene b)
    (hview : scene.isViewTag tag = true)
    (hs : Stack.OpenOver base (.element tag as hooks) b.stack)
    (h : b.run (calls.forM (Call.run scene)) = (.ok (), b')) :
    Stack.OpenOver base (.element tag as hooks) b'.stack ∨
      ∃ taken later b₁ content n, calls = taken ++ later ∧
        b.run (taken.forM (Call.run scene)) = (.ok (), b₁) ∧ Stands scene tag as content n ∧
        b₁.stack = base.push n := by
  induction calls generalizing b with
  | nil =>
    rw [run_forM_nil, Prod.mk.injEq] at h
    exact .inl (h.2 ▸ hs)
  | cons c calls ih =>
    rw [run_forM_cons] at h
    obtain ⟨_, b₁, hcall, hcalls⟩ := run_bind_eq_ok.1 h
    obtain hs | ⟨content, n, hn, hpushed⟩ := (Call.move_of_run hb.attached hcall).openOver hview hs
    · refine (ih (.call hb hcall) hs hcalls).imp_right ?_
      rintro ⟨taken, later, b₂, content, n, rfl, hrun, hn, hpushed⟩
      refine ⟨c :: taken, later, b₂, content, n, rfl, ?_, hn, hpushed⟩
      rw [run_forM_cons, run_bind_of_ok hcall, hrun]
    · refine .inr ⟨[c], calls, b₁, content, n, rfl, ?_, hn, hpushed⟩
      rw [run_forM_cons, run_bind_of_ok hcall, run_forM_nil]

/-! ## The end of the template -/

/-- What is inside a node that a frame becomes has its properties. -/
theorem Opener.everywhere_of_close {P : Node → Prop} {content : List Node} {n : Node}
    (h : o.close content = some n) (hn : n.Everywhere P) : ∀ m ∈ content, m.Everywhere P := by
  cases o with
  | element =>
    cases h
    exact (Node.everywhere_element.1 hn).2.2 content rfl
  | conditional earlier d =>
    cases h
    exact (Node.everywhere_conditional.1 hn).2 (d, content) (by simp)
  | each =>
    cases h
    exact (Node.everywhere_each.1 hn).2.1
  | eachElse =>
    cases h
    exact (Node.everywhere_each.1 hn).2.2 content rfl
  | block =>
    cases h
    exact (Node.everywhere_block.1 hn).2
  | detached => cases h

namespace Stack

variable {root : List Node}

/-- What is closed stays inside the template. -/
theorem everywhere_of_closeAll {P : Node → Prop} {frames : List Frame}
    (hframes : ∀ f ∈ frames, f.opener ≠ .detached) {inner : List Node}
    (h : ∀ n ∈ closeAll root frames inner, n.Everywhere P) : ∀ n ∈ inner, n.Everywhere P := by
  induction frames generalizing inner with
  | nil => exact (List.forall_mem_append.1 h).1
  | cons f fs ih =>
    rw [List.forall_mem_cons] at hframes
    obtain ⟨m, hm⟩ := exists_close hframes.1 (inner ++ f.content).reverse
    rw [closeAll, hm] at h
    have hcontent := Opener.everywhere_of_close hm (ih hframes.2 h m List.mem_cons_self)
    exact fun n hn => hcontent n (by simp [hn])

/-- What is closed above a frame ends up inside of it. -/
theorem closeAll_append (root : List Node) (above below : List Frame) (inner : List Node) :
    ∃ inside, closeAll root (above ++ below) inner = closeAll root below inside := by
  induction above generalizing inner with
  | nil => exact ⟨inner, rfl⟩
  | cons f above ih => exact ih _

/-- A template can end with an open frame only where this is no error. -/
theorem OpenOver.strict_eq_false {b : Builder} {t : Template} (h : OpenOver base o b.stack)
    (hfinish : (b.run (Build.finish scene)).1 = .ok t) : scene.strict = false := by
  refine Bool.eq_false_iff.2 fun hstrict => ?_
  obtain ⟨above, content, hframes, -⟩ := h
  have hnone := ((run_finish_eq_ok_iff hstrict b t).1 hfinish).1
  simp [hframes] at hnone

/-- An element that is open at the end is in the tree. -/
theorem OpenOver.exists_mem_nodes (h : OpenOver base (.element tag as hooks) s) (hs : Attached s)
    {t : Template} (ht : t.content = s.nodes) :
    ∃ content, .element tag as (some content) false hooks ∈ t.nodes := by
  obtain ⟨above, content, hframes, -⟩ := h
  have hattached : ∀ f ∈ base.frames, f.opener ≠ .detached := by
    intro f hf
    exact hs f (hframes ▸ List.mem_append_right _ (List.mem_cons_of_mem _ hf))
  obtain ⟨inside, hinside⟩ :=
    closeAll_append s.root above (⟨.element tag as hooks, content⟩ :: base.frames) []
  refine ⟨(inside ++ content).reverse, ?_⟩
  by_contra hnot
  have hnone : ∀ n ∈ t.nodes, n ≠ .element tag as (some (inside ++ content).reverse) false hooks :=
    fun n hn heq => hnot (heq ▸ hn)
  rw [Template.forall_mem_nodes, ht, nodes, hframes, hinside] at hnone
  have hclosed := everywhere_of_closeAll hattached fun n hn => hnone n (List.mem_reverse.2 hn)
  exact (hclosed _ List.mem_cons_self).1 rfl

end Stack

end Stencil
