import Stencil.Proofs.Tree.Nodes
import Stencil.Template.Frame

/-!
# All nodes of a stack

`Stack.MadeOf O P` says that all nodes of a stack, with all nodes inside them, are as `P` says, and
that every open frame was opened as `O` says. The lemmas carry it through the changes that moves
are made of.

With `Opener.Yields P` for `O`, closing a frame keeps it too, whatever the frame becomes.
-/

namespace Stencil

structure Stack.MadeOf (O : Opener → Prop) (P : Node → Prop) (s : Stack) : Prop where
  root : ∀ n ∈ s.root, n.Everywhere P
  frames : ∀ f ∈ s.frames, O f.opener ∧ ∀ n ∈ f.content, n.Everywhere P

/-- With content as `P` says, the frame becomes a node as `P` says. -/
def Opener.Yields (P : Node → Prop) (o : Opener) : Prop :=
  ∀ content n, (∀ m ∈ content, m.Everywhere P) → o.close content = some n → n.Everywhere P

variable {O : Opener → Prop} {P : Node → Prop} {s s' : Stack} {n : Node} {o : Opener}
  {content : List Node}

namespace Stack.MadeOf

theorem empty : Stack.MadeOf O P .empty :=
  ⟨List.forall_mem_nil _, List.forall_mem_nil _⟩

theorem top (h : s.MadeOf O P) : ∀ n ∈ s.top, n.Everywhere P := by
  obtain ⟨frames, root⟩ := s
  cases frames with
  | nil => exact h.root
  | cons f fs => exact (h.frames f List.mem_cons_self).2

theorem setTop (h : s.MadeOf O P) (hcontent : ∀ n ∈ content, n.Everywhere P) :
    (s.setTop content).MadeOf O P := by
  obtain ⟨frames, root⟩ := s
  cases frames with
  | nil => exact ⟨hcontent, List.forall_mem_nil _⟩
  | cons f fs =>
    have hframes := List.forall_mem_cons.1 h.frames
    exact ⟨h.root, List.forall_mem_cons.2 ⟨⟨hframes.1.1, hcontent⟩, hframes.2⟩⟩

theorem push (h : s.MadeOf O P) (hn : n.Everywhere P) : (s.push n).MadeOf O P :=
  h.setTop (List.forall_mem_cons.2 ⟨hn, h.top⟩)

theorem dropNewest (h : s.MadeOf O P) : s.dropNewest.MadeOf O P :=
  h.setTop fun n hn => h.top n (List.mem_of_mem_drop hn)

theorem opened (h : s.MadeOf O P) (ho : O o) : (s.opened o).MadeOf O P :=
  ⟨h.root, List.forall_mem_cons.2 ⟨⟨ho, List.forall_mem_nil _⟩, h.frames⟩⟩

theorem below {f : Frame} {fs : List Frame} {root : List Node}
    (h : Stack.MadeOf O P ⟨f :: fs, root⟩) : Stack.MadeOf O P ⟨fs, root⟩ :=
  ⟨h.root, (List.forall_mem_cons.1 h.frames).2⟩

/-- The newest node of a stack has the property. -/
theorem newest (h : s.MadeOf O P) (hn : s.newest? = some n) : n.Everywhere P :=
  h.top n (List.mem_of_head? hn)

/-- Closing the innermost block keeps the property on every node. -/
theorem closed? (h : s.MadeOf (Opener.Yields P) P) (hs : s.closed? = some s') :
    s'.MadeOf (Opener.Yields P) P := by
  obtain ⟨frames, root⟩ := s
  cases frames with
  | nil => cases hs
  | cons f fs =>
    obtain ⟨hopener, hcontent⟩ := h.frames f List.mem_cons_self
    simp only [Stack.closed?, Option.some.injEq] at hs
    subst hs
    split
    · rename_i m hm
      exact h.below.push (hopener _ _ (by simpa using hcontent) hm)
    · exact h.below

/-- Whatever is open at the end, the nodes of the template are as `P` says. By induction on the
frames: what was inside those above is closed already. -/
theorem nodes (h : s.MadeOf (Opener.Yields P) P) : ∀ n ∈ s.nodes, n.Everywhere P := by
  obtain ⟨frames, root⟩ := s
  have hclose : ∀ above : List Node, (∀ n ∈ above, n.Everywhere P) →
      ∀ n ∈ Stack.closeAll root frames above, n.Everywhere P := by
    induction frames with
    | nil => exact fun above habove => List.forall_mem_append.2 ⟨habove, h.root⟩
    | cons f fs ih =>
      intro above habove
      obtain ⟨hopener, hcontent⟩ := h.frames f List.mem_cons_self
      refine ih h.below _ ?_
      split
      · rename_i m hm
        have hall : ∀ n ∈ (above ++ f.content).reverse, n.Everywhere P := by
          intro n hn
          obtain hn | hn := List.mem_append.1 (List.mem_reverse.1 hn)
          · exact habove n hn
          · exact hcontent n hn
        exact List.forall_mem_singleton.2 (hopener _ _ hall hm)
      · exact List.forall_mem_nil _
  simpa [Stack.nodes] using hclose [] (List.forall_mem_nil _)

end Stack.MadeOf

end Stencil
