import Mathlib.Data.List.Chain
import Stencil.Proofs.Tree.Formed

/-!
# Frames and the tree

A stack keeps the open nodes apart from the tree, as frames that only become nodes when they are
closed. `Stack.levels` puts them in place: it lists the contents of the open nodes as the tree will
show them, innermost first, and the content of the template last.

In every builder that is reached, each open node is the last item of the level around it, and its
open content is the level inside. So closing a frame leaves the tree as it is, and a template that
ends too early can name the innermost open node.
-/

namespace Stencil

open Builder Nesting

/-- The content to which a node that is open is added: that of an element, the last branch of a
block. -/
def Node.openContent? : Node → Option (List Node)
  | .element tag _ content _ _ => if Markup.isVoid tag then none else content
  | .conditional bs => bs.getLast?.map Prod.snd
  | .each _ _ (some otherwise) => some otherwise
  | .each _ content none => some content
  | .block _ content => some content
  | _ => none

/-- The names under which messages speak of a node. -/
inductive Node.Named : Node → String → Prop where
  | element (tag : String) (as : Attributes) (content : Option (List Node)) (selfClosing : Bool)
      (hooks : Option (List Hook)) :
      Named (.element tag as content selfClosing hooks) ("<" ++ tag ++ ">")
  | block {n : Node} {d : Directive} (h : n.opening? = some d) :
      Named n ("\x7b\x7b" ++ d.source ++ "\x7d\x7d")

namespace Stack

/-- The levels of these frames; `inner` stands behind the content of the innermost. -/
def levelsFrom (root : List Node) : List Frame → List Node → List (List Node)
  | [], inner => [root.reverse ++ inner]
  | f :: fs, inner =>
    let content := f.content.reverse ++ inner
    content :: levelsFrom root fs (f.opener.close content).toList

/-- The contents of all open nodes and of the template, innermost first, in source order and with
open nodes in place. -/
def levels (s : Stack) : List (List Node) :=
  levelsFrom s.root s.frames []

/-- A level is the open content of the last item of another. -/
def Holds (inner outer : List Node) : Prop :=
  ∃ n, outer.getLast? = some n ∧ n.openContent? = some inner

theorem levelsFrom_eq_cons (root : List Node) (frames : List Frame) (inner : List Node) :
    ∃ outer, levelsFrom root frames inner =
      ((⟨frames, root⟩ : Stack).top.reverse ++ inner) :: outer := by
  cases frames with
  | nil => exact ⟨[], rfl⟩
  | cons f fs => exact ⟨_, rfl⟩

/-- The first level is the content of the innermost node. -/
theorem head?_levels (s : Stack) : s.levels.head? = some s.top.reverse := by
  obtain ⟨outer, houter⟩ := levelsFrom_eq_cons s.root s.frames []
  rw [levels, houter, List.head?_cons, List.append_nil]

/-- There is one level more than there are open nodes. -/
theorem length_levelsFrom (root : List Node) (frames : List Frame) (inner : List Node) :
    (levelsFrom root frames inner).length = frames.length + 1 := by
  induction frames generalizing inner with
  | nil => rfl
  | cons f fs ih => rw [levelsFrom, List.length_cons, ih, List.length_cons]

/-- The outermost level is the content of the template. -/
theorem getLast?_levelsFrom (root : List Node) (frames : List Frame) (inner : List Node) :
    (levelsFrom root frames inner).getLast? =
      some (closeAll root frames inner.reverse).reverse := by
  induction frames generalizing inner with
  | nil => simp [levelsFrom, closeAll]
  | cons f fs ih =>
    obtain ⟨outer, houter⟩ :=
      levelsFrom_eq_cons root fs (f.opener.close (f.content.reverse ++ inner)).toList
    have hcontent : (inner.reverse ++ f.content).reverse = f.content.reverse ++ inner := by simp
    rw [levelsFrom, houter, List.getLast?_cons_cons, ← houter, ih, closeAll, hcontent]
    cases f.opener.close (f.content.reverse ++ inner) <;> rfl

end Stack

section

variable {scene : Scene} {b : Builder} {s s' : Stack}

/-- What is added to a frame is added to the open content of its node. -/
theorem Opener.Formed.openContent {o : Opener} (h : o.Formed scene) (ho : o ≠ .detached)
    (content : List Node) :
    ∃ n, o.close content = some n ∧ n.openContent? = some content := by
  cases o with
  | element tag as hooks => exact ⟨_, rfl, by simp [Node.openContent?, h.1]⟩
  | conditional earlier d => exact ⟨_, rfl, by simp [Node.openContent?]⟩
  | each | eachElse | block => exact ⟨_, rfl, rfl⟩
  | detached => exact absurd rfl ho

/-- In a formed stack each level is the open content of the last item of the next one. -/
theorem Stack.Formed.levels_isChain (h : s.Formed scene) (hs : Attached s) :
    s.levels.IsChain Stack.Holds := by
  obtain ⟨frames, root⟩ := s
  have hchain : ∀ inner, (Stack.levelsFrom root frames inner).IsChain Stack.Holds := by
    induction frames with
    | nil => exact fun inner => .singleton _
    | cons f fs ih =>
      intro inner
      obtain ⟨n, hn, hopen⟩ := (h.frames f List.mem_cons_self).1.openContent
        (hs f List.mem_cons_self) (f.content.reverse ++ inner)
      obtain ⟨outer, houter⟩ := Stack.levelsFrom_eq_cons root fs [n]
      have hrest := ih h.below hs.below [n]
      rw [Stack.levelsFrom, hn, Option.toList_some, houter]
      rw [houter] at hrest
      exact hrest.cons_cons ⟨n, by simp, hopen⟩
  exact hchain []

/-- Closing a frame changes nothing but the level that is added to. -/
theorem Stack.levels_of_closed? (hs : Attached s) (hclosed : s.closed? = some s') :
    s'.levels = s.levels.tail := by
  obtain ⟨frames, root⟩ := s
  cases frames with
  | nil => cases hclosed
  | cons f fs =>
    obtain ⟨n, hn⟩ := exists_close (hs f List.mem_cons_self) f.content.reverse
    simp only [Stack.closed?, hn, Option.some.injEq] at hclosed
    subst hclosed
    cases fs with
    | nil => simp [Stack.levels, Stack.levelsFrom, Stack.push, Stack.setTop, Stack.top, hn]
    | cons g gs => simp [Stack.levels, Stack.levelsFrom, Stack.push, Stack.setTop, Stack.top, hn]

/-- No message speaks of a node by the word for blocks of no kind. -/
theorem Node.Named.ne_block {n : Node} {name : String} (h : n.Named name) : name ≠ "block" := by
  intro hname
  have hchars := congrArg String.toList hname
  cases h with
  | element => simp at hchars
  | block => simp at hchars

/-- The innermost open node, and its name. -/
theorem Stack.named_describe (hs : Attached s) (hopen : 0 < s.depth) :
    ∃ outer n, s.levels.tail.head? = some outer ∧ outer.getLast? = some n ∧
      n.Named s.describe := by
  obtain ⟨frames, root⟩ := s
  cases frames with
  | nil => exact absurd hopen (Nat.lt_irrefl 0)
  | cons f fs =>
    obtain ⟨o, content⟩ := f
    obtain ⟨n, hn⟩ := exists_close (hs _ List.mem_cons_self) content.reverse
    obtain ⟨outer, houter⟩ := Stack.levelsFrom_eq_cons root fs [n]
    refine ⟨(⟨fs, root⟩ : Stack).top.reverse ++ [n], n, ?_, by simp, ?_⟩
    · simp [Stack.levels, Stack.levelsFrom, hn, houter]
    · have hopening := opening?_of_close hn
      cases o with
      | element tag as hooks =>
        cases hn
        exact .element tag as _ _ _
      | conditional earlier d =>
        cases earlier with
        | nil => exact .block hopening
        | cons first earlier => exact .block hopening
      | each | eachElse | block => exact .block hopening
      | detached => cases hn

/-- Where open nodes are an error, a template that ends with some fails for no other reason. -/
theorem Builder.run_finish_eq_error_iff (hstrict : scene.strict = true) (b : Builder) (e : Error) :
    (b.run (Build.finish scene)).1 = .error e ↔
      0 < b.stack.depth ∧ e = .of (.unclosed b.stack.describe) := by
  obtain ⟨⟨_ | ⟨f, fs⟩, root⟩, observers, marks, notices⟩ := b
  · rw [run_finish_of_nil scene rfl]
    simp [Stack.depth]
  · rw [Build.finish, run_bind_of_ok (run_stack _)]
    simp [Stack.depth, run_bind, hstrict, eq_comm]

/-- In every builder that is reached, an open node is the last item of the level around it and is
open at the level inside. If open nodes are an error, a template ends with one exactly where there
are some, and the message names the innermost. -/
theorem open_nodes_of_reached (h : Reached scene b) :
    b.stack.levels.length = b.stack.depth + 1 ∧
    b.stack.levels.head? = some b.stack.top.reverse ∧
    b.stack.levels.getLast? = some b.stack.nodes ∧
    b.stack.levels.IsChain Stack.Holds ∧
    (∀ s, b.stack.closed? = some s → s.levels = b.stack.levels.tail) ∧
    (scene.strict = true →
      ((∃ e, (b.run (Build.finish scene)).1 = .error e) ↔ 0 < b.stack.depth) ∧
      ∀ e, (b.run (Build.finish scene)).1 = .error e →
        ∃ outer n name, b.stack.levels.tail.head? = some outer ∧ outer.getLast? = some n ∧
          n.Named name ∧ name ≠ "block" ∧
          e.message = "Unclosed " ++ name ++ " at end of template") := by
  refine ⟨Stack.length_levelsFrom _ _ _, Stack.head?_levels _, Stack.getLast?_levelsFrom _ _ _,
    h.formed.levels_isChain h.attached, fun s => Stack.levels_of_closed? h.attached, ?_⟩
  intro hstrict
  constructor
  · simp [run_finish_eq_error_iff hstrict]
  · intro e he
    obtain ⟨hopen, rfl⟩ := (run_finish_eq_error_iff hstrict b e).1 he
    obtain ⟨outer, n, houter, hn, hname⟩ := Stack.named_describe h.attached hopen
    exact ⟨outer, n, _, houter, hn, hname, hname.ne_block, rfl⟩

/-- A loop in its last branch, inside an element. -/
theorem open_nodes_loop :
    let scene := bareScene .empty
    let calls : List Call :=
      [.start "ul" [("class", .text "x")] false,
        .text "\x7b\x7beach items\x7d\x7da\x7b\x7belse\x7d\x7db"]
    let b := ((Builder.start .default).run (calls.forM (Call.run scene))).2
    Reached scene b ∧
      b.stack.levels.map (List.map Node.className) = [["TEXT"], ["EACH_BLOCK"], ["ELEMENT"]] ∧
      b.stack.levels.IsChain Stack.Holds ∧
      ∃ e, (b.run (Build.finish scene)).1 = .error e ∧
        e.message = "Unclosed \x7b\x7beach items\x7d\x7d at end of template" := by
  intro scene calls b
  have hrun : ((Builder.start .default).run (calls.forM (Call.run scene))).1 = .ok () := by
    have hok : ((Builder.start .default).run (calls.forM (Call.run scene))).1.toOption.isSome := by
      decide +kernel
    revert hok
    cases ((Builder.start .default).run (calls.forM (Call.run scene))).1 <;> simp [Except.toOption]
  have hreached : Reached scene b := Reached.forM (.start rfl) (Prod.ext hrun rfl)
  obtain ⟨-, -, -, hchain, -, hstrict⟩ := open_nodes_of_reached hreached
  obtain ⟨e, he⟩ := (hstrict rfl).1.2 (show 0 < b.stack.depth by decide +kernel)
  refine ⟨hreached, by decide +kernel, hchain, e, he, ?_⟩
  obtain ⟨-, rfl⟩ := (run_finish_eq_error_iff rfl b e).1 he
  show "Unclosed " ++ b.stack.describe ++ " at end of template" = _
  decide +kernel

end

end Stencil
