import Stencil.Proofs.Nesting.Basic

/-!
# A builder accepts exactly the well-nested sequences

`Step` lists what one event can do to a stack of open nodes, and `run_take_iff` says that a builder
without views and observers does just that. A well-nested sequence can be taken whatever is open
already, and adds its nodes to the innermost frame. Conversely `Taken` ties a stack to the events
that it has taken: a well-nested sequence in every frame, between the events that opened it.
-/

namespace Stencil.Nesting

open Builder

/-! ## What one event can do -/

/-- An event changes a stack. -/
inductive Step : Event → Stack → Stack → Prop where
  | literal (data : String) (s : Stack) : Step (.literal data) s (s.push (.text data))
  | comment (data : String) (s : Stack) : Step (.comment data) s (s.push (.comment data))
  | value {d : Directive} {ws : List ValueWord} (h : d.role = .shows ws) (s : Stack) :
      Step (.directive d) s (s.push (.value (.marked d)))
  | leaf {tag : String} {as : List (String × Value)} {selfClosing : Bool}
      (h : (selfClosing || Markup.isVoid tag) = true) (s : Stack) :
      Step (.start tag as selfClosing) s
        (s.push (.element tag (literals as) none selfClosing none))
  | start {tag : String} {as : List (String × Value)} (h : Markup.isVoid tag = false)
      (s : Stack) :
      Step (.start tag as false) s (s.opened (.element tag (literals as) none))
  | stop (tag : String) (as : Attributes) (hooks : Option (List Hook)) (content : List Node)
      (fs : List Frame) (root : List Node) :
      Step (.stop tag) ⟨⟨.element tag as hooks, content⟩ :: fs, root⟩
        (Stack.push (.element tag as (some content.reverse) false hooks) ⟨fs, root⟩)
  | opens {d : Directive} {w : BlockWord} {a : Option String} (h : d.role = .opens w a)
      (s : Stack) : Step (.directive d) s (s.opened (Build.openerOf w d))
  | branch {d : Directive} (h : Continues d) (earlier : List (Directive × List Node))
      (last : Directive) (content : List Node) (fs : List Frame) (root : List Node) :
      Step (.directive d) ⟨⟨.conditional earlier last, content⟩ :: fs, root⟩
        ⟨⟨.conditional (earlier ++ [(last, content.reverse)]) d, []⟩ :: fs, root⟩
  | eachElse {d : Directive} (h : d.role = .otherwise) (first : Directive) (content : List Node)
      (fs : List Frame) (root : List Node) :
      Step (.directive d) ⟨⟨.each first, content⟩ :: fs, root⟩
        ⟨⟨.eachElse first content.reverse, []⟩ :: fs, root⟩
  | close {d first : Directive} {word w : String} {o : Opener} {content : List Node} {n : Node}
      (h : d.role = .closes word) (hn : o.close content.reverse = some n)
      (ho : o.opening? = some first) (hw : first.role.blockWord? = some w)
      (hword : word = "end" ∨ word = w) (fs : List Frame) (root : List Node) :
      Step (.directive d) ⟨⟨o, content⟩ :: fs, root⟩ (Stack.push n ⟨fs, root⟩)

/-- Stacks on which no attribute value is being read. -/
def Attached (s : Stack) : Prop :=
  ∀ f ∈ s.frames, f.opener ≠ .detached

theorem Attached.push {s : Stack} (h : Attached s) (n : Node) : Attached (s.push n) := by
  obtain ⟨frames, root⟩ := s
  cases frames with
  | nil => exact h
  | cons f fs =>
    intro g hg
    obtain rfl | hg := List.mem_cons.1 hg
    · exact h f List.mem_cons_self
    · exact h g (List.mem_cons_of_mem _ hg)

theorem Attached.opened {s : Stack} (h : Attached s) {o : Opener} (ho : o ≠ .detached) :
    Attached (s.opened o) := by
  intro g hg
  obtain rfl | hg := List.mem_cons.1 hg
  · exact ho
  · exact h g hg

theorem Attached.below {f : Frame} {fs : List Frame} {root : List Node}
    (h : Attached ⟨f :: fs, root⟩) : Attached ⟨fs, root⟩ :=
  fun g hg => h g (List.mem_cons_of_mem _ hg)

/-- A step opens only blocks that join the tree when they are closed. -/
theorem Step.attached {e : Event} {s s' : Stack} (h : Step e s s') (hs : Attached s) :
    Attached s' := by
  cases h with
  | literal data s => exact hs.push _
  | comment data s => exact hs.push _
  | value _ s => exact hs.push _
  | leaf _ s => exact hs.push _
  | start _ s => exact hs.opened (by simp)
  | stop => exact hs.below.push _
  | opens _ s =>
    apply hs.opened
    unfold Build.openerOf
    split <;> simp
  | branch => exact hs.below.opened (by simp)
  | eachElse => exact hs.below.opened (by simp)
  | close => exact hs.below.push _

/-- A node that was a block begins with the directive of its frame. -/
theorem opening?_of_close {o : Opener} {content : List Node} {n : Node}
    (h : o.close content = some n) : n.opening? = o.opening? := by
  cases o with
  | conditional earlier d =>
    simp only [Opener.close, Option.some.injEq] at h
    subst h
    cases earlier <;> rfl
  | detached => simp [Opener.close] at h
  | element tag as hooks | each d | eachElse d body | block d =>
    simp only [Opener.close, Option.some.injEq] at h
    subst h
    rfl

/-- A block that joins the tree closes into a node, whatever was added inside. -/
theorem exists_close {o : Opener} (h : o ≠ .detached) (content : List Node) :
    ∃ n, o.close content = some n := by
  cases o with
  | detached => exact absurd rfl h
  | _ => exact ⟨_, rfl⟩

@[simp]
theorem newest?_push (n : Node) (s : Stack) : (s.push n).newest? = some n := by
  simp [Stack.newest?]

@[simp]
theorem dropNewest_push (n : Node) (s : Stack) : (s.push n).dropNewest = s := by
  obtain ⟨frames, root⟩ := s
  cases frames <;> rfl

theorem push_dropNewest {n : Node} {s : Stack} (h : s.newest? = some n) : s.dropNewest.push n = s := by
  obtain ⟨frames, root⟩ := s
  cases frames with
  | nil =>
    obtain ⟨rest, rfl⟩ : ∃ rest, root = n :: rest := List.head?_eq_some_iff.1 h
    rfl
  | cons f fs =>
    obtain ⟨o, content⟩ := f
    obtain ⟨rest, rfl⟩ : ∃ rest, content = n :: rest := List.head?_eq_some_iff.1 h
    rfl

/-! ## The builder does what the steps say -/

section Running

variable {scene : Scene} {b b' : Builder}

/-- Going up one level adds the closed block to the one around it. -/
theorem run_ascend_of_close {o : Opener} {content : List Node} {fs : List Frame}
    {root : List Node} {n : Node} (hs : b.stack = ⟨⟨o, content⟩ :: fs, root⟩)
    (hn : o.close content.reverse = some n) (cause : Cause) :
    b.run (Build.ascend cause) = (.ok (), b.withStack (Stack.push n ⟨fs, root⟩)) := by
  rw [run_ascend, hs]
  simp [Stack.closed?, hn]

theorem run_ascend_of_nil (hs : b.stack.frames = []) (cause : Cause) :
    b.run (Build.ascend cause) = (.error (.of cause), b) := by
  rw [run_ascend]
  simp [Stack.closed?, hs]

/-- Attribute values without braces are constants. -/
theorem run_attributeOf_plain (name : String) {v : Value} (h : Event.hasBrace v = false)
    (b : Builder) : b.run (Build.attributeOf scene name v) = (.ok (.literal v), b) := by
  cases v with
  | text s =>
    by_cases hne : s = ""
    · simp only [Build.attributeOf, if_pos hne, run_pure]
    · simp only [Event.hasBrace, Bool.or_eq_false_iff, List.contains_eq_mem,
        decide_eq_false_iff_not] at h
      have hscan := Span.scan_literal hne h.1
      have htext (b : Builder) :
          b.run (Build.text scene s) = (.ok (), b.withStack (b.stack.push (.text s))) := by
        rw [run_text hscan, run_forM_cons, run_bind_of_ok (run_span_literal b _ _), run_forM_nil]
      exact run_attributeOf hne htext rfl b
  | _ => rfl

/-- With no view in scope and no observer to call, a start tag opens its element or, closed by
itself, adds it. -/
theorem run_start (hscene : scene.view? = none) (hb : b.observers = .empty) {tag : String}
    {as : List (String × Value)} {selfClosing : Bool}
    (hplain : (Event.start tag as selfClosing).Plain) :
    b.run (Event.take scene (.start tag as selfClosing)) =
      (.ok (), b.withStack
        (if (selfClosing || Markup.isVoid tag) = true then
          b.stack.push (.element tag (literals as) none selfClosing none)
        else b.stack.opened (.element tag (literals as) none))) := by
  obtain ⟨htag, hnames, hvalues⟩ := hplain
  have hkeys : Entries.keys (literals as) = as.map Prod.fst := by
    simp [Entries.keys, literals]
  have habsent (k : String) (hk : ∀ a ∈ as, a.1 ≠ k) : k ∉ Entries.keys (literals as) := by
    rw [hkeys, List.mem_map]
    rintro ⟨a, ha, rfl⟩
    exact hk a ha rfl
  have hread : ∀ a ∈ literals as, ∀ b : Builder,
      b.run (Build.attributeOf scene a.1 (rawValue a.2)) = (.ok a.2, b) := by
    intro a ha b
    obtain ⟨g, hg, rfl⟩ := List.mem_map.1 ha
    exact run_attributeOf_plain g.1 (hvalues g hg).2.2 b
  have hstart := run_startElement hscene hb htag hread (hkeys ▸ hnames)
    (habsent "as" fun a ha => (hvalues a ha).1) (habsent "on" fun a ha => (hvalues a ha).2.1)
    selfClosing
  change b.run (Build.startElement scene tag (rawAttributes (literals as)) selfClosing) = _ at hstart
  rw [rawAttributes_literals] at hstart
  exact hstart

/-- The end of a block closes the innermost one exactly when their words agree. -/
theorem run_closeBlock {o : Opener} {content : List Node} {fs : List Frame}
    {root : List Node} {n : Node} (hs : b.stack = ⟨⟨o, content⟩ :: fs, root⟩)
    (hn : o.close content.reverse = some n) (d : Directive) (word : String) :
    b.run (Build.closeBlock d word) =
      let opened := o.opening?.bind (·.role.blockWord?)
      if opened.isSome && (word = "end" || opened = some word) then
        (.ok (), b.withStack (Stack.push n ⟨fs, root⟩))
      else (.error (.of (.wrongBlockEnd d.source)), b.withStack (Stack.push n ⟨fs, root⟩)) := by
  rw [Build.closeBlock, run_bind_of_ok (run_ascend_of_close hs hn _),
    run_bind_of_ok (run_stack _)]
  simp only [stack_withStack, newest?_push, Option.bind_some, opening?_of_close hn]
  cases (o.opening?.bind (·.role.blockWord?)).isSome &&
    (word = "end" || o.opening?.bind (·.role.blockWord?) = some word) <;> rfl

/-- Only a condition, and a loop in its first branch, can be continued. -/
theorem run_continueBlock_iff {o : Opener} {content : List Node} {fs : List Frame}
    {root : List Node} (hs : b.stack = ⟨⟨o, content⟩ :: fs, root⟩) (ho : o ≠ .detached)
    (d : Directive) :
    b.run (Build.continueBlock d) = (.ok (), b') ↔
      (∃ earlier last, o = .conditional earlier last ∧ b' = b.withStack (Stack.opened
        (.conditional (earlier ++ [(last, content.reverse)]) d) ⟨fs, root⟩)) ∨
      (∃ first, o = .each first ∧ d.role = .otherwise ∧
        b' = b.withStack (Stack.opened (.eachElse first content.reverse) ⟨fs, root⟩)) := by
  obtain ⟨n, hn⟩ := exists_close ho content.reverse
  rw [Build.continueBlock, run_bind_of_ok (run_ascend_of_close hs hn _),
    run_bind_of_ok (run_stack _)]
  simp only [stack_withStack, newest?_push]
  cases o with
  | detached => exact absurd rfl ho
  | conditional earlier last =>
    simp only [Opener.close, Option.some.injEq] at hn
    subst hn
    simp only [dropNewest_push, run_onStack, stack_withStack, withStack_withStack, Prod.mk.injEq,
      true_and, Opener.conditional.injEq, reduceCtorEq, false_and, exists_false, or_false]
    constructor
    · intro h
      exact ⟨earlier, last, ⟨rfl, rfl⟩, h.symm⟩
    · rintro ⟨_, _, ⟨rfl, rfl⟩, h⟩
      exact h.symm
  | each first =>
    simp only [Opener.close, Option.some.injEq] at hn
    subst hn
    cases hrole : d.role <;> simp [run_bind, eq_comm]
  | element tag as hooks | eachElse first body | block first =>
    simp only [Opener.close, Option.some.injEq] at hn
    subst hn
    simp [run_bind]

theorem take_of_continues {d : Directive} (h : Continues d) :
    Event.take scene (.directive d) = Build.continueBlock d := by
  obtain h | ⟨a, h⟩ := h <;> simp only [Event.take, Build.span, Build.directive, h]

/-- A step can be taken. -/
theorem run_take {e : Event} {s : Stack} (hscene : scene.view? = none)
    (hb : b.observers = .empty) (hplain : e.Plain) (h : Step e b.stack s) :
    b.run (e.take scene) = (.ok (), b.withStack s) := by
  generalize hstack : b.stack = s₀ at h
  cases h with
  | literal data => rw [← hstack, Event.take, run_span_literal]
  | comment data =>
    have hcomment : Markup.isConditionalComment ("<!--" ++ data ++ "-->") = true := hplain
    rw [← hstack, Event.take, Build.comment, if_pos hcomment, run_append]
  | @value d ws h =>
    have hview : d.role.isView = false := hplain
    rw [h] at hview
    simp [Event.take, Build.span, Build.directive, h, hview, hstack]
  | leaf h =>
    rw [run_start hscene hb hplain, if_pos h, hstack]
  | start h =>
    rw [run_start hscene hb hplain, if_neg (by simp [h]), hstack]
  | stop tag as hooks content fs root =>
    rw [Event.take, Build.endElement, run_bind_of_ok (run_ascend_of_close hstack rfl _),
      run_bind_of_ok (run_stack _)]
    simp only [stack_withStack, newest?_push, Node.isElement, beq_self_eq_true, if_true]
    exact run_closeElement hscene (by simpa using hb) hplain
  | opens h =>
    simp only [Event.take, Build.span, Build.directive, h, run_onStack, hstack]
  | branch h earlier last content fs root =>
    rw [take_of_continues h, run_continueBlock_iff hstack (by simp)]
    exact .inl ⟨earlier, last, rfl, rfl⟩
  | eachElse h first content fs root =>
    rw [take_of_continues (.inl h), run_continueBlock_iff hstack (by simp)]
    exact .inr ⟨first, rfl, h, rfl⟩
  | close h hn ho hw hword fs root =>
    simp only [Event.take, Build.span, Build.directive, h, run_closeBlock hstack hn, ho,
      Option.bind_some, hw]
    rw [if_pos]
    obtain rfl | rfl := hword <;> simp

/-- A continuation is taken only directly behind the block it continues. -/
theorem exists_step_of_continues {d : Directive} (hs : Attached b.stack) (hd : Continues d)
    (h : b.run (Event.take scene (.directive d)) = (.ok (), b')) :
    ∃ s, Step (.directive d) b.stack s := by
  rw [take_of_continues hd] at h
  rcases hstack : b.stack with ⟨_ | ⟨⟨o, content⟩, fs⟩, root⟩
  · rw [Build.continueBlock, run_bind_of_error (run_ascend_of_nil (by rw [hstack]) _)] at h
    simp at h
  · have ho : o ≠ .detached := hs ⟨o, content⟩ (by simp [hstack])
    obtain ⟨earlier, last, rfl, -⟩ | ⟨first, rfl, hrole, -⟩ :=
      (run_continueBlock_iff hstack ho d).1 h
    · exact ⟨_, .branch hd earlier last content fs root⟩
    · exact ⟨_, .eachElse hrole first content fs root⟩

/-- An event that is taken makes a step. -/
theorem exists_step {e : Event} (hs : Attached b.stack) (hplain : e.Plain)
    (h : b.run (e.take scene) = (.ok (), b')) : ∃ s, Step e b.stack s := by
  cases e with
  | literal data => exact ⟨_, .literal data _⟩
  | comment data => exact ⟨_, .comment data _⟩
  | start tag as selfClosing =>
    by_cases hleaf : (selfClosing || Markup.isVoid tag) = true
    · exact ⟨_, .leaf hleaf _⟩
    · simp only [Bool.or_eq_true, not_or, Bool.not_eq_true] at hleaf
      obtain ⟨rfl, hvoid⟩ := hleaf
      exact ⟨_, .start hvoid _⟩
  | stop tag =>
    rw [Event.take, Build.endElement] at h
    rcases hstack : b.stack with ⟨_ | ⟨⟨o, content⟩, fs⟩, root⟩
    · rw [run_bind_of_error (run_ascend_of_nil (by rw [hstack]) _)] at h
      simp at h
    · have ho : o ≠ .detached := hs ⟨o, content⟩ (by simp [hstack])
      obtain ⟨n, hn⟩ := exists_close ho content.reverse
      rw [run_bind_of_ok (run_ascend_of_close hstack hn _), run_bind_of_ok (run_stack _)] at h
      simp only [stack_withStack, newest?_push] at h
      split at h
      · rename_i htag
        cases o with
        | detached => exact absurd rfl ho
        | element t as hooks =>
          simp only [Opener.close, Option.some.injEq] at hn
          subst hn
          simp only [Node.isElement, beq_iff_eq] at htag
          subst htag
          exact ⟨_, .stop t as hooks content fs root⟩
        | _ =>
          simp only [Opener.close, Option.some.injEq] at hn
          subst hn
          simp [Node.isElement] at htag
      · simp at h
  | directive d =>
    cases hrole : d.role with
    | shows ws => exact ⟨_, .value hrole _⟩
    | opens w a => exact ⟨_, .opens hrole _⟩
    | otherwise => exact exists_step_of_continues hs (.inl hrole) h
    | elseIf a => exact exists_step_of_continues hs (.inr ⟨a, hrole⟩) h
    | closes word =>
      simp only [Event.take, Build.span, Build.directive, hrole] at h
      rcases hstack : b.stack with ⟨_ | ⟨⟨o, content⟩, fs⟩, root⟩
      · rw [Build.closeBlock, run_bind_of_error (run_ascend_of_nil (by rw [hstack]) _)] at h
        simp at h
      · have ho : o ≠ .detached := hs ⟨o, content⟩ (by simp [hstack])
        obtain ⟨n, hn⟩ := exists_close ho content.reverse
        rw [run_closeBlock hstack hn] at h
        dsimp only at h
        split at h
        · rename_i hword
          rw [Bool.and_eq_true] at hword
          obtain ⟨w, hw⟩ := Option.isSome_iff_exists.1 hword.1
          obtain ⟨first, hfirst, hw⟩ := Option.bind_eq_some_iff.1 hw
          have hfits := hword.2
          simp only [hfirst, Option.bind_some, hw, Bool.or_eq_true, decide_eq_true_eq,
            Option.some.injEq] at hfits
          exact ⟨_, .close hrole hn hfirst hw (hfits.imp_right Eq.symm) fs root⟩
        · simp at h

/-- The builder takes an event exactly when the grammar of blocks allows the step. -/
theorem run_take_iff {e : Event} (hscene : scene.view? = none) (hb : b.observers = .empty)
    (hs : Attached b.stack) (hplain : e.Plain) :
    b.run (e.take scene) = (.ok (), b') ↔ ∃ s, Step e b.stack s ∧ b' = b.withStack s := by
  constructor
  · intro h
    obtain ⟨s, hstep⟩ := exists_step hs hplain h
    rw [run_take hscene hb hplain hstep] at h
    simp only [Prod.mk.injEq, true_and] at h
    exact ⟨s, hstep, h.symm⟩
  · rintro ⟨s, hstep, rfl⟩
    exact run_take hscene hb hplain hstep

end Running

/-! ## Sequences of events -/

inductive Steps : List Event → Stack → Stack → Prop where
  | nil (s : Stack) : Steps [] s s
  | cons {e : Event} {es : List Event} {s s' s'' : Stack} :
      Step e s s' → Steps es s' s'' → Steps (e :: es) s s''

theorem Steps.single {e : Event} {s s' : Stack} (h : Step e s s') : Steps [e] s s' :=
  .cons h (.nil s')

theorem Steps.append {es fs : List Event} {s s' s'' : Stack} (h : Steps es s s')
    (h' : Steps fs s' s'') : Steps (es ++ fs) s s'' := by
  induction h with
  | nil s => exact h'
  | cons hstep _ ih => exact .cons hstep (ih h')

/-- The builder takes a sequence of events exactly when the grammar allows the steps one after the
other. -/
theorem run_forM_take_iff {scene : Scene} (hscene : scene.view? = none) {es : List Event}
    (hplain : ∀ e ∈ es, e.Plain) {b b' : Builder} (hb : b.observers = .empty)
    (hs : Attached b.stack) :
    b.run (es.forM (Event.take scene)) = (.ok (), b') ↔
      ∃ s, Steps es b.stack s ∧ b' = b.withStack s := by
  induction es generalizing b with
  | nil =>
    rw [run_forM_nil]
    constructor
    · intro h
      simp only [Prod.mk.injEq, true_and] at h
      exact ⟨b.stack, .nil _, by simp [h]⟩
    · rintro ⟨s, h, rfl⟩
      cases h
      simp
  | cons e es ih =>
    have hplain' := fun e he => hplain e (List.mem_cons_of_mem _ he)
    rw [run_forM_cons, run_bind_eq_ok]
    constructor
    · rintro ⟨_, b₁, hfirst, hrest⟩
      obtain ⟨s₁, hstep, rfl⟩ :=
        (run_take_iff hscene hb hs (hplain e List.mem_cons_self)).1 hfirst
      obtain ⟨s, hsteps, rfl⟩ :=
        (ih hplain' (b := b.withStack s₁) hb (hstep.attached hs)).1 hrest
      exact ⟨s, .cons hstep hsteps, by simp⟩
    · rintro ⟨s, hsteps, rfl⟩
      cases hsteps with
      | @cons _ _ _ s₁ _ hstep hsteps =>
        have hfirst := run_take hscene hb (hplain e List.mem_cons_self) hstep
        refine ⟨(), b.withStack s₁, hfirst, ?_⟩
        exact (ih hplain' (b := b.withStack s₁) hb (hstep.attached hs)).2 ⟨s, hsteps, by simp⟩

/-! ## Well-nested sequences are accepted -/

def addAll (ns : List Node) (s : Stack) : Stack :=
  s.setTop (ns.reverse ++ s.top)

@[simp]
theorem addAll_nil (s : Stack) : addAll [] s = s := by
  obtain ⟨frames, root⟩ := s
  cases frames <;> rfl

theorem addAll_cons (n : Node) (ns : List Node) (s : Stack) :
    addAll (n :: ns) s = addAll ns (s.push n) := by
  obtain ⟨frames, root⟩ := s
  cases frames <;> simp [addAll, Stack.push, Stack.setTop, Stack.top]

theorem addAll_opened (ns : List Node) (o : Opener) (s : Stack) :
    addAll ns (s.opened o) = ⟨⟨o, ns.reverse⟩ :: s.frames, s.root⟩ := by
  simp [addAll, Stack.opened, Stack.setTop, Stack.top]

/-- A block whose last branch is complete is closed by a fitting directive. -/
theorem Step.close_of_closes {d c : Directive} {w : BlockWord} {a : Option String} {o : Opener}
    {ns : List Node} {n : Node} (hd : d.role = .opens w a) (hc : Closes w c)
    (hn : o.close ns = some n) (ho : o.opening? = some d) (s : Stack) :
    Step (.directive c) ⟨⟨o, ns.reverse⟩ :: s.frames, s.root⟩ (s.push n) := by
  have hw : d.role.blockWord? = some w.text := by rw [hd]; rfl
  have hn' : o.close ns.reverse.reverse = some n := by rw [List.reverse_reverse, hn]
  obtain hc | hc := hc
  · exact .close hc hn' ho hw (.inl rfl) s.frames s.root
  · exact .close hc hn' ho hw (.inr rfl) s.frames s.root

mutual

/-- The events of a list of nodes lead from any stack to that stack with the nodes added. -/
theorem Items.steps {es : List Event} {ns : List Node} (h : Items es ns) (s : Stack) :
    Steps es s (addAll ns s) := by
  match h with
  | .nil =>
    rw [addAll_nil]
    exact .nil s
  | .cons hitem hitems =>
    rw [addAll_cons]
    exact (hitem.steps s).append (hitems.steps _)

/-- The events of one node lead from any stack to that stack with the node added. -/
theorem Item.steps {es : List Event} {n : Node} (h : Item es n) (s : Stack) :
    Steps es s (s.push n) := by
  match h with
  | .literal data => exact .single (.literal data s)
  | .comment data => exact .single (.comment data s)
  | .value hd => exact .single (.value hd s)
  | .leaf hleaf => exact .single (.leaf hleaf s)
  | @Item.element tag as _ ns hvoid hitems =>
    have hcontent := hitems.steps (s.opened (.element tag (literals as) none))
    rw [addAll_opened] at hcontent
    have hstop := Step.stop tag (literals as) none ns.reverse s.frames s.root
    rw [List.reverse_reverse] at hstop
    exact .cons (.start hvoid s) (hcontent.append (.single hstop))
  | .conditional (d := d) (w := w) hd hw hbranches hclose =>
    have hopen := Step.opens hd s
    obtain ⟨earlier, last, ns, hsteps, hbs⟩ := hbranches.steps [] s
    have hopener : Build.openerOf w d = .conditional [] d := by
      obtain rfl | rfl := hw <;> rfl
    rw [hopener] at hopen
    obtain ⟨ms, bs', rfl⟩ := hbranches.eq_cons
    have hopening : (Opener.conditional earlier last).opening? = some d := by
      cases earlier with
      | nil => simp_all [Opener.opening?]
      | cons b earlier => simp_all [Opener.opening?]
    have hn : (Opener.conditional earlier last).close ns = some (.conditional ((d, ms) :: bs')) := by
      simp [Opener.close, hbs]
    exact .cons hopen (hsteps.append (.single (.close_of_closes hd hclose hn hopening s)))
  | .each (d := d) hd hitems hclose =>
    have hcontent := hitems.steps (s.opened (.each d))
    rw [addAll_opened] at hcontent
    exact .cons (.opens hd s)
      (hcontent.append (.single (.close_of_closes hd hclose rfl rfl s)))
  | @Item.eachElse d _ _ _ _ _ ns _ hd hitems helse hitems' hclose =>
    have hcontent := hitems.steps (s.opened (.each d))
    rw [addAll_opened] at hcontent
    have hbranch := Step.eachElse helse d ns.reverse s.frames s.root
    rw [List.reverse_reverse] at hbranch
    have hcontent' := hitems'.steps (s.opened (.eachElse d ns))
    rw [addAll_opened] at hcontent'
    exact .cons (.opens hd s) (hcontent.append (.cons hbranch
      (hcontent'.append (.single (.close_of_closes hd hclose rfl rfl s)))))
  | .block (d := d) (w := w) hd hw hitems hclose =>
    have hopen := Step.opens hd s
    have hopener : Build.openerOf w d = .block d := by
      obtain rfl | rfl | rfl := hw <;> rfl
    rw [hopener] at hopen
    have hcontent := hitems.steps (s.opened (.block d))
    rw [addAll_opened] at hcontent
    exact .cons hopen (hcontent.append (.single (.close_of_closes hd hclose rfl rfl s)))

/-- The branches of a condition end in the frame of the last one. -/
theorem Branches.steps {d : Directive} {es : List Event} {bs : List (Directive × List Node)}
    (h : Branches d es bs) (earlier : List (Directive × List Node)) (s : Stack) :
    ∃ earlier' last ns,
      Steps es (s.opened (.conditional earlier d))
        ⟨⟨.conditional earlier' last, ns.reverse⟩ :: s.frames, s.root⟩ ∧
      earlier' ++ [(last, ns)] = earlier ++ bs := by
  match h with
  | @Branches.last _ _ ns hitems =>
    have hcontent := hitems.steps (s.opened (.conditional earlier d))
    rw [addAll_opened] at hcontent
    exact ⟨earlier, d, ns, hcontent, rfl⟩
  | @Branches.more _ d' _ _ ns _ hitems hd' hbranches =>
    have hcontent := hitems.steps (s.opened (.conditional earlier d))
    rw [addAll_opened] at hcontent
    have hbranch := Step.branch hd' earlier d ns.reverse s.frames s.root
    rw [List.reverse_reverse] at hbranch
    obtain ⟨earlier', last, ms, hsteps, hbs⟩ := hbranches.steps (earlier ++ [(d, ns)]) s
    exact ⟨earlier', last, ms, hcontent.append (.cons hbranch hsteps), by simp [hbs]⟩

end

/-! ## What is accepted is well nested -/

/-- The events that opened a frame, with the branches before it. -/
inductive Opened : Opener → List Event → Prop where
  | element {tag : String} {as : List (String × Value)} :
      Markup.isVoid tag = false → Opened (.element tag (literals as) none) [.start tag as false]
  | conditional {d : Directive} {w : BlockWord} {a : Option String} :
      d.role = .opens w a → w = .condition ∨ w = .negation →
      Opened (.conditional [] d) [.directive d]
  | branch {earlier : List (Directive × List Node)} {d d' : Directive} {es fs : List Event}
      {ns : List Node} :
      Opened (.conditional earlier d) es → Items fs ns → Continues d' →
      Opened (.conditional (earlier ++ [(d, ns)]) d') (es ++ (fs ++ [.directive d']))
  | each {d : Directive} {a : Option String} :
      d.role = .opens .each a → Opened (.each d) [.directive d]
  | eachElse {d d' : Directive} {a : Option String} {es : List Event} {ns : List Node} :
      d.role = .opens .each a → Items es ns → d'.role = .otherwise →
      Opened (.eachElse d ns) (.directive d :: (es ++ [.directive d']))
  | block {d : Directive} {w : BlockWord} {a : Option String} :
      d.role = .opens w a → w = .scope ∨ w = .unbound ∨ w = .bound →
      Opened (.block d) [.directive d]

/-- The earlier branches of a condition, read from its first one. -/
theorem Opened.branches {o : Opener} {es : List Event} (h : Opened o es) :
    ∀ {earlier d fs bs}, o = .conditional earlier d → Branches d fs bs →
      ∃ first w a es', es = .directive first :: es' ∧ first.role = .opens w a ∧
        (w = .condition ∨ w = .negation) ∧ o.opening? = some first ∧
        Branches first (es' ++ fs) (earlier ++ bs) := by
  induction h with
  | @conditional d w a hd hw =>
    rintro earlier d' fs bs heq hbranches
    obtain ⟨rfl, rfl⟩ := Opener.conditional.inj heq
    exact ⟨d, w, a, [], rfl, hd, hw, rfl, by simpa using hbranches⟩
  | @branch earlier d d' es fs ns _ hitems hd' ih =>
    rintro earlier' d'' gs bs heq hbranches
    obtain ⟨rfl, rfl⟩ := Opener.conditional.inj heq
    obtain ⟨first, w, a, es', rfl, hfirst, hw, hopening, hall⟩ :=
      ih rfl (.more hitems hd' hbranches)
    refine ⟨first, w, a, es' ++ (fs ++ [.directive d']), rfl, hfirst, hw, ?_, by simpa using hall⟩
    cases earlier <;> simpa [Opener.opening?] using hopening
  | element _ | each _ | eachElse _ _ _ | block _ _ =>
    rintro earlier d fs bs heq
    simp at heq

/-- A fitting directive makes an item of a frame. -/
theorem Opened.close {o : Opener} {es fs : List Event} {ns : List Node} {n : Node}
    {c first : Directive} {word w : String} (h : Opened o es) (hitems : Items fs ns)
    (hn : o.close ns = some n) (hc : c.role = .closes word) (ho : o.opening? = some first)
    (hw : first.role.blockWord? = some w) (hword : word = "end" ∨ word = w) :
    Item (es ++ (fs ++ [.directive c])) n := by
  have hcloses {w' : BlockWord} {a : Option String} (hfirst : first.role = .opens w' a) :
      Closes w' c := by
    rw [hfirst, Role.blockWord?, Option.some.injEq] at hw
    obtain rfl | rfl := hword
    · exact .inl hc
    · exact .inr (hw ▸ hc)
  cases h with
  | element _ => simp [Opener.opening?] at ho
  | conditional hd hkind =>
    obtain rfl : _ = first := Option.some.inj ho
    obtain rfl := Option.some.inj hn
    exact .conditional hd hkind (.last hitems) (hcloses hd)
  | branch hbefore hitems' hd' =>
    obtain ⟨first', w', a, es', heq, hfirst, hkind, hopening, hall⟩ :=
      (Opened.branch hbefore hitems' hd').branches rfl (.last hitems)
    obtain rfl : first' = first := Option.some.inj (hopening.symm.trans ho)
    obtain rfl := Option.some.inj hn
    rw [heq]
    simpa using Item.conditional hfirst hkind hall (hcloses hfirst)
  | each hd =>
    obtain rfl : _ = first := Option.some.inj ho
    obtain rfl := Option.some.inj hn
    exact .each hd hitems (hcloses hd)
  | eachElse hd hitems' helse =>
    obtain rfl : _ = first := Option.some.inj ho
    obtain rfl := Option.some.inj hn
    simpa using Item.eachElse hd hitems' helse hitems (hcloses hd)
  | block hd hkind =>
    obtain rfl : _ = first := Option.some.inj ho
    obtain rfl := Option.some.inj hn
    exact .block hd hkind hitems (hcloses hd)

/-- The events that a stack has taken: in every frame, and below all frames, a well-nested
sequence. -/
inductive Taken : Stack → List Event → Prop where
  | root {root : List Node} {es : List Event} : Items es root.reverse → Taken ⟨[], root⟩ es
  | frame {o : Opener} {content : List Node} {fs : List Frame} {root : List Node}
      {es ds gs : List Event} :
      Taken ⟨fs, root⟩ es → Opened o ds → Items gs content.reverse →
      Taken ⟨⟨o, content⟩ :: fs, root⟩ (es ++ (ds ++ gs))

theorem Taken.push {s : Stack} {es fs : List Event} {n : Node} (h : Taken s es)
    (hitem : Item fs n) : Taken (s.push n) (es ++ fs) := by
  cases h with
  | root hitems =>
    apply Taken.root
    simpa [Stack.top] using hitems.append (.singleton hitem)
  | frame hbelow hopened hitems =>
    have hcontent := hitems.append (.singleton hitem)
    simp only [List.append_assoc]
    apply Taken.frame hbelow hopened
    simpa [Stack.top] using hcontent

theorem Taken.opened {s : Stack} {es ds : List Event} {o : Opener} (h : Taken s es)
    (hopened : Opened o ds) : Taken (s.opened o) (es ++ ds) := by
  have hframe : Taken (s.opened o) (es ++ (ds ++ [])) := .frame h hopened .nil
  simpa using hframe

/-- A step takes its event. -/
theorem Taken.step {e : Event} {s s' : Stack} {es : List Event} (h : Taken s es)
    (hstep : Step e s s') : Taken s' (es ++ [e]) := by
  cases hstep with
  | literal data => exact h.push (.literal data)
  | comment data => exact h.push (.comment data)
  | value hd => exact h.push (.value hd)
  | leaf hleaf => exact h.push (.leaf hleaf)
  | start hvoid => exact h.opened (.element hvoid)
  | stop tag as hooks content fs root =>
    cases h with
    | frame hbelow hopened hitems =>
      cases hopened with
      | element hvoid =>
        simpa using hbelow.push (.element hvoid hitems)
  | @opens d w a hd =>
    apply h.opened
    cases w with
    | condition => exact .conditional hd (.inl rfl)
    | negation => exact .conditional hd (.inr rfl)
    | each => exact .each hd
    | scope => exact .block hd (.inl rfl)
    | unbound => exact .block hd (.inr (.inl rfl))
    | bound => exact .block hd (.inr (.inr rfl))
  | branch hd earlier last content fs root =>
    cases h with
    | frame hbelow hopened hitems =>
      simpa [Stack.opened] using hbelow.opened (.branch hopened hitems hd)
  | eachElse hd first content fs root =>
    cases h with
    | frame hbelow hopened hitems =>
      cases hopened with
      | each hfirst => simpa [Stack.opened] using hbelow.opened (.eachElse hfirst hitems hd)
  | close hc hn ho hw hword fs root =>
    cases h with
    | frame hbelow hopened hitems =>
      have hitem := hopened.close hitems hn hc ho hw hword
      simpa using hbelow.push hitem

/-- What was taken so far accounts for the stack after every further step. -/
theorem Taken.steps {es fs : List Event} {s s' : Stack} (h : Taken s es)
    (hsteps : Steps fs s s') : Taken s' (es ++ fs) := by
  induction hsteps generalizing es with
  | nil s => simpa using h
  | cons hstep _ ih => simpa using ih (h.step hstep)

/-! ## Whole templates -/

/-- A scene without views, in which nodes that are open at the end are an error. -/
def bareScene (registry : Registry) : Scene :=
  ⟨none, registry, true, .passive⟩

/-- If nothing is open, the template is what lies below all frames. -/
theorem run_finish_of_nil (scene : Scene) {b : Builder} {root : List Node}
    (h : b.stack = ⟨[], root⟩) : (b.run (Build.finish scene)).1 = .ok ⟨root.reverse⟩ := by
  obtain ⟨stack, observers, marks, notices⟩ := b
  obtain rfl : stack = ⟨[], root⟩ := h
  rfl

/-- A strict build ends with a template exactly when no block is open; the template holds the nodes
at the root. -/
theorem run_finish_eq_ok_iff {scene : Scene} (hstrict : scene.strict = true) (b : Builder)
    (t : Template) :
    (b.run (Build.finish scene)).1 = .ok t ↔
      b.stack.frames = [] ∧ t.content = b.stack.root.reverse := by
  obtain ⟨content⟩ := t
  obtain ⟨⟨_ | ⟨f, fs⟩, root⟩, observers, marks, notices⟩ := b
  · rw [run_finish_of_nil scene rfl]
    simp [eq_comm]
  · rw [Build.finish, run_bind_of_ok (run_stack _)]
    simp [Stack.depth, run_bind, hstrict]

/-- Feeding a builder that has no views and no observers succeeds exactly on the well-nested
sequences, with the nodes that the sequence spells; and these nodes spell the sequence again. -/
theorem build_eq_ok_iff_items (registry : Registry) (es : List Event)
    (hplain : ∀ e ∈ es, e.Plain) :
    (∀ t : Template, ((Builder.start .empty).run (build (bareScene registry) es)).1 = .ok t ↔
      Items es t.content) ∧
    ∀ ns, Items es ns → (flattenAll ns).map Event.unspelled = es.map Event.unspelled := by
  have hempty : Attached Stack.empty := by
    intro f hf
    simp [Stack.empty] at hf
  have hsteps (b : Builder) :
      (Builder.start .empty).run (es.forM (Event.take (bareScene registry))) = (.ok (), b) ↔
        ∃ s, Steps es Stack.empty s ∧ b = (Builder.start .empty).withStack s :=
    run_forM_take_iff rfl hplain rfl hempty
  refine ⟨fun t => ?_, fun ns h => h.flattenAll⟩
  constructor
  · intro h
    obtain ⟨b, hrun⟩ : ∃ b, (Builder.start .empty).run (build (bareScene registry) es) =
        (.ok t, b) := ⟨_, Prod.ext h rfl⟩
    obtain ⟨_, b', htake, hfinish⟩ := run_bind_eq_ok.1 hrun
    obtain ⟨s, hs, rfl⟩ := (hsteps b').1 htake
    have htaken := Taken.steps (.root .nil) hs
    obtain ⟨hframes, hcontent⟩ := (run_finish_eq_ok_iff rfl _ t).1 (congrArg Prod.fst hfinish)
    obtain ⟨frames, root⟩ := s
    obtain rfl : frames = [] := hframes
    cases htaken with
    | root hitems => exact hcontent ▸ hitems
  · intro h
    have htake := (hsteps _).2 ⟨_, h.steps .empty, rfl⟩
    rw [build, run_bind_of_ok htake]
    refine (run_finish_eq_ok_iff rfl _ t).2 ⟨rfl, ?_⟩
    simp [addAll, Stack.empty, Stack.setTop, Stack.top]

/-- A condition with two further branches inside an element, closed by the word that fits all. -/
theorem build_nested_condition :
    let shown (s : String) : Directive := ⟨s, .shows [], some (.path [s])⟩
    let first : Directive := ⟨"if a", .opens .condition none, some (.path ["a"])⟩
    let second : Directive := ⟨"else if b", .elseIf none, some (.path ["b"])⟩
    let last : Directive := ⟨"else", .otherwise, none⟩
    let es : List Event :=
      [.start "p" [("hidden", .bool true)] false, .directive first, .literal "x",
       .directive second, .directive last, .directive (shown "y"),
       .directive ⟨"/", .closes "end", none⟩, .start "br" [] false, .stop "p"]
    let n : Node := .element "p" [("hidden", .literal (.bool true))]
      (some [.conditional [(first, [.text "x"]), (second, []), (last, [.value (.marked (shown "y"))])],
        .element "br" [] none false none]) false none
    ((Builder.start .empty).run (build (bareScene .empty) es)).1 = .ok ⟨[n]⟩ ∧ Items es [n] := by
  intro shown first second last es n
  have hplain : ∀ e ∈ es, e.Plain := by
    simp [es, Event.Plain, Event.hasBrace, shown, first, second, last, Role.isView, Role.words]
  have hrun : ((Builder.start .empty).run (build (bareScene .empty) es)).1 = .ok ⟨[n]⟩ := rfl
  exact ⟨hrun, ((build_eq_ok_iff_items .empty es hplain).1 ⟨[n]⟩).1 hrun⟩

end Stencil.Nesting
