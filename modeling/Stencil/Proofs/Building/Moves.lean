import Stencil.Proofs.Entries
import Stencil.Proofs.Expr.Rules
import Stencil.Proofs.Nesting.Acceptance

/-!
# What a span does to a stack

Whatever the views, a span that a builder takes changes the stack in one of a few ways. `SpanMove`
lists them, and it has a move exactly where the builder succeeds. Properties of all runs are proved
along these moves and do not look into the builder again.

The value of an attribute is read on the same stack, in a detached frame on top. Such a reading may
leave its frame, but then it never comes back to it. So if it succeeds the stack is as before, and
the value reads the same over every other stack.
-/

namespace Stencil

open Builder Nesting

/-! ## Successful runs -/

section Running

variable {scene : Scene} {b b' : Builder}

theorem Builder.run_check_eq_ok {α : Type} {x : Except Cause α} {a : α} :
    b.run (Build.check x) = (.ok a, b') ↔ x = .ok a ∧ b' = b := by
  cases x with
  | ok a' => simp [eq_comm]
  | error cause => simp [Build.check]

theorem Builder.run_findView_eq_ok {name : String} {v : View} :
    b.run (Build.findView scene name) = (.ok v, b') ↔ scene.find? name = some v ∧ b' = b := by
  rw [Build.findView]
  cases hfind : scene.find? name with
  | some w => simp [eq_comm]
  | none =>
    rw [run_bind_of_ok (run_notice _ _ _ _), run_fail]
    simp

theorem Builder.run_append_eq_ok {n : Node} :
    b.run (Build.append n) = (.ok (), b') ↔ b' = b.withStack (b.stack.push n) := by
  rw [run_append, Prod.mk.injEq]
  exact ⟨fun h => h.2.symm, fun h => ⟨rfl, h.symm⟩⟩

end Running

/-! ## Spans -/

/-- The hooks and attributes that the object of a view directive gives. -/
def ViewAttributes.Given (object : Option Expr) (hooks : Option (List Hook))
    (attributes : Option ViewAttributes) : Prop :=
  match object with
  | none => hooks = none ∧ attributes = none
  | some e => ∃ ms rest, Members.ofExpr e = .ok ms ∧
      ViewAttributes.declared (.ofMembers ms) = .ok (hooks, rest) ∧ attributes = some rest

/-- The pointers that a view directive stands for. -/
inductive Directive.Refers (scene : Scene) (d : Directive) : Node → Prop where
  | view {name : String} {v : View} {hooks : Option (List Hook)} {attributes : Option ViewAttributes}
      (hname : (Build.viewParts d).1.expr?.bind Expr.literal? = some (.text name))
      (hfind : scene.find? name = some v)
      (hgiven : ViewAttributes.Given (Build.viewParts d).2 hooks attributes) :
      Refers scene d (.view v.name attributes hooks)
  | dynamicView {hooks : Option (List Hook)} {attributes : Option ViewAttributes}
      (hname : (Build.viewParts d).1.expr?.bind Expr.literal? = none)
      (hgiven : ViewAttributes.Given (Build.viewParts d).2 hooks attributes) :
      Refers scene d (.dynamicView (.term (Build.viewParts d).1) attributes hooks)

/-- A span changes a stack. -/
inductive SpanMove (scene : Scene) : Span → Stack → Stack → Prop where
  | text (data : String) (s : Stack) : SpanMove scene (.literal data) s (s.push (.text data))
  | value {d : Directive} {ws : List ValueWord} (h : d.role = .shows ws)
      (hview : d.role.isView = false) (s : Stack) :
      SpanMove scene (.directive d) s (s.push (.value (.marked d)))
  | view {d : Directive} {ws : List ValueWord} {n : Node} (h : d.role = .shows ws)
      (hview : d.role.isView = true) (hn : d.Refers scene n) (s : Stack) :
      SpanMove scene (.directive d) s (s.push n)
  | opens {d : Directive} {w : BlockWord} {a : Option String} (h : d.role = .opens w a)
      (s : Stack) : SpanMove scene (.directive d) s (s.opened (Build.openerOf w d))
  | closes {d first : Directive} {word w : String} {n : Node} {s s' : Stack}
      (h : d.role = .closes word) (hs : s.closed? = some s') (hn : s'.newest? = some n)
      (hfirst : n.opening? = some first) (hw : first.role.blockWord? = some w)
      (hword : word = "end" ∨ word = w) : SpanMove scene (.directive d) s s'
  | branch {d : Directive} {bs : List (Directive × List Node)} {s s' : Stack} (h : Continues d)
      (hs : s.closed? = some s') (hn : s'.newest? = some (.conditional bs)) :
      SpanMove scene (.directive d) s (s'.dropNewest.opened (.conditional bs d))
  | eachElse {d first : Directive} {body : List Node} {s s' : Stack} (h : d.role = .otherwise)
      (hs : s.closed? = some s') (hn : s'.newest? = some (.each first body none)) :
      SpanMove scene (.directive d) s (s'.dropNewest.opened (.eachElse first body))

inductive SpanMoves (scene : Scene) : List Span → Stack → Stack → Prop where
  | nil (s : Stack) : SpanMoves scene [] s s
  | cons {span : Span} {spans : List Span} {s s' s'' : Stack} (h : SpanMove scene span s s')
      (hs : SpanMoves scene spans s' s'') : SpanMoves scene (span :: spans) s s''

theorem SpanMoves.single {scene : Scene} {span : Span} {s s' : Stack}
    (h : SpanMove scene span s s') : SpanMoves scene [span] s s' :=
  .cons h (.nil s')

/-- Moves of one list of spans and then of another are moves of both. -/
theorem SpanMoves.append {scene : Scene} {spans more : List Span} {s s' s'' : Stack}
    (h : SpanMoves scene spans s s') (h' : SpanMoves scene more s' s'') :
    SpanMoves scene (spans ++ more) s s'' := by
  induction h with
  | nil => exact h'
  | cons hmove _ ih => exact .cons hmove (ih h')

section Spans

variable {scene : Scene} {b b' : Builder} {d : Directive}

/-- What is left of a directive that names a view once its hooks and attributes are known. -/
def Build.named (scene : Scene) (d : Directive) (name : Term) (hooks : Option (List Hook))
    (attributes : Option ViewAttributes) : Build Unit :=
  match name.expr?.bind Expr.literal? with
  | some (.text s) => do
    let v ← findView scene s
    append (.view v.name attributes hooks)
  | some _ => fail (.badViewName d.source)
  | none => append (.dynamicView (.term name) attributes hooks)

section Named

variable {hooks : Option (List Hook)} {attributes : Option ViewAttributes}

theorem Builder.exists_of_run_named
    (hgiven : ViewAttributes.Given (Build.viewParts d).2 hooks attributes)
    (h : b.run (Build.named scene d (Build.viewParts d).1 hooks attributes) = (.ok (), b')) :
    ∃ n, d.Refers scene n ∧ b' = b.withStack (b.stack.push n) := by
  rw [Build.named] at h
  split at h
  · rename_i name hname
    obtain ⟨v, b₁, hv, happend⟩ := run_bind_eq_ok.1 h
    obtain ⟨hfind, rfl⟩ := run_findView_eq_ok.1 hv
    exact ⟨_, .view hname hfind hgiven, run_append_eq_ok.1 happend⟩
  · cases h
  · rename_i hname
    exact ⟨_, .dynamicView hname hgiven, run_append_eq_ok.1 h⟩

theorem Builder.run_viewDirective_of_given
    (hgiven : ViewAttributes.Given (Build.viewParts d).2 hooks attributes) (b : Builder) :
    b.run (Build.viewDirective scene d) =
      b.run (Build.named scene d (Build.viewParts d).1 hooks attributes) := by
  rw [Build.viewDirective]
  generalize Build.viewParts d = parts at hgiven
  obtain ⟨name, object⟩ := parts
  cases object with
  | none =>
    obtain ⟨rfl, rfl⟩ := hgiven
    rfl
  | some e =>
    obtain ⟨ms, rest, hmembers, hdeclared, rfl⟩ := hgiven
    simp only [hmembers]
    rw [run_bind_of_ok (run_check_ok b ms), run_bind_of_ok (run_pure b _)]
    dsimp only
    rw [hdeclared, run_bind_of_ok (run_check_ok b _)]
    exact run_bind_of_ok (run_pure b _) _

end Named

/-- A view directive that does not fail adds one of the pointers that it stands for. -/
theorem Builder.exists_of_run_viewDirective
    (h : b.run (Build.viewDirective scene d) = (.ok (), b')) :
    ∃ n, d.Refers scene n ∧ b' = b.withStack (b.stack.push n) := by
  have hlast {hooks : Option (List Hook)} {attributes : Option ViewAttributes}
      (hgiven : ViewAttributes.Given (Build.viewParts d).2 hooks attributes)
      (h : b.run (Build.named scene d (Build.viewParts d).1 hooks attributes) = (.ok (), b')) :
      ∃ n, d.Refers scene n ∧ b' = b.withStack (b.stack.push n) := exists_of_run_named hgiven h
  rw [Build.viewDirective] at h
  generalize Build.viewParts d = parts at h hlast
  obtain ⟨name, object⟩ := parts
  simp only [pure_bind] at h
  cases object with
  | none => exact hlast ⟨rfl, rfl⟩ h
  | some e =>
    obtain ⟨ms, b₁, hread, hrest⟩ := run_bind_eq_ok.1 h
    obtain ⟨hmembers, rfl⟩ := run_check_eq_ok.1 hread
    obtain ⟨⟨hooks, rest⟩, b₂, hcheck, hnode⟩ := run_bind_eq_ok.1 hrest
    obtain ⟨hdeclared, rfl⟩ := run_check_eq_ok.1 hcheck
    exact hlast ⟨ms, rest, hmembers, hdeclared, rfl⟩ hnode

/-- Whatever a view directive stands for, it adds to any stack. -/
theorem Builder.run_viewDirective_of_refers {n : Node} (h : d.Refers scene n) (b : Builder) :
    b.run (Build.viewDirective scene d) = (.ok (), b.withStack (b.stack.push n)) := by
  cases h with
  | view hname hfind hgiven =>
    rw [run_viewDirective_of_given hgiven, Build.named, hname]
    dsimp only
    rw [run_bind_of_ok (run_findView_eq_ok.2 ⟨hfind, rfl⟩), run_append]
  | dynamicView hname hgiven =>
    rw [run_viewDirective_of_given hgiven, Build.named, hname, run_append]

theorem Builder.exists_of_run_ascend {cause : Cause}
    (h : b.run (Build.ascend cause) = (.ok (), b')) :
    ∃ s, b.stack.closed? = some s ∧ b' = b.withStack s := by
  rw [run_ascend] at h
  split at h
  · rename_i s hs
    exact ⟨s, hs, (Prod.mk.inj h).2.symm⟩
  · cases h

theorem Builder.run_ascend_of_closed? {s : Stack} (h : b.stack.closed? = some s) (cause : Cause) :
    b.run (Build.ascend cause) = (.ok (), b.withStack s) := by
  rw [run_ascend, h]

theorem Builder.exists_of_run_closeBlock {word : String} (hrole : d.role = .closes word)
    (h : b.run (Build.closeBlock d word) = (.ok (), b')) :
    ∃ s, SpanMove scene (.directive d) b.stack s ∧ b' = b.withStack s := by
  rw [Build.closeBlock] at h
  obtain ⟨_, b₁, hascend, hrest⟩ := run_bind_eq_ok.1 h
  obtain ⟨s, hs, rfl⟩ := exists_of_run_ascend hascend
  rw [run_bind_of_ok (run_stack _), stack_withStack] at hrest
  dsimp only at hrest
  split at hrest
  · cases hrest
  · rename_i hopened
    simp only [Bool.not_eq_true', Bool.not_eq_false, Bool.and_eq_true, Bool.or_eq_true,
      decide_eq_true_eq] at hopened
    obtain ⟨hsome, hword⟩ := hopened
    obtain ⟨w, hw⟩ := Option.isSome_iff_exists.1 hsome
    obtain ⟨first, hfirst, hblock⟩ := Option.bind_eq_some_iff.1 hw
    obtain ⟨n, hn, hopening⟩ := Option.bind_eq_some_iff.1 hfirst
    rw [hw, Option.some.injEq] at hword
    exact ⟨s, .closes hrole hs hn hopening hblock (hword.imp_right Eq.symm),
      (Prod.mk.inj hrest).2.symm⟩

theorem Builder.exists_of_run_continueBlock (hd : Continues d)
    (h : b.run (Build.continueBlock d) = (.ok (), b')) :
    ∃ s, SpanMove scene (.directive d) b.stack s ∧ b' = b.withStack s := by
  rw [Build.continueBlock] at h
  obtain ⟨_, b₁, hascend, hrest⟩ := run_bind_eq_ok.1 h
  obtain ⟨s, hs, rfl⟩ := exists_of_run_ascend hascend
  rw [run_bind_of_ok (run_stack _), stack_withStack] at hrest
  split at hrest
  · rename_i bs hn
    exact ⟨_, .branch hd hs hn, (Prod.mk.inj hrest).2.symm⟩
  · rename_i first body hn hrole
    exact ⟨_, .eachElse hrole hs hn, (Prod.mk.inj hrest).2.symm⟩
  · rw [run_bind_of_ok (run_onStack _ _)] at hrest
    cases hrest

/-- A directive that does not fail is a move of the stack. -/
theorem Builder.exists_of_run_directive (h : b.run (Build.directive scene d) = (.ok (), b')) :
    ∃ s, SpanMove scene (.directive d) b.stack s ∧ b' = b.withStack s := by
  rw [Build.directive] at h
  split at h
  · rename_i word hrole
    exact exists_of_run_closeBlock hrole h
  · rename_i hrole
    exact exists_of_run_continueBlock (.inl hrole) h
  · rename_i a hrole
    exact exists_of_run_continueBlock (.inr ⟨a, hrole⟩) h
  · rename_i w a hrole
    exact ⟨_, .opens hrole b.stack, (Prod.mk.inj h).2.symm⟩
  · rename_i ws hrole
    split at h
    · rename_i hview
      obtain ⟨n, hn, hb'⟩ := exists_of_run_viewDirective h
      exact ⟨_, .view hrole hview hn b.stack, hb'⟩
    · rename_i hview
      exact ⟨_, .value hrole (by simpa using hview) b.stack, run_append_eq_ok.1 h⟩

/-- A move of the stack is what the builder does, whatever else it holds. -/
theorem SpanMove.run {span : Span} {s : Stack} (h : SpanMove scene span b.stack s) :
    b.run (Build.span scene span) = (.ok (), b.withStack s) := by
  generalize hstack : b.stack = stack at h
  cases h with
  | text data => rw [← hstack, run_span_literal]
  | value hrole hview =>
    rw [Build.span, Build.directive, hrole, ← hstack]
    simp [← hrole, hview]
  | view hrole hview hn =>
    rw [Build.span, Build.directive, hrole, ← hstack]
    simp [← hrole, hview, run_viewDirective_of_refers hn]
  | opens hrole =>
    rw [Build.span, Build.directive, hrole, ← hstack]
    rfl
  | @closes d first word w n _ s' hrole hs hn hfirst hw hword =>
    rw [Build.span, Build.directive, hrole]
    dsimp only
    rw [Build.closeBlock, run_bind_of_ok (run_ascend_of_closed? (hstack ▸ hs) _),
      run_bind_of_ok (run_stack _)]
    obtain rfl | rfl := hword <;> simp [hn, hfirst, hw]
  | @branch d bs _ s' hd hs hn =>
    have hcontinue : Build.span scene (.directive d) = Build.continueBlock d := take_of_continues hd
    rw [hcontinue, Build.continueBlock, run_bind_of_ok (run_ascend_of_closed? (hstack ▸ hs) _),
      run_bind_of_ok (run_stack _)]
    simp [hn]
  | @eachElse d first body _ s' hrole hs hn =>
    have hcontinue : Build.span scene (.directive d) = Build.continueBlock d :=
      take_of_continues (.inl hrole)
    rw [hcontinue, Build.continueBlock, run_bind_of_ok (run_ascend_of_closed? (hstack ▸ hs) _),
      run_bind_of_ok (run_stack _)]
    simp [hn, hrole]

/-- A span is taken exactly where there is a move, and nothing but the stack changes. -/
theorem Builder.run_span_eq_ok_iff {span : Span} :
    b.run (Build.span scene span) = (.ok (), b') ↔
      ∃ s, SpanMove scene span b.stack s ∧ b' = b.withStack s := by
  constructor
  · intro h
    cases span with
    | literal data => exact ⟨_, .text data b.stack, run_append_eq_ok.1 h⟩
    | directive d => exact exists_of_run_directive h
  · rintro ⟨s, hs, rfl⟩
    exact hs.run

/-- The builder takes spans without an error exactly by their moves. -/
theorem Builder.run_forM_span_eq_ok_iff {spans : List Span} :
    b.run (spans.forM (Build.span scene)) = (.ok (), b') ↔
      ∃ s, SpanMoves scene spans b.stack s ∧ b' = b.withStack s := by
  induction spans generalizing b with
  | nil =>
    rw [run_forM_nil, Prod.mk.injEq]
    constructor
    · rintro ⟨-, rfl⟩
      exact ⟨b.stack, .nil _, rfl⟩
    · rintro ⟨s, hs, rfl⟩
      cases hs
      exact ⟨rfl, rfl⟩
  | cons span spans ih =>
    rw [run_forM_cons, run_bind_eq_ok]
    constructor
    · rintro ⟨_, b₁, hspan, hspans⟩
      obtain ⟨s, hs, rfl⟩ := run_span_eq_ok_iff.1 hspan
      obtain ⟨s', hs', rfl⟩ := ih.1 hspans
      exact ⟨s', .cons hs hs', rfl⟩
    · rintro ⟨s', hs', rfl⟩
      cases hs' with
      | @cons _ _ _ s _ h hs =>
        exact ⟨(), b.withStack s, h.run, ih.2 ⟨s', hs, rfl⟩⟩

/-- A text is taken exactly if it can be scanned and its spans can be taken. -/
theorem Builder.run_text_eq_ok_iff {data : String} :
    b.run (Build.text scene data) = (.ok (), b') ↔ (Span.scan data).failure? = none ∧
      ∃ s, SpanMoves scene (Span.scan data).spans b.stack s ∧ b' = b.withStack s := by
  rw [Build.text, run_bind_eq_ok]
  constructor
  · rintro ⟨_, b₁, hspans, hfailure⟩
    split at hfailure
    · cases hfailure
    · rename_i hnone
      rw [← (Prod.mk.inj hfailure).2]
      exact ⟨hnone, run_forM_span_eq_ok_iff.1 hspans⟩
  · rintro ⟨hnone, hmoves⟩
    refine ⟨(), b', run_forM_span_eq_ok_iff.2 hmoves, ?_⟩
    simp [hnone]

end Spans

/-! ## What moves keep of the frames -/

/-- All open frames are opened as `P` says. -/
def Stack.OpenedBy (P : Opener → Prop) (s : Stack) : Prop :=
  ∀ f ∈ s.frames, P f.opener

section OpenedBy

variable {scene : Scene} {P : Opener → Prop} {s s' : Stack}

namespace Stack.OpenedBy

theorem setTop (h : s.OpenedBy P) (content : List Node) : (s.setTop content).OpenedBy P := by
  obtain ⟨frames, root⟩ := s
  cases frames with
  | nil => exact h
  | cons f fs => exact List.forall_mem_cons.2 (List.forall_mem_cons.1 h)

theorem opened (h : s.OpenedBy P) {o : Opener} (ho : P o) : (s.opened o).OpenedBy P :=
  List.forall_mem_cons.2 ⟨ho, h⟩

theorem below {f : Frame} {fs : List Frame} {root : List Node}
    (h : Stack.OpenedBy P ⟨f :: fs, root⟩) : Stack.OpenedBy P ⟨fs, root⟩ :=
  (List.forall_mem_cons.1 h).2

theorem closed? (h : s.OpenedBy P) (hs : s.closed? = some s') : s'.OpenedBy P := by
  obtain ⟨frames, root⟩ := s
  cases frames with
  | nil => cases hs
  | cons f fs =>
    simp only [Stack.closed?, Option.some.injEq] at hs
    subst hs
    split
    · exact h.below.setTop _
    · exact h.below

end Stack.OpenedBy

theorem opening?_openerOf (w : BlockWord) (d : Directive) :
    (Build.openerOf w d).opening? = some d := by
  cases w <;> rfl

/-- Spans open the frames of blocks only. -/
theorem SpanMove.openedBy {span : Span} (h : SpanMove scene span s s')
    (hP : ∀ o d, o.opening? = some d → P o) (hs : s.OpenedBy P) : s'.OpenedBy P := by
  cases h with
  | text | value | view => exact hs.setTop _
  | opens => exact hs.opened (hP _ _ (opening?_openerOf _ _))
  | @branch d bs _ _ _ hclosed =>
    have hopening : ∃ first, (Opener.conditional bs d).opening? = some first := by
      cases bs <;> exact ⟨_, rfl⟩
    exact ((hs.closed? hclosed).setTop _).opened (hP _ _ hopening.choose_spec)
  | closes _ hclosed => exact hs.closed? hclosed
  | eachElse _ hclosed => exact ((hs.closed? hclosed).setTop _).opened (hP _ _ rfl)

/-- If all frames that spans can open are as `P` says, it is kept by their moves. -/
theorem SpanMoves.openedBy {spans : List Span} (h : SpanMoves scene spans s s')
    (hP : ∀ o d, o.opening? = some d → P o) (hs : s.OpenedBy P) : s'.OpenedBy P := by
  induction h with
  | nil => exact hs
  | cons hmove _ ih => exact ih (hmove.openedBy hP hs)

theorem ne_detached_of_opening? (o : Opener) (d : Directive) (h : o.opening? = some d) :
    o ≠ .detached := by
  rintro rfl
  cases h

/-- A node that is taken off and opened again does not hide a detached frame. -/
theorem Nesting.Attached.reopened (hs : Attached s) {o : Opener} (ho : o ≠ .detached) :
    Attached (s.dropNewest.opened o) :=
  (Stack.OpenedBy.setTop (P := (· ≠ .detached)) hs _).opened ho

theorem SpanMove.attached {span : Span} (h : SpanMove scene span s s') (hs : Attached s) :
    Attached s' :=
  h.openedBy ne_detached_of_opening? hs

theorem SpanMoves.attached {spans : List Span} (h : SpanMoves scene spans s s') (hs : Attached s) :
    Attached s' :=
  h.openedBy ne_detached_of_opening? hs

end OpenedBy

/-! ## Moves above a detached frame -/

/-- What may stand on any stack: a detached frame, and perhaps further frames above it. -/
def Stack.Over (g : Stack → Stack) : Prop :=
  ∃ fs content, (∀ f ∈ fs, f.opener ≠ .detached) ∧
    g = fun base => ⟨fs ++ ⟨.detached, content⟩ :: base.frames, base.root⟩

namespace Stack.Over

variable {scene : Scene} {g : Stack → Stack}

theorem start : Over fun base => base.opened .detached :=
  ⟨[], [], List.forall_mem_nil _, rfl⟩

theorem top_eq (h : Over g) (base base' : Stack) : (g base).top = (g base').top := by
  obtain ⟨fs, content, -, rfl⟩ := h
  cases fs <;> rfl

theorem setTop (h : Over g) (content : List Node) : Over fun base => (g base).setTop content := by
  obtain ⟨fs, inside, hfs, rfl⟩ := h
  cases fs with
  | nil => exact ⟨[], content, hfs, rfl⟩
  | cons f fs =>
    refine ⟨{ f with content } :: fs, inside, ?_, rfl⟩
    rw [List.forall_mem_cons] at hfs ⊢
    exact hfs

theorem push (h : Over g) (n : Node) : Over fun base => (g base).push n := by
  have hpush : (fun base => (g base).push n) =
      fun base => (g base).setTop (n :: (g .empty).top) := by
    funext base
    rw [Stack.push, h.top_eq base .empty]
  rw [hpush]
  exact h.setTop _

theorem dropNewest (h : Over g) : Over fun base => (g base).dropNewest := by
  have hdrop : (fun base => (g base).dropNewest) =
      fun base => (g base).setTop ((g .empty).top.drop 1) := by
    funext base
    rw [Stack.dropNewest, h.top_eq base .empty]
  rw [hdrop]
  exact h.setTop _

theorem opened (h : Over g) {o : Opener} (ho : o ≠ .detached) :
    Over fun base => (g base).opened o := by
  obtain ⟨fs, inside, hfs, rfl⟩ := h
  exact ⟨⟨o, []⟩ :: fs, inside, List.forall_mem_cons.2 ⟨ho, hfs⟩, rfl⟩

/-- Closing a frame comes down to the base only where the frame is the detached one. -/
theorem closed? (h : Over g) :
    (∃ g', Over g' ∧ ∀ base, (g base).closed? = some (g' base)) ∨
      ∀ base, (g base).closed? = some base := by
  obtain ⟨fs, inside, hfs, rfl⟩ := h
  cases fs with
  | nil => exact .inr fun base => rfl
  | cons f fs =>
    rw [List.forall_mem_cons] at hfs
    obtain ⟨n, hn⟩ := exists_close hfs.1 f.content.reverse
    have hbelow : Over fun base => ⟨fs ++ ⟨.detached, inside⟩ :: base.frames, base.root⟩ :=
      ⟨fs, inside, hfs.2, rfl⟩
    refine .inl ⟨_, hbelow.push n, fun base => ?_⟩
    simp [Stack.closed?, hn]

end Stack.Over

section Over

variable {scene : Scene} {g : Stack → Stack} {base s s' : Stack}

/-- A move that stays above the detached frame is the same over every base. Closing a frame stays
above the base, or it comes down to it. -/
theorem SpanMove.over {span : Span} (hbase : Attached base) (hg : Stack.Over g)
    (h : SpanMove scene span (g base) s') :
    (∃ g', Stack.Over g' ∧ s' = g' base ∧ ∀ base', SpanMove scene span (g base') (g' base')) ∨
      Attached s' := by
  have hclosed {t : Stack} (ht : (g base).closed? = some t) :
      (∃ g', Stack.Over g' ∧ t = g' base ∧ (∀ base', (g base').closed? = some (g' base')) ∧
        ∀ base', (g' base').newest? = t.newest?) ∨ Attached t := by
    obtain ⟨g', hg', hclosed⟩ | hleft := hg.closed?
    · obtain rfl := Option.some.inj (ht.symm.trans (hclosed base))
      refine .inl ⟨g', hg', rfl, hclosed, fun base' => ?_⟩
      rw [Stack.newest?, Stack.newest?, hg'.top_eq base' base]
    · obtain rfl := Option.some.inj (ht.symm.trans (hleft base))
      exact .inr hbase
  generalize hs : g base = s at h
  cases h with
  | text data => exact .inl ⟨_, hg.push _, by rw [hs], fun base' => .text data _⟩
  | value hrole hview => exact .inl ⟨_, hg.push _, by rw [hs], fun base' => .value hrole hview _⟩
  | view hrole hview hn =>
    exact .inl ⟨_, hg.push _, by rw [hs], fun base' => .view hrole hview hn _⟩
  | opens hrole =>
    exact .inl ⟨_, hg.opened (ne_detached_of_opening? _ _ (opening?_openerOf _ _)), by rw [hs],
      fun base' => .opens hrole _⟩
  | closes hrole ht hn hfirst hw hword =>
    obtain ⟨g', hg', rfl, hmoves, hnewest⟩ | ht := hclosed (hs ▸ ht)
    · refine .inl ⟨g', hg', rfl, fun base' => ?_⟩
      exact .closes hrole (hmoves base') ((hnewest base').trans hn) hfirst hw hword
    · exact .inr ht
  | branch hd ht hn =>
    obtain ⟨g', hg', rfl, hmoves, hnewest⟩ | ht := hclosed (hs ▸ ht)
    · refine .inl ⟨_, hg'.dropNewest.opened (by simp), rfl, fun base' => ?_⟩
      exact .branch hd (hmoves base') ((hnewest base').trans hn)
    · exact .inr (ht.reopened (by simp))
  | eachElse hrole ht hn =>
    obtain ⟨g', hg', rfl, hmoves, hnewest⟩ | ht := hclosed (hs ▸ ht)
    · refine .inl ⟨_, hg'.dropNewest.opened (by simp), rfl, fun base' => ?_⟩
      exact .eachElse hrole (hmoves base') ((hnewest base').trans hn)
    · exact .inr (ht.reopened (by simp))

/-- What spans do above the base they do above every base, until they come down to it. Closing a
frame stays above the base, or it comes down to it. -/
theorem SpanMoves.over {spans : List Span} (hbase : Attached base) (hg : Stack.Over g)
    (h : SpanMoves scene spans (g base) s') :
    (∃ g', Stack.Over g' ∧ s' = g' base ∧ ∀ base', SpanMoves scene spans (g base') (g' base')) ∨
      Attached s' := by
  generalize hs : g base = s at h
  induction h generalizing g with
  | nil s => exact .inl ⟨g, hg, hs.symm, fun base' => .nil _⟩
  | cons hmove hmoves ih =>
    obtain ⟨g₁, hg₁, hs₁, hmove'⟩ | hattached := SpanMove.over hbase hg (hs ▸ hmove)
    · obtain ⟨g', hg', hs', hmoves'⟩ | hattached := ih hg₁ hs₁.symm
      · exact .inl ⟨g', hg', hs', fun base' => .cons (hmove' base') (hmoves' base')⟩
      · exact .inr hattached
    · exact .inr (hmoves.attached hattached)

end Over

/-! ## Attributes -/

/-- An attribute that is read from a value: a constant, or what the moves of a text leave in a
detached frame, whatever stands below. -/
inductive Attribute.Read (scene : Scene) (name : String) : Value → Attribute → Prop where
  | literal {v : Value} (hv : ∀ s, v = .text s → s = "") : Read scene name v (.literal v)
  | content {value : String} {ns : List Node} {a : Attribute} (hne : value ≠ "")
      (hscan : (Span.scan value).failure? = none)
      (hmoves : ∀ base : Stack, SpanMoves scene (Span.scan value).spans (base.opened .detached)
        ⟨⟨.detached, ns.reverse⟩ :: base.frames, base.root⟩)
      (ha : Build.ofContent name value ns = .ok a) : Read scene name (.text value) a

def Attribute.IsRead (scene : Scene) (a : Attribute) : Prop :=
  ∃ name v, Attribute.Read scene name v a

section Attributes

variable {scene : Scene} {b b' : Builder}

/-- If the reading is in the innermost frame again, that is the frame it began with. -/
theorem Stack.Over.eq_of_isInside {g : Stack → Stack} (h : Stack.Over g) {base : Stack}
    {depth : Nat} (hinside : Build.isInside depth (g base) = true) :
    ∃ content, ∀ base', g base' = ⟨⟨.detached, content⟩ :: base'.frames, base'.root⟩ := by
  obtain ⟨fs, content, hfs, rfl⟩ := h
  cases fs with
  | nil => exact ⟨content, fun _ => rfl⟩
  | cons f fs =>
    obtain ⟨o, inside⟩ := f
    rw [Build.isInside, Bool.and_eq_true] at hinside
    have hmatch := hinside.2
    split at hmatch
    · rename_i hframes
      cases (List.cons.inj hframes).1
      exact absurd rfl (hfs _ List.mem_cons_self)
    · cases hmatch

/-- Where no attribute value is being read, no frame is the one of a value. -/
theorem Nesting.Attached.isInside_eq_false {s : Stack} (h : Attached s) (depth : Nat) :
    Build.isInside depth s = false := by
  obtain ⟨frames, root⟩ := s
  rw [Build.isInside]
  split
  · rename_i hframes
    exact absurd rfl (h _ (hframes ▸ List.mem_cons_self))
  · simp

/-- The value of an attribute is read the same wherever it stands, and leaves no trace. -/
theorem Attribute.Read.run {name : String} {v : Value} {a : Attribute}
    (h : Attribute.Read scene name v a) (b : Builder) :
    b.run (Build.attributeOf scene name v) = (.ok a, b) := by
  cases h with
  | literal hv =>
    cases v with
    | text s =>
      rw [Build.attributeOf, if_pos (hv s rfl)]
      rfl
    | _ => rfl
  | @content value ns _ hne hscan hmoves ha =>
    have htext := (run_text_eq_ok_iff (b := b.withStack (b.stack.opened .detached))).2
      ⟨hscan, _, hmoves b.stack, rfl⟩
    rw [Build.attributeOf, if_neg hne, run_bind_of_ok (run_onStack _ _),
      run_bind_of_ok (run_stack _), run_bind_of_ok htext, run_bind_of_ok (run_stack _)]
    have hinside : Build.isInside (b.stack.opened .detached).depth
        ⟨⟨.detached, ns.reverse⟩ :: b.stack.frames, b.stack.root⟩ = true := by
      simp [Build.isInside, Stack.depth, Stack.opened]
    have htop : (⟨⟨.detached, ns.reverse⟩ :: b.stack.frames, b.stack.root⟩ : Stack).top.reverse =
        ns := List.reverse_reverse ns
    simp only [stack_withStack, withStack_withStack, hinside, htop, ha, if_true]
    rw [run_bind_of_ok (run_check_ok _ _), run_bind_of_ok (run_onStack _ _)]
    rfl

/-- Reading the value of an attribute leaves the builder as it was, and gives an attribute that does
not depend on the builder. -/
theorem Builder.exists_of_run_attributeOf (hb : Attached b.stack) {name : String} {v : Value}
    {a : Attribute} (h : b.run (Build.attributeOf scene name v) = (.ok a, b')) :
    b' = b ∧ Attribute.Read scene name v a := by
  have hliteral {v : Value} (hv : ∀ s, v = .text s → s = "")
      (h : b.run (pure (Attribute.literal v)) = (.ok a, b')) :
      b' = b ∧ Attribute.Read scene name v a := by
    rw [run_pure, Prod.mk.injEq, Except.ok.injEq] at h
    obtain ⟨rfl, rfl⟩ := h
    exact ⟨rfl, .literal hv⟩
  cases v with
  | text s =>
    rw [Build.attributeOf] at h
    split at h
    · rename_i hempty
      exact hliteral (by simp [hempty]) h
    · rename_i hne
      rw [run_bind_of_ok (run_onStack _ _), run_bind_of_ok (run_stack _)] at h
      obtain ⟨_, b₁, htext, hrest⟩ := run_bind_eq_ok.1 h
      obtain ⟨hscan, s', hmoves, rfl⟩ := run_text_eq_ok_iff.1 htext
      rw [run_bind_of_ok (run_stack _)] at hrest
      split at hrest
      · rename_i hinside
        obtain ⟨g, hg, hs', hover⟩ | hattached := hmoves.over hb .start
        · obtain ⟨content, hcontent⟩ := hg.eq_of_isInside (hs' ▸ hinside)
          rw [hcontent] at hs'
          subst hs'
          obtain ⟨a', b₂, hcheck, hpop⟩ := run_bind_eq_ok.1 hrest
          obtain ⟨hattribute, rfl⟩ := run_check_eq_ok.1 hcheck
          rw [run_bind_of_ok (run_onStack _ _), run_pure, Prod.mk.injEq, Except.ok.injEq] at hpop
          obtain ⟨rfl, rfl⟩ := hpop
          refine ⟨rfl, .content hne hscan (fun base => ?_) hattribute⟩
          have hbase := hover base
          rw [hcontent, ← List.reverse_reverse content] at hbase
          exact hbase
        · simp [hattached.isInside_eq_false] at hinside
      · cases hrest
  | _ => exact hliteral (by simp) h

/-- The attributes of a tag leave no trace, and are the same wherever the tag stands. -/
theorem Builder.exists_of_run_attributesOf (hb : Attached b.stack)
    {given : List (String × Value)} {as : Attributes}
    (h : b.run (Build.attributesOf scene given) = (.ok as, b')) :
    b' = b ∧ (∀ c : Builder, c.run (Build.attributesOf scene given) = (.ok as, c)) ∧
      (∀ a ∈ as, a.2.IsRead scene) ∧ (Entries.keys as).Nodup ∧
      ∀ k ∈ Entries.keys as, k ∈ given.map Prod.fst := by
  have hfold : ∀ earlier : Attributes, (∀ a ∈ earlier, a.2.IsRead scene) →
      (Entries.keys earlier).Nodup →
      b.run (given.foldlM (fun as a => do
        return Entries.set a.1 (← Build.attributeOf scene a.1 a.2) as) earlier) = (.ok as, b') →
      b' = b ∧ (∀ c : Builder, c.run (given.foldlM (fun as a => do
        return Entries.set a.1 (← Build.attributeOf scene a.1 a.2) as) earlier) = (.ok as, c)) ∧
        (∀ a ∈ as, a.2.IsRead scene) ∧ (Entries.keys as).Nodup ∧
        ∀ k ∈ Entries.keys as, k ∈ Entries.keys earlier ∨ k ∈ given.map Prod.fst := by
    clear h
    induction given with
    | nil =>
      intro earlier hread hnodup h
      rw [List.foldlM_nil, run_pure, Prod.mk.injEq, Except.ok.injEq] at h
      obtain ⟨rfl, rfl⟩ := h
      exact ⟨rfl, fun c => rfl, hread, hnodup, fun k hk => .inl hk⟩
    | cons g given ih =>
      intro earlier hread hnodup h
      rw [List.foldlM_cons, bind_assoc] at h
      obtain ⟨a, b₁, hattribute, hrest⟩ := run_bind_eq_ok.1 h
      obtain ⟨rfl, ha⟩ := exists_of_run_attributeOf hb hattribute
      rw [pure_bind] at hrest
      obtain ⟨hb', hruns, hkept, hnodup', hkeys⟩ := ih _
        (Entries.forall_mem_set hread ⟨_, _, ha⟩) (Entries.nodup_keys_set hnodup a) hrest
      refine ⟨hb', fun c => ?_, hkept, hnodup', fun k hk => ?_⟩
      · rw [List.foldlM_cons, bind_assoc, run_bind_of_ok (ha.run c), pure_bind, hruns c]
      · obtain hk | hk := hkeys k hk
        · obtain rfl | hk := Entries.mem_keys_set hk
          · exact .inr List.mem_cons_self
          · exact .inl hk
        · exact .inr (List.mem_cons_of_mem _ hk)
  obtain ⟨hb', hruns, hread, hnodup, hkeys⟩ := hfold [] (List.forall_mem_nil _) List.nodup_nil h
  exact ⟨hb', hruns, hread, hnodup, fun k hk => (hkeys k hk).resolve_left List.not_mem_nil⟩

/-- The values of all attributes of a tag are read, also of those that others replace. -/
theorem Builder.exists_read_of_run_attributesOf (hb : Attached b.stack)
    {given : List (String × Value)} {as : Attributes}
    (h : b.run (Build.attributesOf scene given) = (.ok as, b')) :
    ∀ g ∈ given, ∃ a, Attribute.Read scene g.1 g.2 a := by
  rw [Build.attributesOf] at h
  generalize ([] : Attributes) = earlier at h
  induction given generalizing earlier with
  | nil => exact List.forall_mem_nil _
  | cons g given ih =>
    rw [List.foldlM_cons, bind_assoc] at h
    obtain ⟨a, b₁, hattribute, hrest⟩ := run_bind_eq_ok.1 h
    obtain ⟨rfl, hread⟩ := exists_of_run_attributeOf hb hattribute
    rw [pure_bind] at hrest
    exact List.forall_mem_cons.2 ⟨⟨a, hread⟩, ih _ hrest⟩

end Attributes

end Stencil
