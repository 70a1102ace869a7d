import Stencil.Proofs.Building.Moves
import Stencil.Proofs.Tree.Changed

/-!
# Building changed trees

A builder never looks at the names of the views that its tree refers to, and of the hooks of its
elements it only shows them to observers. `Mirrors c f x x'` says that `x'` does to a builder with
the changed tree what `x` does to one with the tree as it is, as long as `x` succeeds; if the
comparison is total it also fails where `x` fails.

So two readings can be compared that find views of other names, or that have other observers. What
is left to show of the observers is what they do to one element.
-/

namespace Stencil

/-- How the builders of two readings are compared: which observers the first may have, what is
changed in the tree of the second, and which observers it has. If the comparison is total the second
reading fails where the first one does. -/
structure Comparison where
  fits : Observers → Prop
  change : Change
  observers : Observers → Observers
  total : Prop

/-- The builder with a changed tree and other observers. -/
def Builder.changed (c : Comparison) (b : Builder) : Builder :=
  { b with stack := b.stack.changed c.change, observers := c.observers b.observers }

namespace Build

open Builder

/-- What `x` does to the first builder, `x'` does to the second. -/
structure MirrorsAt {α α' : Type} (c : Comparison) (b b' : Builder) (f : α → α') (x : Build α)
    (x' : Build α') : Prop where
  ok : ∀ {b₁ : Builder} {a : α}, b.run x = (.ok a, b₁) →
    c.fits b₁.observers ∧ b'.run x' = (.ok (f a), b₁.changed c)
  fails : c.total → ∀ {b₁ : Builder} {e : Error}, b.run x = (.error e, b₁) →
    ∃ e' b₁', b'.run x' = (.error e', b₁')

def Mirrors {α α' : Type} (c : Comparison) (f : α → α') (x : Build α) (x' : Build α') : Prop :=
  ∀ b : Builder, c.fits b.observers → MirrorsAt c b (b.changed c) f x x'

/-! ## Steps -/

section Steps

variable {α α' β β' : Type} {c : Comparison} {b b' : Builder} {f : α → α'} {g : β → β'}

theorem mirrors_pure (a : α) : Mirrors c f (pure a) (pure (f a)) := by
  intro b hb
  constructor
  · intro b₁ a' h
    rw [run_pure, Prod.mk.injEq, Except.ok.injEq] at h
    obtain ⟨rfl, rfl⟩ := h
    exact ⟨hb, rfl⟩
  · intro _ b₁ e h
    cases h

/-- Steps that mirror each other one by one mirror each other as a whole. -/
theorem MirrorsAt.bind {x : Build α} {x' : Build α'} {k : α → Build β} {k' : α' → Build β'}
    (hx : MirrorsAt c b b' f x x') (hk : ∀ a, Mirrors c g (k a) (k' (f a))) :
    MirrorsAt c b b' g (x >>= k) (x' >>= k') where
  ok h := by
    obtain ⟨a, b₁, hfirst, hrest⟩ := run_bind_eq_ok.1 h
    obtain ⟨hb₁, hfirst'⟩ := hx.ok hfirst
    rw [run_bind_of_ok hfirst']
    exact (hk a b₁ hb₁).ok hrest
  fails ht b₂ e h := by
    rw [run_bind] at h
    split at h
    · rename_i a b₁ hfirst
      obtain ⟨hb₁, hfirst'⟩ := hx.ok hfirst
      rw [run_bind_of_ok hfirst']
      exact (hk a b₁ hb₁).fails ht h
    · rename_i e' b₁ hfirst
      obtain ⟨e'', b₁', hfail⟩ := hx.fails ht hfirst
      exact ⟨e'', b₁', run_bind_of_error hfail _⟩

theorem Mirrors.bind {x : Build α} {x' : Build α'} {k : α → Build β} {k' : α' → Build β'}
    (hx : Mirrors c f x x') (hk : ∀ a, Mirrors c g (k a) (k' (f a))) :
    Mirrors c g (x >>= k) (x' >>= k') :=
  fun b hb => (hx b hb).bind hk

/-- If the comparison is total, the second builder gives what the first one gives, changed. -/
theorem Mirrors.fst_run_eq_ok_iff {x : Build α} {x' : Build α'} (h : Mirrors c f x x')
    (htotal : c.total) (hb : c.fits b.observers) {a' : α'} :
    ((b.changed c).run x').1 = .ok a' ↔ ∃ a, (b.run x).1 = .ok a ∧ a' = f a := by
  have hrun : b.run x = ((b.run x).1, (b.run x).2) := rfl
  cases hfirst : (b.run x).1 with
  | ok a =>
    rw [hfirst] at hrun
    rw [((h b hb).ok hrun).2]
    simp [eq_comm]
  | error e =>
    rw [hfirst] at hrun
    obtain ⟨e', b₁', hfail⟩ := (h b hb).fails htotal hrun
    rw [hfail]
    simp

/-- Once both builders are through their first steps, what is left of them is compared. -/
theorem MirrorsAt.of_run {b₁ b₁' : Builder} {x : Build α} {x' : Build α'} {a : α} {a' : α'}
    {k : α → Build β} {k' : α' → Build β'} (hx : b.run x = (.ok a, b₁))
    (hx' : b'.run x' = (.ok a', b₁')) (h : MirrorsAt c b₁ b₁' g (k a) (k' a')) :
    MirrorsAt c b b' g (x >>= k) (x' >>= k') := by
  constructor
  · intro b₂ z hrun
    rw [run_bind_of_ok hx] at hrun
    rw [run_bind_of_ok hx']
    exact h.ok hrun
  · intro ht b₂ e hrun
    rw [run_bind_of_ok hx] at hrun
    rw [run_bind_of_ok hx']
    exact h.fails ht hrun

theorem mirrorsAt_of_error {b₁ b₁' : Builder} {x : Build α} {x' : Build α'} {e e' : Error}
    (hx : b.run x = (.error e, b₁)) (hx' : b'.run x' = (.error e', b₁')) :
    MirrorsAt c b b' f x x' where
  ok h := by
    rw [hx] at h
    cases h
  fails _ _ _ _ := ⟨e', b₁', hx'⟩

theorem mirrorsAt_throw (e e' : Error) : MirrorsAt c b b' f (throw e) (throw e') :=
  mirrorsAt_of_error rfl rfl

theorem mirrorsAt_fail (cause cause' : Cause) : MirrorsAt c b b' f (fail cause) (fail cause') :=
  mirrorsAt_throw _ _

theorem mirrors_fail (cause cause' : Cause) : Mirrors c f (fail cause) (fail cause') :=
  fun _ _ => mirrorsAt_fail cause cause'

theorem mirrors_check {x : Except Cause α} {x' : Except Cause α'} (h : x' = x.map f) :
    Mirrors c f (check x) (check x') := by
  subst h
  cases x with
  | error cause => exact mirrors_fail cause cause
  | ok a => exact mirrors_pure a

theorem mirrors_check_id (x : Except Cause α) : Mirrors c id (check x) (check x) :=
  mirrors_check (congrFun Except.map_id x).symm

/-- A change of the builder that comes to the same before and after the comparison's change. -/
theorem mirrors_modify {change change' : Builder → Builder}
    (hfits : ∀ b : Builder, c.fits b.observers → c.fits (change b).observers)
    (h : ∀ b, change' (b.changed c) = (change b).changed c) :
    Mirrors c id (modify change : Build Unit) (modify change') := by
  intro b hb
  constructor
  · intro b₁ a hrun
    rw [← (Prod.mk.inj hrun).2]
    exact ⟨hfits b hb, Prod.ext rfl (h b)⟩
  · intro _ b₁ e hrun
    cases hrun

theorem mirrors_get : Mirrors c (Builder.changed c) (get : Build Builder) get := by
  intro b hb
  constructor
  · intro b₁ a h
    rw [run_get, Prod.mk.injEq, Except.ok.injEq] at h
    obtain ⟨rfl, rfl⟩ := h
    exact ⟨hb, rfl⟩
  · intro _ b₁ e h
    cases h

theorem mirrors_stack : Mirrors c (Stack.changed c.change) stack stack :=
  mirrors_get.bind fun b => mirrors_pure b.stack

theorem mirrors_onStack {change change' : Stack → Stack}
    (h : ∀ s, change' (s.changed c.change) = (change s).changed c.change) :
    Mirrors c id (onStack change) (onStack change') :=
  mirrors_modify (fun _ hb => hb) fun b => congrArg (Builder.withStack · (b.changed c)) (h b.stack)

theorem mirrors_append (n : Node) : Mirrors c id (append n) (append (n.changed c.change)) :=
  mirrors_onStack fun s => (s.changed_push n).symm

theorem mirrors_opened (o : Opener) :
    Mirrors c id (onStack (·.opened o)) (onStack (·.opened (o.changed c.change))) :=
  mirrors_onStack fun _ => rfl

theorem mirrors_notice (level : Log.Level) (message : String) (context : Entries Value) :
    Mirrors c id (notice level message context) (notice level message context) :=
  mirrors_modify (fun _ hb => hb) fun _ => rfl

/-- A loop mirrors another one if each of its rounds does. -/
theorem mirrors_forM {step step' : α → Build Unit} (h : ∀ a, Mirrors c id (step a) (step' a))
    (as : List α) : Mirrors c id (as.forM step) (as.forM step') := by
  induction as with
  | nil => exact mirrors_pure ()
  | cons a as ih => exact (h a).bind fun _ => ih

/-- What follows the end of a frame. The newest node is the one that the frame became, if any, and
may have its own hooks still. -/
theorem mirrors_ascend {cause : Cause} {k : Build α} {k' : Build α'}
    (hk : ∀ (b : Builder) (s' : Stack), c.fits b.observers → Stack.Nearly c.change b.stack s' →
      MirrorsAt c b ((b.changed c).withStack s') f k k') :
    Mirrors c f (ascend cause >>= fun _ => k) (ascend cause >>= fun _ => k') := by
  intro b hb
  have hclosed := b.stack.closed?_changed (c := c.change)
  have hrun := run_ascend b cause
  have hrun' := run_ascend (b.changed c) cause
  rw [Builder.changed] at hrun'
  generalize b.stack.closed? = below, (b.stack.changed c.change).closed? = below'
    at hclosed hrun hrun'
  cases hclosed with
  | none => exact mirrorsAt_of_error (run_bind_of_error hrun _) (run_bind_of_error hrun' _)
  | some hs => exact .of_run hrun hrun' (hk _ _ hb hs)

end Steps

/-! ## Observers -/

section Observers

variable {c : Comparison} {scene scene' : Scene} (hkeep : c.change.KeepsHooks)
include hkeep

theorem mirrors_setHooks (hooks : Option (List Hook)) :
    Mirrors c id (setHooks hooks) (setHooks hooks) := by
  refine mirrors_onStack fun s => ?_
  rw [Stack.top_changed]
  cases s.top with
  | nil => rfl
  | cons n ns => cases n <;> simp [Node.changed, Stack.changed_setTop, hkeep _ _]

/-- The observer of forms does the same to the hooks of both elements. -/
theorem mirrors_preventSubmit :
    Mirrors c id (runObserver scene .preventSubmit) (runObserver scene' .preventSubmit) := by
  refine mirrors_stack.bind fun s => ?_
  rw [Stack.newest?_changed]
  cases s.newest? with
  | none => exact mirrors_pure ()
  | some n =>
    cases n with
    | element tag as content selfClosing hooks =>
      simp only [Option.map_some, Node.changed, hkeep tag hooks]
      exact mirrors_setHooks hkeep _
    | _ => exact mirrors_pure ()

/-- If all elements keep their hooks, the observer of forms sees the same in both readings. -/
theorem mirrors_observe (hfits : ∀ os, c.fits os → os.Suppress) (hsame : ∀ os, c.observers os = os)
    (tag : String) : Mirrors c id (observe scene tag) (observe scene' tag) := by
  have hall {rs : List Registration} (hrs : ∀ r ∈ rs, r.observer = .preventSubmit) :
      Mirrors c id (rs.forM fun r => runObserver scene r.observer)
        (rs.forM fun r => runObserver scene' r.observer) := by
    induction rs with
    | nil => exact mirrors_pure ()
    | cons r rs ih =>
      rw [List.forall_mem_cons] at hrs
      rw [forM_cons, forM_cons, hrs.1]
      exact (mirrors_preventSubmit hkeep).bind fun _ => ih hrs.2
  intro b hb
  have hobservers : (b.changed c).observers = b.observers := hsame b.observers
  refine .of_run (run_get b) (run_get _) ?_
  rw [hobservers]
  exact hall (hfits _ hb _) b hb

end Observers

end Build

/-! ## Views -/

/-- The second scene finds the views that the first one finds, but for the change, and the same tags
stand for views. What observers do to an element comes to the same as well. -/
structure Scene.Mirrors (c : Comparison) (scene scene' : Scene) : Prop where
  view : scene'.view? = scene.view?
  strict : scene'.strict = scene.strict
  element : ∀ tag, Option.Rel (View.Matches c.change) (scene.elementView? tag)
    (scene'.elementView? tag)
  found : ∀ {name : String} {v : View}, scene.find? name = some v →
    ∃ v', scene'.find? name = some v' ∧ v.Matches c.change v'
  missing : c.total → ∀ {name : String}, scene.find? name = none → scene'.find? name = none
  observed : ∀ {tag : String}, scene.elementView? tag = none → ∀ {b : Builder} {s' : Stack},
    c.fits b.observers → Stack.Nearly c.change b.stack s' →
      (∃ n ∈ b.stack.newest?, n.isElement tag = true) →
        Build.MirrorsAt c b ((b.changed c).withStack s') id (Build.observe scene tag)
          (Build.observe scene' tag)
  /-- Nodes that are open at the end are closed as if they were changed, or not at all. -/
  finished : scene.strict = true ∨ c.change.KeepsHooks

theorem Stack.Nearly.newest? {c : Change} {s s' : Stack} (h : s.Nearly c s') :
    Option.Rel (fun n n' => ∀ tag, n'.isElement tag = n.isElement tag) s.newest? s'.newest? := by
  cases h with
  | changed s =>
    rw [newest?_changed]
    cases s.newest? with
    | none => exact .none
    | some n => exact .some n.isElement_changed
  | fresh s n =>
    rw [Nesting.newest?_push, Nesting.newest?_push]
    exact .some n.isElement_changedInside

/-- An element that is the newest node stands in both stacks, changed inside in the second. -/
theorem Stack.Nearly.exists_of_isElement {c : Change} {s s' : Stack} (h : s.Nearly c s')
    {tag : String} (hnewest : ∃ n ∈ s.newest?, n.isElement tag = true) :
    ∃ (below : Stack) (as : Attributes) (content : Option (List Node)) (selfClosing : Bool)
      (hooks hooks' : Option (List Hook)),
      s = below.push (.element tag as content selfClosing hooks) ∧
      s' = (below.changed c).push (.element tag (as.changed c)
        (content.map (List.map (Node.changed c))) selfClosing hooks') ∧
      (hooks' = hooks ∨ hooks' = c.hooks tag hooks) := by
  obtain ⟨n, hn, helement⟩ := hnewest
  obtain hs' | ⟨below, name, as, content, selfClosing, hooks, hs, hs'⟩ := h.eq_changed_or
  · cases n with
    | element name as content selfClosing hooks =>
      obtain rfl : name = tag := by simpa [Node.isElement] using helement
      have hs := (Nesting.push_dropNewest hn).symm
      refine ⟨_, as, content, selfClosing, hooks, c.hooks name hooks, hs, ?_, .inr rfl⟩
      rw [hs', ← Nesting.push_dropNewest hn, changed_push]
      simp [Node.changed]
    | _ => cases helement
  · rw [hs, Nesting.newest?_push, Option.mem_some_iff] at hn
    subst hn
    obtain rfl : name = tag := by simpa [Node.isElement] using helement
    exact ⟨below, as, content, selfClosing, hooks, hooks, hs, hs', .inl rfl⟩

namespace Build

open Builder

variable {c : Comparison} {scene scene' : Scene}

/-- Both scenes read a template of the same name. -/
theorem name_eq_of_mirrors (h : scene.Mirrors c scene') : scene'.name = scene.name := by
  rw [Scene.name, Scene.name, h.view]

/-- In both scenes the same tags stand for views. -/
theorem isViewTag_eq_of_mirrors (h : scene.Mirrors c scene') (tag : String) :
    scene'.isViewTag tag = scene.isViewTag tag := by
  have helement := h.element tag
  rw [Scene.isViewTag, Scene.isViewTag]
  generalize scene.elementView? tag = v?, scene'.elementView? tag = v'? at helement
  cases helement <;> rfl

/-- What is done with a view that is found may depend on what pointers to it depend on, and on
nothing else. -/
theorem mirrors_findView {α α' : Type} {f : α → α'} (h : scene.Mirrors c scene') (name : String)
    {k : View → Build α} {k' : View → Build α'}
    (hk : ∀ v v', v.Matches c.change v' → Mirrors c f (k v) (k' v')) :
    Mirrors c f (findView scene name >>= k) (findView scene' name >>= k') := by
  intro b hb
  cases hfind : scene.find? name with
  | some v =>
    obtain ⟨v', hfind', hv⟩ := h.found hfind
    exact .of_run (run_findView_eq_ok.2 ⟨hfind, rfl⟩) (run_findView_eq_ok.2 ⟨hfind', rfl⟩)
      (hk v v' hv b hb)
  | none =>
    have hfails {scene : Scene} {b : Builder} (hfind : scene.find? name = none) :
        ∃ e b₁, b.run (findView scene name) = (.error e, b₁) := by
      rw [findView, hfind]
      exact ⟨_, _, rfl⟩
    constructor
    · intro b₁ a hrun
      obtain ⟨e, b₂, hfail⟩ := hfails (b := b) hfind
      rw [run_bind_of_error hfail] at hrun
      cases hrun
    · intro htotal b₁ e hrun
      obtain ⟨e', b₂, hfail⟩ := hfails (b := b.changed c) (h.missing htotal hfind)
      exact ⟨e', b₂, run_bind_of_error hfail _⟩

/-- The element of a view becomes pointers that differ by the change alone. -/
theorem mirrors_viewElement (h : scene.Mirrors c scene') (as : Attributes) (content : List Node) :
    Mirrors c id (viewElement scene as content)
      (viewElement scene' (as.changed c.change) (content.map (Node.changed c.change))) := by
  rw [viewElement, viewElement, Entries.get?_mapValues, ← Entries.mapValues_erase]
  rcases Entries.get? "name" as with _ | (v | d)
  · exact mirrors_fail _ _
  · cases v with
    | text name =>
      simp only [Option.map_some, Attribute.changed]
      split
      · exact mirrors_fail _ _
      · refine mirrors_findView h name fun v v' hv => ?_
        exact (mirrors_check (ViewAttributes.pointer_changed hv _ content)).bind mirrors_append
    | _ => exact mirrors_fail _ _
  · simp only [Option.map_some, Attribute.changed]
    exact (mirrors_check (ViewAttributes.dynamicPointer_changed d _ content)).bind mirrors_append

theorem mirrors_named (h : scene.Mirrors c scene') (d : Directive) (name : Term)
    (hooks : Option (List Hook)) {attributes : Option ViewAttributes}
    (hattributes : attributes.map (ViewAttributes.changed c.change) = attributes) :
    Mirrors c id (named scene d name hooks attributes)
      (named scene' d name hooks attributes) := by
  rw [named, named]
  split
  · rename_i s _
    refine mirrors_findView h s fun v v' hv => ?_
    have happend : Mirrors c id _ _ := mirrors_append (.view v.name attributes hooks)
    rw [Node.changed, Node.changedViewAttributes?_eq, hattributes, ← hv.name] at happend
    exact happend
  · exact mirrors_fail _ _
  · have happend : Mirrors c id _ _ :=
      mirrors_append (.dynamicView (.term name) attributes hooks)
    rw [Node.changed, Node.changedViewAttributes?_eq, hattributes, Dynamic.changed] at happend
    exact happend

/-- A view directive adds pointers that differ by the change alone. -/
theorem mirrors_viewDirective (h : scene.Mirrors c scene') (d : Directive) :
    Mirrors c id (viewDirective scene d) (viewDirective scene' d) := by
  rw [viewDirective, viewDirective]
  obtain ⟨name, object⟩ := viewParts d
  simp only [pure_bind]
  cases object with
  | none => exact mirrors_named h d name none rfl
  | some e =>
    refine (mirrors_check_id _).bind fun ms => ?_
    rw [id_eq]
    have hkept := ViewAttributes.declared_changed (c := c.change) (.ofMembers ms)
    rw [ViewAttributes.changed_ofMembers] at hkept
    cases hdeclared : ViewAttributes.declared (.ofMembers ms) with
    | error cause => exact mirrors_fail cause cause
    | ok p =>
      rw [hdeclared] at hkept
      have hrest : p.2.changed c.change = p.2 :=
        (Prod.mk.inj (Except.ok.inj hkept)).2.symm
      have hgiven : (some p.2).map (ViewAttributes.changed c.change) = some p.2 :=
        congrArg some hrest
      exact mirrors_named h d name p.1 hgiven

/-- Finishing an element that was just closed, or once more one that is changed already. -/
theorem mirrors_closeElement (h : scene.Mirrors c scene') {tag : String} {b : Builder} {s' : Stack}
    (hb : c.fits b.observers) (hs : Stack.Nearly c.change b.stack s')
    (hnewest : ∃ n ∈ b.stack.newest?, n.isElement tag = true) :
    MirrorsAt c b ((b.changed c).withStack s') id (closeElement scene tag)
      (closeElement scene' tag) := by
  obtain ⟨below, as, content, selfClosing, hooks, hooks', hstack, hs', -⟩ :=
    hs.exists_of_isElement hnewest
  have hcontent : (content.map (List.map (Node.changed c.change))).getD [] =
      (content.getD []).map (Node.changed c.change) := by
    cases content <;> rfl
  have hdrop : b.run (onStack Stack.dropNewest) = (.ok (), b.withStack below) := by
    rw [run_onStack, hstack, Nesting.dropNewest_push]
  have hdrop' : ((b.changed c).withStack s').run (onStack Stack.dropNewest) =
      (.ok (), (b.withStack below).changed c) := by
    rw [run_onStack, stack_withStack, hs', Nesting.dropNewest_push]
    rfl
  have hn : b.stack.newest? = some (.element tag as content selfClosing hooks) := by
    rw [hstack, Nesting.newest?_push]
  have hn' : s'.newest? = some (.element tag (as.changed c.change)
      (content.map (List.map (Node.changed c.change))) selfClosing hooks') := by
    rw [hs', Nesting.newest?_push]
  refine .of_run (run_stack b) (run_stack _) ?_
  simp only [stack_withStack, hn, hn', hcontent]
  split
  · exact .of_run hdrop hdrop' (mirrors_viewElement h as _ _ hb)
  · have helement := h.element tag
    have hobserved (hnone : scene.elementView? tag = none) := h.observed hnone hb hs hnewest
    generalize scene.elementView? tag = v?, scene'.elementView? tag = v'? at helement hobserved
    cases helement with
    | none => exact hobserved rfl
    | some hv =>
      refine .of_run hdrop hdrop' ?_
      exact (mirrors_check (ViewAttributes.pointer_changed hv _ _)).bind mirrors_append _ hb

/-! ## Directives and text -/

/-- The end of a block closes the block of its word in both builders or in none; an element was not
opened by a word. -/
theorem mirrors_closeBlock (d : Directive) (word : String) :
    Mirrors c id (closeBlock d word) (closeBlock d word) := by
  refine mirrors_ascend fun b s' hb hs => .of_run (run_stack b) (run_stack _) ?_
  obtain rfl | ⟨below, tag, as, content, selfClosing, hooks, hstack, rfl⟩ := hs.eq_changed_or
  · have hopened : ((b.stack.changed c.change).newest?.bind Node.opening?) =
        b.stack.newest?.bind Node.opening? := by
      rw [Stack.newest?_changed]
      cases b.stack.newest? <;> simp
    rw [stack_withStack, hopened]
    dsimp only
    split
    · exact mirrorsAt_fail _ _
    · exact mirrors_pure () b hb
  · rw [stack_withStack, hstack, Nesting.newest?_push, Nesting.newest?_push]
    exact mirrorsAt_fail _ _

theorem mirrors_continueBlock (d : Directive) :
    Mirrors c id (continueBlock d) (continueBlock d) := by
  have hrefused {b b' : Builder} : MirrorsAt c b b' id
      (onStack (·.opened .detached) >>= fun _ => (fail (.badContinuation d.source) : Build Unit))
      (onStack (·.opened .detached) >>= fun _ => fail (.badContinuation d.source)) :=
    .of_run (run_onStack _ _) (run_onStack _ _) (mirrorsAt_fail _ _)
  refine mirrors_ascend fun b s' hb hs => .of_run (run_stack b) (run_stack _) ?_
  obtain rfl | ⟨below, tag, as, content, selfClosing, hooks, hstack, rfl⟩ := hs.eq_changed_or
  · rw [stack_withStack, Stack.newest?_changed]
    cases b.stack.newest? with
    | none => exact hrefused
    | some n =>
      cases n with
      | conditional bs =>
        simp only [Option.map_some, Node.changed, Node.changedBranches_eq]
        refine mirrors_onStack (fun s => ?_) b hb
        rw [Stack.changed_opened, Stack.changed_dropNewest, Opener.changed]
      | each first body otherwise =>
        cases otherwise with
        | none =>
          cases d.role with
          | otherwise =>
            simp only [Option.map_some, Node.changed, Node.changedAll_eq, Node.changedContent]
            refine mirrors_onStack (fun s => ?_) b hb
            rw [Stack.changed_opened, Stack.changed_dropNewest, Opener.changed]
          | _ => exact hrefused
        | some ns => exact hrefused
      | _ => exact hrefused
  · rw [stack_withStack, hstack, Nesting.newest?_push, Nesting.newest?_push]
    exact hrefused

theorem mirrors_directive (h : scene.Mirrors c scene') (d : Directive) :
    Mirrors c id (directive scene d) (directive scene' d) := by
  rw [directive, directive]
  cases d.role with
  | closes word => exact mirrors_closeBlock d word
  | otherwise | elseIf a => exact mirrors_continueBlock d
  | opens w a =>
    have hopened : Mirrors c id _ _ := mirrors_opened (openerOf w d)
    rw [openerOf_changed] at hopened
    exact hopened
  | shows ws =>
    dsimp only
    split
    · exact mirrors_viewDirective h d
    · exact mirrors_append (.value (.marked d))

theorem mirrors_span (h : scene.Mirrors c scene') (span : Span) :
    Mirrors c id (Build.span scene span) (Build.span scene' span) := by
  cases span with
  | literal data => exact mirrors_append (.text data)
  | directive d => exact mirrors_directive h d

theorem mirrors_text (h : scene.Mirrors c scene') (data : String) :
    Mirrors c id (text scene data) (text scene' data) := by
  refine (mirrors_forM (mirrors_span h) _).bind fun _ => ?_
  cases (Span.scan data).failure? with
  | none => exact mirrors_pure ()
  | some e => exact fun _ _ => mirrorsAt_throw e e

/-! ## Elements -/

/-- The value of an attribute is read in a frame of its own in both readings. -/
theorem mirrors_attributeOf (h : scene.Mirrors c scene') (name : String) (v : Value) :
    Mirrors c (Attribute.changed c.change) (attributeOf scene name v)
      (attributeOf scene' name v) := by
  cases v with
  | text s =>
    rw [attributeOf, attributeOf]
    split
    · exact mirrors_pure (Attribute.literal (.text s))
    · refine (mirrors_opened .detached).bind fun _ => mirrors_stack.bind fun opened => ?_
      refine (mirrors_text h s).bind fun _ => mirrors_stack.bind fun after => ?_
      rw [Stack.depth_changed, Stack.isInside_changed, Stack.top_changed, ← List.map_reverse]
      split
      · refine (mirrors_check (ofContent_map_changed name s _)).bind fun a => ?_
        refine (mirrors_onStack fun st => ?_).bind fun _ => mirrors_pure a
        simp [Stack.changed]
      · exact mirrors_fail _ _
  | _ => exact mirrors_pure (Attribute.literal _)

theorem mirrors_attributesOf (h : scene.Mirrors c scene') (given : List (String × Value)) :
    Mirrors c (Attributes.changed c.change) (attributesOf scene given)
      (attributesOf scene' given) := by
  have hfold (as : Attributes) : Mirrors c (Attributes.changed c.change)
      (given.foldlM (fun as a => return Entries.set a.1 (← attributeOf scene a.1 a.2) as) as)
      (given.foldlM (fun as a => return Entries.set a.1 (← attributeOf scene' a.1 a.2) as)
        (as.changed c.change)) := by
    induction given generalizing as with
    | nil => exact mirrors_pure as
    | cons g given ih =>
      rw [List.foldlM_cons, List.foldlM_cons]
      refine Mirrors.bind ?_ ih
      refine (mirrors_attributeOf h g.1 g.2).bind fun a => ?_
      rw [← Entries.mapValues_set]
      exact mirrors_pure (Entries.set g.1 a as)
  exact hfold []

/-- Hooks are declared by literal texts, which the change leaves alone. -/
theorem elementHooks_changed (h : scene.Mirrors c scene') (tag : String) (as : Attributes) :
    elementHooks scene' tag (as.changed c.change) =
      (elementHooks scene tag as).map fun p => (p.1, p.2.changed c.change) := by
  rw [elementHooks, elementHooks, isViewTag_eq_of_mirrors h]
  split
  · rfl
  · exact Hook.declared_mapValues Attribute.literal?_changed _ as

/-- A start tag does the same in both readings, up to the change. -/
theorem mirrors_startElement (h : scene.Mirrors c scene') (tag : String)
    (given : List (String × Value)) (selfClosing : Bool) :
    Mirrors c id (startElement scene tag given selfClosing)
      (startElement scene' tag given selfClosing) := by
  refine (mirrors_attributesOf h given).bind fun as => ?_
  refine (mirrors_check (elementHooks_changed h tag as)).bind fun p => ?_
  dsimp only
  split
  · intro b hb
    have hs : Stack.Nearly c.change (b.stack.push (.element tag p.2 none selfClosing p.1)) _ :=
      .fresh b.stack _
    exact .of_run (run_append b _) (run_append _ _)
      (mirrors_closeElement h hb hs (by simp [Node.isElement]))
  · exact mirrors_opened (.element tag p.2 p.1)

/-- An end tag does the same in both readings, up to the change. -/
theorem mirrors_endElement (h : scene.Mirrors c scene') (written tag : String) :
    Mirrors c id (endElement scene written tag) (endElement scene' written tag) := by
  refine mirrors_ascend fun b s' hb hs => .of_run (run_stack b) (run_stack _) ?_
  have hnewest := hs.newest?
  have hclose (helement : ∃ n ∈ b.stack.newest?, n.isElement tag = true) :=
    mirrors_closeElement h hb hs helement
  rw [stack_withStack]
  generalize b.stack.newest? = n?, s'.newest? = n'? at hnewest hclose
  cases hnewest with
  | none => exact mirrorsAt_fail _ _
  | @some n n' hn =>
    simp only [hn]
    split
    · rename_i helement
      exact hclose ⟨n, rfl, helement⟩
    · exact mirrorsAt_fail _ _

/-! ## Whole templates -/

theorem mirrors_event (h : scene.Mirrors c scene') (e : Markup.Event) :
    Mirrors c id (event scene e) (event scene' e) := by
  cases e with
  | start tag name attributes selfClosing => exact mirrors_startElement h name _ selfClosing
  | stop tag name => exact mirrors_endElement h tag name
  | text data => exact mirrors_text h data
  | comment tag data =>
    rw [event, event, comment]
    split
    · exact mirrors_append (.comment data)
    · exact mirrors_pure ()
  | other tag =>
    rw [event, event, declaration]
    cases Markup.documentType? tag with
    | none => exact mirrors_fail _ _
    | some t => exact mirrors_append (.doctype t.name t.publicId t.systemId)

/-- So do all events of a markup. -/
theorem mirrors_events (h : scene.Mirrors c scene') (es : Markup.Events) :
    Mirrors c id (events scene es) (events scene' es) := by
  refine (mirrors_forM (mirrors_event h) es.events).bind fun _ => ?_
  cases es.failure? with
  | none => exact mirrors_pure ()
  | some e => exact fun _ _ => mirrorsAt_throw e e

/-- Both templates come to an end, or neither does. Once nothing is open, the content is that of the
root. -/
theorem mirrors_finish (h : scene.Mirrors c scene') :
    Mirrors c (Template.changed c.change) (finish scene) (finish scene') := by
  have hlast {b : Builder} (hb : c.fits b.observers) (hdepth : b.stack.depth = 0) :
      MirrorsAt c b (b.changed c) (Template.changed c.change)
        (do
          let content := (← stack).nodes
          notice .debug "Parsed template"
            [("template", .text scene.name), ("nodes", .int content.length)]
          return ⟨content⟩)
        (do
          let content := (← stack).nodes
          notice .debug "Parsed template"
            [("template", .text scene'.name), ("nodes", .int content.length)]
          return ⟨content⟩) := by
    refine .of_run (run_stack b) (run_stack _) ?_
    have hnodes : (b.changed c).stack.nodes = b.stack.nodes.map (Node.changed c.change) :=
      b.stack.nodes_changed_of_depth hdepth
    rw [hnodes, name_eq_of_mirrors h]
    dsimp only
    rw [List.length_map]
    exact ((mirrors_notice _ _ _).bind fun _ => mirrors_pure (⟨b.stack.nodes⟩ : Template)) b hb
  intro b hb
  refine .of_run (run_stack b) (run_stack _) ?_
  have hdepth : (b.changed c).stack.depth = b.stack.depth := b.stack.depth_changed
  rw [hdepth, h.strict]
  split
  · split
    · exact mirrorsAt_of_error (run_bind_of_error (run_fail _ _) _)
        (run_bind_of_error (run_fail _ _) _)
    · rename_i hstrict
      have hflat : (b.changed c).withStack (b.changed c).stack.flattened =
          (b.withStack b.stack.flattened).changed c :=
        congrArg ((b.changed c).withStack ·)
          (b.stack.changed_flattened (h.finished.resolve_left hstrict)).symm
      refine .of_run (run_onStack b _) (run_onStack _ _) ?_
      rw [hflat]
      exact hlast hb rfl
  · rename_i hopen
    exact hlast hb (by simpa using hopen)

/-- A template is read from markup as if it was changed from the start. -/
theorem mirrors_markup (h : scene.Mirrors c scene') (source : String) :
    Mirrors c (Template.changed c.change) (markup scene source) (markup scene' source) := by
  rw [markup, markup, begin, begin, name_eq_of_mirrors h]
  exact (mirrors_notice _ _ _).bind fun _ => (mirrors_events h _).bind fun _ => mirrors_finish h

/-- A plain text is read alike in both scenes. -/
theorem mirrors_plain (h : scene.Mirrors c scene') (source : String) :
    Mirrors c (Template.changed c.change) (plain scene source) (plain scene' source) := by
  rw [plain, plain, begin, begin, name_eq_of_mirrors h]
  exact (mirrors_notice _ _ _).bind fun _ => (mirrors_text h _).bind fun _ => mirrors_finish h

end Build

end Stencil
