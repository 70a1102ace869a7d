import Stencil.Proofs.Building.Changed
import Stencil.Proofs.Tree.Origins

/-!
# Forms that suppress the default action

A form that reacts to its submission gets one more hook when it is closed, unless one of its
reactions suppresses the default action already. The tree that is read with this observer is the one
that is read without observers, but for the hooks of its forms. This holds wherever a form stands,
and also where its view has moved it: no form is passed over and none is shown twice.

A form that is shown again would not change, since it suppresses the default action by then.
-/

namespace Stencil

open Builder Nesting

/-! ## Readings with and without the observer of forms -/

/-- Forms suppress the default action, and nothing else is changed. -/
def Change.guarding : Change :=
  ⟨id, Hook.guarded⟩

/-- The first reading has no observers, the second one has the observer of forms. -/
def Comparison.guarding : Comparison :=
  ⟨(· = .empty), .guarding, fun _ => .default, True⟩

variable {scene : Scene} {b : Builder} {s : Stack} {tag : String} {as : Attributes}
  {content : Option (List Node)} {selfClosing : Bool} {hooks : Option (List Hook)}

/-- Whether an element was just closed or is shown again, it gets the hooks of a changed one. -/
theorem Build.mirrorsAt_observe_guarding (hb : b.observers = .empty) {s' : Stack}
    (hs : Stack.Nearly .guarding b.stack s')
    (hnewest : ∃ n ∈ b.stack.newest?, n.isElement tag = true) :
    MirrorsAt .guarding b ((b.changed .guarding).withStack s') id (observe scene tag)
      (observe scene tag) := by
  obtain ⟨below, as, content, selfClosing, hooks, hooks', hstack, hs', hhooks⟩ :=
    hs.exists_of_isElement hnewest
  have hgiven : Hook.guarded tag hooks' = Change.guarding.hooks tag hooks := by
    obtain rfl | rfl := hhooks
    · rfl
    · exact Hook.guarded_guarded tag hooks
  have hsettle : Observers.default.Settle scene Hook.guarded := Observers.settle_default
  have hrun' := hsettle ((b.changed .guarding).withStack s') _ _ _ _ _ _ rfl hs'
  have hpush : (below.changed .guarding).push (.element tag (as.changed .guarding)
      (content.map (List.map (Node.changed .guarding))) selfClosing
      (Change.guarding.hooks tag hooks)) = b.stack.changed .guarding := by
    rw [hstack, Stack.changed_push]
    simp [Node.changed]
  rw [hgiven, hpush] at hrun'
  constructor
  · intro b₁ a hrun
    rw [run_observe hb, Prod.mk.injEq] at hrun
    exact ⟨hrun.2 ▸ hb, hrun.2 ▸ hrun'⟩
  · intro _ b₁ e hrun
    rw [run_observe hb] at hrun
    cases hrun

/-- Nothing but the hooks of forms is different with the observer of forms, if open nodes are an
error. -/
theorem Scene.mirrors_guarding (hstrict : scene.strict = true) :
    scene.Mirrors .guarding scene where
  view := rfl
  strict := rfl
  element tag := by
    cases scene.elementView? tag with
    | none => exact .none
    | some v => exact .some ⟨rfl, rfl, rfl⟩
  found hfind := ⟨_, hfind, rfl, rfl, rfl⟩
  missing _ _ hfind := hfind
  observed _ _ _ hb hs hnewest := Build.mirrorsAt_observe_guarding hb hs hnewest
  finished := .inl hstrict

/-- A reading succeeds with the observer of forms exactly if it does without observers, and the forms
of its template are guarded then. -/
theorem Builder.run_default_iff {x : Build Template}
    (h : Build.Mirrors .guarding (Template.changed .guarding) x x) {t : Template} :
    ((Builder.start .default).run x).1 = .ok t ↔
      ∃ plain, ((Builder.start .empty).run x).1 = .ok plain ∧ t = plain.changed .guarding :=
  h.fst_run_eq_ok_iff (b := .start .empty) trivial rfl

/-! ## Templates -/

/-- In a template that is read with the observer of forms, every element was made by a start tag of
its own and has the hooks that this tag declares, and a form that leaves the default action on has
one more. The template that is read without observers differs in nothing else, and no form would
change if it was shown again. -/
theorem guarded_of_run (hstrict : scene.strict = true) {isText : Bool} {source : String}
    {t : Template} (h : ((Builder.start .default).run
      (if isText then Build.plain scene source else Build.markup scene source)).1 = .ok t) :
    (∃ (b : Builder) (made : List (ℕ × Node)), b.stack = .empty ∧ b.observers = .default ∧
      (made.map Prod.fst).Nodup ∧ t.elements.Perm (made.map Prod.snd) ∧
      ∀ m ∈ made, ∃ tag kept declared content selfClosing,
        Call.Makes scene b (Call.ofSource isText source) m.1 tag kept declared m.2 ∧
          m.2 = .element tag kept content selfClosing
            (if tag = "form" ∧ Hook.LeavesDefault (declared.getD []) then
              some (declared.getD [] ++ [Hook.preventDefault]) else declared)) ∧
      (∃ plain, ((Builder.start .empty).run
        (if isText then Build.plain scene source else Build.markup scene source)).1 = .ok plain ∧
          t = plain.changed .guarding) ∧
      ∀ hooks, Hook.preventSubmit (Hook.preventSubmit hooks) = Hook.preventSubmit hooks := by
  have hscene := Scene.mirrors_guarding hstrict
  refine ⟨?_, ?_, Hook.preventSubmit_preventSubmit⟩
  · obtain ⟨b, made, hb, hobservers, hnodup, hperm, hmade⟩ :=
      exists_made hstrict Observers.settle_default h
    refine ⟨b, made, hb, hobservers, hnodup, hperm, fun m hm => ?_⟩
    obtain ⟨tag, kept, declared, content, selfClosing, hn, hmakes⟩ := hmade m hm
    exact ⟨tag, kept, declared, content, selfClosing, hmakes, Hook.guarded_eq tag declared ▸ hn⟩
  · refine (run_default_iff ?_).1 h
    cases isText with
    | false => exact Build.mirrors_markup hscene source
    | true => exact Build.mirrors_plain hscene source

/-- The tag of an element, the events that it reacts to, and which reactions suppress the default
action. -/
def Node.reactions? : Node → Option (String × List (String × Bool))
  | .element tag _ _ _ hooks => some (tag, (hooks.getD []).filterMap fun
    | .onElement event e => some (event, Hook.isPreventDefault (.onElement event e))
    | _ => none)
  | _ => none

/-- A form in a block, and another one that goes into the content of a view. -/
theorem guarded_of_run_card :
    let view (name : String) : View := ⟨name, "", .null, .null, [.text name], [], [], none⟩
    let scene : Scene := ⟨some (view "page"), Registry.empty.insert (view "card"), true, .passive⟩
    let source := "\x7b\x7bif a\x7d\x7d<form as=\"f\" on=\"submit: save()\"></form>" ++
      "\x7b\x7b/if\x7d\x7d<card><form on=\"submit: $preventDefault()\"></form>" ++
      "<p on=\"submit: log()\"></p></card>"
    ∃ t : Template, ((Builder.start .default).run (Build.markup scene source)).1 = .ok t ∧
      t.nodes.filterMap Node.reactions? =
        [("form", [("submit", false), ("submit", true)]), ("form", [("submit", true)]),
          ("p", [("submit", false)])] ∧
      ∃ made : List (ℕ × Node), (made.map Prod.fst).Nodup ∧ t.elements.Perm (made.map Prod.snd) := by
  intro view scene source
  have hrun : ((Builder.start .default).run (Build.markup scene source)).1.toOption.map
      (fun t => t.nodes.filterMap Node.reactions?) =
        some [("form", [("submit", false), ("submit", true)]), ("form", [("submit", true)]),
          ("p", [("submit", false)])] := by
    decide +kernel
  obtain ⟨t, ht, hreactions⟩ := exists_of_toOption_map hrun
  have hmarkup : ((Builder.start .default).run
      (if false then Build.plain scene source else Build.markup scene source)).1 = .ok t := ht
  obtain ⟨⟨_, made, -, -, hnodup, hperm, -⟩, -⟩ := guarded_of_run rfl hmarkup
  exact ⟨t, ht, hreactions, made, hnodup, hperm⟩

end Stencil
