import Stencil.Proofs.Building.Ending

/-!
# What the usual observers do

A template has no observers, or the one that forms come with. Either way the hooks of an element are
settled when it is closed, by its tag and the hooks that it has so far, and nothing else is changed.
A form that reacts to its submission gets one more hook, unless one of its reactions suppresses the
default action already.
-/

namespace Stencil

open Builder Nesting

/-! ## Hooks of a form -/

namespace Hook

/-- Some of the hooks react to the submission of a form, and none of these suppresses the default
action. -/
def LeavesDefault (hooks : List Hook) : Prop :=
  (∃ e, .onElement "submit" e ∈ hooks) ∧
    ∀ args after, .onElement "submit" (.call ["$preventDefault"] args after) ∉ hooks

variable {hooks : List Hook}

/-- Only the hook of an element with this event reacts to it. -/
theorem exists_of_isReactionTo {event : String} {h : Hook} (hh : h.isReactionTo event = true) :
    ∃ e, h = .onElement event e := by
  cases h with
  | onElement name e =>
    obtain rfl : name = event := by simpa [isReactionTo] using hh
    exact ⟨e, rfl⟩
  | _ => cases hh

theorem exists_of_isPreventDefault {h : Hook} (hh : h.isPreventDefault = true) :
    ∃ event args after, h = .onElement event (.call ["$preventDefault"] args after) := by
  unfold isPreventDefault at hh
  split at hh
  · exact ⟨_, _, _, rfl⟩
  · cases hh

/-- The test that the observer makes tells whether the default action is left on. -/
theorem leavesDefault_iff : LeavesDefault hooks ↔
    ((hooks.filter (isReactionTo "submit")).isEmpty ||
      (hooks.filter (isReactionTo "submit")).any isPreventDefault) = false := by
  rw [Bool.or_eq_false_iff, List.isEmpty_eq_false_iff_exists_mem, List.any_eq_false]
  constructor
  · rintro ⟨⟨e, he⟩, hnone⟩
    refine ⟨⟨_, List.mem_filter.2 ⟨he, by simp [isReactionTo]⟩⟩, fun hook hmem hprevent => ?_⟩
    obtain ⟨hmem, hsubmit⟩ := List.mem_filter.1 hmem
    obtain ⟨event, args, after, rfl⟩ := exists_of_isPreventDefault hprevent
    obtain rfl : event = "submit" := by simpa [isReactionTo] using hsubmit
    exact hnone _ _ hmem
  · rintro ⟨⟨hook, hmem⟩, hnone⟩
    obtain ⟨hmem, hsubmit⟩ := List.mem_filter.1 hmem
    obtain ⟨e, rfl⟩ := exists_of_isReactionTo hsubmit
    refine ⟨⟨e, hmem⟩, fun args after hcall => ?_⟩
    exact hnone _ (List.mem_filter.2 ⟨hcall, by simp [isReactionTo]⟩) rfl

instance : DecidablePred LeavesDefault :=
  fun _ => decidable_of_iff _ leavesDefault_iff.symm

/-- The hooks of a form grow by one exactly if they leave the default action on. -/
theorem preventSubmit_eq (hooks : Option (List Hook)) :
    preventSubmit hooks = if LeavesDefault (hooks.getD []) then
      some (hooks.getD [] ++ [preventDefault]) else hooks := by
  rw [preventSubmit]
  by_cases h : LeavesDefault (hooks.getD [])
  · rw [if_pos h, if_neg (Bool.not_eq_true _ ▸ leavesDefault_iff.1 h)]
  · rw [if_neg h, if_pos (Bool.not_eq_false _ ▸ mt leavesDefault_iff.2 h)]

theorem not_leavesDefault_append : ¬ LeavesDefault (hooks ++ [preventDefault]) :=
  fun h => h.2 [] [] (by simp [preventDefault])

/-- A form that is shown again does not change. -/
theorem preventSubmit_preventSubmit (hooks : Option (List Hook)) :
    preventSubmit (preventSubmit hooks) = preventSubmit hooks := by
  rw [preventSubmit_eq hooks]
  split
  · rw [preventSubmit_eq, Option.getD_some, if_neg not_leavesDefault_append]
  · rename_i h
    rw [preventSubmit_eq, if_neg h]

end Hook

/-! ## Settling hooks -/

/-- The hooks of an element, if it has any, once the observer of forms has seen it. -/
def Hook.guarded (tag : String) (hooks : Option (List Hook)) : Option (List Hook) :=
  if tag = "form" then preventSubmit hooks else hooks

/-- Of all elements only forms get another hook. -/
theorem Hook.guarded_eq (tag : String) (hooks : Option (List Hook)) :
    guarded tag hooks = if tag = "form" ∧ LeavesDefault (hooks.getD []) then
      some (hooks.getD [] ++ [preventDefault]) else hooks := by
  by_cases htag : tag = "form"
  · simp [guarded, htag, preventSubmit_eq]
  · simp [guarded, htag]

/-- What has been settled is not settled again. -/
theorem Hook.guarded_guarded (tag : String) (hooks : Option (List Hook)) :
    guarded tag (guarded tag hooks) = guarded tag hooks := by
  by_cases htag : tag = "form"
  · simp [guarded, htag, preventSubmit_preventSubmit]
  · simp [guarded, htag]

/-- No element gets an empty list of hooks by being settled. -/
theorem Hook.guarded_ne_nil (tag : String) {hooks : Option (List Hook)} (h : hooks ≠ some []) :
    guarded tag hooks ≠ some [] := by
  rw [guarded_eq]
  split
  · simp
  · exact h

/-- The observers give an element that is closed the hooks that the policy says, and do nothing
else. -/
def Observers.Settle (scene : Scene) (os : Observers)
    (policy : String → Option (List Hook) → Option (List Hook)) : Prop :=
  ∀ (b : Builder) (s : Stack) (tag : String) (as : Attributes) (content : Option (List Node))
    (selfClosing : Bool) (hooks : Option (List Hook)), b.observers = os →
    b.stack = s.push (.element tag as content selfClosing hooks) →
      b.run (Build.observe scene tag) = (.ok (), b.withStack
        (s.push (.element tag as content selfClosing (policy tag hooks))))

variable {scene : Scene}

/-- Without observers the hooks stay as they are. -/
theorem Observers.settle_empty : Observers.empty.Settle scene fun _ hooks => hooks := by
  intro b s tag as content selfClosing hooks hb hs
  rw [run_observe hb, ← hs, withStack_stack]

/-- The observers that every template has change the hooks of forms only. -/
theorem Observers.settle_default : Observers.default.Settle scene Hook.guarded := by
  intro b s tag as content selfClosing hooks hb hs
  by_cases htag : tag = "form"
  · subst htag
    have hhandlers : Observers.default.handlers ("element:" ++ "form") =
        [⟨.preventSubmit, Observers.normalPriority, 1⟩] := by
      decide
    have hshown : b.run (Build.runObserver scene .preventSubmit) =
        b.run (Build.setHooks (Hook.preventSubmit hooks)) := by
      rw [Build.runObserver, run_bind_of_ok (run_stack b), hs, newest?_push]
    rw [Build.observe, Build.emit, run_bind_of_ok (run_get b), hb, hhandlers, run_forM_cons,
      run_bind_of_ok (hshown.trans (run_setHooks hs _)), run_forM_nil]
    rfl
  · have hevent : "element:" ++ tag ≠ "element:form" := by
      intro heq
      exact htag ((String.append_right_inj "element:").1 heq)
    have hnone : b.observers.has ("element:" ++ tag) = false := by
      rw [hb, Observers.has, Observers.handlers_default_of_ne hevent]
      rfl
    rw [run_observe_of_not_has hnone, Hook.guarded, if_neg htag, ← hs, withStack_stack]

/-- An element that is closed becomes a pointer, or its hooks are settled. -/
theorem Observers.Settle.of_run_closeElement {b b' : Builder} {os : Observers}
    {policy : String → Option (List Hook) → Option (List Hook)} (h : os.Settle scene policy)
    (hb : b.observers = os) {s : Stack} {tag : String} {as : Attributes}
    {content : Option (List Node)} {selfClosing : Bool} {hooks : Option (List Hook)}
    (hs : b.stack = s.push (.element tag as content selfClosing hooks))
    (hrun : b.run (Build.closeElement scene tag) = (.ok (), b')) :
    (scene.isViewTag tag = false ∧ b' = b.withStack
        (s.push (.element tag as content selfClosing (policy tag hooks)))) ∨
      ∃ n, Stands scene tag as (content.getD []) n ∧ b' = b.withStack (s.push n) := by
  refine (exists_of_run_closeElement hs hrun).imp_left ?_
  rintro ⟨hview, -⟩
  refine ⟨hview, ?_⟩
  obtain ⟨htag, helement⟩ := Scene.isViewTag_eq_false.1 hview
  rw [Build.closeElement, run_bind_of_ok (run_stack b), hs, newest?_push] at hrun
  simp only [if_neg htag, helement] at hrun
  rw [h b s tag as content selfClosing hooks hb hs] at hrun
  exact (Prod.mk.inj hrun).2.symm

end Stencil
