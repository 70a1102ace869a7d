import Stencil.Proofs.Building.Calls

/-!
# Builders that are reached

A builder starts with nothing read and is then called, any number of times. `Reached` holds of the
builders after calls that all succeeded. What holds of the empty stack and is kept by every move
holds of their stacks, and a template that is read from a source is the end of such a builder.
-/

namespace Stencil

open Builder Nesting

/-- A builder after any number of calls that succeeded, the first of them on an empty stack. -/
inductive Reached (scene : Scene) : Builder → Prop where
  | start {b : Builder} (h : b.stack = .empty) : Reached scene b
  | call {b b' : Builder} {c : Call} (hb : Reached scene b)
      (hc : b.run (c.run scene) = (.ok (), b')) : Reached scene b'

/-- A template is read from a source, as markup or as plain text. -/
def Template.IsReadFrom (scene : Scene) (observers : Observers) (source : String)
    (t : Template) : Prop :=
  ((Builder.start observers).run (Build.markup scene source)).1 = .ok t ∨
    ((Builder.start observers).run (Build.plain scene source)).1 = .ok t

variable {scene : Scene} {b b' : Builder}

theorem Nesting.Attached.empty : Attached Stack.empty :=
  List.forall_mem_nil _

/-- Between two calls no attribute value is being read. -/
theorem Reached.attached (h : Reached scene b) : Attached b.stack := by
  induction h with
  | start h => exact h ▸ .empty
  | call _ hc ih => exact (Call.move_of_run ih hc).attached ih

/-- What the empty stack has and every move keeps, all stacks of builders that are reached have. -/
theorem Reached.induction {P : Stack → Prop} (h : Reached scene b) (hempty : P .empty)
    (hmove : ∀ s s', Attached s → Move scene s s' → P s → P s') : P b.stack := by
  induction h with
  | start h => exact h ▸ hempty
  | call hb hc ih => exact hmove _ _ hb.attached (Call.move_of_run hb.attached hc) ih

/-- Calls that all succeed reach the builder that they leave. -/
theorem Reached.forM {calls : List Call} (hb : Reached scene b)
    (h : b.run (calls.forM (Call.run scene)) = (.ok (), b')) : Reached scene b' := by
  induction calls generalizing b with
  | nil =>
    rw [run_forM_nil, Prod.mk.injEq] at h
    exact h.2 ▸ hb
  | cons c calls ih =>
    rw [run_forM_cons] at h
    obtain ⟨_, b₁, hcall, hcalls⟩ := run_bind_eq_ok.1 h
    exact ih (.call hb hcall) hcalls

/-- The calls that reading a source makes: one with the whole text, or one for each event of its
markup. -/
def Call.ofSource (isText : Bool) (source : String) : List Call :=
  if isText then [.text source] else (Markup.read source).events.map Call.ofEvent

/-- A source is read by calls that all succeed, and then the template is ended. -/
theorem Builder.exists_run_ofSource {observers : Observers} {isText : Bool} {source : String}
    {t : Template} (h : ((Builder.start observers).run
      (if isText then Build.plain scene source else Build.markup scene source)).1 = .ok t) :
    ∃ b b' : Builder, b.stack = .empty ∧ b.observers = observers ∧
      b.run ((Call.ofSource isText source).forM (Call.run scene)) = (.ok (), b') ∧
      (b'.run (Build.finish scene)).1 = .ok t := by
  obtain ⟨b', hrun⟩ : ∃ b', (Builder.start observers).run
      (if isText then Build.plain scene source else Build.markup scene source) = (.ok t, b') :=
    ⟨_, Prod.ext h rfl⟩
  cases isText with
  | false =>
    rw [if_neg (by simp), Build.markup] at hrun
    obtain ⟨_, b, hbegin, hrest⟩ := run_bind_eq_ok.1 hrun
    obtain ⟨_, b₁, hevents, hfinish⟩ := run_bind_eq_ok.1 hrest
    have hb := (Prod.mk.inj hbegin).2
    refine ⟨b, b₁, hb ▸ rfl, hb ▸ rfl, ?_, congrArg Prod.fst hfinish⟩
    rw [Call.ofSource, if_neg (by simp)]
    generalize Markup.read source = es at hevents
    obtain ⟨events, failure?⟩ := es
    rw [Build.events] at hevents
    obtain ⟨_, b₂, hforM, hfailure⟩ := run_bind_eq_ok.1 hevents
    have hcalls : Build.event scene = Call.run scene ∘ Call.ofEvent :=
      funext fun e => (Call.run_ofEvent scene e).symm
    cases failure? with
    | some e => cases hfailure
    | none =>
      rw [← (Prod.mk.inj hfailure).2, List.forM_eq_forM, List.forM_map, ← hforM, hcalls]
      rfl
  | true =>
    rw [if_pos rfl, Build.plain] at hrun
    obtain ⟨_, b, hbegin, hrest⟩ := run_bind_eq_ok.1 hrun
    obtain ⟨_, b₁, htext, hfinish⟩ := run_bind_eq_ok.1 hrest
    have hb := (Prod.mk.inj hbegin).2
    exact ⟨b, b₁, hb ▸ rfl, hb ▸ rfl, run_bind_of_ok htext _, congrArg Prod.fst hfinish⟩

/-- Reading a template is a run of its calls on an empty stack, and the end of the template. -/
theorem Template.IsReadFrom.exists_run {observers : Observers} {source : String} {t : Template}
    (h : t.IsReadFrom scene observers source) :
    ∃ (isText : Bool) (b b' : Builder), b.stack = .empty ∧ b.observers = observers ∧
      b.run ((Call.ofSource isText source).forM (Call.run scene)) = (.ok (), b') ∧
      (b'.run (Build.finish scene)).1 = .ok t := by
  obtain h | h := h
  · exact ⟨false, exists_run_ofSource h⟩
  · exact ⟨true, exists_run_ofSource h⟩

/-- A template that is read from a source is the end of a builder that is reached. -/
theorem Template.IsReadFrom.exists_reached {observers : Observers} {source : String}
    {t : Template} (h : t.IsReadFrom scene observers source) :
    ∃ b, Reached scene b ∧ (b.run (Build.finish scene)).1 = .ok t := by
  obtain ⟨isText, b, b', hstart, -, hrun, hfinish⟩ := h.exists_run
  exact ⟨b', .forM (.start hstart) hrun, hfinish⟩

/-- The finished template has the content of the stack, with all open nodes in place. -/
theorem Builder.content_of_run_finish {t : Template}
    (h : (b.run (Build.finish scene)).1 = .ok t) : t.content = b.stack.nodes := by
  obtain ⟨⟨frames, root⟩, observers, marks, notices⟩ := b
  cases frames with
  | nil =>
    rw [run_finish_of_nil scene rfl, Except.ok.injEq] at h
    exact h ▸ rfl
  | cons f fs =>
    rw [Build.finish, run_bind_of_ok (run_stack _)] at h
    cases hstrict : scene.strict with
    | true => simp [Stack.depth, run_bind, hstrict] at h
    | false =>
      simp only [Stack.depth, hstrict] at h
      have hcontent := congrArg Template.content (Except.ok.inj h)
      exact hcontent.symm

/-- A reading that gives something with this result. -/
theorem exists_of_toOption_map {α β : Type} {r : Except Error α} {f : α → β} {x : β}
    (h : r.toOption.map f = some x) : ∃ a, r = .ok a ∧ f a = x := by
  obtain ⟨a, ha, hx⟩ := Option.map_eq_some_iff.1 h
  cases r with
  | error e => cases ha
  | ok a' => exact ⟨a', rfl, Option.some.inj ha ▸ hx⟩

theorem eq_ok_of_isSome {r : Except Error Unit} (h : r.toOption.isSome) : r = .ok () := by
  cases r with
  | error e => cases h
  | ok _ => rfl

end Stencil
