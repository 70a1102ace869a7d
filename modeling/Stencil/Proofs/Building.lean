import Stencil.Proofs.Text.Search
import Stencil.Template.Building

/-!
# Running the steps of a builder

How each primitive step of a builder runs: what it returns and what it leaves of the builder. The
rest of the theory takes a step apart with these equations and does not look into the monad.
Attribute values, observers and hooks follow, as far as they leave the stack alone.
-/

namespace Stencil

/-- The observers that every template has look at forms only. -/
theorem Observers.handlers_default_of_ne {event : String} (h : event ≠ "element:form") :
    Observers.default.handlers event = [] := by
  simp [handlers, default, on, empty, Entries.set, Entries.get?, h.symm]

/-- The observers suppress the default action of forms at most. -/
def Observers.Suppress (os : Observers) : Prop :=
  ∀ event, ∀ r ∈ os.handlers event, r.observer = .preventSubmit

/-- The observers that a template has by itself, and no observers, suppress the default action at
most. -/
theorem Observers.Suppress.of_usual {os : Observers} (h : os = .default ∨ os = .empty) :
    os.Suppress := by
  intro event r hr
  obtain rfl | rfl := h
  · by_cases hevent : event = "element:form"
    · subst hevent
      cases List.mem_singleton.1 hr
      rfl
    · rw [handlers_default_of_ne hevent] at hr
      cases hr
  · cases hr

theorem Build.forM_cons {α : Type} (f : α → Build Unit) (a : α) (as : List α) :
    (a :: as).forM f = f a >>= fun _ => as.forM f := rfl

theorem Build.forM_append {α : Type} (f : α → Build Unit) (as bs : List α) :
    (as ++ bs).forM f = as.forM f >>= fun _ => bs.forM f :=
  List.forM_append

namespace Builder

variable {α β : Type}

def withStack (s : Stack) (b : Builder) : Builder :=
  { b with stack := s }

@[simp]
theorem stack_withStack (s : Stack) (b : Builder) : (b.withStack s).stack = s := rfl

@[simp]
theorem observers_withStack (s : Stack) (b : Builder) :
    (b.withStack s).observers = b.observers := rfl

@[simp]
theorem withStack_withStack (s s' : Stack) (b : Builder) :
    (b.withStack s).withStack s' = b.withStack s' := rfl

@[simp]
theorem withStack_stack (b : Builder) : b.withStack b.stack = b := rfl

@[simp]
theorem run_pure (b : Builder) (a : α) : b.run (pure a) = (.ok a, b) := rfl

/-- Two steps run one after the other, and a failure of the first one stops the run. -/
theorem run_bind (b : Builder) (x : Build α) (f : α → Build β) :
    b.run (x >>= f) =
      match b.run x with
      | (.ok a, b') => b'.run (f a)
      | (.error e, b') => (.error e, b') := by
  simp only [Builder.run, ExceptT.run_bind, StateT.run_bind]
  obtain ⟨r, b'⟩ := StateT.run (ExceptT.run x) b
  cases r <;> rfl

theorem run_bind_of_ok {b b' : Builder} {x : Build α} {a : α} (h : b.run x = (.ok a, b'))
    (f : α → Build β) : b.run (x >>= f) = b'.run (f a) := by
  rw [run_bind, h]

theorem run_bind_of_error {b b' : Builder} {x : Build α} {e : Error}
    (h : b.run x = (.error e, b')) (f : α → Build β) : b.run (x >>= f) = (.error e, b') := by
  rw [run_bind, h]

/-- A run of two steps that succeeds is a successful run of the first and then of the second. -/
theorem run_bind_eq_ok {b b'' : Builder} {x : Build α} {f : α → Build β} {c : β} :
    b.run (x >>= f) = (.ok c, b'') ↔
      ∃ a b', b.run x = (.ok a, b') ∧ b'.run (f a) = (.ok c, b'') := by
  rw [run_bind]
  constructor
  · intro h
    split at h
    · rename_i a b' hx
      exact ⟨a, b', hx, h⟩
    · simp at h
  · rintro ⟨a, b', hx, hf⟩
    rw [hx]
    exact hf

@[simp]
theorem run_fail (b : Builder) (cause : Cause) :
    b.run (Build.fail cause : Build α) = (.error (.of cause), b) := rfl

@[simp]
theorem run_check_ok (b : Builder) (a : α) : b.run (Build.check (.ok a)) = (.ok a, b) := rfl

@[simp]
theorem run_stack (b : Builder) : b.run Build.stack = (.ok b.stack, b) := rfl

@[simp]
theorem run_get (b : Builder) : b.run (get : Build Builder) = (.ok b, b) := rfl

@[simp]
theorem run_onStack (b : Builder) (f : Stack → Stack) :
    b.run (Build.onStack f) = (.ok (), b.withStack (f b.stack)) := rfl

@[simp]
theorem run_append (b : Builder) (n : Node) :
    b.run (Build.append n) = (.ok (), b.withStack (b.stack.push n)) := rfl

@[simp]
theorem run_notice (b : Builder) (level : Log.Level) (message : String)
    (context : Entries Value) :
    b.run (Build.notice level message context) =
      (.ok (), { b with notices := b.notices ++ [⟨Log.parserLog, level, message, context⟩] }) :=
  rfl

theorem run_forM_nil (b : Builder) (f : α → Build Unit) :
    b.run (([] : List α).forM f) = (.ok (), b) := rfl

theorem run_forM_cons (b : Builder) (f : α → Build Unit) (a : α) (as : List α) :
    b.run ((a :: as).forM f) = b.run (f a >>= fun _ => as.forM f) := rfl

@[simp]
theorem run_span_literal (b : Builder) (scene : Scene) (data : String) :
    b.run (Build.span scene (.literal data)) = (.ok (), b.withStack (b.stack.push (.text data))) :=
  rfl

/-- Closing the innermost frame fails exactly at the bottom. -/
theorem run_ascend (b : Builder) (cause : Cause) :
    b.run (Build.ascend cause) =
      match b.stack.closed? with
      | some s => (.ok (), b.withStack s)
      | none => (.error (.of cause), b) := by
  rw [Build.ascend, run_bind_of_ok (run_stack b)]
  cases b.stack.closed? <;> simp

end Builder

/-! ## Text and attributes -/

namespace Builder

variable {scene : Scene}

/-- A text that can be scanned is taken span by span. -/
theorem run_text {data : String} {spans : List Span} (h : Span.scan data = ⟨spans, none⟩)
    (b : Builder) : b.run (Build.text scene data) = b.run (spans.forM (Build.span scene)) := by
  rw [Build.text, h, run_bind]
  split
  · rename_i hspans
    rw [hspans, run_pure]
  · rename_i hspans
    rw [hspans]

/-- A value that leaves one node in its frame gives the attribute of this node, and the stack is
as before. -/
theorem run_attributeOf {name s : String} {n : Node} {a : Attribute} (hne : s ≠ "")
    (htext : ∀ b : Builder, b.run (Build.text scene s) = (.ok (), b.withStack (b.stack.push n)))
    (hcontent : Build.ofContent name s [n] = .ok a) (b : Builder) :
    b.run (Build.attributeOf scene name (.text s)) = (.ok a, b) := by
  have hinside : Build.isInside (b.stack.opened .detached).depth
      ((b.stack.opened .detached).push n) = true := by
    simp [Build.isInside, Stack.opened, Stack.push, Stack.setTop, Stack.depth]
  have htop : ((b.stack.opened .detached).push n).top.reverse = [n] := by
    simp
  have hdrop : (Stack.mk (((b.stack.opened .detached).push n).frames.drop 1)
      ((b.stack.opened .detached).push n).root) = b.stack := by
    simp [Stack.opened, Stack.push, Stack.setTop]
  simp only [Build.attributeOf, if_neg hne]
  rw [run_bind_of_ok (run_onStack b _), run_bind_of_ok (run_stack _),
    run_bind_of_ok (htext _), run_bind_of_ok (run_stack _)]
  simp only [stack_withStack, withStack_withStack, hinside, htop, hcontent, if_true]
  rw [run_bind_of_ok (run_check_ok _ _), run_bind_of_ok (run_onStack _ _), run_pure]
  simp only [stack_withStack, withStack_withStack, hdrop, withStack_stack]

/-- Attributes of different names whose values are read without a trace are listed as given. By
induction on the pairs: the attributes read so far have none of the names that are still to come. -/
theorem run_attributesOf {γ : Type} {name : γ → String} {raw : γ → Value} {read : γ → Attribute}
    {gs : List γ} (hread : ∀ g ∈ gs, ∀ b : Builder,
      b.run (Build.attributeOf scene (name g) (raw g)) = (.ok (read g), b))
    (hnames : (gs.map name).Nodup) (b : Builder) :
    b.run (Build.attributesOf scene (gs.map fun g => (name g, raw g))) =
      (.ok (gs.map fun g => (name g, read g)), b) := by
  have hfold (earlier : Attributes) (hnew : ∀ g ∈ gs, name g ∉ Entries.keys earlier) :
      b.run ((gs.map fun g => (name g, raw g)).foldlM (fun as g => do
        return Entries.set g.1 (← Build.attributeOf scene g.1 g.2) as) earlier) =
        (.ok (earlier ++ gs.map fun g => (name g, read g)), b) := by
    induction gs generalizing earlier with
    | nil => simp
    | cons g gs ih =>
      rw [List.map_cons, List.nodup_cons] at hnames
      have hset := Entries.set_of_not_mem (hnew g List.mem_cons_self) (read g)
      have hstep : b.run (do
          return Entries.set (name g) (← Build.attributeOf scene (name g) (raw g)) earlier) =
          (.ok (earlier ++ [(name g, read g)]), b) := by
        rw [run_bind_of_ok (hread g List.mem_cons_self b), run_pure, hset]
      rw [List.map_cons, List.foldlM_cons, run_bind_of_ok hstep,
        ih (fun g' hg' => hread g' (List.mem_cons_of_mem _ hg')) hnames.2]
      · simp
      · intro g' hg'
        have hold := hnew g' (List.mem_cons_of_mem _ hg')
        have hne : name g' ≠ name g := by
          intro heq
          exact hnames.1 (heq ▸ List.mem_map_of_mem hg')
        simpa [Entries.keys, hne] using hold
  exact hfold [] (by simp [Entries.keys])

/-! ## Elements without views and observers -/

/-- Without observers nobody sees the element. -/
theorem run_observe {b : Builder} (hb : b.observers = .empty) (tag : String) :
    b.run (Build.observe scene tag) = (.ok (), b) := by
  rw [Build.observe, Build.emit, run_bind_of_ok (run_get b), hb]
  rfl

/-- An element that stands for no view is left as it is if it has no observers. -/
theorem run_closeElement {b : Builder} (hscene : scene.view? = none)
    (hb : b.observers = .empty) {tag : String} (htag : tag ≠ "view") :
    b.run (Build.closeElement scene tag) = (.ok (), b) := by
  have hview : scene.elementView? tag = none := by
    simp [Scene.elementView?, hscene]
  rw [Build.closeElement, run_bind_of_ok (run_stack b)]
  split
  · rw [if_neg htag]
    simp only [hview, run_observe hb]
  · rfl

/-- An element that has no attribute `as` or `on` declares no hooks. -/
theorem elementHooks_eq {tag : String} {as : Attributes}
    (has : "as" ∉ Entries.keys as) (hon : "on" ∉ Entries.keys as) :
    Build.elementHooks scene tag as = .ok (none, as) := by
  have hdeclared : Hook.declared Attribute.literal? .onElement as = .ok (none, as) := by
    simp only [Hook.declared, Entries.get?_eq_none has, Entries.get?_eq_none hon,
      Entries.erase_of_not_mem has, Entries.erase_of_not_mem hon]
    rfl
  rw [Build.elementHooks, hdeclared, ite_self]

/-- A start tag whose attributes are read without a trace and declare no hook. -/
theorem run_startElement {b : Builder} (hscene : scene.view? = none) (hb : b.observers = .empty)
    {tag : String} (htag : tag ≠ "view") {raw : Attribute → Value} {as : Attributes}
    (hread : ∀ a ∈ as, ∀ b : Builder,
      b.run (Build.attributeOf scene a.1 (raw a.2)) = (.ok a.2, b))
    (hnames : (Entries.keys as).Nodup) (has : "as" ∉ Entries.keys as)
    (hon : "on" ∉ Entries.keys as) (selfClosing : Bool) :
    b.run (Build.startElement scene tag (as.map fun a => (a.1, raw a.2)) selfClosing) =
      (.ok (), b.withStack
        (if (selfClosing || Markup.isVoid tag) = true then
          b.stack.push (.element tag as none selfClosing none)
        else b.stack.opened (.element tag as none))) := by
  have hattributes : b.run (Build.attributesOf scene (as.map fun a => (a.1, raw a.2))) =
      (.ok as, b) := by
    simpa using run_attributesOf hread hnames b
  rw [Build.startElement, run_bind_of_ok hattributes, elementHooks_eq has hon,
    run_bind_of_ok (run_check_ok b _)]
  dsimp only
  split
  · rw [run_bind_of_ok (run_append b _)]
    exact run_closeElement hscene (by simpa using hb) htag
  · rw [run_onStack]

end Builder

end Stencil
