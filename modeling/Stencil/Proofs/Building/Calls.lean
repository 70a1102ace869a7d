import Stencil.Proofs.Building.Moves

/-!
# What a call of a builder can do

A builder is called with a tag, a text, a comment or a declaration. `Move` lists what a call that
succeeds does to a stack without detached frames. An element is shown to observers, which change
nothing but its hooks, or it stands for a view and a pointer takes its place.
-/

namespace Stencil

open Builder Nesting

/-! ## Elements -/

/-- The pointers that an element of this tag stands for, once it is closed. -/
inductive Stands (scene : Scene) (tag : String) (as : Attributes) (content : List Node) :
    Node → Prop where
  | named {name : String} {v : View} {n : Node} (htag : tag = "view")
      (hname : Entries.get? "name" as = some (.literal (.text name))) (hne : name ≠ "")
      (hfind : scene.find? name = some v)
      (hn : ViewAttributes.pointer v (Entries.erase "name" as) content = .ok n) :
      Stands scene tag as content n
  | dynamic {d : Dynamic} {n : Node} (htag : tag = "view")
      (hname : Entries.get? "name" as = some (.dynamic d))
      (hn : ViewAttributes.dynamicPointer d (Entries.erase "name" as) content = .ok n) :
      Stands scene tag as content n
  | custom {v : View} {n : Node} (htag : tag ≠ "view") (hfind : scene.elementView? tag = some v)
      (hn : ViewAttributes.pointer v as content = .ok n) : Stands scene tag as content n

/-- Only elements of the tags that stand for views become pointers. -/
theorem Stands.isViewTag {scene : Scene} {tag : String} {as : Attributes} {content : List Node}
    {n : Node} (h : Stands scene tag as content n) : scene.isViewTag tag = true := by
  cases h with
  | named htag | dynamic htag => simp [Scene.isViewTag, htag]
  | custom _ hfind => simp [Scene.isViewTag, hfind]

section Elements

variable {scene : Scene} {b b' : Builder} {s : Stack} {tag : String} {as : Attributes}
  {content : Option (List Node)} {selfClosing : Bool} {hooks : Option (List Hook)}

theorem Stack.setTop_push (s : Stack) (n : Node) (content : List Node) :
    (s.push n).setTop content = s.setTop content := by
  obtain ⟨frames, root⟩ := s
  cases frames <;> rfl

theorem Builder.run_setHooks
    (hs : b.stack = s.push (.element tag as content selfClosing hooks)) (hooks' : Option (List Hook)) :
    b.run (Build.setHooks hooks') =
      (.ok (), b.withStack (s.push (.element tag as content selfClosing hooks'))) := by
  rw [Build.setHooks, run_onStack, hs]
  simp only [Stack.top_push, Stack.setTop_push]
  rfl

/-- A reaction changes the hooks of the newest element, and nothing else of the stack. -/
theorem Builder.exists_of_run_settle
    (hs : b.stack = s.push (.element tag as content selfClosing hooks)) {mark : Mark} {r : Reaction}
    (h : b.run (Build.settle mark r) = (.ok (), b')) :
    ∃ hooks', b'.stack = s.push (.element tag as content selfClosing hooks') := by
  obtain ⟨_, b₁, hmark, hrest⟩ := run_bind_eq_ok.1 h
  have hmarked : b₁.stack = s.push (.element tag as content selfClosing hooks) :=
    (Prod.mk.inj hmark).2 ▸ hs
  rw [run_bind_of_ok (run_setHooks hmarked r.hooks)] at hrest
  cases hfailure : r.failure? with
  | none =>
    rw [hfailure] at hrest
    exact ⟨r.hooks, (Prod.mk.inj hrest).2 ▸ rfl⟩
  | some e =>
    rw [hfailure] at hrest
    cases hrest

/-- An observer changes the hooks of the element that it is shown, and nothing else of the stack,
whatever its reaction is. -/
theorem Builder.exists_of_run_runObserver
    (hs : b.stack = s.push (.element tag as content selfClosing hooks)) {o : Observer}
    (h : b.run (Build.runObserver scene o) = (.ok (), b')) :
    ∃ hooks', b'.stack = s.push (.element tag as content selfClosing hooks') := by
  rw [Build.runObserver, run_bind_of_ok (run_stack b), hs, newest?_push] at h
  cases o with
  | preventSubmit =>
    rw [run_setHooks hs] at h
    exact ⟨Hook.preventSubmit hooks, (Prod.mk.inj h).2 ▸ rfl⟩
  | named name =>
    rw [run_bind_of_ok (run_get b)] at h
    exact exists_of_run_settle hs h

/-- Whatever observers do, they leave the newest element in place and change its hooks alone. -/
theorem Builder.exists_of_run_observe
    (hs : b.stack = s.push (.element tag as content selfClosing hooks)) {name : String}
    (h : b.run (Build.observe scene name) = (.ok (), b')) :
    ∃ hooks', b'.stack = s.push (.element tag as content selfClosing hooks') := by
  rw [Build.observe, Build.emit, run_bind_of_ok (run_get b)] at h
  generalize b.observers.handlers ("element:" ++ name) = handlers at h
  induction handlers generalizing b hooks with
  | nil =>
    rw [run_forM_nil, Prod.mk.injEq] at h
    exact ⟨hooks, h.2 ▸ hs⟩
  | cons r handlers ih =>
    rw [run_forM_cons] at h
    obtain ⟨_, b₁, hobserver, hrest⟩ := run_bind_eq_ok.1 h
    obtain ⟨hooks', hs'⟩ := exists_of_run_runObserver hs hobserver
    exact ih hs' hrest

/-- A `view` element that is closed without an error has become one of its pointers. -/
theorem Builder.exists_of_run_viewElement {ns : List Node}
    (h : b.run (Build.viewElement scene as ns) = (.ok (), b')) :
    ∃ n, Stands scene "view" as ns n ∧ b' = b.withStack (b.stack.push n) := by
  rw [Build.viewElement] at h
  split at h
  · rename_i d hname
    obtain ⟨n, b₁, hcheck, happend⟩ := run_bind_eq_ok.1 h
    obtain ⟨hn, rfl⟩ := run_check_eq_ok.1 hcheck
    exact ⟨n, .dynamic rfl hname hn, run_append_eq_ok.1 happend⟩
  · rename_i name hname
    split at h
    · cases h
    · rename_i hne
      obtain ⟨v, b₁, hfound, hrest⟩ := run_bind_eq_ok.1 h
      obtain ⟨hfind, rfl⟩ := run_findView_eq_ok.1 hfound
      obtain ⟨n, b₂, hcheck, happend⟩ := run_bind_eq_ok.1 hrest
      obtain ⟨hn, rfl⟩ := run_check_eq_ok.1 hcheck
      exact ⟨n, .named rfl hname hne hfind hn, run_append_eq_ok.1 happend⟩
  · cases h

/-- Finishing the newest element: its observers may change its hooks, or it becomes a pointer. -/
theorem Builder.exists_of_run_closeElement
    (hs : b.stack = s.push (.element tag as content selfClosing hooks))
    (h : b.run (Build.closeElement scene tag) = (.ok (), b')) :
    (scene.isViewTag tag = false ∧
        ∃ hooks', b'.stack = s.push (.element tag as content selfClosing hooks')) ∨
      ∃ n, Stands scene tag as (content.getD []) n ∧ b' = b.withStack (s.push n) := by
  rw [Build.closeElement, run_bind_of_ok (run_stack b), hs, newest?_push] at h
  dsimp only at h
  split at h
  · rename_i htag
    subst htag
    rw [run_bind_of_ok (run_onStack b _)] at h
    obtain ⟨n, hn, rfl⟩ := exists_of_run_viewElement h
    rw [withStack_withStack, stack_withStack, hs, dropNewest_push]
    exact .inr ⟨n, hn, rfl⟩
  · rename_i htag
    split at h
    · rename_i v hview
      rw [run_bind_of_ok (run_onStack b _)] at h
      obtain ⟨n, b₁, hcheck, happend⟩ := run_bind_eq_ok.1 h
      obtain ⟨hn, rfl⟩ := run_check_eq_ok.1 hcheck
      rw [run_append_eq_ok.1 happend, withStack_withStack, stack_withStack, hs, dropNewest_push]
      exact .inr ⟨n, .custom htag hview hn, rfl⟩
    · rename_i hview
      exact .inl ⟨by simp [Scene.isViewTag, htag, hview], exists_of_run_observe hs h⟩

end Elements

/-! ## Calls -/

/-- What a builder is called with while markup is read. -/
inductive Call where
  | start (tag : String) (given : List (String × Value)) (selfClosing : Bool)
  | stop (written tag : String)
  | text (data : String)
  | comment (tag data : String)
  | declaration (tag : String)

namespace Call

def run (scene : Scene) : Call → Build Unit
  | .start tag given selfClosing => Build.startElement scene tag given selfClosing
  | .stop written tag => Build.endElement scene written tag
  | .text data => Build.text scene data
  | .comment tag data => Build.comment tag data
  | .declaration tag => Build.declaration tag

def ofEvent : Markup.Event → Call
  | .start _ name attributes selfClosing =>
    .start name (attributes.map fun a => (a.1, Markup.attributeValue a.2)) selfClosing
  | .stop tag name => .stop tag name
  | .text data => .text data
  | .comment tag data => .comment tag data
  | .other tag => .declaration tag

/-- Reading an event is making its call. -/
theorem run_ofEvent (scene : Scene) (e : Markup.Event) :
    (ofEvent e).run scene = Build.event scene e := by
  cases e <;> rfl

end Call

/-- A call changes a stack on which no attribute value is being read. -/
inductive Move (scene : Scene) : Stack → Stack → Prop where
  | spans {data : String} {s s' : Stack} (h : SpanMoves scene (Span.scan data).spans s s') :
      Move scene s s'
  | comment (data : String) (s : Stack) : Move scene s (s.push (.comment data))
  | doctype (name : String) (publicId systemId : Option String) (s : Stack) :
      Move scene s (s.push (.doctype name publicId systemId))
  | leaf {s : Stack} {tag : String} {as : Attributes} {selfClosing : Bool} (hooks : Option (List Hook))
      (has : ∀ a ∈ as, a.2.IsRead scene) (hleaf : (selfClosing || Markup.isVoid tag) = true)
      (htag : scene.isViewTag tag = false)
      (hnames : "as" ∉ Entries.keys as ∧ "on" ∉ Entries.keys as) :
      Move scene s (s.push (.element tag as none selfClosing hooks))
  | leafView {s : Stack} {tag : String} {as : Attributes} {n : Node}
      (has : ∀ a ∈ as, a.2.IsRead scene) (hn : Stands scene tag as [] n) :
      Move scene s (s.push n)
  | start {s : Stack} {tag : String} {as : Attributes} (hooks : Option (List Hook))
      (has : ∀ a ∈ as, a.2.IsRead scene) (hvoid : Markup.isVoid tag = false)
      (hnames : scene.isViewTag tag = false →
        "as" ∉ Entries.keys as ∧ "on" ∉ Entries.keys as) :
      Move scene s (s.opened (.element tag as hooks))
  | stop {tag : String} (as : Attributes) (hooks hooks' : Option (List Hook)) (content : List Node)
      (fs : List Frame) (root : List Node) (htag : scene.isViewTag tag = false) :
      Move scene ⟨⟨.element tag as hooks, content⟩ :: fs, root⟩
        (Stack.push (.element tag as (some content.reverse) false hooks') ⟨fs, root⟩)
  | stopView {tag : String} {as : Attributes} {content : List Node} {n : Node}
      (hooks : Option (List Hook)) (hn : Stands scene tag as content.reverse n)
      (fs : List Frame) (root : List Node) :
      Move scene ⟨⟨.element tag as hooks, content⟩ :: fs, root⟩ (Stack.push n ⟨fs, root⟩)

section Calls

variable {scene : Scene} {b b' : Builder}

/-- There is a hook among those that are declared, or there are none. -/
theorem Hook.someOf_ne_nil (hs : List Hook) : someOf hs ≠ some [] := by
  cases hs <;> simp [someOf]

/-- The hooks that are declared, and the attributes that are left then. -/
theorem Hook.exists_of_declared {α : Type} {literal? : α → Option Value}
    {make : String → Expr → Hook} {as rest : Entries α} {hooks : Option (List Hook)}
    (h : Hook.declared literal? make as = .ok (hooks, rest)) :
    (∃ hs, hooks = someOf hs) ∧ rest = Entries.erase "on" (Entries.erase "as" as) := by
  have hlast {hs : List Hook}
      (h : Except.ok (someOf hs, Entries.erase "on" (Entries.erase "as" as)) =
        (.ok (hooks, rest) : Except Cause _)) :
      (∃ hs, hooks = someOf hs) ∧ rest = Entries.erase "on" (Entries.erase "as" as) := by
    obtain ⟨rfl, rfl⟩ := Prod.mk.inj (Except.ok.inj h)
    exact ⟨⟨hs, rfl⟩, rfl⟩
  have hlisteners {aliases : List Hook} {x : Except Cause (List Hook)}
      (h : (x >>= fun listeners =>
        .ok (someOf (aliases ++ listeners), Entries.erase "on" (Entries.erase "as" as))) =
          Except.ok (hooks, rest)) :
      (∃ hs, hooks = someOf hs) ∧ rest = Entries.erase "on" (Entries.erase "as" as) := by
    obtain ⟨listeners, -, hok⟩ := Expr.Grammar.bind_eq_ok.1 h
    exact hlast hok
  rw [Hook.declared] at h
  generalize Entries.get? "as" as = named?, Entries.get? "on" as = reacts? at h
  cases named? with
  | none =>
    cases reacts? with
    | none => exact hlast h
    | some a => exact hlisteners h
  | some a =>
    obtain ⟨aliases, -, hrest⟩ := Expr.Grammar.bind_eq_ok.1 h
    cases reacts? with
    | none => exact hlast hrest
    | some a => exact hlisteners hrest

/-- Where hooks are declared there is at least one. -/
theorem Hook.ne_nil_of_declared {α : Type} {literal? : α → Option Value}
    {make : String → Expr → Hook} {as rest : Entries α} {hooks : Option (List Hook)}
    (h : Hook.declared literal? make as = .ok (hooks, rest)) : hooks ≠ some [] := by
  obtain ⟨⟨hs, rfl⟩, -⟩ := exists_of_declared h
  exact someOf_ne_nil hs

/-- The attributes that declare hooks are taken out, and the others are kept. -/
theorem Hook.eq_erase_of_declared {α : Type} {literal? : α → Option Value}
    {make : String → Expr → Hook} {as rest : Entries α} {hooks : Option (List Hook)}
    (h : Hook.declared literal? make as = .ok (hooks, rest)) :
    rest = Entries.erase "on" (Entries.erase "as" as) :=
  (exists_of_declared h).2

/-- What an element keeps of its attributes. -/
theorem elementHooks_sublist {tag : String} {as rest : Attributes} {hooks : Option (List Hook)}
    (h : Build.elementHooks scene tag as = .ok (hooks, rest)) : rest.Sublist as := by
  rw [Build.elementHooks] at h
  split at h
  · obtain ⟨-, rfl⟩ := Prod.mk.inj (Except.ok.inj h)
    exact .refl as
  · rw [Hook.eq_erase_of_declared h]
    exact (Entries.erase_sublist _ _).trans (Entries.erase_sublist _ _)

/-- An element that is no view keeps no attribute that declares hooks. -/
theorem elementHooks_names {tag : String} {as rest : Attributes} {hooks : Option (List Hook)}
    (h : Build.elementHooks scene tag as = .ok (hooks, rest)) (hnodup : (Entries.keys as).Nodup)
    (htag : scene.isViewTag tag = false) :
    "as" ∉ Entries.keys rest ∧ "on" ∉ Entries.keys rest := by
  rw [Build.elementHooks, htag] at h
  rw [Hook.eq_erase_of_declared h]
  have hsublist := Entries.keys_erase_sublist "as" as
  constructor
  · intro hmem
    exact Entries.not_mem_keys_erase hnodup ((Entries.keys_erase_sublist _ _).subset hmem)
  · exact Entries.not_mem_keys_erase (hsublist.nodup hnodup)

/-- A start tag opens a frame, or adds an element or a pointer that is closed at once. -/
theorem Builder.move_of_run_startElement (hb : Attached b.stack) {tag : String}
    {given : List (String × Value)} {selfClosing : Bool}
    (h : b.run (Build.startElement scene tag given selfClosing) = (.ok (), b')) :
    Move scene b.stack b'.stack := by
  rw [Build.startElement] at h
  obtain ⟨as, b₁, hattributes, hrest⟩ := run_bind_eq_ok.1 h
  obtain ⟨rfl, -, hread, hnodup, -⟩ := exists_of_run_attributesOf hb hattributes
  obtain ⟨⟨hooks, rest⟩, b₂, hcheck, htag⟩ := run_bind_eq_ok.1 hrest
  obtain ⟨hhooks, rfl⟩ := run_check_eq_ok.1 hcheck
  have hkept : ∀ a ∈ rest, a.2.IsRead scene :=
    fun a ha => hread a ((elementHooks_sublist hhooks).subset ha)
  dsimp only at htag
  split at htag
  · rename_i hleaf
    rw [run_bind_of_ok (run_append _ _)] at htag
    obtain ⟨hview, hooks', hs⟩ | ⟨n, hn, rfl⟩ := exists_of_run_closeElement rfl htag
    · rw [hs]
      exact .leaf hooks' hkept hleaf hview (elementHooks_names hhooks hnodup hview)
    · exact .leafView hkept hn
  · rename_i hleaf
    rw [Bool.not_eq_true, Bool.or_eq_false_iff] at hleaf
    rw [← (Prod.mk.inj htag).2]
    exact .start hooks hkept hleaf.2 (elementHooks_names hhooks hnodup)

/-- An end tag closes the innermost frame, which has to be the one of its element. -/
theorem Builder.exists_of_run_endElement (hb : Attached b.stack) {written tag : String}
    (h : b.run (Build.endElement scene written tag) = (.ok (), b')) :
    ∃ as hooks content fs root, b.stack = ⟨⟨.element tag as hooks, content⟩ :: fs, root⟩ ∧
      (b.withStack (Stack.push (.element tag as (some content.reverse) false hooks)
        ⟨fs, root⟩)).run (Build.closeElement scene tag) = (.ok (), b') := by
  rw [Build.endElement] at h
  obtain ⟨_, b₁, hascend, hrest⟩ := run_bind_eq_ok.1 h
  obtain ⟨s, hclosed, rfl⟩ := exists_of_run_ascend hascend
  generalize b.stack = stack at hb hclosed ⊢
  obtain ⟨frames, root⟩ := stack
  cases frames with
  | nil => cases hclosed
  | cons f fs =>
    obtain ⟨o, content⟩ := f
    obtain ⟨n, hn⟩ := exists_close (hb _ List.mem_cons_self) content.reverse
    simp only [Stack.closed?, hn, Option.some.injEq] at hclosed
    subst hclosed
    rw [run_bind_of_ok (run_stack _), stack_withStack, newest?_push] at hrest
    dsimp only at hrest
    split at hrest
    · rename_i helement
      cases o with
      | element name as hooks =>
        cases hn
        obtain rfl : name = tag := by simpa [Node.isElement] using helement
        exact ⟨as, hooks, content, fs, root, rfl, hrest⟩
      | conditional | each | eachElse | block =>
        cases hn
        cases helement
      | detached => cases hn
    · cases hrest

/-- An end tag closes the innermost frame, which has to be that of its element. -/
theorem Builder.move_of_run_endElement (hb : Attached b.stack) {written tag : String}
    (h : b.run (Build.endElement scene written tag) = (.ok (), b')) :
    Move scene b.stack b'.stack := by
  obtain ⟨as, hooks, content, fs, root, hstack, hclose⟩ := exists_of_run_endElement hb h
  rw [hstack]
  obtain ⟨hview, hooks', hs⟩ | ⟨n, hn, rfl⟩ := exists_of_run_closeElement rfl hclose
  · rw [hs]
    exact .stop as hooks hooks' content fs root hview
  · exact .stopView hooks hn fs root

/-- A call that succeeds on a stack without detached frames is a move. -/
theorem Call.move_of_run (hb : Attached b.stack) {c : Call}
    (h : b.run (c.run scene) = (.ok (), b')) : Move scene b.stack b'.stack := by
  cases c with
  | start tag given selfClosing => exact move_of_run_startElement hb h
  | stop written tag => exact move_of_run_endElement hb h
  | text data =>
    obtain ⟨-, s, hs, rfl⟩ := run_text_eq_ok_iff.1 h
    exact .spans hs
  | comment tag data =>
    rw [Call.run, Build.comment] at h
    split at h
    · rw [run_append_eq_ok.1 h]
      exact .comment data _
    · have hnone : SpanMoves scene (Span.scan "").spans b.stack b.stack := by
        simpa [Span.scan_empty] using SpanMoves.nil b.stack
      rw [← (Prod.mk.inj h).2]
      exact .spans hnone
  | declaration tag =>
    rw [Call.run, Build.declaration] at h
    split at h
    · rw [run_append_eq_ok.1 h]
      exact .doctype _ _ _ _
    · cases h

/-- After a call no attribute value is being read, if none was before. -/
theorem Move.attached {s s' : Stack} (h : Move scene s s') (hs : Attached s) : Attached s' := by
  cases h with
  | spans h => exact h.attached hs
  | comment | doctype | leaf | leafView => exact hs.push _
  | start => exact hs.opened (by simp)
  | stop | stopView => exact hs.below.push _

end Calls

end Stencil
