import Stencil.Proofs.Source.RoundTrip
import Stencil.Proofs.Tree.Expressions

/-!
# The expressions of a written source

A template that is read from tags, text and directives has the expressions of these, one after the
other. Text has none, so sources that differ in their text alone have the same expressions.
-/

namespace Stencil

open Builder Nesting

/-! ## Directives that are read -/

namespace Directive

/-- What continues a block without a condition, or closes it, is a word alone. -/
theorem body_eq_nil_of_classify {cs body : List Char} {role : Role}
    (h : classify cs = (role, body)) (hrole : role = .otherwise ∨ role.isEnd = true) :
    body = [] := by
  unfold classify at h
  split at h
  · rename_i hhead
    cases h
    obtain ⟨w, a, rfl⟩ | ⟨a, rfl⟩ := role_of_head? hhead <;> simp [Role.isEnd] at hrole
  · repeat' split at h
    all_goals cases h
    all_goals simp_all [Role.isEnd]

/-- A directive that continues or closes a block without a condition has no expression. -/
theorem sound_of_read {s : String} {d : Directive} (h : Directive.read s = .ok d) : d.Sound := by
  intro hrole
  obtain ⟨role, body, hclassify⟩ : ∃ role body, classify (Text.trim s.toList) = (role, body) :=
    ⟨_, _, rfl⟩
  simp only [Directive.read, hclassify] at h
  split at h
  · rename_i e hbody
    cases h
    rw [body_eq_nil_of_classify hclassify hrole] at hbody
    exact (Except.ok.inj hbody).symm
  · cases h

end Directive

namespace Span

/-- An empty region leaves no span. -/
theorem scanFrom_empty {cs before rest : List Char} (h : step cs = .region before [] rest)
    (text : String) : scanFrom text cs = (scanFrom text rest).prepend (literals before) := by
  rw [scanFrom_eq, h]
  rfl

end Span

/-! ## Events -/

/-- The expressions that an event adds to a tree. -/
def Nesting.Event.exprs (scene : Scene) : Event → List Expr
  | .start tag as selfClosing =>
    ((Builder.start .empty).run (Build.startElement scene tag as selfClosing)).2.stack.exprs
  | .directive d =>
    match Directive.read d.source with
    | .ok d => (Span.directive d).exprs scene
    | .error _ => []
  | _ => []

/-! ## Runs of text -/

section

variable {scene : Scene} {es : List Event}

theorem exprs_literals (cs : List Char) :
    (Span.literals cs).flatMap (Span.exprs scene) = [] := by
  cases cs <;> rfl

/-- An empty directive leaves nothing. -/
theorem exprs_directive_empty {d : Directive} (h : d.source = "") :
    (Event.directive d).exprs scene = [] := by
  have hread : Directive.read "" = .ok ⟨"", .shows [], none⟩ := by
    have hwords : Directive.valueWords [] = ([], []) := by
      rw [Directive.valueWords]
      rfl
    have hclassify : Directive.classify [] = (.shows [], []) := by
      simp only [Directive.classify, hwords]
      rfl
    simp [Directive.read, hclassify, Directive.body?]
  rw [Event.exprs, h, hread]
  rfl

/-- The spans of a run have the expressions of its events. -/
theorem exprs_scanFrom (hes : ∀ e ∈ es, e.Tidy) (htext : ∀ e ∈ es, e.isText = true)
    (before : List Char) (hbefore : '{' ∉ before) {text : String}
    (h : (Span.scanFrom text (before ++ sourceChars es)).failure? = none) :
    (Span.scanFrom text (before ++ sourceChars es)).spans.flatMap (Span.exprs scene) =
      es.flatMap (Event.exprs scene) := by
  induction es generalizing before with
  | nil =>
    rw [sourceChars, List.flatMap_nil, List.append_nil]
    by_cases hempty : before = []
    · rw [hempty, Span.scanFrom_nil]
      rfl
    · rw [Span.scanFrom_literal hempty hbefore]
      rfl
  | cons e es ih =>
    rw [List.forall_mem_cons] at hes htext
    have hcons : sourceChars (e :: es) = e.chars ++ sourceChars es := List.flatMap_cons
    cases e with
    | literal data =>
      have hgrown : '{' ∉ before ++ data.toList := by
        simpa using ⟨hbefore, (not_mem_of_quiet hes.1).2.2.1⟩
      have hchars : before ++ sourceChars (.literal data :: es) =
          before ++ data.toList ++ sourceChars es := by
        rw [hcons, List.append_assoc]
        rfl
      rw [hchars] at h ⊢
      exact ih hes.2 htext.2 _ hgrown h
    | directive d =>
      have hstep := Span.step_directive hbefore hes.1.2 (sourceChars es)
      have hrest (h : (Span.scanFrom text (sourceChars es)).failure? = none) :
          (Span.scanFrom text (sourceChars es)).spans.flatMap (Span.exprs scene) =
            es.flatMap (Event.exprs scene) :=
        ih hes.2 htext.2 [] List.not_mem_nil h
      rw [hcons] at h ⊢
      by_cases hempty : d.source = ""
      · rw [hempty] at hstep
        rw [Span.scanFrom_empty hstep] at h ⊢
        rw [List.flatMap_cons, exprs_directive_empty hempty, List.nil_append, ← hrest h,
          Span.Scan.prepend, List.flatMap_append, exprs_literals, List.nil_append]
      · rw [Span.scanFrom_region hstep (by simpa using hempty), String.ofList_toList] at h ⊢
        cases hread : Directive.read d.source with
        | error e =>
          rw [hread] at h
          cases h
        | ok d' =>
          rw [hread] at h
          rw [List.flatMap_cons, Event.exprs, hread, ← hrest h]
          simp [Span.Scan.prepend, exprs_literals]
    | start | stop | comment => cases htext.1

end

/-! ## Builders -/

/-- Blocks, and elements that have no hooks so far. -/
def Opener.Hookless : Opener → Prop
  | .element _ _ hooks => hooks = none
  | .detached => False
  | _ => True

/-- No open element has hooks, and none gets any when it is closed. -/
structure Builder.Hookless (b : Builder) : Prop where
  opened : b.stack.OpenedBy Opener.Hookless
  observers : b.observers.Suppress

/-- A builder has these expressions in addition to those of an earlier one. -/
structure Builder.Adds (es : List Expr) (b b' : Builder) : Prop where
  hookless : b'.Hookless
  exprs : b'.stack.exprs = b.stack.exprs ++ es

section

variable {scene : Scene} {b b' b'' : Builder} {xs ys : List Expr}

namespace Builder

/-- A builder that was started without observers holds no detached block. -/
theorem Hookless.attached (h : b.Hookless) : Attached b.stack := by
  intro f hf heq
  have hopener := h.opened f hf
  rw [heq] at hopener
  exact hopener

/-- What is added in two steps is added in a row. -/
theorem Adds.trans (h : Adds xs b b') (h' : Adds ys b' b'') : Adds (xs ++ ys) b b'' where
  hookless := h'.hookless
  exprs := by rw [h'.exprs, h.exprs, List.append_assoc]

theorem adds_nil (h : b.Hookless) : Adds [] b b where
  hookless := h
  exprs := (List.append_nil _).symm

/-- A text adds the expressions of its directives. -/
theorem adds_of_run_text (hb : b.Hookless) {data : String}
    (h : b.run (Build.text scene data) = (.ok (), b')) :
    Adds ((Span.scan data).spans.flatMap (Span.exprs scene)) b b' := by
  obtain ⟨-, s, hmoves, rfl⟩ := run_text_eq_ok_iff.1 h
  have hblock (o : Opener) (d : Directive) (ho : o.opening? = some d) : o.Hookless := by
    cases o with
    | element | detached => cases ho
    | conditional | each | eachElse | block => trivial
  exact ⟨⟨hmoves.openedBy hblock hb.opened, hb.observers⟩,
    hmoves.exprs hb.attached fun d hd =>
      (Span.exists_read_of_mem_scan hd).elim fun _ => Directive.sound_of_read⟩

/-- An element without hooks is passed over. -/
theorem run_observe_hookless (hb : b.observers.Suppress) {s : Stack} {tag : String}
    {as : Attributes} {content : Option (List Node)} {selfClosing : Bool}
    (hs : b.stack = s.push (.element tag as content selfClosing none)) (name : String) :
    b.run (Build.observe scene name) = (.ok (), b) := by
  rw [Build.observe, Build.emit, run_bind_of_ok (run_get b)]
  have hhandlers := hb ("element:" ++ name)
  generalize b.observers.handlers ("element:" ++ name) = handlers at hhandlers ⊢
  induction handlers with
  | nil => rfl
  | cons r handlers ih =>
    rw [List.forall_mem_cons] at hhandlers
    have hset : b.run (Build.setHooks none) = (.ok (), b) := by
      rw [run_setHooks hs, ← hs, withStack_stack]
    have hrun : b.run (Build.runObserver scene r.observer) = (.ok (), b) := by
      rw [hhandlers.1, Build.runObserver, run_bind_of_ok (run_stack b), hs, newest?_push]
      exact hset
    rw [run_forM_cons, run_bind_of_ok hrun, ih hhandlers.2]

theorem run_closeElement_hookless (hscene : scene.view? = none) (hb : b.observers.Suppress)
    {s : Stack} {tag : String} (htag : tag ≠ "view") {as : Attributes} {content : Option (List Node)}
    {selfClosing : Bool} (hs : b.stack = s.push (.element tag as content selfClosing none)) :
    b.run (Build.closeElement scene tag) = (.ok (), b) := by
  have hview : scene.elementView? tag = none := by
    simp [Scene.elementView?, hscene]
  rw [Build.closeElement, run_bind_of_ok (run_stack b), hs, newest?_push]
  simp only [if_neg htag, hview, run_observe_hookless hb hs]

/-- The end tag of an element without hooks closes its frame, and nothing else is done. -/
theorem adds_of_run_endElement (hscene : scene.view? = none) (hb : b.Hookless)
    {written tag : String} (htag : tag ≠ "view")
    (h : b.run (Build.endElement scene written tag) = (.ok (), b')) : Adds [] b b' := by
  obtain ⟨as, hooks, content, fs, root, hstack, hclose⟩ := exists_of_run_endElement hb.attached h
  have hopener := hb.opened ⟨.element tag as hooks, content⟩ (hstack ▸ List.mem_cons_self)
  obtain rfl : hooks = none := hopener
  let s := Stack.push (.element tag as (some content.reverse) false none) ⟨fs, root⟩
  have hclosed : b.stack.closed? = some s := hstack ▸ rfl
  have hobservers : (b.withStack s).observers.Suppress := hb.observers
  rw [run_closeElement_hookless hscene hobservers htag rfl, Prod.mk.injEq] at hclose
  rw [← hclose.2]
  refine ⟨⟨hb.opened.closed? hclosed, hb.observers⟩, ?_⟩
  rw [stack_withStack, Stack.exprs_closed? hb.attached hclosed, List.append_nil]

/-- A start tag adds the expressions of its attributes. -/
theorem adds_of_run_startElement (hb : b.Hookless) {tag : String} {given : List (String × Value)}
    (htag : Markup.isVoid tag = false) (hnames : ∀ g ∈ given, IsAttributeName g.1)
    (h : b.run (Build.startElement scene tag given false) = (.ok (), b')) :
    Adds ((Event.start tag given false).exprs scene) b b' := by
  have hrun := h
  rw [Build.startElement] at hrun
  obtain ⟨as, b₁, hattributes, -⟩ := run_bind_eq_ok.1 hrun
  obtain ⟨rfl, hruns, -, -, hkeys⟩ := exists_of_run_attributesOf hb.attached hattributes
  have hnot {name : String} (hname : ¬ IsAttributeName name) : name ∉ Entries.keys as := by
    intro hmem
    obtain ⟨g, hg, rfl⟩ := List.mem_map.1 (hkeys name hmem)
    exact hname (hnames g hg)
  have hhooks : Build.elementHooks scene tag as = .ok (none, as) :=
    elementHooks_eq (hnot fun h => h.2.2.1 rfl) (hnot fun h => h.2.2.2 rfl)
  have hstart (c : Builder) : c.run (Build.startElement scene tag given false) =
      (.ok (), c.withStack (c.stack.opened (.element tag as none))) := by
    rw [Build.startElement, run_bind_of_ok (hruns c), hhooks, run_bind_of_ok (run_check_ok c _)]
    simp [htag, run_onStack]
  rw [hstart, Prod.mk.injEq] at h
  rw [← h.2, Event.exprs, hstart]
  refine ⟨⟨hb.opened.opened rfl, hb.observers⟩, ?_⟩
  rw [stack_withStack, stack_withStack, Stack.exprs_opened, Stack.exprs_opened]
  rfl

end Builder

/-! ## Sources -/

section

variable {run es : List Event}

/-- A run of texts adds the expressions written in it. -/
theorem adds_of_run_runEvents (hb : b.Hookless) (hrun : ∀ e ∈ run, e.Tidy)
    (htext : ∀ e ∈ run, e.isText = true)
    (h : b.run ((runEvents (sourceChars run)).forM (Build.event scene)) = (.ok (), b')) :
    Adds (run.flatMap (Event.exprs scene)) b b' := by
  have hexprs (text : String) (hscan : (Span.scanFrom text (sourceChars run)).failure? = none) :
      (Span.scanFrom text (sourceChars run)).spans.flatMap (Span.exprs scene) =
        run.flatMap (Event.exprs scene) :=
    exprs_scanFrom hrun htext [] List.not_mem_nil hscan
  by_cases hempty : sourceChars run = []
  · rw [runEvents, hempty, List.isEmpty_nil, if_pos rfl, run_forM_nil, Prod.mk.injEq] at h
    rw [← hexprs "", hempty, Span.scanFrom_nil]
    · exact h.2 ▸ adds_nil hb
    · rw [hempty, Span.scanFrom_nil]
  · have hevents : runEvents (sourceChars run) = [.text (String.ofList (sourceChars run))] := by
      simp [runEvents, hempty]
    rw [hevents, run_forM_cons] at h
    obtain ⟨_, b₁, hstep, hend⟩ := run_bind_eq_ok.1 h
    rw [run_forM_nil, Prod.mk.injEq] at hend
    obtain ⟨hscan, -⟩ := run_text_eq_ok_iff.1 hstep
    rw [Span.scan_eq, String.toList_ofList] at hscan
    have hadds := adds_of_run_text hb hstep
    rw [Span.scan_eq, String.toList_ofList, hexprs _ hscan] at hadds
    exact hend.2 ▸ hadds

/-- What the reader reports of a source adds the expressions of its events. -/
theorem adds_of_run_report (hscene : scene.view? = none) (hb : b.Hookless) (run : List Event)
    (hrun : ∀ e ∈ run, e.Tidy) (htext : ∀ e ∈ run, e.isText = true) (hes : ∀ e ∈ es, e.Tidy)
    (h : b.run ((report (sourceChars run) es).forM (Build.event scene)) = (.ok (), b')) :
    Adds ((run ++ es).flatMap (Event.exprs scene)) b b' := by
  induction es generalizing run b with
  | nil =>
    rw [List.append_nil]
    exact adds_of_run_runEvents hb hrun htext h
  | cons e es ih =>
    rw [List.forall_mem_cons] at hes
    have hword (hword : e.isText = true)
        (h : b.run ((report (sourceChars run ++ e.chars) es).forM (Build.event scene)) =
          (.ok (), b')) : Adds ((run ++ e :: es).flatMap (Event.exprs scene)) b b' := by
      have hchars : sourceChars run ++ e.chars = sourceChars (run ++ [e]) := by
        simp [sourceChars]
      rw [hchars] at h
      rw [List.append_cons]
      refine ih hb (run ++ [e]) ?_ ?_ hes.2 h
      · simpa [or_imp, forall_and] using ⟨hrun, hes.1⟩
      · simpa [or_imp, forall_and] using ⟨htext, hword⟩
    have htag (event : Markup.Event)
        (hevent : ∀ b₁ b₂ : Builder, b₁.Hookless →
          b₁.run (Build.event scene event) = (.ok (), b₂) → Adds (e.exprs scene) b₁ b₂)
        (h : b.run ((runEvents (sourceChars run) ++ event :: report [] es).forM
          (Build.event scene)) = (.ok (), b')) :
        Adds ((run ++ e :: es).flatMap (Event.exprs scene)) b b' := by
      rw [Build.forM_append, Build.forM_cons] at h
      obtain ⟨_, b₁, hfirst, hrest⟩ := run_bind_eq_ok.1 h
      obtain ⟨_, b₂, hstep, hmore⟩ := run_bind_eq_ok.1 hrest
      have hadds := adds_of_run_runEvents hb hrun htext hfirst
      have hadds' := hevent b₁ b₂ hadds.hookless hstep
      have hadds'' : Adds (([] ++ es).flatMap (Event.exprs scene)) b₂ b' :=
        ih hadds'.hookless [] (List.forall_mem_nil _) (List.forall_mem_nil _) hes.2 hmore
      rw [List.flatMap_append, List.flatMap_cons]
      exact hadds.trans (hadds'.trans hadds'')
    cases e with
    | literal data => exact hword rfl h
    | directive d => exact hword rfl h
    | comment data => cases hes.1
    | stop tag =>
      have hname : IsTag tag := hes.1
      refine htag _ (fun b₁ b₂ hb₁ hstep => ?_) h
      exact adds_of_run_endElement hscene hb₁ hname.2.2.2.2 hstep
    | start tag as selfClosing =>
      obtain ⟨rfl, hname, -, has⟩ := hes.1
      refine htag _ (fun b₁ b₂ hb₁ hstep => ?_) h
      rw [Build.event, attributeValues_report fun a ha => (has a ha).isAssigned] at hstep
      exact adds_of_run_startElement hb₁ hname.2.1 (fun a ha => (has a ha).1) hstep

/-- A template that is read from a source has the expressions of its events, in their order. -/
theorem exprs_of_run_markup (hscene : scene.view? = none) {observers : Observers}
    (hobservers : observers.Suppress) (hes : ∀ e ∈ es, e.Tidy) {t : Template}
    (h : ((Builder.start observers).run
      (Build.markup scene (String.ofList (sourceChars es)))).1 = .ok t) :
    t.exprs = es.flatMap (Event.exprs scene) := by
  have hsound : ∀ e ∈ es, e.Sound := fun e he => (hes e he).sound
  obtain ⟨b, hrun, hstack, hb⟩ := run_markup_report scene hsound (Builder.start observers)
  have hstart : b.Hookless := ⟨hstack ▸ List.forall_mem_nil _, hb ▸ hobservers⟩
  rw [hrun] at h
  obtain ⟨b', hfinished⟩ : ∃ b', b.run ((report [] es).forM (Build.event scene) >>= fun _ =>
      Build.finish scene) = (.ok t, b') := ⟨_, Prod.ext h rfl⟩
  obtain ⟨_, b₁, hreport, hfinish⟩ := run_bind_eq_ok.1 hfinished
  have hadds : Adds (([] ++ es).flatMap (Event.exprs scene)) b b₁ :=
    adds_of_run_report hscene hstart [] (List.forall_mem_nil _) (List.forall_mem_nil _) hes hreport
  rw [Template.exprs, content_of_run_finish (congrArg Prod.fst hfinish),
    Stack.exprs_nodes hadds.hookless.attached, hadds.exprs, hstack]
  rfl

end

end

end Stencil
