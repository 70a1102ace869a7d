import Stencil.Proofs.Building.OpenElements
import Stencil.Proofs.Tree.Origins
import Stencil.Proofs.Views.Resolution

/-!
# What a template refers to

A template refers to a view by a constant name in a view directive or in a `view` element. The name
is looked up from the namespace of the view whose template this is, and the reference becomes a
pointer to the view that is found. If none is found the template is refused.

A directive is looked up when it is read, and an element when it is closed. So an element that is
still open at the end of a template refers to nothing. Where open nodes are no error the template is
read nevertheless, and has the element as it stands.
-/

namespace Stencil

open Builder Nesting

/-- A pointer to the view that is found under the name. -/
def Node.RefersTo (scene : Scene) (name : String) (n : Node) : Prop :=
  ∃ v attributes hooks, scene.find? name = some v ∧ n = .view v.name attributes hooks

variable {scene : Scene} {b b' : Builder} {d : Directive} {name : String}

/-! ## Directives -/

/-- The name of the view that a view directive asks for, if it is a constant text. -/
def Directive.viewName? (d : Directive) : Option String :=
  if d.role.isView then
    match (Build.viewParts d).1.expr?.bind Expr.literal? with
    | some (.text name) => some name
    | _ => none
  else none

theorem Directive.viewName?_eq_some_iff : d.viewName? = some name ↔ d.role.isView = true ∧
    (Build.viewParts d).1.expr?.bind Expr.literal? = some (.text name) := by
  rw [viewName?]
  split
  · rename_i hview
    split
    · rename_i text htext
      simp [hview, htext]
    · rename_i hother
      simp only [hview, true_and, reduceCtorEq, false_iff]
      exact hother name
  · rename_i hview
    simp [hview]

theorem Directive.Refers.refersTo {n : Node} (h : d.Refers scene n)
    (hname : d.viewName? = some name) : n.RefersTo scene name := by
  have hliteral := (viewName?_eq_some_iff.1 hname).2
  cases h with
  | view hname' hfind =>
    rw [hname', Option.some.injEq, Value.text.injEq] at hliteral
    exact ⟨_, _, _, hliteral ▸ hfind, rfl⟩
  | dynamicView hnone =>
    rw [hnone] at hliteral
    cases hliteral

/-- Wherever it is read, a view directive adds what it refers to. -/
theorem Directive.Refers.run {n : Node} (h : d.Refers scene n) (hview : d.role.isView = true)
    (b : Builder) :
    b.run (Build.directive scene d) = (.ok (), b.withStack (b.stack.push n)) := by
  obtain ⟨ws, hrole⟩ : ∃ ws, d.role = .shows ws := by
    cases hrole : d.role with
    | shows ws => exact ⟨ws, rfl⟩
    | _ =>
      rw [hrole] at hview
      cases hview
  exact (SpanMove.view hrole hview h b.stack).run

theorem SpanMove.exists_refers {s s' : Stack} (h : SpanMove scene (.directive d) s s')
    (hview : d.role.isView = true) : ∃ n, d.Refers scene n := by
  cases h with
  | view _ _ hn => exact ⟨_, hn⟩
  | value _ hno =>
    rw [hview] at hno
    cases hno
  | opens hrole | closes hrole | eachElse hrole =>
    rw [hrole] at hview
    cases hview
  | branch hd =>
    obtain hrole | ⟨a, hrole⟩ := hd
    · rw [hrole] at hview
      cases hview
    · rw [hrole] at hview
      cases hview

theorem SpanMoves.exists_refers {spans : List Span} {s s' : Stack}
    (h : SpanMoves scene spans s s') (hd : .directive d ∈ spans) (hview : d.role.isView = true) :
    ∃ n, d.Refers scene n := by
  induction h with
  | nil => cases hd
  | cons hmove _ ih =>
    obtain rfl | hd := List.mem_cons.1 hd
    · exact hmove.exists_refers hview
    · exact ih hd

namespace Call

def texts : Call → List String
  | .start _ given _ => given.filterMap fun g => match g.2 with
    | .text s => some s
    | _ => none
  | .text data => [data]
  | .stop _ _ | .comment _ _ | .declaration _ => []

def directives (c : Call) : List Directive :=
  (c.texts.flatMap fun text => (Span.scan text).spans).filterMap fun
    | .directive d => some d
    | .literal _ => none

theorem exists_of_mem_directives {c : Call} (h : d ∈ c.directives) :
    ∃ text ∈ c.texts, .directive d ∈ (Span.scan text).spans := by
  obtain ⟨span, hspan, hd⟩ := List.mem_filterMap.1 h
  cases span with
  | literal data => cases hd
  | directive d' =>
    cases hd
    exact List.mem_flatMap.1 hspan

/-- If a call succeeds, its view directives refer to something. -/
theorem exists_refers_of_run (hb : Attached b.stack) {c : Call}
    (h : b.run (c.run scene) = (.ok (), b')) (hd : d ∈ c.directives)
    (hview : d.role.isView = true) : ∃ n, d.Refers scene n := by
  obtain ⟨text, htext, hspan⟩ := exists_of_mem_directives hd
  cases c with
  | start tag given selfClosing =>
    obtain ⟨⟨key, value⟩, hg, hvalue⟩ := List.mem_filterMap.1 htext
    obtain ⟨as, b₁, hattributes, -⟩ := run_bind_eq_ok.1 h
    obtain ⟨a, hread⟩ := exists_read_of_run_attributesOf hb hattributes _ hg
    cases hread with
    | literal hempty =>
      cases value with
      | text s =>
        obtain rfl := hempty s rfl
        cases hvalue
        simp [Span.scan_eq, Span.scanFrom, Span.step] at hspan
      | _ => cases hvalue
    | content _ _ hmoves =>
      cases hvalue
      exact (hmoves .empty).exists_refers hspan hview
  | text data =>
    obtain rfl := List.mem_singleton.1 htext
    obtain ⟨-, s, hmoves, -⟩ := run_text_eq_ok_iff.1 h
    exact hmoves.exists_refers hspan hview
  | stop | comment | declaration => cases htext

end Call

/-! ## Elements -/

/-- Values without braces are read as they are given. -/
theorem Attributes.areRead_plain {given : List (String × Value)}
    (hplain : ∀ g ∈ given, Event.hasBrace g.2 = false) (hnames : (given.map Prod.fst).Nodup) :
    AreRead scene given (given.map fun g => (g.1, .literal g.2)) := by
  intro b
  have hvalue (g : String × Value) (hg : g ∈ given) (b : Builder) :
      b.run (Build.attributeOf scene g.1 g.2) = (.ok (.literal g.2), b) :=
    run_attributeOf_plain g.1 (hplain g hg) b
  simpa using run_attributesOf hvalue hnames b

theorem Stands.refersTo {as : Attributes} {content : List Node} {n : Node}
    (h : Stands scene "view" as content n)
    (hname : Entries.get? "name" as = some (.literal (.text name))) : n.RefersTo scene name := by
  cases h with
  | named _ hname' _ hfind hn =>
    obtain rfl : _ = name := by simpa [hname'] using hname
    obtain ⟨attributes, hooks, rfl, -⟩ := ViewAttributes.exists_of_pointer (P := fun _ => True) hn
      (fun _ _ _ _ => trivial) fun _ _ => ⟨trivial, by simp⟩
    exact ⟨_, _, _, hfind, rfl⟩
  | dynamic _ hdynamic =>
    rw [hdynamic] at hname
    cases hname
  | custom htag => exact absurd rfl htag

/-- The start tag of a `view` element opens it, or the element has no content and is closed. -/
theorem Builder.stack_of_run_startElement {given : List (String × Value)} {as : Attributes}
    {selfClosing : Bool} (hread : Attributes.AreRead scene given as)
    (h : b.run (Build.startElement scene "view" given selfClosing) = (.ok (), b')) :
    b'.stack = b.stack.opened (.element "view" as none) ∨
      ∃ n, Stands scene "view" as [] n ∧ b'.stack = b.stack.push n := by
  have hview : scene.isViewTag "view" = true := rfl
  have hhooks : Build.elementHooks scene "view" as = .ok (none, as) := if_pos hview
  rw [Build.startElement, run_bind_of_ok (hread b), hhooks, run_bind_of_ok (run_check_ok b _)] at h
  dsimp only at h
  split at h
  · rw [run_bind_of_ok (run_append b _)] at h
    obtain ⟨hno, -⟩ | ⟨n, hn, rfl⟩ := exists_of_run_closeElement rfl h
    · rw [hview] at hno
      cases hno
    · exact .inr ⟨n, hn, rfl⟩
  · exact .inl (congrArg Builder.stack (Prod.mk.inj h).2).symm

/-- From its start tag on, a `view` element is closed to a pointer at some point, or it is open at
the end. -/
theorem Call.closed_or_open_of_run {b₁ : Builder} {given : List (String × Value)} {as : Attributes}
    {selfClosing : Bool} {after : List Call} (hb : Reached scene b)
    (hread : Attributes.AreRead scene given as)
    (htag : b.run ((Call.start "view" given selfClosing).run scene) = (.ok (), b₁))
    (hafter : b₁.run (after.forM (Call.run scene)) = (.ok (), b')) :
    (∃ taken later b₂ content n, after = taken ++ later ∧
        b.run ((Call.start "view" given selfClosing :: taken).forM (Call.run scene)) = (.ok (), b₂) ∧
        Stands scene "view" as content n ∧ b₂.stack = b.stack.push n) ∨
      Stack.OpenOver b.stack (.element "view" as none) b'.stack := by
  have hrun (taken : List Call) :
      b.run ((Call.start "view" given selfClosing :: taken).forM (Call.run scene)) =
        b₁.run (taken.forM (Call.run scene)) := by
    rw [run_forM_cons, run_bind_of_ok htag]
  obtain hopened | ⟨n, hn, hpushed⟩ := stack_of_run_startElement hread htag
  · have hopen : Stack.OpenOver b.stack (.element "view" as none) b₁.stack := hopened ▸ .start _ _
    obtain hopen | ⟨taken, later, b₂, content, n, rfl, htaken, hn, hpushed⟩ :=
      (Reached.call hb htag).openOver rfl hopen hafter
    · exact .inr hopen
    · exact .inl ⟨taken, later, b₂, content, n, rfl, (hrun taken).trans htaken, hn, hpushed⟩
  · exact .inl ⟨[], after, b₁, [], n, rfl, (hrun []).trans (run_forM_nil _ _), hn, hpushed⟩

/-! ## Sources -/

namespace Call

/-- Behind the calls `before`, which begin with an empty stack, the calls change the stack as `R`
says. -/
def Effect (scene : Scene) (observers : Observers) (before calls : List Call)
    (R : Stack → Stack → Prop) : Prop :=
  ∃ b : Builder, b.stack = .empty ∧ b.observers = observers ∧ EffectFrom scene b before calls R

/-- What the calls of a template make of its references. A directive adds a pointer wherever it is
read. The calls from the start tag of an element on add a pointer, up to the one that closes the
element; or the element is never closed, and the template has it as it stands. -/
structure Resolve (scene : Scene) (observers : Observers) (calls : List Call) (t : Template) :
    Prop where
  directive : ∀ c ∈ calls, ∀ d ∈ c.directives, ∀ name, d.viewName? = some name →
    ∃ n, n.RefersTo scene name ∧
      ∀ b : Builder, b.run (Build.directive scene d) = (.ok (), b.withStack (b.stack.push n))
  element : ∀ before given selfClosing after,
    calls = before ++ .start "view" given selfClosing :: after →
    ∃ as, Attributes.AreRead scene given as ∧
      ∀ name, Entries.get? "name" as = some (.literal (.text name)) →
        (∃ n taken later, n.RefersTo scene name ∧ after = taken ++ later ∧
          Effect scene observers before (.start "view" given selfClosing :: taken)
            fun s s' => s' = s.push n) ∨
        scene.strict = false ∧
          (Effect scene observers before (.start "view" given selfClosing :: after)
            fun s s' => Stack.OpenOver s (.element "view" as none) s') ∧
          ∃ content, .element "view" as (some content) false none ∈ t.nodes

variable {observers : Observers} {calls : List Call} {t : Template}

theorem resolve_of_run (hstart : b.stack = .empty) (hobservers : b.observers = observers)
    (hrun : b.run (calls.forM (Call.run scene)) = (.ok (), b'))
    (hfinish : (b'.run (Build.finish scene)).1 = .ok t) : Resolve scene observers calls t := by
  have hb : Reached scene b := .start hstart
  constructor
  · intro c hc d hd name hname
    obtain ⟨before, after, rfl⟩ := List.append_of_mem hc
    obtain ⟨b₁, b₂, -, hb₁, hcall, -⟩ := hb.exists_of_append hrun
    have hview := (Directive.viewName?_eq_some_iff.1 hname).1
    obtain ⟨n, hn⟩ := exists_refers_of_run hb₁.attached hcall hd hview
    exact ⟨n, hn.refersTo hname, hn.run hview⟩
  · rintro before given selfClosing after rfl
    obtain ⟨b₁, b₂, hbefore, hb₁, htag, hafter⟩ := hb.exists_of_append hrun
    obtain ⟨as, b₃, hattributes, -⟩ := run_bind_eq_ok.1 htag
    obtain ⟨-, hread, -⟩ := exists_of_run_attributesOf hb₁.attached hattributes
    refine ⟨as, hread, fun name hname => ?_⟩
    obtain ⟨taken, later, b₄, content, n, rfl, htaken, hn, hpushed⟩ | hopen :=
      closed_or_open_of_run hb₁ hread htag hafter
    · exact .inl ⟨n, taken, later, hn.refersTo hname, rfl, b, hstart, hobservers, b₁, b₄, hbefore,
        htaken, hpushed⟩
    · have hall : b₁.run ((Call.start "view" given selfClosing :: after).forM (Call.run scene)) =
          (.ok (), b') := by
        rw [run_forM_cons, run_bind_of_ok htag, hafter]
      have hattached := (Reached.forM hb₁ hall).attached
      exact .inr ⟨hopen.strict_eq_false hfinish,
        ⟨b, hstart, hobservers, b₁, b', hbefore, hall, hopen⟩,
        hopen.exists_mem_nodes hattached (content_of_run_finish hfinish)⟩

end Call

/-! ## Registries -/

namespace Session

variable {s : Session}

/-- However views are registered, a name stands for the last view under the longest qualified name
that is registered. Every reference of a template that is read by a constant name becomes a pointer
to the view that the name stands for, seen from the view whose template this is. The exceptions are
elements that are still open at the end, where this is no error. -/
theorem references_registerAll (h : s.registry = .empty) (calls : List Call) :
    let r := (s.registerAll calls).registry
    (∀ name at? v, r.find? name at? = some v ↔
      Registry.Finds (s.views calls) name (Registry.segments at?) v) ∧
    (∀ name at?, r.find? name at? = none ↔ ∀ k ≤ (Registry.segments at?).length,
      ∀ v ∈ s.views calls, v.name ≠ Registry.qualified ((Registry.segments at?).take k) name) ∧
    (∀ name at? v, r.find? name at? = some v → Entries.get? v.name r.views = some v) ∧
    ∀ (v : View) (strict : Bool),
      (∀ name, (v.scene r strict).find? name = r.find? name v.scope?) ∧
      ∀ (observers : Observers) (isText : Bool) (source : String) (t : Template),
        ((Builder.start observers).run (if isText then Build.plain (v.scene r strict) source
          else Build.markup (v.scene r strict) source)).1 = .ok t →
        Stencil.Call.Resolve (v.scene r strict) observers
          (Stencil.Call.ofSource isText source) t := by
  intro r
  have hr : r = (s.views calls).foldl Registry.insert .empty := by
    rw [← h]
    exact registry_registerAll s calls
  refine ⟨fun name at? v => ?_, fun name at? => ?_, fun name at? v => ?_, fun v strict =>
    ⟨v.find?_scene r strict, fun observers isText source t hread => ?_⟩⟩
  · rw [hr]
    exact Registry.find?_foldl_insert
  · rw [hr]
    exact Registry.find?_foldl_insert_eq_none
  · rw [hr]
    exact Registry.get?_of_find?_foldl_insert
  · obtain ⟨b, b', hstart, hobservers, hrun, hfinish⟩ := exists_run_ofSource hread
    exact Stencil.Call.resolve_of_run hstart hobservers hrun hfinish

def pointedTo (t : Template) : List String :=
  t.nodes.filterMap fun
    | .view name _ _ => some name
    | _ => none

/-- A card of the shop, seen from its cart, hides the card of the whole site. -/
theorem references_registerAll_card :
    let s := Session.start Json.strict [] ⟨[]⟩ ⟨2024, 1, 1, 0, 0, 0, 0⟩
    let calls : List Call := [⟨"card", "x", .default⟩, ⟨"shop:card", "y", .default⟩,
      ⟨"shop:card", "z", .default⟩]
    let r := (s.registerAll calls).registry
    let page : View := ⟨"shop:cart:page", "", .null, .null, [], [], [], none⟩
    let source := "<view name=\"card\"></view>\x7b\x7bview 'card'\x7d\x7d"
    s.registry = .empty ∧
      (∃ v, r.find? "card" page.scope? = some v ∧ v.source = "z" ∧
        Registry.Finds (s.views calls) "card" (Registry.segments page.scope?) v) ∧
      ∃ t, ((Builder.start .default).run (Build.markup (page.scene r true) source)).1 = .ok t ∧
        pointedTo t = ["shop:card", "shop:card"] ∧
        Stencil.Call.Resolve (page.scene r true) .default (Stencil.Call.ofSource false source) t := by
  intro s calls r page source
  have hsource : (r.find? "card" page.scope?).map (·.source) = some "z" := by decide +kernel
  have hread : ((Builder.start .default).run (Build.markup (page.scene r true) source)).1.toOption.map
      pointedTo = some ["shop:card", "shop:card"] := by decide +kernel
  obtain ⟨hfinds, -, -, hscene⟩ := references_registerAll (s := s) rfl calls
  obtain ⟨v, hv, hz⟩ := Option.map_eq_some_iff.1 hsource
  obtain ⟨t, ht, hnames⟩ := exists_of_toOption_map hread
  exact ⟨rfl, ⟨v, hv, hz, (hfinds _ _ _).1 hv⟩, t, ht, hnames,
    (hscene page true).2 .default false source t ht⟩

/-- A template that ends with an open `view` element is read where this is no error, whether or not
its name stands for a view. -/
theorem not_forall_references :
    ¬ ∀ (s : Session) (calls : List Call), s.registry = .empty →
      ∀ (v : View) (strict : Bool) (source : String) (t : Template),
        ((Builder.start .default).run
          (Build.markup (v.scene (s.registerAll calls).registry strict) source)).1 = .ok t →
        ∀ given selfClosing as name,
          .start "view" given selfClosing ∈ Stencil.Call.ofSource false source →
          Attributes.AreRead (v.scene (s.registerAll calls).registry strict) given as →
          Entries.get? "name" as = some (.literal (.text name)) →
          (s.registerAll calls).registry.find? name v.scope? ≠ none := by
  intro hall
  let s := Session.start Json.strict [] ⟨[]⟩ ⟨2024, 1, 1, 0, 0, 0, 0⟩
  let page : View := ⟨"page", "", .null, .null, [], [], [], none⟩
  let given : List (String × Value) := [("name", .text "missing")]
  have hopen : ((Builder.start .default).run (Build.markup (page.scene s.registry false)
      "<view name=\"missing\">")).1.toOption.map (fun t => t.content.length) = some 1 := by
    decide +kernel
  obtain ⟨t, ht, -⟩ := exists_of_toOption_map hopen
  have hevents : (Markup.read "<view name=\"missing\">").events =
      [.start "<view name=\"missing\">" "view" [("name", some "missing")] false] := by
    decide +kernel
  have hstart : .start "view" given false ∈ Stencil.Call.ofSource false "<view name=\"missing\">" := by
    rw [Stencil.Call.ofSource, if_neg (by simp), hevents]
    exact List.mem_singleton.2 rfl
  have hread : Attributes.AreRead (page.scene s.registry false) given
      [("name", .literal (.text "missing"))] := Attributes.areRead_plain (by decide) (by decide)
  have hnone : ((s.registerAll []).registry.find? "missing" page.scope?).isNone = true := by
    decide +kernel
  exact hall s [] rfl page false _ t ht given false _ "missing" hstart hread rfl
    (Option.isNone_iff_eq_none.1 hnone)

end Session

end Stencil
