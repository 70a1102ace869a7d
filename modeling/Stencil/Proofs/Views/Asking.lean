import Stencil.Proofs.Source.Arguments
import Stencil.Proofs.Tree.Changed
import Stencil.Proofs.Views.Members

/-!
# Two ways to ask for a view

A view is asked for by an element, with an attribute for each argument, or by a directive, with an
object of arguments. The element takes its attributes one by one, folds the constant ones and splits
its content; the directive takes the members of its object. They come to the same pointer, or both
fail. Only the expressions differ: those of the element remember how they were written.

The arguments may have any names that an object takes without quotes and any expressions that can
be written in an attribute. Of other names the ways part: digits in front of letters are no key, an
empty name of a view is none for an element, and a character that means something to markup or to
the braces means it in one of the two only.
-/

namespace Stencil

open Builder Nesting
open Stencil.Expr (Argument)

/-! ## Attributes without their sources -/

/-- The term without the record of how it was written. -/
def Term.unmarked : Term → Term
  | .marked ⟨_, _, some e⟩ => .bare e
  | t => t

def ViewAttribute.unmarked : ViewAttribute → ViewAttribute
  | .wrapped (.term t) => .wrapped (.term t.unmarked)
  | a => a

theorem ViewAttribute.literal?_unmarked (a : ViewAttribute) : a.unmarked.literal? = a.literal? := by
  unfold unmarked
  split <;> rfl

theorem unmarked_ofAttribute {d : Directive} {e : Expr} (h : d.expr? = some e) :
    (ViewAttributes.ofAttribute d.asAttribute).unmarked = .ofExpr e := by
  obtain ⟨source, role, expr?⟩ := d
  obtain rfl : expr? = some e := h
  cases e <;> rfl

theorem camel_of_isKey {name : String} (h : Expr.IsKey name) : Text.camel name = name := by
  have hchars (cs : List Char) (hcs : '-' ∉ cs) : Text.camelChars cs = cs := by
    fun_induction Text.camelChars cs with
    | case1 | case2 => rfl
    | case3 | case4 => simp at hcs
    | case5 c cs _ _ ih => rw [ih fun hmem => hcs (List.mem_cons_of_mem c hmem)]
  rw [Text.camel, hchars, String.ofList_toList]
  intro hmem
  exact absurd (h.isNameRest _ hmem) (by decide)

def readAttributes (as : List Argument) : Attributes :=
  as.map fun a => (a.name, a.directive.asAttribute)

def viewAttributes (as : List Argument) : ViewAttributes :=
  ViewAttributes.ofAttributes (readAttributes as)

/-- An object gives what the attributes give, without the sources. -/
theorem ofMembers_viewAttributes {as : List Argument} (has : ∀ a ∈ as, a.IsPlain) :
    ∃ m, Members.ofExpr (.ofMembers (as.map Argument.member)) = .ok m ∧
      ViewAttributes.ofMembers m = (viewAttributes as).mapValues ViewAttribute.unmarked := by
  obtain ⟨m, hm, hexprs⟩ := exists_members (as.map Argument.member)
  refine ⟨m, hm, ?_⟩
  rw [ofMembers_eq, hexprs, Entries.mapValues_ofPairs, viewAttributes, ViewAttributes.ofAttributes,
    Entries.mapValues_ofPairs]
  congr 1
  simp only [readAttributes, Entries.mapValues, List.map_map]
  refine List.map_congr_left fun a ha => Prod.ext ?_ ?_
  · exact (camel_of_isKey (has a ha).key).symm
  · exact (@unmarked_ofAttribute a.directive a.expr rfl).symm

/-! ## What both come to -/

def readSource (observers : Observers) (scene : Scene) (source : String) : Except Error Template :=
  ((Builder.start observers).run (Build.markup scene source)).1

/-- The hooks and attributes of a pointer, or why there are none. -/
abbrev Given := Except Cause (Option (List Hook) × Option ViewAttributes)

def Given.ofAttributes (as : Attributes) : Given :=
  (ViewAttributes.declared (.ofAttributes as)).map fun p => (p.1, some p.2)

/-- The pointer to the view of that name, if there is one and something is given to it. -/
def pointer? (scene : Scene) (name : String) : Given → Option Node
  | .error _ => none
  | .ok (hooks, as?) => (scene.find? name).map fun v => .view v.name as? hooks

/-- The template is the pointer and nothing else, or there is neither. -/
def Answers (scene : Scene) (name : String) (given : Given) (r : Except Error Template) : Prop :=
  match pointer? scene name given with
  | none => ∃ e, r = .error e
  | some n => r = .ok ⟨[n]⟩

variable {scene : Scene} {name : String} {given : Given} {b : Builder}

theorem run_findView_of_none (h : scene.find? name = none) (b : Builder) :
    ∃ e b', b.run (Build.findView scene name) = (.error e, b') := by
  rw [Build.findView, h]
  dsimp only
  rw [run_bind_of_ok (run_notice _ _ _ _), run_fail]
  exact ⟨_, _, rfl⟩

def Build.point (scene : Scene) (name : String) (given : Given) : Build Unit := do
  let v ← findView scene name
  append (← check (given.map fun p => .view v.name p.2 p.1))

theorem run_point_of_some {n : Node} (h : pointer? scene name given = some n) (b : Builder) :
    b.run (Build.point scene name given) = (.ok (), b.withStack (b.stack.push n)) := by
  cases given with
  | error cause => cases h
  | ok p =>
    obtain ⟨v, hfind, rfl⟩ := Option.map_eq_some_iff.1 h
    rw [Build.point, run_bind_of_ok (run_findView_eq_ok.2 ⟨hfind, rfl⟩)]
    rfl

theorem run_point_of_none (h : pointer? scene name given = none) (b : Builder) :
    ∃ e b', b.run (Build.point scene name given) = (.error e, b') := by
  cases hfind : scene.find? name with
  | none =>
    obtain ⟨e, b', hnone⟩ := run_findView_of_none hfind b
    exact ⟨e, b', run_bind_of_error hnone _⟩
  | some v =>
    cases given with
    | error cause =>
      rw [Build.point, run_bind_of_ok (run_findView_eq_ok.2 ⟨hfind, rfl⟩)]
      exact ⟨_, _, rfl⟩
    | ok p => simp [pointer?, hfind] at h

theorem answers_point (hb : b.stack = .empty) (given : Given) :
    Answers scene name given
      (b.run (Build.point scene name given >>= fun _ => Build.finish scene)).1 := by
  rw [Answers]
  cases hpointer : pointer? scene name given with
  | none =>
    obtain ⟨e, b', hrun⟩ := run_point_of_none hpointer b
    exact ⟨e, by rw [run_bind_of_error hrun]⟩
  | some n =>
    have hroot : (b.withStack (b.stack.push n)).stack = ⟨[], [n]⟩ := by
      rw [stack_withStack, hb]
      rfl
    rw [run_bind_of_ok (run_point_of_some hpointer b)]
    exact run_finish_of_nil scene hroot

/-! ## The element -/

theorem run_startElement_view {given : List (String × Value)} {as : Attributes}
    (h : b.run (Build.attributesOf scene given) = (.ok as, b)) :
    b.run (Build.startElement scene "view" given false) =
      (.ok (), b.withStack (b.stack.opened (.element "view" as none))) := by
  have hhooks : Build.elementHooks scene "view" as = .ok (none, as) := by
    simp [Build.elementHooks, Scene.isViewTag]
  rw [Build.startElement, run_bind_of_ok h, hhooks, run_bind_of_ok (run_check_ok b _)]
  have hopen : ¬ (false || Markup.isVoid "view") = true := by decide +kernel
  dsimp only
  rw [if_neg hopen, run_onStack]

/-- An element `view` without content is closed at once. -/
theorem run_endElement_view {as : Attributes} {s : Stack}
    (hb : b.stack = s.opened (.element "view" as none)) (text : String) :
    b.run (Build.endElement scene text "view") =
      (b.withStack s).run (Build.viewElement scene as []) := by
  have hascend := run_ascend_of_close hb rfl (.strayEndTag text)
  rw [Build.endElement, run_bind_of_ok hascend, run_bind_of_ok (run_stack _), stack_withStack,
    newest?_push]
  dsimp only
  rw [if_pos (by simp [Node.isElement]), Build.closeElement, run_bind_of_ok (run_stack _),
    stack_withStack, newest?_push]
  dsimp only
  rw [if_pos rfl, run_bind_of_ok (run_onStack _ _)]
  simp

/-- The element of a view with a constant name points to the view. -/
theorem run_viewElement_named (hne : name ≠ "") (as : Attributes) (b : Builder) :
    b.run (Build.viewElement scene (("name", .literal (.text name)) :: as) []) =
      b.run (Build.point scene name (.ofAttributes as)) := by
  have hpointer (v : View) : ViewAttributes.pointer v as [] =
      (Given.ofAttributes as).map fun p => Node.view v.name p.2 p.1 := by
    rw [ViewAttributes.pointer, Given.ofAttributes]
    cases ViewAttributes.declared (.ofAttributes as) with
    | error cause => rfl
    | ok p =>
      obtain ⟨hooks, rest⟩ := p
      rfl
  have hget : Entries.get? "name" (("name", Attribute.literal (.text name)) :: as) =
      some (.literal (.text name)) := if_pos rfl
  have herase : Entries.erase "name" (("name", Attribute.literal (.text name)) :: as) = as :=
    if_pos rfl
  rw [Build.viewElement, hget, herase]
  dsimp only
  rw [if_neg hne, Build.point]
  simp only [hpointer]

section

variable {as : List Argument}

theorem nodup_names
    (hnodup : (Text.lower "name".toList :: as.map fun a => Text.lower a.name.toList).Nodup) :
    ("name" :: as.map Argument.name).Nodup := by
  have hmap : Text.lower "name".toList :: as.map (fun a => Text.lower a.name.toList) =
      ("name" :: as.map Argument.name).map fun k => Text.lower k.toList := by
    simp [Function.comp_def]
  rw [hmap] at hnodup
  exact List.Pairwise.of_map _ (fun k k' hne heq => hne (heq ▸ rfl)) hnodup

/-- The values of the element are read as the name and the values of the arguments. -/
theorem run_attributesOf_given (hname : IsViewName name) (has : ∀ a ∈ as, a.IsPlain)
    (hnames : ("name" :: as.map Argument.name).Nodup) (b : Builder) :
    b.run (Build.attributesOf scene (("name", .text name) :: as.map Argument.given)) =
      (.ok (("name", .literal (.text name)) :: readAttributes as), b) := by
  let rows : List (String × Value × Attribute) := ("name", .text name, .literal (.text name)) ::
    as.map fun a => (a.name, a.given.2, a.directive.asAttribute)
  have hbrace : Event.hasBrace (.text name) = false := by
    have hquiet := not_mem_of_quiet fun c hc => (hname.2 c hc).1
    simp [Event.hasBrace, hquiet.2.2]
  have hread : ∀ r ∈ rows, ∀ b : Builder,
      b.run (Build.attributeOf scene r.1 r.2.1) = (.ok r.2.2, b) := by
    refine List.forall_mem_cons.2 ⟨run_attributeOf_plain "name" hbrace, ?_⟩
    refine List.forall_mem_map.2 fun a ha => ?_
    exact run_attributeOf_directive (has a ha).legible rfl a.name
  have hrows : (rows.map Prod.fst).Nodup := by simpa [rows, Function.comp_def] using hnames
  have hgiven : as.map Argument.given = as.map fun a => (a.name, a.given.2) := rfl
  rw [hgiven]
  simpa [rows, readAttributes, Function.comp_def] using run_attributesOf hread hrows b

/-- A start tag with the values that it was given and an end tag are reported of the element. -/
theorem forM_report_viewElementEvents
    (h : ∀ a ∈ ("name", .text name) :: as.map Argument.given, Event.IsAssigned a) :
    (report [] (viewElementEvents name as)).forM (Build.event scene) =
      Build.startElement scene "view" (("name", .text name) :: as.map Argument.given) false >>=
        fun _ => Build.endElement scene "</view>" "view" := by
  have hstart (text : String) : Build.event scene (.start text "view"
      ((("name", .text name) :: as.map Argument.given).map fun a =>
        (a.1, some (String.ofList (Event.valueChars a.2)))) false) =
      Build.startElement scene "view" (("name", .text name) :: as.map Argument.given) false := by
    rw [Build.event, attributeValues_report h]
  rw [← hstart]
  exact congrArg _ (funext fun _ => bind_pure_unit)

/-- The tags of the element find the view and add its pointer. -/
theorem run_viewElementEvents (hname : IsViewName name) (has : ∀ a ∈ as, a.IsPlain)
    (hnodup : (Text.lower "name".toList :: as.map fun a => Text.lower a.name.toList).Nodup)
    (b : Builder) :
    b.run ((report [] (viewElementEvents name as)).forM (Build.event scene)) =
      b.run (Build.point scene name (.ofAttributes (readAttributes as))) := by
  have hsound := sound_viewElementEvents hname has hnodup
  have hstart := run_startElement_view
    (@run_attributesOf_given scene name as hname has (nodup_names hnodup) b)
  rw [forM_report_viewElementEvents (hsound _ List.mem_cons_self).2.2.2, run_bind_of_ok hstart,
    run_endElement_view rfl, run_viewElement_named hname.1, withStack_withStack, withStack_stack]

/-- The element is built as its attributes say. -/
theorem answers_viewElementSource (hname : IsViewName name) (has : ∀ a ∈ as, a.IsPlain)
    (hnodup : (Text.lower "name".toList :: as.map fun a => Text.lower a.name.toList).Nodup)
    (observers : Observers) :
    Answers scene name (.ofAttributes (readAttributes as))
      (readSource observers scene (viewElementSource name as)) := by
  have hsound := sound_viewElementEvents hname has hnodup
  obtain ⟨b, hrun, hstack, -⟩ := run_markup_report scene hsound (Builder.start observers)
  rw [readSource, viewElementSource_eq, hrun, run_bind, run_viewElementEvents hname has hnodup,
    ← run_bind]
  exact answers_point hstack _

/-! ## The directive -/

def givenBy : Option (List Argument) → Given
  | none => .ok (none, none)
  | some as => (ViewAttributes.declared ((viewAttributes as).mapValues .unmarked)).map
      fun p => (p.1, some p.2)

theorem viewParts_askingDirective (name : String) (as? : Option (List Argument)) :
    (Build.viewParts (askingDirective name as?)).1.expr?.bind Expr.literal? = some (.text name) ∧
      (Build.viewParts (askingDirective name as?)).2 =
        as?.map fun as => .ofMembers (as.map Argument.member) := by
  cases as? <;> exact ⟨rfl, rfl⟩

variable {as? : Option (List Argument)}

/-- A directive that names a view finds it and adds its pointer, once its hooks are declared. -/
theorem run_viewDirective_asking (has : ∀ a ∈ as?.getD [], a.IsPlain) (b : Builder) :
    b.run (Build.viewDirective scene (askingDirective name as?)) =
      match givenBy as? with
      | .ok given => b.run (Build.point scene name (.ok given))
      | .error cause => (.error (.of cause), b) := by
  obtain ⟨hname, hobject⟩ := viewParts_askingDirective name as?
  have hgiven {hooks : Option (List Hook)} {attributes : Option ViewAttributes}
      (h : ViewAttributes.Given (Build.viewParts (askingDirective name as?)).2 hooks attributes) :
      b.run (Build.viewDirective scene (askingDirective name as?)) =
        b.run (Build.point scene name (.ok (hooks, attributes))) := by
    rw [run_viewDirective_of_given h, Build.named, hname]
    rfl
  cases as? with
  | none => exact hgiven ⟨rfl, rfl⟩
  | some as =>
    obtain ⟨m, hm, hmembers⟩ := ofMembers_viewAttributes has
    rw [Option.getD_some] at hm hmembers
    rw [givenBy, ← hmembers]
    cases hdeclared : ViewAttributes.declared (.ofMembers m) with
    | ok p =>
      obtain ⟨hooks, rest⟩ := p
      refine hgiven ?_
      rw [hobject]
      exact ⟨m, rest, hm, hdeclared, rfl⟩
    | error cause =>
      rw [Build.viewDirective]
      generalize Build.viewParts (askingDirective name (some as)) = parts at hobject
      obtain ⟨term, object⟩ := parts
      obtain rfl : object = some (.ofMembers (as.map Argument.member)) := hobject
      simp only [hm]
      rw [run_bind_of_ok (run_check_ok b m), run_bind_of_ok (run_pure b _)]
      dsimp only
      rw [hdeclared]
      rfl

theorem answers_viewDirectiveSource (hname : IsViewName name)
    (has : ∀ a ∈ as?.getD [], a.IsPlain) (observers : Observers) :
    Answers scene name (givenBy as?)
      (readSource observers scene (viewDirectiveSource name as?)) := by
  have hlegible := legible_askingDirective hname has
  obtain ⟨b, hrun, hstack, -⟩ := run_markup_sourceChars scene
    (readable_singleton (e := .directive (askingDirective name as?)) hlegible)
    (Builder.start observers)
  have hview : [Event.directive (askingDirective name as?)].forM (Event.take scene) =
      Build.viewDirective scene (askingDirective name as?) :=
    bind_pure_unit
  have hasking := @run_viewDirective_asking scene name as? has b
  rw [readSource, viewDirectiveSource_eq, hrun, build, hview]
  cases hgiven : givenBy as? with
  | ok given =>
    rw [hgiven] at hasking
    rw [run_bind, hasking, ← run_bind]
    exact answers_point hstack _
  | error cause =>
    rw [hgiven] at hasking
    rw [run_bind_of_error hasking]
    exact ⟨_, rfl⟩

/-! ## Both agree -/

/-- Two readings that come to the same pointer, but for the record of how its attributes were
written, or both fail. No attributes are as good as none at all. -/
inductive Alike (scene : Scene) (name : String) :
    Except Error Template → Except Error Template → Prop where
  | pointers {v : View} {hooks : Option (List Hook)} {as : ViewAttributes} {as? : Option ViewAttributes}
      (hfind : scene.find? name = some v)
      (has : as?.getD [] = as.mapValues ViewAttribute.unmarked) :
      Alike scene name (.ok ⟨[.view v.name (some as) hooks]⟩) (.ok ⟨[.view v.name as? hooks]⟩)
  | failures (e e' : Error) : Alike scene name (.error e) (.error e')

/-- What an object gives is what the attributes give. -/
theorem givenBy_eq (as? : Option (List Argument)) :
    (∃ cause, Given.ofAttributes (readAttributes (as?.getD [])) = .error cause ∧
        givenBy as? = .error cause) ∨
      ∃ hooks as given?, Given.ofAttributes (readAttributes (as?.getD [])) = .ok (hooks, some as) ∧
        givenBy as? = .ok (hooks, given?) ∧
        given?.getD [] = as.mapValues ViewAttribute.unmarked := by
  cases as? with
  | none => exact .inr ⟨none, [], none, rfl, rfl, rfl⟩
  | some as =>
    have hmap : ViewAttributes.declared ((viewAttributes as).mapValues .unmarked) =
        (ViewAttributes.declared (viewAttributes as)).map
          fun p => (p.1, p.2.mapValues ViewAttribute.unmarked) :=
      Hook.declared_mapValues ViewAttribute.literal?_unmarked _ _
    rw [givenBy, hmap, Option.getD_some, Given.ofAttributes, ← viewAttributes]
    cases ViewAttributes.declared (viewAttributes as) with
    | error cause => exact .inl ⟨cause, rfl, rfl⟩
    | ok p =>
      obtain ⟨hooks, rest⟩ := p
      exact .inr ⟨hooks, rest, _, rfl, rfl, rfl⟩

/-- An element and a directive that ask for the same view with the same arguments agree. -/
theorem alike_viewSources (hname : IsViewName name) (has : ∀ a ∈ as?.getD [], a.IsPlain)
    (hnodup : (Text.lower "name".toList ::
      (as?.getD []).map fun a => Text.lower a.name.toList).Nodup) (observers : Observers) :
    Alike scene name (readSource observers scene (viewElementSource name (as?.getD [])))
      (readSource observers scene (viewDirectiveSource name as?)) := by
  have helement := @answers_viewElementSource scene name _ hname has hnodup observers
  have hdirective := @answers_viewDirectiveSource scene name as? hname has observers
  obtain ⟨cause, hattributes, hobject⟩ | ⟨hooks, as, given?, hattributes, hobject, heq⟩ :=
    givenBy_eq as?
  · rw [hattributes] at helement
    rw [hobject] at hdirective
    obtain ⟨e, he⟩ := helement
    obtain ⟨e', he'⟩ := hdirective
    rw [he, he']
    exact .failures e e'
  · rw [hattributes] at helement
    rw [hobject] at hdirective
    simp only [Answers, pointer?] at helement hdirective
    cases hfind : scene.find? name with
    | none =>
      rw [hfind] at helement hdirective
      obtain ⟨e, he⟩ := helement
      obtain ⟨e', he'⟩ := hdirective
      rw [he, he']
      exact .failures e e'
    | some v =>
      rw [hfind] at helement hdirective
      rw [helement, hdirective]
      exact .pointers hfind heq

end

section Card

def askingPage (names : List String) : Scene :=
  let view (name : String) : View := ⟨name, "", .null, .null, [], [], [], none⟩
  ⟨some (view "page"), names.foldl (fun registry name => registry.insert (view name)) .empty, true,
    .passive⟩

theorem isViewName_card : IsViewName "card" :=
  ⟨by decide, forall_mem_of_all (by decide)⟩

def flag (key : String) : Argument :=
  ⟨key, "true", .literal (.bool true)⟩

theorem hasPlainValue_flag (key : String) : (flag key).HasPlainValue := by
  have hcanonical : (Expr.literal (.bool true)).Canonical Token.Short fun _ => True :=
    .literal (.bool true)
  have hprint : (Expr.literal (.bool true)).print = "true" := by decide +kernel
  have hread := hcanonical.read_as_value (by decide +kernel)
  rw [hprint] at hread
  have hquoted : Expr.quoted "true" = [] := by decide +kernel
  have hquiet : ∀ c ∈ "true".toList, c ≠ '"' ∧ c ≠ '&' ∧ c ≠ '<' := forall_mem_of_all (by decide)
  exact ⟨hread, by simp [flag], hquiet, by simp [flag, hquoted], by simp [flag, hquoted]⟩

theorem alike_viewSources_card :
    ∃ as : List Argument, (∀ a ∈ as, a.IsPlain) ∧
      viewElementSource "card" as =
        "<view name=\"card\" as=\"\x7b\x7b'main'\x7d\x7d\" 1=\"\x7b\x7bn + 1\x7d\x7d\"></view>" ∧
      viewDirectiveSource "card" (some as) =
        "\x7b\x7bview 'card', \x7bas: 'main', 1: n + 1\x7d\x7d\x7d" ∧
      Alike (askingPage ["card"]) "card"
        (readSource .empty (askingPage ["card"]) (viewElementSource "card" as))
        (readSource .empty (askingPage ["card"]) (viewDirectiveSource "card" (some as))) ∧
      (readSource .empty (askingPage ["card"])
        (viewElementSource "card" as)).toOption.isSome = true := by
  have hone : Token.Short 1 := Token.short_of_lt_ten (by decide)
  let main : Argument := ⟨"as", "'main'", .literal (.text "main")⟩
  let next : Argument := ⟨"1", "n + 1", .binary .add (.path ["n"]) (.literal (.int 1))⟩
  have hmain : main.IsPlain := by
    have hcanonical : main.expr.Canonical Token.Short fun _ => True := .literal (.text trivial)
    have hprint : main.expr.print = main.text := by decide +kernel
    have hvalue : main.HasPlainValue :=
      ⟨hprint ▸ hcanonical.read_as_value (by decide +kernel), by simp [main],
        forall_mem_of_all (by decide), by decide +kernel, by decide +kernel⟩
    exact ⟨hvalue, .inl (by decide +kernel)⟩
  have hnext : next.IsPlain := by
    have hcanonical : next.expr.Canonical Token.Short fun _ => True :=
      .binary rfl (.path (by decide +kernel) (by decide +kernel) (by decide) (by simp))
        (.literal (.int hone))
    have hprint : next.expr.print = next.text := by decide +kernel
    have hvalue : next.HasPlainValue :=
      ⟨hprint ▸ hcanonical.read_as_value (by decide +kernel), by simp [next],
        forall_mem_of_all (by decide), by decide +kernel, by decide +kernel⟩
    exact ⟨hvalue, .inr ⟨1, hone, by decide⟩⟩
  have hplain : ∀ a ∈ [main, next], a.IsPlain :=
    List.forall_mem_cons.2 ⟨hmain, List.forall_mem_singleton.2 hnext⟩
  refine ⟨[main, next], hplain, by decide +kernel, by decide +kernel, ?_, by decide +kernel⟩
  exact @alike_viewSources (askingPage ["card"]) "card" (some [main, next]) isViewName_card hplain
    (by decide +kernel) .empty

def Template.givenNames : Template → List String
  | ⟨.view _ (some as) _ :: _⟩ => as.map Prod.fst
  | _ => []

theorem Alike.givenNames_eq {r r' : Except Error Template} (h : Alike scene name r r') :
    r.toOption.map Template.givenNames = r'.toOption.map Template.givenNames := by
  cases h with
  | failures => rfl
  | @pointers v hooks as as? hfind has =>
    refine congrArg some ?_
    have hnames : as.map Prod.fst = (as?.getD []).map Prod.fst := by
      rw [has, Entries.mapValues, List.map_map]
      rfl
    cases as? <;> exact hnames

/-- Element and directive agree on the names with no character that means something to markup or to
the braces but this one. -/
def AgreesOnNames (c : Char) : Prop :=
  ∀ (scene : Scene) (name : String), name ≠ "" → (∃ v, scene.find? name = some v) →
    (∀ d ∈ name.toList, d = c ∨ isQuiet d = true ∧ d ≠ '"') →
    Alike scene name (readSource .empty scene (viewElementSource name []))
      (readSource .empty scene (viewDirectiveSource name none))

/-- One name on which they differ is enough, also next to a view that is named by a quote. -/
theorem not_agreesOnNames {c : Char} (name : String) (hne : name ≠ "")
    (hfind : ((askingPage ["'", name]).find? name).isSome = true)
    (hchars : name.toList.all (fun d => d = c || isQuiet d && d != '"') = true)
    (hnames : (readSource .empty (askingPage ["'", name])
        (viewElementSource name [])).toOption.map Template.givenNames ≠
      (readSource .empty (askingPage ["'", name])
        (viewDirectiveSource name none)).toOption.map Template.givenNames) :
    ¬ AgreesOnNames c := by
  intro hall
  have hregistered := Option.isSome_iff_exists.1 hfind
  have hquiet : ∀ d ∈ name.toList, d = c ∨ isQuiet d = true ∧ d ≠ '"' := by simpa using hchars
  exact hnames (hall _ name hne hregistered hquiet).givenNames_eq

/-- Letters and digits are no key if a digit comes first or a letter is not an ASCII one, and an
object turns digits into their number. A view without a name cannot be named by an element, and each
character that means something to markup or to the braces is in a name that only one of the two can
give. -/
theorem not_forall_alike :
    (∀ key ∈ ["1a", "é", "01"], ¬ ∀ (scene : Scene) (name : String) (a : Argument),
      IsViewName name → (∃ v, scene.find? name = some v) → a.name = key → a.HasPlainValue →
      Alike scene name (readSource .empty scene (viewElementSource name [a]))
        (readSource .empty scene (viewDirectiveSource name (some [a])))) ∧
    (¬ ∀ scene : Scene, (∃ v, scene.find? "" = some v) →
      Alike scene "" (readSource .empty scene (viewElementSource "" []))
        (readSource .empty scene (viewDirectiveSource "" none))) ∧
    ∀ c ∈ ['"', '&', '<', '\x7b', '\x7d'], ¬ AgreesOnNames c := by
  refine ⟨?_, ?_, ?_⟩
  · intro key hkey hall
    have hagree := (hall (askingPage ["card"]) "card" (flag key) isViewName_card ⟨_, rfl⟩
      rfl (hasPlainValue_flag key)).givenNames_eq
    clear hall
    revert key
    decide +kernel
  · intro hall
    have hagree := (hall (askingPage [""]) ⟨_, rfl⟩).givenNames_eq
    revert hagree
    decide +kernel
  · simp only [List.forall_mem_cons]
    refine ⟨not_agreesOnNames "\"" ?_ ?_ ?_ ?_, not_agreesOnNames "&#39;" ?_ ?_ ?_ ?_,
      not_agreesOnNames "<!---->" ?_ ?_ ?_ ?_, not_agreesOnNames "\x7b" ?_ ?_ ?_ ?_,
      not_agreesOnNames "\x7d" ?_ ?_ ?_ ?_,
      List.forall_mem_nil _⟩
    all_goals decide +kernel

end Card

end Stencil
