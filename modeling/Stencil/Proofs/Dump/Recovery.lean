import Stencil.Proofs.Dump.Templates
import Stencil.Proofs.Tree.Made

/-!
# Templates that are told by their dumps

What a builder makes of a source is told by its dump, apart from the constants that are passed to
views: a directive that is read has the words of its source, and an array of a pointer has at least
one set of attributes. Every move of the builder keeps that.

So a template that is read comes back from its dump if no constant passed to a view is an object or
has objects among its items, and it is the only such template with this dump.
-/

namespace Stencil

open Builder Nesting

/-! ## Directives that are read -/

/-- The words of a value are those in front of the text. -/
theorem Directive.valueWords_of_classify {cs body : List Char} {ws : List ValueWord}
    (h : classify cs = (.shows ws, body)) : (valueWords cs).1 = ws := by
  unfold classify at h
  split at h
  · rename_i hhead
    cases h
    obtain ⟨w, a, hrole⟩ | ⟨a, hrole⟩ := role_of_head? hhead <;> cases hrole
  · repeat' split at h
    all_goals cases h
    rename_i hwords
    rw [hwords]

/-- A directive that was read is told by its source. -/
theorem Directive.IsRead.isTold {d : Directive} (h : d.IsRead) : d.IsTold := by
  obtain ⟨s, h⟩ := h
  obtain ⟨role, body, hclassify⟩ : ∃ role body, classify (Text.trim s.toList) = (role, body) :=
    ⟨_, _, rfl⟩
  simp only [Directive.read, hclassify] at h
  split at h
  · cases h
    rintro ws rfl
    simpa using valueWords_of_classify hclassify
  · cases h

/-! ## Nodes -/

/-- The directives of a node are told, and its arrays have sets of attributes. -/
abbrev Node.Told : Node → Prop :=
  Node.IsTold fun _ => True

theorem Node.IsPointer.told {n : Node} (h : n.IsPointer) : n.Told := by
  cases h with
  | view _ _ h | dynamicView _ _ h => exact h

/-- By the way nodes are made, their directives are told and their arrays have sets of attributes.
-/
theorem Node.told_inherent (scene : Scene) : Node.Inherent scene Node.Told where
  text _ := trivial
  comment _ := trivial
  doctype _ _ _ := trivial
  element _ _ _ _ _ := trivial
  bare _ := trivial
  value hd := hd.isTold
  unbranched := List.forall_mem_nil _
  branch hd h ns := by
    refine List.forall_mem_append.2 ⟨h, List.forall_mem_singleton.2 ?_⟩
    exact hd.isTold
  each hd ns := hd.isTold
  eachElse h ns := h
  block hd ns := hd.isTold
  stands h := (ViewAttributes.isPointer_of_stands h).told
  refers _ h := (ViewAttributes.isPointer_of_refers h).told

/-- All nodes of a template that is read are told. -/
theorem Template.IsReadFrom.told {scene : Scene} {observers : Observers} {source : String}
    {t : Template} (h : t.IsReadFrom scene observers source) : ∀ n ∈ t.nodes, n.Told :=
  (Node.told_inherent scene).forall_mem_nodes h

/-! ## Constants that are passed to views -/

mutual

/-- The constants of an attribute of a view. -/
def ViewAttribute.constants : ViewAttribute → List Value
  | .literal v => [v]
  | .wrapped _ => []
  | .array given entries => .list given :: constantsOfEntries entries
termination_by structural a => a

def ViewAttribute.constantsOfAll : List (String × ViewAttribute) → List Value
  | [] => []
  | (_, a) :: as => a.constants ++ constantsOfAll as
termination_by structural as => as

def ViewAttribute.constantsOfEntries : List (List (String × ViewAttribute)) → List Value
  | [] => []
  | as :: es => constantsOfAll as ++ constantsOfEntries es
termination_by structural es => es

end

namespace ViewAttribute

variable {P : Value → Prop}

theorem forall_mem_constantsOfAll {as : ViewAttributes} :
    (∀ v ∈ constantsOfAll as, P v) ↔ ∀ a ∈ as, ∀ v ∈ a.2.constants, P v := by
  induction as with
  | nil => simp [constantsOfAll]
  | cons a as ih =>
    rw [constantsOfAll, List.forall_mem_append, ih, List.forall_mem_cons]

theorem forall_mem_constantsOfEntries {es : List ViewAttributes} :
    (∀ v ∈ constantsOfEntries es, P v) ↔ ∀ as ∈ es, ∀ a ∈ as, ∀ v ∈ a.2.constants, P v := by
  induction es with
  | nil => simp [constantsOfEntries]
  | cons as es ih =>
    rw [constantsOfEntries, List.forall_mem_append, ih, List.forall_mem_cons,
      forall_mem_constantsOfAll]

/-- A filled attribute is filled with what its constants are. -/
theorem IsFilled.of_constants {a : ViewAttribute} (h : a.IsFilled fun _ => True)
    (hconstants : ∀ v ∈ a.constants, P v) : a.IsFilled P := by
  induction h with
  | literal => exact .literal (hconstants _ (by simp [constants]))
  | wrapped d => exact .wrapped d
  | array _ hentries _ ih =>
    rw [constants, List.forall_mem_cons, forall_mem_constantsOfEntries] at hconstants
    exact .array hconstants.1 hentries fun as has a ha => ih as has a ha (hconstants.2 as has a ha)

end ViewAttribute

/-- The constants that a node passes to a view. -/
def Node.passed : Node → List Value
  | .view _ as _ | .dynamicView _ as _ => ViewAttribute.constantsOfAll (as.getD [])
  | _ => []

/-- The constants that are passed to views, anywhere in the template. -/
def Template.passed (t : Template) : List Value :=
  t.nodes.flatMap Node.passed

/-- A node is told if what it passes to a view is as `P` says. -/
theorem Node.IsTold.of_passed {P : Value → Prop} {n : Node} (h : n.Told)
    (hpassed : ∀ v ∈ n.passed, P v) : n.IsTold P := by
  cases n with
  | view name as hooks | dynamicView name as hooks =>
    rw [passed, ViewAttribute.forall_mem_constantsOfAll] at hpassed
    rintro es rfl a ha
    exact (h es rfl a ha).of_constants (hpassed a ha)
  | _ => exact h

/-! ## Templates -/

section Templates

variable {scene : Scene} {observers : Observers} {source : String} {t : Template}

/-- A template that was read comes back from its dump, if no object is passed to a view in an array.
-/
theorem Template.IsReadFrom.comesBack (h : t.IsReadFrom scene observers source)
    (hpassed : ∀ v ∈ t.passed, v.showsObject = false) : ofDump? t.dump = some t :=
  ofDump?_dump fun n hn =>
    .of_passed (h.told n hn) fun v hv => hpassed v (List.mem_flatMap.2 ⟨n, hn, hv⟩)

/-- A dump loses nothing of a template that is read, unless a view is passed a constant that is an
object or has objects among its items: the template comes back from its dump, and no other one has
the same dump. -/
theorem eq_of_dump_eq (h : t.IsReadFrom scene observers source)
    (hpassed : ∀ v ∈ t.passed, v.showsObject = false) :
    Template.ofDump? t.dump = some t ∧
      ∀ (scene' : Scene) (observers' : Observers) (source' : String) (t' : Template),
        t'.IsReadFrom scene' observers' source' → (∀ v ∈ t'.passed, v.showsObject = false) →
          t'.dump = t.dump → t' = t := by
  refine ⟨h.comesBack hpassed, fun scene' observers' source' t' h' hpassed' hdump => ?_⟩
  have hback := h'.comesBack hpassed'
  rw [hdump, h.comesBack hpassed] at hback
  exact (Option.some.inj hback).symm

/-- A view with a constant, an attribute that has branches, and an array that extends a constant
one. -/
theorem eq_of_dump_eq_menu :
    let view (name : String) : View :=
      ⟨name, "", .null, .null, [.text ("x-" ++ name)], [], [("item", "items")], none⟩
    let scene : Scene := ⟨some (view "page"), Registry.empty.insert (view "menu"), true, .passive⟩
    let source := "<x-menu size=3 items=\"\x7b\x7b[1, 2]\x7d\x7d\" " ++
      "title=\"\x7b\x7bif a\x7d\x7dA\x7b\x7belse\x7d\x7dB\x7b\x7b/if\x7d\x7d\" as=\"m\">" ++
      "<item as=\"i\"><br>\x7b\x7bunbound label\x7d\x7d</item></x-menu>"
    ∃ t : Template, t.IsReadFrom scene .default source ∧
      t.nodes.map Node.className =
        ["VIEW_POINTER", "ELEMENT", "DYNAMIC_TEXT", "CONDITIONAL_BLOCK", "TEXT", "TEXT"] ∧
      t.passed.map Value.showsObject = [false, false] ∧
      Template.ofDump? t.dump = some t ∧
      ∀ (scene' : Scene) (observers' : Observers) (source' : String) (t' : Template),
        t'.IsReadFrom scene' observers' source' → (∀ v ∈ t'.passed, v.showsObject = false) →
          t'.dump = t.dump → t' = t := by
  intro view scene source
  have hrun : ((Builder.start .default).run (Build.markup scene source)).1.toOption.map
      (fun t => (t.nodes.map Node.className, t.passed.map Value.showsObject)) =
        some (["VIEW_POINTER", "ELEMENT", "DYNAMIC_TEXT", "CONDITIONAL_BLOCK", "TEXT", "TEXT"],
          [false, false]) := by
    decide +kernel
  obtain ⟨t, ht, hparts⟩ := exists_of_toOption_map hrun
  obtain ⟨hnodes, hconstants⟩ := Prod.mk.inj hparts
  have hpassed : ∀ v ∈ t.passed, v.showsObject = false := by
    intro v hv
    have hmem := List.mem_map_of_mem (f := Value.showsObject) hv
    rw [hconstants] at hmem
    simpa using hmem
  exact ⟨t, .inl ht, hnodes, hconstants, eq_of_dump_eq (.inl ht) hpassed⟩

end Templates

end Stencil
