import Stencil.Proofs.Building.Changed
import Stencil.View.Parsing

/-!
# Parsing with plain views

A view is plain if it declares no attributes and no arrays, and a registry is plain if its views
are and no tag stands for one of them. With a plain registry, whether a template parses depends on
the names in the registry alone, and more names never make it fail.
-/

namespace Stencil

/-! ## Trees without the names of their views -/

/-- Pointers lose the names of the views that they refer to. -/
def Change.unnaming : Change :=
  ⟨fun _ => "", fun _ hooks => hooks⟩

/-- The second reading does not know the names of views. Both have at most the observer of forms. -/
def Comparison.unnaming (total : Prop) : Comparison :=
  ⟨Observers.Suppress, .unnaming, id, total⟩

theorem Change.keepsHooks_unnaming : unnaming.KeepsHooks :=
  fun _ _ => rfl

/-- What the pointers to a view depend on, apart from its name. -/
def View.unnamed (v : View) : View :=
  { name := "", source := "", textOption := .null, unminifiedOption := .null, elements := [],
    attributes := v.attributes, arrays := v.arrays, template? := none }

theorem View.matches_unnamed (v : View) : v.Matches .unnaming v.unnamed :=
  ⟨rfl, rfl, rfl⟩

/-- With the same observers and without elements that stand for views, it is left to compare what
is found under a name. -/
theorem Scene.mirrors_unnaming {total : Prop} {scene scene' : Scene}
    (hview : scene'.view? = scene.view?) (hstrict : scene'.strict = scene.strict)
    (helement : ∀ tag, scene.elementView? tag = none ∧ scene'.elementView? tag = none)
    (hfound : ∀ {name : String} {v : View}, scene.find? name = some v →
      scene'.find? name = some v.unnamed)
    (hmissing : total → ∀ {name : String}, scene.find? name = none → scene'.find? name = none) :
    scene.Mirrors (.unnaming total) scene' where
  view := hview
  strict := hstrict
  element tag := by
    rw [(helement tag).1, (helement tag).2]
    exact .none
  found hfind := ⟨_, hfound hfind, View.matches_unnamed _⟩
  missing := hmissing
  observed _ b s' hb hs _ := by
    rw [hs.eq_changed Change.keepsHooks_unnaming]
    exact Build.mirrors_observe Change.keepsHooks_unnaming (fun _ => id) (fun _ => rfl) _ b hb
  finished := .inr Change.keepsHooks_unnaming

/-! ## Plain registries -/

structure View.IsPlain (v : View) : Prop where
  attributes : v.attributes = []
  arrays : v.arrays = []

theorem View.IsPlain.unnamed_eq {v w : View} (hv : v.IsPlain) (hw : w.IsPlain) :
    v.unnamed = w.unnamed := by
  rw [View.unnamed, View.unnamed, hv.attributes, hv.arrays, hw.attributes, hw.arrays]

namespace Registry

def names (r : Registry) : List String :=
  Entries.keys r.views

structure IsPlain (r : Registry) : Prop where
  views : ∀ e ∈ r.views, e.2.IsPlain
  elements : r.elements = []

def unnamed (r : Registry) : Registry :=
  ⟨r.views.mapValues View.unnamed, []⟩

def ofNames (names : List String) : Registry :=
  ⟨names.map fun name => (name, ⟨name, "", .null, .null, [], [], [], none⟩), []⟩

variable {r r' : Registry}

theorem isPlain_empty : empty.IsPlain :=
  ⟨List.forall_mem_nil _, rfl⟩

theorem isPlain_ofNames (names : List String) : (ofNames names).IsPlain := by
  refine ⟨fun e he => ?_, rfl⟩
  obtain ⟨name, -, rfl⟩ := List.mem_map.1 he
  exact ⟨rfl, rfl⟩

@[simp]
theorem names_ofNames (names : List String) : (ofNames names).names = names := by
  simp [ofNames, Registry.names, Entries.keys, Function.comp_def]

theorem IsPlain.insert {v : View} (h : r.IsPlain) (hv : v.IsPlain) (helements : v.elements = []) :
    (r.insert v).IsPlain := by
  refine ⟨Entries.forall_mem_set h.views hv, ?_⟩
  rw [Registry.insert, helements]
  exact h.elements

theorem IsPlain.keepTemplate (h : r.IsPlain) (name : String) (t : Template) :
    (r.keepTemplate name t).IsPlain := by
  rw [Registry.keepTemplate]
  split
  · rename_i v hv
    have hplain := h.views _ (Entries.mem_of_get? hv)
    exact ⟨Entries.forall_mem_set h.views ⟨hplain.attributes, hplain.arrays⟩, h.elements⟩
  · exact h

theorem mem_names_insert {v : View} {name : String} :
    name ∈ (r.insert v).names ↔ name = v.name ∨ name ∈ r.names :=
  Entries.mem_keys_set_iff

theorem names_keepTemplate (name : String) (t : Template) :
    (r.keepTemplate name t).names = r.names := by
  rw [Registry.keepTemplate]
  split
  · rename_i v hv
    exact Entries.keys_set_of_has (by simp [hv]) _
  · rfl

theorem find?_unnamed (name : String) (at? : Option String) :
    r.unnamed.find? name at? = (r.find? name at?).map View.unnamed := by
  rw [find?, find?, List.map_findSome?]
  simp [unnamed, Function.comp_def]

/-- More names find more. -/
theorem isSome_find?_of_names (h : ∀ name ∈ r.names, name ∈ r'.names) {name : String}
    {at? : Option String} {v : View} (hv : r.find? name at? = some v) :
    ∃ v', r'.find? name at? = some v' := by
  obtain ⟨candidate, hmem, hget⟩ := List.exists_of_findSome?_eq_some hv
  have hkey : candidate ∈ r.names := List.mem_map_of_mem (f := Prod.fst) (Entries.mem_of_get? hget)
  have hsome : (r'.find? name at?).isSome := by
    rw [find?, List.isSome_findSome?]
    exact List.any_eq_true.2 ⟨candidate, hmem, Entries.isSome_get? (h candidate hkey)⟩
  exact Option.isSome_iff_exists.1 hsome

theorem IsPlain.of_find? (h : r.IsPlain) {name : String} {at? : Option String} {v : View}
    (hv : r.find? name at? = some v) : v.IsPlain := by
  obtain ⟨candidate, -, hget⟩ := List.exists_of_findSome?_eq_some hv
  exact h.views _ (Entries.mem_of_get? hget)

end Registry

/-! ## Which sources parse -/

section

variable {r r' : Registry} {v : View} {strict : Bool}

@[simp]
theorem View.find?_scene (v : View) (r : Registry) (strict : Bool) (name : String) :
    (v.scene r strict).find? name = r.find? name v.scope? := by
  rw [View.scene, Scene.find?, Option.bind_some]

theorem View.mirrors_scene_unnamed (h : r.IsPlain) (v : View) (strict : Bool) :
    (v.scene r strict).Mirrors (.unnaming True) (v.scene r.unnamed strict) := by
  refine Scene.mirrors_unnaming rfl rfl (fun tag => ?_) (fun {name w} hfind => ?_)
    (fun _ {name} hfind => ?_)
  · simp [View.scene, Scene.elementView?, Registry.element?, Registry.unnamed, h.elements]
  · rw [View.find?_scene] at hfind ⊢
    rw [r.find?_unnamed, hfind, Option.map_some]
  · rw [View.find?_scene] at hfind ⊢
    rw [r.find?_unnamed, hfind, Option.map_none]

theorem View.mirrors_scene (h : r.IsPlain) (h' : r'.IsPlain)
    (hnames : ∀ name ∈ r.names, name ∈ r'.names) (v : View) (strict : Bool) :
    (v.scene r strict).Mirrors (.unnaming False) (v.scene r'.unnamed strict) := by
  refine Scene.mirrors_unnaming rfl rfl (fun tag => ?_) (fun {name w} hfind => ?_) False.elim
  · simp [View.scene, Scene.elementView?, Registry.element?, Registry.unnamed, h.elements]
  · rw [View.find?_scene] at hfind ⊢
    obtain ⟨w', hw'⟩ := Registry.isSome_find?_of_names hnames hfind
    rw [r'.find?_unnamed, hw', Option.map_some, (h'.of_find? hw').unnamed_eq (h.of_find? hfind)]

def View.parses (v : View) (r : Registry) (strict : Bool) : Bool :=
  (v.parse r strict).1.toOption.isSome

theorem View.parses_iff : v.parses r strict = true ↔
    ∃ t, ((Builder.start .default).run
      (if v.isText then Build.plain (v.scene r strict) v.readSource
        else Build.markup (v.scene r strict) v.readSource)).1 = .ok t := by
  rw [View.parses, View.parse, View.readAs]
  dsimp only
  cases ((Builder.start .default).run
      (if v.isText then Build.plain (v.scene r strict) v.readSource
        else Build.markup (v.scene r strict) v.readSource)).1 with
  | error e =>
    constructor
    · intro h
      cases h
    · rintro ⟨t, h⟩
      cases h
  | ok t => exact ⟨fun _ => ⟨t, rfl⟩, fun _ => rfl⟩

/-- Both readings come to the same without names, so the second succeeds where the first does. -/
theorem Build.Mirrors.exists_ok {x x' y : Build Template} {f g : Template → Template}
    (hx : Mirrors (.unnaming False) f x y) (hx' : Mirrors (.unnaming True) g x' y) {b : Builder}
    (hb : b.observers.Suppress) (h : ∃ t, (b.run x).1 = .ok t) : ∃ t, (b.run x').1 = .ok t := by
  obtain ⟨t, ht⟩ := h
  have hy := ((hx b hb).ok (Prod.ext ht rfl : b.run x = (.ok t, (b.run x).2))).2
  cases hrun : (b.run x').1 with
  | ok t' => exact ⟨t', rfl⟩
  | error e =>
    obtain ⟨e', b', hfails⟩ :=
      (hx' b hb).fails trivial (Prod.ext hrun rfl : b.run x' = (.error e, _))
    change (b.changed (.unnaming False)).run y = _ at hfails
    rw [hy] at hfails
    cases hfails

/-- A source that parses with some plain views parses with more of them. -/
theorem View.parses_mono (h : r.IsPlain) (h' : r'.IsPlain)
    (hnames : ∀ name ∈ r.names, name ∈ r'.names) (hparses : v.parses r strict = true) :
    v.parses r' strict = true := by
  rw [View.parses_iff] at hparses ⊢
  have hscene := View.mirrors_scene h h' hnames v strict
  have hscene' := View.mirrors_scene_unnamed h' v strict
  split at hparses
  · rename_i htext
    rw [if_pos htext]
    exact (Build.mirrors_plain hscene _).exists_ok (Build.mirrors_plain hscene' _)
      (.of_usual (.inl rfl)) hparses
  · rename_i htext
    rw [if_neg htext]
    exact (Build.mirrors_markup hscene _).exists_ok (Build.mirrors_markup hscene' _)
      (.of_usual (.inl rfl)) hparses

/-- Whether a source parses depends on the names of the plain views alone. -/
theorem View.parses_congr (h : r.IsPlain) (h' : r'.IsPlain)
    (hnames : ∀ name, name ∈ r.names ↔ name ∈ r'.names) :
    v.parses r strict = v.parses r' strict := by
  rw [Bool.eq_iff_iff]
  exact ⟨View.parses_mono h h' fun name => (hnames name).1,
    View.parses_mono h' h fun name => (hnames name).2⟩

end

end Stencil
