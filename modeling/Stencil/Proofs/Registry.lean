import Stencil.Json.Writing
import Stencil.Proofs.Session

/-!
# Which view a tag stands for

A registry finds a view by its name and by the tags that stand for it. Both look-ups find the view
that was registered last among those that fit. A view that is replaced keeps the tags that no later
view declares, so the two look-ups agree exactly if no such tag is left.
-/

namespace Stencil

/-- Only a text is the same value as that text. -/
theorem Value.same_text_iff {v : Value} {s : String} : v.same (.text s) = true ↔ v = .text s := by
  cases v <;> simp [Value.same, Value.asInt?]

theorem Value.text_same_iff {v : Value} {s : String} :
    (Value.text s).same v = true ↔ v = .text s := by
  cases v with
  | text t => simp [Value.same, eq_comm (a := s)]
  | _ => simp [Value.same]

/-- Whether registering the view makes the tag stand for it. -/
def View.declares (v : View) (tag : String) : Bool :=
  (v.elements.takeWhile Value.isKey).any (·.same (.text tag))

namespace Registry

/-! ## One registration -/

/-- A tag that is set leads to its view, and every other tag to the view it led to before: an entry
that is replaced is none for another tag. -/
theorem find?_setElement (tag : String) (t : Value) (v : View) (es : List (Value × View)) :
    ((setElement t v es).find? fun e => e.1.same (.text tag)).map Prod.snd =
      if t.same (.text tag) then some v
      else (es.find? fun e => e.1.same (.text tag)).map Prod.snd := by
  induction es with
  | nil => by_cases ht : t.same (.text tag) = true <;> simp [setElement, ht]
  | cons e es ih =>
    obtain ⟨t', w⟩ := e
    rw [setElement]
    split
    · rename_i hsame
      by_cases ht : t.same (.text tag) = true
      · obtain rfl := Value.same_text_iff.1 ht
        simp [hsame, ht]
      · have ht' : t'.same (.text tag) = false := by
          refine Bool.eq_false_iff.2 fun htag => ht ?_
          obtain rfl := Value.same_text_iff.1 htag
          exact Value.same_text_iff.2 (Value.text_same_iff.1 hsame)
        simp [ht, ht']
    · rename_i hsame
      by_cases ht' : t'.same (.text tag) = true
      · have ht : t.same (.text tag) = false := by
          refine Bool.eq_false_iff.2 fun htag => hsame ?_
          rwa [Value.same_text_iff.1 htag]
        simp [ht, ht']
      · simpa [ht'] using ih

@[simp]
theorem element?_insert (r : Registry) (v : View) (tag : String) :
    (r.insert v).element? tag = if v.declares tag then some v else r.element? tag := by
  rw [element?, insert, View.declares, element?]
  dsimp only
  generalize v.elements.takeWhile Value.isKey = tags
  generalize r.elements = es
  induction tags generalizing es with
  | nil => rfl
  | cons t tags ih =>
    rw [List.foldl_cons, ih, find?_setElement, List.any_cons]
    by_cases ht : t.same (.text tag) = true <;> simp [ht]

theorem get?_insert (r : Registry) (v : View) (name : String) :
    Entries.get? name (r.insert v).views =
      if v.name == name then some v else Entries.get? name r.views := by
  rw [insert]
  by_cases hname : v.name = name
  · subst hname
    simp
  · simp [hname, Entries.get?_set_of_ne hname]

/-! ## All registrations -/

/-- What a registration finds or leaves alone, the registrations together find in the last of
those that fit. -/
theorem foldl_insert (look : Registry → Option View) {fits : View → Bool}
    (hlook : ∀ r v, look (r.insert v) = if fits v then some v else look r) (vs : List View)
    (r : Registry) : look (vs.foldl insert r) = (vs.reverse.find? fits).or (look r) := by
  induction vs generalizing r with
  | nil => rfl
  | cons v vs ih =>
    rw [List.foldl_cons, ih, hlook, List.reverse_cons, List.find?_append, Option.or_assoc]
    congr 1
    by_cases hv : fits v = true <;> simp [hv]

/-- The view is the last one in the list that fits. -/
def IsLatest (fits : View → Bool) (vs : List View) (v : View) : Prop :=
  fits v = true ∧ ∃ before after, vs = before ++ v :: after ∧ ∀ w ∈ after, fits w = false

/-- Searching from the end finds the latest that fits. -/
theorem find?_reverse_eq_some_iff {fits : View → Bool} {vs : List View} {v : View} :
    vs.reverse.find? fits = some v ↔ IsLatest fits vs v := by
  rw [List.find?_eq_some_iff_append, IsLatest]
  refine and_congr_right fun _ => ?_
  constructor
  · rintro ⟨after, before, hvs, hafter⟩
    refine ⟨before.reverse, after.reverse, ?_, by simpa using hafter⟩
    rw [← List.reverse_reverse vs, hvs]
    simp
  · rintro ⟨before, after, rfl, hafter⟩
    exact ⟨after.reverse, before.reverse, by simp, by simpa using hafter⟩

/-- An element leads to the view that declared its tag last. -/
theorem element?_foldl_insert {vs : List View} {tag : String} {v : View} :
    (vs.foldl insert empty).element? tag = some v ↔ IsLatest (·.declares tag) vs v := by
  rw [foldl_insert (·.element? tag) (fun r v => r.element?_insert v tag),
    ← find?_reverse_eq_some_iff]
  simp [empty, element?]

/-- A name leads to the view that was registered under it last. -/
theorem get?_foldl_insert {vs : List View} {name : String} {v : View} :
    Entries.get? name (vs.foldl insert empty).views = some v ↔
      IsLatest (fun w => w.name == name) vs v := by
  rw [foldl_insert (fun r => Entries.get? name r.views)
    (fun r v => r.get?_insert v name), ← find?_reverse_eq_some_iff]
  simp [empty]

/-- Every tag stands for the view that is found under its own name. -/
def Coherent (r : Registry) : Prop :=
  ∀ tag v, r.element? tag = some v → Entries.get? v.name r.views = some v

/-- Every tag of a view is declared again after the view has been replaced. -/
def TagsPass (vs : List View) : Prop :=
  ∀ before v after, vs = before ++ v :: after → ∀ tag, v.declares tag = true →
    (∃ w ∈ after, w.name = v.name) → ∃ w ∈ after, w.declares tag = true

/-- Names and tags lead to the same views exactly when every view that is replaced passes its tags
on. A view that keeps its tag is also the last one of its name. -/
theorem coherent_foldl_insert_iff (vs : List View) :
    (vs.foldl insert empty).Coherent ↔ TagsPass vs := by
  constructor
  · rintro hcoherent before v after rfl tag hv ⟨w, hw, hname⟩
    by_cases hlater : ∃ u ∈ after, u.declares tag = true
    · exact hlater
    · have hafter : ∀ u ∈ after, u.declares tag = false := by simpa using hlater
      have htag := element?_foldl_insert.2 ⟨hv, before, after, rfl, hafter⟩
      obtain ⟨u, hu⟩ : ∃ u, after.reverse.find? (fun u => u.name == v.name) = some u := by
        rw [← Option.isSome_iff_exists, List.find?_isSome]
        exact ⟨w, List.mem_reverse.2 hw, by simpa using hname⟩
      have hfound : (before ++ v :: after).reverse.find? (fun u => u.name == v.name) = some u := by
        simp [hu]
      have hlast := get?_foldl_insert.2 (find?_reverse_eq_some_iff.1 hfound)
      obtain rfl : v = u := Option.some.inj ((hcoherent tag v htag).symm.trans hlast)
      exact ⟨v, List.mem_reverse.1 (List.mem_of_find?_eq_some hu), hv⟩
  · intro hpass tag v htag
    obtain ⟨hv, before, after, rfl, hafter⟩ := element?_foldl_insert.1 htag
    refine get?_foldl_insert.2 ⟨by simp, before, after, rfl, fun w hw => ?_⟩
    refine beq_eq_false_iff_ne.2 fun hname => ?_
    obtain ⟨u, hu, hdeclares⟩ := hpass before v after rfl tag hv ⟨w, hw, hname⟩
    exact absurd hdeclares (Bool.eq_false_iff.1 (hafter u hu))

end Registry

/-! ## The calls of a session -/

namespace Session

variable {s : Session}

structure Call where
  name : String
  source : String
  options : ViewOptions

/-- The session after the calls; one that fails is passed over. -/
def registerAll (s : Session) (calls : List Call) : Session :=
  calls.foldl (fun s c => (s.run (Action.register c.name c.source c.options)).2) s

def views (s : Session) (calls : List Call) : List View :=
  calls.filterMap fun c => (s.made c.name c.source c.options).toOption

theorem made_congr {s' : Session} (h : ∀ key, s'.answer key = s.answer key) (name source : String)
    (o : ViewOptions) : s'.made name source o = s.made name source o := by
  rw [made, made, minifies, minifies, h]

/-- A sequence of registrations inserts the views that it makes, one after the other. -/
theorem registry_registerAll (s : Session) (calls : List Call) :
    (s.registerAll calls).registry = (s.views calls).foldl Registry.insert s.registry := by
  induction calls generalizing s with
  | nil => rfl
  | cons c calls ih =>
    have hspares : s.Spares [] := by simp [Spares]
    obtain ⟨s', hrun, hstays, hregistry⟩ := exists_run_register hspares c.name c.source c.options
    have hviews : s'.views calls = s.views calls := by
      simp only [views, made_congr hstays.answer]
    rw [registerAll, List.foldl_cons, hrun]
    refine (ih s').trans ?_
    rw [hviews, hregistry, views, views, List.filterMap_cons]
    cases s.made c.name c.source c.options <;> rfl

/-- However views are registered, every tag stands for a view that has not been replaced exactly if
each tag of a replaced view is declared by some view that came after it. -/
theorem coherent_registerAll_iff (h : s.registry = .empty) (calls : List Call) :
    (s.registerAll calls).registry.Coherent ↔ Registry.TagsPass (s.views calls) := by
  rw [registry_registerAll, h]
  exact Registry.coherent_foldl_insert_iff _

/-- A tag that a replaced view has left to another one. -/
theorem coherent_registerAll_taken :
    let s := Session.start Json.strict [] ⟨[]⟩ ⟨2024, 1, 1, 0, 0, 0, 0⟩
    let card : ViewOptions := ⟨.bool false, .bool true, .text "card", .null, .null⟩
    let bare : ViewOptions := ⟨.bool false, .bool true, .null, .null, .null⟩
    let calls : List Call := [⟨"card", "x", card⟩, ⟨"card", "y", bare⟩, ⟨"tile", "z", card⟩]
    s.registry = .empty ∧ (s.registerAll calls).registry.Coherent := by
  intro s card bare calls
  refine ⟨rfl, (coherent_registerAll_iff rfl calls).2 fun before v after hviews tag hv hname => ?_⟩
  obtain _ | ⟨_, _ | ⟨_, _ | ⟨_, before⟩⟩⟩ := before
  · cases hviews
    exact ⟨_, .tail _ (.head _), hv⟩
  · cases hviews
    cases hv
  · cases hviews
    obtain ⟨w, hw, -⟩ := hname
    cases hw
  · have hnone : [] = before ++ v :: after :=
      (List.cons.inj (List.cons.inj (List.cons.inj hviews).2).2).2
    simp at hnone

/-- A view that is registered again without its tag still stands for it. -/
theorem not_forall_coherent :
    ¬ ∀ (s : Session) (calls : List Call), s.registry = .empty →
      (s.registerAll calls).registry.Coherent := by
  intro h
  let s := Session.start Json.strict [] ⟨[]⟩ ⟨2024, 1, 1, 0, 0, 0, 0⟩
  let card : ViewOptions := { ViewOptions.default with elements := .text "card" }
  let calls : List Call := [⟨"card", "x", card⟩, ⟨"card", "y", .default⟩]
  have htag : ((s.registerAll calls).registry.element? "card").map (fun v => (v.name, v.source)) =
      some ("card", "x") := by decide +kernel
  have hname : (Entries.get? "card" (s.registerAll calls).registry.views).map (·.source) =
      some "y" := by decide +kernel
  obtain ⟨v, hv, hpair⟩ := Option.map_eq_some_iff.1 htag
  obtain ⟨hcard, hx⟩ := Prod.mk.inj hpair
  have hcurrent := h s calls rfl "card" v hv
  rw [hcard] at hcurrent
  rw [hcurrent, Option.map_some, hx] at hname
  exact absurd hname (by decide)

end Session

end Stencil
