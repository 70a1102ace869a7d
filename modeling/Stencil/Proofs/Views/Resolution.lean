import Stencil.Proofs.Registry

/-!
# Which view a name stands for

A name is looked up from a namespace, `s1:…:sm`: qualified by all of it, by less and less of it, and
at last not at all. The first of these names that is registered decides, and of the views that were
registered under it the last one is found.
-/

namespace Stencil

namespace Registry

/-- A name as it is written out below the given namespaces. -/
def qualified (ss : List String) (name : String) : String :=
  Text.join ":" (ss ++ [name])

@[simp]
theorem qualified_nil (name : String) : qualified [] name = name := rfl

theorem findSome?_reverse_range_eq_some_iff {α : Type} {f : Nat → Option α} {m : Nat} {a : α} :
    (List.range m).reverse.findSome? f = some a ↔
      ∃ k < m, f k = some a ∧ ∀ j, k < j → j < m → f j = none := by
  induction m with
  | zero => simp
  | succ m ih =>
    rw [List.range_succ, List.reverse_append, List.reverse_singleton, List.singleton_append,
      List.findSome?_cons]
    cases hm : f m with
    | some a' =>
      constructor
      · intro h
        exact ⟨m, Nat.lt_succ_self m, hm.trans h, fun j hj hjm => absurd hj (by omega)⟩
      · rintro ⟨k, hk, hka, hlater⟩
        obtain rfl : k = m := by
          by_contra hne
          have hnone := hlater m (by omega) (Nat.lt_succ_self m)
          rw [hm] at hnone
          cases hnone
        exact hm.symm.trans hka
    | none =>
      dsimp only
      rw [ih]
      constructor
      · rintro ⟨k, hk, hka, hlater⟩
        refine ⟨k, Nat.lt_succ_of_lt hk, hka, fun j hj hjm => ?_⟩
        obtain rfl | hjm := Nat.eq_or_lt_of_le (Nat.le_of_lt_succ hjm)
        · exact hm
        · exact hlater j hj hjm
      · rintro ⟨k, hk, hka, hlater⟩
        have hne : k ≠ m := by
          rintro rfl
          rw [hm] at hka
          cases hka
        exact ⟨k, by omega, hka, fun j hj hjm => hlater j hj (Nat.lt_succ_of_lt hjm)⟩

variable {r : Registry} {name : String} {at? : Option String} {v : View}

/-- The longest qualified name that is registered decides. -/
theorem find?_eq_some_iff :
    r.find? name at? = some v ↔ ∃ k ≤ (segments at?).length,
      Entries.get? (qualified ((segments at?).take k) name) r.views = some v ∧
        ∀ j, k < j → j ≤ (segments at?).length →
          Entries.get? (qualified ((segments at?).take j) name) r.views = none := by
  rw [find?, candidates, List.findSome?_map, findSome?_reverse_range_eq_some_iff]
  simp only [Nat.lt_succ_iff]
  rfl

theorem find?_eq_none_iff :
    r.find? name at? = none ↔ ∀ k ≤ (segments at?).length,
      Entries.get? (qualified ((segments at?).take k) name) r.views = none := by
  rw [find?, candidates, List.findSome?_map, List.findSome?_eq_none_iff]
  simp only [List.mem_reverse, List.mem_range, Nat.lt_succ_iff]
  rfl

theorem get?_foldl_insert_eq_none {vs : List View} :
    Entries.get? name (vs.foldl insert empty).views = none ↔ ∀ w ∈ vs, w.name ≠ name := by
  rw [foldl_insert (fun r => Entries.get? name r.views) (fun r v => r.get?_insert v name)]
  simp [empty]

/-- What the look-up of a name finds among views that were registered one after the other: of the
longest qualified name that was registered the last view. -/
def Finds (vs : List View) (name : String) (ss : List String) (v : View) : Prop :=
  ∃ k ≤ ss.length, IsLatest (fun w => w.name == qualified (ss.take k) name) vs v ∧
    ∀ j, k < j → j ≤ ss.length → ∀ w ∈ vs, w.name ≠ qualified (ss.take j) name

theorem find?_foldl_insert {vs : List View} :
    (vs.foldl insert empty).find? name at? = some v ↔ Finds vs name (segments at?) v := by
  rw [find?_eq_some_iff]
  simp only [get?_foldl_insert, get?_foldl_insert_eq_none]
  rfl

theorem find?_foldl_insert_eq_none {vs : List View} :
    (vs.foldl insert empty).find? name at? = none ↔
      ∀ k ≤ (segments at?).length, ∀ w ∈ vs, w.name ≠ qualified ((segments at?).take k) name := by
  rw [find?_eq_none_iff]
  simp only [get?_foldl_insert_eq_none]

/-- A view that is found is the one registered under its own name. -/
theorem get?_of_find?_foldl_insert {vs : List View}
    (h : (vs.foldl insert empty).find? name at? = some v) :
    Entries.get? v.name (vs.foldl insert empty).views = some v := by
  obtain ⟨k, -, hlatest, -⟩ := find?_foldl_insert.1 h
  rw [← beq_iff_eq.1 hlatest.1] at hlatest
  exact get?_foldl_insert.2 hlatest

end Registry

end Stencil
