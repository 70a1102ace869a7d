import Mathlib.Data.List.Basic
import Mathlib.Data.List.Induction
import Stencil.Entries

/-!
# What is kept by the operations on entries

A property of all values, and the absence of repeated names, through writing and erasing. Of pairs
that are written one after the other, a name has the place of the first one and the value of the
last one. Changing all values by a function comes to the same before and after each operation.
-/

namespace Stencil.Entries

variable {α : Type} {Q : α → Prop} {k : String} {es : Entries α}

/-- What is found is one of the entries. -/
theorem mem_of_get? {v : α} (h : get? k es = some v) : (k, v) ∈ es := by
  induction es with
  | nil => cases h
  | cons e es ih =>
    rw [get?] at h
    split at h
    · rename_i hk
      obtain ⟨k', w⟩ := e
      simp_all
    · exact List.mem_cons_of_mem _ (ih h)

/-- A property of all values is kept by writing one more that has it. -/
theorem forall_mem_set {v : α} (h : ∀ e ∈ es, Q e.2) (hv : Q v) : ∀ e ∈ set k v es, Q e.2 := by
  induction es with
  | nil => simpa [set] using hv
  | cons e es ih =>
    rw [List.forall_mem_cons] at h
    rw [set]
    split
    · exact List.forall_mem_cons.2 ⟨hv, h.2⟩
    · exact List.forall_mem_cons.2 ⟨h.1, ih h.2⟩

theorem erase_sublist (k : String) (es : Entries α) : (erase k es).Sublist es := by
  induction es with
  | nil => exact .slnil
  | cons e es ih =>
    rw [erase]
    split
    · exact List.sublist_cons_self e es
    · exact ih.cons_cons e

theorem forall_mem_erase (h : ∀ e ∈ es, Q e.2) : ∀ e ∈ erase k es, Q e.2 :=
  fun e he => h e ((erase_sublist k es).subset he)

/-- A property of all pairs is one of the entries that they make. -/
theorem forall_mem_ofPairs {ps : List (String × α)} (h : ∀ p ∈ ps, Q p.2) :
    ∀ e ∈ ofPairs ps, Q e.2 := by
  have hfold : ∀ es : Entries α, (∀ e ∈ es, Q e.2) →
      ∀ e ∈ ps.foldl (fun es p => set p.1 p.2 es) es, Q e.2 := by
    induction ps with
    | nil => exact fun es hes => hes
    | cons p ps ih =>
      rw [List.forall_mem_cons] at h
      exact fun es hes => ih h.2 _ (forall_mem_set hes h.1)
  exact hfold [] (List.forall_mem_nil _)

/-! ## Names -/

theorem isSome_get? (h : k ∈ keys es) : (get? k es).isSome := by
  induction es with
  | nil => cases h
  | cons e es ih =>
    rw [get?]
    split
    · rfl
    · rename_i hne
      obtain hk | hk := List.mem_cons.1 h
      · exact absurd hk.symm hne
      · exact ih hk

/-- A name is there exactly if something is found under it. -/
theorem mem_keys_iff : k ∈ keys es ↔ get? k es ≠ none := by
  constructor
  · intro hk hnone
    have hsome := isSome_get? hk
    rw [hnone] at hsome
    cases hsome
  · intro hne
    exact Classical.byContradiction fun hk => hne (get?_eq_none hk)

theorem mem_keys_set_iff {k' : String} {v : α} :
    k' ∈ keys (set k v es) ↔ k' = k ∨ k' ∈ keys es := by
  by_cases hk : k ∈ keys es
  · rw [keys_set_of_has (isSome_get? hk)]
    refine ⟨.inr, fun h => ?_⟩
    obtain rfl | h := h
    · exact hk
    · exact h
  · rw [keys_set_of_not_has (get?_eq_none hk), List.mem_append, List.mem_singleton, or_comm]

theorem mem_keys_set {k' : String} {v : α} (h : k' ∈ keys (set k v es)) : k' = k ∨ k' ∈ keys es :=
  mem_keys_set_iff.1 h

/-- Writing repeats no name. -/
theorem nodup_keys_set (h : (keys es).Nodup) (v : α) : (keys (set k v es)).Nodup := by
  by_cases hk : k ∈ keys es
  · rw [keys_set_of_has (isSome_get? hk)]
    exact h
  · rw [keys_set_of_not_has (get?_eq_none hk)]
    exact List.nodup_append.2 ⟨h, by simp, by simpa using fun a ha => ne_of_mem_of_not_mem ha hk⟩

theorem keys_erase_sublist (k : String) (es : Entries α) : (keys (erase k es)).Sublist (keys es) :=
  (erase_sublist k es).map Prod.fst

/-- Erasing takes away all that a name has, if it is there once. -/
theorem not_mem_keys_erase (h : (keys es).Nodup) : k ∉ keys (erase k es) := by
  induction es with
  | nil => simp [erase, keys]
  | cons e es ih =>
    rw [keys, List.map_cons, List.nodup_cons] at h
    rw [erase]
    split
    · rename_i hk
      exact hk ▸ h.1
    · rename_i hne
      rw [keys, List.map_cons, List.mem_cons, not_or]
      exact ⟨Ne.symm hne, ih h.2⟩

/-- Of different names the one that is erased is left out. -/
theorem erase_eq_filter (h : (keys es).Nodup) : erase k es = es.filter fun e => e.1 ≠ k := by
  induction es with
  | nil => rfl
  | cons e es ih =>
    obtain ⟨k', v⟩ := e
    rw [keys, List.map_cons, List.nodup_cons] at h
    rw [erase]
    split
    · rename_i hk
      subst hk
      have hrest : ∀ e ∈ es, decide (e.1 ≠ k') = true := by
        intro e he
        simpa using ne_of_mem_of_not_mem (List.mem_map_of_mem he) h.1
      rw [List.filter_cons_of_neg (by simp), List.filter_eq_self.2 hrest]
    · rename_i hne
      rw [List.filter_cons_of_pos (by simpa using hne), ih h.2]

theorem get?_filter (q : String → Bool) (k : String) (es : Entries α) :
    get? k (es.filter fun e => q e.1) = if q k then get? k es else none := by
  induction es with
  | nil => simp
  | cons e es ih =>
    obtain ⟨k', v⟩ := e
    rw [List.filter_cons, get?]
    by_cases hk : k' = k
    · subst hk
      cases hq : q k' <;> simp [get?, ih, hq]
    · cases hq : q k' <;> simp [get?, ih, hk]

/-- Where no name is repeated, every entry is found. -/
theorem get?_of_mem (h : (keys es).Nodup) {e : String × α} (he : e ∈ es) :
    get? e.1 es = some e.2 := by
  induction es with
  | nil => cases he
  | cons e' es ih =>
    rw [keys, List.map_cons, List.nodup_cons] at h
    obtain rfl | he := List.mem_cons.1 he
    · exact if_pos rfl
    · have hne : e'.1 ≠ e.1 := fun heq => h.1 (heq ▸ List.mem_map_of_mem he)
      rw [get?, if_neg hne, ih h.2 he]

/-- Entries with different names are their names with what is found there. -/
theorem eq_filterMap_keys (h : (keys es).Nodup) :
    es = (keys es).filterMap fun k => (get? k es).map fun v => (k, v) := by
  have hentry : ∀ e ∈ es, (get? e.1 es).map (fun v => (e.1, v)) = some e := by
    intro e he
    rw [get?_of_mem h he, Option.map_some]
  rw [keys, List.filterMap_map]
  exact ((List.filterMap_congr hentry).trans List.filterMap_some).symm

/-! ## Pairs with repeated names -/

section

variable (k : String)

def valuesOf (ps : List (String × α)) : List α :=
  ps.filterMap fun p => if p.1 = k then some p.2 else none

@[simp]
theorem valuesOf_nil : valuesOf k ([] : List (String × α)) = [] := rfl

@[simp]
theorem valuesOf_cons (p : String × α) (ps : List (String × α)) :
    valuesOf k (p :: ps) = if p.1 = k then p.2 :: valuesOf k ps else valuesOf k ps := by
  rw [valuesOf, List.filterMap_cons]
  split <;> split at * <;> simp_all [valuesOf]

@[simp]
theorem valuesOf_append (ps qs : List (String × α)) :
    valuesOf k (ps ++ qs) = valuesOf k ps ++ valuesOf k qs :=
  List.filterMap_append

/-- Of the pairs with one name the last one counts. -/
theorem get?_ofPairs (ps : List (String × α)) : get? k (ofPairs ps) = (valuesOf k ps).getLast? := by
  have hfold : ∀ es : Entries α, get? k (ps.foldl (fun es p => set p.1 p.2 es) es) =
      (valuesOf k ps).getLast?.or (get? k es) := by
    induction ps with
    | nil => simp
    | cons p ps ih =>
      intro es
      rw [List.foldl_cons, ih, valuesOf_cons]
      by_cases hk : p.1 = k
      · rw [if_pos hk, ← hk, get?_set_self, List.getLast?_cons]
        cases (valuesOf p.1 ps).getLast? <;> rfl
      · rw [if_neg hk, get?_set_of_ne hk]
  simpa [ofPairs] using hfold []

end

/-- A pair that comes last is written last. -/
theorem ofPairs_concat (ps : List (String × α)) (p : String × α) :
    ofPairs (ps ++ [p]) = set p.1 p.2 (ofPairs ps) := by
  simp [ofPairs]

/-- However often pairs repeat a name, the entries have it once. -/
theorem nodup_keys_ofPairs (ps : List (String × α)) : (keys (ofPairs ps)).Nodup := by
  induction ps using List.reverseRecOn with
  | nil => exact List.nodup_nil
  | append_singleton ps p ih => exact ofPairs_concat ps p ▸ nodup_keys_set ih p.2

/-- The names of pairs, each at its first place. -/
theorem keys_ofPairs (ps : List (String × α)) :
    keys (ofPairs ps) = (ps.map Prod.fst).eraseDups := by
  induction ps using List.reverseRecOn with
  | nil => rfl
  | append_singleton ps p ih =>
    rw [ofPairs_concat, List.map_append, List.eraseDups_append, ← ih]
    by_cases hk : p.1 ∈ keys (ofPairs ps)
    · have hmem : p.1 ∈ ps.map Prod.fst := List.mem_eraseDups.1 (ih ▸ hk)
      rw [keys_set_of_has (isSome_get? hk)]
      simp [List.removeAll, List.mem_map.1 hmem]
    · have hmem : p.1 ∉ ps.map Prod.fst := fun hmem => hk (ih ▸ List.mem_eraseDups.2 hmem)
      rw [keys_set_of_not_has (get?_eq_none hk)]
      have hsingle : [p.1].removeAll (ps.map Prod.fst) = [p.1] := by
        simpa [List.removeAll] using hmem
      rw [List.map_singleton, hsingle]
      rfl

/-- Each name of the pairs once, in the order of the first places, with its last value. -/
def lastOfEach (ps : List (String × α)) : Entries α :=
  (ps.map Prod.fst).eraseDups.filterMap fun k => (valuesOf k ps).getLast?.map fun v => (k, v)

/-- Pairs written one after the other are each name once, with its last value. -/
theorem ofPairs_eq_lastOfEach (ps : List (String × α)) : ofPairs ps = lastOfEach ps := by
  rw [eq_filterMap_keys (nodup_keys_ofPairs ps), keys_ofPairs, lastOfEach]
  simp only [get?_ofPairs]

/-! ## Changing all values -/

section

variable {β : Type} (f : α → β) (k : String) (es : Entries α)

@[simp]
theorem get?_mapValues : get? k (mapValues f es) = (get? k es).map f := by
  induction es with
  | nil => rfl
  | cons e es ih =>
    rw [mapValues] at ih
    rw [mapValues, List.map_cons, get?, get?, ih]
    split <;> rfl

@[simp]
theorem has_mapValues : has k (mapValues f es) = has k es := by
  simp [has]

theorem mapValues_set (v : α) : mapValues f (set k v es) = set k (f v) (mapValues f es) := by
  induction es with
  | nil => rfl
  | cons e es ih =>
    rw [mapValues, mapValues] at ih
    rw [mapValues, mapValues, List.map_cons, set, set]
    split
    · rfl
    · rw [List.map_cons, ih]

theorem mapValues_erase : mapValues f (erase k es) = erase k (mapValues f es) := by
  induction es with
  | nil => rfl
  | cons e es ih =>
    rw [mapValues, mapValues] at ih
    rw [mapValues, mapValues, List.map_cons, erase, erase]
    split
    · rfl
    · rw [List.map_cons, ih]

/-- Changing all values comes to the same before and after the pairs are written. -/
theorem mapValues_ofPairs (ps : List (String × α)) :
    mapValues f (ofPairs ps) = ofPairs (mapValues f ps) := by
  have hfold : ∀ es : Entries α, mapValues f (ps.foldl (fun es p => set p.1 p.2 es) es) =
      (mapValues f ps).foldl (fun es p => set p.1 p.2 es) (mapValues f es) := by
    induction ps with
    | nil => exact fun es => rfl
    | cons p ps ih =>
      intro es
      rw [List.foldl_cons, ih, mapValues_set]
      rfl
  exact hfold []

end

end Stencil.Entries
