/-!
# Entries in order

A finite map from names that remembers the order in which its names first came: writing a name
again changes its value and keeps its place. The lemmas say what each operation does to a look-up.
-/

namespace Stencil

abbrev Entries (α : Type) := List (String × α)

namespace Entries

variable {α β : Type}

def get? (k : String) : Entries α → Option α
  | [] => none
  | (k', v) :: es => if k' = k then some v else get? k es

def has (k : String) (es : Entries α) : Bool :=
  (get? k es).isSome

/-- Writes a value: in place if the name is there, at the end otherwise. -/
def set (k : String) (v : α) : Entries α → Entries α
  | [] => [(k, v)]
  | (k', w) :: es => if k' = k then (k, v) :: es else (k', w) :: set k v es

def erase (k : String) : Entries α → Entries α
  | [] => []
  | (k', w) :: es => if k' = k then es else (k', w) :: erase k es

def keys (es : Entries α) : List String :=
  es.map Prod.fst

/-- Writes the pairs one after the other: a repeated name keeps its first place and its last
value. -/
def ofPairs (ps : List (String × α)) : Entries α :=
  ps.foldl (fun es p => set p.1 p.2 es) []

/-- Writes all entries of `new` over those of `es`. -/
def update (es new : Entries α) : Entries α :=
  new.foldl (fun es p => set p.1 p.2 es) es

def mapValues (f : α → β) (es : Entries α) : Entries β :=
  es.map fun p => (p.1, f p.2)

@[simp]
theorem get?_nil (k : String) : get? k ([] : Entries α) = none := rfl

@[simp]
theorem get?_set_self (k : String) (v : α) (es : Entries α) : get? k (set k v es) = some v := by
  induction es with
  | nil => simp [set, get?]
  | cons p es ih =>
    obtain ⟨k', w⟩ := p
    by_cases h : k' = k <;> simp [set, get?, h, ih]

theorem get?_set_of_ne {k k' : String} (h : k ≠ k') (v : α) (es : Entries α) :
    get? k' (set k v es) = get? k' es := by
  induction es with
  | nil => simp [set, get?, h]
  | cons p es ih =>
    obtain ⟨k'', w⟩ := p
    by_cases h' : k'' = k
    · subst h'
      simp [set, get?, h]
    · simp [set, get?, h', ih]

/-- Writing to a name that is there keeps the order of the names. -/
theorem keys_set_of_has {k : String} {es : Entries α} (h : (get? k es).isSome) (v : α) :
    keys (set k v es) = keys es := by
  induction es with
  | nil => simp at h
  | cons p es ih =>
    obtain ⟨k', w⟩ := p
    by_cases h' : k' = k
    · subst h'
      simp [set, keys]
    · simp only [get?, h', if_false] at h
      have := ih h
      simp_all [set, keys]

/-- A new name comes last. -/
theorem keys_set_of_not_has {k : String} {es : Entries α} (h : get? k es = none) (v : α) :
    keys (set k v es) = keys es ++ [k] := by
  induction es with
  | nil => rfl
  | cons p es ih =>
    obtain ⟨k', w⟩ := p
    by_cases h' : k' = k
    · simp [get?, h'] at h
    · simp only [get?, h', if_false] at h
      have := ih h
      simp_all [set, keys]

/-- Writing a new name adds it at the end. -/
theorem set_of_not_mem {k : String} {es : Entries α} (h : k ∉ keys es) (v : α) :
    set k v es = es ++ [(k, v)] := by
  induction es with
  | nil => rfl
  | cons p es ih =>
    obtain ⟨k', w⟩ := p
    simp only [keys, List.map_cons, List.mem_cons, not_or] at h
    rw [set, if_neg (Ne.symm h.1), ih h.2, List.cons_append]

theorem get?_eq_none {k : String} {es : Entries α} (h : k ∉ keys es) : get? k es = none := by
  induction es with
  | nil => rfl
  | cons p es ih =>
    obtain ⟨k', w⟩ := p
    simp only [keys, List.map_cons, List.mem_cons, not_or] at h
    rw [get?, if_neg (Ne.symm h.1), ih h.2]

theorem erase_of_not_mem {k : String} {es : Entries α} (h : k ∉ keys es) : erase k es = es := by
  induction es with
  | nil => rfl
  | cons p es ih =>
    obtain ⟨k', w⟩ := p
    simp only [keys, List.map_cons, List.mem_cons, not_or] at h
    rw [erase, if_neg (Ne.symm h.1), ih h.2]

/-- Without a repeated name the pairs are the entries. -/
theorem ofPairs_of_nodup {ps : List (String × α)} (h : (ps.map Prod.fst).Nodup) :
    ofPairs ps = ps := by
  have hfold : ∀ es : Entries α, (keys es ++ ps.map Prod.fst).Nodup →
      ps.foldl (fun es p => set p.1 p.2 es) es = es ++ ps := by
    clear h
    induction ps with
    | nil => simp
    | cons p ps ih =>
      intro es hes
      have hmem : p.1 ∉ keys es := by
        intro hp
        exact (List.nodup_append.1 hes).2.2 p.1 hp p.1 (by simp) rfl
      have hset := set_of_not_mem hmem p.2
      rw [List.foldl_cons, hset, ih, List.append_assoc]
      · rfl
      · simpa [keys] using hes
  simpa [ofPairs] using hfold [] (by simpa [keys] using h)

end Entries

end Stencil
