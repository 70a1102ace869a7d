import Stencil.Json.Writing
import Stencil.Proofs.Entries
import Stencil.Settings.Sources

/-!
# Objects without repeated names

An object is kept as a list of fields, and only lists without a repeated name stand for objects.
`Value.Distinct` asks this of a value and of all objects inside its fields. Reading JSON gives such
values, and writing at a key and laying fields over others keep them so. Inside of lists nothing is
asked, since no key leads there.
-/

namespace Stencil

/-- No object in the value names a field twice, unless it stands in a list. -/
inductive Value.Distinct : Value → Prop
  | object {fs : List (String × Value)} (hnodup : (Entries.keys fs).Nodup)
    (hfields : ∀ f ∈ fs, Distinct f.2) : Distinct (.object fs)
  | other {v : Value} (h : v.isObject = false) : Distinct v

namespace Value

variable {v : Value} {fs base : Entries Value} {k : String}

theorem isObject_cases (v : Value) : v.isObject = false ∨ ∃ fs, v = .object fs := by
  cases v with
  | object fs => exact .inr ⟨fs, rfl⟩
  | null | bool | int | float | text | list => exact .inl rfl

theorem Distinct.nodup (h : (Value.object fs).Distinct) : (Entries.keys fs).Nodup := by
  cases h with
  | object hnodup => exact hnodup
  | other h => cases h

theorem Distinct.forall_mem (h : (Value.object fs).Distinct) : ∀ f ∈ fs, f.2.Distinct := by
  cases h with
  | object _ hfields => exact hfields
  | other h => cases h

theorem Distinct.get? (h : (Value.object fs).Distinct) (hv : Entries.get? k fs = some v) :
    v.Distinct :=
  h.forall_mem _ (Entries.mem_of_get? hv)

theorem distinct_empty : (Value.object []).Distinct :=
  .object List.nodup_nil (List.forall_mem_nil _)

theorem Distinct.fields (h : v.Distinct) : (Value.object v.fields).Distinct := by
  cases v with
  | object fs => exact h
  | null | bool | int | float | text | list => exact distinct_empty

theorem Distinct.set (h : (Value.object fs).Distinct) (hv : v.Distinct) :
    (Value.object (Entries.set k v fs)).Distinct :=
  .object (Entries.nodup_keys_set h.nodup v) (Entries.forall_mem_set h.forall_mem hv)

theorem distinct_ofPairs {ps : List (String × Value)} (h : ∀ p ∈ ps, p.2.Distinct) :
    (Value.object (Entries.ofPairs ps)).Distinct :=
  .object (Entries.nodup_keys_ofPairs ps) (Entries.forall_mem_ofPairs h)

mutual

/-- Whether no object in the value names a field twice. -/
def isDistinct : Value → Bool
  | .object fs => decide (Entries.keys fs).Nodup && areDistinct fs
  | _ => true
termination_by structural v => v

def areDistinct : List (String × Value) → Bool
  | [] => true
  | (_, v) :: fs => isDistinct v && areDistinct fs
termination_by structural fs => fs

end

mutual

theorem isDistinct_iff (v : Value) : v.isDistinct = true ↔ v.Distinct := by
  cases v with
  | object fs =>
    rw [isDistinct, Bool.and_eq_true, decide_eq_true_eq, areDistinct_iff fs]
    exact ⟨fun h => .object h.1 h.2, fun h => ⟨h.nodup, h.forall_mem⟩⟩
  | null | bool | int | float | text | list => exact iff_of_true rfl (.other rfl)

theorem areDistinct_iff (fs : List (String × Value)) :
    areDistinct fs = true ↔ ∀ f ∈ fs, f.2.Distinct := by
  cases fs with
  | nil => exact iff_of_true rfl (List.forall_mem_nil _)
  | cons f fs =>
    rw [areDistinct, Bool.and_eq_true, isDistinct_iff f.2, areDistinct_iff fs, List.forall_mem_cons]

end

instance : DecidablePred Distinct :=
  fun v => decidable_of_iff _ (isDistinct_iff v)

/-- Writing at a path keeps an object one without repeated names. -/
theorem Distinct.write {new w : Value} {path : List String} (hnew : new.Distinct) (h : v.Distinct)
    (hw : write new path v = .ok w) : w.Distinct := by
  induction path generalizing v w with
  | nil =>
    cases hw
    exact hnew
  | cons k ks ih =>
    cases v with
    | object fs =>
      cases ks with
      | nil =>
        cases hw
        exact h.set hnew
      | cons k' ks =>
        rw [Value.write] at hw
        · cases hinner : Value.write new (k' :: ks) ((Entries.get? k fs).getD (.object [])) with
          | error cause =>
            rw [hinner] at hw
            cases hw
          | ok inner =>
            rw [hinner] at hw
            cases hw
            refine h.set (ih ?_ hinner)
            cases hchild : Entries.get? k fs with
            | none => exact distinct_empty
            | some child => exact h.get? hchild
        · simp
    | null | bool | int | float | text | list => cases ks <;> cases hw

end Value

/-! ## Values that are read -/

namespace Json

/-- No object that the library reads names a field twice, unless it stands in a list. -/
def Library.ReadsDistinct (json : Library) : Prop :=
  ∀ s v, json.read? s = some v → v.Distinct

theorem distinct_numberValue? {negative : Bool} {whole fraction : List Char} {exponent : Option Int}
    {v : Value} (h : numberValue? negative whole fraction exponent = some v) : v.Distinct := by
  have hfinite {x : Binary64} {v : Value} (h : finite? x = some v) : v.Distinct := by
    cases x <;> cases h
    exact .other rfl
  simp only [numberValue?, apply_ite (· = some v), ite_prop_iff_or] at h
  obtain ⟨-, h⟩ | ⟨-, h⟩ := h
  · cases h
    exact .other rfl
  · exact hfinite h

theorem distinct_number? {negative : Bool} {cs rest : List Char} {v : Value}
    (h : number? negative cs = some (v, rest)) : v.Distinct := by
  simp only [number?, bind, Option.bind_eq_some_iff, pure, Option.some.injEq, Prod.mk.injEq] at h
  obtain ⟨_, -, _, -, _, -, v', hv, rfl, -⟩ := h
  exact distinct_numberValue? hv

theorem distinct_value? {room fuel : Nat} {cs rest : List Char} {v : Value}
    (hfields : ∀ room cs fs rest, fields? room fuel cs = some (fs, rest) → ∀ f ∈ fs, f.2.Distinct)
    (h : value? room (fuel + 1) cs = some (v, rest)) : v.Distinct := by
  rw [value?] at h
  split at h
  · cases h
    exact .other rfl
  · cases h
    exact .other rfl
  · cases h
    exact .other rfl
  · obtain ⟨_, -, heq⟩ := Option.map_eq_some_iff.1 h
    cases heq
    exact .other rfl
  · split at h
    · cases h
    · split at h
      · cases h
        exact .other rfl
      · obtain ⟨_, -, heq⟩ := Option.map_eq_some_iff.1 h
        cases heq
        exact .other rfl
  · split at h
    · cases h
    · split at h
      · cases h
        exact Value.distinct_empty
      · obtain ⟨⟨fs, rest'⟩, hfs, heq⟩ := Option.map_eq_some_iff.1 h
        cases heq
        exact Value.distinct_ofPairs (hfields _ _ fs _ hfs)
  · exact distinct_number? h
  · exact distinct_number? h

theorem distinct_fields? {room fuel : Nat} {cs rest : List Char} {fs : List (String × Value)}
    (hvalue : ∀ room cs v rest, value? room fuel cs = some (v, rest) → v.Distinct)
    (hfields : ∀ room cs fs rest, fields? room fuel cs = some (fs, rest) → ∀ f ∈ fs, f.2.Distinct)
    (h : fields? room (fuel + 1) cs = some (fs, rest)) : ∀ f ∈ fs, f.2.Distinct := by
  rw [fields?] at h
  split at h
  · simp only [bind, Option.bind_eq_some_iff] at h
    obtain ⟨⟨k, afterName⟩, -, h⟩ := h
    split at h
    · obtain ⟨⟨v, afterValue⟩, hv, h⟩ := Option.bind_eq_some_iff.1 h
      split at h
      · obtain ⟨⟨more, rest'⟩, hmore, heq⟩ := Option.bind_eq_some_iff.1 h
        cases heq
        exact List.forall_mem_cons.2 ⟨hvalue _ _ v _ hv, hfields _ _ more _ hmore⟩
      · cases h
        exact List.forall_mem_singleton.2 (hvalue _ _ v _ hv)
      · cases h
    · cases h
  · cases h

/-- Values and fields that are read, with fuel for either. -/
theorem distinct_of_fuel (fuel : Nat) :
    (∀ room cs v rest, value? room fuel cs = some (v, rest) → v.Distinct) ∧
      ∀ room cs fs rest, fields? room fuel cs = some (fs, rest) → ∀ f ∈ fs, f.2.Distinct := by
  induction fuel with
  | zero =>
    constructor
    · intro room cs v rest h
      cases h
    · intro room cs fs rest h
      cases h
  | succ fuel ih =>
    obtain ⟨hvalue, hfields⟩ := ih
    exact ⟨fun _ _ _ _ => distinct_value? hfields, fun _ _ _ _ => distinct_fields? hvalue hfields⟩

theorem strict_readsDistinct : strict.ReadsDistinct := by
  intro s v h
  simp only [strict, read?] at h
  split at h
  · rename_i hvalue
    split at h
    · cases h
      exact (distinct_of_fuel _).1 _ _ _ _ hvalue
    · cases h
  · cases h

end Json

namespace Settings

variable {json : Json.Library}

theorem distinct_variableValue (hjson : json.ReadsDistinct) (s : String) :
    (variableValue json s).Distinct := by
  rw [variableValue]
  split
  · exact .other rfl
  · split
    · exact .other rfl
    · split
      · exact .other rfl
      · split
        · cases hread : json.read? s with
          | none => exact .other rfl
          | some v => exact hjson s v hread
        · exact .other rfl

theorem distinct_overrides (hjson : json.ReadsDistinct) (env : Environment) :
    (Value.object (overrides json env)).Distinct := by
  refine Value.distinct_ofPairs fun p hp => ?_
  obtain ⟨entry, -, hentry⟩ := List.mem_filterMap.1 hp
  obtain ⟨key, -, rfl⟩ := Option.map_eq_some_iff.1 hentry
  exact distinct_variableValue hjson entry.2

theorem distinct_nested {flat : Entries Value} {v : Value} (hflat : ∀ p ∈ flat, p.2.Distinct)
    (h : nested flat = .ok v) : v.Distinct := by
  have hfold : ∀ start : Value, start.Distinct →
      flat.foldlM (fun v p => Value.write p.2 (keyParts p.1) v) start = .ok v → v.Distinct := by
    clear h
    induction flat with
    | nil =>
      intro start hstart h
      cases h
      exact hstart
    | cons p flat ih =>
      intro start hstart h
      rw [List.forall_mem_cons] at hflat
      rw [List.foldlM_cons] at h
      cases hwrite : Value.write p.2 (keyParts p.1) start with
      | error cause =>
        rw [hwrite] at h
        cases h
      | ok w =>
        rw [hwrite] at h
        exact ih hflat.2 w (hflat.1.write hstart hwrite) h
  exact hfold _ Value.distinct_empty h

end Settings

end Stencil
