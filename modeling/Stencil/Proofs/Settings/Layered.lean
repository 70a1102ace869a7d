import Stencil.Proofs.Settings.Cache
import Stencil.Proofs.Value.Distinct

/-!
# What stands at a key

Layers are merged whole: each is laid over the ones before it, down to any depth. What stands at one
key of the merged object is told without the rest of it. The layers are visited in their order, and
each one changes the result of those before it by what it has at the key: an object goes into an
object, anything else takes its place, and a value that blocks the way to the key takes away what
stood there.
-/

namespace Stencil

theorem exists_keyParts (key : String) : ∃ k ks, keyParts key = k :: ks := by
  obtain ⟨part, parts, h⟩ := List.exists_cons_of_ne_nil (Text.splitOn_ne_nil '.' key.toList)
  exact ⟨String.ofList part, parts.map String.ofList, by rw [keyParts, h, List.map_cons]⟩

namespace Value

variable {v : Value} {fs base : Entries Value} {k : String} {ks path : List String}

/-! ## Paths -/

/-- Something other than an object stands on the way to the end of the path. -/
def IsBlocked (v : Value) (path : List String) : Prop :=
  ∃ front, front <+: path ∧ front ≠ path ∧ ∃ w, v.at? front = some w ∧ w.isObject = false

theorem at?_nil (v : Value) : v.at? [] = some v := rfl

theorem at?_object (fs : Entries Value) (k : String) (ks : List String) :
    (Value.object fs).at? (k :: ks) = (Entries.get? k fs).bind fun w => w.at? ks := rfl

/-- No path goes on below a plain value. -/
theorem at?_of_not_object (h : v.isObject = false) (k : String) (ks : List String) :
    v.at? (k :: ks) = none := by
  cases v with
  | object fs => cases h
  | null | bool | int | float | text | list => rfl

theorem not_isBlocked_nil (v : Value) : ¬ v.IsBlocked [] := by
  rintro ⟨front, hprefix, hne, -⟩
  exact hne (List.prefix_nil.1 hprefix)

theorem isBlocked_of_not_object (h : v.isObject = false) (k : String) (ks : List String) :
    v.IsBlocked (k :: ks) :=
  ⟨[], List.nil_prefix, by simp, v, rfl, h⟩

theorem isBlocked_object : (Value.object fs).IsBlocked (k :: ks) ↔
    ∃ w, Entries.get? k fs = some w ∧ w.IsBlocked ks := by
  constructor
  · rintro ⟨front, hprefix, hne, w, hw, hobject⟩
    obtain rfl | ⟨front, rfl, hfront⟩ := List.prefix_cons_iff.1 hprefix
    · cases hw
      cases hobject
    · obtain ⟨child, hchild, hw⟩ := Option.bind_eq_some_iff.1 hw
      exact ⟨child, hchild, front, hfront, fun heq => hne (by rw [heq]), w, hw, hobject⟩
  · rintro ⟨child, hchild, front, hfront, hne, w, hw, hobject⟩
    refine ⟨k :: front, (List.prefix_cons_inj k).2 hfront, by simpa using hne, w, ?_, hobject⟩
    rw [at?_object, hchild]
    exact hw

theorem not_isBlocked_empty (path : List String) : ¬ (Value.object []).IsBlocked path := by
  cases path with
  | nil => exact not_isBlocked_nil _
  | cons k ks => simp [isBlocked_object]

/-- Whether the way to the end of the path is blocked, name by name. -/
def blocks (v : Value) : List String → Bool
  | [] => false
  | k :: ks =>
    match v with
    | .object fs => match Entries.get? k fs with
      | some w => w.blocks ks
      | none => false
    | _ => true

/-- The test for a blocked path is exact. -/
theorem blocks_iff (v : Value) (path : List String) : v.blocks path = true ↔ v.IsBlocked path := by
  induction path generalizing v with
  | nil => exact iff_of_false (by simp [blocks]) (not_isBlocked_nil v)
  | cons k ks ih =>
    cases v with
    | object fs =>
      rw [isBlocked_object, blocks]
      cases hk : Entries.get? k fs with
      | none => simp
      | some w => simpa using ih w
    | null | bool | int | float | text | list =>
      exact iff_of_true rfl (isBlocked_of_not_object rfl k ks)

instance (v : Value) (path : List String) : Decidable (v.IsBlocked path) :=
  decidable_of_iff _ (blocks_iff v path)

/-! ## Laying over -/

/-- Of two objects laid over each other, the upper one decides, and the two are merged where both
hold an object. -/
theorem get?_overFields (h : (Entries.keys fs).Nodup) (base : Entries Value) (k : String) :
    Entries.get? k (overFields base fs) =
      ((Entries.get? k fs).map (laidOver (Entries.get? k base))).or (Entries.get? k base) := by
  induction fs generalizing base with
  | nil => rfl
  | cons f fs ih =>
    obtain ⟨k', v⟩ := f
    rw [Entries.keys, List.map_cons, List.nodup_cons] at h
    rw [overFields, ih h.2, Entries.get?]
    by_cases hk : k' = k
    · subst hk
      rw [if_pos rfl, Entries.get?_eq_none h.1, Entries.get?_set_self]
      rfl
    · rw [if_neg hk, Entries.get?_set_of_ne hk]

/-- Fields with new names are added behind the others. -/
theorem overFields_eq_append (h : (Entries.keys (base ++ fs)).Nodup)
    (hfs : ∀ f ∈ fs, laidOver none f.2 = f.2) : overFields base fs = base ++ fs := by
  induction fs generalizing base with
  | nil => simp [overFields]
  | cons f fs ih =>
    obtain ⟨k, v⟩ := f
    rw [List.forall_mem_cons] at hfs
    have hk : k ∉ Entries.keys base := by
      rw [Entries.keys, List.map_append] at h
      exact fun hk => (List.nodup_append.1 h).2.2 k hk k (by simp) rfl
    rw [overFields, Entries.get?_eq_none hk, hfs.1, Entries.set_of_not_mem hk, ih _ hfs.2,
      List.append_assoc]
    · rfl
    · rwa [List.append_assoc]

/-- What is laid over nothing is copied. -/
theorem laidOver_none (h : v.Distinct) : laidOver none v = v := by
  induction h with
  | object hnodup _ ih => exact congrArg Value.object (overFields_eq_append hnodup ih)
  | @other v h =>
    cases v with
    | object fs => cases h
    | null | bool | int | float | text | list => rfl

theorem overFields_nil (h : (Value.object fs).Distinct) : overFields [] fs = fs :=
  Value.object.inj (laidOver_none h)

theorem laidOver_of_not_object (h : v.isObject = false) (old : Option Value) :
    laidOver old v = v := by
  cases v with
  | object fs => cases h
  | null | bool | int | float | text | list => rfl

/-- An object goes into an object, and takes the place of anything else. -/
theorem laidOver_object (h : (Value.object fs).Distinct) (old : Option Value) :
    laidOver old (.object fs) = match old with
      | some (.object base) => .object (overFields base fs)
      | _ => .object fs := by
  have hcopied : Value.object (overFields [] fs) = .object fs := by rw [overFields_nil h]
  cases old with
  | none => exact hcopied
  | some v =>
    cases v with
    | object base => rfl
    | null | bool | int | float | text | list => exact hcopied

/-- Below a value only the fields of an object are seen. -/
theorem at?_fields (old : Option Value) (k : String) (ks : List String) :
    (Value.object ((old.map fields).getD [])).at? (k :: ks) = old.bind fun v => v.at? (k :: ks) := by
  cases old with
  | none => rfl
  | some v => cases v <;> rfl

end Value

namespace Layers

open Value

variable {layers : List Layer} {fs : Entries Value} {k : String}

/-- Two lists that are sorted by priority, with the same layers of each, are the same. -/
theorem eq_of_sorted {as bs : List Layer} (has : as.Pairwise fun a b => a.priority ≤ b.priority)
    (hbs : bs.Pairwise fun a b => a.priority ≤ b.priority)
    (h : ∀ p, as.filter (·.priority = p) = bs.filter (·.priority = p)) : as = bs := by
  induction as generalizing bs with
  | nil =>
    cases bs with
    | nil => rfl
    | cons b bs => simpa using h b.priority
  | cons a as ih =>
    cases bs with
    | nil => simpa using h a.priority
    | cons b bs =>
      rw [List.pairwise_cons] at has hbs
      have hle {a b : Layer} {as bs : List Layer} (hbs : ∀ l ∈ bs, b.priority ≤ l.priority)
          (h : (a :: as).filter (·.priority = a.priority) =
            (b :: bs).filter (·.priority = a.priority)) : b.priority ≤ a.priority := by
        have hmem : a ∈ (b :: bs).filter (·.priority = a.priority) := by
          rw [← h]
          simp
        obtain rfl | hmem := List.mem_cons.1 (List.mem_of_mem_filter hmem)
        · exact le_rfl
        · exact hbs a hmem
      have hpriority : a.priority = b.priority :=
        le_antisymm (hle has.1 (h b.priority).symm) (hle hbs.1 (h a.priority))
      have hhead := h a.priority
      rw [List.filter_cons_of_pos (by simp), List.filter_cons_of_pos (by simp [hpriority])] at hhead
      obtain ⟨rfl, htail⟩ := List.cons.inj hhead
      rw [ih has.2 hbs.2 fun p => ?_]
      by_cases hp : a.priority = p
      · exact hp ▸ htail
      · have hrest := h p
        rwa [List.filter_cons_of_neg (by simp [hp]), List.filter_cons_of_neg (by simp [hp])] at hrest

/-- There is one order of layers. -/
theorem IsOrdered.unique {as bs : List Layer} (has : IsOrdered layers as)
    (hbs : IsOrdered layers bs) : as = bs :=
  eq_of_sorted has.sorted hbs.sorted fun p => (has.kept p).trans (hbs.kept p).symm

/-- What a layer makes of the result `r` of the layers before it, by what it has at the path. -/
def visit (path : List String) (r : Option Value) (data : Entries Value) : Option Value :=
  match (Value.object data).at? path with
  | some (.object fs) =>
    match r with
    | some (.object base) => some (.object (overFields base fs))
    | _ => some (.object fs)
  | some v => some v
  | none => if (Value.object data).IsBlocked path then none else r

/-- The result after the last layer, absent at first. -/
def found (layers : List Layer) (key : String) : Option Value :=
  (inOrder layers).foldl (fun r l => visit (keyParts key) r l.data) none

theorem visit_congr {gs : Entries Value} (h : Entries.get? k fs = Entries.get? k gs)
    (ks : List String) (r : Option Value) : visit (k :: ks) r fs = visit (k :: ks) r gs := by
  rw [visit, visit, at?_object, at?_object, h]
  simp only [isBlocked_object, h]

/-- A layer without the key is passed over. -/
theorem visit_of_none (h : Entries.get? k fs = none) (ks : List String) (r : Option Value) :
    visit (k :: ks) r fs = r := by
  have hblocked : ¬ (Value.object fs).IsBlocked (k :: ks) := by
    rw [isBlocked_object, h]
    simp
  rw [visit, at?_object, h]
  exact if_neg hblocked

/-- A plain value in the way hides every layer below. -/
theorem visit_of_not_object {v : Value} (h : Entries.get? k fs = some v) (hv : v.isObject = false)
    (k' : String) (ks : List String) (r : Option Value) : visit (k :: k' :: ks) r fs = none := by
  have hblocked : (Value.object fs).IsBlocked (k :: k' :: ks) :=
    isBlocked_object.2 ⟨v, h, isBlocked_of_not_object hv k' ks⟩
  rw [visit, at?_object, h, Option.bind_some, at?_of_not_object hv]
  exact if_pos hblocked

/-- An object in the way is searched in its turn. -/
theorem visit_of_object {gs : Entries Value} (h : Entries.get? k fs = some (.object gs))
    (ks : List String) (r : Option Value) : visit (k :: ks) r fs = visit ks r gs := by
  have hblocked : (Value.object fs).IsBlocked (k :: ks) ↔ (Value.object gs).IsBlocked ks := by
    rw [isBlocked_object, h]
    simp
  rw [visit, visit, at?_object, h, Option.bind_some]
  simp only [hblocked]

/-- At the end of the path a layer gives its own value, laid over what was found below. -/
theorem visit_end (hfs : (Value.object fs).Distinct) {v : Value} (h : Entries.get? k fs = some v)
    (r : Option Value) : visit [k] r fs = some (laidOver r v) := by
  rw [visit, at?_object, h, Option.bind_some, at?_nil]
  cases v with
  | object gs =>
    rw [laidOver_object (hfs.get? h)]
    cases r with
    | none => rfl
    | some w => cases w <;> rfl
  | null | bool | int | float | text | list => rfl

/-- One layer: what stands at a path after it has been laid over the others. -/
theorem at?_overFields (h : (Value.object fs).Distinct) (base : Entries Value) (k : String)
    (ks : List String) : (Value.object (overFields base fs)).at? (k :: ks) =
      visit (k :: ks) ((Value.object base).at? (k :: ks)) fs := by
  induction ks generalizing k fs base with
  | nil =>
    rw [at?_object, at?_object, get?_overFields h.nodup]
    cases hk : Entries.get? k fs with
    | none => rw [visit_of_none hk]; rfl
    | some v =>
      have hold : ((Entries.get? k base).bind fun w => w.at? []) = Entries.get? k base := by
        cases Entries.get? k base <;> rfl
      rw [hold, visit_end h hk]
      rfl
  | cons k' ks ih =>
    rw [at?_object, at?_object, get?_overFields h.nodup]
    cases hk : Entries.get? k fs with
    | none => rw [visit_of_none hk]; rfl
    | some v =>
      rw [Option.map_some, Option.some_or, Option.bind_some]
      obtain hv | ⟨gs, rfl⟩ := isObject_cases v
      · rw [laidOver_of_not_object hv, at?_of_not_object hv, visit_of_not_object hk hv]
      · rw [laidOver, ih (h.get? hk), at?_fields, visit_of_object hk]

/-- What stands at a key is told by visiting the layers. -/
theorem at?_eq_found (h : ∀ l ∈ layers, (Value.object l.data).Distinct) (key : String) :
    at? layers key = found layers key := by
  obtain ⟨k, ks, hkey⟩ := exists_keyParts key
  have hfold : ∀ (ordered : List Layer) (base : Entries Value),
      (∀ l ∈ ordered, (Value.object l.data).Distinct) →
      (Value.object (ordered.foldl (fun base l => overFields base l.data) base)).at? (k :: ks) =
        ordered.foldl (fun r l => visit (k :: ks) r l.data) ((Value.object base).at? (k :: ks)) := by
    intro ordered
    induction ordered with
    | nil => exact fun base _ => rfl
    | cons l ordered ih =>
      intro base hordered
      rw [List.forall_mem_cons] at hordered
      rw [List.foldl_cons, List.foldl_cons, ih _ hordered.2, at?_overFields hordered.1]
  rw [at?, merged, found, hkey]
  exact hfold _ [] fun l hl => h l (List.mem_mergeSort.1 hl)

end Layers

namespace Settings

variable {s : Settings}

def afterCalls (s : Settings) (calls : List Call) : Settings :=
  calls.foldl (fun s c => (s.call c).2) s

/-- Settings stay sound under every sequence of calls. -/
theorem Sound.afterCalls (h : s.Sound) (calls : List Call) : (s.afterCalls calls).Sound := by
  induction calls generalizing s with
  | nil => exact h
  | cons c calls ih => exact ih (h.call c).2.1

/-- Sound settings find what a visit of the layers in order finds. -/
theorem Sound.get?_eq_found (h : s.Sound) (hdata : ∀ l ∈ s.layers, (Value.object l.data).Distinct)
    (key : String) : (s.get? key).1 = Layers.found s.layers key := by
  rw [(h.get? key).1, Layers.at?_eq_found hdata]

theorem Sound.get_eq_getD_found (h : s.Sound)
    (hdata : ∀ l ∈ s.layers, (Value.object l.data).Distinct) (key : String) (default : Value) :
    (s.get key default).1 = (Layers.found s.layers key).getD default :=
  congrArg (Option.getD · default) (h.get?_eq_found hdata key)

/-- A look-up gives the result of visiting the layers, in the order of their priorities and then of
their addition, and its default exactly if there is none. The layers are any, and any calls may have
changed them. -/
theorem get_eq_found (layers : List Layer) (calls : List Call) {s : Settings}
    (hs : s = (ofLayers layers).afterCalls calls)
    (hdata : ∀ l ∈ s.layers, (Value.object l.data).Distinct) (key : String) (default : Value) :
    (s.get? key).1 = Layers.found s.layers key ∧
      (s.get key default).1 = (Layers.found s.layers key).getD default ∧
      Layers.IsOrdered s.layers (Layers.inOrder s.layers) := by
  have hsound : s.Sound := hs ▸ (sound_of_isStale rfl).afterCalls calls
  exact ⟨hsound.get?_eq_found hdata key, hsound.get_eq_getD_found hdata key default,
    Layers.isOrdered_inOrder s.layers⟩

/-- A text hides an object of lower priority, and objects of higher priority are joined anew. -/
theorem get_eq_found_hidden :
    let layers : List Layer := [
      ⟨"near", [("a", .object [("c", .object [("e", .int 3)])])], 7⟩,
      ⟨"far", [("a", .object [("b", .null), ("c", .object [("d", .int 2)])])], 5⟩,
      ⟨"hiding", [("a", .text "x")], 5⟩, ⟨"base", [("a", .object [("c", .int 0)])], 0⟩,
      ⟨"middle", [("a", .object [("c", .object [("d", .int 1)])])], 6⟩]
    let s := (ofLayers layers).afterCalls [.get "a.c" .null, .set "a.f" (.bool true)]
    (s.get "a.c" .null).1 = .object [("d", .int 1), ("e", .int 3)] ∧
      (s.get "a.b" (.int 9)).1 = .int 9 := by
  intro layers s
  have hlayers : s.layers = layers ++ [⟨"runtime", [("a", .object [("f", .bool true)])], 1000⟩] := by
    change ((ofLayers layers).afterCalls [.get "a.c" .null, .set "a.f" (.bool true)]).layers = _
    cbv
  have hdata : ∀ l ∈ s.layers, (Value.object l.data).Distinct := by
    rw [hlayers]
    decide +kernel
  constructor
  · rw [(get_eq_found layers _ rfl hdata _ _).2.1, hlayers]
    cbv
  · rw [(get_eq_found layers _ rfl hdata _ _).2.1, hlayers]
    cbv

end Settings

end Stencil
