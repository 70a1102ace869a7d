import Stencil.Proofs.Settings.Runtime

/-!
# Variables in any order

Every variable of the environment sets one key, and the values are written into a nested object, one
after the other. If no key leads to another one or goes on from it, no write meets what another has
written, so the object holds each value at its key and nothing else, in whatever order the variables
come. `Value.Holds` says this without the order, and all answers follow from it.

Only the order in which an object lists its fields depends on the order of the variables. Answers are
therefore compared by `Value.Alike`, which looks along all paths.
-/

namespace Stencil

namespace Value

variable {v w new : Value} {path path' rest : List String}

/-! ## Values that are equal up to order -/

/-- The value without what stands inside an object. -/
def surface : Value → Value
  | .object _ => .object []
  | v => v

/-- At every path there is an object in both, the same other value in both, or nothing in either. So
the values are equal up to the order of the fields of objects. -/
def Alike (v w : Value) : Prop :=
  ∀ path, (v.at? path).map surface = (w.at? path).map surface

theorem Alike.refl (v : Value) : v.Alike v :=
  fun _ => rfl

theorem surface_of_not_object (h : v.isObject = false) : v.surface = v := by
  cases v with
  | object fs => cases h
  | null | bool | int | float | text | list => rfl

/-- Values that are no objects are alike only if they are equal. -/
theorem Alike.eq_of_not_object (h : v.Alike w) (hv : v.isObject = false) : v = w := by
  have hroot : v.surface = w.surface := Option.some.inj (h [])
  rw [surface_of_not_object hv] at hroot
  cases w with
  | object fs =>
    rw [hroot] at hv
    cases hv
  | null | bool | int | float | text | list => exact hroot

/-- A path is followed in two parts. -/
theorem at?_append (v : Value) (path rest : List String) :
    v.at? (path ++ rest) = (v.at? path).bind fun w => w.at? rest := by
  induction path generalizing v with
  | nil => rfl
  | cons k ks ih =>
    change (v.field? k).bind (fun w => w.at? (ks ++ rest)) =
      ((v.field? k).bind fun w => w.at? ks).bind fun w => w.at? rest
    rw [Option.bind_assoc]
    exact congrArg (Option.bind (v.field? k)) (funext ih)

/-- What stands at a path of alike values is alike, in place of a default too. -/
theorem Alike.getD_at? (h : v.Alike w) (path : List String) (default : Value) :
    ((v.at? path).getD default).Alike ((w.at? path).getD default) := by
  have hroot := h path
  cases hv : v.at? path with
  | none =>
    rw [hv] at hroot
    rw [Option.map_eq_none_iff.1 hroot.symm]
    exact .refl default
  | some a =>
    obtain ⟨b, hw⟩ : ∃ b, w.at? path = some b := by
      rw [hv] at hroot
      obtain ⟨b, hw, -⟩ := Option.map_eq_some_iff.1 hroot.symm
      exact ⟨b, hw⟩
    intro rest
    have hrest := h (path ++ rest)
    rw [at?_append, at?_append, hv, hw] at hrest
    rw [hw]
    exact hrest

theorem map_surface_eq_some_iff {x : Option Value} (hv : v.isObject = false) :
    x.map surface = some v ↔ x = some v := by
  constructor
  · intro h
    obtain ⟨w, rfl, rfl⟩ := Option.map_eq_some_iff.1 h
    obtain hw | ⟨fs, rfl⟩ := isObject_cases w
    · rw [surface_of_not_object hw]
    · cases hv
  · rintro rfl
    rw [Option.map_some, surface_of_not_object hv]

/-- Values with the same surface along every path block the same paths. -/
theorem Alike.isBlocked (h : v.Alike w) (hblocked : v.IsBlocked path) : w.IsBlocked path := by
  obtain ⟨front, hprefix, hne, a, ha, hobject⟩ := hblocked
  refine ⟨front, hprefix, hne, a, ?_, hobject⟩
  rw [← map_surface_eq_some_iff hobject, ← h front, map_surface_eq_some_iff hobject, ha]

theorem Alike.symm (h : v.Alike w) : w.Alike v :=
  fun path => (h path).symm

theorem Alike.isBlocked_iff (h : v.Alike w) (path : List String) :
    v.IsBlocked path ↔ w.IsBlocked path :=
  ⟨h.isBlocked, h.symm.isBlocked⟩

/-! ## What a write does along other paths -/

/-- Above the path of a write there are objects. -/
theorem exists_at?_write (h : write new path v = .ok w) (hpath : path' <+: path)
    (hne : path' ≠ path) : ∃ fs, w.at? path' = some (.object fs) := by
  induction path generalizing v w path' with
  | nil => exact absurd (List.prefix_nil.1 hpath) hne
  | cons k ks ih =>
    obtain ⟨fs, rfl⟩ := isObject_of_write h
    obtain ⟨child, rfl, hchild⟩ := exists_write h
    obtain rfl | ⟨front, rfl, hfront⟩ := List.prefix_cons_iff.1 hpath
    · exact ⟨_, rfl⟩
    · rw [at?_object, Entries.get?_set_self]
      exact ih hchild hfront fun heq => hne (congrArg (k :: ·) heq)

/-- Beside its path a write changes nothing. -/
theorem at?_write_of_beside (h : write new path v = .ok w) (hpath : ¬ path <+: path')
    (hpath' : ¬ path' <+: path) : w.at? path' = v.at? path' := by
  induction path generalizing v w path' with
  | nil => exact absurd List.nil_prefix hpath
  | cons k ks ih =>
    obtain ⟨fs, rfl⟩ := isObject_of_write h
    obtain ⟨child, rfl, hchild⟩ := exists_write h
    cases path' with
    | nil => exact absurd List.nil_prefix hpath'
    | cons k' ks' =>
      rw [at?_object, at?_object]
      by_cases hk : k = k'
      · subst hk
        rw [List.prefix_cons_inj] at hpath hpath'
        rw [Entries.get?_set_self, Option.bind_some, ih hchild hpath hpath']
        cases Entries.get? k fs with
        | some old => rfl
        | none =>
          cases ks' with
          | nil => exact absurd List.nil_prefix hpath'
          | cons k'' ks' => rfl
      · rw [Entries.get?_set_of_ne hk]

/-! ## Objects that hold values -/

/-- Neither path goes on from the other. -/
def Beside (path path' : List String) : Prop :=
  ¬ path <+: path' ∧ ¬ path' <+: path

theorem Beside.symm (h : Beside path path') : Beside path' path :=
  ⟨h.2, h.1⟩

theorem Beside.append (h : Beside path path') (rest : List String) : Beside path (path' ++ rest) := by
  constructor
  · intro hprefix
    obtain hle | hle := List.prefix_or_prefix_of_prefix hprefix (List.prefix_append path' rest)
    · exact h.1 hle
    · exact h.2 hle
  · exact fun hprefix => h.2 ((List.prefix_append path' rest).trans hprefix)

/-- The value is an object that is made of these values at their paths and of nothing else. -/
structure Holds (w : Value) (parts : List (List String × Value)) : Prop where
  root : ∃ fs, w = .object fs
  inside : ∀ p ∈ parts, ∀ rest, w.at? (p.1 ++ rest) = p.2.at? rest
  above : ∀ p ∈ parts, ∀ path, path <+: p.1 → path ≠ p.1 → ∃ fs, w.at? path = some (.object fs)
  beside : ∀ path, path ≠ [] → (∀ p ∈ parts, Beside p.1 path) → w.at? path = none

variable {parts parts' : List (List String × Value)} {p : List String × Value}

theorem holds_nil : (Value.object []).Holds [] where
  root := ⟨[], rfl⟩
  inside _ hp := absurd hp List.not_mem_nil
  above _ hp := absurd hp List.not_mem_nil
  beside path hne _ := by
    obtain ⟨k, ks, rfl⟩ := List.exists_cons_of_ne_nil hne
    rfl

/-- A path is the root, goes on from one of the paths, leads to one of them, or is beside all. -/
theorem path_cases (parts : List (List String × Value)) (path : List String) :
    path = [] ∨ (∃ p ∈ parts, ∃ rest, path = p.1 ++ rest) ∨
      (∃ p ∈ parts, path <+: p.1 ∧ path ≠ p.1) ∨ ∀ p ∈ parts, Beside p.1 path := by
  by_cases hinside : ∃ p ∈ parts, p.1 <+: path
  · obtain ⟨p, hp, rest, rfl⟩ := hinside
    exact .inr (.inl ⟨p, hp, rest, rfl⟩)
  · by_cases habove : ∃ p ∈ parts, path <+: p.1
    · obtain ⟨p, hp, hpath⟩ := habove
      exact .inr (.inr (.inl ⟨p, hp, hpath, fun heq => hinside ⟨p, hp, heq ▸ List.prefix_rfl⟩⟩))
    · exact .inr (.inr (.inr fun p hp => ⟨fun h => hinside ⟨p, hp, h⟩, fun h => habove ⟨p, hp, h⟩⟩))

/-- What an object holds determines it, up to order. -/
theorem Holds.alike (h : v.Holds parts) (h' : w.Holds parts') (hsame : ∀ p, p ∈ parts ↔ p ∈ parts') :
    v.Alike w := by
  intro path
  obtain rfl | ⟨p, hp, rest, rfl⟩ | ⟨p, hp, hpath, hne⟩ | hbeside := path_cases parts path
  · obtain ⟨fs, rfl⟩ := h.root
    obtain ⟨gs, rfl⟩ := h'.root
    rfl
  · rw [h.inside p hp, h'.inside p ((hsame p).1 hp)]
  · obtain ⟨fs, hv⟩ := h.above p hp path hpath hne
    obtain ⟨gs, hw⟩ := h'.above p ((hsame p).1 hp) path hpath hne
    rw [hv, hw]
    rfl
  · by_cases hroot : path = []
    · subst hroot
      obtain ⟨fs, rfl⟩ := h.root
      obtain ⟨gs, rfl⟩ := h'.root
      rfl
    · rw [h.beside path hroot hbeside,
        h'.beside path hroot fun p hp => hbeside p ((hsame p).2 hp)]

/-- Nothing blocks the way to a path beside all others. -/
theorem Holds.not_isBlocked (h : w.Holds parts) (hbeside : ∀ p ∈ parts, Beside p.1 path) :
    ¬ w.IsBlocked path := by
  rintro ⟨front, hprefix, -, a, ha, hobject⟩
  have hnone {fs : Entries Value} (hfront : w.at? front = some (.object fs)) : False := by
    cases ha.symm.trans hfront
    cases hobject
  obtain rfl | ⟨p, hp, rest, rfl⟩ | ⟨p, hp, hpath, hne⟩ | hfront := path_cases parts front
  · obtain ⟨fs, rfl⟩ := h.root
    exact hnone rfl
  · exact (hbeside p hp).1 ((List.prefix_append p.1 rest).trans hprefix)
  · obtain ⟨fs, hfs⟩ := h.above p hp front hpath hne
    exact hnone hfs
  · by_cases hroot : front = []
    · subst hroot
      obtain ⟨fs, rfl⟩ := h.root
      exact hnone rfl
    · rw [h.beside front hroot hfront] at ha
      cases ha

/-- One more value is written beside the others. The way to an earlier value may be a part of the
way to the new one. -/
theorem Holds.exists_write (h : w.Holds parts) (hroot : p.1 ≠ [])
    (hbeside : ∀ q ∈ parts, Beside q.1 p.1) :
    ∃ w', write p.2 p.1 w = .ok w' ∧ w'.Holds (parts ++ [p]) := by
  obtain ⟨w', hw⟩ : ∃ w', write p.2 p.1 w = .ok w' := by
    cases hw : write p.2 p.1 w with
    | ok w' => exact ⟨w', rfl⟩
    | error cause =>
      exact absurd ((write_eq_error_iff _ _ _).1 ⟨cause, hw⟩) (h.not_isBlocked hbeside)
  have hkept {path : List String} (hpath : Beside p.1 path) : w'.at? path = w.at? path :=
    at?_write_of_beside hw hpath.1 hpath.2
  refine ⟨w', hw, ⟨?_, fun q hq rest => ?_, fun q hq path hpath hne => ?_, fun path hne hpath => ?_⟩⟩
  · obtain ⟨fs, hfs⟩ := exists_at?_write hw List.nil_prefix hroot.symm
    exact ⟨fs, Option.some.inj hfs⟩
  · obtain hq | hq := List.mem_append.1 hq
    · rw [hkept ((hbeside q hq).symm.append rest), h.inside q hq]
    · obtain rfl := List.mem_singleton.1 hq
      rw [at?_append, at?_write hw, Option.bind_some]
  · obtain hq | hq := List.mem_append.1 hq
    · by_cases hnew : path <+: p.1
      · refine exists_at?_write hw hnew ?_
        rintro rfl
        exact (hbeside q hq).2 hpath
      · rw [hkept ⟨fun hp => (hbeside q hq).2 (hp.trans hpath), hnew⟩]
        exact h.above q hq path hpath hne
    · obtain rfl := List.mem_singleton.1 hq
      exact exists_at?_write hw hpath hne
  · rw [List.forall_mem_append, List.forall_mem_singleton] at hpath
    rw [hkept hpath.2, h.beside path hne hpath.1]

end Value

namespace Layers

open Value

/-! ## A layer that holds values -/

variable {fs gs : Entries Value} {path : List String} {v : Value}

/-- What is seen of a result at a path, by what is seen of the layer. -/
theorem map_surface_visit (path : List String) (r : Option Value) (fs : Entries Value) :
    (visit path r fs).map surface = (((Value.object fs).at? path).map surface).or
      (if (Value.object fs).IsBlocked path then none else r.map surface) := by
  rw [visit]
  split
  · rename_i inner hinner
    rw [hinner]
    split <;> rfl
  · rename_i v hv hvalue
    rw [hvalue]
    rfl
  · rename_i hnone
    rw [hnone]
    split <;> rfl

/-- Layers that are equal up to order give results that are. -/
theorem visit_alike (h : (Value.object fs).Alike (.object gs)) (path : List String)
    (r : Option Value) : (visit path r fs).map surface = (visit path r gs).map surface := by
  simp only [map_surface_visit, h path, h.isBlocked_iff path]

/-- Objects with the same surface can be laid over another in place of each other. -/
theorem overFields_alike (hfs : (Value.object fs).Distinct) (hgs : (Value.object gs).Distinct)
    (h : (Value.object fs).Alike (.object gs)) (base : Entries Value) :
    (Value.object (overFields base fs)).Alike (.object (overFields base gs)) := by
  intro path
  cases path with
  | nil => rfl
  | cons k ks => rw [at?_overFields hfs, at?_overFields hgs, visit_alike h]

/-- A layer that holds a plain value under the path gives it. -/
theorem visit_of_at? (h : (Value.object fs).at? path = some v) (hv : v.isObject = false)
    (r : Option Value) : visit path r fs = some v := by
  rw [visit, h]
  cases v with
  | object gs => cases hv
  | null | bool | int | float | text | list => rfl

/-- A layer that neither holds nor blocks the path is passed over. -/
theorem visit_of_absent (h : (Value.object fs).at? path = none)
    (hblocked : ¬ (Value.object fs).IsBlocked path) (r : Option Value) : visit path r fs = r := by
  rw [visit, h]
  exact if_neg hblocked

end Layers

namespace Settings

open Value

variable {json : Json.Library} {s : Settings} {env : Environment} {flat : Entries Value}

/-! ## Nested objects -/

def pathed (flat : Entries Value) : List (List String × Value) :=
  flat.map fun p => (keyParts p.1, p.2)

/-- Keys that are beside each other give an object that holds their values. -/
theorem exists_nested (hbeside : ((pathed flat).map Prod.fst).Pairwise Beside) :
    ∃ v, nested flat = .ok v ∧ v.Holds (pathed flat) := by
  have hfold : ∀ (parts : List (List String × Value)) (w : Value), w.Holds parts →
      ((parts ++ pathed flat).map Prod.fst).Pairwise Beside →
      ∃ v, flat.foldlM (fun v p => Value.write p.2 (keyParts p.1) v) w = .ok v ∧
        v.Holds (parts ++ pathed flat) := by
    clear hbeside
    induction flat with
    | nil =>
      intro parts w hw _
      exact ⟨w, rfl, by rwa [pathed, List.map_nil, List.append_nil]⟩
    | cons p flat ih =>
      intro parts w hw hpairwise
      have happend : parts ++ pathed (p :: flat) = parts ++ [(keyParts p.1, p.2)] ++ pathed flat := by
        rw [List.append_assoc]
        rfl
      have hnew : ∀ q ∈ parts, Beside q.1 (keyParts p.1) := by
        rw [List.map_append, List.pairwise_append] at hpairwise
        exact fun q hq => hpairwise.2.2 q.1 (List.mem_map_of_mem hq) _ List.mem_cons_self
      have hroot : keyParts p.1 ≠ [] := by
        obtain ⟨k, ks, hkey⟩ := exists_keyParts p.1
        rw [hkey]
        exact List.cons_ne_nil k ks
      obtain ⟨w', hwrite, hholds⟩ := hw.exists_write (p := (keyParts p.1, p.2)) hroot hnew
      rw [happend] at hpairwise ⊢
      rw [List.foldlM_cons, hwrite]
      exact ih _ w' hholds hpairwise
  exact hfold [] (.object []) holds_nil hbeside

/-! ## Settings with an environment -/

/-- The call asks for settings and changes none. -/
def Call.IsQuestion : Call → Prop
  | .add _ | .load _ _ _ | .set _ _ => False
  | _ => True

theorem Call.IsQuestion.changed {c : Call} (h : c.IsQuestion) (layers : List Layer) :
    Layers.changed layers c = .ok layers := by
  cases c with
  | add | load | set => cases h
  | get | getInt | getBool | getList | has | getSection | all => rfl

/-- Questions leave the layers alone. -/
theorem Sound.layers_afterCalls (h : s.Sound) {asked : List Call}
    (hasked : ∀ c ∈ asked, c.IsQuestion) : (s.afterCalls asked).layers = s.layers := by
  induction asked generalizing s with
  | nil => rfl
  | cons c asked ih =>
    rw [List.forall_mem_cons] at hasked
    obtain ⟨-, hsound, hlayers⟩ := h.call c
    calc
      ((s.call c).2.afterCalls asked).layers = (s.call c).2.layers := ih hsound hasked.2
      _ = Layers.after s.layers c := hlayers
      _ = s.layers := by rw [Layers.after, hasked.1.changed]

/-- Whatever else is asked before, a look-up of the key gives the value. -/
def Gives (s : Settings) (key : String) (default v : Value) : Prop :=
  ∀ asked : List Call, (∀ c ∈ asked, c.IsQuestion) → ((s.afterCalls asked).get key default).1 = v

/-- Sound settings give what their layers hold, and otherwise the default. -/
theorem Sound.gives (h : s.Sound) {key : String} {found : Option Value}
    (hfound : Layers.at? s.layers key = found) (default : Value) :
    s.Gives key default (found.getD default) := by
  intro asked hasked
  rw [← hfound, ← h.layers_afterCalls hasked]
  exact congrArg (Option.getD · default) ((h.afterCalls asked).get? key).1

def variablePaths (env : Environment) : List (List String) :=
  env.filterMap fun v => (variableKey? v.1).map keyParts

def variableParts (json : Json.Library) (env : Environment) : List (List String × Value) :=
  env.filterMap fun v => (variableKey? v.1).map fun key => (keyParts key, variableValue json v.2)

/-- The paths set by an environment are those of its variables with the prefix. -/
theorem map_fst_variableParts (json : Json.Library) (env : Environment) :
    (variableParts json env).map Prod.fst = variablePaths env := by
  rw [variableParts, List.map_filterMap, variablePaths]
  simp only [Option.map_map, Function.comp_def]

/-- Variables with different paths set different keys. -/
theorem pathed_overrides (h : (variablePaths env).Nodup) :
    pathed (overrides json env) = variableParts json env := by
  have hparts : pathed (env.filterMap fun v => (variableKey? v.1).map fun k =>
      (k, variableValue json v.2)) = variableParts json env := by
    rw [pathed, List.map_filterMap, variableParts]
    simp only [Option.map_map, Function.comp_def]
  rw [overrides, Entries.ofPairs_of_nodup, hparts]
  apply List.Nodup.of_map keyParts
  have hpaths := congrArg (List.map Prod.fst) hparts
  rw [map_fst_variableParts, pathed, List.map_map] at hpaths
  rw [List.map_map]
  exact hpaths ▸ h

/-- The layer of the environment lies over the defaults. -/
theorem merged_environment (data : Entries Value) :
    Layers.merged [defaultLayer, ⟨"env_vars", data, 100⟩] =
      overFields (Layers.merged [defaultLayer]) data := by
  have hsorted : Layers.inOrder [defaultLayer, ⟨"env_vars", data, 100⟩] =
      [defaultLayer, ⟨"env_vars", data, 100⟩] := by
    apply List.mergeSort_of_pairwise
    simp [defaultLayer]
  have hone : Layers.inOrder [defaultLayer] = [defaultLayer] := List.mergeSort_singleton _
  rw [Layers.merged, hsorted, Layers.merged, hone]
  rfl

/-- Variables whose paths are beside each other give settings: an object with what they set lies
over the defaults. -/
theorem exists_ofEnvironment (hjson : json.ReadsDistinct) (h : (variablePaths env).Nodup)
    (hbeside : (variablePaths env).Pairwise Beside) :
    ∃ s fs, ofEnvironment json env = .ok s ∧ s.Sound ∧ (Value.object fs).Distinct ∧
      (Value.object fs).Holds (variableParts json env) ∧
      Layers.merged s.layers = overFields (Layers.merged default.layers) fs := by
  rw [← map_fst_variableParts json, ← pathed_overrides h] at hbeside
  obtain ⟨v, hnested, hholds⟩ := exists_nested hbeside
  rw [pathed_overrides h] at hholds
  obtain ⟨fs, rfl⟩ := hholds.root
  have hdistinct := distinct_nested (distinct_overrides hjson env).forall_mem hnested
  by_cases hempty : (overrides json env).isEmpty = true
  · rw [List.isEmpty_iff.1 hempty] at hnested
    cases hnested
    refine ⟨default, [], ?_, sound_of_isStale rfl, hdistinct, hholds, rfl⟩
    rw [ofEnvironment, if_pos hempty]
  · refine ⟨default.add ⟨"env_vars", fs, 100⟩, fs, ?_, sound_of_isStale rfl, hdistinct, hholds,
      merged_environment fs⟩
    rw [ofEnvironment, if_neg hempty, hnested]
    rfl

/-- What stands at a key is told by what the environment has there and by the default. -/
theorem at?_environment {fs : Entries Value} (hfs : (Value.object fs).Distinct)
    (hmerged : Layers.merged s.layers = overFields (Layers.merged default.layers) fs)
    (key : String) : Layers.at? s.layers key =
      Layers.visit (keyParts key) (Layers.at? default.layers key) fs := by
  obtain ⟨k, ks, hkey⟩ := exists_keyParts key
  rw [Layers.at?, hmerged, hkey, Layers.at?_overFields hfs, Layers.at?, hkey]

/-- Variables whose paths are different, and none of which leads to another one, give settings, and
they give the same answers in any order, up to the order of fields. Each value that is no object is
found at its key, and a key beside all paths has its default. -/
theorem gives_variables (hjson : json.ReadsDistinct) (hnodup : (variablePaths env).Nodup)
    (hfree : ∀ p ∈ variablePaths env, ∀ q ∈ variablePaths env, p <+: q → p = q) :
    ∃ s, ofEnvironment json env = .ok s ∧
      (∀ env', env.Perm env' → ∃ s', ofEnvironment json env' = .ok s' ∧
        ∀ key default, ∃ v v', s.Gives key default v ∧ s'.Gives key default v' ∧ v.Alike v') ∧
      (∀ name text key, (name, text) ∈ env → variableKey? name = some key →
        (variableValue json text).isObject = false →
        ∀ default, s.Gives key default (variableValue json text)) ∧
      ∀ key, (∀ path ∈ variablePaths env,
          ¬ path <+: keyParts key ∧ ¬ keyParts key <+: path) →
        ∀ default, s.Gives key default (Settings.default.get key default).1 := by
  have hpairwise {env : Environment} (hnodup : (variablePaths env).Nodup)
      (hfree : ∀ p ∈ variablePaths env, ∀ q ∈ variablePaths env, p <+: q → p = q) :
      (variablePaths env).Pairwise Beside :=
    hnodup.pairwise_of_forall_ne fun p hp q hq hne =>
      ⟨fun h => hne (hfree p hp q hq h), fun h => hne (hfree q hq p hp h).symm⟩
  obtain ⟨s, fs, hs, hsound, hdistinct, hholds, hmerged⟩ :=
    exists_ofEnvironment hjson hnodup (hpairwise hnodup hfree)
  refine ⟨s, hs, fun env' hperm => ?_, fun name text key hmem hkey hobject default => ?_,
    fun key hbeside default => ?_⟩
  · have hpaths : (variablePaths env).Perm (variablePaths env') := hperm.filterMap _
    have hnodup' := hpaths.nodup_iff.1 hnodup
    obtain ⟨s', gs, hs', hsound', hdistinct', hholds', hmerged'⟩ :=
      exists_ofEnvironment hjson hnodup' (hpairwise hnodup' fun p hp q hq =>
        hfree p (hpaths.mem_iff.2 hp) q (hpaths.mem_iff.2 hq))
    refine ⟨s', hs', fun key default => ⟨_, _, hsound.gives rfl default, hsound'.gives rfl default,
      ?_⟩⟩
    have halike := hholds.alike hholds' fun p => (hperm.filterMap _).mem_iff
    rw [Layers.at?, Layers.at?, hmerged, hmerged']
    exact (Layers.overFields_alike hdistinct hdistinct' halike _).getD_at? _ default
  · have hpart : (keyParts key, variableValue json text) ∈ variableParts json env :=
      List.mem_filterMap.2 ⟨(name, text), hmem, by rw [hkey]; rfl⟩
    have hat := hholds.inside _ hpart []
    rw [List.append_nil] at hat
    have hfound := at?_environment hdistinct hmerged key
    exact hsound.gives (hfound.trans (Layers.visit_of_at? hat hobject _)) default
  · have hparts : ∀ p ∈ variableParts json env, Beside p.1 (keyParts key) := fun p hp =>
      hbeside p.1 (map_fst_variableParts json env ▸ List.mem_map_of_mem hp)
    obtain ⟨k, ks, hkey⟩ := exists_keyParts key
    have hroot : keyParts key ≠ [] := hkey ▸ List.cons_ne_nil k ks
    have hkept : Layers.at? s.layers key = Layers.at? Settings.default.layers key := by
      rw [at?_environment hdistinct hmerged]
      exact Layers.visit_of_absent (hholds.beside _ hroot hparts) (hholds.not_isBlocked hparts) _
    have hdefault : Settings.default.Sound := sound_of_isStale rfl
    have hget : (Settings.default.get key default).1 =
        (Layers.at? Settings.default.layers key).getD default :=
      congrArg (Option.getD · default) (hdefault.get? key).1
    rw [hget]
    exact hsound.gives hkept default

/-- Two settings and an object, among other variables. -/
theorem gives_variables_swapped :
    let env : Environment := [("TESSERA_PARSER_MINIFY", "no"), ("HOME", "/root"),
      ("TESSERA_CACHE", "\x7b\"size\": 3\x7d"), ("TESSERA_LOGGING_LEVEL.ROOT", " 10 ")]
    ∃ s, ofEnvironment Json.strict env = .ok s ∧
      (∃ s', ofEnvironment Json.strict env.reverse = .ok s' ∧
        ∀ default, s'.Gives "parser.minify" default (.bool false)) ∧
      (∀ default, s.Gives "logging.level.root" default (.int 10)) ∧
      ∀ default, s.Gives "logging.format" default (.text "text") := by
  intro env
  have hnodup : (variablePaths env).Nodup := by decide +kernel
  obtain ⟨s, hs, horder, hvalues, hbeside⟩ :=
    gives_variables Json.strict_readsDistinct hnodup (by decide +kernel)
  obtain ⟨s', hs', halike⟩ := horder env.reverse (List.reverse_perm env).symm
  have hminify : variableValue Json.strict "no" = .bool false := rfl
  have hlevel : variableValue Json.strict " 10 " = .int 10 := rfl
  refine ⟨s, hs, ⟨s', hs', fun default => ?_⟩, fun default => ?_, fun default => ?_⟩
  · have hgives := hvalues "TESSERA_PARSER_MINIFY" "no" "parser.minify" (.head _) (by decide +kernel)
      (by rw [hminify]; rfl) default
    obtain ⟨v, v', hv, hv', hsame⟩ := halike "parser.minify" default
    obtain rfl : variableValue Json.strict "no" = v := (hgives [] (List.forall_mem_nil _)).symm.trans
      (hv [] (List.forall_mem_nil _))
    obtain rfl : Value.bool false = v' := hsame.eq_of_not_object rfl
    exact hv'
  · rw [← hlevel]
    exact hvalues "TESSERA_LOGGING_LEVEL.ROOT" " 10 " _ (by simp [env]) (by decide +kernel)
      (by rw [hlevel]; rfl) default
  · have hformat : (Settings.default.get "logging.format" default).1 = .text "text" := by cbv
    rw [← hformat]
    exact hbeside "logging.format" (by decide +kernel) default

end Settings

end Stencil
