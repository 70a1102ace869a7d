import Mathlib.Data.List.Permutation
import Mathlib.Data.List.Sort
import Stencil.Json.Writing
import Stencil.Settings.Sources

/-!
# Settings answer as if nothing were kept

Settings keep the merged object and the answers that they have given. `Settings.answers` is what a
series of calls gets from them, and `Layers.answers` is what it gets from the layers alone, merged
anew for every call. The two are equal for every series of calls, also where some of them fail.

What carries this is `Settings.Sound`: as long as the merged object is not stale it is the one of
the present layers, and every answer that is kept is the one that these layers give.
-/

namespace Stencil

/-! ## The order of layers -/

namespace Layers

/-- The layers in the order of their priorities. Those of one priority follow each other as they
were added. -/
structure IsOrdered (layers ordered : List Layer) : Prop where
  sorted : ordered.Pairwise fun a b => a.priority ≤ b.priority
  kept : ∀ p, ordered.filter (·.priority = p) = layers.filter (·.priority = p)

/-- Sorting orders the layers by priority, and those of one priority by age. The layers of one
priority are sorted as they are, so sorting keeps their order. -/
theorem isOrdered_inOrder (layers : List Layer) : IsOrdered layers (inOrder layers) := by
  have htrans (a b c : Layer) (hab : decide (a.priority ≤ b.priority) = true)
      (hbc : decide (b.priority ≤ c.priority) = true) :
      decide (a.priority ≤ c.priority) = true := by
    rw [decide_eq_true_eq] at *
    exact hab.trans hbc
  have htotal (a b : Layer) :
      (decide (a.priority ≤ b.priority) || decide (b.priority ≤ a.priority)) = true := by
    simpa using le_total a.priority b.priority
  constructor
  · exact (List.pairwise_mergeSort htrans htotal layers).imp of_decide_eq_true
  · intro p
    have hsorted : (layers.filter (·.priority = p)).Pairwise
        fun a b => decide (a.priority ≤ b.priority) = true := by
      rw [List.pairwise_filter]
      refine List.pairwise_of_forall fun a b ha hb => ?_
      simp_all
    have hsublist := (List.sublist_mergeSort htrans htotal hsorted List.filter_sublist).filter
      (fun l => decide (l.priority = p))
    rw [List.filter_filter] at hsublist
    simp only [Bool.and_self] at hsublist
    have hperm := (List.mergeSort_perm layers
      fun a b => decide (a.priority ≤ b.priority)).filter fun l => decide (l.priority = p)
    exact (hsublist.eq_of_length hperm.length_eq.symm).symm

end Layers

/-! ## Calls -/

/-- What settings are asked or told. -/
inductive Settings.Call where
  | add (l : Layer)
  | load (json : Json.Library) (files : Files) (path : String)
  | set (key : String) (v : Value)
  | get (key : String) (default : Value)
  | getInt (key : String) (default : Value)
  | getBool (key : String) (default : Value)
  | getList (key : String) (default : Value)
  | has (key : String)
  | getSection (key : String)
  | all

namespace Settings

/-- The answer to a change: null, or why it failed. A change that fails keeps the settings. -/
def orKept (s : Settings) : Except Cause Settings → Except Cause Value × Settings
  | .ok changed => (.ok .null, changed)
  | .error cause => (.error cause, s)

def call (s : Settings) : Call → Except Cause Value × Settings
  | .add l => (.ok .null, s.add l)
  | .load json files path => s.orKept (s.load json files path)
  | .set key v => s.orKept (s.set key v)
  | .get key default => (.ok (s.get key default).1, (s.get key default).2)
  | .getInt key default => s.getInt key default
  | .getBool key default => (.ok (.bool (s.getBool key default).1), (s.getBool key default).2)
  | .getList key default => (.ok (s.getList key default).1, (s.getList key default).2)
  | .has key => (.ok (.bool (s.has key).1), (s.has key).2)
  | .getSection key => (.ok (.object (s.getSection key).1), (s.getSection key).2)
  | .all => (.ok (.object s.all.1), s.all.2)

def answers (s : Settings) : List Call → List (Except Cause Value)
  | [] => []
  | c :: cs => (s.call c).1 :: answers (s.call c).2 cs

end Settings

namespace Layers

def ofFile (json : Json.Library) (files : Files) (path : String) : Except Cause Layer := do
  match ← files.read (.ofText path) with
  | .bytes _ => throw .notJson
  | .text text =>
    match json.read? text with
    | none => throw .notJson
    | some (.object fs) => return ⟨"file:" ++ path, fs, 10⟩
    | some _ => throw (.settingsNotObject path)

/-- What a call makes of the layers, if it does not fail. -/
def changed (layers : List Layer) : Settings.Call → Except Cause (List Layer)
  | .add l => .ok (layers ++ [l])
  | .load json files path => (ofFile json files path).map fun l => layers ++ [l]
  | .set key v => Settings.writeRuntime (keyParts key) v layers
  | _ => .ok layers

/-- The answer to a call, from the layers alone. -/
def answer (layers : List Layer) : Settings.Call → Except Cause Value
  | .get key default => .ok ((at? layers key).getD default)
  | .getInt key default =>
    (Settings.integer? ((at? layers key).getD default)).map fun n => (n.map .int).getD default
  | .getBool key default => .ok (.bool (Settings.isTrue ((at? layers key).getD default)))
  | .getList key default =>
    .ok (match (at? layers key).getD default with
      | .null => if default.truthy then default else .list []
      | .list vs => .list vs
      | v => .list [v])
  | .has key =>
    .ok (.bool (match at? layers key with
      | none | some .null => false
      | some _ => true))
  | .getSection key => .ok (.object (((at? layers key).map Value.fields).getD []))
  | .all => .ok (.object (merged layers))
  | change => (changed layers change).map fun _ => .null

def after (layers : List Layer) (c : Settings.Call) : List Layer :=
  match changed layers c with
  | .ok layers' => layers'
  | .error _ => layers

/-- The answers to calls, one after the other, each from the layers as they are then. -/
def answers (layers : List Layer) : List Settings.Call → List (Except Cause Value)
  | [] => []
  | c :: cs => answer layers c :: answers (after layers c) cs

end Layers

/-! ## What is kept is right -/

namespace Settings

/-- Unless it is stale, the merged object is the one of the layers, and what is kept of earlier
answers is what the layers give. -/
def Sound (s : Settings) : Prop :=
  s.isStale = false → s.merged = Layers.merged s.layers ∧
    ∀ key v, Entries.get? key s.known = some v → Layers.at? s.layers key = some v

variable {s : Settings}

/-- Stale settings are sound: nothing is remembered that is still used. -/
theorem sound_of_isStale (h : s.isStale = true) : s.Sound := by
  intro hfresh
  rw [h] at hfresh
  cases hfresh

@[simp]
theorem layers_refresh (s : Settings) : s.refresh.layers = s.layers := by
  rw [refresh]
  split <;> rfl

@[simp]
theorem isStale_refresh (s : Settings) : s.refresh.isStale = false := by
  rw [refresh]
  split
  · rfl
  · rename_i h
    simpa using h

/-- Refreshing keeps settings sound. -/
theorem Sound.refresh (h : s.Sound) : s.refresh.Sound := by
  intro hfresh
  rw [Settings.refresh] at hfresh ⊢
  split
  · exact ⟨rfl, fun key v hv => by cases hv⟩
  · rename_i hstale
    exact h (by simpa using hstale)

/-- A look-up gives what the layers give, and leaves the settings sound and their layers alone. A
new answer is kept beside the earlier ones. -/
theorem Sound.get? (h : s.Sound) (key : String) :
    (s.get? key).1 = Layers.at? s.layers key ∧ (s.get? key).2.Sound ∧
      (s.get? key).2.layers = s.layers := by
  obtain ⟨hmerged, hknown⟩ := h.refresh (isStale_refresh s)
  rw [layers_refresh] at hmerged hknown
  rw [Settings.get?]
  split
  · rename_i v hv
    exact ⟨(hknown key v hv).symm, h.refresh, layers_refresh s⟩
  · rw [hmerged]
    have hlookup : (Value.object (Layers.merged s.layers)).at? (keyParts key) =
        Layers.at? s.layers key := rfl
    split
    · rename_i v hv
      refine ⟨by rw [← hlookup, hv], fun _ => ?_, layers_refresh s⟩
      refine ⟨congrArg Layers.merged (layers_refresh s).symm, fun key' v' hv' => ?_⟩
      dsimp only at hv' ⊢
      rw [layers_refresh]
      by_cases hkey : key = key'
      · subst hkey
        rw [Entries.get?_set_self, Option.some.injEq] at hv'
        rw [← hlookup, hv, hv']
      · rw [Entries.get?_set_of_ne hkey] at hv'
        exact hknown key' v' hv'
    · rename_i hnone
      exact ⟨by rw [← hlookup, hnone], h.refresh, layers_refresh s⟩

theorem load_eq_ofFile (s : Settings) (json : Json.Library) (files : Files) (path : String) :
    s.load json files path = (Layers.ofFile json files path).map s.add := by
  rw [load, Layers.ofFile]
  cases files.read (.ofText path) with
  | error cause => rfl
  | ok content =>
    cases content with
    | bytes bs => rfl
    | text text =>
      change (match json.read? text with
        | none => _
        | some (.object fs) => _
        | some _ => _) = Except.map s.add (match json.read? text with
        | none => _
        | some (.object fs) => _
        | some _ => _)
      cases json.read? text with
      | none => rfl
      | some v => cases v <;> rfl

/-- A call that changes the layers by `Layers.changed` and leaves the settings stale. -/
theorem Sound.orKept {c : Call} {f : List Layer → Settings} (h : s.Sound)
    (hlayers : ∀ layers, (f layers).layers = layers) (hstale : ∀ layers, (f layers).isStale = true) :
    (s.orKept ((Layers.changed s.layers c).map f)).1 =
        (Layers.changed s.layers c).map (fun _ => .null) ∧
      (s.orKept ((Layers.changed s.layers c).map f)).2.Sound ∧
      (s.orKept ((Layers.changed s.layers c).map f)).2.layers = Layers.after s.layers c := by
  rw [Layers.after]
  cases Layers.changed s.layers c with
  | ok layers => exact ⟨rfl, sound_of_isStale (hstale layers), hlayers layers⟩
  | error cause => exact ⟨rfl, h, rfl⟩

/-- One call gets the answer of the layers, and leaves the settings sound. -/
theorem Sound.call (h : s.Sound) (c : Call) :
    (s.call c).1 = Layers.answer s.layers c ∧ (s.call c).2.Sound ∧
      (s.call c).2.layers = Layers.after s.layers c := by
  cases c with
  | add l => exact ⟨rfl, sound_of_isStale rfl, rfl⟩
  | load json files path =>
    have hload : s.load json files path = (Layers.changed s.layers (.load json files path)).map
        fun layers => { s with layers, isStale := true, known := [] } := by
      rw [load_eq_ofFile, Layers.changed]
      cases Layers.ofFile json files path <;> rfl
    rw [Settings.call, hload]
    exact h.orKept (fun _ => rfl) fun _ => rfl
  | set key v =>
    have hset : s.set key v = (Layers.changed s.layers (.set key v)).map
        fun layers => { s with layers, isStale := true, known := [] } := rfl
    rw [Settings.call, hset]
    exact h.orKept (fun _ => rfl) fun _ => rfl
  | all =>
    obtain ⟨hmerged, -⟩ := h.refresh (isStale_refresh s)
    rw [layers_refresh] at hmerged
    refine ⟨?_, h.refresh, layers_refresh s⟩
    rw [Settings.call, Settings.all, Layers.answer, hmerged]
  | get key default | getInt key default | getBool key default | getSection key =>
    obtain ⟨hanswer, hsound, hlayers⟩ := h.get? key
    refine ⟨?_, hsound, hlayers⟩
    simp only [Settings.call, Settings.get, getInt, getBool, getSection, hanswer, Layers.answer]
  | getList key default =>
    obtain ⟨hanswer, hsound, hlayers⟩ := h.get? key
    refine ⟨?_, hsound, hlayers⟩
    cases hvalue : (Layers.at? s.layers key).getD default <;>
      simp only [Settings.call, Settings.get, getList, hanswer, Layers.answer, hvalue]
  | has key =>
    obtain ⟨hanswer, hsound, hlayers⟩ := h.get? key
    refine ⟨?_, hsound, hlayers⟩
    cases hvalue : Layers.at? s.layers key with
    | none => simp only [Settings.call, has, hanswer, Layers.answer, hvalue]
    | some v => cases v <;> simp only [Settings.call, has, hanswer, Layers.answer, hvalue]

/-- Any number of calls get the answers of the layers. -/
theorem Sound.answers (h : s.Sound) (calls : List Call) :
    s.answers calls = Layers.answers s.layers calls := by
  induction calls generalizing s with
  | nil => rfl
  | cons c calls ih =>
    obtain ⟨hanswer, hsound, hlayers⟩ := h.call c
    rw [Settings.answers, Layers.answers, hanswer, ih hsound, hlayers]

/-! ## One look-up after another -/

/-- Fresh settings are left as they are. -/
theorem refresh_of_fresh (h : s.isStale = false) : s.refresh = s := by
  simp [refresh, h]

/-- Refreshing first changes no answer. -/
theorem get?_refresh (s : Settings) (key : String) : s.refresh.get? key = s.get? key := by
  rw [Settings.get?, Settings.get?, refresh_of_fresh (isStale_refresh s)]

theorem get?_of_fresh (h : s.isStale = false) (key : String) :
    s.get? key = match Entries.get? key s.known with
      | some v => (some v, s)
      | none => match (Value.object s.merged).at? (keyParts key) with
        | some v => (some v, { s with known := Entries.set key v s.known })
        | none => (none, s) := by
  have hrefresh := refresh_of_fresh h
  cases hknown : Entries.get? key s.known with
  | some v => simp only [Settings.get?, hrefresh, hknown]
  | none =>
    cases hvalue : (Value.object s.merged).at? (keyParts key) <;>
      simp only [Settings.get?, hrefresh, hknown, hvalue]

/-- A look-up does not change what a later look-up gives. -/
theorem get?_get? (s : Settings) (key key' : String) :
    ((s.get? key).2.get? key').1 = (s.get? key').1 := by
  have hfresh := isStale_refresh s
  rw [← get?_refresh s key, ← get?_refresh s key']
  generalize s.refresh = s at hfresh
  rw [get?_of_fresh hfresh key]
  split
  · rfl
  · rename_i hunknown
    split
    · rename_i v hv
      have hkept : ({ s with known := Entries.set key v s.known } : Settings).isStale = false :=
        hfresh
      dsimp only
      rw [get?_of_fresh hkept, get?_of_fresh hfresh]
      by_cases hkey : key = key'
      · subst hkey
        simp [hunknown, hv]
      · rw [Entries.get?_set_of_ne hkey]
        cases Entries.get? key' s.known with
        | some w => rfl
        | none => cases (Value.object s.merged).at? (keyParts key') <;> rfl
    · rfl

/-- Asking one question changes the answer to no other. -/
theorem getBool_getBool (s : Settings) (key key' : String) (default default' : Value) :
    ((s.getBool key default).2.getBool key' default').1 = (s.getBool key' default').1 := by
  simp [getBool, get, get?_get?]

/-! ## Settings from their start -/

/-- Settings as they are made: the defaults alone, or with the environment over them. -/
def IsNew (json : Json.Library) (s : Settings) : Prop :=
  s = default ∨ ∃ env, ofEnvironment json env = .ok s

theorem IsNew.isStale {json : Json.Library} (h : s.IsNew json) : s.isStale = true := by
  obtain rfl | ⟨env, h⟩ := h
  · rfl
  · rw [ofEnvironment] at h
    split at h
    · cases h
      rfl
    · cases hnested : nested (overrides json env) with
      | error cause =>
        rw [hnested] at h
        cases h
      | ok v =>
        rw [hnested] at h
        cases h
        rfl

/-- Every series of calls on new settings is answered from the layers as they are at each call,
merged anew in the order of their priorities and then of their addition. -/
theorem answers_eq_layers_answers {json : Json.Library} (h : s.IsNew json) (calls : List Call) :
    s.answers calls = Layers.answers s.layers calls ∧
      ∀ layers, Layers.IsOrdered layers (Layers.inOrder layers) :=
  ⟨(sound_of_isStale h.isStale).answers calls, Layers.isOrdered_inOrder⟩

/-- Answers that were given are given up when a layer changes, and a change that fails leaves
them right. -/
theorem answers_default_changes : default.IsNew Json.strict ∧
    default.answers [.get "parser.minify" .null, .set "parser.minify" (.bool false),
      .set "parser.minify.deep" .null, .getBool "parser.minify" .null,
      .add ⟨"late", [("parser", .object [("minify", .null)])], 1000⟩, .has "parser.minify",
      .getSection "parser"] =
      [.ok (.bool true), .ok .null, .error (.noItemAssignment (.bool false)), .ok (.bool false),
        .ok .null, .ok (.bool false),
        .ok (.object [("minify", .null), ("strict_close", .bool true)])] := by
  refine ⟨.inl rfl, ?_⟩
  have hnew : default.IsNew Json.strict := .inl rfl
  rw [(answers_eq_layers_answers hnew _).1]
  cbv

end Settings

end Stencil
