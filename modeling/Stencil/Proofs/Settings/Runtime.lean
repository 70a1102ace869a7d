import Stencil.Proofs.Settings.Layered

/-!
# Setting values at run time

What is set at run time is kept in a layer of its own, over all others. A value that is set is found
at its key, no key beside it is touched, and a failure leaves everything as it was. The last is not
seen at once: objects that are missing on the way are made while the path is walked, before it is
known whether its end can be written. `Settings.setInPlace` follows that walk, and it comes to the
same as `Settings.set`, since the way can only be blocked by what was there before.

Values are data: what is set belongs to the settings from then on, and one that is set at two keys is
not shared between them. A caller that keeps a hold of an object it has set, or sets it twice, is
beyond these results.
-/

namespace Stencil

theorem Entries.set_of_get? {α : Type} {k : String} {v : α} {es : Entries α}
    (h : Entries.get? k es = some v) : Entries.set k v es = es := by
  induction es with
  | nil => cases h
  | cons e es ih =>
    obtain ⟨k', w⟩ := e
    rw [Entries.get?] at h
    rw [Entries.set]
    split at h
    · rename_i hk
      cases h
      rw [if_pos hk, hk]
    · rename_i hk
      rw [if_neg hk, ih h]

/-! ## Writing at a path -/

namespace Value

variable {new v w : Value} {fs : Entries Value} {k : String} {ks path path' : List String}

/-- The walk along a path that writes as it goes: whether it reaches the end, and what the value is
afterwards in either case. -/
def place (new : Value) : List String → Value → Except Cause Unit × Value
  | [], _ => (.ok (), new)
  | [k], .object fs => (.ok (), .object (Entries.set k new fs))
  | [_], holder => (.error (.noItemAssignment holder), holder)
  | k :: ks, .object fs =>
    let placed := place new ks ((Entries.get? k fs).getD (.object []))
    (placed.1, .object (Entries.set k placed.2 fs))
  | _ :: _, holder => (.error (.noFields holder), holder)

theorem write_object (new : Value) (k : String) (ks : List String) (fs : Entries Value) :
    write new (k :: ks) (.object fs) =
      (write new ks ((Entries.get? k fs).getD (.object []))).map fun w =>
        .object (Entries.set k w fs) := by
  cases ks with
  | nil => rfl
  | cons k' ks =>
    rw [write]
    simp

theorem place_object (new : Value) (k : String) (ks : List String) (fs : Entries Value) :
    place new (k :: ks) (.object fs) =
      ((place new ks ((Entries.get? k fs).getD (.object []))).1,
        .object (Entries.set k (place new ks ((Entries.get? k fs).getD (.object []))).2 fs)) := by
  cases ks with
  | nil => rfl
  | cons k' ks =>
    rw [place]
    simp

/-- At anything but an object the walk ends. -/
theorem exists_error_of_not_object (h : v.isObject = false) (new : Value) (k : String)
    (ks : List String) : ∃ cause, write new (k :: ks) v = .error cause ∧
      place new (k :: ks) v = (.error cause, v) := by
  cases v with
  | object fs => cases h
  | null | bool | int | float | text | list => cases ks <;> exact ⟨_, rfl, rfl⟩

/-- What is written in an object is an object again, with another value in one of its fields. -/
theorem exists_write (h : write new (k :: ks) (.object fs) = .ok w) :
    ∃ child, w = .object (Entries.set k child fs) ∧
      write new ks ((Entries.get? k fs).getD (.object [])) = .ok child := by
  rw [write_object] at h
  cases hchild : write new ks ((Entries.get? k fs).getD (.object [])) with
  | error cause =>
    rw [hchild] at h
    cases h
  | ok child =>
    rw [hchild] at h
    cases h
    exact ⟨child, rfl, rfl⟩

/-- Only an object can be written into. -/
theorem isObject_of_write (h : write new (k :: ks) v = .ok w) : ∃ fs, v = .object fs := by
  cases v with
  | object fs => exact ⟨fs, rfl⟩
  | null | bool | int | float | text | list => cases ks <;> cases h

/-- A value that was written is found under its path. -/
theorem at?_write (h : write new path v = .ok w) : w.at? path = some new := by
  induction path generalizing v w with
  | nil =>
    cases h
    rfl
  | cons k ks ih =>
    obtain ⟨fs, rfl⟩ := isObject_of_write h
    obtain ⟨child, rfl, hchild⟩ := exists_write h
    rw [at?_object, Entries.get?_set_self, Option.bind_some, ih hchild]

/-- A write fails exactly if something stands in its way. -/
theorem write_eq_error_iff (new : Value) (path : List String) (v : Value) :
    (∃ cause, write new path v = .error cause) ↔ v.IsBlocked path := by
  induction path generalizing v with
  | nil => exact iff_of_false (by simp [write]) (not_isBlocked_nil v)
  | cons k ks ih =>
    obtain hv | ⟨fs, rfl⟩ := isObject_cases v
    · obtain ⟨cause, hwrite, -⟩ := exists_error_of_not_object hv new k ks
      exact iff_of_true ⟨cause, hwrite⟩ (isBlocked_of_not_object hv k ks)
    · have hchild : (∃ cause, write new (k :: ks) (.object fs) = .error cause) ↔
          ∃ cause, write new ks ((Entries.get? k fs).getD (.object [])) = .error cause := by
        rw [write_object]
        cases write new ks ((Entries.get? k fs).getD (.object [])) <;> simp [Except.map]
      rw [hchild, ih, isBlocked_object]
      cases Entries.get? k fs with
      | none => simpa using not_isBlocked_empty ks
      | some w => simp

/-- The walk changes nothing if it fails, and otherwise it writes. An object that is made on the way
does not block it. -/
theorem place_eq (new : Value) (path : List String) (v : Value) :
    place new path v = match write new path v with
      | .ok w => (.ok (), w)
      | .error cause => (.error cause, v) := by
  induction path generalizing v with
  | nil => rfl
  | cons k ks ih =>
    obtain hv | ⟨fs, rfl⟩ := isObject_cases v
    · obtain ⟨cause, hwrite, hplace⟩ := exists_error_of_not_object hv new k ks
      rw [hwrite, hplace]
    · rw [place_object, write_object, ih]
      cases hchild : write new ks ((Entries.get? k fs).getD (.object [])) with
      | ok child => rfl
      | error cause =>
        obtain ⟨child, hk⟩ : ∃ child, Entries.get? k fs = some child := by
          rw [← Option.isSome_iff_exists, Option.isSome_iff_ne_none]
          intro hnone
          rw [hnone] at hchild
          exact not_isBlocked_empty ks ((write_eq_error_iff new ks _).1 ⟨cause, hchild⟩)
        have hsame : Entries.set k child fs = fs := Entries.set_of_get? hk
        simp [hk, hsame, Except.map]

/-- What has been written is seen at its path, unless it is an object. -/
theorem visit_write_self (h : write new (k :: ks) (.object fs) = .ok w) (hnew : new.isObject = false)
    (r : Option Value) : Layers.visit (k :: ks) r w.fields = some new := by
  have hat := at?_write h
  obtain ⟨child, rfl, -⟩ := exists_write h
  rw [fields, Layers.visit, hat]
  cases new with
  | object gs => cases hnew
  | null | bool | int | float | text | list => rfl

/-- A write is not seen at a path that neither goes on from its own nor leads to it. -/
theorem visit_write (h : write new path (.object fs) = .ok w) (hpath : ¬ path <+: path')
    (hpath' : ¬ path' <+: path) (r : Option Value) :
    Layers.visit path' r w.fields = Layers.visit path' r fs := by
  induction path generalizing fs w path' with
  | nil => exact absurd List.nil_prefix hpath
  | cons k ks ih =>
    obtain ⟨child, rfl, hchild⟩ := exists_write h
    cases path' with
    | nil => exact absurd List.nil_prefix hpath'
    | cons k' ks' =>
      rw [fields]
      by_cases hk : k' = k
      · subst hk
        rw [List.prefix_cons_inj] at hpath hpath'
        cases ks with
        | nil => exact absurd List.nil_prefix hpath
        | cons k ks =>
          obtain ⟨gs, hgs⟩ := isObject_of_write hchild
          rw [hgs] at hchild
          obtain ⟨inner, rfl, -⟩ := exists_write hchild
          have hinner := ih hchild hpath hpath'
          rw [Layers.visit_of_object (Entries.get?_set_self ..)]
          refine hinner.trans ?_
          cases hget : Entries.get? k' fs with
          | none =>
            rw [hget] at hgs
            cases hgs
            cases ks' with
            | nil => exact absurd List.nil_prefix hpath'
            | cons k'' ks' => rw [Layers.visit_of_none hget, Layers.visit_of_none (Entries.get?_nil k'')]
          | some v =>
            rw [hget] at hgs
            exact (Layers.visit_of_object (hget.trans (congrArg some hgs)) ks' r).symm
      · exact Layers.visit_congr (Entries.get?_set_of_ne (Ne.symm hk) child fs) ks' r

end Value

/-! ## The run-time layer -/

/-- The layer lies below the run-time layer. -/
structure Layer.IsBelow (l : Layer) : Prop where
  name_ne : l.name ≠ Settings.runtimeLayer.name
  priority_lt : l.priority < Settings.runtimeLayer.priority
  distinct : (Value.object l.data).Distinct

def Layer.atRuntime (data : Entries Value) : Layer :=
  { Settings.runtimeLayer with data }

namespace Layers

/-- The layers are others that lie below the run-time layer, and that layer with its data, which is
not there until something has been set. -/
inductive Governed : List Layer → List Layer → Entries Value → Prop
  | unset {others : List Layer} (h : ∀ l ∈ others, l.IsBelow) : Governed others others []
  | set {before after : List Layer} {data : Entries Value}
    (h : ∀ l ∈ before ++ after, l.IsBelow) (hdata : (Value.object data).Distinct) :
    Governed (before ++ .atRuntime data :: after) (before ++ after) data

variable {layers others before after : List Layer} {data : Entries Value} {l top : Layer}
  {path : List String} {v w : Value} {cause : Cause}

theorem Governed.distinct (h : Governed layers others data) :
    ∀ l ∈ layers, (Value.object l.data).Distinct := by
  cases h with
  | unset h => exact fun l hl => (h l hl).distinct
  | set h hdata =>
    rw [List.forall_mem_append] at h
    rw [List.forall_mem_append, List.forall_mem_cons]
    exact ⟨fun l hl => (h.1 l hl).distinct, hdata, fun l hl => (h.2 l hl).distinct⟩

/-- A layer below the runtime layer leaves it in command. -/
theorem Governed.add (h : Governed layers others data) (hl : l.IsBelow) :
    Governed (layers ++ [l]) (others ++ [l]) data := by
  have hadd {ls : List Layer} (hls : ∀ m ∈ ls, m.IsBelow) : ∀ m ∈ ls ++ [l], m.IsBelow :=
    List.forall_mem_append.2 ⟨hls, List.forall_mem_singleton.2 hl⟩
  cases h with
  | unset h => exact .unset (hadd h)
  | @set before after _ h hdata =>
    rw [List.append_assoc, List.cons_append, List.append_assoc]
    exact .set (by rw [← List.append_assoc]; exact hadd h) hdata

/-- A layer of the highest priority is visited last, wherever it stands. -/
theorem inOrder_top (h : ∀ l ∈ before ++ after, l.priority < top.priority) :
    inOrder (before ++ top :: after) = inOrder (before ++ after) ++ [top] := by
  refine (isOrdered_inOrder _).unique ⟨?_, fun p => ?_⟩
  · obtain ⟨hsorted, -⟩ := isOrdered_inOrder (before ++ after)
    rw [List.pairwise_append]
    refine ⟨hsorted, List.pairwise_singleton _ _, fun a ha b hb => ?_⟩
    obtain rfl := List.mem_singleton.1 hb
    exact (h a (List.mem_mergeSort.1 ha)).le
  · rw [List.filter_append, (isOrdered_inOrder _).kept, List.filter_append, List.filter_append,
      List.append_assoc]
    congr 1
    by_cases hp : top.priority = p
    · have hnone : after.filter (·.priority = p) = [] := by
        rw [List.filter_eq_nil_iff]
        intro l hl
        have hlt := h l (List.mem_append_right before hl)
        rw [decide_eq_true_eq]
        omega
      simp [hnone, hp]
    · simp [hp]

/-- The runtime layer is visited last, so it decides over all others. -/
theorem Governed.found_eq (h : Governed layers others data) (key : String) :
    found layers key = visit (keyParts key) (found others key) data := by
  obtain ⟨k, ks, hkey⟩ := exists_keyParts key
  cases h with
  | unset h => rw [hkey, visit_of_none (Entries.get?_nil k)]
  | @set before after _ h _ =>
    have hlast : inOrder (before ++ .atRuntime data :: after) =
        inOrder (before ++ after) ++ [.atRuntime data] :=
      inOrder_top fun l hl => (h l hl).priority_lt
    rw [found, hlast, List.foldl_append, found]
    rfl

theorem writeRuntime_append (h : ∀ l ∈ before, l.IsBelow) (ls : List Layer) :
    Settings.writeRuntime path v (before ++ ls) =
      (Settings.writeRuntime path v ls).map (before ++ ·) := by
  induction before with
  | nil =>
    rw [List.nil_append]
    cases Settings.writeRuntime path v ls <;> rfl
  | cons l before ih =>
    rw [List.forall_mem_cons] at h
    rw [List.cons_append, Settings.writeRuntime, if_neg h.1.name_ne, ih h.2]
    cases Settings.writeRuntime path v ls <;> rfl

/-- The first value set at run time makes a layer of its own. -/
theorem writeRuntime_unset (h : ∀ l ∈ others, l.IsBelow) :
    Settings.writeRuntime path v others =
      (Value.write v path (.object [])).map fun w => others ++ [.atRuntime w.fields] := by
  have hbehind : Settings.writeRuntime path v (others ++ []) = _ := writeRuntime_append h []
  rw [List.append_nil] at hbehind
  rw [hbehind, Settings.writeRuntime]
  change Except.map _ (Except.map _ (Except.map _ (Value.write v path (.object [])))) = _
  cases Value.write v path (.object []) <;> rfl

/-- A later value is written into that layer. -/
theorem writeRuntime_set (h : ∀ l ∈ before, l.IsBelow) :
    Settings.writeRuntime path v (before ++ .atRuntime data :: after) =
      (Value.write v path (.object data)).map fun w => before ++ .atRuntime w.fields :: after := by
  have hname : (Layer.atRuntime data).name = Settings.runtimeLayer.name := rfl
  rw [writeRuntime_append h, Settings.writeRuntime, if_pos hname]
  change Except.map _ (Except.map _ (Except.map _ (Value.write v path (.object data)))) = _
  cases Value.write v path (.object data) <;> rfl

/-- A write at run time changes the data of the run-time layer alone. -/
theorem Governed.exists_writeRuntime (h : Governed layers others data) (hv : v.Distinct)
    (hw : Value.write v path (.object data) = .ok w) :
    ∃ layers', Settings.writeRuntime path v layers = .ok layers' ∧
      Governed layers' others w.fields := by
  cases h with
  | unset h =>
    have hfields : (Value.object w.fields).Distinct := (hv.write Value.distinct_empty hw).fields
    refine ⟨_, by rw [writeRuntime_unset h, hw]; rfl, ?_⟩
    have hset : Governed (layers ++ .atRuntime w.fields :: []) (layers ++ []) w.fields :=
      .set (by rwa [List.append_nil]) hfields
    rwa [List.append_nil] at hset
  | set h hdata =>
    rw [List.forall_mem_append] at h
    refine ⟨_, by rw [writeRuntime_set h.1, hw]; rfl, ?_⟩
    exact .set (List.forall_mem_append.2 h) (hv.write hdata hw).fields

/-- A value the runtime layer refuses is not set. -/
theorem Governed.writeRuntime_error (h : Governed layers others data)
    (hw : Value.write v path (.object data) = .error cause) :
    Settings.writeRuntime path v layers = .error cause := by
  cases h with
  | unset h =>
    rw [writeRuntime_unset h, hw]
    rfl
  | set h hdata =>
    rw [List.forall_mem_append] at h
    rw [writeRuntime_set h.1, hw]
    rfl

/-- Whether the way to a key is blocked is told by the run-time layer. -/
theorem Governed.isBlocked_iff (h : Governed layers others data) (path : List String) :
    (Value.object data).IsBlocked path ↔ ∃ l ∈ layers,
      l.name = Settings.runtimeLayer.name ∧ (Value.object l.data).IsBlocked path := by
  cases h with
  | unset h =>
    refine iff_of_false (Value.not_isBlocked_empty path) ?_
    rintro ⟨l, hl, hname, -⟩
    exact (h l hl).name_ne hname
  | @set before after _ h hdata =>
    constructor
    · exact fun hblocked => ⟨.atRuntime data, by simp, rfl, hblocked⟩
    · rintro ⟨l, hl, hname, hblocked⟩
      obtain rfl : l = .atRuntime data := by
        by_contra hne
        refine (h l ?_).name_ne hname
        simpa [hne] using hl
      exact hblocked

/-! ## The walk in place -/

/-- Walks in the first run-time layer, which is made first if there is none. -/
def placeRuntime (path : List String) (v : Value) : List Layer → Except Cause Unit × List Layer
  | [] =>
    let placed := Value.place v path (.object Settings.runtimeLayer.data)
    (placed.1, [{ Settings.runtimeLayer with data := placed.2.fields }])
  | l :: ls =>
    if l.name = Settings.runtimeLayer.name then
      let placed := Value.place v path (.object l.data)
      (placed.1, { l with data := placed.2.fields } :: ls)
    else
      let placed := placeRuntime path v ls
      (placed.1, l :: placed.2)

/-- The walk changes no layer if it fails, and otherwise it writes. -/
theorem placeRuntime_eq (path : List String) (v : Value) (layers : List Layer) :
    placeRuntime path v layers = match Settings.writeRuntime path v layers with
      | .ok layers' => (.ok (), layers')
      | .error cause => (.error cause, layers) := by
  induction layers with
  | nil =>
    rw [placeRuntime, Value.place_eq, Settings.writeRuntime, Settings.writeLayer]
    cases hw : Value.write v path (.object Settings.runtimeLayer.data) with
    | ok w => rfl
    | error cause =>
      exact absurd ((Value.write_eq_error_iff v path _).1 ⟨cause, hw⟩) (Value.not_isBlocked_empty path)
  | cons l ls ih =>
    rw [placeRuntime, Settings.writeRuntime]
    split
    · rw [Value.place_eq, Settings.writeLayer]
      cases Value.write v path (.object l.data) <;> rfl
    · rw [ih]
      cases Settings.writeRuntime path v ls <;> rfl

end Layers

namespace Settings

/-- Sets a value by the walk in place. The merged object is stale only if the walk reaches its end. -/
def setInPlace (s : Settings) (key : String) (v : Value) : Except Cause Value × Settings :=
  match Layers.placeRuntime (keyParts key) v s.layers with
  | (.ok (), layers) => (.ok .null, { s with layers, isStale := true, known := [] })
  | (.error cause, layers) => (.error cause, { s with layers })

/-- Setting a value comes to the same as setting it in place. -/
theorem call_set (s : Settings) (key : String) (v : Value) :
    s.call (.set key v) = s.setInPlace key v := by
  rw [setInPlace, Layers.placeRuntime_eq, call, set]
  cases writeRuntime (keyParts key) v s.layers <;> rfl

/-! ## Histories -/

/-- The call adds no layer that stands at the run-time layer or over it. -/
def Call.IsOrdinary : Call → Prop
  | .add l => l.IsBelow
  | .load json _ _ => json.ReadsDistinct
  | .set _ v => v.Distinct
  | _ => True

variable {json : Json.Library} {s s₀ : Settings} {calls : List Call} {others : List Layer}
  {data : Entries Value}

/-- A settings file makes a layer below the runtime layer. -/
theorem isBelow_of_ofFile (hjson : json.ReadsDistinct) {files : Files} {path : String} {l : Layer}
    (h : Layers.ofFile json files path = .ok l) : l.IsBelow := by
  have hname : "file:" ++ path ≠ runtimeLayer.name := by
    intro heq
    have hchars := congrArg (fun s : String => s.toList.head?) heq
    simp [runtimeLayer] at hchars
  rw [Layers.ofFile] at h
  cases hread : files.read (.ofText path) with
  | error cause =>
    rw [hread] at h
    cases h
  | ok content =>
    rw [hread] at h
    cases content with
    | bytes bs => cases h
    | text text =>
      dsimp only [bind, Except.bind] at h
      split at h
      · cases h
      · rename_i fs hfs
        cases h
        exact ⟨hname, (by decide : (10 : Int) < 1000), hjson text _ hfs⟩
      · cases h

/-- One call leaves the layers governed. -/
theorem exists_governed_after {layers : List Layer} (h : Layers.Governed layers others data)
    {c : Call} (hc : c.IsOrdinary) :
    ∃ others data, Layers.Governed (Layers.after layers c) others data := by
  have hsame : Layers.changed layers c = .ok layers →
      ∃ others data, Layers.Governed (Layers.after layers c) others data := by
    intro hchanged
    rw [Layers.after, hchanged]
    exact ⟨_, _, h⟩
  cases c with
  | add l => exact ⟨_, _, h.add hc⟩
  | load json files path =>
    rw [Layers.after, Layers.changed]
    cases hfile : Layers.ofFile json files path with
    | error cause => exact ⟨_, _, h⟩
    | ok l => exact ⟨_, _, h.add (isBelow_of_ofFile hc hfile)⟩
  | set key v =>
    rw [Layers.after, Layers.changed]
    cases hw : Value.write v (keyParts key) (.object data) with
    | error cause =>
      rw [h.writeRuntime_error hw]
      exact ⟨_, _, h⟩
    | ok w =>
      obtain ⟨layers', hlayers, hgoverned⟩ := h.exists_writeRuntime hc hw
      rw [hlayers]
      exact ⟨_, _, hgoverned⟩
  | get | getInt | getBool | getList | has | getSection | all => exact hsame rfl

/-- No new settings hold a runtime layer. -/
theorem isBelow_of_isNew (hjson : json.ReadsDistinct) (h : s.IsNew json) :
    ∀ l ∈ s.layers, l.IsBelow := by
  have hdefault : defaultLayer.IsBelow := ⟨by decide, by decide, by decide +kernel⟩
  obtain rfl | ⟨env, henv⟩ := h
  · exact List.forall_mem_singleton.2 hdefault
  · rw [ofEnvironment] at henv
    split at henv
    · cases henv
      exact List.forall_mem_singleton.2 hdefault
    · cases hnested : nested (overrides json env) with
      | error cause =>
        rw [hnested] at henv
        cases henv
      | ok v =>
        rw [hnested] at henv
        cases henv
        have hv := distinct_nested (distinct_overrides hjson env).forall_mem hnested
        have henvironment : (⟨"env_vars", v.fields, 100⟩ : Layer).IsBelow :=
          ⟨(by decide : "env_vars" ≠ "runtime"), (by decide : (100 : Int) < 1000), hv.fields⟩
        exact List.forall_mem_cons.2 ⟨hdefault, List.forall_mem_singleton.2 henvironment⟩

/-- Every series of ordinary calls on new settings leaves them sound and their layers governed. -/
theorem exists_governed (hjson : json.ReadsDistinct) (h : s₀.IsNew json)
    (hcalls : ∀ c ∈ calls, c.IsOrdinary) :
    (s₀.afterCalls calls).Sound ∧
      ∃ others data, Layers.Governed (s₀.afterCalls calls).layers others data := by
  have hrun : ∀ s : Settings, s.Sound → (∃ others data, Layers.Governed s.layers others data) →
      (s.afterCalls calls).Sound ∧
        ∃ others data, Layers.Governed (s.afterCalls calls).layers others data := by
    induction calls with
    | nil => exact fun s hsound hgoverned => ⟨hsound, hgoverned⟩
    | cons c calls ih =>
      intro s hsound ⟨others, data, hgoverned⟩
      rw [List.forall_mem_cons] at hcalls
      obtain ⟨-, hsound', hlayers⟩ := hsound.call c
      refine ih hcalls.2 (s.call c).2 hsound' ?_
      rw [hlayers]
      exact exists_governed_after hgoverned hcalls.1
  exact hrun s₀ (sound_of_isStale h.isStale) ⟨_, _, .unset (isBelow_of_isNew hjson h)⟩

/-- Setting a value at run time. The walk in place fails exactly if the way to the key is blocked in
the run-time layer, and then no look-up sees it. Otherwise the value is found at its key, unless it
is an object and is joined with others, and no key beside its own is touched. -/
theorem set_at_runtime (hjson : json.ReadsDistinct) (h : s₀.IsNew json)
    (hcalls : ∀ c ∈ calls, c.IsOrdinary) (hs : s = s₀.afterCalls calls) (key : String)
    {v : Value} (hv : v.Distinct) {answer : Except Cause Value} {s' : Settings}
    (hset : s.setInPlace key v = (answer, s')) :
    s.call (.set key v) = (answer, s') ∧
      ((∃ cause, answer = .error cause) ↔ ∃ l ∈ s.layers, l.name = runtimeLayer.name ∧
        (Value.object l.data).IsBlocked (keyParts key)) ∧
      (∀ w, answer = .ok w →
        (v.isObject = false → ∀ default, (s'.get key default).1 = v) ∧
          ∀ key' default, ¬ keyParts key <+: keyParts key' → ¬ keyParts key' <+: keyParts key →
            (s'.get key' default).1 = (s.get key' default).1) ∧
      ∀ cause, answer = .error cause →
        (∀ key' default, (s'.get key' default).1 = (s.get key' default).1) ∧
          s'.all.1 = s.all.1 := by
  obtain ⟨hsound, others, data, hgoverned⟩ := exists_governed hjson h hcalls
  rw [← hs] at hsound hgoverned
  obtain ⟨k, ks, hkey⟩ := exists_keyParts key
  have hcall : s.call (.set key v) = (answer, s') := (call_set s key v).trans hset
  refine ⟨hcall, ?_⟩
  rw [← hgoverned.isBlocked_iff, ← Value.write_eq_error_iff v]
  cases hw : Value.write v (keyParts key) (.object data) with
  | error cause =>
    have hfailed : s.call (.set key v) = (.error cause, s) := by
      rw [call, set, hgoverned.writeRuntime_error hw]
      rfl
    cases hcall.symm.trans hfailed
    exact ⟨iff_of_true ⟨cause, rfl⟩ ⟨cause, rfl⟩, fun w hok => (by cases hok),
      fun _ _ => ⟨fun _ _ => rfl, rfl⟩⟩
  | ok w =>
    obtain ⟨layers', hlayers, hgoverned'⟩ := hgoverned.exists_writeRuntime hv hw
    have hdone : s.call (.set key v) =
        (.ok .null, { s with layers := layers', isStale := true, known := [] }) := by
      rw [call, set, hlayers]
      rfl
    have hsound' : (s.call (.set key v)).2.Sound := (hsound.call _).2.1
    rw [hdone] at hsound'
    cases hcall.symm.trans hdone
    refine ⟨iff_of_false (by simp) (by simp), fun _ _ => ⟨fun hobject default => ?_, ?_⟩,
      fun cause herror => (by cases herror)⟩
    · rw [hsound'.get_eq_getD_found hgoverned'.distinct, hgoverned'.found_eq, hkey,
        Value.visit_write_self (hkey ▸ hw) hobject, Option.getD_some]
    · intro key' default hpath hpath'
      rw [hsound'.get_eq_getD_found hgoverned'.distinct, hgoverned'.found_eq,
        Value.visit_write hw hpath hpath', hsound.get_eq_getD_found hgoverned.distinct,
        hgoverned.found_eq]

/-- A value below one of a file, and one below another that was set before. -/
theorem set_at_runtime_below :
    let calls : List Call := [.add ⟨"file:a.json", [("parser", .object [("depth", .int 3)])], 10⟩,
      .set "parser.minify" (.bool false)]
    let s := default.afterCalls calls
    let done := s.setInPlace "parser.depth.most" (.int 7)
    let failed := s.setInPlace "parser.minify.deep" (.int 7)
    (done.1 = .ok .null ∧ (∀ default, (done.2.get "parser.depth.most" default).1 = .int 7) ∧
      ∀ default, (done.2.get "parser.minify" default).1 = (s.get "parser.minify" default).1) ∧
    failed.1 = .error (.noItemAssignment (.bool false)) ∧
      ∀ key default, (failed.2.get key default).1 = (s.get key default).1 := by
  intro calls s done failed
  have hcalls : ∀ c ∈ calls, c.IsOrdinary := by
    refine List.forall_mem_cons.2 ⟨⟨by decide, by decide, by decide +kernel⟩, ?_⟩
    exact List.forall_mem_singleton.2 (.other rfl)
  have hdone : done.1 = .ok .null := by
    change ((default.afterCalls calls).setInPlace "parser.depth.most" (.int 7)).1 = _
    cbv
  have hfailed : failed.1 = .error (.noItemAssignment (.bool false)) := by
    change ((default.afterCalls calls).setInPlace "parser.minify.deep" (.int 7)).1 = _
    cbv
  have hv : (Value.int 7).Distinct := .other rfl
  obtain ⟨-, -, hread, -⟩ :=
    set_at_runtime Json.strict_readsDistinct (.inl rfl) hcalls rfl "parser.depth.most" hv rfl
  obtain ⟨-, -, -, hkept⟩ :=
    set_at_runtime Json.strict_readsDistinct (.inl rfl) hcalls rfl "parser.minify.deep" hv rfl
  obtain ⟨hself, hbeside⟩ := hread _ hdone
  refine ⟨⟨hdone, hself rfl, fun default => ?_⟩, hfailed, (hkept _ hfailed).1⟩
  exact hbeside "parser.minify" default (by decide +kernel) (by decide +kernel)

end Settings

end Stencil
