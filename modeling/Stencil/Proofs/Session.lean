import Stencil.Proofs.Settings.Cache
import Stencil.Proofs.Views
import Stencil.Session

/-!
# Running the steps of a session

How each step of a session runs, as far as registering and parsing views is concerned. `Stays` says
what such steps leave alone: the library for JSON, what the settings answer, the logs, what has been
printed, and the texts of files that no log is written to. What they change is the registry, and
only by plain views.
-/

namespace Stencil

namespace Session

variable {α β : Type}

@[simp]
theorem run_pure (s : Session) (a : α) : s.run (pure a) = (.ok a, s) := rfl

theorem run_bind (s : Session) (x : Action α) (f : α → Action β) :
    s.run (x >>= f) =
      match s.run x with
      | (.ok a, s') => s'.run (f a)
      | (.error e, s') => (.error e, s') := by
  simp only [Session.run, ExceptT.run_bind, StateT.run_bind]
  obtain ⟨r, s'⟩ := StateT.run (ExceptT.run x) s
  cases r <;> rfl

/-- After an action that succeeds, the next one runs on its answer and session. -/
theorem run_bind_of_ok {s s' : Session} {x : Action α} {a : α} (h : s.run x = (.ok a, s'))
    (f : α → Action β) : s.run (x >>= f) = s'.run (f a) := by
  rw [run_bind, h]

/-- An action that fails ends the sequence. -/
theorem run_bind_of_error {s s' : Session} {x : Action α} {e : Error}
    (h : s.run x = (.error e, s')) (f : α → Action β) : s.run (x >>= f) = (.error e, s') := by
  rw [run_bind, h]

/-- A run of two steps that succeeds is a successful run of the first and then of the second. -/
theorem run_bind_eq_ok {s s'' : Session} {x : Action α} {f : α → Action β} {c : β} :
    s.run (x >>= f) = (.ok c, s'') ↔
      ∃ a s', s.run x = (.ok a, s') ∧ s'.run (f a) = (.ok c, s'') := by
  rw [run_bind]
  constructor
  · intro h
    split at h
    · rename_i a s' hx
      exact ⟨a, s', hx, h⟩
    · simp at h
  · rintro ⟨a, s', hx, hf⟩
    rw [hx]
    exact hf

theorem run_discard (s : Session) (x : Action α) :
    s.run (discard x) =
      match s.run x with
      | (.ok _, s') => (.ok (), s')
      | (.error e, s') => (.error e, s') :=
  run_bind s x fun _ => pure ()

theorem run_discard_eq_ok {s s' : Session} {x : Action α} :
    s.run (discard x) = (.ok (), s') ↔ ∃ a, s.run x = (.ok a, s') := by
  rw [run_discard]
  rcases s.run x with ⟨e | a, s''⟩ <;> simp

@[simp]
theorem run_get (s : Session) : s.run (get : Action Session) = (.ok s, s) := rfl

@[simp]
theorem run_modify (s : Session) (f : Session → Session) :
    s.run (modify f : Action Unit) = (.ok (), f s) := rfl

@[simp]
theorem run_check_ok (s : Session) (a : α) : s.run (Action.check (.ok a)) = (.ok a, s) := rfl

theorem run_check_eq_ok {s s' : Session} {x : Except Cause α} {a : α} :
    s.run (Action.check x) = (.ok a, s') ↔ x = .ok a ∧ s' = s := by
  cases x with
  | ok a' => simp [eq_comm]
  | error cause =>
    refine ⟨fun h => ?_, fun h => ?_⟩
    · cases h
    · cases h.1

theorem run_readFile {s : Session} {path : Path} {text : String}
    (h : s.outlets.files.readText path = .ok text) :
    s.run (Action.readFile path) = (.ok text, s) := by
  rw [Action.readFile, run_bind_of_ok (run_get s), h, run_check_ok]

end Session

/-! ## Settings -/

namespace Session

/-- The settings that the next question goes to. -/
def settings (s : Session) : Except Error Settings :=
  (s.run Action.settings).1

theorem run_settings (s : Session) : s.run Action.settings =
    match s.settings with
    | .ok σ => (.ok σ, { s with settings? := some σ })
    | .error e => (.error e, s) := by
  obtain ⟨json, environment, settings?, registry, logs, outlets, now, isTerminal⟩ := s
  cases settings? with
  | some σ => rfl
  | none =>
    simp only [settings, Action.settings, run_bind, run_get]
    cases Settings.ofEnvironment json environment <;> rfl

/-- Asking whether a setting is on loads the settings if need be and answers from them. -/
theorem run_isSet (s : Session) (key : String) : s.run (Action.isSet key) =
    match s.settings with
    | .ok σ => (.ok (σ.getBool key (.bool true)).1,
      { s with settings? := some (σ.getBool key (.bool true)).2 })
    | .error e => (.error e, s) := by
  rw [Action.isSet, Action.ask, run_bind, run_settings]
  cases s.settings <;> rfl

/-- The settings a session would use depend on its library, its environment and what it has loaded.
-/
theorem settings_congr {s s' : Session} (hjson : s'.json = s.json)
    (henvironment : s'.environment = s.environment) (hsettings : s'.settings? = s.settings?) :
    s'.settings = s.settings := by
  obtain ⟨json, environment, settings?, registry, logs, outlets, now, isTerminal⟩ := s
  obtain ⟨json', environment', settings?', registry', logs', outlets', now', isTerminal'⟩ := s'
  dsimp only at hjson henvironment hsettings
  subst hjson henvironment hsettings
  cases settings?' with
  | some σ => rfl
  | none =>
    simp only [settings, Action.settings, run_bind, run_get]
    cases Settings.ofEnvironment json' environment' <;> rfl

def answer (s : Session) (key : String) : Except Error Bool :=
  (s.run (Action.isSet key)).1

theorem answer_eq (s : Session) (key : String) :
    s.answer key = s.settings.map fun σ => (σ.getBool key (.bool true)).1 := by
  rw [answer, run_isSet]
  cases s.settings <;> rfl

/-- Sessions with the same settings give the same answers. -/
theorem answer_congr {s s' : Session} (hjson : s'.json = s.json)
    (henvironment : s'.environment = s.environment) (hsettings : s'.settings? = s.settings?)
    (key : String) : s'.answer key = s.answer key := by
  rw [answer_eq, answer_eq, settings_congr hjson henvironment hsettings]

end Session

/-! ## Logs -/

namespace Log

/-- Whatever is written to the log, the text of the file is the same. -/
def Channel.Spares (l : Channel) (path : Path) : Prop :=
  ∀ (now : Time) (level : Level) (message : String) (context : Entries Value)
    (error? : Option Error) (o : Outlets),
    (l.write now level message context error? o).files.readText path = o.files.readText path

/-- A log line goes to a log, never to the output of the command. -/
theorem Handler.printed_handle (h : Handler) (r : Record) (o : Outlets) :
    (h.handle r o).printed = o.printed := by
  rw [Handler.handle]
  split
  · rfl
  · dsimp only
    repeat' split
    all_goals rfl

theorem Handler.printed_handleAll (hs : List Handler) (r : Record) (o : Outlets) :
    (Handler.handleAll hs r o).printed = o.printed := by
  induction hs generalizing o with
  | nil => rfl
  | cons h hs ih => exact (ih (h.handle r o)).trans (h.printed_handle r o)

/-- Nothing that is logged is printed. -/
theorem Channel.printed_write (l : Channel) (now : Time) (level : Level) (message : String)
    (context : Entries Value) (error? : Option Error) (o : Outlets) :
    (l.write now level message context error? o).printed = o.printed := by
  rw [Channel.write]
  split
  · exact Handler.printed_handleAll _ _ _
  · rfl

theorem Handler.files_handle {h : Handler}
    (hfile : ∀ path maxSize backups, h.sink ≠ .file path maxSize backups) (r : Record)
    (o : Outlets) : (h.handle r o).files = o.files := by
  rw [Handler.handle]
  split
  · rfl
  · dsimp only
    split
    · split <;> rfl
    · split <;> rfl
    · rename_i hsink
      exact absurd hsink (hfile _ _ _)
    · rfl

/-- A log that is written to no file spares all files. -/
theorem Channel.spares_of_handlers {l : Channel}
    (h : ∀ h ∈ l.handlers, ∀ path maxSize backups, h.sink ≠ .file path maxSize backups)
    (path : Path) : l.Spares path := by
  intro now level message context error? o
  have hhandle (hs : List Handler)
      (hfile : ∀ h ∈ hs, ∀ path maxSize backups, h.sink ≠ .file path maxSize backups) (r : Record)
      (o : Outlets) : (Handler.handleAll hs r o).files = o.files := by
    induction hs generalizing o with
    | nil => rfl
    | cons h hs ih =>
      rw [List.forall_mem_cons] at hfile
      exact (ih hfile.2 (h.handle r o)).trans (Handler.files_handle hfile.1 r o)
  rw [Channel.write]
  split
  · rw [hhandle _ h]
  · rfl

end Log

/-! ## What stays -/

/-- The second session is one after steps that register and parse views. -/
structure Session.Stays (paths : List Path) (s s' : Session) : Prop where
  json : s'.json = s.json
  answer : ∀ key, s'.answer key = s.answer key
  logs : s'.logs = s.logs
  printed : s'.outlets.printed = s.outlets.printed
  text : ∀ path ∈ paths, s'.outlets.files.readText path = s.outlets.files.readText path

/-- No log of the session is written to one of the files. -/
def Session.Spares (paths : List Path) (s : Session) : Prop :=
  ∀ path ∈ paths, ∀ l ∈ s.logs, l.2.Spares path

namespace Session

variable {paths : List Path} {s s' s'' : Session}

namespace Stays

theorem refl (s : Session) : s.Stays paths s :=
  ⟨rfl, fun _ => rfl, rfl, rfl, fun _ _ => rfl⟩

theorem trans (h : s.Stays paths s') (h' : s'.Stays paths s'') : s.Stays paths s'' where
  json := h'.json.trans h.json
  answer key := (h'.answer key).trans (h.answer key)
  logs := h'.logs.trans h.logs
  printed := h'.printed.trans h.printed
  text path hpath := (h'.text path hpath).trans (h.text path hpath)

/-- A session that logs elsewhere goes on logging elsewhere. -/
theorem spares (h : s.Stays paths s') (hs : s.Spares paths) : s'.Spares paths := by
  intro path hpath l hl
  exact hs path hpath l (h.logs ▸ hl)

/-- A change of the registry alone. -/
theorem of_registry (s : Session) (r : Registry) :
    s.Stays paths { s with registry := r } :=
  ⟨rfl, answer_congr rfl rfl rfl, rfl, rfl, fun _ _ => rfl⟩

end Stays

/-- At the start, all logs are written to the terminal. -/
theorem spares_start (json : Json.Library) (environment : Environment) (files : Files)
    (now : Log.Time) (paths : List Path) :
    (Session.start json environment files now).Spares paths := by
  intro path _ l hl
  obtain ⟨name, -, rfl⟩ := List.mem_map.1 hl
  refine Log.Channel.spares_of_handlers (fun h hh path' maxSize backups hsink => ?_) path
  rw [List.mem_singleton.1 hh] at hsink
  cases hsink

/-- A question changes nothing but what the settings keep. -/
theorem exists_run_isSet (s : Session) (key : String) (paths : List Path) :
    ∃ s', s.run (Action.isSet key) = (s.answer key, s') ∧ s.Stays paths s' ∧
      s'.registry = s.registry := by
  refine ⟨(s.run (Action.isSet key)).2, rfl, ?_⟩
  rw [run_isSet]
  cases hsettings : s.settings with
  | error e => exact ⟨.refl s, rfl⟩
  | ok σ =>
    refine ⟨⟨rfl, fun key' => ?_, rfl, rfl, fun _ _ => rfl⟩, rfl⟩
    rw [answer_eq, answer_eq, hsettings]
    exact congrArg Except.ok (σ.getBool_getBool key key' _ _)

/-- Writing a line to the log succeeds and keeps the files that are spared. -/
theorem exists_run_writeLog (hs : s.Spares paths) (name : String) (level : Log.Level)
    (message : String) (context : Entries Value) :
    ∃ s', s.run (Action.writeLog name level message context) = (.ok (), s') ∧
      s.Stays paths s' ∧ s'.registry = s.registry := by
  rw [Action.writeLog]
  refine ⟨_, run_modify s _, ?_⟩
  split
  · rename_i l hl
    refine ⟨⟨rfl, answer_congr rfl rfl rfl, rfl, l.printed_write _ _ _ _ _ _, fun path hpath => ?_⟩, rfl⟩
    exact hs path hpath _ (Entries.mem_of_get? hl) _ _ _ _ _ _
  · exact ⟨.refl s, rfl⟩

/-- Writing notices to the log succeeds, and keeps the files that are spared and the registry. -/
theorem exists_run_notices (hs : s.Spares paths) (ns : List Log.Notice) :
    ∃ s', s.run (ns.forM Action.notice) = (.ok (), s') ∧ s.Stays paths s' ∧
      s'.registry = s.registry := by
  induction ns generalizing s with
  | nil => exact ⟨s, rfl, .refl s, rfl⟩
  | cons n ns ih =>
    obtain ⟨s₁, hrun, hstays, hregistry⟩ :=
      exists_run_writeLog hs n.log n.level n.message n.context
    obtain ⟨s', hrest, hstays', hregistry'⟩ := ih (hstays.spares hs)
    exact ⟨s', (run_bind_of_ok hrun _).trans hrest, hstays.trans hstays',
      hregistry'.trans hregistry⟩

end Session

/-! ## Views -/

/-- The view that is registered without options. -/
def View.plain (name source : String) (minifies : Bool) : View :=
  { name, source, textOption := .bool false, unminifiedOption := .bool !minifies, elements := [],
    attributes := [], arrays := [], template? := none }

theorem View.isPlain_plain (name source : String) (minifies : Bool) :
    (View.plain name source minifies).IsPlain :=
  ⟨rfl, rfl⟩

/-- What comes of registering a view once it is made: every tag has to be a key. -/
def View.accepted (v : View) : Except Error View :=
  match v.elements.find? (!·.isKey) with
  | some tag => .error (.of (.notKey tag))
  | none => .ok v

namespace Action

def minifies (o : ViewOptions) : Action Bool :=
  match o.unminified with
  | .null => isSet "parser.minify"
  | _ => pure true

def enter (v : View) : Action View := do
  modify fun session => { session with registry := session.registry.insert v }
  match v.elements.find? (!·.isKey) with
  | some tag => throw (.of (.notKey tag))
  | none =>
    notice v.registered
    return v

theorem register_eq (name source : String) (o : ViewOptions) :
    register name source o = (do
      let minifies ← minifies o
      let v ← check (View.ofOptions name source minifies o)
      enter v) := by
  rw [register, minifies]
  cases o.unminified <;> rfl

end Action

/-- A view that cannot be parsed fails with an error of the engine's own. -/
theorem View.isOwn_of_parse (v : View) {r : Registry} {strict : Bool} {e : Error}
    (h : (v.parse r strict).1 = .error e) : e.kind.isOwn = true := by
  rw [View.parse] at h
  dsimp only at h
  cases hread : (v.readAs r strict v.readSource).1 with
  | ok t =>
    rw [hread] at h
    cases h
  | error e' =>
    rw [hread] at h
    cases h
    exact e'.isOwn_kind_within _

namespace Session

variable {paths : List Path} {s : Session}

/-- Whether a source is minified, which is asked only if the options leave it open. -/
def minifies (s : Session) (o : ViewOptions) : Except Error Bool :=
  match o.unminified with
  | .null => s.answer "parser.minify"
  | _ => .ok true

def made (s : Session) (name source : String) (o : ViewOptions) : Except Error View :=
  (s.minifies o).bind fun minifies => (View.ofOptions name source minifies o).mapError Error.of

/-- Entering a view inserts it and answers whether it was accepted. -/
theorem exists_run_enter (hs : s.Spares paths) (v : View) :
    ∃ s', s.run (Action.enter v) = (v.accepted, s') ∧ s.Stays paths s' ∧
      s'.registry = s.registry.insert v := by
  have hstays : s.Stays paths { s with registry := s.registry.insert v } := .of_registry s _
  rw [Action.enter, run_bind_of_ok (run_modify s _), View.accepted]
  cases v.elements.find? (!·.isKey) with
  | some tag => exact ⟨_, rfl, hstays, rfl⟩
  | none =>
    obtain ⟨s', hnotice, hstays', hregistry⟩ := exists_run_writeLog (hstays.spares hs) Log.viewsLog
      .debug "Registered view" v.registered.context
    exact ⟨s', run_bind_of_ok hnotice _, hstays.trans hstays', hregistry⟩

/-- Registering puts the view into the registry if it can be made; all that it changes besides is
what the settings keep. -/
theorem exists_run_register (hs : s.Spares paths) (name source : String) (o : ViewOptions) :
    ∃ s', s.run (Action.register name source o) =
        ((s.made name source o).bind View.accepted, s') ∧ s.Stays paths s' ∧
      s'.registry = match s.made name source o with
        | .ok v => s.registry.insert v
        | .error _ => s.registry := by
  obtain ⟨s₁, hminifies, hstays, hregistry⟩ :
      ∃ s', s.run (Action.minifies o) = (s.minifies o, s') ∧ s.Stays paths s' ∧
        s'.registry = s.registry := by
    rw [minifies, Action.minifies]
    split
    · exact exists_run_isSet s _ paths
    · exact ⟨s, rfl, .refl s, rfl⟩
  rw [Action.register_eq, run_bind, hminifies]
  cases hanswer : s.minifies o with
  | error e =>
    have hmade : s.made name source o = .error e := by rw [made, hanswer, Except.bind]
    rw [hmade]
    exact ⟨s₁, rfl, hstays, hregistry⟩
  | ok minifies =>
    have hmade : s.made name source o =
        (View.ofOptions name source minifies o).mapError Error.of := by
      rw [made, hanswer, Except.bind]
    rw [hmade]
    dsimp only
    cases View.ofOptions name source minifies o with
    | error cause => exact ⟨s₁, rfl, hstays, hregistry⟩
    | ok v =>
      obtain ⟨s', hrun, hstays', hregistry'⟩ := exists_run_enter (hstays.spares hs) v
      rw [hregistry] at hregistry'
      exact ⟨s', hrun, hstays.trans hstays', hregistry'⟩

/-- Without options, a plain view is registered. -/
theorem exists_run_register_default {minifies : Bool} (hs : s.Spares paths)
    (hminifies : s.answer "parser.minify" = .ok minifies) (name source : String) :
    ∃ s', s.run (Action.register name source .default) =
        (.ok (.plain name source minifies), s') ∧ s.Stays paths s' ∧
      s'.registry = s.registry.insert (.plain name source minifies) := by
  have hmade : s.made name source .default = .ok (.plain name source minifies) := by
    rw [made, Session.minifies, ViewOptions.default, hminifies]
    rfl
  obtain ⟨s', hrun, hstays, hregistry⟩ := exists_run_register hs name source .default
  rw [hmade] at hrun hregistry
  exact ⟨s', hrun, hstays, hregistry⟩

/-- Without settings, no view can be registered. -/
theorem run_register_of_settings_error {e : Error} (h : s.settings = .error e)
    (name source : String) : s.run (Action.register name source .default) = (.error e, s) := by
  have hset : s.run (Action.isSet "parser.minify") = (.error e, s) := by
    rw [run_isSet, h]
  exact run_bind_of_error hset _

theorem run_tryCatch {α : Type} (s : Session) (x : Action α) (handle : Error → Action α) :
    s.run (tryCatch x handle) =
      match s.run x with
      | (.ok a, s') => (.ok a, s')
      | (.error e, s') => s'.run (handle e) := by
  simp only [Session.run, ExceptT.run_tryCatch, StateT.run_bind]
  obtain ⟨r, s'⟩ := StateT.run (ExceptT.run x) s
  cases r <;> rfl

theorem run_tryCatch_of_ok {α : Type} {s s' : Session} {x : Action α} {a : α}
    (h : s.run x = (.ok a, s')) (handle : Error → Action α) :
    s.run (tryCatch x handle) = (.ok a, s') := by
  rw [run_tryCatch, h]

/-- Parsing a view gives what its source gives, and keeps the template. -/
theorem exists_run_parse {strict : Bool} (hs : s.Spares paths)
    (hstrict : s.answer "parser.strict_close" = .ok strict) (v : View) :
    ∃ s', s.run (Action.parse v) = ((v.parse s.registry strict).1, s') ∧ s.Stays paths s' ∧
      s'.registry = match (v.parse s.registry strict).1 with
        | .ok t => s.registry.keepTemplate v.name t
        | .error _ => s.registry := by
  obtain ⟨s₁, hset, hstays, hregistry⟩ := exists_run_isSet s "parser.strict_close" paths
  rw [hstrict] at hset
  obtain ⟨s₂, hnotices, hstays₂, hregistry₂⟩ :=
    exists_run_notices (hstays.spares hs) (v.parse s.registry strict).2
  have hrun : s.run (Action.parse v) = s₁.run (do
      let t ← Action.finish (v.parse s.registry strict)
      modify fun session => { session with registry := session.registry.keepTemplate v.name t }
      return t) := by
    rw [Action.parse, run_bind_of_ok (run_tryCatch_of_ok hset _), run_bind_of_ok (run_get s₁),
      hregistry]
  cases hparse : (v.parse s.registry strict).1 with
  | ok t =>
    have hfinish : s₁.run (Action.finish (v.parse s.registry strict)) = (.ok t, s₂) := by
      rw [Action.finish, run_bind_of_ok hnotices, hparse]
      rfl
    rw [run_bind_of_ok hfinish, run_bind_of_ok (run_modify s₂ _)] at hrun
    refine ⟨_, hrun, (hstays.trans hstays₂).trans (.of_registry s₂ _), ?_⟩
    rw [hregistry₂, hregistry]
  | error e =>
    have hfinish : s₁.run (Action.finish (v.parse s.registry strict)) = (.error e, s₂) := by
      rw [Action.finish, run_bind_of_ok hnotices, hparse]
      rfl
    rw [run_bind_of_error hfinish] at hrun
    exact ⟨s₂, hrun, hstays.trans hstays₂, hregistry₂.trans hregistry⟩

/-- Parsing a view succeeds exactly if its source parses; otherwise it tells so by an error of the
template language. -/
theorem exists_run_parse_cases {strict : Bool} (hs : s.Spares paths)
    (hstrict : s.answer "parser.strict_close" = .ok strict) (v : View) :
    ∃ s', s.Stays paths s' ∧
      ((v.parses s.registry strict = true ∧ ∃ t, s.run (Action.parse v) = (.ok t, s') ∧
          s'.registry = s.registry.keepTemplate v.name t) ∨
        (v.parses s.registry strict = false ∧ ∃ e, s.run (Action.parse v) = (.error e, s') ∧
          e.kind.isOwn = true ∧ s'.registry = s.registry)) := by
  obtain ⟨s', hrun, hstays, hregistry⟩ := exists_run_parse hs hstrict v
  refine ⟨s', hstays, ?_⟩
  rw [View.parses]
  cases hparse : (v.parse s.registry strict).1 with
  | ok t =>
    rw [hparse] at hrun hregistry
    exact .inl ⟨rfl, t, hrun, hregistry⟩
  | error e =>
    rw [hparse] at hrun hregistry
    exact .inr ⟨rfl, e, hrun, v.isOwn_of_parse hparse, hregistry⟩

/-- A file below a directory that is loaded is registered as it stands. -/
theorem exists_register_of_run {directory path : Path} {v : View} {s' : Session}
    (h : s.run (do
      let name ← Action.check (Action.viewName directory path)
      Action.register name (← Action.readFile path) .default) = (.ok v, s')) :
    ∃ name source, s.run (Action.register name source .default) = (.ok v, s') := by
  obtain ⟨name, s₁, hname, hread⟩ := run_bind_eq_ok.1 h
  obtain ⟨-, rfl⟩ := run_check_eq_ok.1 hname
  obtain ⟨source, s₂, hsource, hregister⟩ := run_bind_eq_ok.1 hread
  rw [Action.readFile, run_bind_of_ok (run_get _)] at hsource
  obtain ⟨-, rfl⟩ := run_check_eq_ok.1 hsource
  exact ⟨name, source, hregister⟩

/-- The views of a directory are plain, and loading them changes the registry alone. -/
theorem stays_of_run_loadViews {minifies : Bool} {directory : Path} {ending : String}
    {vs : List View} {s' : Session} (hs : s.Spares paths)
    (hminifies : s.answer "parser.minify" = .ok minifies) (hplain : s.registry.IsPlain)
    (h : s.run (Action.loadViews directory ending) = (.ok vs, s')) :
    s.Stays paths s' ∧ s'.registry.IsPlain := by
  rw [Action.loadViews, run_bind_of_ok (run_get s)] at h
  obtain ⟨found, s₁, hfound, hload⟩ := run_bind_eq_ok.1 h
  obtain ⟨-, rfl⟩ := run_check_eq_ok.1 hfound
  clear h hfound
  induction found generalizing s₁ vs with
  | nil =>
    cases hload
    exact ⟨.refl _, hplain⟩
  | cons path found ih =>
    rw [List.mapM_cons] at hload
    obtain ⟨v, s₂, hview, hrest⟩ := run_bind_eq_ok.1 hload
    obtain ⟨vs', s₃, hviews, hok⟩ := run_bind_eq_ok.1 hrest
    cases hok
    obtain ⟨name, source, hregister⟩ := exists_register_of_run hview
    obtain ⟨s₄, hrun, hstays, hregistry⟩ := exists_run_register_default hs hminifies name source
    obtain ⟨-, rfl⟩ := Prod.mk.inj (hrun.symm.trans hregister)
    have hplain' : s₄.registry.IsPlain :=
      hregistry ▸ hplain.insert (View.isPlain_plain _ _ _) rfl
    obtain ⟨hstays', hplain''⟩ :=
      ih s₄ hviews (hstays.spares hs) ((hstays.answer _).trans hminifies) hplain'
    exact ⟨hstays.trans hstays', hplain''⟩

/-- Without settings, only a directory without views can be loaded. -/
theorem eq_of_run_loadViews_of_settings_error {e : Error} {directory : Path} {ending : String}
    {vs : List View} {s' : Session} (hsettings : s.settings = .error e)
    (h : s.run (Action.loadViews directory ending) = (.ok vs, s')) : s' = s := by
  rw [Action.loadViews, run_bind_of_ok (run_get s)] at h
  obtain ⟨found, s₁, hfound, hload⟩ := run_bind_eq_ok.1 h
  obtain ⟨-, rfl⟩ := run_check_eq_ok.1 hfound
  cases found with
  | nil =>
    cases hload
    rfl
  | cons path found =>
    rw [List.mapM_cons] at hload
    obtain ⟨v, s₂, hview, -⟩ := run_bind_eq_ok.1 hload
    obtain ⟨name, source, hregister⟩ := exists_register_of_run hview
    rw [run_register_of_settings_error hsettings] at hregister
    cases hregister

end Session

end Stencil
