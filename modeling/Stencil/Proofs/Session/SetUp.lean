import Stencil.Proofs.Session

/-!
# Setting up a session

Steps that ask for settings, load them and configure the logs. Whether they succeed or not, they
leave the registry and all that has been written alone, and settings that are there stay there. As
long as no log file is asked for, all logs go to the terminal.
-/

namespace Stencil

/-- What is written to the log goes to the terminal alone. -/
def Log.Channel.ToTerminal (l : Log.Channel) : Prop :=
  ∀ h ∈ l.handlers, h.sink = .terminal

namespace Session

/-- All logs are written to the terminal alone. -/
def LogsToTerminal (s : Session) : Prop :=
  ∀ l ∈ s.logs, l.2.ToTerminal

/-- A session that logs to the terminal spares every file. -/
theorem LogsToTerminal.spares {s : Session} (h : s.LogsToTerminal) (paths : List Path) :
    s.Spares paths := by
  intro path _ l hl
  refine Log.Channel.spares_of_handlers (fun h' hh' path' maxSize backups hsink => ?_) path
  rw [h l hl h' hh'] at hsink
  cases hsink

/-- A session starts with its log on the terminal. -/
theorem logsToTerminal_start (json : Json.Library) (environment : Environment) (files : Files)
    (now : Log.Time) : (Session.start json environment files now).LogsToTerminal := by
  intro l hl h hh
  obtain ⟨name, -, rfl⟩ := List.mem_map.1 hl
  rw [List.mem_singleton.1 hh]

theorem run_setting {s : Session} {σ : Settings} (h : s.settings? = some σ) (key : String)
    (default : Value) : s.run (Action.setting key default) =
      (.ok (σ.get key default).1, { s with settings? := some (σ.get key default).2 }) := by
  obtain ⟨json, environment, settings?, registry, logs, outlets, now, isTerminal⟩ := s
  dsimp only at h
  subst h
  rfl

/-- The second session is one after steps that set up settings and logs. -/
structure SetUp (s s' : Session) : Prop where
  json : s'.json = s.json
  registry : s'.registry = s.registry
  outlets : s'.outlets = s.outlets
  logs : s.LogsToTerminal → s'.LogsToTerminal
  settings : s.settings?.isSome → s'.settings?.isSome

theorem exists_answer {s : Session} (h : s.settings?.isSome) (key : String) :
    ∃ b, s.answer key = .ok b := by
  obtain ⟨σ, hσ⟩ := Option.isSome_iff_exists.1 h
  have hsettings : s.settings = .ok σ := by
    rw [settings, Action.settings, run_bind_of_ok (run_get s), hσ]
    rfl
  rw [answer_eq, hsettings]
  exact ⟨_, rfl⟩

theorem SetUp.trans {s s' s'' : Session} (h : s.SetUp s') (h' : s'.SetUp s'') : s.SetUp s'' where
  json := h'.json.trans h.json
  registry := h'.registry.trans h.registry
  outlets := h'.outlets.trans h.outlets
  logs := h'.logs ∘ h.logs
  settings := h'.settings ∘ h.settings

end Session

namespace Action

variable {α β : Type}

/-- Whether it succeeds or not, the step sets up settings and logs and does nothing else. -/
def SetsUp (x : Action α) : Prop :=
  ∀ s : Session, s.SetUp (s.run x).2

theorem setsUp_pure (a : α) : SetsUp (pure a : Action α) :=
  fun _ => ⟨rfl, rfl, rfl, id, id⟩

theorem setsUp_get : SetsUp (get : Action Session) :=
  fun _ => ⟨rfl, rfl, rfl, id, id⟩

theorem setsUp_check (x : Except Cause α) : SetsUp (check x) := by
  cases x <;> exact fun _ => ⟨rfl, rfl, rfl, id, id⟩

theorem SetsUp.bind {x : Action α} {f : α → Action β} (hx : SetsUp x) (hf : ∀ a, SetsUp (f a)) :
    SetsUp (x >>= f) := by
  intro s
  have hs := hx s
  rw [Session.run_bind]
  cases hrun : s.run x with | mk result s' =>
  rw [hrun] at hs
  cases result with
  | error e => exact hs
  | ok a => exact hs.trans (hf a s')

theorem setsUp_setSettings (σ : Settings) : SetsUp (setSettings σ) :=
  fun _ => ⟨rfl, rfl, rfl, id, fun _ => rfl⟩

theorem setsUp_settings : SetsUp settings := by
  refine setsUp_get.bind fun s => ?_
  cases s.settings? with
  | some σ => exact setsUp_pure σ
  | none =>
    refine setsUp_get.bind fun s => (setsUp_check _).bind fun σ => ?_
    exact (setsUp_setSettings σ).bind fun _ => setsUp_pure σ

theorem setsUp_setting (key : String) (default : Value) : SetsUp (setting key default) :=
  setsUp_settings.bind fun _ => (setsUp_setSettings _).bind fun _ => setsUp_pure _

/-- Loading a settings file is part of setting up. -/
theorem setsUp_loadSettings (path : String) : SetsUp (loadSettings path) :=
  setsUp_settings.bind fun _ => setsUp_get.bind fun _ =>
    (setsUp_check _).bind fun σ => setsUp_setSettings σ

theorem setsUp_log (name : String) : SetsUp (log name none) := by
  refine setsUp_get.bind fun s => ?_
  cases Entries.get? name s.logs with
  | some l => exact setsUp_pure l
  | none =>
    refine (setsUp_setting _ _).bind fun v => (setsUp_check _).bind fun level => ?_
    refine setsUp_get.bind fun s => ?_
    refine SetsUp.bind (fun s' => ⟨rfl, rfl, rfl, fun hlogs => ?_, id⟩) fun _ => setsUp_pure _
    exact Entries.forall_mem_set hlogs fun h hh => by rw [List.mem_singleton.1 hh]

/-- Without a log file, configuring the log is part of setting up. All handlers are replaced, so it
does not matter where the logs went before. -/
theorem setsUp_configureLogs (level format : Value) (colors : Bool) :
    SetsUp (configureLogs level format none colors) := by
  refine (setsUp_check _).bind fun level => setsUp_get.bind fun s => ?_
  refine SetsUp.bind ?_ fun _ => ?_
  · exact (setsUp_log _).bind fun _ => setsUp_pure _
  · intro s'
    refine ⟨rfl, rfl, rfl, fun _ l hl h hh => ?_, id⟩
    obtain ⟨e, -, rfl⟩ := List.mem_map.1 hl
    rw [List.mem_singleton.1 hh]

end Action

end Stencil
