import Stencil.Files.Pattern
import Stencil.Log.Logger
import Stencil.Settings.Sources
import Stencil.View.Parsing

/-!
# Sessions

A session holds what the steps of one run share: the library for JSON, the environment, the settings
once they have been asked for, the registered views, the logs, and all that has been written. A step
that fails keeps what it did before.
-/

namespace Stencil

structure Session where
  json : Json.Library
  environment : Environment
  /-- The settings, from the first time that they are asked for. -/
  settings? : Option Settings
  registry : Registry
  logs : Entries Log.Channel
  outlets : Log.Outlets
  now : Log.Time
  /-- Whether logs on the terminal may have colors. -/
  isTerminal : Bool

def Session.start (json : Json.Library) (environment : Environment) (files : Files)
    (now : Log.Time) : Session :=
  { json
    environment
    settings? := none
    registry := .empty
    logs := Log.initialLogs
    outlets := .ofFiles files
    now
    isTerminal := false }

/-- Steps of a session; a failure keeps the state. -/
abbrev Action := ExceptT Error (StateM Session)

def Session.run {α : Type} (s : Session) (step : Action α) : Except Error α × Session :=
  StateT.run (ExceptT.run step) s

namespace Action

def check {α : Type} : Except Cause α → Action α
  | .ok a => pure a
  | .error cause => throw (.of cause)

def print (s : String) : Action Unit :=
  modify fun session => { session with outlets := session.outlets.print s }

/-- Writes to the terminal, outside all logs. -/
def complain (s : String) : Action Unit :=
  modify fun session => { session with outlets := session.outlets.writeTerminal s }

/-- Changes the files. What has been done before a failure stays. -/
def changeFiles (change : Files → Files × Option Cause) : Action Unit := do
  let (files, failure?) := change (← get).outlets.files
  modify fun session => { session with outlets := { session.outlets with files } }
  match failure? with
  | some cause => throw (.of cause)
  | none => pure ()

def readFile (path : Path) : Action String := do
  check ((← get).outlets.files.readText path)

/-! ## Settings -/

/-- The settings, made from the environment the first time. -/
def settings : Action Settings := do
  match (← get).settings? with
  | some s => return s
  | none =>
    let session ← get
    let s ← check (Settings.ofEnvironment session.json session.environment)
    modify fun session => { session with settings? := some s }
    return s

def setSettings (s : Settings) : Action Unit :=
  modify fun session => { session with settings? := some s }

def ask {α : Type} (question : Settings → α × Settings) : Action α := do
  let (a, s) := question (← settings)
  setSettings s
  return a

def setting (key : String) (default : Value) : Action Value :=
  ask (·.get key default)

def isSet (key : String) : Action Bool :=
  ask (·.getBool key (.bool true))

def set (key : String) (v : Value) : Action Unit := do
  setSettings (← check ((← settings).set key v))

/-- Forgets the settings; they are made anew when they are next asked for. -/
def resetSettings : Action Unit :=
  modify fun session => { session with settings? := none }

def loadSettings (path : String) : Action Unit := do
  let s ← settings
  let session ← get
  setSettings (← check (s.load session.json session.outlets.files path))

/-! ## Logs -/

def writeLog (name : String) (level : Log.Level) (message : String) (context : Entries Value) :
    Action Unit :=
  modify fun session =>
    match Entries.get? name session.logs with
    | some l =>
      { session with outlets := l.write session.now level message context none session.outlets }
    | none => session

def notice (n : Log.Notice) : Action Unit :=
  writeLog n.log n.level n.message n.context

/-- The log of a name. A new one writes to the terminal, at the level of the settings if none is
given. -/
def log (name : String) (level? : Option Log.Level) : Action Log.Channel := do
  match Entries.get? name (← get).logs with
  | some l => return l
  | none =>
    let level ← match level? with
      | some level => pure level
      | none => do check (Log.Level.read (← setting "logging.level" (.text "WARNING")))
    let l := Log.Channel.toTerminal name level (← get).isTerminal
    modify fun session => { session with logs := Entries.set name l session.logs }
    return l

/-- Gives all logs one level and the same handlers. -/
def configureLogs (level format : Value) (file? : Option String) (colors : Bool) :
    Action Unit := do
  let level ← check (Log.Level.read level)
  let colors := colors && (← get).isTerminal
  let format : Log.Format := match format with
    | .text "json" => .json
    | _ => .text colors
  let path? := (file?.filter (· != "")).map Path.ofText
  match path? with
  | some path => changeFiles (·.makeDirectory path.parent)
  | none => pure ()
  discard (log Log.rootLog none)
  modify fun session =>
    { session with
      logs :=
        session.logs.mapValues (·.reset level (Log.handlersFor session.json level format path?)) }

/-! ## Views -/

/-- Registers a view. A tag that is no key is a failure, but the view is then registered. -/
def register (name source : String) (options : ViewOptions) : Action View := do
  let minifies ← match options.unminified with
    | .null => isSet "parser.minify"
    | _ => pure true
  let v ← check (View.ofOptions name source minifies options)
  modify fun session => { session with registry := session.registry.insert v }
  match v.elements.find? (!·.isKey) with
  | some tag => throw (.of (.notKey tag))
  | none =>
    notice v.registered
    return v

/-- Passes on the notices of a reading, and then its result. -/
def finish (outcome : Except Error Template × List Log.Notice) : Action Template := do
  outcome.2.forM notice
  match outcome.1 with
  | .ok t => return t
  | .error e => throw e

def read (v : View) (source : String) : Action Template := do
  let strict ← isSet "parser.strict_close"
  finish (v.readAs (← get).registry strict source)

def parse (v : View) : Action Template := do
  let strict ← try isSet "parser.strict_close" catch e => throw (e.within v.context)
  let t ← finish (v.parse (← get).registry strict)
  modify fun session => { session with registry := session.registry.keepTemplate v.name t }
  return t

/-- The name of the view in a file below a directory: the names that lead to it from there, without
the extension. -/
def viewName (directory path : Path) : Except Cause String := do
  let inside : Path := ⟨.here, path.names.drop directory.names.length⟩
  return Text.join ":" (← inside.withExtension "").names

/-- Registers the view in every file below a directory whose name has the given ending, which may
hold wildcards. -/
def loadViews (directory : Path) (ending : String) : Action (List View) := do
  let paths ← check ((← get).outlets.files.find directory ("*" ++ ending))
  paths.mapM fun path => do
    let name ← check (viewName directory path)
    register name (← readFile path) .default

end Action

end Stencil
