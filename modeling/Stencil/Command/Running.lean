import Stencil.Command.Invocation
import Stencil.Session
import Stencil.Template.Dump

/-!
# Running a command

`Command.run` is a whole run of the program as a function: from the arguments, the environment and
the files to what is printed, what is logged and which files change. It takes the library that reads
and writes JSON. `parse` prints the tree of a template as JSON; `check` tells for each template
whether it parses.
-/

namespace Stencil.Command

def loadViews (directory? : Option String) : Action Unit :=
  match directory? with
  | some directory => discard (Action.loadViews (.ofText directory) ".html")
  | none => pure ()

def registerFile (path : Path) (name? : Option String) (options : ViewOptions) : Action View := do
  let source ← Action.readFile path
  Action.register (name?.getD path.stem) source options

def parse (o : ParseOptions) : Action Nat := do
  loadViews o.views?
  let options : ViewOptions :=
    { ViewOptions.default with
      isText := .bool o.isText
      unminified := if o.unminified then .bool true else .null }
  let v ← registerFile (.ofText o.file) o.name? options
  let t ← Action.parse v
  let layout : Json.Layout := if o.indent then .lines else .compact
  Action.print ((← Action.check ((← get).json.write layout t.dump)) ++ "\n")
  return 0

/-- Whether the template in a file parses; if it does not, the error. -/
def verdict (file : String) : Action (Option Error) := do
  let v ← registerFile (.ofText file) none .default
  try
    discard (Action.parse v)
    return none
  catch e => if e.kind.isOwn then return some e else throw e

def report (file : String) (error? : Option Error) : Action Unit :=
  match error? with
  | none => Action.print ("OK   " ++ file ++ "\n")
  | some e => do
    Action.print ("FAIL " ++ file ++ ": " ++ Text.firstLine e.message ++ "\n")
    Action.writeLog Log.commandLog .debug "Template failed"
      [("file", .text file), ("error", .text e.message)]

def check (o : CheckOptions) : Action Nat := do
  loadViews o.views?
  let verdicts ← o.files.mapM fun file => do
    let error? ← verdict file
    report file error?
    return error?
  let failed := (verdicts.filter Option.isSome).length
  Action.writeLog Log.commandLog .info "Checked templates"
    [("files", .int o.files.length), ("failed", .int failed)]
  return if failed = 0 then 0 else 1

def runTask : Task → Action Nat
  | .parse o => parse o
  | .check o => check o

/-- Whether an error ends a command with a message; others end the run. -/
def isReported (e : Error) : Bool :=
  e.kind.isOwn || e.kind.isFile

def perform (task : Task) : Action Nat := do
  try runTask task
  catch e =>
    if isReported e then
      Action.writeLog Log.commandLog .error "Command failed"
        [("command", .text task.name), ("error", .text e.kind.name)]
      Action.complain ("Error: " ++ e.message ++ "\n")
      return 1
    else throw e

def prepare (i : Invocation) : Action Unit := do
  discard Action.settings
  match i.config? with
  | some path => Action.loadSettings path
  | none => pure ()
  let level ← Action.setting "logging.level" (.text "WARNING")
  let format ← Action.setting "logging.format" (.text "text")
  Action.configureLogs ((i.logLevel?.map .text).getD level) ((i.logFormat?.map .text).getD format)
    i.logFile? true

/-- Does what an invocation asks for; without a command, that is to show the help. -/
def invoke (i : Invocation) : Action Nat := do
  prepare i
  match i.task? with
  | some task => perform task
  | none =>
    Action.print helpText
    return 0

inductive Ending where
  | exit (code : Nat)
  /-- The arguments are not as they have to be. -/
  | misused
  | failed (e : Error)

structure Outcome where
  ending : Ending
  printed : String
  logged : String
  files : Files

def runIn (s : Session) (args : List String) : Outcome :=
  match Invocation.read args with
  | .error .misuse => ⟨.misused, "", "", s.outlets.files⟩
  | .error (.answer text) => ⟨.exit 0, text, "", s.outlets.files⟩
  | .ok i =>
    let (result, s) := s.run (invoke i)
    let ending := match result with
      | .ok code => .exit code
      | .error e => .failed e
    ⟨ending, s.outlets.printed, s.outlets.terminal, s.outlets.files⟩

def run (json : Json.Library) (environment : Environment) (files : Files) (now : Log.Time)
    (args : List String) : Outcome :=
  runIn (.start json environment files now) args

end Stencil.Command
