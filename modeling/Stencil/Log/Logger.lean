import Stencil.Log.Handler
import Stencil.Log.Level

/-!
# Loggers

A logger makes records of its level and above and hands them to handlers. It may carry a context,
named values that go into each of its records. A channel is a logger with handlers of its own;
several loggers may also share the handlers of one.
-/

namespace Stencil.Log

structure Logger where
  name : String
  level : Level
  context : Entries Value
deriving Repr

namespace Logger

def isEnabled (l : Logger) (level : Level) : Bool :=
  level.passes l.level

/-- The first name of a context that is taken already. -/
def checkNames (taken : List String) (context : Entries Value) : Except Cause Unit :=
  match (Entries.keys context).find? taken.contains with
  | some name => .error (.takenName name)
  | none => .ok ()

def withContext (l : Logger) (context : Entries Value) : Except Cause Logger := do
  checkNames ["self"] context
  return { l with context := l.context.update context }

/-- Fails if the context of a message has a name that the message itself has. -/
def checkContext (context : Entries Value) : Except Cause Unit :=
  checkNames ["self", "level", "message"] context

def errorName : String := "exception"

/-- What a message reports as its error: the error it comes with, or else what its context gives,
unless that counts as false. -/
def reportedIn (context : Entries Value) (error? : Option Error) : Option Reported :=
  match error? with
  | some e => some (.error e)
  | none => ((Entries.get? errorName context).filter Value.truthy).map .value

/-- The record of a message, unless its level is too low. -/
def record? (l : Logger) (now : Time) (level : Level) (message : String) (context : Entries Value)
    (error? : Option Error) : Option Record :=
  if l.isEnabled level then
    some
      { level, message, logger := l.name
        time := now
        context := l.context.update (Entries.erase errorName context)
        reported? := reportedIn context error? }
  else none

end Logger

structure Channel where
  logger : Logger
  handlers : List Handler

namespace Channel

def write (l : Channel) (now : Time) (level : Level) (message : String) (context : Entries Value)
    (error? : Option Error) (o : Outlets) : Outlets :=
  match l.logger.record? now level message context error? with
  | some r => Handler.handleAll l.handlers r o
  | none => o

def toTerminal (name : String) (level : Level) (isColored : Bool) : Channel :=
  ⟨⟨name, level, []⟩, [⟨.terminal, .usual isColored, .debug⟩]⟩

def reset (l : Channel) (level : Level) (handlers : List Handler) : Channel :=
  { logger := { l.logger with level }, handlers }

end Channel

def initialLogs : Entries Channel :=
  [commandLog, parserLog, viewsLog].map fun name => (name, .toTerminal name .warning false)

/-- The log that stands for all of them. -/
def rootLog : String := "tessera"

inductive Format where
  | json
  | text (isColored : Bool)

def Format.formatter (json : Json.Library) : Format → Formatter
  | .json => .json json .compact
  | .text isColored => .usual isColored

/-- Without colors, as in files. -/
def Format.plain : Format → Format
  | .json => .json
  | .text _ => .text false

/-- Files grow up to this many bytes before they are put aside. -/
def usualMaxSize : Int := 10 * 1024 * 1024

def usualBackups : Nat := 3

/-- The handlers of configured logs: the terminal, and a file if one is given. -/
def handlersFor (json : Json.Library) (level : Level) (format : Format) (file? : Option Path) :
    List Handler :=
  ⟨.terminal, format.formatter json, level⟩ ::
    match file? with
    | some path => [⟨.file path usualMaxSize usualBackups, format.plain.formatter json, level⟩]
    | none => []

end Stencil.Log
