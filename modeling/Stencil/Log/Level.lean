import Stencil.Error
import Stencil.Text.Case
import Stencil.Value.Same

/-!
# Levels and notices

The five levels of a log, their names and their numbers. A notice is what the library has to tell
about its own work: a message of some level, for the log of that name, with named values as context.
-/

namespace Stencil.Log

inductive Level where
  | debug
  | info
  | warning
  | error
  | critical
deriving DecidableEq, Repr

namespace Level

def all : List Level :=
  [.debug, .info, .warning, .error, .critical]

def name : Level → String
  | .debug => "DEBUG"
  | .info => "INFO"
  | .warning => "WARNING"
  | .error => "ERROR"
  | .critical => "CRITICAL"

def number : Level → Nat
  | .debug => 10
  | .info => 20
  | .warning => 30
  | .error => 40
  | .critical => 50

def passes (l threshold : Level) : Bool :=
  threshold.number ≤ l.number

/-- Reads a level: a text is a name in any case, anything else has to be the number. -/
def read (v : Value) : Except Cause Level :=
  match v with
  | .text s =>
    match all.find? fun l => l.name == Text.uppercase s with
    | some l => .ok l
    | none => .error (.unknownLevelName s)
  | v =>
    match all.find? fun l => v.same (.int l.number) with
    | some l => .ok l
    | none => .error (.unknownLevel v)

end Level

structure Notice where
  log : String
  level : Level
  message : String
  context : Entries Value
deriving Repr

/-- The logs that exist from the start. -/
def parserLog : String := "tessera.parser"
def viewsLog : String := "tessera.views"
def commandLog : String := "tessera.cli"

end Stencil.Log
