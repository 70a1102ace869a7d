import Stencil.Json.Library
import Stencil.Log.Level
import Stencil.Log.Time
import Stencil.Text.Placeholder
import Stencil.Text.Search

/-!
# Log records

A record is what a log writes once: a message of some level, with named values and perhaps an
error, at a point in time. A formatter turns it into a text, as one JSON object or as a line after
a pattern.
-/

namespace Stencil.Log

/-- What a message reports as its error: an error, or a plain value in its stead. -/
inductive Reported where
  | error (e : Error)
  | value (v : Value)
deriving Repr

namespace Reported

def kindName : Reported → String
  | .error e => e.kind.name
  | .value v => v.kindName

def message : Reported → String
  | .error e => e.message
  | .value v => v.plain

/-- The lines about an error at the end of a record. A plain value has none to give. -/
def lines : Reported → Except Cause String
  | .error e => .ok ("\n" ++ (if e.kind.isOwn then "tessera.errors." else "") ++ e.kind.name ++
      (if e.message = "" then "" else ": " ++ e.message) ++ "\n")
  | .value v => .error (.notError v)

end Reported

structure Record where
  level : Level
  message : String
  time : Time
  context : Entries Value
  reported? : Option Reported
  logger : String
deriving Repr

namespace Record

/-- The record as an object; what is empty is left out. -/
def fields (r : Record) : Entries Value :=
  [("timestamp", .text r.time.standard), ("level", .text r.level.name),
    ("message", .text r.message), ("logger", .text r.logger)] ++
  (if r.context.isEmpty then [] else [("context", .object r.context)]) ++
  match r.reported? with
  | none => []
  | some e =>
    [("exception", .object [("type", .text e.kindName), ("message", .text e.message)])]

def json (r : Record) (library : Json.Library) (layout : Json.Layout) : Except Cause String :=
  library.write layout (.object r.fields)

def messageText (r : Record) : String :=
  if r.context.isEmpty then r.message
  else r.message ++ " " ++ Text.join " " (r.context.map fun p => p.1 ++ "=" ++ p.2.plain)

end Record

inductive Formatter where
  | json (library : Json.Library) (layout : Json.Layout)
  /-- A line after a pattern of the names timestamp, level, message and logger. -/
  | text (pattern dates : String) (isColored : Bool)
  /-- No format at all. -/
  | unset

namespace Formatter

def usualPattern : String := "\x7btimestamp\x7d [\x7blevel\x7d] \x7bmessage\x7d"

def usualDates : String := "%Y-%m-%d %H:%M:%S"

def usual (isColored : Bool) : Formatter :=
  .text usualPattern usualDates isColored

def color : Level → String
  | .debug => "\x1b[36m"
  | .info => "\x1b[32m"
  | .warning => "\x1b[33m"
  | .error => "\x1b[31m"
  | .critical => "\x1b[35m"

def levelText (isColored : Bool) (l : Level) : String :=
  if isColored then color l ++ l.name ++ "\x1b[0m" else l.name

def format (f : Formatter) (r : Record) : Except Cause String :=
  match f with
  | .json library layout => r.json library layout
  | .text pattern dates isColored =>
    let values := [("timestamp", r.time.text dates), ("level", levelText isColored r.level),
      ("message", r.messageText), ("logger", r.logger)]
    (Text.fill values pattern).bind fun line =>
      match r.reported? with
      | some e => e.lines.map (line ++ ·)
      | none => .ok line
  | .unset => .error .abstractMethod

end Formatter

end Stencil.Log
