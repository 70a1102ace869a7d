import Stencil.Files.Changing
import Stencil.Log.Record

/-!
# Handlers

A handler takes the records of its level and above, formats them and writes them somewhere: to the
terminal, to a stream of its own, or to a file. A file that has grown beyond its size is put aside
before the next record: the backups `.1`, `.2`, … each move up by one, and the file becomes `.1`.

A record that cannot be written is dropped, but what happened before the failure stays.
-/

namespace Stencil.Log

inductive Sink where
  | terminal
  /-- One of the streams, by number. -/
  | stream (index : Nat)
  | file (path : Path) (maxSize : Int) (backups : Nat)
  /-- Nowhere: every record fails. -/
  | nowhere

structure Handler where
  sink : Sink
  formatter : Formatter
  level : Level

structure Outlets where
  /-- The answers of a command, apart from all that is logged. -/
  printed : String
  terminal : String
  streams : List String
  files : Files

namespace Outlets

def ofFiles (files : Files) : Outlets :=
  ⟨"", "", [], files⟩

def print (o : Outlets) (s : String) : Outlets :=
  { o with printed := o.printed ++ s }

def writeTerminal (o : Outlets) (s : String) : Outlets :=
  { o with terminal := o.terminal ++ s }

def writeStream (o : Outlets) (index : Nat) (s : String) : Outlets :=
  { o with streams := o.streams.modify index (· ++ s) }

end Outlets

namespace Rotation

def backup (path : Path) (n : Nat) : Except Cause Path :=
  path.withExtension ("." ++ toString n)

/-- Keeps the files as they are if a change fails. -/
def kept (files : Files) : Except Cause Files → Files × Option Cause
  | .ok files => (files, none)
  | .error c => (files, some c)

/-- Moves a backup to the next number, if it is there. -/
def shift (path : Path) (files : Files) (n : Nat) : Except Cause Files := do
  let source ← backup path n
  if ← files.has source then files.rename source (← backup path (n + 1)) else return files

/-- Moves the backups `n`, `n - 1`, …, `1` in this order, up to the first failure. -/
def shiftAll (path : Path) : Nat → Files → Files × Option Cause
  | 0, files => (files, none)
  | n + 1, files =>
    match kept files (shift path files (n + 1)) with
    | (files, none) => shiftAll path n files
    | failed => failed

def rotate (path : Path) (backups : Nat) (files : Files) : Files × Option Cause :=
  match shiftAll path (backups - 1) files with
  | (files, none) => kept files ((backup path 1).bind (files.rename path))
  | failed => failed

def isDue (path : Path) (maxSize : Int) (files : Files) : Except Cause Bool :=
  (files.entry? path).map fun entry? => entry?.any fun e => maxSize < e.size

def rotateIfDue (path : Path) (maxSize : Int) (backups : Nat) (files : Files) :
    Files × Option Cause :=
  match isDue path maxSize files with
  | .ok true => rotate path backups files
  | .ok false => (files, none)
  | .error c => (files, some c)

/-- Writes a line to a file, which is put aside first if it has to be. The file is opened before the
record is formatted. -/
def emit (path : Path) (maxSize : Int) (backups : Nat) (line : Except Cause String)
    (files : Files) :
    Files × Option Cause :=
  match rotateIfDue path maxSize backups files with
  | (files, none) =>
    match files.append path "" with
    | .error c => (files, some c)
    | .ok opened => kept opened (line.bind fun s => opened.append path (s ++ "\n"))
  | failed => failed

end Rotation

namespace Handler

def handle (h : Handler) (r : Record) (o : Outlets) : Outlets :=
  if !r.level.passes h.level then o
  else
    let line := h.formatter.format r
    match h.sink with
    | .terminal =>
      match line with
      | .ok s => o.writeTerminal (s ++ "\n")
      | .error _ => o
    | .stream index =>
      match line with
      | .ok s => o.writeStream index (s ++ "\n")
      | .error _ => o
    | .file path maxSize backups =>
      { o with files := (Rotation.emit path maxSize backups line o.files).1 }
    | .nowhere => o

def handleAll (hs : List Handler) (r : Record) (o : Outlets) : Outlets :=
  hs.foldl (fun o h => h.handle r o) o

end Handler

end Stencil.Log
