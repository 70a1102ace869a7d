import Std.Time.Zoned
import Stencil.Command.Running
import Stencil.Json.Writing

/-!
# The program

Gathers what a run can see, runs the command and carries out its outcome. The files that a run can
see are those named in its arguments and, if it has a directory of views, those whose names stand on
standard input, one a line.
-/

namespace Stencil.Program

/-- Reads a file into `files`; what is not a file is a directory or is not there. -/
def readInto (files : Files) (path : Path) : IO Files := do
  try
    let bytes ← IO.FS.readBinFile path.text
    let content := match String.fromUTF8? bytes with
      | some s => Content.text s
      | none => Content.bytes bytes.toList
    return (files.write path content).toOption.getD files
  catch e =>
    match e with
    | .inappropriateType .. => return (files.makeDirectory path).1
    | _ => return files

/-- Reads a file and what stands on the way to it. -/
def readAlong (files : Files) (path : Path) : IO Files :=
  ((List.range (path.names.length + 1)).map fun n => Path.mk path.anchor (path.names.take n)).foldlM
    readInto files

partial def inputNames (input : IO.FS.Stream) (names : List String) : IO (List String) := do
  let line ← input.getLine
  if line.isEmpty then return names.reverse
  inputNames input ((line.trimAsciiEnd).toString :: names)

def namedFiles (i : Command.Invocation) : List Path :=
  let logs := match i.logFile?.map Path.ofText with
    | some file =>
      file :: (List.range (Log.usualBackups + 1)).filterMap fun n =>
        (Log.Rotation.backup file n).toOption
    | none => []
  let operands := match i.task? with
    | some (.parse o) => [o.file]
    | some (.check o) => o.files
    | none => []
  logs ++ (i.config?.toList ++ operands).map Path.ofText

def hasViews (i : Command.Invocation) : Bool :=
  match i.task? with
  | some (.parse o) => o.views?.isSome
  | some (.check o) => o.views?.isSome
  | none => false

def gather (i : Command.Invocation) : IO Files := do
  let listed ← if hasViews i then inputNames (← IO.getStdin) [] else pure []
  (namedFiles i ++ listed.map Path.ofText).foldlM readAlong .empty

/-- The variables of the process, from the list that the system keeps of them. -/
def environment : IO Environment := do
  let text ← try IO.FS.readFile "/proc/self/environ" catch _ => pure ""
  let entries := (Text.splitOn (Char.ofNat 0) text.toList).map fun cs =>
    let name := cs.takeWhile (· != '=')
    (String.ofList name, String.ofList (cs.drop (name.length + 1)))
  return Entries.ofPairs entries

def now : IO Log.Time := do
  let t ← Std.Time.PlainDateTime.now
  return ⟨t.date.year.toInt.toNat, t.date.month.toNat, t.date.day.toNat, t.time.hour.toNat,
    t.time.minute.toNat, t.time.second.toNat, t.time.nanosecond.toNat / 1000⟩

/-- Makes the directories that are new, writes the files that have changed and removes those that
are gone. -/
def carryOut (old new : Files) : IO Unit := do
  for (p, e) in new.entries do
    if e == .directory && (old.at? p).isNone then IO.FS.createDirAll p.path.text
  for (p, c) in old.changes new do
    match c with
    | .text s => IO.FS.writeFile p.path.text s
    | .bytes bs => IO.FS.writeBinFile p.path.text ⟨bs.toArray⟩
  for (p, _) in old.contents do
    if (new.at? p).isNone then IO.FS.removeFile p.path.text

end Stencil.Program

open Stencil Stencil.Program in
def main (args : List String) : IO UInt32 := do
  let files ← match Command.Invocation.read args with
    | .ok i => gather i
    | .error _ => pure .empty
  let outcome := Command.run Json.strict (← environment) files (← now) args
  IO.print outcome.printed
  IO.eprint outcome.logged
  carryOut files outcome.files
  match outcome.ending with
  | .exit code => return UInt32.ofNat code
  | .misused =>
    IO.eprint Command.helpText
    return 2
  | .failed e =>
    IO.eprintln (e.kind.name ++ ": " ++ e.message)
    return 1
