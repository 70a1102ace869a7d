import Stencil.Settings.Basic
import Stencil.Text.Case

/-!
# Settings

Settings come in layers: defaults, files, the environment, and what is set at run time. A layer of
higher priority is laid over those of lower priority, and of two layers of one priority the later
one is laid over the earlier.

The merged object and the answers already given are kept until a layer changes. `Layers.at?` looks
a key up without them, and the two ways give the same answers.
-/

namespace Stencil

structure Layer where
  name : String
  data : Entries Value
  priority : Int
deriving Repr

namespace Layers

/-- The layers, those to be laid over others behind them. -/
def inOrder (layers : List Layer) : List Layer :=
  layers.mergeSort fun a b => a.priority ≤ b.priority

/-- All layers in one. -/
def merged (layers : List Layer) : Entries Value :=
  (inOrder layers).foldl (fun base l => Value.overFields base l.data) []

def at? (layers : List Layer) (key : String) : Option Value :=
  (Value.object (merged layers)).at? (keyParts key)

end Layers

structure Settings where
  layers : List Layer
  /-- All layers in one, as of the last look-up. -/
  merged : Entries Value
  /-- Whether a layer has changed since. -/
  isStale : Bool
  /-- The answers given since. -/
  known : Entries Value
deriving Repr

namespace Settings

def ofLayers (layers : List Layer) : Settings :=
  ⟨layers, [], true, []⟩

def defaultLayer : Layer :=
  { name := "defaults"
    data :=
      [("parser", .object [("minify", .bool true), ("strict_close", .bool true)]),
        ("logging", .object [("level", .text "WARNING"), ("format", .text "text")])]
    priority := 0 }

def default : Settings :=
  ofLayers [defaultLayer]

/-! ## Changing layers -/

def add (s : Settings) (l : Layer) : Settings :=
  { s with layers := s.layers ++ [l], isStale := true, known := [] }

def runtimeLayer : Layer :=
  ⟨"runtime", [], 1000⟩

def writeLayer (path : List String) (v : Value) (l : Layer) : Except Cause Layer :=
  (Value.write v path (.object l.data)).map fun w => { l with data := w.fields }

/-- Writes into the first run-time layer, which is made if there is none. -/
def writeRuntime (path : List String) (v : Value) : List Layer → Except Cause (List Layer)
  | [] => (writeLayer path v runtimeLayer).map fun l => [l]
  | l :: ls =>
    if l.name = runtimeLayer.name then (writeLayer path v l).map (· :: ls)
    else (writeRuntime path v ls).map (l :: ·)

/-- Sets a value at run time. It is handed over: the settings keep it as it is now. -/
def set (s : Settings) (key : String) (v : Value) : Except Cause Settings :=
  (writeRuntime (keyParts key) v s.layers).map fun layers =>
    { s with layers, isStale := true, known := [] }

/-! ## Looking up -/

def refresh (s : Settings) : Settings :=
  if s.isStale then { s with merged := Layers.merged s.layers, isStale := false, known := [] }
  else s

def get? (s : Settings) (key : String) : Option Value × Settings :=
  let s := s.refresh
  match Entries.get? key s.known with
  | some v => (some v, s)
  | none =>
    match (Value.object s.merged).at? (keyParts key) with
    | some v => (some v, { s with known := Entries.set key v s.known })
    | none => (none, s)

def get (s : Settings) (key : String) (default : Value) : Value × Settings :=
  let (v, s) := s.get? key
  (v.getD default, s)

def all (s : Settings) : Entries Value × Settings :=
  let s := s.refresh
  (s.merged, s)

/-! ## Values of a kind -/

/-- The integer that a value stands for: none if it stands for no integer, and a failure if it is
infinite. -/
def integer? : Value → Except Cause (Option Int)
  | .bool b => .ok (some (if b then 1 else 0))
  | .int n => .ok (some n)
  | .float (.infinite _) =>
    .error (.reported .overflow "cannot convert float infinity to integer")
  | .float x => .ok x.truncate?
  | .text s => .ok (readInt? s.toList)
  | _ => .ok none

def isYes (s : String) : Bool :=
  ["true", "yes", "1"].contains (Text.lowercase s)

def isNo (s : String) : Bool :=
  ["false", "no", "0"].contains (Text.lowercase s)

def isTrue : Value → Bool
  | .text s => isYes s
  | v => v.truthy

def getInt (s : Settings) (key : String) (default : Value) : Except Cause Value × Settings :=
  let (v, s) := s.get key default
  ((integer? v).map fun n => (n.map Value.int).getD default, s)

def getBool (s : Settings) (key : String) (default : Value) : Bool × Settings :=
  let (v, s) := s.get key default
  (isTrue v, s)

/-- A list; a value that is no list is the only item of one. -/
def getList (s : Settings) (key : String) (default : Value) : Value × Settings :=
  let (v, s) := s.get key default
  (match v with
    | .null => if default.truthy then default else .list []
    | .list vs => .list vs
    | v => .list [v], s)

/-- Whether there is a value other than null at a key. -/
def has (s : Settings) (key : String) : Bool × Settings :=
  let (v, s) := s.get? key
  (match v with
    | none | some .null => false
    | some _ => true, s)

def getSection (s : Settings) (key : String) : Entries Value × Settings :=
  let (v, s) := s.get? key
  ((v.map Value.fields).getD [], s)

end Settings

end Stencil
