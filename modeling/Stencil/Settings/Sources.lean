import Stencil.Files.Basic
import Stencil.Json.Library
import Stencil.Settings.Layers

/-!
# Where settings come from

The environment gives a layer: every variable whose name starts with `TESSERA_` sets the key that
the rest of its name spells, in lower case and with a dot in place of its first underscore. A file
gives another layer: it holds one JSON object.
-/

namespace Stencil

/-- Variables in the order in which they were first set. -/
abbrev Environment := Entries String

namespace Settings

def variableStart : String := "TESSERA_"

def dotted : List Char → List Char
  | [] => []
  | '_' :: cs => '.' :: cs
  | c :: cs => c :: dotted cs

/-- The key that a variable sets, if it sets one. -/
def variableKey? (name : String) : Option String :=
  if variableStart.toList.isPrefixOf name.toList then
    some (String.ofList (dotted (Text.lower (name.toList.drop variableStart.length))))
  else none

def variableValue (json : Json.Library) (s : String) : Value :=
  if isYes s then .bool true
  else if isNo s then .bool false
  else match readInt? s.toList with
    | some n => .int n
    | none =>
      if s.toList.head? = some '\x7b' ∨ s.toList.head? = some '[' then
        (json.read? s).getD (.text s)
      else .text s

def overrides (json : Json.Library) (env : Environment) : Entries Value :=
  Entries.ofPairs (env.filterMap fun v =>
    (variableKey? v.1).map fun k => (k, variableValue json v.2))

def nested (flat : Entries Value) : Except Cause Value :=
  flat.foldlM (fun v p => Value.write p.2 (keyParts p.1) v) (.object [])

/-- The defaults, with the settings of the environment over them. -/
def ofEnvironment (json : Json.Library) (env : Environment) : Except Cause Settings :=
  let flat := overrides json env
  if flat.isEmpty then .ok default
  else (nested flat).map fun v => default.add ⟨"env_vars", v.fields, 100⟩

def load (s : Settings) (json : Json.Library) (files : Files) (path : String) :
    Except Cause Settings := do
  match ← files.read (.ofText path) with
  | .bytes _ => throw .notJson
  | .text text =>
    match json.read? text with
    | none => throw .notJson
    | some (.object fs) => return s.add ⟨"file:" ++ path, fs, 10⟩
    | some _ => throw (.settingsNotObject path)

end Settings

end Stencil
