import Stencil.Error.Cause
import Stencil.Value.Basic

/-!
# Libraries for JSON

Settings are read from JSON texts, and trees and log records are written as such. What a text stands
for and which values can be written is up to a library, and whatever reads or writes JSON is given
one.
-/

namespace Stencil.Json

inductive Layout where
  /-- Nothing but commas. -/
  | compact
  /-- A line for each item. -/
  | lines

structure Library where
  /-- The value that a text stands for. -/
  read? : String → Option Value
  /-- The text of a value. -/
  write? : Layout → Value → Option String

def Library.write (json : Library) (l : Layout) (v : Value) : Except Cause String :=
  match json.write? l v with
  | some s => .ok s
  | none => .error .notWritable

end Stencil.Json
