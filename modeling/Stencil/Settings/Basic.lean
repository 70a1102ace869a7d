import Stencil.Error
import Stencil.Text.Search

/-!
# Values at dotted keys

Settings are nested objects, and a dotted key walks down into them. Here are the three operations
on plain objects that the layers of settings are made of: reading at a key, writing at a key, and
laying one object over another.
-/

namespace Stencil

/-- The names along a dotted key; there is always at least one. -/
def keyParts (key : String) : List String :=
  (Text.splitOn '.' key.toList).map String.ofList

namespace Value

def at? (v : Value) : List String → Option Value
  | [] => some v
  | k :: ks => (v.field? k).bind fun w => w.at? ks

/-- Writes a value at the end of a path. Objects that are missing on the way are made; anything
else that stands on the way is a failure. -/
def write (new : Value) : List String → Value → Except Cause Value
  | [], _ => .ok new
  | [k], .object fs => .ok (.object (Entries.set k new fs))
  | [_], holder => .error (.noItemAssignment holder)
  | k :: ks, .object fs =>
    (write new ks ((Entries.get? k fs).getD (.object []))).map fun w =>
      .object (Entries.set k w fs)
  | _ :: _, holder => .error (.noFields holder)

def fields : Value → Entries Value
  | .object fs => fs
  | _ => []

mutual

/-- The value that stands in a field after `new` has been laid over `old`. -/
def laidOver (old : Option Value) : Value → Value
  | .object fs => .object (overFields ((old.map fields).getD []) fs)
  | new => new
termination_by structural v => v

/-- Lays fields over those of `base`: an object goes into an object, all else takes its place. -/
def overFields (base : Entries Value) : List (String × Value) → Entries Value
  | [] => base
  | (k, v) :: fs => overFields (Entries.set k (laidOver (Entries.get? k base) v) base) fs
termination_by structural fs => fs

end

end Value

end Stencil
