import Stencil.Value.Basic

/-!
# Equality of values

Two values are the same if they denote the same data: booleans count as the numbers zero and one,
an integer is the same as the floating-point number of its value, and the order of an object's
fields does not matter.
-/

namespace Stencil.Value

def asInt? : Value → Option Int
  | .int n => some n
  | .bool b => some (if b then 1 else 0)
  | _ => none

mutual

def same : Value → Value → Bool
  | .null, .null => true
  | .text s, .text t => s == t
  | .float x, .float y => x.same y
  | .float x, w => w.asInt?.any x.sameInt
  | .bool b, .float y => y.sameInt (if b then 1 else 0)
  | .bool b, w => w.asInt? == some (if b then 1 else 0)
  | .int n, .float y => y.sameInt n
  | .int n, w => w.asInt? == some n
  | .list xs, .list ys => sameItems xs ys
  | .object fs, .object gs => fs.length == gs.length && sameFields fs gs
  | _, _ => false
termination_by structural v => v

def sameItems : List Value → List Value → Bool
  | [], [] => true
  | x :: xs, y :: ys => same x y && sameItems xs ys
  | _, _ => false
termination_by structural xs => xs

/-- Whether every field of the first object is a field of the second, with the same value. -/
def sameFields : List (String × Value) → List (String × Value) → Bool
  | [], _ => true
  | (k, x) :: fs, gs =>
    (match Entries.get? k gs with
      | some y => same x y
      | none => false) && sameFields fs gs
termination_by structural fs => fs

end

end Stencil.Value
