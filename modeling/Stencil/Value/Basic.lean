import Stencil.Decimal.Binary64
import Stencil.Entries

/-!
# Plain values

The values that constants, settings and dumped trees are made of: null, booleans, integers,
floating-point numbers, texts, lists, and objects whose fields keep their order.
-/

namespace Stencil

inductive Value where
  | null
  | bool (b : Bool)
  | int (n : Int)
  | float (x : Binary64)
  | text (s : String)
  | list (items : List Value)
  | object (fields : List (String × Value))
deriving Repr, Inhabited

namespace Value

/-- Everything but null, false, zero and what is empty counts as true. -/
def truthy : Value → Bool
  | .null => false
  | .bool b => b
  | .int n => n != 0
  | .float x => !x.isZero
  | .text s => s != ""
  | .list xs => !xs.isEmpty
  | .object fs => !fs.isEmpty

def isObject : Value → Bool
  | .object _ => true
  | _ => false

def isText : Value → Bool
  | .text _ => true
  | _ => false

/-- Whether a value can be a key: lists and objects cannot. -/
def isKey : Value → Bool
  | .list _ | .object _ => false
  | _ => true

def field? (v : Value) (k : String) : Option Value :=
  match v with
  | .object fs => Entries.get? k fs
  | _ => none

def ofText? : Option String → Value
  | some s => .text s
  | none => .null

end Value

end Stencil
