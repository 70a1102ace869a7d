import Stencil.Expr.Dump
import Stencil.Expr.Grammar

/-!
# The members of an object expression

Both a constant object and one with computed members are read as names with values. A name that
is repeated keeps its first place and has its last value.
-/

namespace Stencil

/-- The members of an object: plain values if the object is a constant, expressions otherwise. -/
inductive Members where
  | constant (fields : Entries Value)
  | computed (fields : Entries Expr)
deriving Repr

namespace Members

def ofExpr : Expr → Except Cause Members
  | .literal (.object fs) => .ok (.constant fs)
  | .literal v => .error (.notObject v.shown)
  | .object ms => .ok (.computed (Entries.ofPairs ms))
  | e => .error (.notObject e.className)

def exprs : Members → Entries Expr
  | .constant fs => Entries.mapValues .literal fs
  | .computed ms => ms

def dump : Members → Value
  | .constant fs => .list (fs.map fun (k, v) => .list [.text k, .object [("value", v)]])
  | .computed ms => .list (ms.map fun (k, e) => .list [.text k, .object [("expr", e.dump)]])

end Members

end Stencil
