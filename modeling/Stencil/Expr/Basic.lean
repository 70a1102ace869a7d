import Stencil.Expr.Token
import Stencil.Value.Same

/-!
# Expressions

The trees of the expression language. An array or object all of whose members are constants is
itself a constant, so `Expr.array` and `Expr.object` stand for those with a member that has to be
computed.
-/

namespace Stencil

inductive Expr where
  /-- A constant. -/
  | literal (value : Value)
  /-- A path into the model, such as `user.name`. -/
  | path (segments : List String)
  /-- A path from the current context, `this` or `this.name`. -/
  | relative (segments : List String)
  /-- A path from a block's alias, such as `#item.title`. -/
  | aliasPath (name : String) (segments : List String)
  /-- A path from an attribute of the view, such as `@content`. -/
  | attributePath (name : String) (segments : List String)
  /-- A computed member, `before[inside].after`. -/
  | brackets (before inside : Expr) (after : List String)
  /-- A call of a named function, `name(args).after`. -/
  | call (segments : List String) (args : List Expr) (after : List String)
  | unary (op : Operator) (operand : Expr)
  | binary (op : Operator) (left right : Expr)
  /-- A choice, `test ? yes : no`. -/
  | choice (test yes no : Expr)
  | array (items : List Expr)
  | object (members : List (String × Expr))
  /-- Expressions with commas between them. -/
  | sequence (items : List Expr)
deriving Repr, Inhabited

namespace Expr

def literal? : Expr → Option Value
  | .literal v => some v
  | _ => none

def isLiteral (e : Expr) : Bool :=
  e.literal?.isSome

/-- The expressions after which a bracket may stand. -/
def isPlace : Expr → Bool
  | .path _ | .relative _ | .aliasPath _ _ | .attributePath _ _ => true
  | .brackets _ _ _ | .call _ _ _ => true
  | _ => false

def member? (name : String) : Expr → Option Expr
  | .path ss => some (.path (ss ++ [name]))
  | .relative ss => some (.relative (ss ++ [name]))
  | .aliasPath a ss => some (.aliasPath a (ss ++ [name]))
  | .attributePath a ss => some (.attributePath a (ss ++ [name]))
  | .brackets b i ss => some (.brackets b i (ss ++ [name]))
  | .call f args ss => some (.call f args (ss ++ [name]))
  | _ => none

/-- The name of an expression's class, as messages and dumps write it. -/
def className : Expr → String
  | .literal _ => "LiteralExpression"
  | .path _ => "PathExpression"
  | .relative _ => "RelativePathExpression"
  | .aliasPath _ _ => "AliasPathExpression"
  | .attributePath _ _ => "AttributePathExpression"
  | .brackets _ _ _ => "BracketsExpression"
  | .call _ _ _ => "FnExpression"
  | .unary _ _ | .binary _ _ _ | .choice _ _ _ | .array _ | .object _ => "OperatorExpression"
  | .sequence _ => "SequenceExpression"

/-- An array: a constant if all its items are. -/
def ofItems (items : List Expr) : Expr :=
  match items.mapM literal? with
  | some values => .literal (.list values)
  | none => .array items

/-- An object: a constant if all its values are. Of a key that a constant object repeats, the last
value counts. -/
def ofMembers (members : List (String × Expr)) : Expr :=
  match members.mapM (fun m => m.2.literal?.map fun v => (m.1, v)) with
  | some fields => .literal (.object (Entries.ofPairs fields))
  | none => .object members

/-- A member can be asked of exactly those expressions after which a bracket may stand. -/
theorem isPlace_iff_member? (e : Expr) (name : String) :
    e.isPlace = true ↔ (e.member? name).isSome := by
  cases e <;> simp [isPlace, member?]

end Expr

end Stencil
