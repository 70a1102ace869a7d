import Stencil.Expr.Members
import Stencil.Template.Node
import Stencil.Text.Search

/-!
# Declared hooks

The attributes `as` and `on` declare hooks and are then taken away. Both have to be literal texts:
`as` is a path, `on` the members of an object, each an event with the reaction to it.
-/

namespace Stencil.Hook

def aliasSegments (text : String) : List String :=
  (Text.splitOn '.' text.toList).map String.ofList

def reactions (make : String → Expr → Hook) (text : String) : Except Cause (List Hook) := do
  let e ← Expr.read ("\x7b" ++ text ++ "\x7d")
  let ms ← Members.ofExpr e
  .ok (ms.exprs.map fun m => make m.1 m.2)

/-- The literal text of an attribute; `literal?` tells the constant ones. -/
def literalText {α : Type} (literal? : α → Option Value) (name : String) (a : α) :
    Except Cause String :=
  match literal? a with
  | some (.text s) => .ok s
  | _ => .error (.notLiteralText name)

/-- Hooks, or none at all if there is none among them. -/
def someOf : List Hook → Option (List Hook)
  | [] => none
  | hs => some hs

/-- The hooks that a set of attributes declares, if any, and the attributes without them. -/
def declared {α : Type} (literal? : α → Option Value) (make : String → Expr → Hook)
    (as : Entries α) : Except Cause (Option (List Hook) × Entries α) := do
  let aliases ← match Entries.get? "as" as with
    | some a => (literalText literal? "as" a).map fun s => [Hook.named (aliasSegments s)]
    | none => .ok []
  let listeners ← match Entries.get? "on" as with
    | some a => (literalText literal? "on" a).bind (reactions make)
    | none => .ok []
  .ok (someOf (aliases ++ listeners), Entries.erase "on" (Entries.erase "as" as))

end Stencil.Hook

namespace Stencil

def Attribute.literal? : Attribute → Option Value
  | .literal v => some v
  | .dynamic _ => none

def ViewAttribute.literal? : ViewAttribute → Option Value
  | .literal v => some v
  | _ => none

end Stencil
