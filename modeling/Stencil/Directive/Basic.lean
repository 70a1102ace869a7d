import Stencil.Expr.Dump
import Stencil.Expr.Same

/-!
# Directives

What stands between double braces is a directive: it opens, continues or closes a block, or shows
a value. The role records the words in front of the expression; `Term` is an expression as a tree
holds it, with or without the directive it came from.
-/

namespace Stencil

inductive BlockWord where
  | condition
  | negation
  | each
  | scope
  | unbound
  | bound
deriving DecidableEq, Repr

def BlockWord.text : BlockWord → String
  | .condition => "if"
  | .negation => "unless"
  | .each => "each"
  | .scope => "with"
  | .unbound => "unbound"
  | .bound => "bound"

inductive ValueWord where
  | view
  | unbound
  | bound
  | unescaped
deriving DecidableEq, Repr

def ValueWord.text : ValueWord → String
  | .view => "view"
  | .unbound => "unbound"
  | .bound => "bound"
  | .unescaped => "unescaped"

inductive Role where
  /-- Opens a block, which may name an alias. -/
  | opens (word : BlockWord) (as? : Option String)
  /-- Starts another branch under a condition. -/
  | elseIf (as? : Option String)
  /-- Starts the last branch. -/
  | otherwise
  /-- Closes a block; the word is `end` if none is written. -/
  | closes (word : String)
  /-- Shows a value; the words in front of it, first to last. -/
  | shows (words : List ValueWord)
deriving DecidableEq, Repr

namespace Role

def blockWord? : Role → Option String
  | .opens w _ => some w.text
  | .elseIf _ => some "else if"
  | .otherwise => some "else"
  | .closes w => some w
  | .shows _ => none

def alias? : Role → Option String
  | .opens _ a => a
  | .elseIf a => a
  | _ => none

def isEnd : Role → Bool
  | .closes _ => true
  | _ => false

def words : Role → List ValueWord
  | .shows ws => ws
  | _ => []

/-- The last word that says how the value is bound. -/
def binding? (r : Role) : Option String :=
  (r.words.reverse.find? fun w => w == .unbound || w == .bound).map ValueWord.text

def isView (r : Role) : Bool :=
  r.words.contains .view

def isUnescaped (r : Role) : Bool :=
  r.words.contains .unescaped

end Role

/-- A directive: its trimmed source, its role, and its expression if it has one. -/
structure Directive where
  source : String
  role : Role
  expr? : Option Expr
deriving Repr

namespace Directive

def literal? (d : Directive) : Option Value :=
  d.expr?.bind Expr.literal?

def optional (k : String) : Option String → List (String × Value)
  | some s => [(k, .text s)]
  | none => []

def flag (k : String) (b : Bool) : List (String × Value) :=
  if b then [(k, .bool true)] else []

def header (d : Directive) : Value :=
  .object (("source", .text d.source) :: optional "block_type" d.role.blockWord? ++
    optional "as_name" d.role.alias? ++ optional "bind_type" d.role.binding? ++
    optional "value_type" (if d.role.isView then some "view" else none) ++
    flag "is_end" d.role.isEnd ++ flag "unescaped" d.role.isUnescaped)

def className (d : Directive) : String :=
  (d.expr?.map Expr.className).getD "Expression"

/-- The dumped expression, with the header as its last field. -/
def dump (d : Directive) : Value :=
  match d.expr?.map Expr.dump with
  | some (.object fs) => .object (fs ++ [("meta", d.header)])
  | _ => .object [("type", .text "Expression"), ("meta", d.header)]

/-- Equality of the expressions. Directives without one are never the same. -/
def same (d d' : Directive) : Bool :=
  match d.expr?, d'.expr? with
  | some e, some e' => e.same e'
  | _, _ => false

end Directive

inductive Term where
  | bare (e : Expr)
  | marked (d : Directive)
deriving Repr

namespace Term

def expr? : Term → Option Expr
  | .bare e => some e
  | .marked d => d.expr?

def dump : Term → Value
  | .bare e => e.dump
  | .marked d => d.dump

def same (t t' : Term) : Bool :=
  match t.expr?, t'.expr? with
  | some e, some e' => e.same e'
  | _, _ => false

end Term

end Stencil
