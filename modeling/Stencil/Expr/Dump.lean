import Stencil.Expr.Basic

/-!
# Expressions as plain values

The dumped form of an expression is an object with its class and its parts. An operator is named
by its symbol, a choice by `?`, an array by `[]`, and an object by its two braces, with keys and
values in turn as arguments.
-/

namespace Stencil.Expr

def texts (ss : List String) : Value :=
  .list (ss.map .text)

def dumpOperator (name : String) (args : List Value) : Value :=
  .object [("type", .text "OperatorExpression"), ("name", .text name), ("args", .list args)]

def dumpKey (k : String) : Value :=
  .object [("type", .text "LiteralExpression"), ("value", .text k)]

mutual

def dump : Expr → Value
  | .literal v => .object [("type", .text "LiteralExpression"), ("value", v)]
  | .path ss => .object [("type", .text "PathExpression"), ("segments", texts ss)]
  | .relative ss => .object [("type", .text "RelativePathExpression"), ("segments", texts ss)]
  | .aliasPath a ss =>
    .object [("type", .text "AliasPathExpression"), ("alias", .text a), ("segments", texts ss)]
  | .attributePath a ss =>
    .object [("type", .text "AttributePathExpression"), ("attribute", .text a),
      ("segments", texts ss)]
  | .brackets b i ss =>
    .object [("type", .text "BracketsExpression"), ("before", dump b), ("inside", dump i),
      ("after_segments", texts ss)]
  | .call f args ss =>
    .object [("type", .text "FnExpression"), ("segments", texts f),
      ("args", .list (dumpItems args)), ("after_segments", texts ss)]
  | .unary op e => dumpOperator op.symbol [dump e]
  | .binary op l r => dumpOperator op.symbol [dump l, dump r]
  | .choice t y n => dumpOperator "?" [dump t, dump y, dump n]
  | .array xs => dumpOperator "[]" (dumpItems xs)
  | .object ms => dumpOperator "\x7b\x7d" (dumpMembers ms)
  | .sequence xs =>
    .object [("type", .text "SequenceExpression"), ("args", .list (dumpItems xs))]
termination_by structural e => e

def dumpItems : List Expr → List Value
  | [] => []
  | x :: xs => dump x :: dumpItems xs
termination_by structural xs => xs

def dumpMembers : List (String × Expr) → List Value
  | [] => []
  | (k, x) :: ms => dumpKey k :: dump x :: dumpMembers ms
termination_by structural ms => ms

end

end Stencil.Expr
