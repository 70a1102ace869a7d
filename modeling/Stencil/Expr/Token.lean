import Stencil.Value.Shown

/-!
# Tokens of expressions

The lexemes of the expression language: numbers, texts, names, names marked as aliases or
attributes, operators and punctuation. A token is a lexeme with the position of its first
character; the token list of an expression ends with `Lexeme.stop`.
-/

namespace Stencil

inductive Operator where
  | strictEq | strictNe | eq | ne | le | ge | and | or
  | lt | gt | add | sub | mul | div | mod | not
deriving DecidableEq, Repr

namespace Operator

def symbol : Operator → String
  | .strictEq => "==="
  | .strictNe => "!=="
  | .eq => "=="
  | .ne => "!="
  | .le => "<="
  | .ge => ">="
  | .and => "&&"
  | .or => "||"
  | .lt => "<"
  | .gt => ">"
  | .add => "+"
  | .sub => "-"
  | .mul => "*"
  | .div => "/"
  | .mod => "%"
  | .not => "!"

/-- All operators, an operator before every other one that starts it. -/
def all : List Operator :=
  [.strictEq, .strictNe, .eq, .ne, .le, .ge, .and, .or,
   .lt, .gt, .add, .sub, .mul, .div, .mod, .not]

/-- The level at which an operator joins two operands, from the loosest, 0, to the tightest, 5. -/
def level? : Operator → Option Nat
  | .or => some 0
  | .and => some 1
  | .eq | .ne | .strictEq | .strictNe => some 2
  | .lt | .gt | .le | .ge => some 3
  | .add | .sub => some 4
  | .mul | .div | .mod => some 5
  | .not => none

def isUnary : Operator → Bool
  | .not | .sub | .add => true
  | _ => false

end Operator

inductive Lexeme where
  | int (n : Nat)
  | float (x : Binary64)
  | text (s : String)
  | name (s : String)
  | aliasName (s : String)
  | attributeName (s : String)
  | operator (op : Operator)
  | punctuation (c : Char)
  | stop
deriving DecidableEq, Repr

namespace Lexeme

def kindName : Lexeme → String
  | .int _ | .float _ => "NUMBER"
  | .text _ => "STRING"
  | .name _ => "IDENT"
  | .aliasName _ => "ALIAS"
  | .attributeName _ => "ATTR"
  | .operator _ => "OP"
  | .punctuation _ => "PUNCT"
  | .stop => "EOF"

def value? : Lexeme → Option Value
  | .int n => some (.int n)
  | .float x => some (.float x)
  | .text s | .name s | .aliasName s | .attributeName s => some (.text s)
  | .operator op => some (.text op.symbol)
  | .punctuation c => some (.text (String.singleton c))
  | .stop => none

end Lexeme

structure Token where
  lexeme : Lexeme
  position : Nat
deriving DecidableEq, Repr

namespace Token

def value (t : Token) : Value :=
  t.lexeme.value?.getD .null

def shown (t : Token) : String :=
  "Token(" ++ t.lexeme.kindName ++ ", " ++ t.value.shown ++ ", " ++ toString t.position ++ ")"

def dump (t : Token) : Value :=
  .list [.text t.lexeme.kindName, t.value, .int t.position]

end Token

end Stencil
