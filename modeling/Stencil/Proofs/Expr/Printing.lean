import Stencil.Proofs.Expr.Completeness

/-!
# Printing expressions

`Expr.print` writes an expression with a space on both sides of a binary operator, of `?` and of
`:`, and with one after a comma. Every expression has a level, and every place where one stands asks
for a level; parentheses stand around an expression whose level is too low for its place, and
nowhere else. What is printed is a list of pieces, lexemes and spaces, so that its lexemes are known
before they are spelled.
-/

namespace Stencil

/-- A lexeme, or a space between two. -/
inductive Piece where
  | lexeme (l : Lexeme)
  | space

namespace Piece

abbrev mark (c : Char) : Piece :=
  .lexeme (.punctuation c)

abbrev sign (op : Operator) : Piece :=
  .lexeme (.operator op)

/-- A character inside single quotes: a backslash stands before quotes and backslashes only. -/
def escaped (c : Char) : List Char :=
  if c = '\\' ∨ c = '\'' then ['\\', c] else [c]

def spelling : Lexeme → List Char
  | .int n => Nat.toDigits 10 n
  | .text s => '\'' :: (s.toList.flatMap escaped ++ ['\''])
  | .name s => s.toList
  | .aliasName s => '#' :: s.toList
  | .attributeName s => '@' :: s.toList
  | .operator op => op.symbol.toList
  | .punctuation c => [c]
  | .float x => x.text.toList
  | .stop => []

def chars : Piece → List Char
  | .lexeme l => spelling l
  | .space => [' ']

def lexeme? : Piece → Option Lexeme
  | .lexeme l => some l
  | .space => none

def spelled (ps : List Piece) : List Char :=
  ps.flatMap chars

def lexemes (ps : List Piece) : List Lexeme :=
  ps.filterMap lexeme?

def separated : List (List Piece) → List Piece
  | [] => []
  | [ps] => ps
  | ps :: more => ps ++ mark ',' :: .space :: separated more

/-- Parentheses around the pieces, if there is need for them. -/
def grouped (needed : Bool) (ps : List Piece) : List Piece :=
  if needed then mark '(' :: (ps ++ [mark ')']) else ps

def dotted (names : List String) : List Piece :=
  names.flatMap fun name => [mark '.', .lexeme (.name name)]

def segments : List String → List Piece
  | [] => []
  | name :: names => .lexeme (.name name) :: dotted names

def keyed (key : String) (value : List Piece) : List Piece :=
  .lexeme (.text key) :: mark ':' :: .space :: value

def between (l : Lexeme) (left right : List Piece) : List Piece :=
  left ++ .space :: .lexeme l :: .space :: right

section

variable (ps qs : List Piece)

@[simp]
theorem spelled_nil : spelled [] = [] := rfl

@[simp]
theorem spelled_cons (p : Piece) : spelled (p :: ps) = p.chars ++ spelled ps := rfl

@[simp]
theorem spelled_append : spelled (ps ++ qs) = spelled ps ++ spelled qs :=
  List.flatMap_append

@[simp]
theorem lexemes_nil : lexemes [] = [] := rfl

@[simp]
theorem lexemes_lexeme (l : Lexeme) : lexemes (.lexeme l :: ps) = l :: lexemes ps := rfl

@[simp]
theorem lexemes_space : lexemes (.space :: ps) = lexemes ps := rfl

@[simp]
theorem lexemes_append : lexemes (ps ++ qs) = lexemes ps ++ lexemes qs :=
  List.filterMap_append

end

end Piece

namespace Value

open Piece

mutual

def pieces : Value → List Piece
  | .null => [.lexeme (.name "null")]
  | .bool b => [.lexeme (.name (if b then "true" else "false"))]
  | .int n => if n < 0 then [sign .sub, .lexeme (.int n.natAbs)] else [.lexeme (.int n.natAbs)]
  | .float x => [.lexeme (.float x)]
  | .text s => [.lexeme (.text s)]
  | .list vs => mark '[' :: (separated (itemPieces vs) ++ [mark ']'])
  | .object fields => mark '{' :: (separated (fieldPieces fields) ++ [mark '}'])
termination_by structural v => v

def itemPieces : List Value → List (List Piece)
  | [] => []
  | v :: vs => pieces v :: itemPieces vs
termination_by structural vs => vs

def fieldPieces : List (String × Value) → List (List Piece)
  | [] => []
  | (key, v) :: fields => keyed key (pieces v) :: fieldPieces fields
termination_by structural fields => fields

end

end Value

namespace Expr

open Piece

/-- How tightly an expression holds together when it is printed: 0 for a sequence, 1 for a choice,
then the binary levels, 8 for what starts with a sign or another unary operator, 9 for the rest. -/
def level : Expr → Nat
  | .sequence _ => 0
  | .choice _ _ _ => 1
  | .binary op _ _ => op.level?.getD 6 + 2
  | .unary _ _ => 8
  | .literal (.int n) => if n < 0 then 8 else 9
  | _ => 9

mutual

/-- The pieces of an expression by itself, with parentheses around those of its parts whose level
is too low for their place. -/
def pieces : Expr → List Piece
  | .literal v => v.pieces
  | .path names => segments names
  | .relative names => .lexeme (.name "this") :: dotted names
  | .aliasPath name names =>
    .lexeme (.aliasName (String.ofList (name.toList.drop 1))) :: dotted names
  | .attributePath name names => .lexeme (.attributeName name) :: dotted names
  | .brackets before inside after =>
    pieces before ++ mark '[' :: (grouped (inside.level < 1) (pieces inside) ++
      mark ']' :: dotted after)
  | .call names args after =>
    segments names ++ mark '(' :: (separated (itemPieces args) ++ mark ')' :: dotted after)
  | .unary op operand => sign op :: grouped (operand.level < 8) (pieces operand)
  | .binary op left right =>
    between (.operator op) (grouped (left.level < op.level?.getD 6 + 2) (pieces left))
      (grouped (right.level < op.level?.getD 6 + 3) (pieces right))
  | .choice test yes no =>
    between (.punctuation '?') (grouped (test.level < 2) (pieces test))
      (between (.punctuation ':') (grouped (yes.level < 1) (pieces yes))
        (grouped (no.level < 1) (pieces no)))
  | .array items => mark '[' :: (separated (itemPieces items) ++ [mark ']'])
  | .object members => mark '{' :: (separated (memberPieces members) ++ [mark '}'])
  | .sequence items => separated (itemPieces items)
termination_by structural e => e

def itemPieces : List Expr → List (List Piece)
  | [] => []
  | e :: es => grouped (e.level < 1) (pieces e) :: itemPieces es
termination_by structural es => es

def memberPieces : List (String × Expr) → List (List Piece)
  | [] => []
  | (key, e) :: ms => keyed key (grouped (e.level < 1) (pieces e)) :: memberPieces ms
termination_by structural ms => ms

end

def print (e : Expr) : String :=
  String.ofList (spelled e.pieces)

def piecesAt (place : Nat) (e : Expr) : List Piece :=
  grouped (e.level < place) e.pieces

/-- A name: a letter, `_` or `$`, and then such characters and digits. -/
def isIdentifier (name : String) : Bool :=
  match name.toList with
  | [] => false
  | c :: cs => Token.isNameStart c && cs.all Token.isNameRest

end Expr

/-- The values without floating-point numbers whose integers and texts are as `I` and `S` say. -/
inductive Value.Plain (I : Int → Prop) (S : String → Prop) : Value → Prop
  | null : Plain I S .null
  | bool (b : Bool) : Plain I S (.bool b)
  | int {n : Int} (hn : I n) : Plain I S (.int n)
  | text {s : String} (hs : S s) : Plain I S (.text s)
  | list {vs : List Value} (hvs : ∀ v ∈ vs, Plain I S v) : Plain I S (.list vs)
  | object {fields : List (String × Value)} (hnodup : (fields.map Prod.fst).Nodup)
    (hkeys : ∀ field ∈ fields, S field.1) (hvalues : ∀ field ∈ fields, Plain I S field.2) :
    Plain I S (.object fields)

namespace Expr

/-- The canonical expressions: those that reading can give. A constant array or object is a
constant, and so is an operator before a constant; a name that stands for a constant is no path. -/
inductive Canonical (I : Int → Prop) (S : String → Prop) : Expr → Prop
  | literal {v : Value} (hv : v.Plain I S) : Canonical I S (.literal v)
  | path {name : String} {names : List String} (hname : isIdentifier name = true)
    (hconstant : Grammar.constant? name = none) (hthis : name ≠ "this")
    (hnames : ∀ s ∈ names, isIdentifier s = true) : Canonical I S (.path (name :: names))
  | relative {names : List String} (hnames : ∀ s ∈ names, isIdentifier s = true) :
    Canonical I S (.relative names)
  | aliasPath {name : String} {names : List String} (hname : isIdentifier name = true)
    (hnames : ∀ s ∈ names, isIdentifier s = true) : Canonical I S (.aliasPath ("#" ++ name) names)
  | attributePath {name : String} {names : List String} (hname : isIdentifier name = true)
    (hnames : ∀ s ∈ names, isIdentifier s = true) : Canonical I S (.attributePath name names)
  | brackets {before inside : Expr} {after : List String} (hplace : before.isPlace = true)
    (hbefore : Canonical I S before) (hinside : Canonical I S inside)
    (hafter : ∀ s ∈ after, isIdentifier s = true) : Canonical I S (.brackets before inside after)
  | call {names : List String} {args : List Expr} {after : List String}
    (hnames : Canonical I S (.path names)) (hargs : ∀ e ∈ args, Canonical I S e)
    (hafter : ∀ s ∈ after, isIdentifier s = true) : Canonical I S (.call names args after)
  | unary {op : Operator} {operand : Expr} (hop : op.isUnary = true)
    (hne : operand.isLiteral = false) (hoperand : Canonical I S operand) :
    Canonical I S (.unary op operand)
  | binary {op : Operator} {k : Nat} {left right : Expr} (hop : op.level? = some k)
    (hleft : Canonical I S left) (hright : Canonical I S right) :
    Canonical I S (.binary op left right)
  | choice {test yes no : Expr} (htest : Canonical I S test) (hyes : Canonical I S yes)
    (hno : Canonical I S no) : Canonical I S (.choice test yes no)
  | array {items : List Expr} (hne : ∃ e ∈ items, e.isLiteral = false)
    (hitems : ∀ e ∈ items, Canonical I S e) : Canonical I S (.array items)
  | object {members : List (String × Expr)} (hne : ∃ m ∈ members, m.2.isLiteral = false)
    (hkeys : ∀ m ∈ members, S m.1) (hmembers : ∀ m ∈ members, Canonical I S m.2) :
    Canonical I S (.object members)
  | sequence {first second : Expr} {more : List Expr}
    (hitems : ∀ e ∈ first :: second :: more, Canonical I S e) :
    Canonical I S (.sequence (first :: second :: more))

end Expr

end Stencil
