import Stencil.Expr.Basic
import Stencil.Expr.Tokens

/-!
# The grammar of expressions

One function for each rule of the grammar, each taking the tokens from the start of its phrase and
returning the expression with the tokens that follow:

* a sequence is one or more conditionals with commas between them;
* a conditional is a binary expression, or `test ? yes : no`;
* binary expressions have six levels, each joining operands of the next one from the left;
* a unary expression is `!`, `-` or `+` before a unary expression, or a primary expression with
  members, brackets and calls after it;
* arrays, objects and arguments have commas between their members and may end with one.

The first argument bounds the depth of the descent; `fuelFor` gives enough for any token list.
-/

namespace Stencil.Expr.Grammar

/-- Stops at the first token that is left. -/
def stopAt {α : Type} (complaint : Complaint) : List Token → Except Cause α
  | [] => .error (.stopped complaint none 0)
  | t :: _ => .error (.stopped complaint t.lexeme.value? t.position)

def skip? (c : Char) : List Token → Option (List Token)
  | ⟨.punctuation d, _⟩ :: ts => if d = c then some ts else none
  | _ => none

def demand (c : Char) (ts : List Token) : Except Cause (List Token) :=
  match skip? c ts with
  | some ts => .ok ts
  | none => stopAt (.expected (String.singleton c)) ts

def operatorAt? (level : Nat) : List Token → Option (Operator × List Token)
  | ⟨.operator op, _⟩ :: ts => if op.level? = some level then some (op, ts) else none
  | _ => none

def unaryAt? : List Token → Option (Operator × List Token)
  | ⟨.operator op, _⟩ :: ts => if op.isUnary then some (op, ts) else none
  | _ => none

/-- Applies a unary operator to a constant: `!` to any, a sign to numbers only. -/
def foldUnary (op : Operator) (v : Value) : Except Cause Value :=
  match op, v with
  | .not, v => .ok (.bool !v.truthy)
  | .sub, .int n => .ok (.int (-n))
  | .sub, .float x => .ok (.float x.neg)
  | _, .int n => .ok (.int n)
  | _, .float x => .ok (.float x)
  | op, v => .error (.cannotApply op.symbol v)

def ofUnary (op : Operator) (operand : Expr) : Except Cause Expr :=
  match operand with
  | .literal v => (foldUnary op v).map .literal
  | e => .ok (.unary op e)

def constant? (word : String) : Option Value :=
  if word = "true" then some (.bool true)
  else if word = "false" then some (.bool false)
  else if word = "null" ∨ word = "undefined" then some .null
  else none

/-- What a name on its own stands for. -/
def ofName (word : String) : Expr :=
  match constant? word with
  | some v => .literal v
  | none => if word = "this" then .relative [] else .path [word]

/-- The key that a lexeme gives to an object. -/
def key? : Lexeme → Option String
  | .name s | .text s => some s
  | .int n => some (Value.int n).plain
  | .float x => some x.text
  | _ => none

mutual

def sequence : Nat → List Token → Except Cause (Expr × List Token)
  | 0, ts => stopAt .unexpected ts
  | fuel + 1, ts => do
    let (first, ts) ← conditional fuel ts
    match skip? ',' ts with
    | none => .ok (first, ts)
    | some _ =>
      let (more, ts) ← listed fuel ts
      .ok (.sequence (first :: more), ts)
termination_by structural fuel => fuel

/-- Conditionals, each after a comma. -/
def listed : Nat → List Token → Except Cause (List Expr × List Token)
  | 0, ts => stopAt .unexpected ts
  | fuel + 1, ts =>
    match skip? ',' ts with
    | none => .ok ([], ts)
    | some ts => do
      let (first, ts) ← conditional fuel ts
      let (more, ts) ← listed fuel ts
      .ok (first :: more, ts)
termination_by structural fuel => fuel

def conditional : Nat → List Token → Except Cause (Expr × List Token)
  | 0, ts => stopAt .unexpected ts
  | fuel + 1, ts => do
    let (test, ts) ← binary fuel 0 ts
    match skip? '?' ts with
    | none => .ok (test, ts)
    | some ts =>
      let (yes, ts) ← conditional fuel ts
      let ts ← demand ':' ts
      let (no, ts) ← conditional fuel ts
      .ok (.choice test yes no, ts)
termination_by structural fuel => fuel

/-- A binary expression of the given level; the level after the tightest is unary. -/
def binary : Nat → Nat → List Token → Except Cause (Expr × List Token)
  | 0, _, ts => stopAt .unexpected ts
  | fuel + 1, level, ts =>
    if level = 6 then unary fuel ts
    else do
      let (left, ts) ← binary fuel (level + 1) ts
      joined fuel level left ts
termination_by structural fuel => fuel

/-- Joins the operands of a level to those on their left. -/
def joined : Nat → Nat → Expr → List Token → Except Cause (Expr × List Token)
  | 0, _, _, ts => stopAt .unexpected ts
  | fuel + 1, level, left, ts =>
    match operatorAt? level ts with
    | none => .ok (left, ts)
    | some (op, ts) => do
      let (right, ts) ← binary fuel (level + 1) ts
      joined fuel level (.binary op left right) ts
termination_by structural fuel => fuel

def unary : Nat → List Token → Except Cause (Expr × List Token)
  | 0, ts => stopAt .unexpected ts
  | fuel + 1, ts =>
    match unaryAt? ts with
    | some (op, ts) => do
      let (operand, ts) ← unary fuel ts
      let e ← ofUnary op operand
      .ok (e, ts)
    | none => do
      let (e, ts) ← primary fuel ts
      extended fuel e ts
termination_by structural fuel => fuel

/-- Members, brackets and calls after an expression. -/
def extended : Nat → Expr → List Token → Except Cause (Expr × List Token)
  | 0, _, ts => stopAt .unexpected ts
  | fuel + 1, e, ts =>
    match ts with
    | ⟨.punctuation '.', _⟩ :: ts =>
      match ts with
      | ⟨.name s, _⟩ :: ts =>
        match e.member? s with
        | some e => extended fuel e ts
        | none => stopAt .memberAfterPath ts
      | ts => stopAt (.expected "IDENT") ts
    | ⟨.punctuation '[', _⟩ :: ts => do
      let (inside, ts) ← sequence fuel ts
      let ts ← demand ']' ts
      if e.isPlace then extended fuel (.brackets e inside []) ts
      else stopAt .bracketsAfterPath ts
    | ⟨.punctuation '(', _⟩ :: ts =>
      match e with
      | .path f => do
        let (args, ts) ← arguments fuel ')' ts
        extended fuel (.call f args []) ts
      | _ => stopAt .callOfName ts
    | ts => .ok (e, ts)
termination_by structural fuel => fuel

/-- Members up to the closing punctuation, which is skipped. -/
def arguments : Nat → Char → List Token → Except Cause (List Expr × List Token)
  | 0, _, ts => stopAt .unexpected ts
  | fuel + 1, closing, ts =>
    match skip? closing ts with
    | some ts => .ok ([], ts)
    | none => do
      let (first, ts) ← conditional fuel ts
      let ts ← if (skip? closing ts).isSome then .ok ts else demand ',' ts
      let (more, ts) ← arguments fuel closing ts
      .ok (first :: more, ts)
termination_by structural fuel => fuel

def primary : Nat → List Token → Except Cause (Expr × List Token)
  | 0, ts => stopAt .unexpected ts
  | fuel + 1, ts =>
    match ts with
    | ⟨.int n, _⟩ :: ts => .ok (.literal (.int n), ts)
    | ⟨.float x, _⟩ :: ts => .ok (.literal (.float x), ts)
    | ⟨.text s, _⟩ :: ts => .ok (.literal (.text s), ts)
    | ⟨.name s, _⟩ :: ts => .ok (ofName s, ts)
    | ⟨.aliasName s, _⟩ :: ts => .ok (.aliasPath ("#" ++ s) [], ts)
    | ⟨.attributeName s, _⟩ :: ts => .ok (.attributePath s [], ts)
    | ⟨.punctuation '(', _⟩ :: ts => do
      let (e, ts) ← sequence fuel ts
      let ts ← demand ')' ts
      .ok (e, ts)
    | ⟨.punctuation '[', _⟩ :: ts => do
      let (items, ts) ← arguments fuel ']' ts
      .ok (ofItems items, ts)
    | ⟨.punctuation '{', _⟩ :: ts => do
      let (ms, ts) ← members fuel ts
      .ok (ofMembers ms, ts)
    | ts => stopAt .unexpected ts
termination_by structural fuel => fuel

/-- Keys and values up to the closing brace, which is skipped. -/
def members : Nat → List Token → Except Cause (List (String × Expr) × List Token)
  | 0, ts => stopAt .unexpected ts
  | fuel + 1, ts =>
    match skip? '}' ts with
    | some ts => .ok ([], ts)
    | none =>
      match ts with
      | [] => stopAt .objectKey []
      | t :: ts =>
        match key? t.lexeme with
        | none => stopAt .objectKey (t :: ts)
        | some k => do
          let ts ← demand ':' ts
          let (v, ts) ← conditional fuel ts
          let ts ← if (skip? '}' ts).isSome then .ok ts else demand ',' ts
          let (more, ts) ← members fuel ts
          .ok ((k, v) :: more, ts)
termination_by structural fuel => fuel

end

/-- A depth that no descent over these tokens reaches: between two tokens that are consumed it
passes fewer than sixteen rules. -/
def fuelFor (ts : List Token) : Nat :=
  16 * ts.length + 16

end Grammar

open Grammar in
/-- Reads a whole token list as one expression. -/
def ofTokens (ts : List Token) : Except Cause Expr :=
  match Grammar.sequence (fuelFor ts) ts with
  | .error e => .error e
  | .ok (e, ⟨.stop, _⟩ :: _) => .ok e
  | .ok (_, rest) => stopAt .unexpected rest

def read (source : String) : Except Cause Expr :=
  match Token.read source with
  | .error e => .error e
  | .ok ts => ofTokens ts

end Stencil.Expr
