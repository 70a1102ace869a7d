import Stencil.Decimal.Notation
import Stencil.Json.Library
import Stencil.Json.Reading

/-!
# Writing JSON

A value is written on one line without spaces, or with one field or item a line, indented by two
spaces a level. Only the quote, the backslash and control characters are escaped. A number that is
not finite is written as null. An integer that 64 bits do not hold cannot be written, nor can a
value that is nested too deeply.
-/

namespace Stencil.Json

def escaped (c : Char) : List Char :=
  match c with
  | '"' => ['\\', '"']
  | '\\' => ['\\', '\\']
  | '\x08' => ['\\', 'b']
  | '\t' => ['\\', 't']
  | '\n' => ['\\', 'n']
  | '\x0c' => ['\\', 'f']
  | '\r' => ['\\', 'r']
  | c => if c.toNat < 0x20 then '\\' :: 'u' :: Text.hexDigits 4 c.toNat else [c]

def quoted (s : String) : String :=
  String.ofList ('"' :: s.toList.flatMap escaped ++ ['"'])

/-- Numbers are positional from `0.00001` on, and an exponent is written as short as it is. -/
def numbers : Notation :=
  ⟨4, false, 1⟩

def number : Binary64 → String
  | .finite s m e => (Binary64.finite s m e).textIn numbers
  | _ => "null"

/-- The most lists and objects that may stand inside one another, empty ones included. -/
def deepest : Nat := 254

mutual

/-- Whether a value inside `depth` lists and objects can be written. -/
def isWritable (depth : Nat) : Value → Bool
  | .int n => isHeld n
  | .list vs => depth < deepest && areWritable (depth + 1) vs
  | .object fs => depth < deepest && fieldsWritable (depth + 1) fs
  | _ => true
termination_by structural v => v

def areWritable (depth : Nat) : List Value → Bool
  | [] => true
  | v :: vs => isWritable depth v && areWritable depth vs
termination_by structural vs => vs

def fieldsWritable (depth : Nat) : List (String × Value) → Bool
  | [] => true
  | (_, v) :: fs => isWritable depth v && fieldsWritable depth fs
termination_by structural fs => fs

end

namespace Layout

def lineBreak (l : Layout) (depth : Nat) : String :=
  match l with
  | .compact => ""
  | .lines => "\n" ++ String.ofList (List.replicate (2 * depth) ' ')

def colon : Layout → String
  | .compact => ":"
  | .lines => ": "

end Layout

mutual

/-- A value whose items stand at the given depth. -/
def written (l : Layout) (depth : Nat) : Value → String
  | .null => "null"
  | .bool b => if b then "true" else "false"
  | .int n => toString n
  | .float x => number x
  | .text s => quoted s
  | .list [] => "[]"
  | .list (v :: vs) =>
    "[" ++ l.lineBreak (depth + 1) ++ written l (depth + 1) v ++ moreItems l (depth + 1) vs ++
      l.lineBreak depth ++ "]"
  | .object [] => "\x7b\x7d"
  | .object ((k, v) :: fs) =>
    "\x7b" ++ l.lineBreak (depth + 1) ++ quoted k ++ l.colon ++ written l (depth + 1) v ++
      moreFields l (depth + 1) fs ++ l.lineBreak depth ++ "\x7d"
termination_by structural v => v

def moreItems (l : Layout) (depth : Nat) : List Value → String
  | [] => ""
  | v :: vs => "," ++ l.lineBreak depth ++ written l depth v ++ moreItems l depth vs
termination_by structural vs => vs

def moreFields (l : Layout) (depth : Nat) : List (String × Value) → String
  | [] => ""
  | (k, v) :: fs =>
    "," ++ l.lineBreak depth ++ quoted k ++ l.colon ++ written l depth v ++ moreFields l depth fs
termination_by structural fs => fs

end

def write? (l : Layout) (v : Value) : Option String :=
  if isWritable 0 v then some (written l 0 v) else none

/-- The library that reads and writes as this module and the one about reading say. -/
def strict : Library :=
  ⟨read?, write?⟩

end Stencil.Json
