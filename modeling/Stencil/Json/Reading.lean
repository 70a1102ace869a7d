import Stencil.Decimal.Notation
import Stencil.Value.Basic

/-!
# Reading JSON

A strict reader of JSON texts. An integer has to fit in 64 bits, signed or unsigned, to be read as
an integer; beyond that it is read as a floating-point number, and a number too large for one is
refused. A field that is given twice keeps its first place and its last value. Lists and objects may
stand inside one another up to a depth of 1024.

The rules take the rest of the text and give the rest behind what they read. Every nested value is
shorter than the text that holds it, so the length of the text is fuel enough.
-/

namespace Stencil.Json

def isSpace (c : Char) : Bool :=
  c == ' ' || c == '\t' || c == '\n' || c == '\r'

def skipSpaces (cs : List Char) : List Char :=
  cs.dropWhile isSpace

def isAsciiDigit (c : Char) : Bool :=
  '0' ≤ c && c ≤ '9'

/-! ## Numbers -/

/-- The digits at the front, of which there has to be one. -/
def digits? (cs : List Char) : Option (List Char × List Char) :=
  let ds := cs.takeWhile isAsciiDigit
  if ds.isEmpty then none else some (ds, cs.dropWhile isAsciiDigit)

/-- The digits before the point: no zero stands before another digit. -/
def whole? (cs : List Char) : Option (List Char × List Char) :=
  (digits? cs).filter fun (ds, _) => ds.length == 1 || ds.head? != some '0'

/-- The digits after the point, none if there is no point. -/
def fraction? : List Char → Option (List Char × List Char)
  | '.' :: cs => digits? cs
  | cs => some ([], cs)

def exponentDigits? : List Char → Option (Int × List Char)
  | '-' :: cs => (digits? cs).map fun (ds, rest) => (-(Text.digitsValue ds : Int), rest)
  | '+' :: cs => (digits? cs).map fun (ds, rest) => ((Text.digitsValue ds : Int), rest)
  | cs => (digits? cs).map fun (ds, rest) => ((Text.digitsValue ds : Int), rest)

def exponent? : List Char → Option (Option Int × List Char)
  | 'e' :: cs => (exponentDigits? cs).map fun (n, rest) => (some n, rest)
  | 'E' :: cs => (exponentDigits? cs).map fun (n, rest) => (some n, rest)
  | cs => some (none, cs)

/-- Whether an integer is held exactly. -/
def isHeld (n : Int) : Bool :=
  -9223372036854775808 ≤ n && n ≤ 18446744073709551615

def finite? : Binary64 → Option Value
  | .finite s m e => some (.float (.finite s m e))
  | _ => none

def numberValue? (negative : Bool) (whole fraction : List Char) (exponent : Option Int) :
    Option Value :=
  let n : Int := Text.digitsValue whole
  let n := if negative then -n else n
  if fraction.isEmpty && exponent.isNone && isHeld n then some (.int n)
  else finite? (.ofDigits negative whole fraction (exponent.getD 0))

def number? (negative : Bool) (cs : List Char) : Option (Value × List Char) := do
  let (whole, cs) ← whole? cs
  let (fraction, cs) ← fraction? cs
  let (exponent, cs) ← exponent? cs
  let v ← numberValue? negative whole fraction exponent
  return (v, cs)

/-! ## Texts -/

def hexValue? (c : Char) : Option Nat :=
  if '0' ≤ c ∧ c ≤ '9' then some (c.toNat - '0'.toNat)
  else if 'a' ≤ c ∧ c ≤ 'f' then some (c.toNat - 'a'.toNat + 10)
  else if 'A' ≤ c ∧ c ≤ 'F' then some (c.toNat - 'A'.toNat + 10)
  else none

def unit? (a b c d : Char) : Option Nat := do
  return (((← hexValue? a) * 16 + (← hexValue? b)) * 16 + (← hexValue? c)) * 16 + (← hexValue? d)

def pair? (high low : Nat) : Option Char :=
  if 0xD800 ≤ high ∧ high < 0xDC00 ∧ 0xDC00 ≤ low ∧ low < 0xE000 then
    some (Char.ofNat (0x10000 + (high - 0xD800) * 0x400 + (low - 0xDC00)))
  else none

/-- The character of a number that is no surrogate. -/
def scalar? (n : Nat) : Option Char :=
  if 0xD800 ≤ n ∧ n < 0xE000 then none else some (Char.ofNat n)

def shortEscape? : Char → Option Char
  | '"' => some '"'
  | '\\' => some '\\'
  | '/' => some '/'
  | 'b' => some '\x08'
  | 'f' => some '\x0c'
  | 'n' => some '\n'
  | 'r' => some '\r'
  | 't' => some '\t'
  | _ => none

def text? : List Char → Option (List Char × List Char)
  | [] => none
  | '"' :: cs => some ([], cs)
  | '\\' :: 'u' :: a :: b :: c :: d :: '\\' :: 'u' :: e :: f :: g :: h :: cs =>
    match (unit? a b c d).bind scalar? with
    | some x => (text? ('\\' :: 'u' :: e :: f :: g :: h :: cs)).map fun (s, rest) => (x :: s, rest)
    | none => do
      let x ← pair? (← unit? a b c d) (← unit? e f g h)
      let (s, rest) ← text? cs
      return (x :: s, rest)
  | '\\' :: 'u' :: a :: b :: c :: d :: cs => do
    let x ← (unit? a b c d).bind scalar?
    let (s, rest) ← text? cs
    return (x :: s, rest)
  | '\\' :: c :: cs => do
    let x ← shortEscape? c
    let (s, rest) ← text? cs
    return (x :: s, rest)
  | c :: cs =>
    if c.toNat < 0x20 || c == '\\' then none
    else (text? cs).map fun (s, rest) => (c :: s, rest)

/-! ## Values -/

def deepestRead : Nat := 1024

mutual

/-- A value in which lists and objects may be nested `room` deep. -/
def value? (room : Nat) : Nat → List Char → Option (Value × List Char)
  | 0, _ => none
  | fuel + 1, cs =>
    match skipSpaces cs with
    | 'n' :: 'u' :: 'l' :: 'l' :: rest => some (.null, rest)
    | 't' :: 'r' :: 'u' :: 'e' :: rest => some (.bool true, rest)
    | 'f' :: 'a' :: 'l' :: 's' :: 'e' :: rest => some (.bool false, rest)
    | '"' :: rest => (text? rest).map fun (s, rest) => (.text (String.ofList s), rest)
    | '[' :: rest =>
      if room = 0 then none
      else match skipSpaces rest with
        | ']' :: rest => some (.list [], rest)
        | rest => (items? (room - 1) fuel rest).map fun (vs, rest) => (.list vs, rest)
    | '\x7b' :: rest =>
      if room = 0 then none
      else match skipSpaces rest with
        | '\x7d' :: rest => some (.object [], rest)
        | rest =>
          (fields? (room - 1) fuel rest).map fun (fs, rest) => (.object (Entries.ofPairs fs), rest)
    | '-' :: rest => number? true rest
    | rest => number? false rest

/-- One value or more, with commas between them, and the bracket behind. -/
def items? (room : Nat) : Nat → List Char → Option (List Value × List Char)
  | 0, _ => none
  | fuel + 1, cs => do
    let (v, rest) ← value? room fuel cs
    match skipSpaces rest with
    | ',' :: rest =>
      let (vs, rest) ← items? room fuel rest
      return (v :: vs, rest)
    | ']' :: rest => return ([v], rest)
    | _ => none

/-- One field or more, with commas between them, and the brace behind. -/
def fields? (room : Nat) : Nat → List Char → Option (List (String × Value) × List Char)
  | 0, _ => none
  | fuel + 1, cs =>
    match skipSpaces cs with
    | '"' :: rest => do
      let (k, rest) ← text? rest
      match skipSpaces rest with
      | ':' :: rest =>
        let (v, rest) ← value? room fuel rest
        match skipSpaces rest with
        | ',' :: rest =>
          let (fs, rest) ← fields? room fuel rest
          return ((String.ofList k, v) :: fs, rest)
        | '\x7d' :: rest => return ([(String.ofList k, v)], rest)
        | _ => none
      | _ => none
    | _ => none

end

def read? (s : String) : Option Value :=
  let cs := s.toList
  match value? deepestRead (2 * cs.length + 2) cs with
  | some (v, rest) => if (skipSpaces rest).isEmpty then some v else none
  | none => none

end Stencil.Json
