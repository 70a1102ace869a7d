import Stencil.Error
import Stencil.Markup.ReferenceName

/-!
# Character references

References to characters by number or by name, as they stand in text and in attribute values. A
number that denotes no character is replaced as the markup standard lays down, and a decimal number
of more digits than an integer may have is a failure. A name that is not known as a whole is read as
its longest known start, followed by the rest.
-/

namespace Stencil.Markup

def windowsCharacters : List Nat :=
  [0x20AC, 0x81, 0x201A, 0x0192, 0x201E, 0x2026, 0x2020, 0x2021, 0x02C6, 0x2030, 0x0160, 0x2039,
   0x0152, 0x8D, 0x017D, 0x8F, 0x90, 0x2018, 0x2019, 0x201C, 0x201D, 0x2022, 0x2013, 0x2014,
   0x02DC, 0x2122, 0x0161, 0x203A, 0x0153, 0x9D, 0x017E, 0x0178]

def isNoCharacter (n : Nat) : Bool :=
  (1 ≤ n && n ≤ 8) || n == 0x0B || (0x0E ≤ n && n ≤ 0x1F) || n == 0x7F ||
    (0xFDD0 ≤ n && n ≤ 0xFDEF) || n % 0x10000 == 0xFFFE || n % 0x10000 == 0xFFFF

def numbered (n : Nat) : List Char :=
  if n = 0 then [Char.ofNat 0xFFFD]
  else if 0x80 ≤ n ∧ n ≤ 0x9F then [Char.ofNat ((windowsCharacters[n - 0x80]?).getD n)]
  else if (0xD800 ≤ n ∧ n ≤ 0xDFFF) ∨ 0x10FFFF < n then [Char.ofNat 0xFFFD]
  else if isNoCharacter n then []
  else [Char.ofNat n]

/-- The text of a reference by name: the whole name if it is known, else its longest known start
of at least two characters with the rest after it, else the name as written. -/
def namedText (name : List Char) : List Char :=
  match named? name with
  | some t => t
  | none =>
    let starts := ((List.range name.length).drop 2).reverse
    match starts.findSome? fun n => (named? (name.take n)).map (· ++ name.drop n) with
    | some t => t
    | none => '&' :: name

/-- The characters that a reference by name may hold. -/
def isReferenceChar (c : Char) : Bool :=
  !(['\t', '\n', Char.ofNat 0x0C, ' ', '<', '&', '#', ';'].contains c)

def hexValue (c : Char) : Nat :=
  if c.isDigit then c.toNat - '0'.toNat
  else if 'a' ≤ c ∧ c ≤ 'f' then c.toNat - 'a'.toNat + 10
  else c.toNat - 'A'.toNat + 10

def isHex (c : Char) : Bool :=
  c.isDigit || ('a' ≤ c && c ≤ 'f') || ('A' ≤ c && c ≤ 'F')

/-- One more if a semicolon stands at that place. -/
def withSemicolon (cs : List Char) (n : Nat) : Nat :=
  if (cs.drop n).head? = some ';' then n + 1 else n

def decimal (digits : List Char) : Except Cause (List Char) :=
  if integerDigitLimit < digits.length then .error (.longInteger digits.length)
  else .ok (numbered (digits.foldl (fun n d => 10 * n + hexValue d) 0))

/-- The reference that follows an ampersand: its text, and how many characters it takes. -/
def reference? (cs : List Char) : Option (Except Cause (List Char) × Nat) :=
  match cs with
  | '#' :: rest =>
    let digits := rest.takeWhile Char.isDigit
    if !digits.isEmpty then some (decimal digits, withSemicolon cs (1 + digits.length))
    else match rest with
      | x :: more =>
        let digits := more.takeWhile isHex
        if (x = 'x' ∨ x = 'X') ∧ !digits.isEmpty then
          some (.ok (numbered (digits.foldl (fun n d => 16 * n + hexValue d) 0)),
            withSemicolon cs (2 + digits.length))
        else none
      | [] => none
  | cs =>
    let name := (cs.takeWhile isReferenceChar).take 32
    if name.isEmpty then none
    else
      let n := withSemicolon cs name.length
      some (.ok (namedText (cs.take n)), n)

/-- Replaces every character reference by what it stands for. -/
def decode : List Char → Except Cause (List Char)
  | [] => .ok []
  | c :: cs =>
    match (if c = '&' then reference? cs else none) with
    | some (text, n) => do return (← text) ++ (← decode (cs.drop n))
    | none => do return c :: (← decode cs)
termination_by cs => cs.length
decreasing_by all_goals (simp only [List.length_cons, List.length_drop]; omega)

end Stencil.Markup
