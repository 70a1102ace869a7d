import Stencil.Decimal.Shortest
import Stencil.Text.Blank
import Stencil.Text.CodePoints

/-!
# Numbers as text

How numbers are written and read. A floating-point number is written with the fewest digits that
identify it: positionally, with at least one digit after the point, while its size is moderate, and
otherwise with an exponent. In messages that is from `0.0001` up to below `10 ^ 16`, and an exponent
has a sign and at least two digits. An integer is read with a sign and with single underscores
between its digits, which may be those of any script.
-/

namespace Stencil

def zeros (n : Nat) : List Char :=
  List.replicate n '0'

/-- The digits `ds`, standing after the point of `0.ds * 10 ^ point`, with a point in place. -/
def positional (ds : List Char) (point : Int) : List Char :=
  if point ≤ 0 then '0' :: '.' :: zeros (-point).toNat ++ ds
  else if (ds.length : Int) ≤ point then ds ++ zeros (point.toNat - ds.length) ++ ['.', '0']
  else ds.take point.toNat ++ '.' :: ds.drop point.toNat

structure Notation where
  /-- Zeros that may stand between the point and the first digit. -/
  mostZeros : Nat
  /-- Whether an exponent that is not negative has a sign. -/
  signsExponent : Bool
  /-- The least number of digits of an exponent. -/
  exponentWidth : Nat
deriving Repr

namespace Notation

def usual : Notation :=
  ⟨3, true, 2⟩

/-- The digits `ds` with the point after the first, and the exponent. -/
def scientific (l : Notation) (ds : List Char) (exponent : Int) : List Char :=
  let mantissa := match ds with
    | [] => []
    | [d] => [d]
    | d :: rest => d :: '.' :: rest
  let size := Nat.toDigits 10 exponent.natAbs
  let sign := if exponent < 0 then ['-'] else if l.signsExponent then ['+'] else []
  mantissa ++ 'e' :: sign ++ zeros (l.exponentWidth - size.length) ++ size

/-- The digits `ds` of `0.ds * 10 ^ point`. Up to sixteen digits may stand before the point. -/
def laidOut (l : Notation) (ds : List Char) (point : Int) : List Char :=
  if -(l.mostZeros : Int) ≤ point ∧ point ≤ 16 then positional ds point
  else l.scientific ds (point - 1)

end Notation

namespace Binary64

def textIn (l : Notation) : Binary64 → String
  | .nan => "nan"
  | .infinite s => if s then "-inf" else "inf"
  | .finite s m e =>
    let sign := if s then ['-'] else []
    if m = 0 then String.ofList (sign ++ ['0', '.', '0'])
    else
      let (n, k) := shortest m e
      let ds := Nat.toDigits 10 n
      String.ofList (sign ++ l.laidOut ds (ds.length + k))

def text (x : Binary64) : String :=
  x.textIn .usual

/-- The number with the decimal digits `whole` before the point, `fraction` after it and the given
exponent of ten. -/
def ofDigits (negative : Bool) (whole fraction : List Char) (exponent : Int) : Binary64 :=
  ofDecimal negative (Text.digitsValue (whole ++ fraction)) (exponent - fraction.length)

end Binary64

def integerDigitLimit : Nat := 4300

/-- Digits with single underscores between them. -/
def groupedDigits? : List Char → Option (List Char)
  | [] => none
  | [c] => if Text.isDecimal c then some [c] else none
  | c :: '_' :: cs => if Text.isDecimal c then (groupedDigits? cs).map (c :: ·) else none
  | c :: cs => if Text.isDecimal c then (groupedDigits? cs).map (c :: ·) else none

/-- The blanks that may stand around a number: not the separators of files and records. -/
def isNumberBlank (c : Char) : Bool :=
  Text.isBlank c && !(0x1C ≤ c.toNat && c.toNat ≤ 0x1F)

def trimNumber (cs : List Char) : List Char :=
  ((cs.dropWhile isNumberBlank).reverse.dropWhile isNumberBlank).reverse

/-- Reads an integer: blanks around it, a sign, and single underscores between digits are
allowed. -/
def readInt? (cs : List Char) : Option Int :=
  let (negative, body) := match trimNumber cs with
    | '-' :: rest => (true, rest)
    | '+' :: rest => (false, rest)
    | rest => (false, rest)
  (groupedDigits? body).bind fun ds =>
    if integerDigitLimit < ds.length then none
    else some (if negative then -(Text.digitsValue ds : Int) else Text.digitsValue ds)

/-- Reads the text of a floating-point number, as `Binary64.text` writes it. -/
def readBinary64? (cs : List Char) : Option Binary64 :=
  let (negative, body) := match cs with
    | '-' :: rest => (true, rest)
    | rest => (false, rest)
  if body = ['i', 'n', 'f'] then some (.infinite negative)
  else if body = ['n', 'a', 'n'] then some .nan
  else
    let whole := body.takeWhile Text.isDecimal
    let (fraction, rest) := match body.dropWhile Text.isDecimal with
      | '.' :: more => (more.takeWhile Text.isDecimal, more.dropWhile Text.isDecimal)
      | rest => ([], rest)
    if whole.isEmpty && fraction.isEmpty then none
    else match rest with
      | [] => some (.ofDigits negative whole fraction 0)
      | 'e' :: ex => (readInt? ex).map (.ofDigits negative whole fraction ·)
      | _ => none

end Stencil
