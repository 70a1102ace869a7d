import Stencil.Error.Fault
import Stencil.Text.CodePoints

/-!
# Layouts

How a text is laid out in a field: a fill character, an alignment, the least width, and after a
point the greatest number of characters. The notation is shared with numbers, so it also has signs,
separators of thousands and codes of other types; none of these fits a text, and each is refused in
its own words.
-/

namespace Stencil.Text

inductive Alignment where
  | left
  | right
  | center
  /-- Between a sign and its digits. -/
  | afterSign
deriving DecidableEq, Repr

/-- A layout as it is written, for a value of any type. -/
structure LayoutNotation where
  fill? : Option Char
  alignment? : Option Alignment
  sign? : Option Char
  zeroSign : Bool
  alternate : Bool
  padded : Bool
  width : Nat
  separator? : Option Char
  limit? : Option Nat
  code : Char
deriving Repr

namespace LayoutNotation

def alignment : Char → Option Alignment
  | '<' => some .left
  | '>' => some .right
  | '^' => some .center
  | '=' => some .afterSign
  | _ => none

def aligned (cs : List Char) : Option Char × Option Alignment × List Char :=
  match cs with
  | fill :: a :: rest =>
    match alignment a with
    | some al => (some fill, some al, rest)
    | none => (none, alignment fill, if (alignment fill).isSome then a :: rest else cs)
  | [a] => (none, alignment a, if (alignment a).isSome then [] else cs)
  | [] => (none, none, [])

def optional (p : Char → Bool) : List Char → Option Char × List Char
  | [] => (none, [])
  | c :: cs => if p c then (some c, cs) else (none, c :: cs)

def largest : Nat := 9223372036854775807

def number (cs : List Char) : Except LayoutFault (Option Nat × List Char) :=
  let digits := cs.takeWhile isDecimal
  if digits.isEmpty then .ok (none, cs)
  else if largest < digitsValue digits then .error .manyDigits
  else .ok (some (digitsValue digits), cs.drop digits.length)

def separator (cs : List Char) : Except LayoutFault (Option Char × List Char) :=
  match cs with
  | ',' :: '_' :: _ => .error .bothSeparators
  | '_' :: ',' :: _ => .error .bothSeparators
  | cs => .ok (optional (fun c => c == ',' || c == '_') cs)

def limit (cs : List Char) : Except LayoutFault (Option Nat × List Char) :=
  match cs with
  | '.' :: cs => do
    match ← number cs with
    | (none, _) => throw .noLimit
    | found => return found
  | cs => .ok (none, cs)

/-- Reads a layout. What follows all else is one character that names the type, that of texts if
there is none. -/
def read (cs : List Char) : Except LayoutFault LayoutNotation := do
  let (fill?, alignment?, rest) := aligned cs
  let (sign?, rest) := optional (fun c => c == ' ' || c == '+' || c == '-') rest
  let (zero?, rest) := optional (· == 'z') rest
  let (alternate?, rest) := optional (· == '#') rest
  let (padded?, rest) := optional (fun c => fill?.isNone && c == '0') rest
  let (width?, rest) ← number rest
  let (separator?, rest) ← separator rest
  let (limit?, rest) ← limit rest
  let code ← match rest with
    | [] => pure 's'
    | [c] => pure c
    | _ => throw (.tooMuch (String.ofList cs))
  return { fill?, alignment?, sign?, zeroSign := zero?.isSome, alternate := alternate?.isSome,
           padded := padded?.isSome, width := width?.getD 0, separator?, limit?, code }

/-- Whether numbers written under this code have thousands that the separator can set apart. -/
def separates (separator code : Char) : Bool :=
  ['d', 'e', 'f', 'g', 'E', 'G', '%', 'F', Char.ofNat 0].contains code ||
    (separator == '_' && ['b', 'o', 'x', 'X'].contains code)

/-- The first thing about a layout that does not fit a text. -/
def fault? (n : LayoutNotation) : Option LayoutFault :=
  match n.separator?.filter fun separator => !separates separator n.code with
  | some separator => some (.separatorWith separator n.code)
  | none =>
    if n.code ≠ 's' then some (.unknownCode n.code)
    else if n.sign? = some ' ' then some .space
    else if n.sign?.isSome then some .sign
    else if n.zeroSign then some .zeroSign
    else if n.alternate then some .alternate
    else if n.alignment? = some .afterSign then some .afterSign
    else none

end LayoutNotation

structure Layout where
  fill : Char
  alignment : Alignment
  width : Nat
  limit? : Option Nat
deriving Repr

namespace Layout

def read (cs : List Char) : Except LayoutFault Layout := do
  let n ← LayoutNotation.read cs
  match n.fault? with
  | some fault => throw fault
  | none =>
    return { fill := n.fill?.getD (if n.padded then '0' else ' ')
             alignment := n.alignment?.getD .left
             width := n.width
             limit? := n.limit? }

/-- Cuts a text to the limit and fills it up to the width. An odd character of centering goes to the
right. -/
def apply (l : Layout) (cs : List Char) : List Char :=
  let cs := match l.limit? with
    | some n => cs.take n
    | none => cs
  let room := l.width - cs.length
  let before := match l.alignment with
    | .right => room
    | .center => room / 2
    | .left | .afterSign => 0
  List.replicate before l.fill ++ cs ++ List.replicate (room - before) l.fill

end Layout

end Stencil.Text
