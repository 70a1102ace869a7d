import Stencil.Text.Printable

/-!
# Quoted texts

A text inside a message is shown between quotes: single quotes, unless the text holds a single
quote and no double quote. The backslash, the chosen quote and everything that cannot be printed
are written as escapes.
-/

namespace Stencil.Text

/-- The last `width` hexadecimal digits of `n`, in lower case. -/
def hexDigits : Nat → Nat → List Char
  | 0, _ => []
  | width + 1, n => hexDigits width (n / 16) ++ [Nat.digitChar (n % 16)]

def quoteMark (cs : List Char) : Char :=
  if cs.contains '\'' && !cs.contains '"' then '"' else '\''

/-- One character inside quotes; `stays` says which of those without an escape of their own are
written as they are. -/
def quotedChar (stays : Char → Bool) (mark c : Char) : List Char :=
  if c = '\\' ∨ c = mark then ['\\', c]
  else if c = '\n' then ['\\', 'n']
  else if c = '\r' then ['\\', 'r']
  else if c = '\t' then ['\\', 't']
  else if stays c then [c]
  else if c.toNat < 0x100 then '\\' :: 'x' :: hexDigits 2 c.toNat
  else if c.toNat < 0x10000 then '\\' :: 'u' :: hexDigits 4 c.toNat
  else '\\' :: 'U' :: hexDigits 8 c.toNat

def quoteChars (cs : List Char) : List Char :=
  quoteMark cs :: cs.flatMap (quotedChar isPrintable (quoteMark cs)) ++ [quoteMark cs]

/-- Quotes a text in the characters of ASCII alone. -/
def asciiQuoteChars (cs : List Char) : List Char :=
  let stays := fun c : Char => isPrintable c && c.toNat < 0x80
  quoteMark cs :: cs.flatMap (quotedChar stays (quoteMark cs)) ++ [quoteMark cs]

def quote (s : String) : String :=
  String.ofList (quoteChars s.toList)

end Stencil.Text
