import Stencil.Text.CaseTable

/-!
# Letter case

Full lower and upper case of a text. Lower case maps a capital sigma at the end of a word to its
final form; upper case may lengthen a text.

A name is camel-cased at its hyphens: a hyphen and the character after it become that character in
upper case, unless it is a line feed. So `data-item-id` becomes `dataItemId`.
-/

namespace Stencil.Text

/-- Lower case of one character, whatever stands around it. -/
def lowerChar (c : Char) : List Char :=
  if c.toNat < 0x80 then [c.toLower]
  else if c.toNat = 0x130 then ['i', Char.ofNat 0x307]
  else [((lowerRuns.findSome? (·.map? c.toNat)).map Char.ofNat).getD c]

def upperChar (c : Char) : List Char :=
  if c.toNat < 0x80 then [c.toUpper]
  else match upperExpansions.lookup c.toNat with
    | some ns => ns.map Char.ofNat
    | none => [((upperRuns.findSome? (·.map? c.toNat)).map Char.ofNat).getD c]

/-- Whether the first character that is not ignorable is a letter with case. -/
def meetsLetter (cs : List Char) : Bool :=
  match cs.dropWhile caseIgnorableRanges.holds with
  | [] => false
  | c :: _ => casedRanges.holds c

/-- `before` holds the characters already passed, nearest first. -/
def lowerFrom (before : List Char) : List Char → List Char
  | [] => []
  | c :: rest =>
    if c = 'Σ' then
      (if meetsLetter before && !meetsLetter rest then 'ς' else 'σ') :: lowerFrom (c :: before) rest
    else lowerChar c ++ lowerFrom (c :: before) rest

def lower (cs : List Char) : List Char :=
  lowerFrom [] cs

def upper (cs : List Char) : List Char :=
  cs.flatMap upperChar

def lowercase (s : String) : String :=
  String.ofList (lower s.toList)

def uppercase (s : String) : String :=
  String.ofList (upper s.toList)

def camelChars : List Char → List Char
  | [] => []
  | [c] => [c]
  | '-' :: c :: cs => if c = '\n' then '-' :: c :: camelChars cs else upperChar c ++ camelChars cs
  | c :: cs => c :: camelChars cs

def camel (name : String) : String :=
  String.ofList (camelChars name.toList)

end Stencil.Text
