import Stencil.Text.Blank
import Stencil.Text.Search
import Stencil.Text.Word

/-!
# Raw regions of markup

Comments and certain elements are passed over as they stand. A text is cut into `Piece`s: the raw
regions, and the open text around them in which directives and tags are looked for.

The name of an element is compared without regard to case. Among the characters outside ASCII,
the long s and the dotted and dotless i count as letters of such a name.
-/

namespace Stencil.Markup

def spells (p c : Char) : Bool :=
  c.toLower == p || (p == 's' && c == 'ſ') || (p == 'i' && (c == 'İ' || c == 'ı'))

/-- The case-free form in which an end tag has to repeat the letters of its start tag. -/
def foldLetter (c : Char) : Char :=
  if c = 'İ' then 'i' else c.toLower

/-- The letters at the front of the text that spell the name, and the text after them. -/
def spelled? : List Char → List Char → Option (List Char × List Char)
  | [], cs => some ([], cs)
  | _ :: _, [] => none
  | p :: ps, c :: cs =>
    if spells p c then (spelled? ps cs).map fun (letters, rest) => (c :: letters, rest) else none

/-- The text after the letters, whatever their case. -/
def repeated? : List Char → List Char → Option (List Char)
  | [], cs => some cs
  | _ :: _, [] => none
  | p :: ps, c :: cs => if foldLetter p = foldLetter c then repeated? ps cs else none

def tagEnd? (cs : List Char) : Option (List Char) :=
  match Text.skipBlanks cs with
  | '>' :: rest => some rest
  | _ => none

def endTag? (letters : List Char) : List Char → Option (List Char)
  | '<' :: '/' :: cs => (repeated? letters cs).bind tagEnd?
  | _ => none

/-- The text after the first position at which `p` accepts. -/
def afterFirst? (p : List Char → Option (List Char)) : List Char → Option (List Char)
  | [] => p []
  | c :: cs =>
    match p (c :: cs) with
    | some rest => some rest
    | none => afterFirst? p cs

def afterComment? : List Char → Option (List Char)
  | '<' :: '!' :: '-' :: '-' :: cs =>
    (Text.splitAtFirst? ['-', '-', '>'] cs).map fun (_, rest) => rest.drop 3
  | _ => none

/-- The text after an element of this name at the front, up to its first end tag. -/
def afterElement? (name : String) : List Char → Option (List Char)
  | '<' :: cs =>
    match spelled? name.toList cs with
    | some (letters, rest) =>
      if Text.endsWord rest then afterFirst? (endTag? letters) rest else none
    | none => none
  | _ => none

inductive Piece where
  | openText (cs : List Char)
  | raw (cs : List Char)
deriving Repr

/-- The number of characters that a recogniser consumes; none if it does not accept. -/
def consumed (after? : List Char → Option (List Char)) (cs : List Char) : Nat :=
  match after? cs with
  | some rest => cs.length - rest.length
  | none => 0

/-- Cuts a text at its raw regions. The open text so far is in `chunk`, newest character first. -/
def piecesFrom (after? : List Char → Option (List Char)) (chunk : List Char) :
    List Char → List Piece
  | [] => [.openText chunk.reverse]
  | c :: cs =>
    match consumed after? (c :: cs) with
    | 0 => piecesFrom after? (c :: chunk) cs
    | n + 1 => .openText chunk.reverse :: .raw (c :: cs.take n) :: piecesFrom after? [] (cs.drop n)
termination_by cs => cs.length
decreasing_by all_goals (simp only [List.length_cons, List.length_drop]; omega)

def pieces (after? : List Char → Option (List Char)) (cs : List Char) : List Piece :=
  piecesFrom after? [] cs

/-- Joins the pieces, with `f` applied to the open ones. -/
def mapOpen (f : List Char → List Char) (ps : List Piece) : List Char :=
  ps.flatMap fun
    | .openText cs => f cs
    | .raw cs => cs

end Stencil.Markup
