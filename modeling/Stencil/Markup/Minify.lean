import Stencil.Braces
import Stencil.Markup.Raw

/-!
# Minifying markup

Runs of blanks between tags shrink to one space and are dropped where nothing else stands between
two tags. Tags, comments, directives and the elements whose text must keep its blanks are copied.
At the end `&sp;` becomes a space, so that a template can ask for one.
-/

namespace Stencil.Markup

set_option linter.unusedVariables false in
/-- The text after the attributes and the closing bracket of a tag. A bracket inside quotes does
not close it. -/
def tagRest? (cs : List Char) : Option (List Char) :=
  match cs with
  | [] => none
  | '>' :: cs => some cs
  | c :: cs =>
    if c = '"' ∨ c = '\'' then
      match h : Text.splitAtFirst? [c] cs with
      | some (before, rest) => tagRest? (rest.drop 1)
      | none => none
    else tagRest? cs
termination_by cs.length
decreasing_by
  · have := congrArg List.length (Text.splitWhere?_append h)
    simp only [List.length_append] at this
    simp only [List.length_drop, List.length_cons]
    omega
  · simp

/-- The text after a tag or a comment at the front. -/
def afterTagLike? (cs : List Char) : Option (List Char) :=
  (afterComment? cs).orElse fun _ =>
    match cs with
    | '<' :: c :: cs =>
      if c.isAlpha || c == '/' || c == '!' || c == '?' then tagRest? cs else none
    | _ => none

inductive Part where
  | tag (cs : List Char)
  | directive (cs : List Char)
  | text (cs : List Char)
deriving Repr

def stopsText (cs : List Char) : Bool :=
  ['{', '{'].isPrefixOf cs || cs.head? == some '<'

/-- The number of characters of the part that starts with `c`, less one, and its kind. -/
def partAt (c : Char) (cs : List Char) : (List Char → Part) × Nat :=
  if ['{', '{'].isPrefixOf (c :: cs) then
    match Braces.split? (cs.drop 1) with
    | some (region, _) => (.directive, 1 + region.length)
    | none => (.directive, cs.length)
  else match (if c = '<' then afterTagLike? (c :: cs) else none) with
    | some rest => (.tag, cs.length - rest.length)
    | none =>
      match Text.splitWhere? stopsText cs with
      | some (before, _) => (.text, before.length)
      | none => (.text, cs.length)

/-- Cuts an open text into tags, directives and text. -/
def parts (cs : List Char) : List Part :=
  match cs with
  | [] => []
  | c :: cs =>
    let (kind, n) := partAt c cs
    kind (c :: cs.take n) :: parts (cs.drop n)
termination_by cs.length
decreasing_by simp only [List.length_drop, List.length_cons]; omega

def isInk : Part → Bool
  | .tag _ => true
  | .directive _ => true
  | .text cs => !(Text.trim cs).isEmpty

def Part.shrunk : Part → List Char
  | .tag cs => cs
  | .directive cs => cs
  | .text cs => Text.collapse cs

/-- What is left of the parts between two tags, newest first. -/
def shrinkRun (run : List Part) : List Char :=
  if run.any isInk then run.reverse.flatMap Part.shrunk else []

/-- Shrinks the parts, collecting those since the last tag in `run`, newest first. -/
def shrinkFrom (run : List Part) : List Part → List Char
  | [] => shrinkRun run
  | .tag cs :: ps => shrinkRun run ++ cs ++ shrinkFrom [] ps
  | p :: ps => shrinkFrom (p :: run) ps

def minifyOpen (cs : List Char) : List Char :=
  shrinkFrom [] (parts cs)

/-- The text after an element that keeps its blanks. -/
def afterPreserved? (cs : List Char) : Option (List Char) :=
  ["pre", "textarea", "script", "style"].findSome? fun name => afterElement? name cs

def expandSpaces : List Char → List Char
  | '&' :: 's' :: 'p' :: ';' :: cs => ' ' :: expandSpaces cs
  | c :: cs => c :: expandSpaces cs
  | [] => []

def minify (source : String) : String :=
  String.ofList
    (expandSpaces (Text.trim (mapOpen minifyOpen (pieces afterPreserved? source.toList))))

end Stencil.Markup
