import Stencil.Error.Cause
import Stencil.Text.Search

/-!
# Paths

A path is where it starts and the names along it. Empty names and single dots are dropped when a
path is read, so a path has one spelling; two dots are kept, since only the disk knows where they
lead. The extension of a file name starts at its last dot, unless that is its first or last
character.
-/

namespace Stencil

/-- Where a path starts. -/
inductive Anchor where
  /-- In the working directory. -/
  | here
  /-- At the root. -/
  | root
  /-- At the root, spelled with two slashes, which is a spelling of its own. -/
  | doubleRoot
deriving DecidableEq, Repr

def Anchor.text : Anchor → String
  | .here => ""
  | .root => "/"
  | .doubleRoot => "//"

structure Path where
  anchor : Anchor
  names : List String
deriving DecidableEq, Repr

namespace Path

def here : Path :=
  ⟨.here, []⟩

def anchorOf : Nat → Anchor
  | 0 => .here
  | 2 => .doubleRoot
  | _ => .root

def namesOf (cs : List Char) : List String :=
  ((Text.splitOn '/' cs).map String.ofList).filter fun n => n != "" && n != "."

def ofText (s : String) : Path :=
  ⟨anchorOf (s.toList.takeWhile (· == '/')).length, namesOf s.toList⟩

def text (p : Path) : String :=
  if p = here then "." else p.anchor.text ++ Text.join "/" p.names

def name (p : Path) : String :=
  p.names.getLast?.getD ""

def parent (p : Path) : Path :=
  { p with names := p.names.dropLast }

def child (p : Path) (name : String) : Path :=
  { p with names := p.names ++ [name] }

def descendant (p : Path) (names : List String) : Path :=
  { p with names := p.names ++ names }

/-- Splits a file name before the dot of its extension. -/
def splitName (name : List Char) : List Char × List Char :=
  let extension := (name.reverse.takeWhile (· != '.')).reverse
  let stem := name.take (name.length - extension.length - 1)
  if extension.isEmpty || stem.isEmpty || extension.length == name.length then (name, [])
  else (stem, '.' :: extension)

def stem (p : Path) : String :=
  String.ofList (splitName p.name.toList).1

/-- Puts an extension in the place of the one the path has, if any. A path without names has no
place for it. -/
def withExtension (p : Path) (extension : String) : Except Cause Path :=
  if p.names.isEmpty then .error (.emptyFileName p.text)
  else .ok (p.parent.child (p.stem ++ extension))

/-- Name by name; of two lists that agree as far as they go, the shorter comes first. -/
def namesBefore : List String → List String → Bool
  | [], _ => true
  | _ :: _, [] => false
  | a :: as, b :: bs => if a = b then namesBefore as bs else decide (a < b)

/-- Component by component, in the order of the characters. -/
def before (p q : Path) : Bool :=
  namesBefore (p.anchor.text :: p.names) (q.anchor.text :: q.names)

@[simp]
theorem parent_child (p : Path) (name : String) : (p.child name).parent = p := by
  simp [parent, child]

end Path

end Stencil
