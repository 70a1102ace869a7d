import Stencil.Files.Basic
import Stencil.Text.Wildcard

/-!
# Finding files

A pattern of a path is a list of patterns, one a name. Two stars stand for any number of
directories, none included. What is found is given once and in order.
-/

namespace Stencil

inductive PathPattern where
  /-- Directories of any names, any number of them. -/
  | anywhere
  /-- One name that matches. -/
  | like (pattern : String)
  /-- One name as it is written. -/
  | named (name : String)
  /-- No name, but what is before has to be a directory. -/
  | directory
deriving DecidableEq, Repr

namespace PathPattern

def isWild (name : String) : Bool :=
  name.toList.any fun c => c == '*' || c == '?' || c == '['

def hasTwoStars : List Char → Bool
  | '*' :: '*' :: _ => true
  | _ :: cs => hasTwoStars cs
  | [] => false

def ofName (name : String) : Except Cause PathPattern :=
  if name = "**" then .ok .anywhere
  else if hasTwoStars name.toList then .error .badFilePattern
  else .ok (if isWild name then .like name else .named name)

/-- Reads a pattern. A slash at its end asks for directories. -/
def read (pattern : String) : Except Cause (List PathPattern) := do
  let parts ← (Path.namesOf pattern.toList).mapM ofName
  return parts ++ if pattern.toList.getLast? = some '/' then [.directory] else []

end PathPattern

namespace Files

def namesIn (fs : Files) (d : Place) : List (String × Entry) :=
  fs.entries.filterMap fun f =>
    match d.namesFrom f.1 with
    | [name] => if f.1.isBelow d then some (name, f.2) else none
    | _ => none

/-- The names that lead to each directory below a directory, and to itself. -/
def directoriesFrom (fs : Files) (d : Place) : List (List String) :=
  [] :: fs.entries.filterMap fun f =>
    if f.1.isBelow d && f.2 == .directory then some (d.namesFrom f.1) else none

/-- The paths below a directory that match the parts of a pattern. -/
def select (fs : Files) (p : Path) : List PathPattern → Except Cause (List Path)
  | [] => .ok [p]
  | .directory :: _ => .ok [p]
  | .anywhere :: parts => do
    let found ← (fs.directoriesFrom (← fs.locate p)).mapM fun names =>
      fs.select (p.descendant names) parts
    return found.flatten
  | .like pattern :: parts => do
    let fits := fun (entry : String × Entry) =>
      (parts.isEmpty || entry.2 == .directory) && Text.matchesPattern pattern entry.1
    let found ← ((fs.namesIn (← fs.locate p)).filter fits).mapM fun entry =>
      fs.select (p.child entry.1) parts
    return found.flatten
  | .named name :: parts => do
    let entry? ← fs.entry? (p.child name)
    if entry? == some .directory || (parts.isEmpty && entry?.isSome) then
      fs.select (p.child name) parts
    else return []

/-- The paths below a directory that match a pattern, in order. If it is no directory, there are
none. -/
def find (fs : Files) (directory : Path) (pattern : String) : Except Cause (List Path) := do
  let parts ← PathPattern.read pattern
  if ← fs.isDirectory directory then
    let found ← fs.select directory (.anywhere :: parts)
    return found.eraseDups.mergeSort Path.before
  else return []

end Files

end Stencil
