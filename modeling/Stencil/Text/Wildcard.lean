import Stencil.Entries

/-!
# Wildcards

A name can be matched against a pattern: a star stands for any characters, a question mark for one,
and a set in square brackets for one of its members, or with an exclamation mark for one that is no
member. In a set, a hyphen between two characters is a range; a range that runs backwards is empty,
and so are its ends. A bracket that is never closed is a character like any other.
-/

namespace Stencil.Text

/-- What stands for one character or more. -/
inductive Wildcard where
  | any
  | one (negated : Bool) (ranges : List (Char × Char))
deriving DecidableEq, Repr

namespace Wildcard

/-- One character, whichever it is. -/
def whichever : Wildcard :=
  .one true []

def character (c : Char) : Wildcard :=
  .one false [(c, c)]

def accepts (negated : Bool) (ranges : List (Char × Char)) (c : Char) : Bool :=
  negated != ranges.any fun r => r.1 ≤ c && c ≤ r.2

def suffixes : List Char → List (List Char)
  | [] => [[]]
  | c :: cs => (c :: cs) :: suffixes cs

def matching : List Wildcard → List Char → Bool
  | [], cs => cs.isEmpty
  | .any :: ws, cs => (suffixes cs).any (matching ws)
  | .one negated ranges :: ws, cs =>
    match cs with
    | [] => false
    | c :: cs => accepts negated ranges c && matching ws cs

/-! ## Sets -/

/-- Cuts the inside of a set at the hyphens that make ranges. At least one character stands before
such a hyphen, and at least two between any two of them; `skipped` is how many characters still have
to pass, and `chunk` holds the current piece, newest character first. -/
def chunksFrom (skipped : Nat) (chunk : List Char) : List Char → List (List Char)
  | [] => [chunk.reverse]
  | c :: cs =>
    match skipped with
    | skipped + 1 => chunksFrom skipped (c :: chunk) cs
    | 0 => if c = '-' then chunk.reverse :: chunksFrom 2 [] cs else chunksFrom 0 (c :: chunk) cs

/-- A hyphen at the very end belongs to the piece before it. -/
def withLastHyphen : List (List Char) → List (List Char)
  | [chunk, []] => [chunk ++ ['-']]
  | chunk :: chunks => chunk :: withLastHyphen chunks
  | [] => []

/-- Joins a piece to those after it if the range between them runs backwards, without its ends. -/
def joined (chunk : List Char) (chunks : List (List Char)) : List (List Char) :=
  match chunk.getLast?, chunks with
  | some last, (first :: more) :: rest =>
    if first < last then (chunk.dropLast ++ more) :: rest else chunk :: chunks
  | _, _ => chunk :: chunks

/-- The pieces of a set with its empty ranges removed. -/
def chunks (skipped : Nat) (inside : List Char) : List (List Char) :=
  (withLastHyphen (chunksFrom skipped [] inside)).foldr joined []

/-- The members of a set: between two pieces there is a range. A hyphen with nothing before it is a
member. -/
def rangesOf : List (List Char) → List (Char × Char)
  | [] => []
  | [chunk] => chunk.map fun c => (c, c)
  | chunk :: next :: rest =>
    match chunk.getLast?, next with
    | some last, first :: more =>
      chunk.dropLast.map (fun c => (c, c)) ++ (last, first) :: rangesOf (more :: rest)
    | _, _ => chunk.map (fun c => (c, c)) ++ ('-', '-') :: rangesOf (next :: rest)
termination_by chunks => chunks.length

/-- The set with this inside. An exclamation mark in front of what is left of it negates it. -/
def ofSet (inside : List Char) : Wildcard :=
  match chunks (if inside.head? = some '!' then 2 else 1) inside with
  | ('!' :: chunk) :: rest => .one true (rangesOf (chunk :: rest))
  | chunks => .one false (rangesOf chunks)

/-- The inside of the set that starts here, and what follows it. A closing bracket at the front is a
member. -/
def setInside? (cs : List Char) : Option (List Char × List Char) :=
  let mark := if cs.head? = some '!' then 1 else 0
  let first := if (cs.drop mark).head? = some ']' then mark + 1 else mark
  let more := (cs.drop first).takeWhile (· != ']')
  if first + more.length < cs.length then
    some (cs.take first ++ more, cs.drop (first + more.length + 1))
  else none

/-- Reads a pattern. Every step takes a character, so its length is fuel enough. -/
def readFrom : Nat → List Char → List Wildcard
  | 0, _ => []
  | _, [] => []
  | fuel + 1, '*' :: cs => .any :: readFrom fuel cs
  | fuel + 1, '?' :: cs => whichever :: readFrom fuel cs
  | fuel + 1, '[' :: cs =>
    match setInside? cs with
    | some (inside, rest) => ofSet inside :: readFrom fuel rest
    | none => character '[' :: readFrom fuel cs
  | fuel + 1, c :: cs => character c :: readFrom fuel cs

def read (pattern : List Char) : List Wildcard :=
  readFrom pattern.length pattern

end Wildcard

def matchesPattern (pattern name : String) : Bool :=
  Wildcard.matching (Wildcard.read pattern.toList) name.toList

end Stencil.Text
