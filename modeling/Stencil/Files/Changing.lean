import Stencil.Files.Basic

/-!
# Directories and renaming

Making a directory together with those above it, and giving a file or a directory another name. A
failure while directories are made keeps those that have been made before it; a renaming that fails
changes nothing.
-/

namespace Stencil.Files

/-! ## Making directories -/

/-- Makes one directory in a directory that is there. A path whose last name is two dots leads to
what is there already. -/
def makeOne (fs : Files) (p : Path) : Except Cause Files := do
  let place ← fs.locate p
  if (fs.at? place).isSome then throw (.file .present p.text)
  return fs.put place .directory

def ensureOne (fs : Files) (p : Path) : Except Cause Files :=
  match fs.makeOne p with
  | .ok fs => .ok fs
  | .error (.file .missing path) => .error (.file .missing path)
  | .error (.file fault path) => do
    if ← fs.isDirectory p then return fs
    throw (.file fault path)
  | .error cause => .error cause

/-- Makes a directory below `p` along the given names, innermost first, and those above it. What has
been made before a failure stays. -/
def ensureAll (fs : Files) (anchor : Anchor) : List String → Files × Option Cause
  | [] =>
    match fs.ensureOne ⟨anchor, []⟩ with
    | .ok fs => (fs, none)
    | .error cause => (fs, some cause)
  | name :: names =>
    let p : Path := ⟨anchor, (name :: names).reverse⟩
    match fs.ensureOne p with
    | .ok fs => (fs, none)
    | .error (.file .missing _) =>
      match fs.ensureAll anchor names with
      | (fs, none) =>
        match fs.ensureOne p with
        | .ok fs => (fs, none)
        | .error cause => (fs, some cause)
      | failed => failed
    | .error cause => (fs, some cause)

def makeDirectory (fs : Files) (p : Path) : Files × Option Cause :=
  fs.ensureAll p.anchor p.names.reverse

/-! ## Renaming -/

def isVacant (fs : Files) (d : Place) : Bool :=
  !fs.entries.any fun f => f.1.isBelow d

def moveDirectory (fs : Files) (p q : Place) : Files :=
  let others := (fs.remove q).entries
  ⟨others.map fun f =>
    if f.1 = p ∨ f.1.isBelow p then (⟨q.base, q.names ++ p.namesFrom f.1⟩, f.2) else f⟩

/-- Puts what stands at `p` at `q`. A file takes the place of a file, a directory that of an empty
directory; neither takes the place of the other, and a directory cannot move into itself. -/
def replace (fs : Files) (p q : Place) (e : Entry) : Except FileFault Files :=
  if p = q then .ok fs
  else match e, fs.at? q with
    | .file c, some (.file _) | .file c, none => .ok ((fs.remove p).put q (.file c))
    | .file _, some .directory => .error .directory
    | .directory, some (.file _) => .error .notDirectory
    | .directory, target =>
      if q.isBelow p then .error .invalid
      else if target.isSome && !fs.isVacant q then .error .notEmpty
      else .ok (fs.moveDirectory p q)

/-- Whether a path ends in a name that can be given away. -/
def isNamed (p : Path) : Bool :=
  !p.names.isEmpty && p.name != ".."

/-- Gives a file or a directory another name, in place of what has that name. -/
def rename (fs : Files) (p q : Path) : Except Cause Files := do
  let source ← fs.locate p
  let target ← fs.locate q
  if !isNamed p || !isNamed q then throw (.file .busy p.text)
  match fs.at? source with
  | none => throw (.file .missing p.text)
  | some e => (fs.replace source target e).mapError fun fault => .file fault p.text

/-! ## Comparing -/

def contents (fs : Files) : List (Place × Content) :=
  fs.entries.filterMap fun f => match f.2 with
    | .file c => some (f.1, c)
    | .directory => none

/-- The files that `fs` has and `old` has not, or not with this content, in the order of their
paths. -/
def changes (old fs : Files) : List (Place × Content) :=
  (fs.contents.filter fun f => old.at? f.1 != some (.file f.2)).mergeSort
    fun a b => decide (a.1.path.text ≤ b.1.path.text)

end Stencil.Files
