import Stencil.Path
import Stencil.Text.Search

/-!
# Files

The files that a run can see, as a value: what stands at each place. A path is resolved by walking
along its names from the place where it starts, and every name on the way has to be that of a
directory. Nothing is known of what lies outside the working directory except that the directories
above it and the root are there.
-/

namespace Stencil

inductive Content where
  | text (s : String)
  | bytes (bs : List UInt8)
deriving DecidableEq, Repr

namespace Content

def size : Content → Nat
  | .text s => s.utf8ByteSize
  | .bytes bs => bs.length

def append (c : Content) (s : String) : Content :=
  match c with
  | .text t => .text (t ++ s)
  | .bytes bs => .bytes (bs ++ s.toUTF8.toList)

end Content

inductive Base where
  /-- The directory that many levels above the working directory, which is zero levels above. -/
  | above (levels : Nat)
  | root
deriving DecidableEq, Repr

/-- A place on the disk: the names that lead to it from a base, none of them two dots. -/
structure Place where
  base : Base
  names : List String
deriving DecidableEq, Repr

namespace Place

def here : Place :=
  ⟨.above 0, []⟩

def start : Anchor → Place
  | .here => here
  | .root | .doubleRoot => ⟨.root, []⟩

def child (d : Place) (name : String) : Place :=
  { d with names := d.names ++ [name] }

/-- The directory that holds a place. The root holds itself. -/
def parent (d : Place) : Place :=
  match d.base, d.names with
  | .above n, [] => ⟨.above (n + 1), []⟩
  | base, names => ⟨base, names.dropLast⟩

/-- Whether `p` lies strictly below `q`. -/
def isBelow (p q : Place) : Bool :=
  p.base == q.base && q.names.isPrefixOf p.names && p != q

def namesFrom (q p : Place) : List String :=
  p.names.drop q.names.length

def isInside (p : Place) : Bool :=
  p.base == .above 0

def path (p : Place) : Path :=
  match p.base with
  | .above n => ⟨.here, List.replicate n ".." ++ p.names⟩
  | .root => ⟨.root, p.names⟩

end Place

inductive Entry where
  | file (c : Content)
  | directory
deriving DecidableEq, Repr

namespace Entry

/-- The number of bytes that an entry takes; a directory takes a block. -/
def size : Entry → Nat
  | .file c => c.size
  | .directory => 4096

end Entry

structure Files where
  entries : List (Place × Entry)
deriving Repr

namespace Files

def empty : Files :=
  ⟨[]⟩

/-- What stands at a place. A base is a directory. -/
def at? (fs : Files) (p : Place) : Option Entry :=
  if p.names.isEmpty then some .directory else fs.entries.lookup p

def put (fs : Files) (p : Place) (e : Entry) : Files :=
  ⟨(p, e) :: fs.entries.filter fun f => f.1 != p⟩

def remove (fs : Files) (p : Place) : Files :=
  ⟨fs.entries.filter fun f => f.1 != p⟩

/-! ## Resolving paths -/

def longestName : Nat := 255

def longestPath : Nat := 4095

def step (d : Place) (name : String) : Except FileFault Place :=
  if name = ".." then .ok d.parent
  else if longestName < name.utf8ByteSize then .error .longName
  else .ok (d.child name)

def enter (fs : Files) (d : Place) (name : String) : Except FileFault Place := do
  let p ← step d name
  match fs.at? p with
  | some .directory => return p
  | some (.file _) => throw .notDirectory
  | none => throw .missing

/-- The place that names lead to from a directory. All but the last are those of directories. -/
def walk (fs : Files) (d : Place) : List String → Except FileFault Place
  | [] => .ok d
  | [name] => step d name
  | name :: names => do fs.walk (← fs.enter d name) names

/-- The place that a path leads to, whether or not something stands there. -/
def locate (fs : Files) (p : Path) : Except Cause Place :=
  if p.text.toList.contains (Char.ofNat 0) then .error .nullInPath
  else if longestPath < p.text.utf8ByteSize then .error (.file .longName p.text)
  else (fs.walk (.start p.anchor) p.names).mapError fun fault => .file fault p.text

/-- What stands at the end of a path, if anything does. A path that leads nowhere is no failure, but
one that is too long is. -/
def entry? (fs : Files) (p : Path) : Except Cause (Option Entry) :=
  match fs.locate p with
  | .ok place => .ok (fs.at? place)
  | .error (.file .longName path) => .error (.file .longName path)
  | .error _ => .ok none

def has (fs : Files) (p : Path) : Except Cause Bool :=
  (fs.entry? p).map Option.isSome

def isDirectory (fs : Files) (p : Path) : Except Cause Bool :=
  (fs.entry? p).map (· == some .directory)

/-! ## Reading and writing -/

def read (fs : Files) (p : Path) : Except Cause Content := do
  match fs.at? (← fs.locate p) with
  | some (.file c) => return c
  | some .directory => throw (.file .directory p.text)
  | none => throw (.file .missing p.text)

/-- Reads a text, with every line end as a line feed. -/
def readText (fs : Files) (p : Path) : Except Cause String := do
  match ← fs.read p with
  | .text s => return String.ofList (Text.unifyLineEnds s.toList)
  | .bytes _ => throw .notUtf8

/-- Adds a text at the end of a file, which is made if it is not there. -/
def append (fs : Files) (p : Path) (s : String) : Except Cause Files := do
  let place ← fs.locate p
  match fs.at? place with
  | some (.file c) => return fs.put place (.file (c.append s))
  | some .directory => throw (.file .directory p.text)
  | none => return fs.put place (.file (.text s))

def write (fs : Files) (p : Path) (c : Content) : Except Cause Files := do
  let place ← fs.locate p
  match fs.at? place with
  | some .directory => throw (.file .directory p.text)
  | _ => return fs.put place (.file c)

/-! ## What putting and removing does to a look-up -/

theorem at?_put_self {p : Place} (h : p.names ≠ []) (fs : Files) (e : Entry) :
    (fs.put p e).at? p = some e := by
  simp [at?, put, h]

theorem lookup_filter_ne {p q : Place} (h : q ≠ p) (es : List (Place × Entry)) :
    (es.filter fun f => f.1 != p).lookup q = es.lookup q := by
  induction es with
  | nil => rfl
  | cons f es ih =>
    obtain ⟨r, e⟩ := f
    by_cases hr : r = p
    · subst hr
      have hq : (q == r) = false := by simpa using h
      simp [List.lookup_cons, hq, ih]
    · by_cases hq : q = r
      · subst hq
        simp [hr]
      · have hq' : (q == r) = false := by simpa using hq
        simp [hr, List.lookup_cons, hq', ih]

/-- Putting an entry at one place leaves all other places alone. -/
theorem at?_put_of_ne {p q : Place} (h : q ≠ p) (fs : Files) (e : Entry) :
    (fs.put p e).at? q = fs.at? q := by
  have hq : (q == p) = false := by simpa using h
  simp [at?, put, List.lookup_cons, hq, lookup_filter_ne h]

theorem at?_remove_of_ne {p q : Place} (h : q ≠ p) (fs : Files) :
    (fs.remove p).at? q = fs.at? q := by
  simp [at?, remove, lookup_filter_ne h]

end Files

end Stencil
