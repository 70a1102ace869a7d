import Stencil.Entries
import Stencil.Error.Cause
import Stencil.Text.Layout

/-!
# Patterns with placeholders

In a pattern, a name in braces stands for a text. Behind the name, a number in square brackets takes
one character of the text; `!r` and `!a` quote it, and a colon starts a layout, in which there may
be placeholders once more. A doubled brace is a brace.

A pattern is read before it is filled, but it is filled up to the place where reading stopped, so of
two failures the one further left is reported.
-/

namespace Stencil.Text

/-! ## Reading a pattern -/

structure Field where
  name : List Char
  conversion? : Option Char
  layout : List Char
deriving Repr

namespace Field

/-- The name, the character that ends it, and the rest. Nothing ends it inside square brackets,
where `inside` is true. -/
def readName (inside : Bool) : List Char → Except PatternFault (List Char × Char × List Char)
  | [] => .error .unclosed
  | c :: cs =>
    if inside then
      (readName (c != ']') cs).map fun (name, rest) => (c :: name, rest)
    else if c = '\x7b' then .error .openInName
    else if c = '\x7d' ∨ c = ':' ∨ c = '!' then .ok ([], c, cs)
    else (readName (c == '[') cs).map fun (name, rest) => (c :: name, rest)

/-- The layout up to the brace that closes the placeholder; `depth` braces are open inside. -/
def readLayout (depth : Nat) : List Char → Except PatternFault (List Char × List Char)
  | [] => .error .openLayout
  | c :: cs =>
    match c, depth with
    | '\x7d', 0 => .ok ([], cs)
    | '\x7d', depth + 1 => (readLayout depth cs).map fun (l, rest) => (c :: l, rest)
    | '\x7b', depth => (readLayout (depth + 1) cs).map fun (l, rest) => (c :: l, rest)
    | _, depth => (readLayout depth cs).map fun (l, rest) => (c :: l, rest)

def readConversion (name : List Char) : List Char → Except PatternFault (Field × List Char)
  | [] => .error .noConversion
  | [_] => .error .openLayout
  | k :: '\x7d' :: cs => .ok (⟨name, some k, []⟩, cs)
  | k :: ':' :: cs => (readLayout 0 cs).map fun (l, rest) => (⟨name, some k, l⟩, rest)
  | _ => .error .noColon

def read (cs : List Char) : Except PatternFault (Field × List Char) := do
  match ← readName false cs with
  | (name, '!', rest) => readConversion name rest
  | (name, ':', rest) => (readLayout 0 rest).map fun (l, rest) => (⟨name, none, l⟩, rest)
  | (name, _, rest) => return (⟨name, none, []⟩, rest)

end Field

inductive PatternPiece where
  | literal (c : Char)
  | field (f : Field)
deriving Repr

/-- The pieces of a pattern up to its first fault. -/
structure Pattern where
  pieces : List PatternPiece
  fault? : Option PatternFault
deriving Repr

namespace Pattern

def prepend (piece : PatternPiece) (p : Pattern) : Pattern :=
  { p with pieces := piece :: p.pieces }

/-- Every step takes a character, so the length of the pattern is fuel enough. -/
def readFrom : Nat → List Char → Pattern
  | 0, _ => ⟨[], none⟩
  | _, [] => ⟨[], none⟩
  | fuel + 1, '\x7b' :: '\x7b' :: cs => (readFrom fuel cs).prepend (.literal '\x7b')
  | fuel + 1, '\x7d' :: '\x7d' :: cs => (readFrom fuel cs).prepend (.literal '\x7d')
  | _, ['\x7b'] => ⟨[], some .loneOpen⟩
  | _, '\x7d' :: _ => ⟨[], some .loneClose⟩
  | fuel + 1, '\x7b' :: cs =>
    match Field.read cs with
    | .ok (field, rest) => (readFrom fuel rest).prepend (.field field)
    | .error fault => ⟨[], some fault⟩
  | fuel + 1, c :: cs => (readFrom fuel cs).prepend (.literal c)

def read (cs : List Char) : Pattern :=
  readFrom cs.length cs

end Pattern

/-! ## Filling a pattern -/

namespace Field

def isStep (c : Char) : Bool :=
  c == '.' || c == '['

/-- The number that all of a text denotes, if it denotes one. The first digit that makes it too
large is a fault, whatever follows. -/
def positionFrom (n : Nat) : List Char → Except Cause (Option Nat)
  | [] => .ok (some n)
  | c :: cs =>
    match digitValue? c with
    | none => .ok none
    | some d =>
      if LayoutNotation.largest < 10 * n + d then .error (.badPattern (.layout .manyDigits))
      else positionFrom (10 * n + d) cs

def position? (cs : List Char) : Except Cause (Option Nat) :=
  if cs.isEmpty then .ok none else positionFrom 0 cs

def characterAt (text key : List Char) : Except Cause Char := do
  let position? ← position? key
  if key.isEmpty then throw (.badPattern .emptyStep)
  match position? with
  | none => throw .notPosition
  | some n =>
    match text[n]? with
    | some c => return c
    | none => throw (.noSuchPosition n)

/-- Takes the steps behind a name, one after the other. A text has characters and no members. -/
def follow (text : List Char) : List Char → Except Cause (List Char)
  | [] => .ok text
  | '[' :: cs =>
    let rest := cs.dropWhile (· != ']')
    if rest.isEmpty then .error (.badPattern .openBracket)
    else do follow [← characterAt text (cs.takeWhile (· != ']'))] (rest.drop 1)
  | '.' :: cs =>
    let name := cs.takeWhile (!isStep ·)
    .error (if name.isEmpty then .badPattern .emptyStep else .noSuchMember (String.ofList name))
  | _ => .error (.badPattern .afterBracket)
termination_by cs => cs.length
decreasing_by
  have := (List.dropWhile_sublist (l := cs) (· != ']')).length_le
  simp only [List.length_cons, List.length_drop]
  omega

/-- The text that a placeholder stands for. A number would stand for a text without a name, and
there is none. -/
def value (f : Field) (values : Entries String) : Except Cause (List Char) := do
  let first := f.name.takeWhile (!isStep ·)
  match ← position? first with
  | some n => throw (.noSuchPosition n)
  | none =>
    if first.isEmpty then throw (.noSuchPosition 0)
    match Entries.get? (String.ofList first) values with
    | some s => follow s.toList (f.name.drop first.length)
    | none => throw (.noSuchName (String.ofList first))

/-- Quotes a text as the conversion says. The character of number zero asks for nothing. -/
def converted (f : Field) (cs : List Char) : Except Cause (List Char) :=
  match f.conversion? with
  | none | some 's' => .ok cs
  | some 'r' => .ok (quoteChars cs)
  | some 'a' => .ok (asciiQuoteChars cs)
  | some c => if c.toNat = 0 then .ok cs else .error (.badPattern (.unknownConversion c))

def widest : Nat := 0x1000000000

def laidOut (layout cs : List Char) : Except Cause (List Char) :=
  if layout.isEmpty then .ok cs
  else match Layout.read layout with
    | .error fault => .error (.badPattern (.layout fault))
    | .ok l => if widest < l.width then .error .noRoom else .ok (l.apply cs)

end Field

/-- Fills a pattern from left to right. Layouts are patterns too, up to the given depth. -/
def fillTo (values : Entries String) : Nat → List Char → Except Cause (List Char)
  | 0, _ => .error (.badPattern .deep)
  | depth + 1, cs => do
    let pattern := Pattern.read cs
    let texts ← pattern.pieces.mapM fun
      | .literal c => pure [c]
      | .field f => do
        let text ← f.converted (← f.value values)
        let layout ← if f.layout.contains '\x7b' then fillTo values depth f.layout
          else pure f.layout
        Field.laidOut layout text
    match pattern.fault? with
    | some fault => throw (.badPattern fault)
    | none => return texts.flatten

def fill (values : Entries String) (pattern : String) : Except Cause String :=
  (fillTo values 2 pattern.toList).map String.ofList

end Stencil.Text
