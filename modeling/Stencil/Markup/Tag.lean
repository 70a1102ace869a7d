import Stencil.Markup.Reference
import Stencil.Text.Blank
import Stencil.Text.Case
import Stencil.Text.Search

/-!
# Start tags

How a start tag is read: its name, its attributes with their values, and where it ends. The
reading is lenient. A quote that is never closed does not start a value, and a name may hold
anything but blanks, slashes, angle brackets and, after its first character, equals signs.
-/

namespace Stencil.Markup

def isTagNameChar (c : Char) : Bool :=
  !(['\t', '\n', '\r', Char.ofNat 0x0C, ' ', '/', '>', Char.ofNat 0].contains c)

def tagName? : List Char → Option (List Char × List Char)
  | [] => none
  | c :: cs =>
    if c.isAlpha then some (c :: cs.takeWhile isTagNameChar, cs.dropWhile isTagNameChar) else none

/-- Skips blanks and the slashes that do not close the tag. -/
def skipSeparators : List Char → List Char
  | [] => []
  | c :: cs =>
    if Text.isBlank c then skipSeparators cs
    else if c = '/' ∧ cs.head? ≠ some '>' then skipSeparators cs
    else c :: cs

def isQuote (c : Char) : Bool :=
  c == '\'' || c == '"'

/-- The characters after which an attribute may start. -/
def precedesAttribute (c : Char) : Bool :=
  isQuote c || Text.isBlank c || c == '/'

def startsAttribute (c : Char) : Bool :=
  !(Text.isBlank c || c == '/' || c == '>')

def isAttributeChar (c : Char) : Bool :=
  startsAttribute c && c != '='

def isBareValueChar (c : Char) : Bool :=
  !(Text.isBlank c || c == '>')

def bareValue (cs : List Char) : List Char × List Char :=
  (cs.takeWhile isBareValueChar, cs.dropWhile isBareValueChar)

def quotedValue? : List Char → Option (List Char × List Char)
  | [] => none
  | q :: cs =>
    if isQuote q then
      match Text.splitAtFirst? [q] cs with
      | some (value, rest) => some (q :: value ++ [q], rest.drop 1)
      | none => none
    else none

/-- The equals signs and the value after an attribute's name. Before a quote that is never closed
the value is empty if a blank stands there; else the last of several equals signs belongs to it;
else there is no value. -/
def assigned? (cs : List Char) : Option (List Char × List Char) :=
  let signs := (Text.skipBlanks cs).takeWhile (· == '=')
  let after := (Text.skipBlanks cs).dropWhile (· == '=')
  let start := Text.skipBlanks after
  if signs.isEmpty then none
  else match quotedValue? start with
    | some found => some found
    | none =>
      if (start.head?.map isQuote).getD false then
        if start.length < after.length then some ([], after.drop (after.length - start.length - 1))
        else if 2 ≤ signs.length then some (bareValue ('=' :: after))
        else none
      else some (bareValue start)

/-- The last character of `cs`, or the one before it if there is none. -/
def lastOr (before : Char) (cs : List Char) : Char :=
  cs.getLast?.getD before

/-- An attribute as written: its name, and its value if it has one. -/
abbrev RawAttribute := List Char × Option (List Char)

/-- The attribute that starts with `c`, and the text after it and its separators. -/
def attributeAt (c : Char) (cs : List Char) : RawAttribute × List Char :=
  let name := c :: cs.takeWhile isAttributeChar
  let rest := cs.dropWhile isAttributeChar
  match assigned? rest with
  | some (value, rest) => ((name, some value), rest)
  | none => ((name, none), rest)

/-- The character that decides whether another attribute may follow `a`: a separator after it, or
else the last character of its value or its name. -/
def characterAfter (a : RawAttribute) (rest : List Char) : Char :=
  (rest.head?.filter fun c => Text.isBlank c || c == '/').getD
    (lastOr (lastOr ' ' a.1) (a.2.getD []))

/-! ## Reading goes forward -/

theorem skipBlanks_length (cs : List Char) : (Text.skipBlanks cs).length ≤ cs.length :=
  (List.dropWhile_sublist _).length_le

theorem skipSeparators_length (cs : List Char) : (skipSeparators cs).length ≤ cs.length := by
  induction cs with
  | nil => simp [skipSeparators]
  | cons c cs ih =>
    simp only [skipSeparators]
    split
    · simp only [List.length_cons]
      omega
    · split
      · simp only [List.length_cons]
        omega
      · simp

theorem quotedValue?_length {cs value rest : List Char}
    (h : quotedValue? cs = some (value, rest)) : rest.length ≤ cs.length := by
  cases cs with
  | nil => simp [quotedValue?] at h
  | cons q cs =>
    simp only [quotedValue?] at h
    split at h
    · split at h
      · rename_i hs
        have := congrArg List.length (Text.splitWhere?_append hs)
        simp only [Option.some.injEq, Prod.mk.injEq] at h
        simp only [List.length_append] at this
        rw [← h.2, List.length_drop, List.length_cons]
        omega
      · simp at h
    · simp at h

theorem assigned?_length {cs value rest : List Char} (h : assigned? cs = some (value, rest)) :
    rest.length ≤ cs.length := by
  simp only [assigned?] at h
  have h₁ := skipBlanks_length cs
  have h₂ := (List.dropWhile_sublist (l := Text.skipBlanks cs) (· == '=')).length_le
  have h₃ := skipBlanks_length ((Text.skipBlanks cs).dropWhile (· == '='))
  have hsplit := congrArg List.length
    (List.takeWhile_append_dropWhile (p := (· == '=')) (l := Text.skipBlanks cs))
  rw [List.length_append] at hsplit
  split at h
  · simp at h
  · rename_i hne
    have hpos : 0 < ((Text.skipBlanks cs).takeWhile (· == '=')).length := by
      cases hs : (Text.skipBlanks cs).takeWhile (· == '=') <;> simp_all
    split at h
    · rename_i hq
      simp only [Option.some.injEq] at h
      have := quotedValue?_length (h ▸ hq)
      omega
    · split at h
      · split at h
        · simp only [Option.some.injEq, Prod.mk.injEq] at h
          rw [← h.2, List.length_drop]
          omega
        · split at h
          · simp only [Option.some.injEq, Prod.mk.injEq, bareValue] at h
            have := (List.dropWhile_sublist
              (l := '=' :: (Text.skipBlanks cs).dropWhile (· == '=')) isBareValueChar).length_le
            rw [← h.2]
            simp only [List.length_cons] at this
            omega
          · simp at h
      · simp only [Option.some.injEq, Prod.mk.injEq, bareValue] at h
        have := (List.dropWhile_sublist
          (l := Text.skipBlanks ((Text.skipBlanks cs).dropWhile (· == '=')))
          isBareValueChar).length_le
        rw [← h.2]
        omega

/-- An attribute and its separators are taken from the front. -/
theorem attributeAt_length (c : Char) (cs : List Char) :
    (attributeAt c cs).2.length ≤ cs.length := by
  have h₁ := (List.dropWhile_sublist (l := cs) isAttributeChar).length_le
  simp only [attributeAt]
  split
  · rename_i h
    exact Nat.le_trans (assigned?_length h) h₁
  · exact h₁

/-! ## Whole tags -/

/-- The attributes at the front of a text that `before` precedes, and the text after them. -/
def attributes (before : Char) (cs : List Char) : List RawAttribute × List Char :=
  match cs with
  | [] => ([], [])
  | c :: cs =>
    if precedesAttribute before && startsAttribute c then
      let found := attributeAt c cs
      let (more, rest) := attributes (characterAfter found.1 found.2) (skipSeparators found.2)
      (found.1 :: more, rest)
    else ([], c :: cs)
termination_by cs.length
decreasing_by
  have h₁ := attributeAt_length c cs
  have h₂ := skipSeparators_length (attributeAt c cs).2
  simp only [List.length_cons]
  omega

/-- The text after the end of a tag, of which everything up to its closing bracket has been read.
There is none if the tag is cut off. -/
def afterTag? : List Char → Option (List Char)
  | [] => none
  | '>' :: rest => some rest
  | '/' :: '>' :: rest => some rest
  | c :: rest => if c.isAlpha || c == '=' || c == '/' then none else some (c :: rest)

inductive TagEnd where
  | plain
  | selfClosing
  | broken
deriving DecidableEq, Repr

structure StartTag where
  text : List Char
  name : List Char
  attributes : List (List Char × Option (List Char))
  ending : TagEnd
deriving Repr

def unquoted : List Char → List Char
  | [] => []
  | q :: cs => if isQuote q && cs.getLast? == some q then cs.dropLast else q :: cs

/-- An attribute with its name in lower case and its value decoded. -/
def readAttribute (a : RawAttribute) : Except Cause (List Char × Option (List Char)) := do
  return (Text.lower a.1, ← a.2.mapM fun value => decode (unquoted value))

/-- The start tag at the front of a text that begins with `<` and a letter, and the text after
it. There is none if the tag is cut off. The values of its attributes are decoded whether or not it
ends as a tag has to. -/
def startTag? (cs : List Char) : Except Cause (Option (StartTag × List Char)) :=
  match tagName? (cs.drop 1) with
  | none => .ok none
  | some (name, afterName) =>
    let last := lastOr '<' name
    let gap := afterName.takeWhile fun c => Text.isBlank c || c == '/'
    let (_, located) := attributes (lastOr last gap) (afterName.drop gap.length)
    match afterTag? (Text.skipBlanks located) with
    | none => .ok none
    | some rest => do
      let start := skipSeparators afterName
      let passed := afterName.take (afterName.length - start.length)
      let (raw, left) := attributes (lastOr last passed) start
      let attrs ← raw.mapM readAttribute
      let tail := Text.trim (left.take (left.length - rest.length))
      let ending : TagEnd :=
        if tail = ['>'] then .plain else if tail = ['/', '>'] then .selfClosing else .broken
      return some (⟨cs.take (cs.length - rest.length), Text.lower name, attrs, ending⟩, rest)

/-! ## Names as written -/

def startsWrittenName (c : Char) : Bool :=
  !(Text.isBlank c || c == '/' || c == '>' || isQuote c || c == '=')

def afterWrittenValue (cs : List Char) : List Char :=
  match Text.skipBlanks cs with
  | '=' :: rest =>
    let value := Text.skipBlanks rest
    match quotedValue? value with
    | some (_, rest) => rest
    | none => value.dropWhile fun c => !(Text.isBlank c || isQuote c || c == '>')
  | _ => cs

theorem afterWrittenValue_length (cs : List Char) :
    (afterWrittenValue cs).length ≤ cs.length := by
  simp only [afterWrittenValue]
  split
  · rename_i rest hrest
    have h₁ := skipBlanks_length cs
    have h₂ := skipBlanks_length rest
    rw [hrest, List.length_cons] at h₁
    split
    · rename_i hq
      have := quotedValue?_length hq
      omega
    · have := (List.dropWhile_sublist (l := Text.skipBlanks rest)
        fun c => !(Text.isBlank c || isQuote c || c == '>')).length_le
      omega
  · simp

/-- The names of the attributes in a text, in order and in the case in which they are written. -/
def writtenNames (cs : List Char) : List (List Char) :=
  match cs with
  | [] => []
  | c :: cs =>
    if startsWrittenName c then
      let name := c :: cs.takeWhile isAttributeChar
      name :: writtenNames (afterWrittenValue (cs.dropWhile isAttributeChar))
    else writtenNames cs
termination_by cs.length
decreasing_by
  · have h₁ := afterWrittenValue_length (cs.dropWhile isAttributeChar)
    have h₂ := (List.dropWhile_sublist (l := cs) isAttributeChar).length_le
    simp only [List.length_cons]
    omega
  · simp

def sourceNames (tag : List Char) : List (List Char) :=
  match tag with
  | '<' :: c :: cs =>
    if startsAttribute c then writtenNames (cs.dropWhile startsAttribute) else writtenNames tag
  | tag => writtenNames tag

end Stencil.Markup
