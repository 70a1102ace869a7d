import Stencil.Error
import Stencil.Markup.Raw
import Stencil.Markup.Tag

/-!
# Items of markup

The pieces into which markup falls: runs of text with their references decoded, tags, comments,
declarations. The text is read twice. The first reading stops before a piece that might be cut
off; the second takes what is left and reads such a piece as text. Inside `script` and `style`
everything up to the end tag is text as it stands.
-/

namespace Stencil.Markup

inductive Item where
  | data (cs : List Char)
  | start (tag : StartTag)
  | stop (name : List Char)
  | comment (cs : List Char)
  | declaration (tag : List Char)
deriving Repr

inductive Found where
  /-- An item, the text after it, and the element whose raw text starts there. -/
  | item (i : Option Item) (rest : List Char) (raw : Option (List Char))
  /-- A piece that the end of the text cuts off. -/
  | cut
  /-- A less-than sign on its own. -/
  | sign
  | bad (cause : Cause)

def upToBracket? (cs : List Char) : Option (List Char × List Char) :=
  (Text.splitAtFirst? ['>'] cs).map fun (before, rest) => (before, rest.drop 1)

/-- Reads up to the closing bracket; without one the piece is cut off. -/
def bracketed (f : List Char → Item) (cs : List Char) : Found :=
  match upToBracket? cs with
  | some (inside, rest) => .item (some (f inside)) rest none
  | none => .cut

/-- The text before the first position at which `after?` accepts, and the text after it. -/
def upTo? (after? : List Char → Option (List Char)) : List Char → Option (List Char × List Char)
  | [] => (after? []).map fun rest => ([], rest)
  | c :: cs =>
    match after? (c :: cs) with
    | some rest => some ([], rest)
    | none => (upTo? after? cs).map fun (before, rest) => (c :: before, rest)

def commentEnd? : List Char → Option (List Char)
  | '-' :: '-' :: cs => tagEnd? cs
  | _ => none

def conditionEnd? : List Char → Option (List Char)
  | ']' :: cs => tagEnd? cs
  | _ => none

def sectionEnd? : List Char → Option (List Char)
  | ']' :: cs =>
    match Text.skipBlanks cs with
    | ']' :: cs => tagEnd? cs
    | _ => none
  | _ => none

def isSectionNameChar (c : Char) : Bool :=
  c.isAlphanum || c == '-' || c == '_' || c == '.'

/-- A marked section, from its less-than sign; `inside` is the text after `<![`. -/
def markedSection (cs inside : List Char) : Found :=
  match inside with
  | [] => .cut
  | c :: more =>
    if !c.isAlpha then .bad (.sectionName (String.ofList (cs.take 20)))
    else
      let name := c :: more.takeWhile isSectionNameChar
      let rest := Text.skipBlanks (more.dropWhile isSectionNameChar)
      let word := String.ofList (Text.lower name)
      let close? :=
        if ["temp", "cdata", "ignore", "include", "rcdata"].contains word then some sectionEnd?
        else if ["if", "else", "endif"].contains word then some conditionEnd?
        else none
      if rest.isEmpty then .cut
      else match close? with
        | none => .bad (.sectionKeyword (String.ofList (inside.take (inside.length - rest.length))))
        | some after? =>
          match upTo? after? inside with
          | none => .cut
          | some (data, rest) =>
            .item (some (.declaration ('<' :: '!' :: '[' :: data ++ [']', '>']))) rest none

def isEndNameChar (c : Char) : Bool :=
  c.isAlphanum || c == '-' || c == '.' || c == ':' || c == '_'

/-- A plain end tag: its name in lower case. -/
def plainEndTag? (inside : List Char) : Option (List Char) :=
  match Text.skipBlanks inside with
  | c :: cs =>
    if c.isAlpha && (Text.skipBlanks (cs.dropWhile isEndNameChar)).head? == some '>' then
      some (Text.lower (c :: cs.takeWhile isEndNameChar))
    else none
  | [] => none

/-- An end tag, from its less-than sign; `inside` is the text after `</`. In raw text only the end
tag of the element that is open counts. -/
def endTag (raw : Option (List Char)) (cs inside : List Char) : Found :=
  match upToBracket? inside with
  | none => .cut
  | some (_, rest) =>
    let whole := Item.data (cs.take (cs.length - rest.length))
    match plainEndTag? inside, raw with
    | some name, none => .item (some (.stop name)) rest none
    | some name, some open_ =>
      if name = open_ then .item (some (.stop name)) rest none
      else .item (some whole) rest (some open_)
    | none, some open_ => .item (some whole) rest (some open_)
    | none, none =>
      match tagName? inside with
      | some (name, _) => .item (some (.stop (Text.lower name))) rest none
      | none =>
        if inside.head? = some '>' then .item none rest none
        else bracketed .comment inside

def openTag (cs : List Char) : Found :=
  match startTag? cs with
  | .error cause => .bad cause
  | .ok none => .cut
  | .ok (some (tag, rest)) =>
    match tag.ending with
    | .broken => .item (some (.data tag.text)) rest none
    | .selfClosing => .item (some (.start tag)) rest none
    | .plain =>
      let raw := tag.name = "script".toList ∨ tag.name = "style".toList
      .item (some (.start tag)) rest (if raw then some tag.name else none)

def declaration (inside : List Char) : Found :=
  if (inside.take 7).map Char.toLower = "doctype".toList then
    match upToBracket? (inside.drop 7) with
    | some (_, rest) =>
      let text := inside.take (inside.length - rest.length)
      .item (some (.declaration ('<' :: '!' :: text))) rest none
    | none => .cut
  else bracketed .comment inside

/-- What stands at a less-than sign, outside raw text. -/
def found (cs : List Char) : Found :=
  match cs with
  | '<' :: '/' :: inside => endTag none cs inside
  | '<' :: '!' :: '-' :: '-' :: inside =>
    match upTo? commentEnd? inside with
    | some (data, rest) => .item (some (.comment data)) rest none
    | none => .cut
  | '<' :: '?' :: inside =>
    bracketed (fun data => .declaration ('<' :: '?' :: data ++ ['>'])) inside
  | '<' :: '!' :: '[' :: inside => markedSection cs inside
  | '<' :: '!' :: inside => declaration inside
  | '<' :: c :: _ => if c.isAlpha then openTag cs else .sign
  | _ => .sign

/-- Whether a text without tags might end inside a reference: an ampersand among its last 34
characters has neither a blank nor a semicolon after it. -/
def mightContinue (cs : List Char) : Bool :=
  let back := (cs.drop (cs.length - 34)).reverse
  back.contains '&' && !(back.takeWhile (· != '&')).any fun c => Text.isBlank c || c == ';'

/-- A blank end tag of the raw element, for the end of its text. -/
def rawEnd? (name : List Char) : List Char → Option (List Char)
  | '<' :: '/' :: cs => ((spelled? name (Text.skipBlanks cs)).map Prod.snd).bind tagEnd?
  | _ => none

def rawItems (cs : List Char) : List Item :=
  if cs.isEmpty then [] else [.data cs]

/-- A run of text with its references decoded. -/
def textItems (cs : List Char) : Except Cause (List Item) :=
  (decode cs).map fun text => if cs.isEmpty then [] else [.data text]

/-- A cut-off piece read as text: up to the next closing bracket, or to the next less-than sign,
or the sign alone. -/
def cutText (cs : List Char) : List Char :=
  match upToBracket? (cs.drop 1) with
  | some (_, rest) => cs.take (cs.length - rest.length)
  | none =>
    match Text.splitAtFirst? ['<'] (cs.drop 1) with
    | some (before, _) => cs.take (1 + before.length)
    | none => cs.take 1

inductive Move where
  /-- The items read, the number of characters they took, and the raw element that is open. -/
  | onward (items : List Item) (count : Nat) (raw : Option (List Char))
  /-- The reading waits before the rest. -/
  | wait (items : List Item) (rest : List Char)
  | fail (items : List Item) (cause : Cause)

/-- Takes what was found at `rest`, a tail of `cs`, after the items in front of it. -/
def moveOver (final : Bool) (before : List Item) (cs rest : List Char) : Found → Move
  | .item i rest raw => .onward (before ++ i.toList) (cs.length - rest.length) raw
  | .bad cause => .fail before cause
  | .sign =>
    if 1 < rest.length then .onward (before ++ [.data ['<']]) (cs.length - rest.length + 1) none
    else .wait before rest
  | .cut =>
    if final then
      let text := cutText rest
      match textItems text with
      | .ok items => .onward (before ++ items) (cs.length - rest.length + text.length) none
      | .error cause => .fail before cause
    else .wait before rest

def move (final : Bool) (raw : Option (List Char)) (cs : List Char) : Move :=
  match raw with
  | some name =>
    match Text.splitWhere? (fun cs => (rawEnd? name cs).isSome) cs with
    | none => .wait [] cs
    | some (before, rest) =>
      moveOver final (rawItems before) cs rest (endTag (some name) rest (rest.drop 2))
  | none =>
    match Text.splitAtFirst? ['<'] cs with
    | none =>
      if mightContinue cs then .wait [] cs
      else match textItems cs with
        | .ok items => .onward items cs.length none
        | .error cause => .fail [] cause
    | some (before, rest) =>
      match textItems before with
      | .ok items => moveOver final items cs rest (found rest)
      | .error cause => .fail [] cause

/-- What one reading gives: its items, what it left, the raw element still open, and why it
failed if it did. -/
structure Reading where
  items : List Item
  rest : List Char
  raw : Option (List Char)
  failure? : Option Cause

def Reading.prepend (items : List Item) (r : Reading) : Reading :=
  { r with items := items ++ r.items }

def readingFrom (final : Bool) (raw : Option (List Char)) (cs : List Char) : Reading :=
  match cs with
  | [] => ⟨[], [], raw, none⟩
  | c :: cs =>
    match move final raw (c :: cs) with
    | .wait items rest => ⟨items, rest, raw, none⟩
    | .fail items cause => ⟨items, [], raw, some cause⟩
    | .onward items count raw =>
      (readingFrom final raw (cs.drop (count - 1))).prepend items
termination_by cs.length
decreasing_by simp only [List.length_drop, List.length_cons]; omega

/-- What a second reading leaves, read as text. What is left of raw text is lost. -/
def leftItems (r : Reading) : Except Cause (List Item) :=
  match r.failure? with
  | some cause => .error cause
  | none => if r.raw.isNone then textItems r.rest else .ok []

def items (cs : List Char) : List Item × Option Cause :=
  let first := readingFrom false none cs
  match first.failure? with
  | some cause => (first.items, some cause)
  | none =>
    let second := readingFrom true first.raw first.rest
    match leftItems second with
    | .ok left => (first.items ++ second.items ++ left, none)
    | .error cause => (first.items ++ second.items, some cause)

end Stencil.Markup
