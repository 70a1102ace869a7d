import Stencil.Markup.Escape
import Stencil.Markup.Event
import Stencil.Markup.Item

/-!
# Reading markup

`Markup.read` turns a source into events. Directives are escaped first, so that one that holds a
less-than sign arrives in one piece. Neighbouring runs of text are one event. Attribute names keep
the case in which they are written, and no two of one tag may agree up to case.
-/

namespace Stencil.Markup

/-- Pairs names with values; fails at the first name that repeats an earlier one up to case. -/
def namedAttributes (tag : String) (seen : List (List Char)) :
    List (List Char × List Char × Option (List Char)) → Except Cause (List (String × Option String))
  | [] => .ok []
  | (name, lowered, value) :: rest =>
    if seen.contains lowered then .error (.duplicateAttribute (String.ofList name) tag)
    else (namedAttributes tag (lowered :: seen) rest).map
      ((String.ofList name, value.map String.ofList) :: ·)

/-- The event of a start tag. The names are taken from its text if they agree with those read. -/
def startEvent (tag : StartTag) : Except Cause Event :=
  let read := tag.attributes.map Prod.fst
  let written := sourceNames tag.text
  let names := if written.map Text.lower = read then written else read
  let name := String.ofList tag.name
  (namedAttributes name [] (names.zip tag.attributes)).map fun attributes =>
    .start (String.ofList tag.text) name attributes (tag.ending == .selfClosing)

def itemEvents : Item → Except Cause (List Event)
  | .data _ => .ok []
  | .start tag => (startEvent tag).map fun e => [e]
  | .stop name =>
    let name := String.ofList name
    .ok (if isVoid name then [] else [.stop ("</" ++ name ++ ">") name])
  | .comment cs =>
    let data := String.ofList cs
    .ok [.comment ("<!--" ++ data ++ "-->") data]
  | .declaration tag => .ok [.other (String.ofList tag)]

def flush : Option (List Char) → List Event
  | some cs => [.text (String.ofList cs)]
  | none => []

/-- Merges text and makes events. Text before a failed reading is not reported. -/
def eventsFrom (failure? : Option Cause) (pending : Option (List Char)) : List Item → Events
  | [] =>
    match failure? with
    | some cause => ⟨[], some (.of cause)⟩
    | none => ⟨flush pending, none⟩
  | .data cs :: items => eventsFrom failure? (some (pending.getD [] ++ cs)) items
  | item :: items =>
    match itemEvents item with
    | .error cause => ⟨flush pending, some (.of cause)⟩
    | .ok es =>
      let later := eventsFrom failure? none items
      { later with events := flush pending ++ es ++ later.events }

def read (source : String) : Events :=
  let (items, failure?) := items (escape source).toList
  eventsFrom failure? none items

end Stencil.Markup
