import Stencil.Error

/-!
# Events of markup

What a reader of markup reports, in source order: start tags with their attributes, end tags,
text, comments and declarations. An attribute without a value carries none.
-/

namespace Stencil.Markup

inductive Event where
  | start (tag name : String) (attributes : List (String × Option String)) (selfClosing : Bool)
  | stop (tag name : String)
  | text (data : String)
  | comment (tag data : String)
  | other (tag : String)
deriving DecidableEq, Repr

/-- Elements that have no content and no end tag. -/
def voidElements : List String :=
  ["area", "base", "br", "col", "embed", "hr", "img", "input", "keygen", "link", "meta", "param",
   "source", "track", "wbr"]

def isVoid (name : String) : Bool :=
  voidElements.contains name

def attributeValue : Option String → Value
  | some s => .text s
  | none => .bool true

def Event.dump : Event → Value
  | .start tag name attributes selfClosing =>
    .list [.text "start", .text tag, .text name,
      .list (attributes.map fun a => .list [.text a.1, attributeValue a.2]), .bool selfClosing]
  | .stop tag name => .list [.text "end", .text tag, .text name]
  | .text data => .list [.text "text", .text data]
  | .comment tag data => .list [.text "comment", .text tag, .text data]
  | .other tag => .list [.text "other", .text tag]

/-- The events of a text up to its end or to the failure that stopped the reading. -/
structure Events where
  events : List Event
  failure? : Option Error
deriving Repr

end Stencil.Markup
