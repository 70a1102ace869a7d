import Stencil.Error
import Stencil.Text.Blank
import Stencil.Text.Search
import Stencil.Template.Node
import Stencil.Value.Same

/-!
# Views

A view is a named template source. Its name may be qualified by namespaces, `app:card`, and
lookups from inside the view are relative to these. A view may stand for custom elements, and it
declares which child elements of its element are attributes or array items.
-/

namespace Stencil

/-- How a view is registered, apart from its name and source. Options are values of any kind: those
that say yes or no count by their truth, and names come as a list or as one text with blanks between
them. -/
structure ViewOptions where
  /-- Whether the source is plain text with directives, not markup. -/
  isText : Value
  /-- Whether the source is not to be minified; if it is null, the settings decide. -/
  unminified : Value
  elements : Value
  attributes : Value
  arrays : Value
deriving Repr

namespace ViewOptions

def default : ViewOptions :=
  ⟨.bool false, .null, .null, .null, .null⟩

/-- The names that a value gives: words of a text, items of a list, names of fields. What counts as
false gives none, and all else is no list of names. -/
def names (v : Value) : Except Cause (List Value) :=
  if !v.truthy then .ok []
  else match v with
    | .text s => .ok ((Text.words s.toList).map fun word => .text (String.ofList word))
    | .list vs => .ok vs
    | .object fs => .ok ((Entries.keys fs).map .text)
    | v => .error (.notList v)

def withOption (o : ViewOptions) (option : String × Value) : Except Cause ViewOptions :=
  match option with
  | ("string", v) => .ok { o with isText := v }
  | ("unminified", v) => .ok { o with unminified := v }
  | ("element", v) => .ok { o with elements := v }
  | ("attributes", v) => .ok { o with attributes := v }
  | ("arrays", v) => .ok { o with arrays := v }
  | (name, _) => .error (.unknownOption name)

def ofFields (fields : Entries Value) : Except Cause ViewOptions :=
  fields.foldlM withOption default

end ViewOptions

structure View where
  name : String
  source : String
  /-- Whether the source is plain text with directives, as it was given. -/
  textOption : Value
  /-- Whether the source is not to be minified, as it was given. -/
  unminifiedOption : Value
  /-- Tags that stand for the view. -/
  elements : List Value
  /-- Child elements that are attributes. -/
  attributes : List Value
  /-- Child elements that are array items, with the attribute they add to. -/
  arrays : Entries String
  /-- The tree of the source, once it has been parsed. -/
  template? : Option Template

namespace View

/-- The namespaces of a qualified name, outermost first. -/
def qualifiers (name : String) : List String :=
  ((Text.splitOn ':' name.toList).dropLast).map String.ofList

/-- The namespace from which a view looks up others. -/
def scope? (v : View) : Option String :=
  let text := Text.join ":" (qualifiers v.name)
  if text = "" then none else some text

def shown (v : View) : String :=
  "<View " ++ Text.quote v.name ++ ">"

/-- An array declaration, `tag/attribute`; the tag alone names the attribute too. -/
def arrayEntry (entry : String) : String × String :=
  let tag := entry.toList.takeWhile (· != '/')
  let target := entry.toList.drop (tag.length + 1)
  (String.ofList tag, String.ofList (if target.isEmpty then tag else target))

/-- Declares one more attribute, unless it is declared. Only a value that can be a key is one. -/
def declare (declared : List Value) (v : Value) : Except Cause (List Value) :=
  if !v.isKey then .error (.notKey v)
  else .ok (if declared.any (·.same v) then declared else declared ++ [v])

def arrayOf : Value → Except Cause (String × String)
  | .text entry => .ok (arrayEntry entry)
  | v => .error (.notText v)

/-- A view with the options as they are given; `minifies` is what the settings say. -/
def ofOptions (name source : String) (minifies : Bool) (o : ViewOptions) : Except Cause View := do
  let elements ← ViewOptions.names o.elements
  let attributes ← (← ViewOptions.names o.attributes).foldlM declare []
  let arrays ← (← ViewOptions.names o.arrays).mapM arrayOf
  return { name, source, elements, attributes
           textOption := o.isText
           unminifiedOption := match o.unminified with
             | .null => .bool !minifies
             | v => v
           arrays := Entries.ofPairs arrays
           template? := none }

def isText (v : View) : Bool :=
  v.textOption.truthy

def isUnminified (v : View) : Bool :=
  v.unminifiedOption.truthy

/-- Whether a child element of this tag is an attribute. -/
def hasAttribute (v : View) (tag : String) : Bool :=
  v.attributes.any (·.same (.text tag))

end View

/-- The registered views, by name and by the tags that stand for them. -/
structure Registry where
  views : Entries View
  elements : List (Value × View)

namespace Registry

def empty : Registry :=
  ⟨[], []⟩

/-- Lets a tag stand for a view: in its place if the tag is there, at the end otherwise. -/
def setElement (tag : Value) (v : View) : List (Value × View) → List (Value × View)
  | [] => [(tag, v)]
  | (t, w) :: es => if t.same tag then (t, v) :: es else (t, w) :: setElement tag v es

/-- The view that a tag stands for. -/
def element? (r : Registry) (tag : String) : Option View :=
  (r.elements.find? fun e => e.1.same (.text tag)).map Prod.snd

/-- Adds a view, in place of one of the same name. Its tags now stand for it, up to the first that
is no key. -/
def insert (r : Registry) (v : View) : Registry :=
  { views := Entries.set v.name v r.views
    elements := (v.elements.takeWhile Value.isKey).foldl (fun es tag => setElement tag v es)
      r.elements }

def segments : Option String → List String
  | none => []
  | some text => if text = "" then [] else (Text.splitOn ':' text.toList).map String.ofList

/-- The names under which a view is looked up from a namespace, in turn: qualified by all of the
namespace, by less and less of it, and at last not at all. -/
def candidates (segments : List String) (name : String) : List String :=
  (List.range (segments.length + 1)).reverse.map fun k =>
    Text.join ":" (segments.take k ++ [name])

/-- Finds a view by name, relative to a namespace. -/
def find? (r : Registry) (name : String) (at? : Option String) : Option View :=
  (candidates (segments at?) name).findSome? fun candidate => Entries.get? candidate r.views

def keepTemplate (r : Registry) (name : String) (t : Template) : Registry :=
  match Entries.get? name r.views with
  | some v => { r with views := Entries.set name { v with template? := some t } r.views }
  | none => r

end Registry

end Stencil
