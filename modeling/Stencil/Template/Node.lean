import Stencil.Directive.Basic

/-!
# Template trees

The nodes that a template is made of. A conditional pairs every branch with the directive that
opened it. Attributes of elements are constants or dynamic; attributes of views may also be arrays
of attribute sets, possibly after constant items that were given on the element itself.
-/

namespace Stencil

inductive Hook where
  /-- A name under which the element is known. -/
  | named (segments : List String)
  /-- A reaction to an event of an element. -/
  | onElement (event : String) (e : Expr)
  /-- A reaction to an event of a view. -/
  | onComponent (event : String) (e : Expr)
deriving Repr

mutual

inductive Node where
  | text (data : String)
  /-- A value shown as text. -/
  | value (t : Term)
  | comment (data : String)
  | doctype (name : String) (publicId systemId : Option String)
  /-- An element; void and self-closing elements have no content. -/
  | element (tag : String) (attributes : List (String × Attribute)) (content : Option (List Node))
      (selfClosing : Bool) (hooks : Option (List Hook))
  /-- The branches of a condition, in order. -/
  | conditional (branches : List (Directive × List Node))
  | each (d : Directive) (content : List Node) (otherwise : Option (List Node))
  /-- A block that changes the scope or the binding of what is inside. -/
  | block (d : Directive) (content : List Node)
  /-- A view that was found while the template was read. -/
  | view (name : String) (attributes : Option (List (String × ViewAttribute)))
      (hooks : Option (List Hook))
  /-- A view whose name is computed. -/
  | dynamicView (name : Dynamic) (attributes : Option (List (String × ViewAttribute)))
      (hooks : Option (List Hook))

/-- An expression or a small template. -/
inductive Dynamic where
  | term (t : Term)
  | nodes (content : List Node)

inductive Attribute where
  | literal (v : Value)
  | dynamic (d : Dynamic)

inductive ViewAttribute where
  | literal (v : Value)
  /-- Evaluated in the scope in which the view stands. -/
  | wrapped (d : Dynamic)
  /-- Constant items, and then one set of attributes for each array child. -/
  | array (given : List Value) (entries : List (List (String × ViewAttribute)))

end

instance : Inhabited Node := ⟨.text ""⟩

abbrev Attributes := Entries Attribute
abbrev ViewAttributes := Entries ViewAttribute

structure Template where
  content : List Node

namespace Node

def isElement (tag : String) : Node → Bool
  | .element t _ _ _ _ => t == tag
  | _ => false

def opening? : Node → Option Directive
  | .conditional ((d, _) :: _) => some d
  | .each d _ _ => some d
  | .block d _ => some d
  | _ => none

def className : Node → String
  | .text _ => "TEXT"
  | .value _ => "DYNAMIC_TEXT"
  | .comment _ => "COMMENT"
  | .doctype _ _ _ => "DOCTYPE"
  | .element _ _ _ _ _ => "ELEMENT"
  | .conditional _ => "CONDITIONAL_BLOCK"
  | .each _ _ _ => "EACH_BLOCK"
  | .block _ _ => "BLOCK"
  | .view _ _ _ => "VIEW_POINTER"
  | .dynamicView _ _ _ => "DYNAMIC_VIEW_POINTER"

/-- The hooks of a node that can have some. Such a node may also have none, which is not the same
as an empty list of them. -/
def hooks? : Node → Option (Option (List Hook))
  | .element _ _ _ _ hs | .view _ _ hs | .dynamicView _ _ hs => some hs
  | _ => none

end Node

end Stencil
