import Stencil.Template.Hooks
import Stencil.Text.Case
import Stencil.View.Basic

/-!
# Elements that stand for views

How the attributes and children of such an element become attributes of the view. An `attribute`
child, or one that the view declares as an attribute, gives its content; an `array` child, or one
that the view declares as an array item, adds a set of attributes to an array. The other children
are the body, which becomes the attribute `content` unless there is one.
-/

namespace Stencil.ViewAttributes

def ofAttribute : Attribute → ViewAttribute
  | .literal v => .literal v
  | .dynamic d => .wrapped d

/-- The attributes of an element, under their names with capitals inside. -/
def ofAttributes (as : Attributes) : ViewAttributes :=
  Entries.ofPairs (as.map fun a => (Text.camel a.1, ofAttribute a.2))

def ofMembers (ms : Members) : ViewAttributes :=
  ms.exprs.map fun m => (m.1, match m.2 with
    | .literal v => .literal v
    | e => .wrapped (.term (.bare e)))

/-- Adds the body as `content`, if there is a body and no such attribute. -/
def withContent (body : List Node) (as : ViewAttributes) : ViewAttributes :=
  if body.isEmpty || Entries.has "content" as then as
  else Entries.set "content" (.wrapped (.nodes body)) as

/-- Adds a set of attributes to an array. A constant array is extended; any other value is not an
array. -/
def addEntry (name : String) (entry : ViewAttributes) (as : ViewAttributes) :
    Except Cause ViewAttributes :=
  match Entries.get? name as with
  | none => .ok (Entries.set name (.array [] [entry]) as)
  | some (.array given entries) => .ok (Entries.set name (.array given (entries ++ [entry])) as)
  | some (.literal (.list given)) => .ok (Entries.set name (.array given [entry]) as)
  | some _ => .error (.notArray name)

/-- The literal name that a child has to have, and its other attributes. -/
def childName (tag : String) (as : Attributes) : Except Cause (String × Attributes) :=
  match Entries.get? "name" as with
  | some (.literal (.text s)) =>
    if s = "" then .error (.unnamedChild tag) else .ok (s, Entries.erase "name" as)
  | _ => .error (.unnamedChild tag)

inductive ChildRole where
  | named (name : String) (content : List Node)
  | item (name : String) (attributes : Attributes) (content : List Node)
  | body

def childRole (v : View) : Node → Except Cause ChildRole
  | .element tag as content _ _ =>
    let nodes := content.getD []
    if tag = "attribute" then (childName tag as).map fun (name, _) => .named name nodes
    else if v.hasAttribute tag then .ok (.named tag nodes)
    else if tag = "array" then (childName tag as).map fun (name, rest) => .item name rest nodes
    else match Entries.get? tag v.arrays with
      | some name => .ok (.item name as nodes)
      | none => .ok .body
  | _ => .ok .body

/-- Splits the children of a view's element: the body, and the attributes with what the other
children add. -/
def split (v : View) (as : ViewAttributes) : List Node → Except Cause (List Node × ViewAttributes)
  | [] => .ok ([], as)
  | n :: ns => do
    match ← childRole v n with
    | .named name content => split v (Entries.set name (.wrapped (.nodes content)) as) ns
    | .item name own content =>
      let as ← addEntry name (withContent content (ofAttributes own)) as
      split v as ns
    | .body =>
      let (body, as) ← split v as ns
      .ok (n :: body, as)

def declared (as : ViewAttributes) : Except Cause (Option (List Hook) × ViewAttributes) :=
  Hook.declared ViewAttribute.literal? .onComponent as

def pointer (v : View) (as : Attributes) (content : List Node) : Except Cause Node := do
  let (hooks, own) ← declared (ofAttributes as)
  let (body, all) ← split v own content
  .ok (.view v.name (some (withContent body all)) hooks)

/-- The pointer that an element with a computed view name becomes. -/
def dynamicPointer (name : Dynamic) (as : Attributes) (content : List Node) :
    Except Cause Node := do
  let (hooks, own) ← declared (ofAttributes as)
  .ok (.dynamicView name (some (withContent content own)) hooks)

end Stencil.ViewAttributes
