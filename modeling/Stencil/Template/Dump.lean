import Stencil.Template.Node

/-!
# Templates as plain values

The dumped form of a node is an object with its class and its parts. Parts that have nothing to
tell are left out: missing content, no attributes, no hooks, `self_closing` unless it holds, and a
literal attribute that is null.
-/

namespace Stencil

def Hook.dump : Hook → Value
  | .named ss => .object [("type", .text "MARKUP_AS"), ("segments", .list (ss.map .text))]
  | .onElement event e =>
    .object [("type", .text "ELEMENT_ON"), ("name", .text event), ("expression", e.dump)]
  | .onComponent event e =>
    .object [("type", .text "COMPONENT_ON"), ("name", .text event), ("expression", e.dump)]

namespace Node

def tagged (className : String) (fields : List (String × Value)) : Value :=
  .object (("type", .text className) :: fields)

def hooksField : Option (List Hook) → List (String × Value)
  | none => []
  | some hs => [("hooks", .list (hs.map Hook.dump))]

def attributesField : List (String × Value) → List (String × Value)
  | [] => []
  | fs => [("attributes", .object fs)]

mutual

def dump : Node → Value
  | .text data => tagged "TEXT" [("data", .text data)]
  | .value t => tagged "DYNAMIC_TEXT" [("expression", t.dump)]
  | .comment data => tagged "COMMENT" [("data", .text data)]
  | .doctype name publicId systemId =>
    tagged "DOCTYPE" (("name", .text name) :: Directive.optional "public_id" publicId ++
      Directive.optional "system_id" systemId)
  | .element tag attributes content selfClosing hooks =>
    tagged "ELEMENT" (("tag_name", .text tag) :: attributesField (dumpAttributes attributes) ++
      dumpContent "content" content ++ Directive.flag "self_closing" selfClosing ++
      hooksField hooks)
  | .conditional branches =>
    tagged "CONDITIONAL_BLOCK" [("expressions", .list (branches.map fun b => b.1.dump)),
      ("contents", .list (dumpBranches branches))]
  | .each d content otherwise =>
    tagged "EACH_BLOCK" (("expression", d.dump) :: ("content", .list (dumpNodes content)) ::
      dumpContent "else_content" otherwise)
  | .block d content =>
    tagged "BLOCK" [("expression", d.dump), ("content", .list (dumpNodes content))]
  | .view name attributes hooks =>
    tagged "VIEW_POINTER" (("name", .text name) :: dumpViewAttributes? attributes ++
      hooksField hooks)
  | .dynamicView name attributes hooks =>
    tagged "DYNAMIC_VIEW_POINTER" (("name_expression", dumpDynamic name) ::
      dumpViewAttributes? attributes ++ hooksField hooks)
termination_by structural n => n

def dumpNodes : List Node → List Value
  | [] => []
  | n :: ns => dump n :: dumpNodes ns
termination_by structural ns => ns

def dumpContent (key : String) : Option (List Node) → List (String × Value)
  | none => []
  | some ns => [(key, .list (dumpNodes ns))]
termination_by structural ns => ns

def dumpBranches : List (Directive × List Node) → List Value
  | [] => []
  | (_, ns) :: bs => .list (dumpNodes ns) :: dumpBranches bs
termination_by structural bs => bs

def dumpDynamic : Dynamic → Value
  | .term t => t.dump
  | .nodes ns => tagged "TEMPLATE" [("content", .list (dumpNodes ns))]
termination_by structural d => d

def dumpAttribute : Attribute → Value
  | .literal .null => tagged "ATTRIBUTE" []
  | .literal v => tagged "ATTRIBUTE" [("data", v)]
  | .dynamic d => tagged "DYNAMIC_ATTRIBUTE" [("template", dumpDynamic d)]
termination_by structural a => a

def dumpAttributes : List (String × Attribute) → List (String × Value)
  | [] => []
  | (k, a) :: as => (k, dumpAttribute a) :: dumpAttributes as
termination_by structural as => as

/-- A wrapped expression appears as a node and, beside it, as itself. -/
def dumpWrapped : Dynamic → Value
  | .term t =>
    tagged "PARENT_WRAPPER" [("template", tagged "DYNAMIC_TEXT" [("expression", t.dump)]),
      ("expression", t.dump)]
  | .nodes ns =>
    tagged "PARENT_WRAPPER" [("template", tagged "TEMPLATE" [("content", .list (dumpNodes ns))])]
termination_by structural d => d

def dumpViewAttribute : ViewAttribute → Value
  | .literal v => v
  | .wrapped d => dumpWrapped d
  | .array given entries => .list (given ++ dumpEntries entries)
termination_by structural a => a

def dumpViewAttributes : List (String × ViewAttribute) → List (String × Value)
  | [] => []
  | (k, a) :: as => (k, dumpViewAttribute a) :: dumpViewAttributes as
termination_by structural as => as

def dumpViewAttributes? : Option (List (String × ViewAttribute)) → List (String × Value)
  | none => []
  | some as => [("view_attributes", .object (dumpViewAttributes as))]
termination_by structural as => as

def dumpEntries : List (List (String × ViewAttribute)) → List Value
  | [] => []
  | as :: rest => .object (dumpViewAttributes as) :: dumpEntries rest
termination_by structural es => es

end

end Node

def Template.dump (t : Template) : Value :=
  Node.tagged "TEMPLATE" [("content", .list (Node.dumpNodes t.content))]

end Stencil
