import Stencil.Log.Level
import Stencil.Markup.Declaration
import Stencil.Markup.Reading
import Stencil.Observer
import Stencil.Span
import Stencil.Template.Frame
import Stencil.Template.ViewElement

/-!
# Building a template

A builder takes markup events and spans of text, one at a time, and grows the tree on its stack.
A step that fails leaves the stack as the failure found it, so a builder can go on afterwards.
`Build.finish` gives the finished template; if nodes are still open it fails or closes them,
depending on the scene.
-/

namespace Stencil

/-- Where a template is read: the view it belongs to, the views it can refer to, whether open nodes
at its end are an error, and how observers react to its elements. -/
structure Scene where
  view? : Option View
  registry : Registry
  strict : Bool
  react : Reactions

namespace Scene

def name (s : Scene) : String :=
  match s.view? with
  | some v => if v.name = "" then "<template>" else v.name
  | none => "<template>"

def elementView? (s : Scene) (tag : String) : Option View :=
  s.view?.bind fun _ => s.registry.element? tag

/-- The view of a name, as seen from the view of the template. -/
def find? (s : Scene) (name : String) : Option View :=
  s.view?.bind fun v => s.registry.find? name v.scope?

/-- Whether an element of this tag becomes a view pointer. -/
def isViewTag (s : Scene) (tag : String) : Bool :=
  tag == "view" || (s.elementView? tag).isSome

end Scene

structure Builder where
  stack : Stack
  observers : Observers
  /-- What the named observers were shown, oldest first. -/
  marks : List Mark
  /-- Notices for the log, oldest first. -/
  notices : List Log.Notice

def Builder.start (observers : Observers) : Builder :=
  ⟨.empty, observers, [], []⟩

/-- Steps of a builder; a failure keeps the state. -/
abbrev Build := ExceptT Error (StateM Builder)

namespace Build

def fail {α : Type} (cause : Cause) : Build α :=
  throw (.of cause)

def check {α : Type} : Except Cause α → Build α
  | .ok a => pure a
  | .error cause => fail cause

def stack : Build Stack :=
  return (← get).stack

def onStack (f : Stack → Stack) : Build Unit :=
  modify fun b => { b with stack := f b.stack }

def notice (level : Log.Level) (message : String) (context : Entries Value) : Build Unit :=
  modify fun b => { b with notices := b.notices ++ [⟨Log.parserLog, level, message, context⟩] }

def append (n : Node) : Build Unit :=
  onStack (·.push n)

def ascend (otherwise : Cause) : Build Unit := do
  match (← stack).closed? with
  | some s => onStack fun _ => s
  | none => fail otherwise

/-! ## Views -/

def findView (scene : Scene) (name : String) : Build View := do
  match scene.find? name with
  | some v => return v
  | none =>
    notice .warning "View not found" [("view", .text name), ("template", .text scene.name)]
    fail (.unknownView name)

def viewElement (scene : Scene) (attributes : Attributes) (content : List Node) : Build Unit := do
  let rest := Entries.erase "name" attributes
  match Entries.get? "name" attributes with
  | some (.dynamic d) => append (← check (ViewAttributes.dynamicPointer d rest content))
  | some (.literal (.text name)) =>
    if name = "" then fail .unnamedView
    else
      let v ← findView scene name
      append (← check (ViewAttributes.pointer v rest content))
  | _ => fail .unnamedView

/-- The name and the attributes that a view directive gives. -/
def viewParts (d : Directive) : Term × Option Expr :=
  match d.expr? with
  | some (.sequence (name :: rest)) => (.bare name, rest.head?)
  | _ => (.marked d, none)

/-- Adds the pointer that a view directive stands for. -/
def viewDirective (scene : Scene) (d : Directive) : Build Unit := do
  let (name, object) := viewParts d
  let given ← match object with
    | none => pure none
    | some e => do pure (some (ViewAttributes.ofMembers (← check (Members.ofExpr e))))
  let (hooks, attributes) ← match given with
    | none => pure (none, none)
    | some as =>
      let (hooks, rest) ← check (ViewAttributes.declared as)
      pure (hooks, some rest)
  match name.expr?.bind Expr.literal? with
  | some (.text s) =>
    let v ← findView scene s
    append (.view v.name attributes hooks)
  | some _ => fail (.badViewName d.source)
  | none => append (.dynamicView (.term name) attributes hooks)

/-! ## Observers -/

def setHooks (hooks : Option (List Hook)) : Build Unit :=
  onStack fun s => match s.top with
    | .element tag as content sc _ :: rest => s.setTop (.element tag as content sc hooks :: rest)
    | _ => s

def settle (mark : Mark) (r : Reaction) : Build Unit := do
  modify fun b => { b with marks := b.marks ++ [mark], observers := r.observers }
  setHooks r.hooks
  match r.failure? with
  | some e => throw e
  | none => pure ()

def runObserver (scene : Scene) (o : Observer) : Build Unit := do
  match (← stack).newest? with
  | some (.element tag attributes content selfClosing hooks) =>
    match o with
    | .preventSubmit => setHooks (Hook.preventSubmit hooks)
    | .named name =>
      let mark : Mark := ⟨name, tag, attributes, content, selfClosing, hooks⟩
      let b ← get
      settle mark (scene.react mark b.marks b.observers)
  | _ => pure ()

/-- Runs every observer of an event: those registered when the first one runs. -/
def emit (event : String) (act : Observer → Build Unit) : Build Unit := do
  ((← get).observers.handlers event).forM fun r => act r.observer

/-- Shows the newest element to its observers. -/
def observe (scene : Scene) (tag : String) : Build Unit :=
  emit ("element:" ++ tag) (runObserver scene)

def closeElement (scene : Scene) (tag : String) : Build Unit := do
  match (← stack).newest? with
  | some (.element _ attributes content _ _) =>
    if tag = "view" then
      onStack Stack.dropNewest
      viewElement scene attributes (content.getD [])
    else match scene.elementView? tag with
      | some v =>
        onStack Stack.dropNewest
        append (← check (ViewAttributes.pointer v attributes (content.getD [])))
      | none => observe scene tag
  | _ => pure ()

/-! ## Directives and text -/

/-- Closes a block, which has to have been opened by the word. -/
def closeBlock (d : Directive) (word : String) : Build Unit := do
  ascend (.strayBlockEnd d.source)
  let opened := ((← stack).newest?.bind Node.opening?).bind (·.role.blockWord?)
  if !(opened.isSome && (word = "end" || opened = some word)) then fail (.wrongBlockEnd d.source)

def continueBlock (d : Directive) : Build Unit := do
  ascend (.strayBlockEnd d.source)
  match (← stack).newest?, d.role with
  | some (.conditional branches), _ =>
    onStack fun s => s.dropNewest.opened (.conditional branches d)
  | some (.each first body none), .otherwise =>
    onStack fun s => s.dropNewest.opened (.eachElse first body)
  | _, _ =>
    onStack (·.opened .detached)
    fail (.badContinuation d.source)

def openerOf (word : BlockWord) (d : Directive) : Opener :=
  match word with
  | .condition | .negation => .conditional [] d
  | .each => .each d
  | .scope | .unbound | .bound => .block d

def directive (scene : Scene) (d : Directive) : Build Unit :=
  match d.role with
  | .closes word => closeBlock d word
  | .otherwise | .elseIf _ => continueBlock d
  | .opens word _ => onStack (·.opened (openerOf word d))
  | .shows _ => if d.role.isView then viewDirective scene d else append (.value (.marked d))

def span (scene : Scene) : Span → Build Unit
  | .literal s => append (.text s)
  | .directive d => directive scene d

/-- Takes the spans of a text, and then its failure. -/
def text (scene : Scene) (data : String) : Build Unit := do
  let scan := Span.scan data
  scan.spans.forM (span scene)
  match scan.failure? with
  | some e => throw e
  | none => pure ()

/-! ## Attributes -/

/-- The attribute that the content of its value makes. -/
def ofContent (name value : String) : List Node → Except Cause Attribute
  | [] => .error (.emptyAttribute name value)
  | [.text s] => .ok (.literal (.text s))
  | [.value t] =>
    match t.expr?.bind Expr.literal? with
    | some v => .ok (.literal v)
    | none => .ok (.dynamic (.term t))
  | ns => .ok (.dynamic (.nodes ns))

/-- Whether the innermost frame is the detached one at this depth. -/
def isInside (depth : Nat) (s : Stack) : Bool :=
  s.depth == depth && match s.frames with
    | ⟨.detached, _⟩ :: _ => true
    | _ => false

/-- Reads the value of an attribute in a frame of its own, which has to be the innermost one
again at the end. -/
def attributeOf (scene : Scene) (name : String) (value : Value) : Build Attribute := do
  match value with
  | .text s =>
    if s = "" then return .literal value
    else
      onStack (·.opened .detached)
      let depth := (← stack).depth
      text scene s
      let after ← stack
      if isInside depth after then
        let a ← check (ofContent name s after.top.reverse)
        onStack fun st => { st with frames := st.frames.drop 1 }
        return a
      else fail (.unbalancedAttribute name s)
  | v => return .literal v

def attributesOf (scene : Scene) (given : List (String × Value)) : Build Attributes :=
  given.foldlM (fun as a => return Entries.set a.1 (← attributeOf scene a.1 a.2) as) []

/-! ## Events -/

/-- The hooks that an element declares. The hooks of a view are declared when it is closed. -/
def elementHooks (scene : Scene) (tag : String) (as : Attributes) :
    Except Cause (Option (List Hook) × Attributes) :=
  if scene.isViewTag tag then .ok (none, as) else Hook.declared Attribute.literal? .onElement as

def startElement (scene : Scene) (tag : String) (given : List (String × Value))
    (selfClosing : Bool) : Build Unit := do
  let as ← attributesOf scene given
  let (hooks, attributes) ← check (elementHooks scene tag as)
  if selfClosing || Markup.isVoid tag then
    append (.element tag attributes none selfClosing hooks)
    closeElement scene tag
  else onStack (·.opened (.element tag attributes hooks))

def endElement (scene : Scene) (text tag : String) : Build Unit := do
  ascend (.strayEndTag text)
  match (← stack).newest? with
  | some n => if n.isElement tag then closeElement scene tag else fail (.wrongEndTag text)
  | none => fail (.wrongEndTag text)

def comment (tag data : String) : Build Unit :=
  if Markup.isConditionalComment tag then append (.comment data) else pure ()

def declaration (tag : String) : Build Unit :=
  match Markup.documentType? tag with
  | some t => append (.doctype t.name t.publicId t.systemId)
  | none => fail (.badDeclaration tag)

def event (scene : Scene) : Markup.Event → Build Unit
  | .start _ name attributes selfClosing =>
    startElement scene name (attributes.map fun a => (a.1, Markup.attributeValue a.2)) selfClosing
  | .stop tag name => endElement scene tag name
  | .text data => text scene data
  | .comment tag data => comment tag data
  | .other tag => declaration tag

/-- Takes the events of a source, and then its failure. -/
def events (scene : Scene) (es : Markup.Events) : Build Unit := do
  es.events.forM (event scene)
  match es.failure? with
  | some e => throw e
  | none => pure ()

/-! ## Whole templates -/

def finish (scene : Scene) : Build Template := do
  let s ← stack
  if s.depth ≠ 0 then
    if scene.strict then fail (.unclosed s.describe)
    else onStack Stack.flattened
  let content := (← stack).nodes
  notice .debug "Parsed template"
    [("template", .text scene.name), ("nodes", .int content.length)]
  return ⟨content⟩

def begin (scene : Scene) (mode : String) : Build Unit :=
  notice .debug "Parsing template" [("template", .text scene.name), ("mode", .text mode)]

def markup (scene : Scene) (source : String) : Build Template := do
  begin scene "html"
  events scene (Markup.read source)
  finish scene

def plain (scene : Scene) (source : String) : Build Template := do
  begin scene "string"
  text scene source
  finish scene

end Build

def Builder.run {α : Type} (b : Builder) (step : Build α) : Except Error α × Builder :=
  StateT.run (ExceptT.run step) b

end Stencil
