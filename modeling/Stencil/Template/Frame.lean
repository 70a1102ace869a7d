import Stencil.Template.Node

/-!
# Open nodes

While a template is read, the nodes that are still open form a stack of frames, innermost first.
A frame holds the content read so far, newest node first, and what opened it. Closing a frame
makes a node of it; a detached frame holds the content of an attribute value, or what follows a
continuation that did not fit, and closing it leaves nothing.
-/

namespace Stencil

inductive Opener where
  | element (tag : String) (attributes : Attributes) (hooks : Option (List Hook))
  /-- The last branch of a condition; the earlier ones are complete. -/
  | conditional (earlier : List (Directive × List Node)) (d : Directive)
  | each (d : Directive)
  /-- The last branch of a loop. -/
  | eachElse (d : Directive) (body : List Node)
  | block (d : Directive)
  | detached

structure Frame where
  opener : Opener
  /-- The content so far, newest first. -/
  content : List Node

namespace Opener

/-- The node that a frame becomes with this content. -/
def close (content : List Node) : Opener → Option Node
  | .element tag attributes hooks => some (.element tag attributes (some content) false hooks)
  | .conditional earlier d => some (.conditional (earlier ++ [(d, content)]))
  | .each d => some (.each d content none)
  | .eachElse d body => some (.each d body (some content))
  | .block d => some (.block d content)
  | .detached => none

/-- The directive with which an open block began. -/
def opening? : Opener → Option Directive
  | .conditional ((d, _) :: _) _ => some d
  | .conditional [] d => some d
  | .each d | .eachElse d _ | .block d => some d
  | .element _ _ _ | .detached => none

end Opener

/-- The open frames, innermost first, over the content of the template itself, newest first. -/
structure Stack where
  frames : List Frame
  root : List Node

namespace Stack

def empty : Stack :=
  ⟨[], []⟩

def depth (s : Stack) : Nat :=
  s.frames.length

/-- The content of the innermost frame, newest first. -/
def top (s : Stack) : List Node :=
  match s.frames with
  | [] => s.root
  | f :: _ => f.content

def setTop (content : List Node) (s : Stack) : Stack :=
  match s.frames with
  | [] => { s with root := content }
  | f :: fs => { s with frames := { f with content } :: fs }

def newest? (s : Stack) : Option Node :=
  s.top.head?

def push (n : Node) (s : Stack) : Stack :=
  s.setTop (n :: s.top)

def dropNewest (s : Stack) : Stack :=
  s.setTop (s.top.drop 1)

def opened (o : Opener) (s : Stack) : Stack :=
  { s with frames := ⟨o, []⟩ :: s.frames }

/-- Closes the innermost frame; there may be none. -/
def closed? (s : Stack) : Option Stack :=
  match s.frames with
  | [] => none
  | f :: fs =>
    let below : Stack := { s with frames := fs }
    some (match f.opener.close f.content.reverse with
      | some n => below.push n
      | none => below)

/-- Closes all frames: `content` is that of the innermost, and the result that of the template,
both newest first. -/
def closeAll (root : List Node) : List Frame → List Node → List Node
  | [], content => content ++ root
  | f :: fs, content =>
    let content := match f.opener.close (content ++ f.content).reverse with
      | some n => [n]
      | none => []
    closeAll root fs content

/-- The content of the template with all open nodes in place, in source order. -/
def nodes (s : Stack) : List Node :=
  (closeAll s.root s.frames []).reverse

/-- Closes everything that is open. -/
def flattened (s : Stack) : Stack :=
  ⟨[], closeAll s.root s.frames []⟩

def describe (s : Stack) : String :=
  match s.frames with
  | [] => "block"
  | f :: fs =>
    match f.opener with
    | .element tag _ _ => "<" ++ tag ++ ">"
    | .detached =>
      match ({ s with frames := fs } : Stack).newest? with
      | some (.element tag _ _ _ _) => "<" ++ tag ++ ">"
      | some n =>
        match n.opening? with
        | some d => "\x7b\x7b" ++ d.source ++ "\x7d\x7d"
        | none => "block"
      | none => "block"
    | o =>
      match o.opening? with
      | some d => "\x7b\x7b" ++ d.source ++ "\x7d\x7d"
      | none => "block"

@[simp]
theorem top_setTop (content : List Node) (s : Stack) : (s.setTop content).top = content := by
  unfold setTop top
  cases s.frames <;> rfl

@[simp]
theorem depth_setTop (content : List Node) (s : Stack) : (s.setTop content).depth = s.depth := by
  unfold setTop depth
  cases s.frames <;> simp

@[simp]
theorem top_push (n : Node) (s : Stack) : (s.push n).top = n :: s.top := by
  simp [push]

@[simp]
theorem top_opened (o : Opener) (s : Stack) : (s.opened o).top = [] := rfl

@[simp]
theorem depth_opened (o : Opener) (s : Stack) : (s.opened o).depth = s.depth + 1 := rfl

end Stack

end Stencil
