import Stencil.Error.Cause

/-!
# Errors

An error is a cause with the contexts that it collects on its way out. A failure that is not one of
the template language's own becomes a plain template error as soon as it gets a context.
-/

namespace Stencil

/-- A cause, with the contexts added to it in the order in which they were added. -/
structure Error where
  cause : Cause
  contexts : List String
deriving Repr

namespace Error

def of (cause : Cause) : Error :=
  ⟨cause, []⟩

def within (context : String) (e : Error) : Error :=
  { e with contexts := e.contexts ++ [context] }

/-- Whether a further context leaves the error the same object: true of the language's own
errors and of those that already have a context. -/
def isOwn (e : Error) : Bool :=
  e.cause.kind.isOwn || !e.contexts.isEmpty

def kind (e : Error) : Kind :=
  if e.cause.kind.isOwn || e.contexts.isEmpty then e.cause.kind else .template

def message (e : Error) : String :=
  e.contexts.foldl (· ++ ·) e.cause.message

/-- The text of an error that a caller raised with these arguments. -/
def textOfArguments (kind : Kind) : List Value → String
  | [] => ""
  | [v] => if kind = .key then v.shown else v.plain
  | vs => "(" ++ Value.shownItems vs ++ ")"

@[simp]
theorem message_of (c : Cause) : (Error.of c).message = c.message := rfl

@[simp]
theorem message_within (e : Error) (context : String) :
    (e.within context).message = e.message ++ context := by
  simp [message, within]

/-- A failure that got a context is one of the template language's own. -/
theorem isOwn_kind_within (e : Error) (context : String) :
    (e.within context).kind.isOwn = true := by
  rw [kind]
  split
  · rename_i h
    simpa [within] using h
  · rfl

end Error

end Stencil
