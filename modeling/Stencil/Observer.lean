import Stencil.Error
import Stencil.Expr.Grammar
import Stencil.Template.Node

/-!
# Observers of elements

Observers see an element right after it is closed and may change its hooks. They are registered
for events, `element:form`, and run in the order of their priorities and, within one priority, of
their registration. One observer comes with forms. All others are known by their names, and what
they do is given by their reactions: to what they are shown, after all that they and the other ones
were shown before.
-/

namespace Stencil

inductive Observer where
  /-- Forms that react to their submission also suppress the default action. -/
  | preventSubmit
  | named (name : String)
deriving DecidableEq, Repr

/-- An observer by its name, and the element that it was shown. -/
structure Mark where
  name : String
  tag : String
  attributes : Attributes
  content : Option (List Node)
  selfClosing : Bool
  hooks : Option (List Hook)

structure Registration where
  observer : Observer
  priority : Int
  order : Nat
deriving DecidableEq, Repr

/-- Registrations by event, each list in the order in which they run. -/
structure Observers where
  events : Entries (List Registration)
  counter : Nat
deriving Repr

namespace Registration

/-- By priority, then by order of registration. -/
def before (a b : Registration) : Bool :=
  a.priority < b.priority || (a.priority == b.priority && a.order ≤ b.order)

/-- Inserts a registration at its place. -/
def insert (r : Registration) : List Registration → List Registration
  | [] => [r]
  | x :: xs => if before x r then x :: insert r xs else r :: x :: xs

end Registration

namespace Observers

def empty : Observers :=
  ⟨[], 0⟩

def normalPriority : Int := 50

def priorityOfName? (name : String) : Option Int :=
  Entries.get? name
    [("HIGHEST", 0), ("HIGH", 25), ("NORMAL", normalPriority), ("LOW", 75), ("LOWEST", 100)]

def handlers (os : Observers) (event : String) : List Registration :=
  (Entries.get? event os.events).getD []

def on (os : Observers) (event : String) (o : Observer) (priority : Int) : Observers :=
  let counter := os.counter + 1
  { events :=
      Entries.set event (Registration.insert ⟨o, priority, counter⟩ (os.handlers event)) os.events
    counter }

/-- Takes away the first registration of an observer. -/
def removeFirst (o : Observer) : List Registration → Option (List Registration)
  | [] => none
  | r :: rs => if r.observer = o then some rs else (removeFirst o rs).map (r :: ·)

/-- Removes an observer from an event; says whether it was there. -/
def remove (os : Observers) (event : String) (o : Observer) : Bool × Observers :=
  match removeFirst o (os.handlers event) with
  | some rs => (true, { os with events := Entries.set event rs os.events })
  | none => (false, os)

def has (os : Observers) (event : String) : Bool :=
  !(os.handlers event).isEmpty

def size (os : Observers) : Nat :=
  os.events.foldl (fun n e => n + e.2.length) 0

def shown (os : Observers) : String :=
  "<MarkupHooks events=" ++
    (Value.list (((Entries.keys os.events).mergeSort (fun a b => a ≤ b)).map .text)).shown ++ ">"

/-- The observers that every template has unless others are given. -/
def default : Observers :=
  empty.on "element:form" .preventSubmit normalPriority

end Observers

/-! ## Reactions -/

/-- What an observer leaves behind: the hooks of the element, the observers, and an error if it
fails. -/
structure Reaction where
  hooks : Option (List Hook)
  observers : Observers
  failure? : Option Error

/-- The reactions of all named observers: to what one of them is shown, after the earlier marks, and
with the observers as they are. -/
abbrev Reactions := Mark → List Mark → Observers → Reaction

def Reactions.passive : Reactions :=
  fun mark _ observers => ⟨mark.hooks, observers, none⟩

/-! ## Hooks -/

namespace Hook

def isReactionTo (event : String) : Hook → Bool
  | .onElement n _ => n == event
  | _ => false

def isPreventDefault : Hook → Bool
  | .onElement _ (.call ["$preventDefault"] _ _) => true
  | _ => false

def preventDefault : Hook :=
  .onElement "submit" (.call ["$preventDefault"] [] [])

/-- Adds the suppression of the default action to hooks that react to the submission of a form and
do not suppress it already. -/
def preventSubmit (hooks : Option (List Hook)) : Option (List Hook) :=
  let submits := (hooks.getD []).filter (isReactionTo "submit")
  if submits.isEmpty || submits.any isPreventDefault then hooks
  else some (hooks.getD [] ++ [preventDefault])

end Hook

end Stencil
