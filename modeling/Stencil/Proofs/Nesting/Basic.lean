import Stencil.Proofs.Building

/-!
# The nesting of a template

A builder is fed with start and end tags, spans of text and comments. The grammar of well-nested
sequences is given here without any stack: `Items` relates a sequence to the nodes that it spells.
An element ends with its own tag. A condition has any number of further branches, a loop at most
one, other blocks none, and a block is closed by its own word or by the word that fits all.

`flattenAll` spells nodes again. Closing directives, and the directive before the last branch of a
loop, leave no trace in a tree, so a sequence comes back up to the spelling of these.
-/

namespace Stencil.Nesting

/-- What a builder takes in one step. -/
inductive Event where
  | start (tag : String) (attributes : List (String × Value)) (selfClosing : Bool)
  | stop (tag : String)
  | literal (data : String)
  | directive (d : Directive)
  | comment (data : String)

namespace Event

def take (scene : Scene) : Event → Build Unit
  | .start tag attributes selfClosing => Build.startElement scene tag attributes selfClosing
  | .stop tag => Build.endElement scene ("</" ++ tag ++ ">") tag
  | .literal data => Build.span scene (.literal data)
  | .directive d => Build.span scene (.directive d)
  | .comment data => Build.comment ("<!--" ++ data ++ "-->") data

/-- Whether a value holds a brace. -/
def hasBrace : Value → Bool
  | .text s => s.toList.contains '{' || s.toList.contains '}'
  | _ => false

/-- Events that refer to no view and declare no hook: attributes have different names and constant
values, directives show no view, and comments are kept in the tree. -/
def Plain : Event → Prop
  | .start tag attributes _ =>
    tag ≠ "view" ∧ (attributes.map Prod.fst).Nodup ∧
      ∀ a ∈ attributes, a.1 ≠ "as" ∧ a.1 ≠ "on" ∧ hasBrace a.2 = false
  | .stop tag => tag ≠ "view"
  | .literal _ => True
  | .directive d => d.role.isView = false
  | .comment data => Markup.isConditionalComment ("<!--" ++ data ++ "-->") = true

end Event

def build (scene : Scene) (es : List Event) : Build Template := do
  es.forM (Event.take scene)
  Build.finish scene

/-! ## The grammar -/

def literals (attributes : List (String × Value)) : Attributes :=
  attributes.map fun a => (a.1, .literal a.2)

/-- A directive that starts another branch. -/
def Continues (d : Directive) : Prop :=
  d.role = .otherwise ∨ ∃ a, d.role = .elseIf a

/-- A directive that closes the blocks of a word. -/
def Closes (w : BlockWord) (d : Directive) : Prop :=
  d.role = .closes "end" ∨ d.role = .closes w.text

mutual

/-- A sequence of events spells these nodes. -/
inductive Items : List Event → List Node → Prop where
  | nil : Items [] []
  | cons {es fs : List Event} {n : Node} {ns : List Node} :
      Item es n → Items fs ns → Items (es ++ fs) (n :: ns)

inductive Item : List Event → Node → Prop where
  | literal (data : String) : Item [.literal data] (.text data)
  | comment (data : String) : Item [.comment data] (.comment data)
  | value {d : Directive} {ws : List ValueWord} :
      d.role = .shows ws → Item [.directive d] (.value (.marked d))
  | leaf {tag : String} {as : List (String × Value)} {selfClosing : Bool} :
      (selfClosing || Markup.isVoid tag) = true →
      Item [.start tag as selfClosing] (.element tag (literals as) none selfClosing none)
  | element {tag : String} {as : List (String × Value)} {es : List Event} {ns : List Node} :
      Markup.isVoid tag = false → Items es ns →
      Item (.start tag as false :: (es ++ [.stop tag]))
        (.element tag (literals as) (some ns) false none)
  | conditional {d c : Directive} {w : BlockWord} {a : Option String} {es : List Event}
      {bs : List (Directive × List Node)} :
      d.role = .opens w a → w = .condition ∨ w = .negation → Branches d es bs → Closes w c →
      Item (.directive d :: (es ++ [.directive c])) (.conditional bs)
  | each {d c : Directive} {a : Option String} {es : List Event} {ns : List Node} :
      d.role = .opens .each a → Items es ns → Closes .each c →
      Item (.directive d :: (es ++ [.directive c])) (.each d ns none)
  | eachElse {d d' c : Directive} {a : Option String} {es fs : List Event} {ns ms : List Node} :
      d.role = .opens .each a → Items es ns → d'.role = .otherwise → Items fs ms →
      Closes .each c →
      Item (.directive d :: (es ++ .directive d' :: (fs ++ [.directive c])))
        (.each d ns (some ms))
  | block {d c : Directive} {w : BlockWord} {a : Option String} {es : List Event}
      {ns : List Node} :
      d.role = .opens w a → w = .scope ∨ w = .unbound ∨ w = .bound → Items es ns → Closes w c →
      Item (.directive d :: (es ++ [.directive c])) (.block d ns)

/-- The branches of a condition, the first of which the given directive has started. -/
inductive Branches : Directive → List Event → List (Directive × List Node) → Prop where
  | last {d : Directive} {es : List Event} {ns : List Node} : Items es ns → Branches d es [(d, ns)]
  | more {d d' : Directive} {es fs : List Event} {ns : List Node}
      {bs : List (Directive × List Node)} :
      Items es ns → Continues d' → Branches d' fs bs →
      Branches d (es ++ .directive d' :: fs) ((d, ns) :: bs)

end

theorem Items.singleton {es : List Event} {n : Node} (h : Item es n) : Items es [n] := by
  simpa using Items.cons h .nil

theorem Items.append {es fs : List Event} {ns ms : List Node} (h : Items es ns)
    (h' : Items fs ms) : Items (es ++ fs) (ns ++ ms) := by
  induction ns generalizing es with
  | nil =>
    cases h
    simpa using h'
  | cons n ns ih =>
    obtain _ | ⟨hitem, hitems⟩ := h
    rw [List.append_assoc]
    exact .cons hitem (ih hitems)

/-- A conditional has a first branch, under its own directive. -/
theorem Branches.eq_cons {d : Directive} {es : List Event} {bs : List (Directive × List Node)}
    (h : Branches d es bs) : ∃ ns bs', bs = (d, ns) :: bs' := by
  cases h with
  | last _ => exact ⟨_, _, rfl⟩
  | more _ _ _ => exact ⟨_, _, rfl⟩

/-! ## Spelling a tree -/

def rawValue : Attribute → Value
  | .literal v => v
  | .dynamic (.term (.marked d)) => .text ("\x7b\x7b" ++ d.source ++ "\x7d\x7d")
  | .dynamic _ => .null

def rawAttributes (as : Attributes) : List (String × Value) :=
  as.map fun a => (a.1, rawValue a.2)

def closing (d : Directive) : Event :=
  let word := d.role.blockWord?.getD "end"
  .directive ⟨"/" ++ word, .closes word, none⟩

def otherwise : Event :=
  .directive ⟨"else", .otherwise, none⟩

mutual

def flatten : Node → List Event
  | .text data => [.literal data]
  | .value (.marked d) => [.directive d]
  | .comment data => [.comment data]
  | .element tag as content selfClosing _ =>
    .start tag (rawAttributes as) selfClosing :: flattenContent tag content
  | .conditional bs => flattenBranches bs ++ (Node.conditional bs).opening?.toList.map closing
  | .each d ns none => .directive d :: (flattenAll ns ++ [closing d])
  | .each d ns (some ms) =>
    .directive d :: (flattenAll ns ++ otherwise :: (flattenAll ms ++ [closing d]))
  | .block d ns => .directive d :: (flattenAll ns ++ [closing d])
  | _ => []
termination_by structural n => n

def flattenAll : List Node → List Event
  | [] => []
  | n :: ns => flatten n ++ flattenAll ns
termination_by structural ns => ns

/-- The content of an element and its end tag, if it has content. -/
def flattenContent (tag : String) : Option (List Node) → List Event
  | none => []
  | some ns => flattenAll ns ++ [.stop tag]
termination_by structural content => content

def flattenBranches : List (Directive × List Node) → List Event
  | [] => []
  | (d, ns) :: bs => .directive d :: (flattenAll ns ++ flattenBranches bs)
termination_by structural bs => bs

end

/-- An event without the spelling that a tree does not keep. -/
def Event.unspelled : Event → Event
  | .directive d =>
    match d.role with
    | .closes _ => .directive ⟨"/", .closes "end", none⟩
    | .otherwise => otherwise
    | _ => .directive d
  | e => e

theorem rawAttributes_literals (as : List (String × Value)) :
    rawAttributes (literals as) = as := by
  simp [rawAttributes, literals, rawValue, Function.comp_def]

/-- Every spelling of the else directive stands for the same event. -/
theorem unspelled_otherwise {d : Directive} (h : d.role = .otherwise) :
    (Event.directive d).unspelled = otherwise := by
  simp [Event.unspelled, h]

/-- All directives that close a block are spelled alike. -/
theorem unspelled_closing {d c : Directive} {w : BlockWord} (h : Closes w c) :
    (closing d).unspelled = (Event.directive c).unspelled := by
  obtain hc | hc := h <;> simp [Event.unspelled, closing, hc]

mutual

/-- Written back, the nodes give the events they were read from, up to the spelling of closing
words. -/
theorem Items.flattenAll {es : List Event} {ns : List Node} (h : Items es ns) :
    (flattenAll ns).map Event.unspelled = es.map Event.unspelled := by
  match h with
  | .nil => rfl
  | .cons hitem hitems =>
    rw [Nesting.flattenAll, List.map_append, List.map_append, hitem.flatten, hitems.flattenAll]

/-- Written back, a node gives the events it was read from, up to the spelling of closing words. -/
theorem Item.flatten {es : List Event} {n : Node} (h : Item es n) :
    (flatten n).map Event.unspelled = es.map Event.unspelled := by
  match h with
  | .literal _ => rfl
  | .comment _ => rfl
  | .value _ => rfl
  | .leaf _ => simp [Nesting.flatten, flattenContent, rawAttributes_literals]
  | .element _ hitems =>
    have ih := hitems.flattenAll
    simp [Nesting.flatten, flattenContent, rawAttributes_literals, ih]
  | .conditional _ _ hbranches hclose =>
    have ih := hbranches.flattenBranches
    obtain ⟨ns, bs, rfl⟩ := hbranches.eq_cons
    simp [Nesting.flatten, Node.opening?, ih, unspelled_closing hclose]
  | .each _ hitems hclose =>
    have ih := hitems.flattenAll
    simp [Nesting.flatten, ih, unspelled_closing hclose]
  | .eachElse _ hitems helse hitems' hclose =>
    have ih := hitems.flattenAll
    have ih' := hitems'.flattenAll
    have hself : otherwise.unspelled = otherwise := rfl
    simp [Nesting.flatten, ih, ih', unspelled_closing hclose, unspelled_otherwise helse, hself]
  | .block _ _ hitems hclose =>
    have ih := hitems.flattenAll
    simp [Nesting.flatten, ih, unspelled_closing hclose]

/-- Written back, the branches give their events, up to the spelling of closing words. -/
theorem Branches.flattenBranches {d : Directive} {es : List Event}
    {bs : List (Directive × List Node)} (h : Branches d es bs) :
    (flattenBranches bs).map Event.unspelled = (.directive d :: es).map Event.unspelled := by
  match h with
  | .last hitems =>
    have ih := hitems.flattenAll
    simp [Nesting.flattenBranches, ih]
  | .more hitems _ hbranches =>
    have ih := hitems.flattenAll
    have ih' := hbranches.flattenBranches
    simp [Nesting.flattenBranches, ih, ih']

end

end Stencil.Nesting
