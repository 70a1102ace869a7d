import Stencil.Proofs.Expr.RoundTrip
import Stencil.Proofs.Nesting.Acceptance

/-!
# Writing a tree as source

A tree is written as the events that spell it: directives between double braces, tags with their
attributes in double quotes, text as it stands. A directive is written from its role and its
expression. Its own source is not looked at, and `respelled` puts what was written in its place.

`Serial` describes the trees that can be written. It leaves out the characters that mean something
to markup or to directives, and the words that would be read as something else.
-/

namespace Stencil

open Nesting

namespace Directive

def leading : Role → List String
  | .opens w _ => [w.text]
  | .elseIf _ => ["else if"]
  | .otherwise => ["else"]
  | .closes w => ["/" ++ w]
  | .shows ws => ws.map ValueWord.text

def trailing : Option String → List String
  | some s => ["as", s]
  | none => []

def written (d : Directive) : String :=
  Text.join " " (leading d.role ++ d.expr?.toList.map Expr.print ++ trailing d.role.alias?)

/-- The directive with what is written as its source. -/
def respelled (d : Directive) : Directive :=
  { d with source := d.written }

end Directive

/-! ## Trees -/

def Term.respelled : Term → Term
  | .bare e => .bare e
  | .marked d => .marked d.respelled

def Attribute.respelled : Attribute → Attribute
  | .dynamic (.term t) => .dynamic (.term t.respelled)
  | a => a

namespace Node

mutual

/-- The node with what is written as the source of its directives. Everything else is kept. -/
def respelled : Node → Node
  | .value t => .value t.respelled
  | .element tag as content selfClosing hooks =>
    .element tag (as.map fun a => (a.1, a.2.respelled)) (respelledContent content) selfClosing hooks
  | .conditional bs => .conditional (respelledBranches bs)
  | .each d ns otherwise => .each d.respelled (respelledAll ns) (respelledContent otherwise)
  | .block d ns => .block d.respelled (respelledAll ns)
  | n => n
termination_by structural n => n

def respelledAll : List Node → List Node
  | [] => []
  | n :: ns => respelled n :: respelledAll ns
termination_by structural ns => ns

def respelledContent : Option (List Node) → Option (List Node)
  | none => none
  | some ns => some (respelledAll ns)
termination_by structural content => content

def respelledBranches : List (Directive × List Node) → List (Directive × List Node)
  | [] => []
  | (d, ns) :: bs => (d.respelled, respelledAll ns) :: respelledBranches bs
termination_by structural bs => bs

end

def isText : Node → Bool
  | .text _ => true
  | _ => false

end Node

/-! ## Source -/

namespace Nesting.Event

def valueChars : Value → List Char
  | .text s => s.toList
  | _ => []

def attributeChars (a : String × Value) : List Char :=
  ' ' :: (a.1.toList ++ '=' :: '"' :: (valueChars a.2 ++ ['"']))

def chars : Event → List Char
  | .start tag as selfClosing =>
    '<' :: (tag.toList ++ (as.flatMap attributeChars ++ if selfClosing then ['/', '>'] else ['>']))
  | .stop tag => '<' :: '/' :: (tag.toList ++ ['>'])
  | .literal data => data.toList
  | .directive d => '{' :: '{' :: (d.source.toList ++ ['}', '}'])
  | .comment data => "<!--".toList ++ data.toList ++ "-->".toList

def isText : Event → Bool
  | .literal _ | .directive _ => true
  | _ => false

end Nesting.Event

def sourceChars (es : List Event) : List Char :=
  es.flatMap Event.chars

/-- A tree as source. -/
def serialise (ns : List Node) : String :=
  String.ofList (sourceChars (flattenAll (Node.respelledAll ns)))

/-! ## The trees that can be written -/

/-- The characters that mean nothing to markup and to directives. -/
def isQuiet (c : Char) : Bool :=
  !(['<', '&', '{', '}'].contains c)

/-- The texts that may stand in quotes inside an expression. -/
def Quotable (s : String) : Prop :=
  ∀ c ∈ s.toList, isQuiet c = true ∧ c ≠ '\'' ∧ c ≠ '"' ∧ c ≠ '\\'

def loneWords : List String :=
  ["else", "unbound", "bound"]

/-- The words that mean something before a blank. -/
def frontWords : List String :=
  ["if", "unless", "else if", "each", "with", "view", "unbound", "bound", "unescaped"]

/-- Whether the printed expression carries a word that would be read as the role of a directive. -/
def Expr.hasKeyword (e : Expr) : Bool :=
  loneWords.contains e.print ||
    frontWords.any fun w =>
      w.toList.isPrefixOf e.print.toList && (e.print.toList.drop w.length).head?.any Text.isBlank

/-- Whether `as` is a word of the printed expression. -/
def Expr.hasAs (e : Expr) : Bool :=
  (Text.words e.print.toList).contains ['a', 's']

def isTagChar (c : Char) : Bool :=
  c.isLower || c.isDigit || c == '-' || c == '.' || c == ':' || c == '_'

/-- The tags of elements with content: a lower-case letter, then lower-case letters, digits and some
marks. -/
def IsTag (tag : String) : Prop :=
  (∃ c cs, tag.toList = c :: cs ∧ c.isLower = true ∧ ∀ d ∈ cs, isTagChar d = true) ∧
    Markup.isVoid tag = false ∧ tag ≠ "script" ∧ tag ≠ "style" ∧ tag ≠ "view"

/-- The names of attributes that declare no hook. Letters of any case, digits and hyphens are among
the characters that they may have. -/
def IsAttributeName (name : String) : Prop :=
  name ≠ "" ∧ (∀ c ∈ name.toList, Markup.startsWrittenName c = true ∧ isQuiet c = true) ∧
    name ≠ "as" ∧ name ≠ "on"

/-- The names of aliases, with their mark. -/
def IsAlias (s : String) : Prop :=
  ∃ name, s = "#" ++ name ∧ Expr.isIdentifier name = true

/-- Of two neighbours at most one is as `p` says. -/
def Apart {α : Type} (p : α → Bool) : List α → Prop
  | [] => True
  | a :: as => (p a = true → ∀ b ∈ as.head?, p b = false) ∧ Apart p as

section

variable (I : Int → Prop) (K : Expr → Prop)

/-- A directive of this role with a canonical expression, whose integers are as `I` says. -/
def Directive.Holds (r : Role) (d : Directive) (e : Expr) : Prop :=
  d.role = r ∧ d.expr? = some e ∧ e.Canonical I Quotable

/-- A directive of this role with an expression that does not have the word `as`. -/
def Directive.Heads (r : Role) (d : Directive) : Prop :=
  ∃ e, d.Holds I r e ∧ e.hasAs = false

/-- A directive of this role alone. -/
def Directive.Bare (r : Role) (d : Directive) : Prop :=
  d.role = r ∧ d.expr? = none

/-- The attributes that can be written: a quiet text, or an expression that is as `K` says. -/
inductive Attribute.Serial : Attribute → Prop
  | literal {s : String} (hne : s ≠ "") (hs : ∀ c ∈ s.toList, isQuiet c = true ∧ c ≠ '"') :
    Serial (.literal (.text s))
  | dynamic {d : Directive} {e : Expr} (hd : d.Holds I (.shows []) e) (he : e.isLiteral = false)
    (hword : K e) : Serial (.dynamic (.term (.marked d)))

/-- The trees that can be written. -/
inductive Node.Serial : Node → Prop
  | text {data : String} (hne : data ≠ "") (hquiet : ∀ c ∈ data.toList, isQuiet c = true) :
    Serial (.text data)
  | value {d : Directive} {e : Expr} (hd : d.Holds I (.shows []) e) (hword : e.hasKeyword = false) :
    Serial (.value (.marked d))
  | element {tag : String} {as : Attributes} {ns : List Node} (htag : IsTag tag)
    (hnodup : (as.map fun a => Text.lower a.1.toList).Nodup)
    (hnames : ∀ a ∈ as, IsAttributeName a.1) (has : ∀ a ∈ as, a.2.Serial I K)
    (hapart : Apart Node.isText ns) (hns : ∀ n ∈ ns, Serial n) :
    Serial (.element tag as (some ns) false none)
  | conditional {d : Directive} {ns : List Node} {bs : List (Directive × List Node)}
    (hd : d.Heads I (.opens .condition none) ∨ d.Heads I (.opens .negation none))
    (hapart : Apart Node.isText ns) (hns : ∀ n ∈ ns, Serial n)
    (hbs : ∀ b ∈ bs, b.1.Heads I (.elseIf none) ∨ b.1.Bare .otherwise)
    (haparts : ∀ b ∈ bs, Apart Node.isText b.2) (hnss : ∀ b ∈ bs, ∀ n ∈ b.2, Serial n) :
    Serial (.conditional ((d, ns) :: bs))
  | each {d : Directive} {a : Option String} {ns : List Node} {otherwise : Option (List Node)}
    (hd : d.Heads I (.opens .each a))
    (ha : ∀ s ∈ a, IsAlias s)
    (hapart : Apart Node.isText ns) (hns : ∀ n ∈ ns, Serial n)
    (haparts : ∀ ms ∈ otherwise, Apart Node.isText ms)
    (hms : ∀ ms ∈ otherwise, ∀ n ∈ ms, Serial n) :
    Serial (.each d ns otherwise)
  | block {d : Directive} {ns : List Node}
    (hd : d.Heads I (.opens .scope none) ∨ d.Bare (.opens .unbound none) ∨
      d.Bare (.opens .bound none))
    (hapart : Apart Node.isText ns) (hns : ∀ n ∈ ns, Serial n) :
    Serial (.block d ns)

end

end Stencil
