import Stencil.Entries
import Stencil.Text.CodePoints

/-!
# Arguments

The words of a command line are options and operands, in any order. A long option may be cut short
as long as it stays unique, and its value is the next word or stands behind an equals sign. A word
`--` makes operands of all words after it. Words are classified before any of them takes effect;
then they take effect from left to right, so the first text to be shown or the first mistake
decides.
-/

namespace Stencil.Command

inductive Stop where
  /-- They are not as they have to be. -/
  | misuse
  /-- They ask for a text. -/
  | answer (text : String)
deriving DecidableEq, Repr

inductive Meaning where
  /-- Shows a text at once. -/
  | shows (text : String)
  /-- Is there or not. -/
  | flag
  /-- Takes a value, one of the given ones if there are any. -/
  | value (allowed : List String)
deriving DecidableEq, Repr

inductive Operands where
  | one
  | oneOrMore
  /-- A command, which takes all words that follow it. -/
  | command
deriving DecidableEq, Repr

structure Grammar where
  options : Entries Meaning
  operands : Operands

/-! ## Words -/

inductive WordKind where
  | operand
  | separator
  | option (spelling : String) (meaning : Meaning) (attached : Option String)
  | unknown
deriving Repr

structure Word where
  text : String
  kind : WordKind
deriving Repr

namespace Grammar

def splitAtEquals (cs : List Char) : List Char × Option String :=
  let name := cs.takeWhile (· != '=')
  (name, if name.length < cs.length then some (String.ofList (cs.drop (name.length + 1))) else none)

/-- The options that a word may be short for. A long word is the start of their spelling; in a
short one, what follows the letter is attached to it. -/
def candidates (g : Grammar) (cs : List Char) : List WordKind :=
  match cs with
  | '-' :: '-' :: _ =>
    let (name, attached) := splitAtEquals cs
    g.options.filterMap fun o =>
      if name.isPrefixOf o.1.toList then some (.option o.1 o.2 attached) else none
  | _ =>
    g.options.filterMap fun o =>
      if o.1.toList = cs.take 2 then some (.option o.1 o.2 (some (String.ofList (cs.drop 2))))
      else if cs.isPrefixOf o.1.toList then some (.option o.1 o.2 none)
      else none

def withoutLineEnd (cs : List Char) : List Char :=
  if cs.getLast? = some '\n' then cs.dropLast else cs

/-- A number with a minus sign is an operand. A line end may close it. -/
def isNegativeNumber (cs : List Char) : Bool :=
  match withoutLineEnd cs with
  | '-' :: ds =>
    let whole := ds.takeWhile Text.isDecimal
    match ds.drop whole.length with
    | [] => !whole.isEmpty
    | '.' :: fraction => !fraction.isEmpty && fraction.all Text.isDecimal
    | _ => false
  | _ => false

/-- The option that a word spells out, with what is attached behind an equals sign. -/
def spelled? (g : Grammar) (text : String) : Option WordKind :=
  match Entries.get? text g.options with
  | some m => some (.option text m none)
  | none =>
    match splitAtEquals text.toList with
    | (name, some attached) =>
      (Entries.get? (String.ofList name) g.options).map fun m =>
        .option (String.ofList name) m (some attached)
    | (_, none) => none

def classify (g : Grammar) (text : String) : Except Stop WordKind :=
  let cs := text.toList
  if cs.head? ≠ some '-' ∨ cs = ['-'] then .ok .operand
  else match g.spelled? text with
    | some kind => .ok kind
    | none =>
      match g.candidates cs with
      | _ :: _ :: _ => .error .misuse
      | [kind] => .ok kind
      | [] => .ok (if isNegativeNumber cs || cs.contains ' ' then .operand else .unknown)

def words (g : Grammar) : List String → Except Stop (List Word)
  | [] => .ok []
  | "--" :: rest => .ok (⟨"--", .separator⟩ :: rest.map (⟨·, .operand⟩))
  | text :: rest => do
    let kind ← g.classify text
    return ⟨text, kind⟩ :: (← g.words rest)

end Grammar

/-! ## Effects -/

structure Given where
  values : Entries String
  flags : List String
  operands : List String
  /-- Whether there were words that nothing took. -/
  hasExtras : Bool

def Given.none : Given :=
  ⟨[], [], [], false⟩

/-- Whether operands are still to come, have just come, or have been ended by an option. -/
inductive Stage where
  | before
  | within
  | after
deriving DecidableEq, Repr

/-- An option ends a run of operands. -/
def Stage.ended : Stage → Stage
  | .before => .before
  | _ => .after

namespace Grammar

def giveValue (spelling : String) (allowed : List String) (value : String) (given : Given) :
    Except Stop Given :=
  if allowed.isEmpty || allowed.contains value then
    .ok { given with values := Entries.set spelling value given.values }
  else .error .misuse

def giveFlag (spelling : String) (meaning : Meaning) (given : Given) : Except Stop Given :=
  match meaning with
  | .shows text => .error (.answer text)
  | _ => .ok { given with flags := given.flags ++ [spelling] }

/-- Whether letters attached to a short option are short options themselves. -/
def areShort (g : Grammar) (spelling attached : String) : Bool :=
  spelling.length == 2 && attached != "" && attached.toList.all fun c =>
    match Entries.get? (String.ofList ['-', c]) g.options with
    | some (.value _) | none => false
    | some _ => true

/-- Lets words take effect, from left to right. `awaiting` is an option that needs the next word
as its value. -/
def collect (g : Grammar) (given : Given) (stage : Stage)
    (awaiting : Option (String × List String)) : List Word → Except Stop Given
  | [] =>
    if awaiting.isSome || (stage = .before ∧ g.operands ≠ .command) then .error .misuse
    else .ok given
  | w :: ws =>
    match w.kind, awaiting with
    | .operand, some (spelling, allowed) => do
      g.collect (← giveValue spelling allowed w.text given) stage none ws
    | _, some _ => .error .misuse
    | .operand, none =>
      match stage, g.operands with
      | .before, .command => .ok { given with operands := w.text :: ws.map Word.text }
      | .before, _ | .within, .oneOrMore =>
        g.collect { given with operands := given.operands ++ [w.text] } .within none ws
      | _, _ => g.collect { given with hasExtras := true } .after none ws
    | .separator, none =>
      match stage, g.operands with
      | .before, .command => .error .misuse
      | .after, _ => g.collect { given with hasExtras := true } stage none ws
      | _, _ => g.collect given stage none ws
    | .unknown, none => g.collect { given with hasExtras := true } stage.ended none ws
    | .option spelling (.value allowed) (some value), none => do
      g.collect (← giveValue spelling allowed value given) stage.ended none ws
    | .option spelling (.value allowed) none, none =>
      g.collect given stage.ended (some (spelling, allowed)) ws
    | .option spelling meaning attached, none =>
      if attached.all (g.areShort spelling) then do
        g.collect (← giveFlag spelling meaning given) stage.ended none ws
      else .error .misuse

/-- Reads arguments. Words that nothing takes are reported, not refused. -/
def read (g : Grammar) (args : List String) : Except Stop Given := do
  g.collect .none .before none (← g.words args)

end Grammar

end Stencil.Command
