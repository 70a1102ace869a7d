import Stencil.Directive.Basic
import Stencil.Expr.Grammar
import Stencil.Text.Search

/-!
# Reading a directive

The text between the braces is trimmed and then read by the first of four rules that fits:

* a block word or `else if`, a blank, an expression, and perhaps `as` with an alias, a word;
* `else`, `unbound` or `bound` alone;
* a slash, and perhaps the word of the block that it closes;
* any number of value words, each with a blank after it, and an expression.
-/

namespace Stencil.Directive

/-- The text after a word and at least one blank, if the text starts so. -/
def afterWord? (word : String) (cs : List Char) : Option (List Char) :=
  if word.toList.isPrefixOf cs then
    match cs.drop word.length with
    | c :: rest => if Text.isBlank c then some (Text.skipBlanks rest) else none
    | [] => none
  else none

/-- The words that introduce a block header, with the role they give. -/
def headWords : List (String × (Option String → Role)) :=
  [("if", .opens .condition), ("unless", .opens .negation), ("else if", .elseIf),
   ("each", .opens .each), ("with", .opens .scope)]

/-- Splits `expression as alias` at its last `as`: the alias is the last word, and an expression
stands before. Without such an end the whole text is the expression. -/
def splitAlias (cs : List Char) : List Char × Option (List Char) :=
  let isInk := fun c => !Text.isBlank c
  let back := cs.reverse
  let aliasName := back.takeWhile isInk
  match Text.skipBlanks (back.dropWhile isInk) with
  | 's' :: 'a' :: c :: rest =>
    if Text.isBlank c && !aliasName.isEmpty && !(Text.skipBlanks rest).isEmpty then
      ((Text.skipBlanks rest).reverse, some aliasName.reverse)
    else (cs, none)
  | _ => (cs, none)

/-- A block header: its role and the text of its expression. -/
def head? (cs : List Char) : Option (Role × List Char) :=
  headWords.findSome? fun (word, role) =>
    match afterWord? word cs with
    | some (c :: rest) =>
      let (body, aliasName) := splitAlias (c :: rest)
      some (role (aliasName.map String.ofList), body)
    | _ => none

/-- The value word at the front of the text, and the text after it and its blanks. -/
def valueWord? (cs : List Char) : Option (ValueWord × List Char) :=
  [ValueWord.view, .unbound, .bound, .unescaped].findSome? fun w =>
    (afterWord? w.text cs).map fun rest => (w, rest)

/-- What follows a word is shorter, which the readings below rely on to end. -/
theorem afterWord?_length {word : String} {cs rest : List Char}
    (h : afterWord? word cs = some rest) : rest.length < cs.length := by
  simp only [afterWord?] at h
  split at h
  · split at h
    · rename_i c tail htail
      split at h
      · simp only [Option.some.injEq] at h
        have h₁ : (Text.skipBlanks tail).length ≤ tail.length :=
          (List.dropWhile_sublist _).length_le
        have h₂ := congrArg List.length htail
        simp only [List.length_drop, List.length_cons] at h₂
        rw [← h]
        omega
      · simp at h
    · simp at h
  · simp at h

theorem valueWord?_length {cs rest : List Char} {w : ValueWord}
    (h : valueWord? cs = some (w, rest)) : rest.length < cs.length := by
  simp only [valueWord?] at h
  obtain ⟨w', _, hw⟩ := List.exists_of_findSome?_eq_some h
  obtain ⟨r, hr, he⟩ := Option.map_eq_some_iff.1 hw
  simp only [Prod.mk.injEq] at he
  exact he.2 ▸ afterWord?_length hr

set_option linter.unusedVariables false in
def valueWords (cs : List Char) : List ValueWord × List Char :=
  match h : valueWord? cs with
  | none => ([], cs)
  | some (w, rest) =>
    let (ws, body) := valueWords rest
    (w :: ws, body)
termination_by cs.length
decreasing_by exact valueWord?_length h

/-- The role of a trimmed text, and the text of its expression. -/
def classify (cs : List Char) : Role × List Char :=
  match head? cs with
  | some (role, body) => (role, body)
  | none =>
    if cs = "else".toList then (.otherwise, [])
    else if cs = "unbound".toList then (.opens .unbound none, [])
    else if cs = "bound".toList then (.opens .bound none, [])
    else match cs with
      | '/' :: rest =>
        let word := Text.trim rest
        (.closes (if word.isEmpty then "end" else String.ofList word), [])
      | cs =>
        let (ws, body) := valueWords cs
        (.shows ws, body)

/-- The expression of a directive's text; an empty text has none. -/
def body? (cs : List Char) : Except Cause (Option Expr) :=
  if cs.isEmpty then .ok none else (Expr.read (String.ofList cs)).map some

def read (text : String) : Except Error Directive :=
  let trimmed := Text.trim text.toList
  let source := String.ofList trimmed
  let (role, body) := classify trimmed
  match body? body with
  | .ok e => .ok ⟨source, role, e⟩
  | .error cause => .error ((Error.of cause).within ("\n\nWithin expression: " ++ source))

end Stencil.Directive
