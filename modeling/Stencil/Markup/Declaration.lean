import Stencil.Markup.Raw
import Stencil.Text.Case

/-!
# Declarations and conditional comments

The document type that a declaration names, with its public and system identifiers, and the
comments that are kept in a template.
-/

namespace Stencil.Markup

structure DocumentType where
  name : String
  publicId : Option String
  systemId : Option String
deriving DecidableEq, Repr

def blanks? : List Char → Option (List Char)
  | [] => none
  | c :: cs => if Text.isBlank c then some (Text.skipBlanks cs) else none

/-- A text in double quotes that is not empty, and what follows it. -/
def quotedId? : List Char → Option (String × List Char)
  | '"' :: cs =>
    match Text.splitAtFirst? ['"'] cs with
    | some ([], _) => none
    | some (id, rest) => some (String.ofList id, rest.drop 1)
    | none => none
  | _ => none

/-- The word `PUBLIC` or `SYSTEM` in any case, as written in lower case, and what follows. -/
def idWord? (cs : List Char) : Option (List Char × List Char) :=
  ((spelled? "public".toList cs).orElse fun _ => spelled? "system".toList cs).map
    fun (letters, rest) => (Text.lower letters, rest)

/-- The identifiers after the name: a word, an identifier and perhaps a second one. The text after
them has to close the declaration. -/
def identifiers? (cs : List Char) : Option (Option String × Option String) := do
  let (word, rest) ← (blanks? cs).bind idWord?
  let (first, rest) ← (blanks? rest).bind quotedId?
  let (second, rest) := match (blanks? rest).bind quotedId? with
    | some (id, after) => (some id, after)
    | none => (none, rest)
  let _ ← tagEnd? rest
  if word = "public".toList then some (some first, second)
  else if word = "system".toList then some (none, some first)
  else some (none, none)

/-- The name before the last closing bracket of a word, if it is not empty. -/
def nameBeforeBracket? (word : List Char) : Option (List Char) :=
  match (word.reverse.dropWhile (· != '>')).drop 1 with
  | [] => none
  | back => some back.reverse

def documentType? (tag : String) : Option DocumentType :=
  (spelled? "<!doctype".toList tag.toList).bind fun (_, cs) =>
    (blanks? cs).bind fun cs =>
      let word := cs.takeWhile fun c => !Text.isBlank c
      let rest := cs.drop word.length
      if word.isEmpty then none
      else match identifiers? rest with
        | some (publicId, systemId) => some ⟨String.ofList word, publicId, systemId⟩
        | none =>
          if (tagEnd? rest).isSome then some ⟨String.ofList word, none, none⟩
          else (nameBeforeBracket? word).map fun name => ⟨String.ofList name, none, none⟩

/-- Whether a comment is conditional: its text starts with an opening square bracket and ends with
a closing one. A line feed may follow the comment. -/
def isConditionalComment (tag : String) : Bool :=
  match tag.toList with
  | '<' :: '!' :: '-' :: '-' :: '[' :: cs =>
    [']', '-', '-', '>'].isSuffixOf cs || [']', '-', '-', '>', '\n'].isSuffixOf cs
  | _ => false

end Stencil.Markup
