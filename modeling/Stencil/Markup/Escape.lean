import Stencil.Braces
import Stencil.Markup.Raw

/-!
# Escaping inside directives

A less-than sign inside a directive must not start a tag. Where it would, it is replaced by its
character reference, which is decoded again when the markup is read. Comments and the contents of
`script` and `style` are read without decoding, so they are left alone.
-/

namespace Stencil.Markup

def startsMarkup (c : Char) : Bool :=
  c.isAlpha || c == '/' || c == '!' || c == '?'

/-- Replaces each less-than sign that would start markup. -/
def escapeRegion : List Char → List Char
  | [] => []
  | [c] => [c]
  | c :: d :: cs =>
    if c = '<' ∧ startsMarkup d then '&' :: 'l' :: 't' :: ';' :: escapeRegion (d :: cs)
    else c :: escapeRegion (d :: cs)

/-- The text before the first directive, the directive with its braces, and the text after it. -/
def directive? (cs : List Char) : Option (List Char × List Char × List Char) :=
  match Text.splitAtFirst? ['{', '{'] cs with
  | some (before, '{' :: '{' :: inside) =>
    (Braces.split? inside).map fun (region, rest) => (before, '{' :: '{' :: region, rest)
  | _ => none

/-- What follows a directive is shorter, since its braces are taken. -/
theorem directive?_length {cs before region rest : List Char}
    (h : directive? cs = some (before, region, rest)) : rest.length < cs.length := by
  simp only [directive?] at h
  split at h
  · rename_i hsplit
    obtain ⟨⟨r, t⟩, hr, he⟩ := Option.map_eq_some_iff.1 h
    simp only [Prod.mk.injEq] at he
    have h₁ := Braces.split?_length hr
    have h₂ := congrArg List.length (Text.splitWhere?_append hsplit)
    simp only [List.length_append, List.length_cons] at h₂
    rw [← he.2.2]
    omega
  · simp at h

set_option linter.unusedVariables false in
/-- Escapes the directives of an open text, up to the first one that is not closed. -/
def escapeOpen (cs : List Char) : List Char :=
  match h : directive? cs with
  | none => cs
  | some (before, region, rest) => before ++ escapeRegion region ++ escapeOpen rest
termination_by cs.length
decreasing_by exact directive?_length h

/-- The text after a comment or an element whose content is not decoded. -/
def afterUndecoded? (cs : List Char) : Option (List Char) :=
  (afterComment? cs).orElse fun _ =>
    (afterElement? "script" cs).orElse fun _ => afterElement? "style" cs

def escape (source : String) : String :=
  String.ofList (mapOpen escapeOpen (pieces afterUndecoded? source.toList))

end Stencil.Markup
