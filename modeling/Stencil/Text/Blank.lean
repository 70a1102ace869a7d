import Stencil.Text.CodePoints

/-!
# Blanks

Which characters count as white space, and the three things done with it: trimming a text,
splitting it into words, and collapsing every run of blanks to one space.
-/

namespace Stencil.Text

/-- Separators and controls that count as white space. The zero-width space and the byte order
mark do not. -/
def blankRanges : Ranges :=
  [(0x09, 0x0D), (0x1C, 0x20), (0x85, 0x85), (0xA0, 0xA0), (0x1680, 0x1680), (0x2000, 0x200A),
   (0x2028, 0x2029), (0x202F, 0x202F), (0x205F, 0x205F), (0x3000, 0x3000)]

def isBlank (c : Char) : Bool :=
  blankRanges.holds c

def skipBlanks (cs : List Char) : List Char :=
  cs.dropWhile isBlank

def trim (cs : List Char) : List Char :=
  (skipBlanks (skipBlanks cs).reverse).reverse

/-- Collects the current word in `word`, newest character first. -/
def wordsFrom (word : List Char) : List Char → List (List Char)
  | [] => if word.isEmpty then [] else [word.reverse]
  | c :: cs =>
    if isBlank c then
      if word.isEmpty then wordsFrom [] cs else word.reverse :: wordsFrom [] cs
    else wordsFrom (c :: word) cs

def words (cs : List Char) : List (List Char) :=
  wordsFrom [] cs

/-- `afterBlank` says that the blank run at the front already gave its space. -/
def collapseFrom (afterBlank : Bool) : List Char → List Char
  | [] => []
  | c :: cs =>
    if isBlank c then
      if afterBlank then collapseFrom true cs else ' ' :: collapseFrom true cs
    else c :: collapseFrom false cs

/-- Replaces every run of blanks by one space. -/
def collapse (cs : List Char) : List Char :=
  collapseFrom false cs

theorem isBlank_space : isBlank ' ' = true := by decide

@[simp]
theorem trim_nil : trim [] = [] := rfl

@[simp]
theorem collapse_nil : collapse [] = [] := rfl

end Stencil.Text
