/-!
# Searching a text

Texts are lists of characters. A search either splits the text around the first occurrence or
finds nothing. Lines end at one of several characters; in files, a carriage return is read as a line
feed.
-/

namespace Stencil.Text

/-- The text before the first position at which `p` holds of what follows, and the text from
there on. -/
def splitWhere? (p : List Char → Bool) : List Char → Option (List Char × List Char)
  | [] => if p [] then some ([], []) else none
  | c :: cs =>
    if p (c :: cs) then some ([], c :: cs)
    else (splitWhere? p cs).map fun (before, rest) => (c :: before, rest)

/-- Splits at the first occurrence of `part`; the second text starts with it. -/
def splitAtFirst? (part : List Char) (cs : List Char) : Option (List Char × List Char) :=
  splitWhere? part.isPrefixOf cs

/-- The pieces between the occurrences of the character `sep`. -/
def splitOn (sep : Char) : List Char → List (List Char)
  | [] => [[]]
  | c :: cs =>
    if c = sep then [] :: splitOn sep cs
    else match splitOn sep cs with
      | [] => [[c]]
      | piece :: pieces => (c :: piece) :: pieces

def join (sep : String) : List String → String
  | [] => ""
  | [s] => s
  | s :: t :: rest => s ++ sep ++ join sep (t :: rest)

def isLineEnd (c : Char) : Bool :=
  [0x0A, 0x0B, 0x0C, 0x0D, 0x1C, 0x1D, 0x1E, 0x85, 0x2028, 0x2029].contains c.toNat

def firstLine (s : String) : String :=
  String.ofList (s.toList.takeWhile (!isLineEnd ·))

/-- Reads a carriage return, with the line feed after it if there is one, as a line feed. -/
def unifyLineEnds : List Char → List Char
  | '\r' :: '\n' :: cs => '\n' :: unifyLineEnds cs
  | '\r' :: cs => '\n' :: unifyLineEnds cs
  | c :: cs => c :: unifyLineEnds cs
  | [] => []

theorem splitWhere?_append {p : List Char → Bool} {cs before rest : List Char}
    (h : splitWhere? p cs = some (before, rest)) : before ++ rest = cs := by
  induction cs generalizing before with
  | nil =>
    simp only [splitWhere?] at h
    split at h <;> simp_all
  | cons c cs ih =>
    simp only [splitWhere?] at h
    split at h
    · simp_all
    · obtain ⟨⟨b, r⟩, hb, he⟩ := Option.map_eq_some_iff.1 h
      simp only [Prod.mk.injEq] at he
      obtain ⟨rfl, rfl⟩ := he
      simp [ih hb]

theorem splitOn_ne_nil (sep : Char) (cs : List Char) : splitOn sep cs ≠ [] := by
  cases cs with
  | nil => simp [splitOn]
  | cons c cs =>
    simp only [splitOn]
    split
    · simp
    · split <;> simp

end Stencil.Text
