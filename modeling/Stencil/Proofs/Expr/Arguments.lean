import Stencil.Proofs.Expr.Gaps
import Stencil.Proofs.Expr.RoundTrip
import Stencil.Text.Search

/-!
# The arguments of a view

A view is asked for by its name and an object of arguments. Each argument has a name and the text of
an expression. Such a text is read to its end on its own, and it is read as the same lexemes where
it stands between the marks of an object; so the whole text is read as the name and the object of
all the expressions.
-/

namespace Stencil

namespace Token

variable {cs rest more : List Char} {ls : List Lexeme} {ws : List Cell} {c : Char}

/-! ## A text in front of a mark -/

/-- A text may end where a character begins that continues no lexeme. -/
theorem breaks_append (hc : Parts c) (cs more : List Char) : Breaks cs (cs ++ c :: more) := by
  induction cs with
  | nil => exact .parts hc
  | cons d cs ih => exact .same d ih

/-- The lexemes of a text are there also if a mark follows that continues none of them. -/
theorem Cell.Lexed.append (h : Cell.Lexed rest ws) (hc : Parts c) (more : List Char) :
    Cell.Lexed (rest ++ c :: more) ws := by
  induction ws with
  | nil => trivial
  | cons w ws ih =>
    obtain ⟨hgap, hink, hlexed⟩ := h
    have htext : Cell.text ws (rest ++ c :: more) = Cell.text ws rest ++ c :: more := by
      simp [Cell.text]
    refine ⟨hgap, ?_, ih hlexed⟩
    rw [htext]
    exact hink.breaks (breaks_append hc _ more)

/-- Cells in front of a text that is read are read in front of it. -/
theorem Cell.Lexed.lexes (h : Cell.Lexed rest ws) (hrest : Lexes rest ls) :
    Lexes (Cell.text ws rest) (ws.map Cell.lexeme ++ ls) := by
  induction ws with
  | nil => exact hrest
  | cons w ws ih =>
    obtain ⟨hgap, hink, hlexed⟩ := h
    rw [Cell.text_cons]
    exact (hink.takes.lexes (ih hlexed)).blanks hgap

/-- The text of an expression has the same lexemes in front of a mark. -/
theorem exists_lexes_of_read {source : String} {e : Expr} (h : Expr.read source = .ok e) :
    ∃ ls, Expr.Derives (.sequence e) ls ∧ ∀ (c : Char) (more : List Char) (ms : List Lexeme),
      Parts c → Lexes (c :: more) ms → Lexes (source.toList ++ c :: more) (ls ++ ms) := by
  obtain ⟨pre, last, htokens, hderives⟩ := Expr.exists_derives_of_read h
  obtain ⟨ws, rest, hsource, hws, hrest, hcells⟩ := exists_lexed_of_readFrom htokens
  obtain ⟨rfl, -⟩ := List.append_inj' hcells rfl
  rw [Cell.lexemes_tokens] at hderives
  refine ⟨ws.map Cell.lexeme, hderives, fun c more ms hc hmore => ?_⟩
  have htext : Cell.text ws rest ++ c :: more = Cell.text ws (rest ++ c :: more) := by
    simp [Cell.text]
  rw [hsource, htext]
  exact (hws.append hc more).lexes (hmore.blanks hrest)

theorem lexes_punctuation (hc : isPunctuation c = true) (hpoint : c ≠ '.') (h : Lexes rest ls) :
    Lexes (c :: rest) (.punctuation c :: ls) :=
  (takes_punctuation hc fun heq => absurd heq hpoint).lexes h

end Token

namespace Expr

open Token

/-! ## Names of arguments -/

/-- The names that an object takes without quotes: identifiers, and numbers in decimal notation. -/
def IsKey (name : String) : Prop :=
  isIdentifier name = true ∨
    ∃ n < 10 ^ integerDigitLimit, name.toList = Nat.toDigits 10 n

/-- A name before a colon is a key. -/
theorem IsKey.exists_lexeme {name : String} (h : IsKey name) :
    ∃ l, Grammar.key? l = some name ∧ ∀ (rest : List Char) (ls : List Lexeme), Lexes rest ls →
      Lexes (name.toList ++ ':' :: rest) (l :: .punctuation ':' :: ls) := by
  have hcolon {rest : List Char} {ls : List Lexeme} (h : Lexes rest ls) :
      Lexes (':' :: rest) (.punctuation ':' :: ls) :=
    lexes_punctuation (by decide) (by decide) h
  obtain hname | ⟨n, hn, hname⟩ := h
  · refine ⟨.name name, rfl, fun rest ls hrest => (takes_name hname ?_).lexes (hcolon hrest)⟩
    simpa using by decide
  · refine ⟨.int n, ?_, fun rest ls hrest => ?_⟩
    · rw [Grammar.key?, Option.some.injEq, ← String.toList_inj, hname]
      exact Nat.toList_repr
    · rw [hname]
      refine (takes_int hn ?_).lexes (hcolon hrest)
      simpa using by decide +kernel

/-- One expression is no list of expressions with commas between them. -/
theorem Derives.conditional {e : Expr} {ls : List Lexeme} (h : Derives (.sequence e) ls)
    (he : ∀ es, e ≠ .sequence es) : Derives (.conditional e) ls := by
  generalize hφ : Phrase.sequence e = φ at h
  cases h with
  | single h => exact Phrase.sequence.inj hφ ▸ h
  | several _ _ => exact absurd (Phrase.sequence.inj hφ) (he _)
  | _ => cases hφ

/-! ## Objects -/

/-- An argument: its name, and an expression with its text. -/
structure Argument where
  name : String
  text : String
  expr : Expr

namespace Argument

def entry (a : Argument) : String :=
  a.name ++ ": " ++ a.text

def member (a : Argument) : String × Expr :=
  (a.name, a.expr)

/-- The name can stand without quotes, and the text is read as the one expression. -/
structure IsRead (a : Argument) : Prop where
  key : IsKey a.name
  read : Expr.read a.text = .ok a.expr
  single : ∀ es, a.expr ≠ .sequence es

def object (as : List Argument) : String :=
  "\x7b" ++ Text.join ", " (as.map entry) ++ "\x7d"

/-- An argument that can be written alone can be written among others. -/
theorem IsRead.exists_lexes {a : Argument} (h : a.IsRead) : ∃ l ls,
    Grammar.key? l = some a.name ∧ Derives (.conditional a.expr) ls ∧
      ∀ (c : Char) (more : List Char) (ms : List Lexeme), Parts c → Lexes (c :: more) ms →
        Lexes (a.entry.toList ++ c :: more) (l :: .punctuation ':' :: (ls ++ ms)) := by
  obtain ⟨l, hkey, hname⟩ := h.key.exists_lexeme
  obtain ⟨ls, hderives, htext⟩ := exists_lexes_of_read h.read
  have hconditional := hderives.conditional h.single
  refine ⟨l, ls, hkey, hconditional, fun c more ms hc hmore => ?_⟩
  have hentry : a.entry.toList ++ c :: more =
      a.name.toList ++ ':' :: ' ' :: (a.text.toList ++ c :: more) := by
    simp [entry]
  rw [hentry]
  exact hname _ _ (htext c more ms hc hmore).space

end Argument

variable {as : List Argument}

theorem parts_comma : Parts ',' := by decide +kernel

theorem parts_brace : Parts '}' := by decide +kernel

/-- Between braces the arguments are members. -/
theorem exists_lexes_members (has : ∀ a ∈ as, a.IsRead) : ∃ ls,
    Derives (.members (as.map Argument.member)) ls ∧
      ∀ (rest : List Char) (ms : List Lexeme), Lexes rest ms →
        Lexes ((Text.join ", " (as.map Argument.entry)).toList ++ '}' :: rest) (ls ++ ms) := by
  have hbrace {rest : List Char} {ms : List Lexeme} (h : Lexes rest ms) :
      Lexes ('}' :: rest) (.punctuation '}' :: ms) :=
    lexes_punctuation (by decide) (by decide) h
  induction as with
  | nil => exact ⟨_, .membersNil, fun rest ms hrest => hbrace hrest⟩
  | cons a as ih =>
    obtain ⟨ha, has⟩ := List.forall_mem_cons.1 has
    obtain ⟨l, ls, hkey, hvalue, hentry⟩ := ha.exists_lexes
    cases as with
    | nil =>
      refine ⟨_, .membersOne hkey hvalue, fun rest ms hrest => ?_⟩
      simpa [Text.join] using hentry '}' rest _ parts_brace (hbrace hrest)
    | cons b bs =>
      obtain ⟨more, hmembers, hmore⟩ := ih has
      refine ⟨_, .membersCons hkey hvalue hmembers, fun rest ms hrest => ?_⟩
      have hcomma : Lexes (',' :: ' ' :: ((Text.join ", " ((b :: bs).map Argument.entry)).toList ++
          '}' :: rest)) (.punctuation ',' :: (more ++ ms)) :=
        lexes_punctuation (by decide) (by decide) (hmore rest ms hrest).space
      simpa [Text.join] using hentry ',' _ _ parts_comma hcomma

/-- The object of all arguments is read as the object of their expressions. -/
theorem exists_lexes_object (has : ∀ a ∈ as, a.IsRead) : ∃ ls,
    Derives (.primary (.ofMembers (as.map Argument.member))) ls ∧
      Lexes (Argument.object as).toList ls := by
  obtain ⟨ls, hmembers, hlexes⟩ := exists_lexes_members has
  refine ⟨.punctuation '{' :: ls, ?_, ?_⟩
  · obtain ⟨fields, hfields, heq⟩ | ⟨hne, heq⟩ := ofMembers_eq_iff.1 (Eq.refl (ofMembers _))
    · rw [← heq]
      exact .constantObject (hfields ▸ hmembers)
    · rw [← heq]
      exact .object hne hmembers
  · have hopen := lexes_punctuation (c := '{') (by decide) (by decide) (hlexes [] [] lexes_nil)
    simpa [Argument.object] using hopen

/-! ## A name and an object -/

theorem toList_print_text (s : String) : (print (.literal (.text s))).toList =
    '\'' :: (s.toList.flatMap Piece.escaped ++ ['\'']) := by
  simp [print, pieces, Value.pieces, Piece.chars, Piece.spelling]

/-- What an operand may be, a part of a list may be. -/
theorem Derives.conditional_of_primary {e : Expr} {ls : List Lexeme} (h : Derives (.primary e) ls) :
    Derives (.conditional e) ls := by
  have hoperand : Derives (phraseAt 8 e) ls := .operand h.of_primary
  have hconditional : Derives (phraseAt 1 e) ls := hoperand.loosen_le (by decide) (by decide)
  exact hconditional

/-- A name and the object of all arguments are read as the two of them. -/
theorem read_print_object (s : String) (has : ∀ a ∈ as, a.IsRead) :
    Expr.read (print (.literal (.text s)) ++ ", " ++ Argument.object as) =
      .ok (.sequence [.literal (.text s), .ofMembers (as.map Argument.member)]) := by
  obtain ⟨ls, hobject, hlexes⟩ := exists_lexes_object has
  have hlisted : Derives (.listed [.ofMembers (as.map Argument.member)])
      (.punctuation ',' :: (ls ++ [])) :=
    .listedCons hobject.conditional_of_primary .listedNil
  rw [List.append_nil] at hlisted
  have hderives : Derives (.sequence (.sequence [.literal (.text s),
      .ofMembers (as.map Argument.member)])) (.text s :: .punctuation ',' :: ls) :=
    .several (Derives.conditional_of_primary (.text s)) hlisted
  refine read_of_lexes ?_ hderives
  have hcomma : Lexes (',' :: ' ' :: (Argument.object as).toList) (.punctuation ',' :: ls) :=
    lexes_punctuation (by decide) (by decide) hlexes.space
  have htext := (takes_text s (',' :: ' ' :: (Argument.object as).toList)).lexes hcomma
  simpa [toList_print_text] using htext

end Expr

end Stencil
