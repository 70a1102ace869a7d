import Mathlib.Data.List.Forall2
import Stencil.Proofs.Expr.Lexicon
import Stencil.Proofs.Expr.Lockstep

/-!
# Texts as lexemes and the gaps between them

A text is cut into cells, each some blanks and the characters of one lexeme. `exists_lexed` cuts any
text as far as lexemes go, and `readFrom_text` reads the cells one by one, so that the tokens and
their places are those of the cells. `Lexed.respaced` changes the blanks: as a lexeme sees no
further than the next blank, and two lexemes that have a blank between them keep one, every lexeme
stays what it was.
-/

namespace Stencil.Token

open Text (AreBlank skipBlanks_append)

/-- A lexeme as it stands in a text: the blanks in front of it and its characters. -/
structure Cell where
  gap : List Char
  ink : List Char
  lexeme : Lexeme

namespace Cell

def chars (w : Cell) : List Char :=
  w.gap ++ w.ink

def text (cells : List Cell) (rest : List Char) : List Char :=
  cells.flatMap chars ++ rest

def tokens (offset : Nat) : List Cell → List Token
  | [] => []
  | w :: ws => ⟨w.lexeme, offset + w.gap.length⟩ :: tokens (offset + w.chars.length) ws

/-- The cells are read from the front of a text that goes on with `rest`. -/
def Lexed (rest : List Char) : List Cell → Prop
  | [] => True
  | w :: ws => AreBlank w.gap ∧ Spelled w.lexeme w.ink (text ws rest) ∧ Lexed rest ws

/-- The same lexeme after other blanks, of which there are some if there were some. -/
structure Respaced (w w' : Cell) : Prop where
  ink : w'.ink = w.ink
  lexeme : w'.lexeme = w.lexeme
  blank : AreBlank w'.gap
  gap : w.gap ≠ [] → w'.gap ≠ []

end Cell

section

variable {cs rest rest' gap : List Char} {l : Lexeme} {position : Nat}
variable {w : Cell} {ws ws' : List Cell}

/-! ## Reading cell by cell -/

/-- In blanks there is nothing but the end. -/
theorem readFrom_areBlank (h : AreBlank cs) (position : Nat) :
    readFrom position cs = .ok [⟨.stop, position + cs.length⟩] :=
  readFrom_of_nil (Text.skipBlanks_of_areBlank h) position

@[simp]
theorem Cell.text_nil (rest : List Char) : Cell.text [] rest = rest := rfl

@[simp]
theorem Cell.text_cons (w : Cell) (ws : List Cell) (rest : List Char) :
    Cell.text (w :: ws) rest = w.gap ++ (w.ink ++ Cell.text ws rest) := by
  simp [Cell.text, Cell.chars]

/-- Blanks and a lexeme are one step of the reading. -/
theorem readFrom_cell (hgap : AreBlank w.gap) (hink : Spelled w.lexeme w.ink rest) :
    readFrom position (w.gap ++ (w.ink ++ rest)) =
      (readFrom (position + w.chars.length) rest).map
        (⟨w.lexeme, position + w.gap.length⟩ :: ·) := by
  obtain ⟨c, more, hmore, hblank, hnext⟩ := hink.takes
  have hskip : Text.skipBlanks (w.gap ++ (w.ink ++ rest)) = c :: more := by
    rw [skipBlanks_append hgap, hmore]
    simp [Text.skipBlanks, hblank]
  have hlength := congrArg List.length hmore
  have hstart : position + w.gap.length =
      position + ((w.gap ++ (w.ink ++ rest)).length - (c :: more).length) := by
    rw [hmore, List.length_append]
    omega
  have hafter : position + w.gap.length + ((c :: more).length - rest.length) =
      position + w.chars.length := by
    rw [List.length_append] at hlength
    rw [Cell.chars, List.length_append]
    omega
  rw [readFrom_of_cons hskip hstart, hnext]
  simp only [hafter]
  cases readFrom (position + w.chars.length) rest <;> rfl

/-- Cells give their tokens, and what follows is read behind them. -/
theorem readFrom_text (h : Cell.Lexed rest ws) :
    readFrom position (Cell.text ws rest) =
      (readFrom (position + (ws.flatMap Cell.chars).length) rest).map
        (Cell.tokens position ws ++ ·) := by
  induction ws generalizing position with
  | nil =>
    change readFrom position rest = (readFrom position rest).map ([] ++ ·)
    cases readFrom position rest <;> rfl
  | cons w ws ih =>
    obtain ⟨hgap, hink, hws⟩ := h
    rw [Cell.text_cons, readFrom_cell hgap hink, ih hws, List.flatMap_cons, List.length_append,
      Nat.add_assoc]
    cases readFrom (position + (w.chars.length + (ws.flatMap Cell.chars).length)) rest <;> rfl

theorem readFrom_text_of_areBlank (h : Cell.Lexed rest ws) (hrest : AreBlank rest) :
    readFrom position (Cell.text ws rest) =
      .ok (Cell.tokens position ws ++ [⟨.stop, position + (Cell.text ws rest).length⟩]) := by
  rw [readFrom_text h, readFrom_areBlank hrest, Cell.text, List.length_append, Nat.add_assoc]
  rfl

/-- Neither a blank nor a lexeme is at the front of the text. -/
structure Stuck (c : Char) (more : List Char) : Prop where
  blank : Text.isBlank c = false
  none : ∀ l ink rest, c :: more = ink ++ rest → ¬ Spelled l ink rest

/-- Every text is cut into cells up to its end or to a place where no lexeme is. -/
theorem exists_lexed (cs : List Char) : ∃ ws gap rest, cs = Cell.text ws (gap ++ rest) ∧
    Cell.Lexed (gap ++ rest) ws ∧ AreBlank gap ∧
      (rest = [] ∨ ∃ c more, rest = c :: more ∧ Stuck c more) := by
  induction hn : cs.length using Nat.strongRecOn generalizing cs with
  | ind n ih =>
    subst hn
    obtain ⟨before, hbefore, hcs⟩ := Text.exists_skipBlanks cs
    cases hrest : Text.skipBlanks cs with
    | nil =>
      rw [hrest] at hcs
      exact ⟨[], _, [], hcs.symm, trivial, hbefore, .inl rfl⟩
    | cons c more =>
      have hblank := Text.head?_skipBlanks cs
      rw [hrest] at hcs hblank
      by_cases hspelled : ∃ l ink rest, c :: more = ink ++ rest ∧ Spelled l ink rest
      · obtain ⟨l, ink, rest, hink, hspelled⟩ := hspelled
        have hnext : next 0 c more = .ok (l, rest) := next_eq_ok_iff.2 ⟨ink, hink, hspelled⟩
        have hlt : rest.length < cs.length := by
          rw [← hcs, List.length_append]
          exact Nat.lt_add_left _ (next_length hnext)
        obtain ⟨ws, gap, last, rfl, hws, hlast⟩ := ih _ hlt rest rfl
        refine ⟨⟨before, ink, l⟩ :: ws, gap, last, ?_, ⟨hbefore, hspelled, hws⟩, hlast⟩
        rw [Cell.text_cons, ← hink, hcs]
      · refine ⟨[], _, c :: more, hcs.symm, trivial, hbefore, .inr ⟨c, more, rfl, hblank c rfl, ?_⟩⟩
        intro l ink rest hink h
        exact hspelled ⟨l, ink, rest, hink, h⟩

/-- Where no lexeme is, reading fails. -/
theorem Stuck.exists_error {c : Char} {more : List Char} (h : Stuck c more) (hgap : AreBlank gap)
    (position : Nat) : ∃ cause, next (position + gap.length) c more = .error cause ∧
      readFrom position (gap ++ c :: more) = .error cause := by
  cases hnext : next (position + gap.length) c more with
  | ok found =>
    obtain ⟨ink, hink, hspelled⟩ := exists_of_next hnext
    exact absurd hspelled (h.none _ ink _ hink)
  | error cause =>
    have hskip : Text.skipBlanks (gap ++ c :: more) = c :: more := by
      rw [skipBlanks_append hgap]
      simp [Text.skipBlanks, h.blank]
    have hstart : position + gap.length =
        position + ((gap ++ c :: more).length - (c :: more).length) := by
      rw [List.length_append]
      omega
    refine ⟨cause, rfl, ?_⟩
    rw [readFrom_of_cons hskip hstart, hnext]

/-- A text that is read is made of cells, whose tokens are read from it. -/
theorem exists_lexed_of_readFrom {ts : List Token} (h : readFrom position cs = .ok ts) :
    ∃ ws rest, cs = Cell.text ws rest ∧ Cell.Lexed rest ws ∧ AreBlank rest ∧
      ts = Cell.tokens position ws ++ [⟨.stop, position + cs.length⟩] := by
  obtain ⟨ws, gap, rest, rfl, hws, hgap, rfl | ⟨c, more, rfl, hstuck⟩⟩ := exists_lexed cs
  · rw [List.append_nil] at hws h ⊢
    rw [readFrom_text_of_areBlank hws hgap] at h
    exact ⟨ws, gap, rfl, hws, hgap, (Except.ok.inj h).symm⟩
  · obtain ⟨cause, -, hfails⟩ :=
      hstuck.exists_error hgap (position + (ws.flatMap Cell.chars).length)
    rw [readFrom_text hws, hfails] at h
    cases h

/-! ## Other gaps -/

theorem Spelled.ne_nil (h : Spelled l cs rest) : cs ≠ [] := by
  rintro rfl
  obtain ⟨c, more, hmore, -, hnext⟩ := h.takes
  have hlt := next_length (hnext 0)
  rw [← hmore] at hlt
  exact Nat.lt_irrefl _ hlt

/-- On its own a lexeme is read as itself. -/
theorem Spelled.read_alone (h : Spelled l cs rest) :
    Token.read (String.ofList cs) = .ok [⟨l, 0⟩, ⟨.stop, cs.length⟩] := by
  have hlexed : Cell.Lexed [] [⟨[], cs, l⟩] := ⟨by simp [AreBlank], h.breaks .ends, trivial⟩
  have hread : readFrom 0 (Cell.text [⟨[], cs, l⟩] []) = _ :=
    readFrom_text_of_areBlank hlexed (by simp [AreBlank])
  simpa [Token.read, Cell.tokens] using hread

/-- Cells with other blanks between them break where the first ones do. Where no blank is in front
of a lexeme now, there was none before. -/
theorem Cell.breaks_text (hws : List.Forall₂ Cell.Respaced ws ws') (hrest : AreBlank rest') :
    Breaks (Cell.text ws rest) (Cell.text ws' rest') := by
  have hblank {gap : List Char} (hgap : AreBlank gap) (hne : gap ≠ []) (cs more : List Char) :
      Breaks cs (gap ++ more) := by
    obtain ⟨c, gap, rfl⟩ := List.exists_cons_of_ne_nil hne
    exact .parts (parts_of_isBlank (hgap c List.mem_cons_self))
  induction hws with
  | nil =>
    by_cases hne : rest' = []
    · exact hne ▸ .ends
    · simpa using hblank hrest hne rest []
  | @cons w w' ws ws' hw _ ih =>
    rw [Cell.text_cons, Cell.text_cons]
    by_cases hgap' : w'.gap = []
    · have hgap : w.gap = [] := by
        by_contra hne
        exact hw.gap hne hgap'
      rw [hgap, hgap', hw.ink]
      exact ih.append w.ink
    · exact hblank hw.blank hgap' _ _

/-- Lexemes that keep their gaps apart are lexemes still. -/
theorem Cell.Lexed.respaced (h : Cell.Lexed rest ws) (hws : List.Forall₂ Cell.Respaced ws ws')
    (hrest : AreBlank rest') : Cell.Lexed rest' ws' := by
  induction hws with
  | nil => trivial
  | cons hw hws ih =>
    obtain ⟨-, hink, hlexed⟩ := h
    refine ⟨hw.blank, ?_, ih hlexed⟩
    rw [hw.ink, hw.lexeme]
    exact hink.breaks (Cell.breaks_text hws hrest)

theorem Cell.lexemes_tokens (offset : Nat) (ws : List Cell) :
    (Cell.tokens offset ws).map Token.lexeme = ws.map Cell.lexeme := by
  induction ws generalizing offset with
  | nil => rfl
  | cons w ws ih => rw [Cell.tokens, List.map_cons, List.map_cons, ih]

/-- Other blanks leave the lexemes as they are. -/
theorem Cell.lexemes_respaced (hws : List.Forall₂ Cell.Respaced ws ws') :
    ws'.map Cell.lexeme = ws.map Cell.lexeme := by
  induction hws with
  | nil => rfl
  | cons hw _ ih => rw [List.map_cons, List.map_cons, hw.lexeme, ih]

/-- Every cell is blanks and a lexeme that is spelled in front of some text. -/
theorem Cell.Lexed.forall_mem (h : Cell.Lexed rest ws) :
    ∀ w ∈ ws, AreBlank w.gap ∧ ∃ more, Spelled w.lexeme w.ink more := by
  induction ws with
  | nil => simp
  | cons w ws ih =>
    obtain ⟨hgap, hink, hlexed⟩ := h
    exact List.forall_mem_cons.2 ⟨⟨hgap, _, hink⟩, ih hlexed⟩

end

/-- A text that is read is made of lexemes with blanks between them: the tokens are the lexemes in
their places, and each is read alone as itself. With other blanks in the gaps, but some where some
were, the lexemes are the same, and so is the expression that is read or the error, which differs in
its place only. -/
theorem read_respaced {source : String} {tokens : List Token} (h : Token.read source = .ok tokens) :
    ∃ cells last, source.toList = Cell.text cells last ∧ AreBlank last ∧
      tokens = Cell.tokens 0 cells ++ [⟨.stop, source.length⟩] ∧
      (∀ w ∈ cells, AreBlank w.gap ∧ w.ink ≠ [] ∧
        Token.read (String.ofList w.ink) = .ok [⟨w.lexeme, 0⟩, ⟨.stop, w.ink.length⟩]) ∧
      ∀ (source' : String) (cells' : List Cell) (last' : List Char),
        source'.toList = Cell.text cells' last' → List.Forall₂ Cell.Respaced cells cells' →
        AreBlank last' → ∃ tokens', Token.read source' = .ok tokens' ∧
          tokens' = Cell.tokens 0 cells' ++ [⟨.stop, source'.length⟩] ∧
          tokens'.map Token.lexeme = tokens.map Token.lexeme ∧
          (Expr.read source').mapError Cause.unplaced =
            (Expr.read source).mapError Cause.unplaced := by
  obtain ⟨cells, last, hsource, hcells, hlast, htokens⟩ := exists_lexed_of_readFrom h
  rw [String.length_toList, Nat.zero_add] at htokens
  refine ⟨cells, last, hsource, hlast, htokens, ?_, ?_⟩
  · intro w hw
    obtain ⟨hgap, more, hink⟩ := hcells.forall_mem w hw
    exact ⟨hgap, hink.ne_nil, hink.read_alone⟩
  intro source' cells' last' hsource' hrespaced hlast'
  have hread' : Token.read source' = .ok (Cell.tokens 0 cells' ++ [⟨.stop, source'.length⟩]) := by
    have hread : readFrom 0 (Cell.text cells' last') = _ :=
      readFrom_text_of_areBlank (hcells.respaced hrespaced hlast') hlast'
    rwa [← hsource', String.length_toList, Nat.zero_add] at hread
  have halike : Expr.Alike tokens (Cell.tokens 0 cells' ++ [⟨.stop, source'.length⟩]) :=
    ⟨by simp [htokens], by simp [htokens, Cell.lexemes_tokens, Cell.lexemes_respaced hrespaced]⟩
  refine ⟨_, hread', rfl, halike.2, ?_⟩
  rw [Expr.read, Expr.read, h, hread']
  exact Expr.ofTokens_of_alike halike

/-- A comparison with a negative number, with other blanks. -/
theorem read_respaced_comparison : ∃ tokens, Token.read "a <=-1 " = .ok tokens ∧
    ∃ cells last, "a <=-1 ".toList = Cell.text cells last ∧ AreBlank last ∧
      tokens = Cell.tokens 0 cells ++ [⟨.stop, 7⟩] ∧
      (∀ w ∈ cells, AreBlank w.gap ∧ w.ink ≠ [] ∧
        Token.read (String.ofList w.ink) = .ok [⟨w.lexeme, 0⟩, ⟨.stop, w.ink.length⟩]) ∧
      ∀ (source' : String) (cells' : List Cell) (last' : List Char),
        source'.toList = Cell.text cells' last' → List.Forall₂ Cell.Respaced cells cells' →
        AreBlank last' → ∃ tokens', Token.read source' = .ok tokens' ∧
          tokens' = Cell.tokens 0 cells' ++ [⟨.stop, source'.length⟩] ∧
          tokens'.map Token.lexeme = tokens.map Token.lexeme ∧
          (Expr.read source').mapError Cause.unplaced =
            (Expr.read "a <=-1 ").mapError Cause.unplaced := by
  have hread : (Token.read "a <=-1 ").isOk = true := by decide +kernel
  cases htokens : Token.read "a <=-1 " with
  | error cause =>
    rw [htokens] at hread
    cases hread
  | ok tokens => exact ⟨tokens, rfl, read_respaced htokens⟩

end Stencil.Token
