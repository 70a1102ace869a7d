import Stencil.Proofs.Source.Characters

/-!
# The characters of printed expressions

A printed expression whose quoted texts have no special characters is mild and balanced and has no
double quote: its less-than signs and ampersands are operators between spaces, and its braces those
of objects. It starts and ends with characters that are not blank, and never starts with a slash.
-/

namespace Stencil

/-- Characters that can stand in a directive, also inside an attribute. -/
structure Neat (cs : List Char) : Prop where
  mild : Mild cs
  balanced : Balanced cs
  quote : '"' ∉ cs

/-- A text of quiet characters without quotes is neat. -/
theorem neat_of_quiet {cs : List Char} (h : ∀ c ∈ cs, isQuiet c = true ∧ c ≠ '"') : Neat cs where
  mild := mild_of_quiet fun c hc => (h c hc).1
  balanced := balanced_of_quiet fun c hc => (h c hc).1
  quote := fun hmem => (h _ hmem).2 rfl

theorem neat_of_all {cs : List Char}
    (h : (cs.all fun c => decide (isQuiet c = true ∧ c ≠ '"')) = true) : Neat cs :=
  neat_of_quiet (forall_mem_of_all h)

theorem Neat.append {cs ds : List Char} (hcs : Neat cs) (hds : Neat ds) : Neat (cs ++ ds) where
  mild := hcs.mild.append hds.mild
  balanced := hcs.balanced.append hds.balanced
  quote := by simpa using ⟨hcs.quote, hds.quote⟩

theorem Neat.enclosed {cs : List Char} (h : Neat cs) : Neat ('{' :: (cs ++ ['}'])) where
  mild := mild_cons (by decide) (by decide)
    (h.mild.append (mild_of_not_mem (by decide) (by decide)))
  balanced := h.balanced.enclosed
  quote := by simpa using h.quote

/-- Between double braces such a text is a value that can stand in double quotes. -/
theorem Neat.braced {cs : List Char} (h : Neat cs) :
    '"' ∉ '{' :: '{' :: (cs ++ ['}', '}']) ∧ Mild ('{' :: '{' :: (cs ++ ['}', '}'])) ∧
      Laid ('{' :: '{' :: (cs ++ ['}', '}'])) := by
  have htwice : '{' :: '{' :: (cs ++ ['}', '}']) = '{' :: ('{' :: (cs ++ ['}']) ++ ['}']) := by simp
  have hneat := h.enclosed.enclosed
  rw [← htwice] at hneat
  exact ⟨hneat.quote, hneat.mild, .directive h.mild h.balanced .nil⟩

theorem isQuiet_of_isNameRest {c : Char} (h : Token.isNameRest c = true) :
    isQuiet c = true ∧ c ≠ '"' ∧ Text.isBlank c = false ∧ c ≠ '/' := by
  have hascii := Token.toNat_lt_of_isNameRest h
  revert h
  refine Token.forall_ascii (P := fun c => Token.isNameRest c = true →
    isQuiet c = true ∧ c ≠ '"' ∧ Text.isBlank c = false ∧ c ≠ '/') ?_ hascii
  decide +kernel

theorem isNameRest_of_isDigit {c : Char} (h : c.isDigit = true) : Token.isNameRest c = true := by
  simp [Token.isNameRest, Char.isAlphanum, h]

theorem isNameRest_of_isIdentifier {name : String} (h : Expr.isIdentifier name = true) :
    ∀ c ∈ name.toList, Token.isNameRest c = true := by
  unfold Expr.isIdentifier at h
  split at h
  · cases h
  · rename_i c cs heq
    simp only [Bool.and_eq_true, List.all_eq_true] at h
    rw [heq]
    intro d hd
    obtain rfl | hd := List.mem_cons.1 hd
    · exact Token.isNameRest_of_isNameStart h.1
    · exact h.2 d hd

theorem neat_of_isNameRest {cs : List Char} (h : ∀ c ∈ cs, Token.isNameRest c = true) : Neat cs :=
  neat_of_quiet fun c hc =>
    ⟨(isQuiet_of_isNameRest (h c hc)).1, (isQuiet_of_isNameRest (h c hc)).2.1⟩

namespace Piece

/-! ## Inside -/

theorem neat_name {name : String} (h : Expr.isIdentifier name = true) : Neat name.toList :=
  neat_of_isNameRest (isNameRest_of_isIdentifier h)

/-- The digits of a number are neat. -/
theorem neat_toDigits (n : Nat) : Neat (Nat.toDigits 10 n) :=
  neat_of_isNameRest fun c hc => isNameRest_of_isDigit (Token.isDigit_toDigits n c hc)

theorem spelling_text {s : String} (h : Quotable s) :
    spelling (.text s) = '\'' :: (s.toList ++ ['\'']) := by
  have hescaped : ∀ cs : List Char, (∀ c ∈ cs, c ≠ '\'' ∧ c ≠ '\\') → cs.flatMap escaped = cs := by
    intro cs hcs
    induction cs with
    | nil => rfl
    | cons c cs ih =>
      have hc := hcs c List.mem_cons_self
      rw [List.flatMap_cons, escaped, if_neg (not_or.2 ⟨hc.2, hc.1⟩),
        ih fun d hd => hcs d (List.mem_cons_of_mem c hd)]
      rfl
  rw [spelling, hescaped s.toList fun c hc => ⟨(h c hc).2.1, (h c hc).2.2.2⟩]

/-- A text without quotes is printed neatly. -/
theorem neat_text {s : String} (h : Quotable s) : Neat (spelling (.text s)) := by
  rw [spelling_text h]
  have hquotes : Neat ['\''] := neat_of_all (by decide)
  have hinside : Neat s.toList := neat_of_quiet fun c hc => ⟨(h c hc).1, (h c hc).2.2.1⟩
  exact hquotes.append (hinside.append hquotes)

theorem neat_link {l : Lexeme} (h : Links l) : Neat (' ' :: (spelling l ++ [' '])) := by
  obtain rfl | rfl | ⟨op, k, rfl, hop⟩ := h
  · exact neat_of_all (by decide)
  · exact neat_of_all (by decide)
  · have hsigns : Mild (' ' :: (op.symbol.toList ++ [' '])) := by
      cases op <;> simp [Operator.symbol, Mild]
    refine ⟨hsigns, balanced_of_not_mem ?_ ?_, ?_⟩ <;> cases op <;> decide

/-- A written text is neat. -/
theorem Written.neat {b : Bool} {ps : List Piece} (h : Written Quotable b ps) : Neat (spelled ps) := by
  induction h with
  | nil => exact neat_of_quiet (by simp)
  | name hs => simpa [chars, spelling] using neat_name hs
  | aliasName hs =>
    have hmark : Neat ['#'] := neat_of_all (by decide)
    simpa [chars, spelling] using hmark.append (neat_name hs)
  | attributeName hs =>
    have hmark : Neat ['@'] := neat_of_all (by decide)
    simpa [chars, spelling] using hmark.append (neat_name hs)
  | @int n hn => simpa [chars, spelling] using neat_toDigits n
  | text hs => simpa [chars] using neat_text hs
  | @unary b op ps hop _ ih =>
    have hsign : Neat op.symbol.toList := by
      refine neat_of_all ?_
      cases op <;> first | decide | cases hop
    simpa [chars, spelling] using hsign.append ih
  | between hl _ _ ihp ihq =>
    have hall := ihp.append ((neat_link hl).append ihq)
    simpa [Piece.between, chars] using hall
  | comma _ _ ihp ihq =>
    have hmark : Neat [',', ' '] := neat_of_all (by decide)
    simpa [chars, spelling] using ihp.append (hmark.append ihq)
  | keyed hkey _ ih =>
    have hmark : Neat [':', ' '] := neat_of_all (by decide)
    have hall := (neat_text hkey).append (hmark.append ih)
    simpa [Piece.keyed, chars, spelling] using hall
  | enclosed hmarks _ _ ihp ihq =>
    obtain ⟨rfl, rfl⟩ | ⟨rfl, rfl⟩ | ⟨rfl, rfl⟩ := hmarks
    · have hopen : Neat ['('] := neat_of_all (by decide)
      have hclose : Neat [')'] := neat_of_all (by decide)
      simpa [chars, spelling] using ihp.append (hopen.append (ihq.append hclose))
    · have hopen : Neat ['['] := neat_of_all (by decide)
      have hclose : Neat [']'] := neat_of_all (by decide)
      simpa [chars, spelling] using ihp.append (hopen.append (ihq.append hclose))
    · simpa [chars, spelling] using ihp.append ihq.enclosed
  | member _ hs ih =>
    have hmark : Neat ['.'] := neat_of_all (by decide)
    simpa [chars, spelling] using ih.append (hmark.append (neat_name hs))

/-! ## Ends -/

/-- A text that starts with neither a blank nor a slash, and does not end with a blank. -/
structure Solid (cs : List Char) : Prop where
  starts : ∃ c rest, cs = c :: rest ∧ Text.isBlank c = false ∧ c ≠ '/'
  stops : ∃ rest c, cs = rest ++ [c] ∧ Text.isBlank c = false

theorem Solid.ne_nil {cs : List Char} (h : Solid cs) : cs ≠ [] := by
  obtain ⟨c, rest, rfl, -⟩ := h.starts
  exact List.cons_ne_nil c rest

theorem Solid.between {cs ds : List Char} (hcs : Solid cs) (hds : Solid ds) (es : List Char) :
    Solid (cs ++ (es ++ ds)) := by
  obtain ⟨c, rest, hc, hstarts⟩ := hcs.starts
  obtain ⟨rest', d, hd, hstops⟩ := hds.stops
  refine ⟨⟨c, rest ++ (es ++ ds), ?_, hstarts⟩, ⟨cs ++ (es ++ rest'), d, ?_, hstops⟩⟩
  · rw [hc, List.cons_append]
  · simp [hd]

theorem Solid.append {cs ds : List Char} (hcs : Solid cs) (hds : Solid ds) : Solid (cs ++ ds) :=
  hcs.between hds []

theorem solid_single {c : Char} (hblank : Text.isBlank c = false) (hslash : c ≠ '/') : Solid [c] :=
  ⟨⟨c, [], rfl, hblank, hslash⟩, ⟨[], c, rfl, hblank⟩⟩

theorem solid_of_ends {cs : List Char} (hne : cs ≠ [])
    (hfirst : Text.isBlank (cs.head hne) = false ∧ cs.head hne ≠ '/')
    (hlast : Text.isBlank (cs.getLast hne) = false) : Solid cs where
  starts := ⟨cs.head hne, cs.tail, (List.cons_head_tail hne).symm, hfirst⟩
  stops := ⟨cs.dropLast, cs.getLast hne, (List.dropLast_concat_getLast hne).symm, hlast⟩

theorem solid_of_isNameRest {cs : List Char} (hne : cs ≠ [])
    (h : ∀ c ∈ cs, Token.isNameRest c = true) : Solid cs :=
  solid_of_ends hne (isQuiet_of_isNameRest (h _ (List.head_mem hne))).2.2
    (isQuiet_of_isNameRest (h _ (List.getLast_mem hne))).2.2.1

theorem solid_name {name : String} (h : Expr.isIdentifier name = true) : Solid name.toList := by
  refine solid_of_isNameRest ?_ (isNameRest_of_isIdentifier h)
  obtain ⟨c, cs, heq, -⟩ := Token.exists_of_isIdentifier h
  simp [heq]

section

variable {ps qs : List Piece}

theorem solid_enclosed {opening closing : Char} (hmarks : Encloses opening closing)
    (ps : List Piece) : Solid (spelled (mark opening :: (ps ++ [mark closing]))) := by
  have hall (hopen : Solid [opening]) (hclose : Solid [closing]) :
      Solid (spelled (mark opening :: (ps ++ [mark closing]))) := by
    simpa [chars, spelling] using hopen.between hclose (spelled ps)
  obtain ⟨rfl, rfl⟩ | ⟨rfl, rfl⟩ | ⟨rfl, rfl⟩ := hmarks <;>
    exact hall (solid_single (by decide) (by decide)) (solid_single (by decide) (by decide))

theorem solid_grouped (needed : Bool) (h : Solid (spelled ps)) :
    Solid (spelled (grouped needed ps)) := by
  unfold grouped
  split
  · exact solid_enclosed (.inl ⟨rfl, rfl⟩) ps
  · exact h

theorem solid_between (l : Lexeme) (hps : Solid (spelled ps)) (hqs : Solid (spelled qs)) :
    Solid (spelled (between l ps qs)) := by
  simpa [Piece.between, chars] using hps.between hqs (' ' :: (spelling l ++ [' ']))

theorem solid_dotted {names : List String} (hps : Solid (spelled ps))
    (hnames : ∀ s ∈ names, Expr.isIdentifier s = true) : Solid (spelled (ps ++ dotted names)) := by
  induction names generalizing ps with
  | nil => simpa [dotted] using hps
  | cons name names ih =>
    have hname := solid_name (hnames name List.mem_cons_self)
    have hmember : Solid (spelled (ps ++ [mark '.', .lexeme (.name name)])) := by
      simpa [chars, spelling] using hps.between hname ['.']
    simpa [dotted] using ih hmember fun s hs => hnames s (List.mem_cons_of_mem name hs)

theorem solid_separated {pss : List (List Piece)} (hne : pss ≠ [])
    (h : ∀ ps ∈ pss, Solid (spelled ps)) : Solid (spelled (separated pss)) := by
  induction pss with
  | nil => exact absurd rfl hne
  | cons ps pss ih =>
    have hps := h ps List.mem_cons_self
    cases pss with
    | nil => exact hps
    | cons qs pss =>
      have hmore := ih (by simp) fun qs' hqs' => h qs' (List.mem_cons_of_mem ps hqs')
      simpa [separated, chars, spelling] using hps.between hmore [',', ' ']

end

theorem solid_toDigits (n : Nat) : Solid (Nat.toDigits 10 n) := by
  refine solid_of_isNameRest ?_ fun c hc =>
    isNameRest_of_isDigit (Token.isDigit_toDigits n c hc)
  obtain ⟨c, cs, heq, -⟩ := Token.exists_of_toDigits n
  simp [heq]

theorem solid_of_plain {v : Value} {I : Int → Prop} {S : String → Prop} (h : v.Plain I S) :
    Solid (spelled v.pieces) := by
  cases h with
  | null => exact solid_of_isNameRest (by decide) (forall_mem_of_all (by decide))
  | bool b => cases b <;> exact solid_of_isNameRest (by decide) (forall_mem_of_all (by decide))
  | @int n hn =>
    have hdigits := solid_toDigits n.natAbs
    have hminus : Solid ['-'] := solid_single (by decide) (by decide)
    unfold Value.pieces
    split
    · simpa [chars, spelling, Operator.symbol] using hminus.append hdigits
    · simpa [chars, spelling] using hdigits
  | @text s hs =>
    have hquote : Solid ['\''] := solid_single (by decide) (by decide)
    simpa [Value.pieces, chars, spelling] using hquote.between hquote (s.toList.flatMap escaped)
  | list _ => exact solid_enclosed (.inr (.inl ⟨rfl, rfl⟩)) _
  | object _ _ _ => exact solid_enclosed (.inr (.inr ⟨rfl, rfl⟩)) _

end Piece

namespace Expr

open Piece

variable {e : Expr}

/-- A printed expression is solid. -/
theorem Canonical.solid {I : Int → Prop} {S : String → Prop} (h : e.Canonical I S) :
    Solid (spelled e.pieces) := by
  induction h with
  | literal hv => exact solid_of_plain hv
  | @path name names hname _ _ hnames =>
    have hfirst : Solid (spelled [.lexeme (.name name)]) := by
      simpa [chars, spelling] using solid_name hname
    exact solid_dotted hfirst hnames
  | relative hnames =>
    have hfirst : Solid (spelled [.lexeme (.name "this")]) :=
      solid_of_isNameRest (by decide) (forall_mem_of_all (by decide))
    exact solid_dotted hfirst hnames
  | @aliasPath name names hname hnames =>
    have hmark : Solid ['#'] := solid_single (by decide) (by decide)
    have hfirst : Solid (spelled [.lexeme (.aliasName name)]) := by
      simpa [chars, spelling] using hmark.append (solid_name hname)
    simpa [pieces] using solid_dotted hfirst hnames
  | @attributePath name names hname hnames =>
    have hmark : Solid ['@'] := solid_single (by decide) (by decide)
    have hfirst : Solid (spelled [.lexeme (.attributeName name)]) := by
      simpa [chars, spelling] using hmark.append (solid_name hname)
    exact solid_dotted hfirst hnames
  | @brackets before inside after _ _ _ hafter hbefore _ =>
    have hbrackets := hbefore.append (solid_enclosed (.inr (.inl ⟨rfl, rfl⟩))
      (grouped (inside.level < 1) inside.pieces))
    rw [← spelled_append] at hbrackets
    simpa [pieces] using solid_dotted hbrackets hafter
  | @call names args after _ _ hafter hnames _ =>
    have hcall := hnames.append (solid_enclosed (.inl ⟨rfl, rfl⟩) (separated (itemPieces args)))
    rw [← spelled_append] at hcall
    simpa [pieces] using solid_dotted hcall hafter
  | @unary op operand hop _ _ ih =>
    have hsign : Solid op.symbol.toList := by
      cases op <;> first | exact solid_single (by decide) (by decide) | cases hop
    simpa [pieces, chars, spelling] using hsign.append (solid_grouped _ ih)
  | binary _ _ _ hleft hright =>
    exact solid_between _ (solid_grouped _ hleft) (solid_grouped _ hright)
  | choice _ _ _ htest hyes hno =>
    exact solid_between _ (solid_grouped _ htest)
      (solid_between _ (solid_grouped _ hyes) (solid_grouped _ hno))
  | array _ _ _ => exact solid_enclosed (.inr (.inl ⟨rfl, rfl⟩)) _
  | object _ _ _ _ => exact solid_enclosed (.inr (.inr ⟨rfl, rfl⟩)) _
  | sequence _ ih =>
    refine solid_separated (by simp [itemPieces]) ?_
    rw [itemPieces_eq_map]
    intro ps hps
    obtain ⟨e, he, rfl⟩ := List.mem_map.1 hps
    exact solid_grouped _ (ih e he)

theorem Canonical.solid_print {I : Int → Prop} {S : String → Prop} (h : e.Canonical I S) :
    Solid e.print.toList := by
  rw [print, String.toList_ofList]
  exact h.solid

theorem Canonical.neat (h : e.Canonical Token.Short Quotable) : Neat e.print.toList := by
  obtain ⟨b, hwritten⟩ := h.isWritten.1
  rw [print, String.toList_ofList]
  exact hwritten.neat

end Expr

end Stencil
