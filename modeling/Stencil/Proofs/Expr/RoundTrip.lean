import Stencil.Proofs.Expr.Spelling

/-!
# Printed expressions are read back

`Written` says what a printed text looks like, whatever expression it stands for: how its pieces may
stand beside each other. Such a text is read as its lexemes, the lexemes derive the expression, and
so reading gives back every canonical expression whose integers can be written at all.
-/

namespace Stencil

namespace Piece

/-- The lexemes that stand between two operands. -/
def Links (l : Lexeme) : Prop :=
  l = .punctuation '?' ∨ l = .punctuation ':' ∨ ∃ op k, l = .operator op ∧ op.level? = some k

/-- The marks that enclose a list. -/
def Encloses (opening closing : Char) : Prop :=
  opening = '(' ∧ closing = ')' ∨ opening = '[' ∧ closing = ']' ∨ opening = '{' ∧ closing = '}'

/-- The pieces of a printed text whose quoted texts are as `S` says. The first argument tells
whether a point, a bracket or a parenthesis may follow. -/
inductive Written (S : String → Prop) : Bool → List Piece → Prop
  | nil {extends? : Bool} : Written S extends? []
  | name {s : String} (hs : Expr.isIdentifier s = true) : Written S true [.lexeme (.name s)]
  | aliasName {s : String} (hs : Expr.isIdentifier s = true) :
    Written S true [.lexeme (.aliasName s)]
  | attributeName {s : String} (hs : Expr.isIdentifier s = true) :
    Written S true [.lexeme (.attributeName s)]
  | int {n : Nat} (hn : n < 10 ^ integerDigitLimit) : Written S false [.lexeme (.int n)]
  | text {s : String} (hs : S s) : Written S false [.lexeme (.text s)]
  | unary {b : Bool} {op : Operator} {ps : List Piece} (hop : op.isUnary = true)
    (hps : Written S b ps) : Written S false (sign op :: ps)
  | between {b c : Bool} {l : Lexeme} {ps qs : List Piece} (hl : Links l) (hps : Written S b ps)
    (hqs : Written S c qs) : Written S false (between l ps qs)
  | comma {b c : Bool} {ps qs : List Piece} (hps : Written S b ps) (hqs : Written S c qs) :
    Written S false (ps ++ mark ',' :: .space :: qs)
  | keyed {b : Bool} {key : String} {ps : List Piece} (hkey : S key) (hps : Written S b ps) :
    Written S false (keyed key ps)
  | enclosed {b : Bool} {opening closing : Char} {ps qs : List Piece}
    (hmarks : Encloses opening closing) (hps : Written S true ps) (hqs : Written S b qs) :
    Written S true (ps ++ mark opening :: (qs ++ [mark closing]))
  | member {s : String} {ps : List Piece} (hps : Written S true ps)
    (hs : Expr.isIdentifier s = true) :
    Written S true (ps ++ [mark '.', .lexeme (.name s)])

/-! ## Written texts are read as their lexemes -/

/-- The characters that may follow a written text. -/
def soft (extends? : Bool) (c : Char) : Bool :=
  [' ', ',', ')', ']', '}'].contains c || extends? && ['.', '(', '[', '{'].contains c

/-- The text is empty or starts with a character that may follow. -/
def Softly (extends? : Bool) (cs : List Char) : Prop :=
  ∀ c ∈ cs.head?, soft extends? c = true

theorem Softly.weaken {b : Bool} {cs : List Char} (h : Softly false cs) : Softly b cs := by
  intro c hc
  have hsoft := h c hc
  simp only [soft, Bool.false_and, Bool.or_false] at hsoft
  rw [soft, hsoft, Bool.true_or]

theorem softly_cons {b : Bool} {c : Char} {cs : List Char} (h : soft b c = true) :
    Softly b (c :: cs) := by
  intro d hd
  obtain rfl : c = d := by simpa using hd
  exact h

/-- What may follow a written text is a space, a mark that closes or separates, or behind a place
also what extends it. -/
theorem soft_cases {b : Bool} {c : Char} (h : soft b c = true) :
    c = ' ' ∨ c = ',' ∨ c = ')' ∨ c = ']' ∨ c = '}' ∨
      b = true ∧ (c = '.' ∨ c = '(' ∨ c = '[' ∨ c = '{') := by
  simpa [soft, or_assoc] using h

/-- What may follow continues neither a name nor an operator. -/
theorem soft_not_name {b : Bool} {c : Char} (h : soft b c = true) :
    Token.isNameRest c = false ∧ c ≠ '=' := by
  obtain rfl | rfl | rfl | rfl | rfl | ⟨-, rfl | rfl | rfl | rfl⟩ := soft_cases h <;> decide

theorem soft_endsNumber {c : Char} (h : soft false c = true) : Token.endsNumber c = true := by
  obtain rfl | rfl | rfl | rfl | rfl | ⟨hfalse, -⟩ := soft_cases h
  all_goals first | decide +kernel | cases hfalse

/-- The text is read as the lexemes, and its first character makes no longer operator. -/
def Reads (cs : List Char) (ls : List Lexeme) : Prop :=
  Token.Lexes cs ls ∧ ∀ c ∈ cs.head?, c ≠ '='

section

variable {S : String → Prop} {b : Bool} {cs : List Char} {ls : List Lexeme}

theorem softly_not_name (h : Softly b cs) : ∀ c ∈ cs.head?, Token.isNameRest c = false :=
  fun c hc => (soft_not_name (h c hc)).1

theorem reads_space (h : Token.Lexes cs ls) : Reads (' ' :: cs) ls :=
  ⟨h.space, by simp⟩

theorem reads_mark {c : Char} (hc : Token.isPunctuation c = true) (hpoint : c ≠ '.')
    (h : Token.Lexes cs ls) : Reads (c :: cs) (.punctuation c :: ls) := by
  refine ⟨(Token.takes_punctuation hc fun h => absurd h hpoint).lexes h, ?_⟩
  have hne : c ≠ '=' := by
    rintro rfl
    cases hc
  simpa using hne

theorem reads_text (s : String) (h : Token.Lexes cs ls) :
    Reads (spelling (.text s) ++ cs) (.text s :: ls) := by
  refine ⟨?_, by simp [spelling]⟩
  simpa [spelling] using (Token.takes_text s cs).lexes h

/-- A name is read as a word of its own. -/
theorem reads_name {s : String} (hs : Expr.isIdentifier s = true) (hcs : Softly b cs)
    (h : Token.Lexes cs ls) : Reads (s.toList ++ cs) (.name s :: ls) := by
  refine ⟨(Token.takes_name hs (softly_not_name hcs)).lexes h, ?_⟩
  obtain ⟨c, more, heq, hc⟩ := Token.exists_of_isIdentifier hs
  have hne := (Token.isNameStart_only hc).2.2.2.2.2.2.2
  simpa [heq] using hne

/-- A short integer is read as it is printed. -/
theorem reads_int {n : Nat} (hn : n < 10 ^ integerDigitLimit) (hcs : Softly false cs)
    (h : Token.Lexes cs ls) : Reads (Nat.toDigits 10 n ++ cs) (.int n :: ls) := by
  refine ⟨(Token.takes_int hn fun c hc => soft_endsNumber (hcs c hc)).lexes h, ?_⟩
  obtain ⟨c, more, heq, -, hne, -⟩ := Token.exists_of_toDigits n
  simpa [heq] using hne

/-- A link stands between spaces. -/
theorem reads_link {l : Lexeme} (hl : Links l) (h : Token.Lexes cs ls) :
    Reads (' ' :: (spelling l ++ ' ' :: cs)) (l :: ls) := by
  refine reads_space ?_
  obtain rfl | rfl | ⟨op, k, rfl, -⟩ := hl
  · exact (reads_mark rfl (by decide) h.space).1
  · exact (reads_mark rfl (by decide) h.space).1
  · exact (Token.takes_operator op (by simp)).lexes h.space

theorem encloses_marks {opening closing : Char} (h : Encloses opening closing) :
    Token.isPunctuation opening = true ∧ opening ≠ '.' ∧ soft true opening = true ∧
      Token.isPunctuation closing = true ∧ closing ≠ '.' ∧ soft false closing = true := by
  obtain ⟨rfl, rfl⟩ | ⟨rfl, rfl⟩ | ⟨rfl, rfl⟩ := h <;> decide

/-- A written text is read as its lexemes, in front of whatever may follow it. -/
theorem Written.reads {ps : List Piece} (h : Written S b ps) :
    ∀ {cs : List Char} {ls : List Lexeme}, Token.Lexes cs ls → Softly b cs →
      Reads (spelled ps ++ cs) (lexemes ps ++ ls) := by
  induction h with
  | nil =>
    intro cs ls hlexes hsoft
    exact ⟨hlexes, fun c hc => (soft_not_name (hsoft c hc)).2⟩
  | name hs =>
    intro cs ls hlexes hsoft
    simpa [chars, spelling] using reads_name hs hsoft hlexes
  | aliasName hs =>
    intro cs ls hlexes hsoft
    refine ⟨?_, by simp [chars, spelling]⟩
    simpa [chars, spelling] using (Token.takes_aliasName hs (softly_not_name hsoft)).lexes hlexes
  | attributeName hs =>
    intro cs ls hlexes hsoft
    refine ⟨?_, by simp [chars, spelling]⟩
    simpa [chars, spelling] using
      (Token.takes_attributeName hs (softly_not_name hsoft)).lexes hlexes
  | int hn =>
    intro cs ls hlexes hsoft
    simpa [chars, spelling] using reads_int hn hsoft hlexes
  | @text s hs =>
    intro cs ls hlexes hsoft
    simpa [chars] using reads_text s hlexes
  | @unary b op ps hop hps ih =>
    intro cs ls hlexes hsoft
    obtain ⟨hread, hhead⟩ := ih hlexes hsoft.weaken
    have htakes := (Token.takes_operator op hhead).lexes hread
    refine ⟨by simpa [chars, spelling] using htakes, ?_⟩
    cases op <;> simp [Operator.isUnary] at hop <;> simp [chars, spelling, Operator.symbol]
  | between hl hps hqs ihp ihq =>
    intro cs ls hlexes hsoft
    have hright := (ihq hlexes hsoft.weaken).1
    have hlink := (reads_link hl hright).1
    simpa [Piece.between, chars] using ihp hlink (softly_cons rfl)
  | comma hps hqs ihp ihq =>
    intro cs ls hlexes hsoft
    have hright := (ihq hlexes hsoft.weaken).1
    have hcomma := (reads_mark (c := ',') rfl (by decide) hright.space).1
    simpa [chars, spelling] using ihp hcomma (softly_cons rfl)
  | @keyed b key ps hkey hps ih =>
    intro cs ls hlexes hsoft
    have hvalue := (ih hlexes hsoft.weaken).1
    have hcolon := (reads_mark (c := ':') rfl (by decide) hvalue.space).1
    simpa [Piece.keyed, chars, spelling] using reads_text key hcolon
  | enclosed hmarks hps hqs ihp ihq =>
    intro cs ls hlexes hsoft
    obtain ⟨hopening, hopenPoint, hopenSoft, hclosing, hclosePoint, hcloseSoft⟩ :=
      encloses_marks hmarks
    have hclose := (reads_mark hclosing hclosePoint hlexes).1
    have hinside := (ihq hclose (softly_cons hcloseSoft).weaken).1
    have hopen := (reads_mark hopening hopenPoint hinside).1
    simpa [chars, spelling] using ihp hopen (softly_cons hopenSoft)
  | @member s ps hps hs ih =>
    intro cs ls hlexes hsoft
    have hname := (reads_name hs hsoft hlexes).1
    obtain ⟨c, more, heq, hc⟩ := Token.exists_of_isIdentifier hs
    have hdigit : Text.isDigit c = false := (Token.isNameStart_only hc).2.1
    have hpoint := (Token.takes_punctuation (c := '.') rfl (by simpa [heq] using hdigit)).lexes hname
    simpa [chars, spelling] using ih hpoint (softly_cons rfl)

/-! ## Printed expressions are written -/

/-- The pieces are a written text of one kind or the other. -/
def IsWritten (S : String → Prop) (ps : List Piece) : Prop :=
  ∃ b, Written S b ps

/-- Marks around a written text make it one that can be extended. -/
theorem isWritten_enclosed {opening closing : Char} {ps : List Piece}
    (hmarks : Encloses opening closing) (h : IsWritten S ps) :
    Written S true (mark opening :: (ps ++ [mark closing])) := by
  obtain ⟨b, hps⟩ := h
  simpa using Written.enclosed hmarks .nil hps

theorem isWritten_grouped {ps : List Piece} (needed : Bool) (h : IsWritten S ps) :
    IsWritten S (grouped needed ps) := by
  unfold grouped
  split
  · exact ⟨true, isWritten_enclosed (.inl ⟨rfl, rfl⟩) h⟩
  · exact h

/-- Written texts with commas between them are written. -/
theorem isWritten_separated {pss : List (List Piece)} (h : ∀ ps ∈ pss, IsWritten S ps) :
    IsWritten S (separated pss) := by
  induction pss with
  | nil => exact ⟨true, .nil⟩
  | cons ps more ih =>
    obtain ⟨b, hps⟩ := h ps List.mem_cons_self
    obtain ⟨c, hmore⟩ := ih fun qs hqs => h qs (List.mem_cons_of_mem ps hqs)
    cases more with
    | nil => exact ⟨b, hps⟩
    | cons qs more => exact ⟨false, .comma hps hmore⟩

theorem Written.dotted {ps : List Piece} {names : List String} (h : Written S true ps)
    (hnames : ∀ s ∈ names, Expr.isIdentifier s = true) : Written S true (ps ++ dotted names) := by
  induction names generalizing ps with
  | nil => simpa [Piece.dotted] using h
  | cons name names ih =>
    have hmember := Written.member h (hnames name List.mem_cons_self)
    simpa [Piece.dotted] using ih hmember fun s hs => hnames s (List.mem_cons_of_mem name hs)

end

end Piece

open Piece

variable {S : String → Prop}

/-- Every printed constant is written. -/
theorem isWritten_of_plain {v : Value} (h : v.Plain Token.Short S) : IsWritten S v.pieces := by
  induction h with
  | null => exact ⟨true, .name rfl⟩
  | bool b => cases b <;> exact ⟨true, .name rfl⟩
  | @int n hn =>
    unfold Value.pieces
    split
    · exact ⟨false, .unary rfl (.int hn)⟩
    · exact ⟨false, .int hn⟩
  | text hs => exact ⟨false, .text hs⟩
  | @list vs _ ih =>
    refine ⟨true, isWritten_enclosed (.inr (.inl ⟨rfl, rfl⟩)) (isWritten_separated ?_)⟩
    intro ps hps
    rw [Expr.value_itemPieces_eq_map, List.map_map] at hps
    obtain ⟨v, hv, rfl⟩ := List.mem_map.1 hps
    rw [Function.comp_apply, Expr.piecesAt_literal (by decide)]
    exact ih v hv
  | @object fields _ hkeys _ ih =>
    refine ⟨true, isWritten_enclosed (.inr (.inr ⟨rfl, rfl⟩)) (isWritten_separated ?_)⟩
    intro ps hps
    rw [Expr.value_fieldPieces_eq_map, Expr.constantMembers, List.map_map] at hps
    obtain ⟨field, hfield, rfl⟩ := List.mem_map.1 hps
    rw [Function.comp_apply, Expr.piecesAt_literal (by decide)]
    obtain ⟨b, hvalue⟩ := ih field hfield
    exact ⟨false, .keyed (hkeys field hfield) hvalue⟩

namespace Expr

theorem isWritten_itemPieces {es : List Expr} (h : ∀ e ∈ es, IsWritten S e.pieces) :
    IsWritten S (separated (itemPieces es)) := by
  refine isWritten_separated ?_
  intro ps hps
  rw [itemPieces_eq_map] at hps
  obtain ⟨e, he, rfl⟩ := List.mem_map.1 hps
  exact isWritten_grouped _ (h e he)

theorem isWritten_memberPieces {ms : List (String × Expr)} (hkeys : ∀ m ∈ ms, S m.1)
    (h : ∀ m ∈ ms, IsWritten S m.2.pieces) : IsWritten S (separated (memberPieces ms)) := by
  refine isWritten_separated ?_
  intro ps hps
  rw [memberPieces_eq_map] at hps
  obtain ⟨m, hm, rfl⟩ := List.mem_map.1 hps
  obtain ⟨b, hvalue⟩ := isWritten_grouped (decide (m.2.level < 1)) (h m hm)
  exact ⟨false, .keyed (hkeys m hm) hvalue⟩

/-- A printed path is written, and it can be extended. -/
theorem written_path {name : String} {names : List String} (hname : isIdentifier name = true)
    (hnames : ∀ s ∈ names, isIdentifier s = true) : Written S true (segments (name :: names)) :=
  (Written.name hname).dotted hnames

/-- A canonical expression prints as a written text, and a place as one that can be extended. -/
theorem Canonical.isWritten {e : Expr} (h : Canonical Token.Short S e) :
    IsWritten S e.pieces ∧ (e.isPlace = true → Written S true e.pieces) := by
  have of_place {ps : List Piece} {e : Expr} (h : Written S true ps) :
      IsWritten S ps ∧ (e.isPlace = true → Written S true ps) := ⟨⟨true, h⟩, fun _ => h⟩
  have of_other {ps : List Piece} {e : Expr} (h : IsWritten S ps) (he : e.isPlace = false) :
      IsWritten S ps ∧ (e.isPlace = true → Written S true ps) :=
    ⟨h, fun hplace => absurd (he.symm.trans hplace) Bool.false_ne_true⟩
  induction h with
  | literal hv => exact of_other (isWritten_of_plain hv) rfl
  | path hname _ _ hnames => exact of_place (written_path hname hnames)
  | relative hnames => exact of_place ((Written.name rfl).dotted hnames)
  | aliasPath hname hnames =>
    refine of_place ((Written.aliasName ?_).dotted hnames)
    simpa using hname
  | attributePath hname hnames => exact of_place ((Written.attributeName hname).dotted hnames)
  | brackets hplace _ _ hafter hbefore hinside =>
    obtain ⟨b, hgrouped⟩ := isWritten_grouped _ hinside.1
    have hplace' := Written.dotted
      (.enclosed (.inr (.inl ⟨rfl, rfl⟩)) (hbefore.2 hplace) hgrouped) hafter
    refine of_place ?_
    simpa [pieces] using hplace'
  | call _ _ hafter hnames hargs =>
    obtain ⟨b, hlist⟩ := isWritten_itemPieces fun e he => (hargs e he).1
    have hplace' := (Written.enclosed (.inl ⟨rfl, rfl⟩) (hnames.2 rfl) hlist).dotted hafter
    refine of_place ?_
    simpa [pieces] using hplace'
  | unary hop _ _ ih =>
    obtain ⟨b, hoperand⟩ := isWritten_grouped _ ih.1
    exact of_other ⟨false, .unary hop hoperand⟩ rfl
  | binary hop _ _ hleft hright =>
    obtain ⟨b, hl⟩ := isWritten_grouped _ hleft.1
    obtain ⟨c, hr⟩ := isWritten_grouped _ hright.1
    exact of_other ⟨false, .between (.inr (.inr ⟨_, _, rfl, hop⟩)) hl hr⟩ rfl
  | choice _ _ _ htest hyes hno =>
    obtain ⟨b, ht⟩ := isWritten_grouped _ htest.1
    obtain ⟨c, hy⟩ := isWritten_grouped _ hyes.1
    obtain ⟨d, hn⟩ := isWritten_grouped _ hno.1
    exact of_other ⟨false, .between (.inl rfl) ht (.between (.inr (.inl rfl)) hy hn)⟩ rfl
  | array _ _ ih =>
    have hlist := isWritten_itemPieces fun e he => (ih e he).1
    exact of_other ⟨true, isWritten_enclosed (.inr (.inl ⟨rfl, rfl⟩)) hlist⟩ rfl
  | object _ hkeys _ ih =>
    have hlist := isWritten_memberPieces hkeys fun m hm => (ih m hm).1
    exact of_other ⟨true, isWritten_enclosed (.inr (.inr ⟨rfl, rfl⟩)) hlist⟩ rfl
  | sequence _ ih =>
    exact of_other (isWritten_itemPieces fun e he => (ih e he).1) rfl

/-! ## Reading back -/

/-- A text whose lexemes derive an expression is read as it. -/
theorem read_of_lexes {source : String} {e : Expr} {ls : List Lexeme}
    (hlexes : Token.Lexes source.toList ls) (hderives : Derives (.sequence e) ls) :
    Expr.read source = .ok e := by
  obtain ⟨tokens, htokens, hlexemes⟩ := hlexes 0
  obtain ⟨pre, last, rfl, rfl, hlast⟩ := List.map_eq_append_iff.1 hlexemes
  obtain ⟨⟨_, position⟩, _, rfl, rfl, hnil⟩ := List.map_eq_cons_iff.1 hlast
  obtain rfl := List.map_eq_nil_iff.1 hnil
  have hread : Token.read source = .ok (pre ++ [⟨.stop, position⟩]) := htokens
  simp only [Expr.read, hread]
  exact ofTokens_of_derives hderives

/-- A canonical expression is read back from its printed text. -/
theorem Canonical.read_print {e : Expr} (h : Canonical Token.Short S e) :
    Expr.read e.print = .ok e := by
  obtain ⟨b, hwritten⟩ := h.isWritten.1
  have hlexes := (hwritten.reads Token.lexes_nil (fun c hc => by simp at hc)).1
  rw [List.append_nil, List.append_nil] at hlexes
  refine read_of_lexes ?_ h.derives
  simpa [print] using hlexes

/-- Reading undoes printing, for every canonical expression without floating-point numbers whose
integers have no more digits than the language takes. -/
theorem read_print_of_canonical (e : Expr) (h : Canonical Token.Short (fun _ => True) e) :
    Expr.read e.print = .ok e :=
  h.read_print

/-- An operation with a sign, a quoted text and a sequence. -/
theorem read_print_negated_call :
    Canonical Token.Short (fun _ => True)
        (.binary .mul (.unary .sub (.call ["f"] [.literal (.text "it's")] []))
          (.sequence [.path ["a", "b"], .literal (.int (-2))])) ∧
      Expr.read "-f('it\\'s') * (a.b, -2)" =
        .ok (.binary .mul (.unary .sub (.call ["f"] [.literal (.text "it's")] []))
          (.sequence [.path ["a", "b"], .literal (.int (-2))])) := by
  have hcanonical : Canonical Token.Short (fun _ => True)
      (.binary .mul (.unary .sub (.call ["f"] [.literal (.text "it's")] []))
        (.sequence [.path ["a", "b"], .literal (.int (-2))])) := by
    refine .binary (k := 5) rfl (.unary rfl rfl (.call ?_ ?_ (by simp))) (.sequence ?_)
    · exact .path rfl rfl (by decide) (by simp)
    · simpa using .literal (.text trivial)
    · simp only [List.mem_cons, List.not_mem_nil, or_false, forall_eq_or_imp, forall_eq]
      exact ⟨.path rfl rfl (by decide) (by simp; rfl),
        .literal (.int (Token.short_of_lt_ten (by decide)))⟩
  have hprint : print (.binary .mul (.unary .sub (.call ["f"] [.literal (.text "it's")] []))
      (.sequence [.path ["a", "b"], .literal (.int (-2))])) = "-f('it\\'s') * (a.b, -2)" := by
    decide +kernel
  refine ⟨hcanonical, ?_⟩
  rw [← hprint]
  exact read_print_of_canonical _ hcanonical

theorem toList_print_nat (n : Nat) : (print (.literal (.int n))).toList = Nat.toDigits 10 n := by
  have hneg : ¬ (n : Int) < 0 := Int.not_lt.2 (Int.natCast_nonneg n)
  simp only [print, String.toList_ofList, pieces, Value.pieces, hneg, if_false, Int.natAbs_natCast,
    spelled_cons, spelled_nil, chars, spelling, List.append_nil]

/-- An integer of too many digits is printed but not read. -/
theorem read_print_long {n : Nat} (hn : 10 ^ integerDigitLimit ≤ n) :
    ∃ cause, Expr.read (print (.literal (.int n))) = .error cause := by
  refine ⟨.longInteger (Nat.toDigits 10 n).length, ?_⟩
  rw [Expr.read, Token.read, toList_print_nat, Token.readFrom_long hn]

/-- The limit on digits is needed: the least integer beyond it is canonical, and its printed text
is refused. -/
theorem not_forall_read_print :
    ¬ ∀ e : Expr, Canonical (fun _ => True) (fun _ => True) e → Expr.read e.print = .ok e := by
  intro hall
  have hread := hall (.literal (.int (10 ^ integerDigitLimit : Nat))) (.literal (.int trivial))
  obtain ⟨cause, hlong⟩ := read_print_long (Nat.le_refl (10 ^ integerDigitLimit))
  rw [hlong] at hread
  cases hread

end Expr

end Stencil
