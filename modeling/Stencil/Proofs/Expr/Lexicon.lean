import Stencil.Proofs.Expr.Subexpressions
import Stencil.Proofs.Expr.Spelling
import Stencil.Proofs.Text.Blank

/-!
# The lexical grammar

`Spelled l ink rest` says that the characters `ink` spell the lexeme `l` when the text goes on with
`rest`: a number, a name or an operator must not go on itself. It is stated apart from the
tokenizer, which takes exactly what it allows (`next_eq_ok_iff`). Of the text that follows, a lexeme
sees no more than the characters before the next blank, comma or closing mark: `Breaks` compares two
texts up to there, and `Spelled.breaks` carries a spelling from one to the other.
-/

namespace Stencil

/-- An equals sign makes a longer operator out of these. -/
def Operator.grows : Operator → Bool
  | .eq | .ne | .lt | .gt | .not => true
  | _ => false

namespace Token

open Text (head?_dropWhile_eq_false)

/-! ## Spellings -/

/-- The text starts with a whole exponent. -/
def StartsExponent (cs : List Char) : Prop :=
  ∃ mark sign d more, (mark = 'e' ∨ mark = 'E') ∧ sign ∈ [[], ['+'], ['-']] ∧
    Text.isDecimal d = true ∧ cs = mark :: (sign ++ d :: more)

/-- The exponent in front of `rest`, if there is one, and its value. -/
inductive Exponent : List Char → Int → List Char → Prop
  | absent {rest : List Char} (hrest : ∀ c ∈ rest.head?, Text.isDecimal c = false)
    (hnone : ¬ StartsExponent rest) : Exponent [] 0 rest
  | present {mark : Char} {sign ds rest : List Char} (hmark : mark = 'e' ∨ mark = 'E')
    (hsign : sign ∈ [[], ['+'], ['-']]) (hne : ds ≠ []) (hds : ∀ c ∈ ds, Text.isDecimal c = true)
    (hrest : ∀ c ∈ rest.head?, Text.isDecimal c = false) :
    Exponent (mark :: (sign ++ ds))
      (if sign = ['-'] then -(Text.digitsValue ds : Int) else Text.digitsValue ds) rest

/-- The numbers: an integer, a number with a point, and one without that has an exponent. -/
inductive Numeral : Lexeme → List Char → List Char → Prop
  | int {ds rest : List Char} (hne : ds ≠ []) (hds : ∀ c ∈ ds, Text.isDecimal c = true)
    (hlimit : ds.length ≤ integerDigitLimit) (hexponent : Exponent [] 0 rest)
    (hpoint : '.' ∉ rest.head?) : Numeral (.int (Text.digitsValue ds)) ds rest
  | pointed {whole fraction exponent rest : List Char} {e : Int}
    (hne : whole ≠ [] ∨ fraction ≠ []) (hwhole : ∀ c ∈ whole, Text.isDecimal c = true)
    (hfraction : ∀ c ∈ fraction, Text.isDecimal c = true) (hexponent : Exponent exponent e rest) :
    Numeral (.float (.ofDigits false whole fraction e)) (whole ++ '.' :: (fraction ++ exponent))
      rest
  | scaled {whole exponent rest : List Char} {e : Int} (hne : whole ≠ [])
    (hwhole : ∀ c ∈ whole, Text.isDecimal c = true) (hexponent : Exponent exponent e rest)
    (hpresent : exponent ≠ []) :
    Numeral (.float (.ofDigits false whole [] e)) (whole ++ exponent) rest

/-- What stands between two quotes, and the text that it denotes. -/
inductive Quoted (mark : Char) : List Char → List Char → Prop
  | nil : Quoted mark [] []
  | plain {c : Char} {body value : List Char} (hmark : c ≠ mark) (hslash : c ≠ '\\')
    (h : Quoted mark body value) : Quoted mark (c :: body) (c :: value)
  | escaped {c : Char} {body value : List Char} (h : Quoted mark body value) :
    Quoted mark ('\\' :: c :: body) (unescape c :: value)

/-- The characters that spell a lexeme in front of a text. -/
inductive Spelled : Lexeme → List Char → List Char → Prop
  | number {l : Lexeme} {ink rest : List Char} (h : Numeral l ink rest) : Spelled l ink rest
  | text {mark : Char} {body value rest : List Char} (hmark : mark = '\'' ∨ mark = '"')
    (hbody : Quoted mark body value) :
    Spelled (.text (String.ofList value)) (mark :: (body ++ [mark])) rest
  | aliasName {s : String} {rest : List Char} (hs : Expr.isIdentifier s = true)
    (hrest : ∀ c ∈ rest.head?, isNameRest c = false) :
    Spelled (.aliasName s) ('#' :: s.toList) rest
  | attributeName {s : String} {rest : List Char} (hs : Expr.isIdentifier s = true)
    (hrest : ∀ c ∈ rest.head?, isNameRest c = false) :
    Spelled (.attributeName s) ('@' :: s.toList) rest
  | name {s : String} {rest : List Char} (hs : Expr.isIdentifier s = true)
    (hrest : ∀ c ∈ rest.head?, isNameRest c = false) : Spelled (.name s) s.toList rest
  | operator {op : Operator} {rest : List Char} (hrest : '=' ∈ rest.head? → op.grows = false) :
    Spelled (.operator op) op.symbol.toList rest
  | punctuation {c : Char} {rest : List Char} (hc : isPunctuation c = true)
    (hpoint : c = '.' → ∀ d ∈ rest.head?, Text.isDigit d = false) :
    Spelled (.punctuation c) [c] rest

section

variable {c : Char} {cs ink rest : List Char} {l : Lexeme}

/-! ## What the readers take -/

theorem forall_mem_takeWhile {p : Char → Bool} : ∀ x ∈ cs.takeWhile p, p x = true :=
  List.all_eq_true.1 List.all_takeWhile

theorem isDecimal_not_sign {d : Char} (h : Text.isDecimal d = true) : d ≠ '-' ∧ d ≠ '+' := by
  constructor
  · exact ne_of_apply_ne Text.isDecimal (by rw [h]; decide +kernel)
  · exact ne_of_apply_ne Text.isDecimal (by rw [h]; decide +kernel)

theorem exists_sign (cs : List Char) : ∃ sign, sign ∈ [[], ['+'], ['-']] ∧
    cs = sign ++ (signed cs).2 ∧ ((signed cs).1 = true ↔ sign = ['-']) := by
  unfold signed
  split
  · exact ⟨['-'], by decide, rfl, by simp⟩
  · exact ⟨['+'], by decide, rfl, by simp⟩
  · exact ⟨[], by decide, rfl, by simp⟩

theorem signed_append {sign ds : List Char} (hsign : sign ∈ [[], ['+'], ['-']]) (hne : ds ≠ [])
    (hds : ∀ c ∈ ds, Text.isDecimal c = true) (rest : List Char) :
    signed (sign ++ (ds ++ rest)) = (decide (sign = ['-']), ds ++ rest) := by
  obtain ⟨d, ds, rfl⟩ := List.exists_cons_of_ne_nil hne
  obtain ⟨hminus, hplus⟩ := isDecimal_not_sign (hds d List.mem_cons_self)
  simp only [List.mem_cons, List.not_mem_nil, or_false] at hsign
  obtain rfl | rfl | rfl := hsign
  · unfold signed
    split
    · rename_i heq
      exact absurd (List.cons.inj heq).1 hminus
    · rename_i heq
      exact absurd (List.cons.inj heq).1 hplus
    · rfl
  · rfl
  · rfl

theorem exponent?_append {mark : Char} {sign ds : List Char} (hmark : mark = 'e' ∨ mark = 'E')
    (hsign : sign ∈ [[], ['+'], ['-']]) (hne : ds ≠ [])
    (hds : ∀ c ∈ ds, Text.isDecimal c = true)
    (hrest : ∀ c ∈ rest.head?, Text.isDecimal c = false) :
    exponent? (mark :: (sign ++ (ds ++ rest))) = some (decide (sign = ['-']), ds, rest) := by
  simp [exponent?, hmark, signed_append hsign hne hds rest, takeWhile_append_stop hds hrest,
    dropWhile_append_stop hds hrest, hne]

/-- An exponent that is found is written out in the text. -/
theorem exists_of_exponent? {negative : Bool} {ds : List Char}
    (h : exponent? cs = some (negative, ds, rest)) :
    ∃ mark sign, (mark = 'e' ∨ mark = 'E') ∧ sign ∈ [[], ['+'], ['-']] ∧ ds ≠ [] ∧
      (∀ c ∈ ds, Text.isDecimal c = true) ∧ (∀ c ∈ rest.head?, Text.isDecimal c = false) ∧
      (negative = true ↔ sign = ['-']) ∧ cs = mark :: (sign ++ (ds ++ rest)) := by
  cases cs with
  | nil => cases h
  | cons mark cs =>
    simp only [exponent?] at h
    split at h
    · rename_i hmark
      split at h
      · cases h
      · rename_i hempty
        obtain ⟨rfl, hds⟩ := Prod.mk.inj (Option.some.inj h)
        obtain ⟨rfl, rfl⟩ := Prod.mk.inj hds
        obtain ⟨sign, hsign, hcs, hnegative⟩ := exists_sign cs
        refine ⟨mark, sign, hmark, hsign, by simpa using hempty, forall_mem_takeWhile,
          head?_dropWhile_eq_false _ _, hnegative, ?_⟩
        rw [List.takeWhile_append_dropWhile, ← hcs]
    · cases h

/-- No exponent is read exactly where none starts. -/
theorem exponent?_eq_none_iff : exponent? cs = none ↔ ¬ StartsExponent cs := by
  constructor
  · rintro h ⟨mark, sign, d, more, hmark, hsign, hd, rfl⟩
    have hsplit : d :: more =
        d :: more.takeWhile Text.isDecimal ++ more.dropWhile Text.isDecimal := by
      rw [List.cons_append, List.takeWhile_append_dropWhile]
    have hds : ∀ c ∈ d :: more.takeWhile Text.isDecimal, Text.isDecimal c = true :=
      List.forall_mem_cons.2 ⟨hd, forall_mem_takeWhile⟩
    rw [hsplit, exponent?_append hmark hsign (List.cons_ne_nil _ _) hds
      (head?_dropWhile_eq_false _ _)] at h
    cases h
  · intro h
    cases hsome : exponent? cs with
    | none => rfl
    | some found =>
      obtain ⟨negative, ds, rest⟩ := found
      obtain ⟨mark, sign, hmark, hsign, hne, hds, -, -, rfl⟩ := exists_of_exponent? hsome
      obtain ⟨d, ds, rfl⟩ := List.exists_cons_of_ne_nil hne
      exact absurd ⟨mark, sign, d, ds ++ rest, hmark, hsign, hds d List.mem_cons_self, rfl⟩ h

/-- After the digits of a number the exponent is read as it is spelled. -/
theorem exists_of_floatLexeme_eq (whole fraction : List Char)
    (hcs : ∀ c ∈ cs.head?, Text.isDecimal c = false) :
    ∃ exponent e rest, cs = exponent ++ rest ∧ Exponent exponent e rest ∧
      (exponent = [] ↔ exponent? cs = none) ∧
      floatLexeme whole fraction cs = (.float (.ofDigits false whole fraction e), rest) := by
  cases h : exponent? cs with
  | none =>
    refine ⟨[], 0, cs, rfl, .absent hcs (exponent?_eq_none_iff.1 h), by simp, ?_⟩
    simp [floatLexeme, h]
  | some found =>
    obtain ⟨negative, ds, rest⟩ := found
    obtain ⟨mark, sign, hmark, hsign, hne, hds, hrest, hnegative, rfl⟩ := exists_of_exponent? h
    refine ⟨mark :: (sign ++ ds), _, rest, by simp, .present hmark hsign hne hds hrest,
      by simp, ?_⟩
    simp only [floatLexeme, h, hnegative]

theorem floatLexeme_append (whole fraction : List Char) {exponent : List Char} {e : Int}
    (h : Exponent exponent e rest) :
    floatLexeme whole fraction (exponent ++ rest) =
      (.float (.ofDigits false whole fraction e), rest) := by
  cases h with
  | absent hrest hnone =>
    simp [floatLexeme, exponent?_eq_none_iff.2 hnone]
  | present hmark hsign hne hds hrest =>
    have hread := exponent?_append hmark hsign hne hds hrest
    simp only [List.cons_append, List.append_assoc, floatLexeme, hread, decide_eq_true_eq]

/-- The digits that a number starts with, and what is read after them. -/
theorem exists_of_number_eq (h : number cs = .ok (l, rest)) :
    ∃ ink, cs = ink ++ rest ∧ Numeral l ink rest := by
  have hcs := List.takeWhile_append_dropWhile (p := Text.isDecimal) (l := cs)
  have hwhole : ∀ c ∈ cs.takeWhile Text.isDecimal, Text.isDecimal c = true := forall_mem_takeWhile
  have hafter : ∀ c ∈ (cs.dropWhile Text.isDecimal).head?, Text.isDecimal c = false :=
    head?_dropWhile_eq_false _ _
  simp only [number] at h
  generalize cs.takeWhile Text.isDecimal = whole at *
  split at h
  · rename_i more hmore
    split at h
    · cases h
    · rename_i hne
      obtain ⟨exponent, e, rest', hrest, hexponent, -, hfloat⟩ :=
        exists_of_floatLexeme_eq whole (more.takeWhile Text.isDecimal)
          (head?_dropWhile_eq_false Text.isDecimal more)
      rw [hfloat] at h
      obtain ⟨rfl, rfl⟩ := Prod.mk.inj (Except.ok.inj h)
      refine ⟨whole ++ '.' :: (more.takeWhile Text.isDecimal ++ exponent), ?_, ?_⟩
      · rw [← hcs, hmore, List.append_assoc, List.cons_append, List.append_assoc, ← hrest,
          List.takeWhile_append_dropWhile]
      · refine .pointed ?_ hwhole forall_mem_takeWhile hexponent
        simpa [Classical.or_iff_not_imp_left] using hne
  · rename_i after hpoint
    split at h
    · cases h
    · rename_i hne
      obtain ⟨exponent, e, rest', hrest, hexponent, hnone, hfloat⟩ :=
        exists_of_floatLexeme_eq whole [] hafter
      split at h
      · rename_i hsome
        rw [hfloat] at h
        obtain ⟨rfl, rfl⟩ := Prod.mk.inj (Except.ok.inj h)
        refine ⟨whole ++ exponent, by rw [← hcs, hrest, List.append_assoc], ?_⟩
        refine .scaled (by simpa using hne) hwhole hexponent ?_
        rw [Ne, hnone]
        exact Option.isSome_iff_ne_none.1 hsome
      · rename_i hsome
        split at h
        · cases h
        · rename_i hlimit
          obtain ⟨rfl, rfl⟩ := Prod.mk.inj (Except.ok.inj h)
          refine ⟨whole, hcs.symm, .int (by simpa using hne) hwhole (Nat.not_lt.1 hlimit) ?_ ?_⟩
          · exact .absent hafter (exponent?_eq_none_iff.1 (by simpa using hsome))
          · intro hdot
            obtain ⟨more, hmore⟩ := List.head?_eq_some_iff.1 (Option.mem_def.1 hdot)
            exact hpoint more hmore

theorem Exponent.head?_append {exponent : List Char} {e : Int} (h : Exponent exponent e rest) :
    ∀ c ∈ (exponent ++ rest).head?, Text.isDecimal c = false := by
  cases h with
  | absent hrest hnone => exact hrest
  | present hmark hsign hne hds hrest =>
    intro c hc
    obtain rfl : _ = c := Option.some.inj hc
    obtain rfl | rfl := hmark <;> decide +kernel

/-- A number is read in front of any text that does not continue it. -/
theorem number_append (h : Numeral l ink rest) : number (ink ++ rest) = .ok (l, rest) := by
  cases h with
  | int hne hds hlimit hexponent hpoint =>
    cases hexponent with
    | absent hrest hnone =>
      simp only [number, takeWhile_append_stop hds hrest, dropWhile_append_stop hds hrest]
      split
      · exact absurd rfl hpoint
      · simp [hne, exponent?_eq_none_iff.2 hnone, Nat.not_lt.2 hlimit]
  | @pointed whole fraction exponent _ e hne hwhole hfraction hexponent =>
    have hstop : ∀ c ∈ ('.' :: (fraction ++ (exponent ++ rest))).head?,
        Text.isDecimal c = false := by
      simp only [List.head?_cons, Option.mem_def, Option.some.injEq, forall_eq']
      decide +kernel
    have hempty : (whole.isEmpty && fraction.isEmpty) = false := by
      simpa [Classical.or_iff_not_imp_left] using hne
    simp only [List.append_assoc, List.cons_append, number, takeWhile_append_stop hwhole hstop,
      dropWhile_append_stop hwhole hstop, takeWhile_append_stop hfraction hexponent.head?_append,
      dropWhile_append_stop hfraction hexponent.head?_append, hempty,
      floatLexeme_append whole fraction hexponent]
    simp
  | @scaled whole exponent _ e hne hwhole hexponent hpresent =>
    have hfloat := floatLexeme_append whole [] hexponent
    simp only [List.append_assoc, number, takeWhile_append_stop hwhole hexponent.head?_append,
      dropWhile_append_stop hwhole hexponent.head?_append]
    cases hexponent with
    | absent => exact absurd rfl hpresent
    | present hmark hsign hds hdecimal hrest =>
      have hread := exponent?_append hmark hsign hds hdecimal hrest
      rw [List.cons_append, List.append_assoc] at hfloat ⊢
      split
      · rename_i heq
        obtain rfl | rfl := hmark <;> exact absurd (List.cons.inj heq).1 (by decide)
      · simp [hne, hread, hfloat]

/-- The character continues no lexeme but a quoted text. -/
def Parts (c : Char) : Prop :=
  Text.isDigit c = false ∧ isNameRest c = false ∧ c ∉ ['.', '+', '-', '=']

instance : DecidablePred Parts :=
  fun _ => inferInstanceAs (Decidable (_ ∧ _ ∧ _))

theorem Parts.isDecimal_eq_false (h : Parts c) : Text.isDecimal c = false :=
  (Bool.or_eq_false_iff.1 h.1).1

theorem parts_of_isBlank (h : Text.isBlank c = true) : Parts c :=
  Text.of_isBlank h (by decide +kernel)

/-- A numeral starts with a digit, or with a point and a digit. -/
theorem Numeral.startsNumber (h : Numeral l ink rest) : ∃ c more, ink ++ rest = c :: more ∧
    Text.isBlank c = false ∧ Token.startsNumber (c :: more) = true := by
  have hdecimal {d : Char} (hd : Text.isDecimal d = true) (more : List Char) :
      Text.isBlank d = false ∧ Token.startsNumber (d :: more) = true := by
    constructor
    · refine Bool.eq_false_iff.2 fun hblank => ?_
      rw [(parts_of_isBlank hblank).isDecimal_eq_false] at hd
      cases hd
    · unfold Token.startsNumber
      split
      · rename_i heq
        rw [(List.cons.inj heq).1] at hd
        exact absurd hd (by decide +kernel)
      · rename_i heq
        rw [← (List.cons.inj heq).1, Text.isDigit, hd, Bool.true_or]
      · rename_i heq
        cases heq
  have hdigits {ds : List Char} (hne : ds ≠ []) (hds : ∀ d ∈ ds, Text.isDecimal d = true)
      (more : List Char) : ∃ c more', ds ++ more = c :: more' ∧ Text.isBlank c = false ∧
        Token.startsNumber (c :: more') = true := by
    obtain ⟨d, ds, rfl⟩ := List.exists_cons_of_ne_nil hne
    exact ⟨d, ds ++ more, rfl, hdecimal (hds d List.mem_cons_self) _⟩
  cases h with
  | int hne hds => exact hdigits hne hds _
  | @pointed whole fraction exponent _ e hne hwhole hfraction hexponent =>
    rw [List.append_assoc, List.cons_append]
    by_cases hempty : whole = []
    · subst hempty
      obtain ⟨d, ds, rfl⟩ := List.exists_cons_of_ne_nil (hne.resolve_left (· rfl))
      refine ⟨'.', _, rfl, by decide, ?_⟩
      have hd : Text.isDecimal d = true := hfraction d List.mem_cons_self
      simp [Token.startsNumber, Text.isDigit, hd]
    · exact hdigits hempty hwhole _
  | scaled hne hwhole =>
    rw [List.append_assoc]
    exact hdigits hne hwhole _

/-! ## Quoted texts -/

/-- A quoted text ends at the first quote without a backslash. -/
theorem exists_of_textRest? {mark : Char} {value : List Char}
    (h : textRest? mark cs = some (value, rest)) :
    ∃ body, cs = body ++ mark :: rest ∧ Quoted mark body value := by
  fun_induction textRest? mark cs generalizing value with
  | case1 => cases h
  | case2 cs =>
    obtain ⟨rfl, rfl⟩ := Prod.mk.inj (Option.some.inj h)
    exact ⟨[], rfl, .nil⟩
  | case3 => cases h
  | case4 c cs hmark ih =>
    obtain ⟨⟨v, r⟩, hv, he⟩ := Option.map_eq_some_iff.1 h
    obtain ⟨rfl, rfl⟩ := Prod.mk.inj he
    obtain ⟨body, rfl, hbody⟩ := ih hv
    exact ⟨'\\' :: c :: body, rfl, .escaped hbody⟩
  | case5 c cs hmark hslash ih =>
    obtain ⟨⟨v, r⟩, hv, he⟩ := Option.map_eq_some_iff.1 h
    obtain ⟨rfl, rfl⟩ := Prod.mk.inj he
    obtain ⟨body, rfl, hbody⟩ := ih hv
    exact ⟨c :: body, rfl, .plain hmark hslash hbody⟩

/-- What stands between two quotes is read as the text that it denotes. -/
theorem textRest?_append {mark : Char} {body value : List Char} (hmark : mark ≠ '\\')
    (h : Quoted mark body value) (rest : List Char) :
    textRest? mark (body ++ mark :: rest) = some (value, rest) := by
  induction h with
  | nil =>
    rw [List.nil_append, textRest?.eq_def]
    simp
  | plain hother hslash _ ih =>
    rw [List.cons_append, textRest?.eq_def]
    simp [hother, hslash, ih]
  | escaped _ ih =>
    rw [List.cons_append, List.cons_append, textRest?.eq_def]
    simp [hmark.symm, ih]

/-! ## Names and operators -/

/-- A name ends in front of a character that cannot continue it. -/
theorem eq_append_of_name? {s : List Char} (h : name? cs = some (s, rest)) :
    cs = s ++ rest ∧ ∀ c ∈ rest.head?, isNameRest c = false := by
  cases cs with
  | nil => cases h
  | cons c cs =>
    simp only [name?] at h
    split at h
    · obtain ⟨rfl, rfl⟩ := Prod.mk.inj (Option.some.inj h)
      refine ⟨?_, head?_dropWhile_eq_false _ _⟩
      rw [List.cons_append, List.takeWhile_append_dropWhile]
    · cases h

theorem eq_append_of_operator? {op : Operator} (h : operator? cs = some (op, rest)) :
    cs = op.symbol.toList ++ rest := by
  obtain ⟨op', -, hop⟩ := List.exists_of_findSome?_eq_some h
  split at hop
  · rename_i hfront
    obtain ⟨rfl, rfl⟩ := Prod.mk.inj (Option.some.inj hop)
    obtain ⟨more, rfl⟩ := List.isPrefixOf_iff_prefix.1 hfront
    rw [← String.length_toList, List.drop_left]
  · cases hop

/-- An operator is taken unless an equals sign follows that makes a longer one of it. -/
theorem operator?_append_iff (op : Operator) (rest : List Char) :
    operator? (op.symbol.toList ++ rest) = some (op, rest) ↔
      ('=' ∈ rest.head? → op.grows = false) := by
  cases rest with
  | nil => simpa using @operator?_append op [] (by simp)
  | cons d rest =>
    by_cases hd : d = '='
    · subst hd
      cases op with
      | not =>
        by_cases hstrict : ['='] <+: rest <;>
          simp [operator?, Operator.all, Operator.symbol, Operator.grows, List.findSome?, hstrict]
      | _ =>
        simp [operator?, Operator.all, Operator.symbol, Operator.grows, List.findSome?,
          ← String.length_toList]
    · simpa [hd] using @operator?_append op (d :: rest) (by simpa using hd)

/-! ## One lexeme -/

/-- What the tokenizer takes is spelled there. -/
theorem exists_of_next {position : Nat} (h : next position c cs = .ok (l, rest)) :
    ∃ ink, c :: cs = ink ++ rest ∧ Spelled l ink rest := by
  unfold next at h
  split at h
  · obtain ⟨ink, hink, hnumeral⟩ := exists_of_number_eq h
    exact ⟨ink, hink, .number hnumeral⟩
  rename_i hnumber
  split at h
  · rename_i hmark
    split at h
    · rename_i value rest' htext
      obtain ⟨rfl, rfl⟩ := Prod.mk.inj (Except.ok.inj h)
      obtain ⟨body, rfl, hbody⟩ := exists_of_textRest? htext
      exact ⟨c :: (body ++ [c]), by simp, .text hmark hbody⟩
    · cases h
  split at h
  · rename_i s rest' hname
    split at hname
    · rename_i hsigil
      obtain ⟨rfl, hrest⟩ := eq_append_of_name? hname
      have hs := isIdentifier_of_name? hname
      obtain ⟨rfl, rfl⟩ := Prod.mk.inj (Except.ok.inj h)
      obtain rfl | rfl := hsigil
      · exact ⟨'#' :: s, rfl, by simpa using Spelled.aliasName hs hrest⟩
      · exact ⟨'@' :: s, rfl, by simpa using Spelled.attributeName hs hrest⟩
    · cases hname
  split at h
  · rename_i s rest' hname
    obtain ⟨hcs, hrest⟩ := eq_append_of_name? hname
    have hs := isIdentifier_of_name? hname
    obtain ⟨rfl, rfl⟩ := Prod.mk.inj (Except.ok.inj h)
    exact ⟨s, hcs, by simpa using Spelled.name hs hrest⟩
  split at h
  · rename_i op rest' hop
    have hcs := eq_append_of_operator? hop
    obtain ⟨rfl, rfl⟩ := Prod.mk.inj (Except.ok.inj h)
    rw [hcs] at hop
    exact ⟨_, hcs, .operator ((operator?_append_iff op _).1 hop)⟩
  split at h
  · rename_i hc
    obtain ⟨rfl, rfl⟩ := Prod.mk.inj (Except.ok.inj h)
    refine ⟨[c], rfl, .punctuation hc ?_⟩
    rintro rfl d hd
    obtain ⟨more, rfl⟩ := List.head?_eq_some_iff.1 (Option.mem_def.1 hd)
    simpa [startsNumber] using hnumber
  · cases h

/-- Each lexeme is read where it is spelled. -/
theorem Spelled.takes (h : Spelled l ink rest) : Takes l rest (ink ++ rest) := by
  cases h with
  | number h =>
    obtain ⟨c, more, heq, hblank, hstarts⟩ := h.startsNumber
    refine ⟨c, more, heq, hblank, fun position => ?_⟩
    rw [next, if_pos hstarts, ← heq, number_append h]
  | @text mark body value _ hmark hbody =>
    have hslash : mark ≠ '\\' := by
      obtain rfl | rfl := hmark <;> decide
    have hstarts : startsNumber (mark :: (body ++ mark :: rest)) = false := by
      obtain rfl | rfl := hmark <;> exact startsNumber_eq_false (by decide +kernel) (by decide) _
    refine ⟨mark, body ++ mark :: rest, by simp, ?_, fun position => ?_⟩
    · obtain rfl | rfl := hmark <;> decide
    · simp [next, hstarts, hmark, textRest?_append hslash hbody rest]
  | aliasName hs hrest => exact takes_aliasName hs hrest
  | attributeName hs hrest => exact takes_attributeName hs hrest
  | name hs hrest => exact takes_name hs hrest
  | @operator op _ hrest =>
    have hread := (operator?_append_iff op rest).2 hrest
    obtain ⟨c, cs, heq, hblank, hdigit, hname, hpoint, hsingle, hdouble, halias, hattribute⟩ :=
      exists_of_symbol op
    rw [heq, List.cons_append] at hread ⊢
    refine ⟨c, cs ++ rest, rfl, hblank, fun position => ?_⟩
    simp [next, startsNumber_eq_false hdigit hpoint, hsingle, hdouble, halias, hattribute, name?,
      hname, hread]
  | punctuation hc hpoint => exact takes_punctuation hc hpoint

/-- The tokenizer takes exactly the lexemes that are spelled at the front of the text. -/
theorem next_eq_ok_iff {position : Nat} : next position c cs = .ok (l, rest) ↔
    ∃ ink, c :: cs = ink ++ rest ∧ Spelled l ink rest := by
  refine ⟨exists_of_next, ?_⟩
  rintro ⟨ink, hink, hspelled⟩
  obtain ⟨c', cs', hcs, -, hnext⟩ := hspelled.takes
  obtain ⟨rfl, rfl⟩ := List.cons.inj (hink.trans hcs)
  exact hnext position

/-! ## What a lexeme sees of the text that follows -/

/-- The second text goes on like the first until it ends or has a character that continues no
lexeme. -/
inductive Breaks : List Char → List Char → Prop
  | ends {cs : List Char} : Breaks cs []
  | parts {c : Char} {cs rest : List Char} (hc : Parts c) : Breaks cs (c :: rest)
  | same {cs cs' : List Char} (c : Char) (h : Breaks cs cs') : Breaks (c :: cs) (c :: cs')

section

variable {cs' rest' : List Char}

theorem Breaks.append (h : Breaks cs cs') (ink : List Char) : Breaks (ink ++ cs) (ink ++ cs') := by
  induction ink with
  | nil => exact h
  | cons c ink ih => exact .same c ih

/-- The first character after a break continues no lexeme, or it is the one of the other text. -/
theorem Breaks.head? (h : Breaks cs cs') : ∀ c ∈ cs'.head?, Parts c ∨ c ∈ cs.head? := by
  cases h with
  | ends => simp
  | parts hc => simpa using .inl hc
  | same c h => simp

theorem Breaks.head?_eq_false {p : Char → Bool} (h : Breaks rest rest')
    (hp : ∀ c, Parts c → p c = false) (hrest : ∀ c ∈ rest.head?, p c = false) :
    ∀ c ∈ rest'.head?, p c = false := by
  intro c hc
  obtain hparts | hsame := h.head? c hc
  · exact hp c hparts
  · exact hrest c hsame

theorem Breaks.mem_head? {d : Char} (h : Breaks rest rest') (hd : ¬ Parts d)
    (hmem : d ∈ rest'.head?) : d ∈ rest.head? :=
  (h.head? d hmem).resolve_left hd

/-- What continues lexemes stands in both texts. -/
theorem Breaks.exists_append {ink more : List Char} (h : Breaks cs (ink ++ more))
    (hink : ∀ c ∈ ink, ¬ Parts c) : ∃ more', cs = ink ++ more' := by
  induction ink generalizing cs with
  | nil => exact ⟨cs, rfl⟩
  | cons d ink ih =>
    obtain ⟨hd, hink⟩ := List.forall_mem_cons.1 hink
    cases h with
    | parts hparts => exact absurd hparts hd
    | same _ h =>
      obtain ⟨more', rfl⟩ := ih h hink
      exact ⟨more', rfl⟩

/-- An exponent that starts behind a break starts without it. -/
theorem StartsExponent.of_breaks (h : Breaks cs cs') (hstarts : StartsExponent cs') :
    StartsExponent cs := by
  obtain ⟨mark, sign, d, more, hmark, hsign, hd, rfl⟩ := hstarts
  have hink : ∀ c ∈ mark :: (sign ++ [d]), ¬ Parts c := by
    intro c hc hparts
    simp only [List.mem_cons, List.not_mem_nil, or_false, List.mem_append] at hc hsign
    obtain rfl | hc | rfl := hc
    · obtain rfl | rfl := hmark <;> exact absurd hparts (by decide +kernel)
    · obtain rfl | rfl | rfl := hsign
      · cases hc
      · exact hparts.2.2 (by simp_all)
      · exact hparts.2.2 (by simp_all)
    · rw [hparts.isDecimal_eq_false] at hd
      cases hd
  have hsplit : mark :: (sign ++ d :: more) = mark :: (sign ++ [d]) ++ more := by simp
  rw [hsplit] at h
  obtain ⟨more', rfl⟩ := h.exists_append hink
  exact ⟨mark, sign, d, more', hmark, hsign, hd, by simp⟩

theorem Exponent.breaks {exponent : List Char} {e : Int} (h : Exponent exponent e rest)
    (hbreaks : Breaks rest rest') : Exponent exponent e rest' := by
  have hstops := hbreaks.head?_eq_false fun _ => Parts.isDecimal_eq_false
  cases h with
  | absent hrest hnone =>
    exact .absent (hstops hrest) fun hstarts => hnone (hstarts.of_breaks hbreaks)
  | present hmark hsign hne hds hrest => exact .present hmark hsign hne hds (hstops hrest)

/-- A number does not see what stands behind a break. -/
theorem Numeral.breaks (h : Numeral l ink rest) (hbreaks : Breaks rest rest') :
    Numeral l ink rest' := by
  cases h with
  | int hne hds hlimit hexponent hpoint =>
    refine .int hne hds hlimit (hexponent.breaks hbreaks) fun hmem => hpoint ?_
    exact hbreaks.mem_head? (by decide +kernel) hmem
  | pointed hne hwhole hfraction hexponent =>
    exact .pointed hne hwhole hfraction (hexponent.breaks hbreaks)
  | scaled hne hwhole hexponent hpresent =>
    exact .scaled hne hwhole (hexponent.breaks hbreaks) hpresent

/-- A spelling does not depend on what stands behind the next character that continues no lexeme. -/
theorem Spelled.breaks (h : Spelled l ink rest) (hbreaks : Breaks rest rest') :
    Spelled l ink rest' := by
  have hname := hbreaks.head?_eq_false fun _ hc => hc.2.1
  cases h with
  | number h => exact .number (h.breaks hbreaks)
  | text hmark hbody => exact .text hmark hbody
  | aliasName hs hrest => exact .aliasName hs (hname hrest)
  | attributeName hs hrest => exact .attributeName hs (hname hrest)
  | name hs hrest => exact .name hs (hname hrest)
  | operator hrest => exact .operator fun hmem => hrest (hbreaks.mem_head? (by decide +kernel) hmem)
  | punctuation hc hpoint =>
    refine .punctuation hc fun heq => ?_
    exact hbreaks.head?_eq_false (fun _ hc => hc.1) (hpoint heq)

end

end

end Token

end Stencil
