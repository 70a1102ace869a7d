import Mathlib.Algebra.Group.Nat.Defs
import Stencil.Proofs.Expr.Acceptance
import Stencil.Proofs.Expr.PrintedPhrases

/-!
# Spelled lexemes are read back

The tokenizer reads each lexeme back from its spelling, provided that the next character does not
belong to it. `Lexes` says which lexemes a text is read as; it is built up from the end of the text,
one lexeme or space at a time.
-/

namespace Stencil.Token

/-! ## Characters -/

/-- What holds of all characters below a bound holds of each of them. -/
theorem forall_ascii {P : Char → Prop} (h : ∀ n < 128, P (Char.ofNat n)) {c : Char}
    (hc : c.toNat < 128) : P c := by
  simpa [Char.ofNat_toNat] using h c.toNat hc

theorem isAlpha_of_isLower {c : Char} (h : c.isLower = true) : c.isAlpha = true :=
  Bool.or_eq_true_iff.2 (.inr h)

theorem toNat_lt_of_isLower {c : Char} (h : c.isLower = true) : c.toNat < 128 := by
  have hle : c.val ≤ 'z'.val := of_decide_eq_true (Bool.and_eq_true_iff.1 h).2
  exact Nat.lt_of_le_of_lt (UInt32.le_iff_toNat_le.1 hle) (by decide)

theorem toNat_lt_of_isAlpha {c : Char} (h : c.isAlpha = true) : c.toNat < 128 := by
  obtain h | h := Bool.or_eq_true_iff.1 h
  · have hle : c.val ≥ 'A'.val ∧ c.val ≤ 'Z'.val := of_decide_eq_true h
    exact Nat.lt_of_le_of_lt (UInt32.le_iff_toNat_le.1 hle.2) (by decide)
  · exact toNat_lt_of_isLower h

theorem toNat_lt_of_isNameRest {c : Char} (h : isNameRest c = true) : c.toNat < 128 := by
  simp only [isNameRest, Char.isAlphanum, Char.isDigit, Bool.or_eq_true, Bool.and_eq_true,
    decide_eq_true_eq, beq_iff_eq, UInt32.le_iff_toNat_le] at h
  obtain (((h | h) | rfl) | rfl) := h
  · exact toNat_lt_of_isAlpha h
  · exact Nat.lt_of_le_of_lt h.2 (by decide)
  · decide
  · decide

theorem isNameRest_of_isNameStart {c : Char} (h : isNameStart c = true) : isNameRest c = true := by
  simp only [isNameStart, isNameRest, Char.isAlphanum, Bool.or_eq_true] at h ⊢
  obtain (h | h) | h := h
  · exact .inl (.inl (.inl h))
  · exact .inl (.inr h)
  · exact .inr h

/-- A character that starts a name starts nothing else. -/
theorem isNameStart_only {c : Char} (h : isNameStart c = true) :
    Text.isBlank c = false ∧ Text.isDigit c = false ∧ c ≠ '.' ∧ c ≠ '\'' ∧ c ≠ '"' ∧ c ≠ '#' ∧
      c ≠ '@' ∧ c ≠ '=' := by
  have hascii := toNat_lt_of_isNameRest (isNameRest_of_isNameStart h)
  revert h
  refine forall_ascii (P := fun c => isNameStart c = true → Text.isBlank c = false ∧
    Text.isDigit c = false ∧ c ≠ '.' ∧ c ≠ '\'' ∧ c ≠ '"' ∧ c ≠ '#' ∧ c ≠ '@' ∧ c ≠ '=') ?_ hascii
  decide

theorem toNat_lt_of_isDigit {c : Char} (h : c.isDigit = true) : c.toNat < 128 := by
  simp only [Char.isDigit, Bool.and_eq_true, decide_eq_true_eq, UInt32.le_iff_toNat_le] at h
  exact Nat.lt_of_le_of_lt h.2 (by decide)

/-- The digits of the decimal notation are digits of the language, with their own values. -/
theorem digitValue?_of_isDigit {c : Char} (h : c.isDigit = true) :
    Text.digitValue? c = some (c.toNat - '0'.toNat) ∧ Text.isBlank c = false ∧ c ≠ '.' ∧ c ≠ '=' := by
  have hascii := toNat_lt_of_isDigit h
  revert h
  refine forall_ascii (P := fun c => c.isDigit = true →
    Text.digitValue? c = some (c.toNat - '0'.toNat) ∧ Text.isBlank c = false ∧ c ≠ '.' ∧ c ≠ '=')
    ?_ hascii
  decide

theorem isDecimal_of_isDigit {c : Char} (h : c.isDigit = true) : Text.isDecimal c = true := by
  rw [Text.isDecimal, (digitValue?_of_isDigit h).1]
  rfl

/-! ## Stretches of a text -/

section

variable {α : Type} {p : α → Bool} {xs rest : List α}

theorem takeWhile_append_stop (hxs : ∀ x ∈ xs, p x = true) (hrest : ∀ x ∈ rest.head?, p x = false) :
    (xs ++ rest).takeWhile p = xs := by
  rw [List.takeWhile_append_of_pos hxs]
  cases rest with
  | nil => simp
  | cons x rest => simp [hrest x rfl]

theorem dropWhile_append_stop (hxs : ∀ x ∈ xs, p x = true) (hrest : ∀ x ∈ rest.head?, p x = false) :
    (xs ++ rest).dropWhile p = rest := by
  rw [List.dropWhile_append_of_pos hxs]
  cases rest with
  | nil => simp
  | cons x rest => simp [hrest x rfl]

end

/-- A name is taken whole in front of a character that cannot continue it. -/
theorem name?_append {name : String} {rest : List Char} (hname : Expr.isIdentifier name = true)
    (hrest : ∀ c ∈ rest.head?, isNameRest c = false) :
    name? (name.toList ++ rest) = some (name.toList, rest) := by
  unfold Expr.isIdentifier at hname
  split at hname
  · cases hname
  · rename_i c cs heq
    simp only [Bool.and_eq_true, List.all_eq_true] at hname
    rw [heq, List.cons_append]
    simp only [name?, hname.1, if_true, takeWhile_append_stop hname.2 hrest,
      dropWhile_append_stop hname.2 hrest]

/-- The first character of a name. -/
theorem exists_of_isIdentifier {name : String} (h : Expr.isIdentifier name = true) :
    ∃ c cs, name.toList = c :: cs ∧ isNameStart c = true := by
  unfold Expr.isIdentifier at h
  split at h
  · cases h
  · rename_i c cs heq
    simp only [Bool.and_eq_true] at h
    exact ⟨c, cs, heq, h.1⟩

theorem textRest?_quote (rest : List Char) : textRest? '\'' ('\'' :: rest) = some ([], rest) := by
  unfold textRest?
  simp

theorem textRest?_plain {c : Char} (hslash : c ≠ '\\') (hquote : c ≠ '\'') (cs : List Char) :
    textRest? '\'' (c :: cs) = (textRest? '\'' cs).map fun (value, rest) => (c :: value, rest) := by
  rw [textRest?.eq_def]
  simp [hslash, hquote]

theorem textRest?_backslash (c : Char) (cs : List Char) :
    textRest? '\'' ('\\' :: c :: cs) =
      (textRest? '\'' cs).map fun (value, rest) => (unescape c :: value, rest) := by
  rw [textRest?.eq_def]
  simp

/-- A text in quotes is read back, whatever characters it has. -/
theorem textRest?_escaped (cs rest : List Char) :
    textRest? '\'' (cs.flatMap Piece.escaped ++ '\'' :: rest) = some (cs, rest) := by
  induction cs with
  | nil => exact textRest?_quote rest
  | cons c cs ih =>
    rw [List.flatMap_cons, List.append_assoc]
    by_cases hescape : c = '\\' ∨ c = '\''
    · have hsame : unescape c = c := by
        obtain rfl | rfl := hescape <;> rfl
      simp [Piece.escaped, hescape, textRest?_backslash, ih, hsame]
    · obtain ⟨hslash, hquote⟩ := not_or.1 hescape
      simp [Piece.escaped, hslash, hquote, textRest?_plain, ih]

/-! ## Digits -/

theorem isDigit_toDigits (n : Nat) : ∀ c ∈ Nat.toDigits 10 n, c.isDigit = true :=
  fun _ hc => Nat.isDigit_of_mem_toDigits (by decide) (by decide) hc

/-- A number is read back from its digits. -/
theorem digitsValue_toDigits (n : Nat) : Text.digitsValue (Nat.toDigits 10 n) = n := by
  have hfold : ∀ (cs : List Char) (m : Nat), (∀ c ∈ cs, c.isDigit = true) →
      cs.foldl (fun n c => 10 * n + (Text.digitValue? c).getD 0) m = Nat.ofDigitChars 10 cs m := by
    intro cs
    induction cs with
    | nil => simp
    | cons c cs ih =>
      intro m hcs
      have hc := (digitValue?_of_isDigit (hcs c List.mem_cons_self)).1
      rw [List.foldl_cons, ih _ fun d hd => hcs d (List.mem_cons_of_mem c hd), hc,
        Nat.ofDigitChars_cons, Option.getD_some]
  rw [Text.digitsValue, hfold _ 0 (isDigit_toDigits n), Nat.ofDigitChars_ten_toDigits]

/-- The integers that the language can write: longer ones are refused. -/
def Short (n : Int) : Prop :=
  n.natAbs < 10 ^ integerDigitLimit

theorem short_of_lt_ten {n : Int} (h : n.natAbs < 10) : Short n := by
  have hle : 10 ^ 1 ≤ 10 ^ integerDigitLimit := Nat.pow_le_pow_right (by decide) (by decide)
  exact Nat.lt_of_lt_of_le h hle

/-- The digits are few enough exactly if the number is below a power of ten. -/
theorem length_toDigits_le_iff {n : Nat} :
    (Nat.toDigits 10 n).length ≤ integerDigitLimit ↔ n < 10 ^ integerDigitLimit :=
  Nat.length_toDigits_le_iff (by decide) (by decide)

/-- What may follow an integer without changing it. -/
def endsNumber (c : Char) : Bool :=
  !Text.isDecimal c && c != '.' && c != 'e' && c != 'E'

/-- An integer is read back or refused, by the number of its digits. -/
theorem number_toDigits (n : Nat) {rest : List Char}
    (hrest : ∀ c ∈ rest.head?, endsNumber c = true) :
    number (Nat.toDigits 10 n ++ rest) =
      if integerDigitLimit < (Nat.toDigits 10 n).length then
        .error (.longInteger (Nat.toDigits 10 n).length)
      else .ok (.int n, rest) := by
  have hdecimal : ∀ c ∈ Nat.toDigits 10 n, Text.isDecimal c = true :=
    fun c hc => isDecimal_of_isDigit (isDigit_toDigits n c hc)
  have hstop : ∀ c ∈ rest.head?, Text.isDecimal c = false := by
    intro c hc
    have := hrest c hc
    simp only [endsNumber, Bool.and_eq_true, Bool.not_eq_true'] at this
    exact this.1.1.1
  have hwhole := takeWhile_append_stop hdecimal hstop
  have hafter := dropWhile_append_stop hdecimal hstop
  have hexponent : exponent? rest = none := by
    cases rest with
    | nil => rfl
    | cons c cs =>
      have := hrest c rfl
      simp_all [exponent?, endsNumber]
  simp only [number, hwhole, hafter]
  split
  · have hpoint := hrest '.' rfl
    simp [endsNumber] at hpoint
  · simp [Nat.toDigits_ne_nil, hexponent, digitsValue_toDigits]

/-! ## One lexeme -/

/-- A lexeme is read from the front of a text, which then goes on with `rest`. -/
def Takes (l : Lexeme) (rest cs : List Char) : Prop :=
  ∃ c more, cs = c :: more ∧ Text.isBlank c = false ∧
    ∀ position, next position c more = .ok (l, rest)

theorem startsNumber_eq_false {c : Char} (hdigit : Text.isDigit c = false) (hpoint : c ≠ '.')
    (cs : List Char) : startsNumber (c :: cs) = false := by
  unfold startsNumber
  split
  · rename_i heq
    exact absurd (List.cons.inj heq).1 hpoint
  · rename_i heq
    rw [← (List.cons.inj heq).1, hdigit]
  · rfl

theorem takes_name {name : String} {rest : List Char} (hname : Expr.isIdentifier name = true)
    (hrest : ∀ c ∈ rest.head?, isNameRest c = false) :
    Takes (.name name) rest (name.toList ++ rest) := by
  obtain ⟨c, cs, heq, hc⟩ := exists_of_isIdentifier hname
  obtain ⟨hblank, hdigit, hpoint, hsingle, hdouble, halias, hattribute, -⟩ := isNameStart_only hc
  have hread := name?_append hname hrest
  rw [heq, List.cons_append] at hread ⊢
  refine ⟨c, cs ++ rest, rfl, hblank, fun position => ?_⟩
  simp [next, startsNumber_eq_false hdigit hpoint, hsingle, hdouble, halias, hattribute, hread,
    ← heq]

theorem takes_aliasName {name : String} {rest : List Char} (hname : Expr.isIdentifier name = true)
    (hrest : ∀ c ∈ rest.head?, isNameRest c = false) :
    Takes (.aliasName name) rest ('#' :: (name.toList ++ rest)) := by
  have hread := name?_append hname hrest
  have hnumber : startsNumber ('#' :: (name.toList ++ rest)) = false :=
    startsNumber_eq_false (by decide) (by decide) _
  refine ⟨'#', _, rfl, by decide, fun position => ?_⟩
  simp [next, hnumber, hread]

theorem takes_attributeName {name : String} {rest : List Char}
    (hname : Expr.isIdentifier name = true) (hrest : ∀ c ∈ rest.head?, isNameRest c = false) :
    Takes (.attributeName name) rest ('@' :: (name.toList ++ rest)) := by
  have hread := name?_append hname hrest
  have hnumber : startsNumber ('@' :: (name.toList ++ rest)) = false :=
    startsNumber_eq_false (by decide) (by decide) _
  refine ⟨'@', _, rfl, by decide, fun position => ?_⟩
  simp [next, hnumber, hread]

/-- A printed text is taken, whatever follows it. -/
theorem takes_text (s : String) (rest : List Char) :
    Takes (.text s) rest ('\'' :: (s.toList.flatMap Piece.escaped ++ '\'' :: rest)) := by
  have hnumber := startsNumber_eq_false (c := '\'') (by decide) (by decide)
    (s.toList.flatMap Piece.escaped ++ '\'' :: rest)
  refine ⟨'\'', _, rfl, by decide, fun position => ?_⟩
  simp [next, hnumber, textRest?_escaped]

/-- The digits of a number start with one. -/
theorem exists_of_toDigits (n : Nat) : ∃ c cs, Nat.toDigits 10 n = c :: cs ∧
    Text.isBlank c = false ∧ c ≠ '=' ∧ ∀ rest, startsNumber (c :: rest) = true := by
  obtain ⟨c, cs, heq⟩ := List.exists_cons_of_ne_nil (Nat.toDigits_ne_nil (n := n) (b := 10))
  have hc := isDigit_toDigits n c (heq ▸ List.mem_cons_self)
  obtain ⟨-, hblank, hpoint, hequal⟩ := digitValue?_of_isDigit hc
  refine ⟨c, cs, heq, hblank, hequal, fun rest => ?_⟩
  unfold startsNumber
  split
  · rename_i h
    exact absurd (List.cons.inj h).1 hpoint
  · rename_i h
    rw [← (List.cons.inj h).1, Text.isDigit, isDecimal_of_isDigit hc, Bool.true_or]
  · rename_i h
    cases h

/-- A short integer is taken in front of what ends a number. -/
theorem takes_int {n : Nat} {rest : List Char} (hn : n < 10 ^ integerDigitLimit)
    (hrest : ∀ c ∈ rest.head?, endsNumber c = true) :
    Takes (.int n) rest (Nat.toDigits 10 n ++ rest) := by
  have hread := number_toDigits n hrest
  rw [if_neg (Nat.not_lt.2 (length_toDigits_le_iff.2 hn))] at hread
  obtain ⟨c, cs, heq, hblank, -, hstarts⟩ := exists_of_toDigits n
  rw [heq, List.cons_append] at hread ⊢
  exact ⟨c, cs ++ rest, rfl, hblank, fun position => by simp [next, hstarts, hread]⟩

/-- Only an equals sign makes a longer operator out of one. -/
theorem operator?_append (op : Operator) {rest : List Char} (hrest : ∀ c ∈ rest.head?, c ≠ '=') :
    operator? (op.symbol.toList ++ rest) = some (op, rest) := by
  cases rest with
  | nil => cases op <;> rfl
  | cons d rest =>
    have hd : '=' ≠ d := (hrest d rfl).symm
    cases op <;>
      simp [operator?, Operator.all, Operator.symbol, List.findSome?, hd, ← String.length_toList]

/-- The first character of an operator starts no other kind of lexeme. -/
theorem exists_of_symbol (op : Operator) : ∃ c cs, op.symbol.toList = c :: cs ∧
    Text.isBlank c = false ∧ Text.isDigit c = false ∧ isNameStart c = false ∧ c ≠ '.' ∧
      c ≠ '\'' ∧ c ≠ '"' ∧ c ≠ '#' ∧ c ≠ '@' := by
  cases op <;> exact ⟨_, _, rfl, by decide⟩

/-- An operator is taken unless an equals sign makes a longer one. -/
theorem takes_operator (op : Operator) {rest : List Char} (hrest : ∀ c ∈ rest.head?, c ≠ '=') :
    Takes (.operator op) rest (op.symbol.toList ++ rest) := by
  have hread := operator?_append op hrest
  obtain ⟨c, cs, heq, hblank, hdigit, hname, hpoint, hsingle, hdouble, halias, hattribute⟩ :=
    exists_of_symbol op
  rw [heq, List.cons_append] at hread ⊢
  refine ⟨c, cs ++ rest, rfl, hblank, fun position => ?_⟩
  simp [next, startsNumber_eq_false hdigit hpoint, hsingle, hdouble, halias, hattribute, name?,
    hname, hread]

theorem isPunctuation_cases {c : Char} (h : isPunctuation c = true) :
    c = '.' ∨ c = ',' ∨ c = ':' ∨ c = '?' ∨ c = '(' ∨ c = ')' ∨ c = '[' ∨ c = ']' ∨ c = '{' ∨
      c = '}' := by
  simpa [isPunctuation] using h

/-- Punctuation marks start no other kind of lexeme; but a point may start a number. -/
theorem isPunctuation_only {c : Char} (h : isPunctuation c = true) :
    Text.isBlank c = false ∧ Text.isDigit c = false ∧ isNameStart c = false ∧ c ≠ '\'' ∧ c ≠ '"' ∧
      c ≠ '#' ∧ c ≠ '@' := by
  obtain rfl | rfl | rfl | rfl | rfl | rfl | rfl | rfl | rfl | rfl := isPunctuation_cases h <;>
    decide

theorem operator?_of_isPunctuation {c : Char} (h : isPunctuation c = true) (rest : List Char) :
    operator? (c :: rest) = none := by
  obtain rfl | rfl | rfl | rfl | rfl | rfl | rfl | rfl | rfl | rfl := isPunctuation_cases h <;>
    simp [operator?, Operator.all, Operator.symbol, List.findSome?]

/-- Punctuation is taken unless a point begins a number. -/
theorem takes_punctuation {c : Char} {rest : List Char} (hc : isPunctuation c = true)
    (hpoint : c = '.' → ∀ d ∈ rest.head?, Text.isDigit d = false) :
    Takes (.punctuation c) rest (c :: rest) := by
  obtain ⟨hblank, hdigit, hname, hsingle, hdouble, halias, hattribute⟩ := isPunctuation_only hc
  have hoperator := operator?_of_isPunctuation hc rest
  have hnumber : startsNumber (c :: rest) = false := by
    unfold startsNumber
    split
    · rename_i d more heq
      obtain ⟨rfl, rfl⟩ := List.cons.inj heq
      exact hpoint rfl d rfl
    · rename_i heq
      rw [← (List.cons.inj heq).1, hdigit]
    · rfl
  refine ⟨c, rest, rfl, hblank, fun position => ?_⟩
  simp [next, hnumber, hsingle, hdouble, halias, hattribute, name?, hname, hoperator, hc]

/-! ## A whole text -/

/-- The text is read as the lexemes, with the end after them. -/
def Lexes (cs : List Char) (ls : List Lexeme) : Prop :=
  ∀ position, ∃ tokens, readFrom position cs = .ok tokens ∧
    tokens.map Token.lexeme = ls ++ [.stop]

theorem readFrom_of_nil {cs : List Char} (h : Text.skipBlanks cs = []) (position : Nat) :
    readFrom position cs = .ok [⟨.stop, position + cs.length⟩] := by
  rw [readFrom.eq_def]
  split
  · rfl
  · simp_all

theorem readFrom_of_cons {cs rest : List Char} {c : Char} (h : Text.skipBlanks cs = c :: rest)
    {position start : Nat} (hstart : start = position + (cs.length - (c :: rest).length)) :
    readFrom position cs =
      match next start c rest with
      | .error e => .error e
      | .ok (lexeme, after) =>
        match readFrom (start + ((c :: rest).length - after.length)) after with
        | .error e => .error e
        | .ok tokens => .ok (⟨lexeme, start⟩ :: tokens) := by
  subst hstart
  rw [readFrom.eq_def]
  split
  · simp_all
  · rename_i heq
    obtain ⟨rfl, rfl⟩ := List.cons.inj (heq.symm.trans h)
    dsimp only
    split
    · rename_i hnext
      simp only [hnext]
    · rename_i hnext
      split
      · rename_i hafter
        simp only [hnext, hafter]
      · rename_i hafter
        simp only [hnext, hafter]

theorem readFrom_blank {c : Char} (hc : Text.isBlank c = true) (position : Nat) (cs : List Char) :
    readFrom position (c :: cs) = readFrom (position + 1) cs := by
  have hskip : Text.skipBlanks (c :: cs) = Text.skipBlanks cs := by
    simp [Text.skipBlanks, hc]
  have hle : (Text.skipBlanks cs).length ≤ cs.length := dropWhile_length_le _ _
  cases h : Text.skipBlanks cs with
  | nil =>
    rw [readFrom_of_nil (hskip.trans h), readFrom_of_nil h, List.length_cons]
    congr 3
    omega
  | cons d rest =>
    rw [h] at hle
    rw [readFrom_of_cons h rfl]
    refine readFrom_of_cons (hskip.trans h) ?_
    simp only [List.length_cons] at hle ⊢
    omega

theorem lexes_nil : Lexes [] [] := by
  intro position
  exact ⟨_, readFrom_of_nil rfl position, rfl⟩

/-- Blanks in front of a text do not change its lexemes. -/
theorem Lexes.blanks {gap cs : List Char} {ls : List Lexeme} (h : Lexes cs ls)
    (hgap : ∀ c ∈ gap, Text.isBlank c = true) : Lexes (gap ++ cs) ls := by
  induction gap with
  | nil => exact h
  | cons c gap ih =>
    obtain ⟨hc, hgap⟩ := List.forall_mem_cons.1 hgap
    intro position
    obtain ⟨tokens, htokens, hlexemes⟩ := ih hgap (position + 1)
    exact ⟨tokens, (readFrom_blank hc position _).trans htokens, hlexemes⟩

theorem Lexes.space {cs : List Char} {ls : List Lexeme} (h : Lexes cs ls) : Lexes (' ' :: cs) ls := by
  have hgap : ∀ c ∈ [' '], Text.isBlank c = true := by simp [Text.isBlank_space]
  exact h.blanks hgap

/-- One lexeme more in front of those of the rest. -/
theorem Takes.lexes {l : Lexeme} {rest cs : List Char} {ls : List Lexeme} (h : Takes l rest cs)
    (hrest : Lexes rest ls) : Lexes cs (l :: ls) := by
  intro position
  obtain ⟨c, more, rfl, hblank, hnext⟩ := h
  have hskip : Text.skipBlanks (c :: more) = c :: more := by
    simp [Text.skipBlanks, hblank]
  obtain ⟨tokens, htokens, hlexemes⟩ := hrest (position + ((c :: more).length - rest.length))
  refine ⟨⟨l, position⟩ :: tokens, ?_, by simp [hlexemes]⟩
  rw [readFrom_of_cons hskip (Eq.symm (by simp) : position = _), hnext]
  simp only [htokens]

/-- An integer with more digits than the limit is refused. -/
theorem readFrom_long {n : Nat} (hn : 10 ^ integerDigitLimit ≤ n) (position : Nat) :
    readFrom position (Nat.toDigits 10 n) =
      .error (.longInteger (Nat.toDigits 10 n).length) := by
  have hread := @number_toDigits n [] (by simp)
  have hlong : integerDigitLimit < (Nat.toDigits 10 n).length := by
    refine Nat.lt_of_not_le fun hle => ?_
    exact Nat.not_lt.2 hn (length_toDigits_le_iff.1 hle)
  rw [if_pos hlong, List.append_nil] at hread
  obtain ⟨c, cs, heq, hblank, -, hstarts⟩ := exists_of_toDigits n
  have hskip : Text.skipBlanks (Nat.toDigits 10 n) = c :: cs := by
    simp [heq, Text.skipBlanks, hblank]
  have hnext : ∀ start, next start c cs = .error (.longInteger (Nat.toDigits 10 n).length) := by
    intro start
    rw [next, if_pos (hstarts cs), ← heq, hread]
  rw [readFrom_of_cons hskip rfl, hnext]

end Stencil.Token
