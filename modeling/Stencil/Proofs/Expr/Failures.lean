import Stencil.Proofs.Expr.Gaps
import Stencil.Proofs.Expr.Stopping

/-!
# How reading an expression fails

With digits that all have a value, and no integer too long to be converted, reading an expression
either succeeds or fails with an error of the grammar. `Misread` says where: at a character that
starts no lexeme, at a quote that is not closed, or at the token where the descent stops; only a
sign before a constant that is no number has no place.
-/

namespace Stencil.Token

section

variable {c : Char} {cs more : List Char} {position : Nat} {cause : Cause}

/-- A number starts with a digit, or with a point and a digit. -/
theorem startsNumber_cases (h : startsNumber cs = true) :
    ∃ d ds, Text.isDigit d = true ∧ (cs = d :: ds ∨ cs = '.' :: d :: ds) := by
  unfold startsNumber at h
  split at h
  · exact ⟨_, _, h, .inr rfl⟩
  · exact ⟨_, _, h, .inl rfl⟩
  · cases h

/-- A number is read where one starts, unless it is an integer with too many digits. -/
theorem exists_number (hstarts : startsNumber cs = true)
    (hdigits : ∀ d ∈ cs, Text.isDigit d = true → Text.isDecimal d = true)
    (hlimit : (cs.takeWhile Text.isDecimal).length ≤ integerDigitLimit) :
    ∃ found, number cs = .ok found := by
  obtain ⟨d, ds, hd, rfl | rfl⟩ := startsNumber_cases hstarts
  · have hdecimal := hdigits d List.mem_cons_self hd
    simp only [number]
    split
    · simp [hdecimal]
    · simp only [List.takeWhile_cons_of_pos hdecimal] at hlimit ⊢
      split
      · rename_i hempty
        cases hempty
      · split
        · exact ⟨_, rfl⟩
        · rw [if_neg (Nat.not_lt.2 hlimit)]
          exact ⟨_, rfl⟩
  · have hdecimal := hdigits d (by simp) hd
    have hpoint : Text.isDecimal '.' = false := by decide +kernel
    simp [number, hpoint, hdecimal]

/-- Where no lexeme is taken, the quote or the character there is to blame. -/
theorem cause_of_next
    (hdigits : ∀ d ∈ c :: more, Text.isDigit d = true → Text.isDecimal d = true)
    (hlimit : ((c :: more).takeWhile Text.isDecimal).length ≤ integerDigitLimit)
    (hnext : next position c more = .error cause) :
    (c = '\'' ∨ c = '"') ∧ cause = .openString position ∨
      ¬ (c = '\'' ∨ c = '"') ∧ cause = .badCharacter c position := by
  unfold next at hnext
  split at hnext
  · rename_i hstarts
    obtain ⟨found, hfound⟩ := exists_number hstarts hdigits hlimit
    rw [hfound] at hnext
    cases hnext
  · split at hnext
    · rename_i hquote
      split at hnext
      · cases hnext
      · exact .inl ⟨hquote, (Except.error.inj hnext).symm⟩
    · rename_i hquote
      split at hnext
      · cases hnext
      split at hnext
      · cases hnext
      split at hnext
      · cases hnext
      split at hnext
      · cases hnext
      · exact .inr ⟨hquote, (Except.error.inj hnext).symm⟩

/-- No token stands behind the end of its text. -/
theorem Cell.position_le (offset : Nat) (ws : List Cell) :
    ∀ t ∈ Cell.tokens offset ws, t.position ≤ offset + (ws.flatMap Cell.chars).length := by
  induction ws generalizing offset with
  | nil => simp [Cell.tokens]
  | cons w ws ih =>
    have hchars : w.gap.length ≤ w.chars.length := by simp [Cell.chars]
    rw [Cell.tokens, List.forall_mem_cons, List.flatMap_cons, List.length_append]
    refine ⟨?_, fun t ht => ?_⟩
    · change offset + w.gap.length ≤ _
      omega
    · have hle := ih _ t ht
      omega

/-- No token stands behind the end of the text. -/
theorem position_le_of_read {source : String} {tokens : List Token}
    (h : Token.read source = .ok tokens) : ∀ t ∈ tokens, t.position ≤ source.length := by
  obtain ⟨ws, rest, hsource, -, -, rfl⟩ := exists_lexed_of_readFrom h
  have hlength : (ws.flatMap Cell.chars).length ≤ source.length := by
    rw [← String.length_toList, hsource, Cell.text, List.length_append]
    exact Nat.le_add_right _ _
  intro t ht
  obtain ht | ht := List.mem_append.1 ht
  · exact Nat.le_trans (Cell.position_le 0 ws t ht) (by omega)
  · obtain rfl := List.mem_singleton.1 ht
    simp only [Nat.zero_add, String.length_toList, Nat.le_refl]

/-- The text in front of a place where the tokenizer fails is read, and no lexeme is there. -/
theorem exists_stuck {source : String} (h : Token.read source = .error cause) :
    ∃ before c more, source.toList = before ++ c :: more ∧ Stuck c more ∧
      (∃ tokens, Token.read (String.ofList before) = .ok tokens) ∧
      next before.length c more = .error cause := by
  obtain ⟨ws, gap, rest, hsource, hws, hgap, rfl | ⟨c, more, rfl, hstuck⟩⟩ :=
    exists_lexed source.toList
  · rw [Token.read, hsource, readFrom_text_of_areBlank hws (by simpa using hgap)] at h
    cases h
  · have hbefore : (Cell.text ws gap).length = 0 + (ws.flatMap Cell.chars).length + gap.length := by
      simp [Cell.text]
    obtain ⟨cause', hnext, hread⟩ :=
      hstuck.exists_error hgap (0 + (ws.flatMap Cell.chars).length)
    rw [Token.read, hsource, readFrom_text hws, hread] at h
    obtain rfl := Except.error.inj h
    refine ⟨Cell.text ws gap, c, more, ?_, hstuck, ?_, hbefore ▸ hnext⟩
    · rw [hsource, Cell.text, Cell.text, List.append_assoc]
    · have hsame : List.Forall₂ Cell.Respaced ws ws :=
        List.forall₂_same.2 fun w hw => ⟨rfl, rfl, (hws.forall_mem w hw).1, id⟩
      have hread := @readFrom_text_of_areBlank gap 0 ws (hws.respaced hsame hgap) hgap
      exact ⟨_, by rw [Token.read, String.toList_ofList, hread]⟩

end

end Stencil.Token

namespace Stencil.Expr

/-- Why no expression is read from a text, and where. -/
inductive Misread (source : String) : Cause → Prop
  | character {before more : List Char} {c : Char} (hsource : source.toList = before ++ c :: more)
    (hbefore : ∃ tokens, Token.read (String.ofList before) = .ok tokens)
    (hstuck : Token.Stuck c more) (hc : ¬ (c = '\'' ∨ c = '"')) :
    Misread source (.badCharacter c before.length)
  | quote {before more : List Char} {c : Char} (hsource : source.toList = before ++ c :: more)
    (hbefore : ∃ tokens, Token.read (String.ofList before) = .ok tokens)
    (hstuck : Token.Stuck c more) (hc : c = '\'' ∨ c = '"') :
    Misread source (.openString before.length)
  | token {tokens : List Token} {cause : Cause} (htokens : Token.read source = .ok tokens)
    (hplaces : ∀ t ∈ tokens, t.position ≤ source.length)
    (h : Located StopsWhole tokens cause) : Misread source cause

variable {source : String} {cause : Cause}

/-- The tokens of a text have the end among them. -/
theorem stop_mem_of_read {tokens : List Token} (h : Token.read source = .ok tokens) :
    .stop ∈ tokens.map Token.lexeme := by
  obtain ⟨pre, last, rfl, -⟩ := Token.readFrom_eq_ok h
  simp

/-- Every failure of reading has a position, which is missing exactly if a sign did not fit. -/
theorem Misread.exists_kind (h : Misread source cause) :
    ∃ position, cause.kind = .grammar position ∧
      (position = -1 ↔ ∃ symbol v, cause = .cannotApply symbol v) := by
  have hplace (n : Nat) : (n : Int) ≠ -1 := by omega
  cases h with
  | character | quote => exact ⟨_, rfl, by simp [hplace]⟩
  | token htokens hplaces h =>
    cases h with
    | refused => exact ⟨-1, rfl, by simp⟩
    | stopped => exact ⟨_, rfl, by simp [hplace]⟩

/-- Where all digits have a value and no row of digits is too long to be converted, an expression is
read or the error is one of the grammar: it has the place of the character, of the opening quote or
of the token that it is about, and none exactly if a sign cannot be applied. Nothing behind the end
token is looked at. -/
theorem read_or_misread
    (hdigits : ∀ c ∈ source.toList, Text.isDigit c = true → Text.isDecimal c = true)
    (hruns : ∀ ds, ds <:+: source.toList → (∀ c ∈ ds, Text.isDecimal c = true) →
      ds.length ≤ integerDigitLimit) :
    ((∃ e, Expr.read source = .ok e) ∨ ∃ cause, Expr.read source = .error cause ∧
      Misread source cause ∧ ∃ position, cause.kind = .grammar position ∧
        (position = -1 ↔ ∃ symbol v, cause = .cannotApply symbol v)) ∧
      ∀ tokens, Token.read source = .ok tokens →
        ∀ more, ofTokens (tokens ++ more) = ofTokens tokens := by
  refine ⟨?_, fun tokens htokens => ofTokens_append (stop_mem_of_read htokens)⟩
  cases hread : Expr.read source with
  | ok e => exact .inl ⟨e, rfl⟩
  | error cause =>
    have hmisread : Misread source cause := by
      unfold Expr.read at hread
      split at hread
      · rename_i cause' htokens
        obtain rfl := Except.error.inj hread
        obtain ⟨before, c, more, hsource, hstuck, hbefore, hnext⟩ := Token.exists_stuck htokens
        have hinfix : (c :: more).takeWhile Text.isDecimal <:+: source.toList := by
          rw [hsource]
          exact (List.takeWhile_prefix _).isInfix.trans (List.suffix_append _ _).isInfix
        have hlimit := hruns _ hinfix Token.forall_mem_takeWhile
        have hdecimal : ∀ d ∈ c :: more, Text.isDigit d = true → Text.isDecimal d = true :=
          fun d hd => hdigits d (hsource ▸ List.mem_append_right _ hd)
        obtain ⟨hc, rfl⟩ | ⟨hc, rfl⟩ := Token.cause_of_next hdecimal hlimit hnext
        · exact .quote hsource hbefore hstuck hc
        · exact .character hsource hbefore hstuck hc
      · rename_i tokens htokens
        exact .token htokens (Token.position_le_of_read htokens)
          (located_of_ofTokens (stop_mem_of_read htokens) hread)
    exact .inr ⟨cause, rfl, hmisread, hmisread.exists_kind⟩

/-- A bracket that is left open at the end of a text. -/
theorem read_or_misread_brackets :
    (∀ c ∈ "a[1".toList, Text.isDigit c = true → Text.isDecimal c = true) ∧
      (∀ ds, ds <:+: "a[1".toList → (∀ c ∈ ds, Text.isDecimal c = true) →
        ds.length ≤ integerDigitLimit) ∧
      ((∃ e, Expr.read "a[1" = .ok e) ∨ ∃ cause, Expr.read "a[1" = .error cause ∧
        Misread "a[1" cause ∧ ∃ position, cause.kind = .grammar position ∧
          (position = -1 ↔ ∃ symbol v, cause = .cannotApply symbol v)) ∧
      ∀ tokens, Token.read "a[1" = .ok tokens →
        ∀ more, ofTokens (tokens ++ more) = ofTokens tokens := by
  have hdigits : ∀ c ∈ "a[1".toList, Text.isDigit c = true → Text.isDecimal c = true := by
    have hall : ("a[1".toList.all fun c => !Text.isDigit c || Text.isDecimal c) = true := by decide
    intro c hc hdigit
    simpa [hdigit] using List.all_eq_true.1 hall c hc
  have hruns : ∀ ds, ds <:+: "a[1".toList → (∀ c ∈ ds, Text.isDecimal c = true) →
      ds.length ≤ integerDigitLimit := by
    intro ds hds _
    exact Nat.le_trans hds.length_le (by decide)
  exact ⟨hdigits, hruns, read_or_misread hdigits hruns⟩

end Stencil.Expr
