import Stencil.Error
import Stencil.Expr.Token

/-!
# Reading a text as tokens

`Token.read` splits an expression into tokens. Each reader of this module takes the text from the
first character of a lexeme and returns the lexeme with the text that follows it; `next_length`
says that something was consumed, which is why the reading ends.
-/

namespace Stencil.Token

def isNameStart (c : Char) : Bool :=
  c.isAlpha || c == '_' || c == '$'

def isNameRest (c : Char) : Bool :=
  c.isAlphanum || c == '_' || c == '$'

def name? : List Char → Option (List Char × List Char)
  | [] => none
  | c :: cs =>
    if isNameStart c then some (c :: cs.takeWhile isNameRest, cs.dropWhile isNameRest) else none

def unescape (c : Char) : Char :=
  match c with
  | 'n' => '\n'
  | 't' => '\t'
  | 'r' => '\r'
  | 'b' => Char.ofNat 0x08
  | 'f' => Char.ofNat 0x0C
  | 'v' => Char.ofNat 0x0B
  | '0' => Char.ofNat 0x00
  | c => c

/-- The rest of a text literal after its opening quote: its value and what follows the closing
quote. -/
def textRest? (mark : Char) : List Char → Option (List Char × List Char)
  | [] => none
  | c :: cs =>
    if c = mark then some ([], cs)
    else if c = '\\' then
      match cs with
      | [] => none
      | e :: cs => (textRest? mark cs).map fun (value, rest) => (unescape e :: value, rest)
    else (textRest? mark cs).map fun (value, rest) => (c :: value, rest)

/-- Whether the text starts with a minus sign, and what follows its sign. -/
def signed : List Char → Bool × List Char
  | '-' :: rest => (true, rest)
  | '+' :: rest => (false, rest)
  | rest => (false, rest)

/-- An exponent at the front of the text, if there is a whole one: whether it is negative, its
digits, and what follows. -/
def exponent? : List Char → Option (Bool × List Char × List Char)
  | [] => none
  | c :: cs =>
    if c = 'e' ∨ c = 'E' then
      let digits := (signed cs).2.takeWhile Text.isDecimal
      if digits.isEmpty then none
      else some ((signed cs).1, digits, (signed cs).2.dropWhile Text.isDecimal)
    else none

/-- A floating-point number whose exponent, if it has one, is at the front of `rest`. -/
def floatLexeme (whole fraction rest : List Char) : Lexeme × List Char :=
  match exponent? rest with
  | some (negative, ds, after) =>
    let e : Int := Text.digitsValue ds
    (.float (.ofDigits false whole fraction (if negative then -e else e)), after)
  | none => (.float (.ofDigits false whole fraction 0), rest)

/-- A number: digits with an optional point and fraction, or a point with a fraction, and then an
optional exponent. Without point and exponent it is an integer. -/
def number (cs : List Char) : Except Cause (Lexeme × List Char) :=
  let whole := cs.takeWhile Text.isDecimal
  match cs.dropWhile Text.isDecimal with
  | '.' :: more =>
    let fraction := more.takeWhile Text.isDecimal
    if whole.isEmpty && fraction.isEmpty then .error .badDigit
    else .ok (floatLexeme whole fraction (more.dropWhile Text.isDecimal))
  | rest =>
    if whole.isEmpty then .error .badDigit
    else if (exponent? rest).isSome then .ok (floatLexeme whole [] rest)
    else if integerDigitLimit < whole.length then .error (.longInteger whole.length)
    else .ok (.int (Text.digitsValue whole), rest)

def startsNumber : List Char → Bool
  | '.' :: c :: _ => Text.isDigit c
  | c :: _ => Text.isDigit c
  | [] => false

def operator? (cs : List Char) : Option (Operator × List Char) :=
  Operator.all.findSome? fun op =>
    if op.symbol.toList.isPrefixOf cs then some (op, cs.drop op.symbol.length) else none

def isPunctuation (c : Char) : Bool :=
  ['.', ',', ':', '?', '(', ')', '[', ']', '{', '}'].contains c

/-- The lexeme at the front of a text that starts, at `position`, with `c`. -/
def next (position : Nat) (c : Char) (cs : List Char) : Except Cause (Lexeme × List Char) :=
  if startsNumber (c :: cs) then number (c :: cs)
  else if c = '\'' ∨ c = '"' then
    match textRest? c cs with
    | some (value, rest) => .ok (.text (String.ofList value), rest)
    | none => .error (.openString position)
  else match (if c = '#' ∨ c = '@' then name? cs else none) with
    | some (s, rest) =>
      .ok (if c = '#' then .aliasName (String.ofList s) else .attributeName (String.ofList s), rest)
    | none => match name? (c :: cs) with
      | some (s, rest) => .ok (.name (String.ofList s), rest)
      | none => match operator? (c :: cs) with
        | some (op, rest) => .ok (.operator op, rest)
        | none =>
          if isPunctuation c then .ok (.punctuation c, cs)
          else .error (.badCharacter c position)

/-! ## Reading ends -/

theorem dropWhile_length_le {α : Type} (p : α → Bool) (xs : List α) :
    (xs.dropWhile p).length ≤ xs.length :=
  (List.dropWhile_sublist p).length_le

theorem name?_length {cs s rest : List Char} (h : name? cs = some (s, rest)) :
    rest.length < cs.length := by
  cases cs with
  | nil => simp [name?] at h
  | cons c cs =>
    simp only [name?] at h
    split at h
    · simp only [Option.some.injEq, Prod.mk.injEq] at h
      have := dropWhile_length_le isNameRest cs
      simp [← h.2]
      omega
    · simp at h

theorem textRest?_length {mark : Char} {cs value rest : List Char}
    (h : textRest? mark cs = some (value, rest)) : rest.length < cs.length := by
  fun_induction textRest? mark cs generalizing value with
  | case1 => simp at h
  | case2 cs =>
    simp only [Option.some.injEq, Prod.mk.injEq] at h
    simp [h.2]
  | case3 => simp at h
  | case4 _ e cs ih =>
    obtain ⟨⟨v, r⟩, hv, he⟩ := Option.map_eq_some_iff.1 h
    simp only [Prod.mk.injEq] at he
    have := ih (he.2 ▸ hv)
    simp only [List.length_cons]
    omega
  | case5 c cs _ _ ih =>
    obtain ⟨⟨v, r⟩, hv, he⟩ := Option.map_eq_some_iff.1 h
    simp only [Prod.mk.injEq] at he
    have := ih (he.2 ▸ hv)
    simp only [List.length_cons]
    omega

theorem signed_length (cs : List Char) : (signed cs).2.length ≤ cs.length := by
  unfold signed
  split <;> simp

theorem exponent?_length {cs ds rest : List Char} {negative : Bool}
    (h : exponent? cs = some (negative, ds, rest)) : rest.length < cs.length := by
  cases cs with
  | nil => simp [exponent?] at h
  | cons c cs =>
    simp only [exponent?] at h
    split at h
    · split at h
      · simp at h
      · simp only [Option.some.injEq, Prod.mk.injEq] at h
        have h₁ := dropWhile_length_le Text.isDecimal (signed cs).2
        have h₂ := signed_length cs
        simp only [← h.2.2, List.length_cons]
        omega
    · simp at h

theorem floatLexeme_length (whole fraction rest : List Char) :
    (floatLexeme whole fraction rest).2.length ≤ rest.length := by
  simp only [floatLexeme]
  split
  · rename_i h
    exact Nat.le_of_lt (exponent?_length h)
  · simp

theorem number_length {cs rest : List Char} {l : Lexeme} (h : number cs = .ok (l, rest)) :
    rest.length < cs.length := by
  have hsplit := congrArg List.length
    (List.takeWhile_append_dropWhile (p := Text.isDecimal) (l := cs))
  rw [List.length_append] at hsplit
  simp only [number] at h
  split at h
  · rename_i more hrest
    rw [hrest] at hsplit
    split at h
    · simp at h
    · have h₁ := floatLexeme_length (cs.takeWhile Text.isDecimal) (more.takeWhile Text.isDecimal)
        (more.dropWhile Text.isDecimal)
      have h₂ := dropWhile_length_le Text.isDecimal more
      simp only [Except.ok.injEq] at h
      rw [h] at h₁
      simp only [List.length_cons] at hsplit
      simp only at h₁
      omega
  · split at h
    · simp at h
    · rename_i hne
      have hpos : 0 < (cs.takeWhile Text.isDecimal).length := by
        cases hw : cs.takeWhile Text.isDecimal <;> simp_all
      split at h
      · have h₁ := floatLexeme_length (cs.takeWhile Text.isDecimal) []
          (cs.dropWhile Text.isDecimal)
        simp only [Except.ok.injEq] at h
        rw [h] at h₁
        simp only at h₁
        omega
      · split at h
        · simp at h
        · simp only [Except.ok.injEq, Prod.mk.injEq] at h
          rw [← h.2]
          omega

theorem operator?_length {cs rest : List Char} {op : Operator} (hne : cs ≠ [])
    (h : operator? cs = some (op, rest)) : rest.length < cs.length := by
  simp only [operator?] at h
  obtain ⟨op', _, hop⟩ := List.exists_of_findSome?_eq_some h
  split at hop
  · simp only [Option.some.injEq, Prod.mk.injEq] at hop
    have hpos : 0 < op'.symbol.length := by cases op' <;> decide
    have hcs : 0 < cs.length := List.length_pos_iff.2 hne
    rw [← hop.2, List.length_drop]
    omega
  · simp at hop

/-- Every lexeme takes at least one character, so the tokens of a text come to an end. -/
theorem next_length {position : Nat} {c : Char} {cs rest : List Char} {l : Lexeme}
    (h : next position c cs = .ok (l, rest)) : rest.length < (c :: cs).length := by
  simp only [next] at h
  split at h
  · exact number_length h
  · split at h
    · split at h
      · rename_i htext
        simp only [Except.ok.injEq, Prod.mk.injEq] at h
        have := textRest?_length htext
        simp only [← h.2, List.length_cons]
        omega
      · simp at h
    · split at h
      · rename_i hname
        simp only [Except.ok.injEq, Prod.mk.injEq] at h
        split at hname
        · have := name?_length hname
          simp only [← h.2, List.length_cons]
          omega
        · simp at hname
      · split at h
        · rename_i hname
          simp only [Except.ok.injEq, Prod.mk.injEq] at h
          have := name?_length hname
          simp only [← h.2]
          omega
        · split at h
          · rename_i hop
            simp only [Except.ok.injEq, Prod.mk.injEq] at h
            have := operator?_length (by simp) hop
            simp only [← h.2]
            omega
          · split at h
            · simp only [Except.ok.injEq, Prod.mk.injEq] at h
              simp [← h.2]
            · simp at h

/-! ## The token list -/

set_option linter.unusedVariables false in
/-- The tokens of a text that starts at `position`, with the end token last. -/
def readFrom (position : Nat) (cs : List Char) : Except Cause (List Token) :=
  match hcs : Text.skipBlanks cs with
  | [] => .ok [⟨.stop, position + cs.length⟩]
  | c :: rest =>
    let start := position + (cs.length - (c :: rest).length)
    match hnext : next start c rest with
    | .error e => .error e
    | .ok (lexeme, after) =>
      match readFrom (start + ((c :: rest).length - after.length)) after with
      | .error e => .error e
      | .ok tokens => .ok (⟨lexeme, start⟩ :: tokens)
termination_by cs.length
decreasing_by
  have h₁ := next_length hnext
  have h₂ : (Text.skipBlanks cs).length ≤ cs.length := dropWhile_length_le _ _
  rw [hcs] at h₂
  omega

def read (source : String) : Except Cause (List Token) :=
  readFrom 0 source.toList

end Stencil.Token
