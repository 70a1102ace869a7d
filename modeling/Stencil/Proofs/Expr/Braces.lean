import Stencil.Proofs.Braces
import Stencil.Proofs.Expr.Gaps

/-!
# The braces of an expression

The grammar opens and closes its objects in pairs, so the braces of an expression are even but for
those between quotes. A reader of lexemes may turn the characters between quotes into others, but
no brace comes or goes in that.
-/

namespace Stencil

open Braces

namespace Lexeme

def quoted : Lexeme → List Char
  | .text s => s.toList
  | _ => []

/-- The character that is a mark of the grammar. -/
def mark : Lexeme → List Char
  | .punctuation c => [c]
  | _ => []

end Lexeme

/-! ## What a lexeme takes from the text -/

namespace Token

variable {cs ink rest : List Char} {l : Lexeme}

theorem skeleton_of_isDecimal (h : ∀ c ∈ cs, Text.isDecimal c = true) : skeleton '{' '}' cs = [] :=
  skeleton_eq_nil (by decide +kernel) (by decide +kernel) h

/-- No identifier has a brace. -/
theorem skeleton_of_isIdentifier {s : String} (h : Expr.isIdentifier s = true) :
    skeleton '{' '}' s.toList = [] := by
  unfold Expr.isIdentifier at h
  split at h
  · cases h
  · rename_i c cs heq
    simp only [Bool.and_eq_true, List.all_eq_true] at h
    rw [heq]
    refine skeleton_eq_nil (p := isNameRest) (by decide) (by decide) fun d hd => ?_
    obtain rfl | hd := List.mem_cons.1 hd
    · exact isNameRest_of_isNameStart h.1
    · exact h.2 d hd

theorem Exponent.skeleton_eq {e : Int} (h : Exponent ink e rest) : skeleton '{' '}' ink = [] := by
  cases h with
  | absent => rfl
  | @present mark sign ds _ hmark hsign _ hds _ =>
    have hfront : skeleton '{' '}' [mark] = [] := by
      obtain rfl | rfl := hmark <;> rfl
    have hsign' : skeleton '{' '}' sign = [] := by
      revert sign
      decide
    rw [skeleton_cons, skeleton_append, hfront, hsign', skeleton_of_isDecimal hds]
    rfl

/-- No number has a brace. -/
theorem Numeral.skeleton_eq (h : Numeral l ink rest) : skeleton '{' '}' ink = [] := by
  cases h with
  | int _ hds _ _ _ => exact skeleton_of_isDecimal hds
  | @pointed whole fraction exponent _ e _ hwhole hfraction hexponent =>
    rw [skeleton_append, skeleton_cons, skeleton_append, skeleton_of_isDecimal hwhole,
      skeleton_of_isDecimal hfraction, hexponent.skeleton_eq]
    rfl
  | scaled _ hwhole hexponent _ =>
    rw [skeleton_append, skeleton_of_isDecimal hwhole, hexponent.skeleton_eq]
    rfl

theorem skeleton_unescape (c : Char) :
    skeleton '{' '}' [unescape c] = skeleton '{' '}' ['\\', c] := by
  unfold unescape
  split <;> rfl

/-- A quoted text has the braces of the text that it denotes. -/
theorem Quoted.skeleton_eq {mark : Char} {body value : List Char} (h : Quoted mark body value) :
    skeleton '{' '}' body = skeleton '{' '}' value := by
  induction h with
  | nil => rfl
  | @plain c body value _ _ _ ih => rw [skeleton_cons, ih, ← skeleton_cons]
  | @escaped c body value _ ih =>
    rw [skeleton_cons (unescape c), skeleton_unescape, ← ih, ← skeleton_append]
    rfl

/-- A lexeme has the braces of its spelling. -/
theorem Spelled.skeleton_eq (h : Spelled l ink rest) :
    skeleton '{' '}' ink = skeleton '{' '}' (l.quoted ++ l.mark) := by
  cases h with
  | number h =>
    rw [h.skeleton_eq]
    cases h <;> rfl
  | @text mark body value _ hmark hbody =>
    have hend : skeleton '{' '}' [mark] = [] := by
      obtain rfl | rfl := hmark <;> rfl
    rw [skeleton_cons, skeleton_append, hend, hbody.skeleton_eq]
    simp [Lexeme.quoted, Lexeme.mark]
  | aliasName hs _ =>
    rw [skeleton_cons, skeleton_of_isIdentifier hs]
    rfl
  | attributeName hs _ =>
    rw [skeleton_cons, skeleton_of_isIdentifier hs]
    rfl
  | name hs _ => exact skeleton_of_isIdentifier hs
  | @operator op _ _ => cases op <;> rfl
  | punctuation _ _ => rfl

theorem skeleton_of_areBlank (h : Text.AreBlank cs) : skeleton '{' '}' cs = [] :=
  skeleton_eq_nil (by decide) (by decide) h

/-- The braces of a text are those of its lexemes. -/
theorem skeleton_of_readFrom {position : Nat} {ts : List Token} (h : readFrom position cs = .ok ts) :
    skeleton '{' '}' cs =
      skeleton '{' '}' (ts.flatMap fun t => t.lexeme.quoted ++ t.lexeme.mark) := by
  obtain ⟨ws, rest, rfl, hws, hrest, rfl⟩ := exists_lexed_of_readFrom h
  have hcells : ∀ offset, skeleton '{' '}' (Cell.text ws rest) = skeleton '{' '}'
      ((Cell.tokens offset ws).flatMap fun t => t.lexeme.quoted ++ t.lexeme.mark) := by
    clear h
    induction ws with
    | nil => exact fun _ => skeleton_of_areBlank hrest
    | cons w ws ih =>
      obtain ⟨hgap, hink, hlexed⟩ := hws
      intro offset
      rw [Cell.text_cons, Cell.tokens, List.flatMap_cons, skeleton_append, skeleton_append,
        skeleton_append, skeleton_of_areBlank hgap, hink.skeleton_eq, ih hlexed, List.nil_append]
  rw [hcells position, List.flatMap_append, skeleton_append]
  simp [Lexeme.quoted, Lexeme.mark]

end Token

/-! ## The marks of a phrase -/

namespace Expr

def marks (ls : List Lexeme) : List Char :=
  ls.flatMap Lexeme.mark

/-- How many more braces the marks close than open. -/
def markExcess (ls : List Lexeme) : Int :=
  excess '{' '}' (marks ls)

/-- How far the closing braces get ahead among the marks. -/
def markPeak (ls : List Lexeme) : Int :=
  peak '{' '}' (marks ls)

@[simp]
theorem markExcess_nil : markExcess [] = 0 := rfl

@[simp]
theorem markExcess_append (ls more : List Lexeme) :
    markExcess (ls ++ more) = markExcess ls + markExcess more := by
  rw [markExcess, marks, List.flatMap_append, excess_append]
  rfl

@[simp]
theorem markExcess_punctuation (c : Char) (ls : List Lexeme) :
    markExcess (.punctuation c :: ls) = excess '{' '}' [c] + markExcess ls :=
  excess_cons c _

@[simp]
theorem markExcess_cons {l : Lexeme} (h : ∀ c, l ≠ .punctuation c) (ls : List Lexeme) :
    markExcess (l :: ls) = markExcess ls := by
  cases l with
  | punctuation c => exact absurd rfl (h c)
  | _ => rfl

@[simp]
theorem markPeak_nil : markPeak [] = 0 := rfl

@[simp]
theorem markPeak_append (ls more : List Lexeme) :
    markPeak (ls ++ more) = max (markPeak ls) (markExcess ls + markPeak more) := by
  rw [markPeak, marks, List.flatMap_append, peak_append]
  rfl

@[simp]
theorem markPeak_punctuation (c : Char) (ls : List Lexeme) :
    markPeak (.punctuation c :: ls) = max 0 (excess '{' '}' [c] + markPeak ls) := by
  simp only [markPeak, marks, List.flatMap_cons, Lexeme.mark, List.singleton_append, peak]

@[simp]
theorem markPeak_cons {l : Lexeme} (h : ∀ c, l ≠ .punctuation c) (ls : List Lexeme) :
    markPeak (l :: ls) = markPeak ls := by
  cases l with
  | punctuation c => exact absurd rfl (h c)
  | _ => rfl

theorem ne_punctuation_of_key? {l : Lexeme} {k : String} (h : Grammar.key? l = some k) (c : Char) :
    l ≠ .punctuation c := by
  rintro rfl
  cases h

/-- How many more braces a phrase closes than it opens. -/
def Phrase.closes : Phrase → Int
  | .arguments c _ => excess '{' '}' [c]
  | .members _ => 1
  | _ => 0

/-- A phrase closes what it opens, and no more than that but for the brace at its end. -/
theorem Derives.markExcess_eq_and_markPeak_le {φ : Phrase} {ls : List Lexeme} (h : Derives φ ls) :
    markExcess ls = φ.closes ∧ markPeak ls ≤ max 0 φ.closes := by
  have hopener : excess '{' '}' ['{'] = -1 := rfl
  have hcloser : excess '{' '}' ['}'] = 1 := rfl
  induction h with
  | membersOne hk _ ih =>
    simp only [Phrase.closes] at ih
    simp [ne_punctuation_of_key? hk, ih, Phrase.closes, excess_other, hcloser]
    omega
  | membersCons hk _ _ ih ih' =>
    simp only [Phrase.closes] at ih ih'
    simp [ne_punctuation_of_key? hk, ih, ih', Phrase.closes, excess_other]
    omega
  | _ => simp_all [Phrase.closes, excess_other] <;> omega

def quoted (source : String) : List Char :=
  match Token.read source with
  | .ok ts => ts.flatMap fun t => t.lexeme.quoted
  | .error _ => []

/-- The braces of an expression are even but for those between quotes. -/
theorem excess_of_read {source : String} {e : Expr} (h : Expr.read source = .ok e) :
    excess '{' '}' source.toList = excess '{' '}' (quoted source) := by
  have hsplit (ts : List Token) :
      excess '{' '}' (ts.flatMap fun t => t.lexeme.quoted ++ t.lexeme.mark) =
        excess '{' '}' (ts.flatMap fun t => t.lexeme.quoted) + markExcess (ts.map Token.lexeme) := by
    induction ts with
    | nil => rfl
    | cons t ts ih =>
      simp only [List.flatMap_cons, List.map_cons, excess_append, ih, markExcess, marks]
      omega
  obtain ⟨pre, last, htokens, hderives⟩ := exists_derives_of_read h
  have hmarks : markExcess ((pre ++ [(⟨.stop, last⟩ : Token)]).map Token.lexeme) = 0 := by
    simp [hderives.markExcess_eq_and_markPeak_le, Phrase.closes]
  rw [← excess_skeleton, Token.skeleton_of_readFrom htokens, excess_skeleton, hsplit, hmarks,
    Int.add_zero]
  simp only [quoted, htokens]

/-- Without braces between quotes those of the marks are left. -/
theorem skeleton_flatMap_append {ts : List Token}
    (hopener : '{' ∉ ts.flatMap fun t => t.lexeme.quoted)
    (hcloser : '}' ∉ ts.flatMap fun t => t.lexeme.quoted) :
    skeleton '{' '}' (ts.flatMap fun t => t.lexeme.quoted ++ t.lexeme.mark) =
      skeleton '{' '}' (marks (ts.map Token.lexeme)) := by
  induction ts with
  | nil => rfl
  | cons t ts ih =>
    simp only [List.flatMap_cons, List.mem_append, not_or] at hopener hcloser
    rw [List.flatMap_cons, skeleton_append, skeleton_append,
      skeleton_of_not_mem hopener.1 hcloser.1, ih hopener.2 hcloser.2, List.nil_append,
      ← skeleton_append]
    rfl

/-- An expression without braces between quotes closes no brace that it has not opened. -/
theorem peak_of_read {source : String} {e : Expr} (h : Expr.read source = .ok e)
    (hopener : '{' ∉ quoted source) (hcloser : '}' ∉ quoted source) :
    excess '{' '}' source.toList = 0 ∧ peak '{' '}' source.toList ≤ 0 := by
  obtain ⟨pre, last, htokens, hderives⟩ := exists_derives_of_read h
  simp only [quoted, htokens] at hopener hcloser
  have hskeleton : skeleton '{' '}' source.toList =
      skeleton '{' '}' (marks (pre.map Token.lexeme)) := by
    rw [Token.skeleton_of_readFrom htokens, skeleton_flatMap_append hopener hcloser]
    simp [marks, Lexeme.mark]
  rw [← excess_skeleton, ← peak_skeleton, hskeleton, excess_skeleton, peak_skeleton]
  exact hderives.markExcess_eq_and_markPeak_le

end Expr

end Stencil
