import Stencil.Expr.Members
import Stencil.Proofs.Expr.Arguments
import Stencil.Proofs.Expr.Braces

/-!
# A text between added braces

The members of an object may be written without its braces, which are then added. The tokens of the
whole are those of the text between two marks: no lexeme of the text takes the closing brace in. An
object that is read from the whole therefore begins at the one mark and ends at the other, and its
members are all that the text has.
-/

namespace Stencil

namespace Token

open Braces
open Text (AreBlank)

variable {l : Lexeme} {cs ink rest : List Char} {c : Char} {ws : List Cell}

/-! ## Tokens between braces -/

theorem breaks_append_left (cs more : List Char) : Breaks (cs ++ more) cs := by
  induction cs with
  | nil => exact .ends
  | cons c cs ih => exact .same c ih

/-- Of all lexemes only the mark itself ends with a closing brace. -/
theorem Spelled.eq_nil_of_append_brace (h : Spelled l (ink ++ ['}']) rest) : ink = [] := by
  have hquiet (hnone : l.quoted ++ l.mark = []) : False := by
    have hskeleton := h.skeleton_eq
    rw [hnone, skeleton_append] at hskeleton
    exact absurd (List.append_eq_nil_iff.1 hskeleton).2 (by decide)
  generalize hall : ink ++ ['}'] = all at h
  cases h with
  | number h => cases h <;> exact (hquiet rfl).elim
  | @text mark body value _ hmark hbody =>
    rw [← List.cons_append] at hall
    obtain rfl := List.singleton_inj.1 (List.append_inj' hall rfl).2
    simp at hmark
  | aliasName | attributeName | name | operator => exact (hquiet rfl).elim
  | punctuation hc hpoint => exact (List.append_inj' (hall.trans (List.nil_append _).symm) rfl).1

/-- A text in which nothing can be read is not helped by a brace behind it. -/
theorem Stuck.append {more : List Char} (h : Stuck c more) : Stuck c (more ++ ['}']) where
  blank := h.blank
  none := by
    intro l ink rest hsplit hspelled
    obtain rfl | ⟨rest, d, rfl⟩ := rest.eq_nil_or_concat
    · rw [List.append_nil, ← List.cons_append] at hsplit
      rw [← hsplit] at hspelled
      exact absurd hspelled.eq_nil_of_append_brace (by simp)
    · rw [List.concat_eq_append, ← List.append_assoc, ← List.cons_append] at hsplit
      obtain ⟨hmore, -⟩ := List.append_inj' hsplit rfl
      exact h.none l ink rest hmore (hspelled.breaks (by simpa using breaks_append_left rest [d]))

/-- The token in a text that has so many characters more in front. -/
def shifted (n : Nat) (t : Token) : Token :=
  ⟨t.lexeme, n + t.position⟩

/-- The tokens of a text further right have greater positions. -/
theorem Cell.tokens_add (n offset : Nat) (ws : List Cell) :
    Cell.tokens (n + offset) ws = (Cell.tokens offset ws).map (shifted n) := by
  induction ws generalizing offset with
  | nil => rfl
  | cons w ws ih =>
    rw [Cell.tokens, Cell.tokens, List.map_cons, Nat.add_assoc, Nat.add_assoc, ih]
    rfl

/-- The tokens of a text of this length, between braces. -/
def braced (length : Nat) (ts : List Token) : List Token :=
  ⟨.punctuation '{', 0⟩ :: (ts.map (shifted 1) ++
    [⟨.punctuation '}', 1 + length⟩, ⟨.stop, 1 + length + 1⟩])

theorem spelled_brace {c : Char} (hc : c = '{' ∨ c = '}') (rest : List Char) :
    Spelled (.punctuation c) [c] rest := by
  obtain rfl | rfl := hc
  · exact .punctuation (by decide) fun h => nomatch h
  · exact .punctuation (by decide) fun h => nomatch h

/-- Braces around a text that begins with these cells. -/
theorem readFrom_braced (h : Cell.Lexed cs ws) :
    readFrom 0 ('{' :: (Cell.text ws cs ++ ['}'])) =
      (readFrom (1 + (ws.flatMap Cell.chars).length) (cs ++ ['}'])).map
        fun ts => ⟨.punctuation '{', 0⟩ :: (Cell.tokens 1 ws ++ ts) := by
  let opening : Cell := ⟨[], ['{'], .punctuation '{'⟩
  have hlexed : Cell.Lexed (cs ++ ['}']) (opening :: ws) :=
    ⟨Text.areBlank_nil, spelled_brace (.inl rfl) _, h.append Expr.parts_brace []⟩
  have htext : Cell.text (opening :: ws) (cs ++ ['}']) = '{' :: (Cell.text ws cs ++ ['}']) := by
    simp [Cell.text, Cell.chars, opening]
  have hlength : ((opening :: ws).flatMap Cell.chars).length =
      1 + (ws.flatMap Cell.chars).length := by
    simp [Cell.chars, opening, Nat.add_comm]
  rw [← htext, readFrom_text hlexed, hlength, Nat.zero_add]
  rfl

theorem readFrom_brace {gap : List Char} (h : AreBlank gap) (position : Nat) :
    readFrom position (gap ++ ['}']) = .ok [⟨.punctuation '}', position + gap.length⟩,
      ⟨.stop, position + gap.length + 1⟩] := by
  have hcell : readFrom position (gap ++ (['}'] ++ [])) = _ :=
    @readFrom_cell [] position ⟨gap, ['}'], .punctuation '}'⟩ h (spelled_brace (.inr rfl) [])
  rw [List.append_nil] at hcell
  rw [hcell, readFrom_areBlank Text.areBlank_nil]
  simp [Except.map, Cell.chars, Nat.add_assoc]

/-- A text between braces is read exactly if the text is; its tokens stand between the marks. -/
theorem read_braced_iff {d : String} {ts : List Token} :
    Token.read ("\x7b" ++ d ++ "\x7d") = .ok ts ↔
      ∃ inner last, Token.read d = .ok (inner ++ [⟨.stop, last⟩]) ∧ ts = braced d.length inner := by
  have hchars : ("\x7b" ++ d ++ "\x7d").toList = '{' :: (d.toList ++ ['}']) := by
    simp
  obtain ⟨ws, gap, rest, hd, hws, hgap, rfl | ⟨c, more, rfl, hstuck⟩⟩ := exists_lexed d.toList
  · rw [List.append_nil] at hd hws
    have hlength : (ws.flatMap Cell.chars).length + gap.length = d.length := by
      rw [← String.length_toList, hd, Cell.text, List.length_append]
    have hinner : Token.read d = .ok (Cell.tokens 0 ws ++ [⟨.stop, d.length⟩]) := by
      rw [Token.read, hd, readFrom_text_of_areBlank hws hgap, ← hd, Nat.zero_add,
        String.length_toList]
    have hbraced : Token.read ("\x7b" ++ d ++ "\x7d") =
        .ok (braced d.length (Cell.tokens 0 ws)) := by
      rw [Token.read, hchars, hd, readFrom_braced hws, readFrom_brace hgap, Nat.add_assoc, hlength,
        braced, ← Cell.tokens_add]
      rfl
    rw [hbraced, hinner]
    constructor
    · intro h
      exact ⟨_, _, rfl, (Except.ok.inj h).symm⟩
    · rintro ⟨inner, last, h, rfl⟩
      obtain ⟨rfl, -⟩ := List.append_inj' (Except.ok.inj h) rfl
      rfl
  · obtain ⟨cause, -, hfails⟩ := hstuck.exists_error hgap (0 + (ws.flatMap Cell.chars).length)
    obtain ⟨cause', -, hfails'⟩ :=
      hstuck.append.exists_error hgap (1 + (ws.flatMap Cell.chars).length)
    have hrest : gap ++ c :: more ++ ['}'] = gap ++ c :: (more ++ ['}']) := by simp
    have hinner : Token.read d = .error cause := by
      rw [Token.read, hd, readFrom_text hws, hfails]
      rfl
    have hbraced : Token.read ("\x7b" ++ d ++ "\x7d") = .error cause' := by
      rw [Token.read, hchars, hd, readFrom_braced hws, hrest, hfails']
      rfl
    simp [hinner, hbraced]

end Token

namespace Expr

open Token

variable {e base left : Expr} {level : Nat} {ls : List Lexeme} {d : String}
  {ms : List (String × Expr)}

/-! ## What begins with a brace -/

/-- An operator makes an operation of its operand. -/
theorem Derives.eq_of_joined (h : Derives (.joined level left e) ls)
    (he : ∀ op l r, e ≠ .binary op l r) : e = left ∧ ls = [] := by
  generalize hφ : Phrase.joined level left e = φ at h
  induction h generalizing left with
  | joinedNil =>
    cases hφ
    exact ⟨rfl, rfl⟩
  | joinedCons _ _ _ _ ih =>
    cases hφ
    exact absurd (ih rfl).1 (he _ _ _)
  | _ => cases hφ

/-- An expression that is no operation of two operands is one of the unary level. -/
theorem Derives.unary_of_level (h : Derives (.binary level e) ls)
    (he : ∀ op l r, e ≠ .binary op l r) : Derives (.unary e) ls := by
  generalize hφ : Phrase.binary level e = φ at h
  induction h generalizing level with
  | operands _ _ hjoined ih =>
    cases hφ
    obtain ⟨rfl, rfl⟩ := hjoined.eq_of_joined he
    rw [List.append_nil]
    exact ih rfl
  | operand hunary =>
    cases hφ
    exact hunary
  | _ => cases hφ

/-- An expression that has no operator outside of all brackets is an operand. -/
theorem Derives.unary_of_sequence (h : Derives (.sequence e) ls) (hsequence : ∀ es, e ≠ .sequence es)
    (hchoice : ∀ test yes no, e ≠ .choice test yes no) (hbinary : ∀ op l r, e ≠ .binary op l r) :
    Derives (.unary e) ls := by
  have hconditional := h.conditional hsequence
  generalize hφ : Phrase.conditional e = φ at hconditional
  cases hconditional with
  | test hlevel =>
    cases hφ
    exact hlevel.unary_of_level hbinary
  | choice =>
    cases hφ
    exact absurd rfl (hchoice _ _ _)
  | _ => cases hφ

/-- Behind an expression that is no place nothing can follow. -/
theorem Derives.eq_of_extended (h : Derives (.extended base e) ls) (hbase : base.isPlace = false) :
    e = base ∧ ls = [] := by
  generalize hφ : Phrase.extended base e = φ at h
  cases h with
  | extendedNil =>
    cases hφ
    exact ⟨rfl, rfl⟩
  | member hm =>
    cases hφ
    have hplace := (isPlace_iff_member? base _).2 (Option.isSome_iff_exists.2 ⟨_, hm⟩)
    exact absurd hplace (by simp [hbase])
  | brackets hb =>
    cases hφ
    exact absurd hb (by simp [hbase])
  | call =>
    cases hφ
    cases hbase
  | _ => cases hφ

/-- An operand that begins with a brace is an object. -/
theorem Derives.exists_members (h : Derives (.unary e) (.punctuation '{' :: ls)) :
    ∃ ms, e = .ofMembers ms ∧ Derives (.members ms) ls := by
  generalize hls : Lexeme.punctuation '{' :: ls = all at h
  cases h with
  | negation | sign | operation => cases hls
  | extension hbase hextended =>
    cases hbase with
    | constantObject hfields =>
      obtain ⟨rfl, rfl⟩ := hextended.eq_of_extended rfl
      cases hls
      exact ⟨_, (ofMembers_eq_iff.2 (.inl ⟨_, rfl, rfl⟩)).symm, by simpa using hfields⟩
    | object hne hmembers =>
      obtain ⟨rfl, rfl⟩ := hextended.eq_of_extended rfl
      cases hls
      exact ⟨_, (ofMembers_eq_iff.2 (.inr ⟨hne, rfl⟩)).symm, by simpa using hmembers⟩
    | _ => cases hls

theorem Derives.primary_ofMembers (h : Derives (.members ms) ls) :
    Derives (.primary (.ofMembers ms)) (.punctuation '{' :: ls) := by
  obtain ⟨fields, rfl, heq⟩ | ⟨hne, heq⟩ := ofMembers_eq_iff.1 (Eq.refl (ofMembers ms))
  · exact heq ▸ .constantObject h
  · exact heq ▸ .object hne h

/-- The text lists these members, as between the braces of an object. -/
def Lists (d : String) (ms : List (String × Expr)) : Prop :=
  ∃ ts last, Token.read d = .ok (ts ++ [⟨.stop, last⟩]) ∧
    Derives (.members ms) (ts.map Token.lexeme ++ [.punctuation '}'])

/-- The members of a list are derived with the brace that closes them. -/
theorem Lists.derives (h : Lists d ms) : ∃ ts, Token.read ("\x7b" ++ d ++ "\x7d") =
    .ok (Token.braced d.length ts) ∧
      Derives (.members ms) (ts.map Token.lexeme ++ [.punctuation '}']) := by
  obtain ⟨ts, last, hread, hmembers⟩ := h
  exact ⟨ts, read_braced_iff.2 ⟨ts, last, hread, rfl⟩, hmembers⟩

/-- The tokens between braces are those of the list with its braces, and the end. -/
theorem braced_eq (length : Nat) (ts : List Token) : ∃ pre, Token.braced length ts =
    pre ++ [⟨.stop, 1 + length + 1⟩] ∧ pre.map Token.lexeme =
      .punctuation '{' :: (ts.map Token.lexeme ++ [.punctuation '}']) := by
  refine ⟨⟨.punctuation '{', 0⟩ :: (ts.map (shifted 1) ++ [⟨.punctuation '}', 1 + length⟩]),
    by simp [braced], ?_⟩
  simp [shifted, Function.comp_def]

/-- With the braces a list of members is read as the object of them. -/
theorem Lists.read (h : Lists d ms) : Expr.read ("\x7b" ++ d ++ "\x7d") = .ok (.ofMembers ms) := by
  obtain ⟨ts, hread, hmembers⟩ := h.derives
  obtain ⟨pre, hbraced, hlexemes⟩ := braced_eq d.length ts
  have hderives : Derives (.sequence (.ofMembers ms)) (pre.map Token.lexeme) := by
    rw [hlexemes]
    exact .single hmembers.primary_ofMembers.conditional_of_primary
  rw [Expr.read, hread, hbraced]
  exact ofTokens_of_derives hderives

/-- Of the expressions that are read between added braces, the objects are those of members that
the text lists. -/
theorem exists_lists (h : Expr.read ("\x7b" ++ d ++ "\x7d") = .ok e)
    {m : Members} (hm : Members.ofExpr e = .ok m) : ∃ ms, Lists d ms ∧ e = .ofMembers ms := by
  obtain ⟨pre, last, hread, hderives⟩ := exists_derives_of_read h
  obtain ⟨ts, last', hd, hbraced⟩ := read_braced_iff.1 hread
  obtain ⟨pre', hpre', hlexemes⟩ := braced_eq d.length ts
  obtain ⟨rfl, -⟩ := List.append_inj' (hbraced.trans hpre') rfl
  rw [hlexemes] at hderives
  have hunary := hderives.unary_of_sequence (by rintro es rfl; cases hm)
    (by rintro test yes no rfl; cases hm) (by rintro op l r rfl; cases hm)
  obtain ⟨ms, rfl, hmembers⟩ := hunary.exists_members
  exact ⟨ms, ⟨ts, last', hd, hmembers⟩, rfl⟩

end Expr

end Stencil
