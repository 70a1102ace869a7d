import Stencil.Proofs.Expr.Printing

/-!
# Printed expressions are derivable

The lexemes of a printed expression derive it. An expression of a level derives a phrase of that
level, every phrase is one of a looser level too, and in parentheses it is one of every level. The
induction carries a second fact for places: their lexemes are a primary expression with a row of
members, brackets and calls, to which more can be added.
-/

namespace Stencil.Expr

open Piece

variable {I : Int → Prop} {S : String → Prop}

def phraseAt : Nat → Expr → Phrase
  | 0, e => .sequence e
  | 1, e => .conditional e
  | level + 2, e => .binary level e

theorem Derives.loosen {e : Expr} {ls : List Lexeme} {place : Nat}
    (h : Derives (phraseAt (place + 1) e) ls) (hplace : place < 8) :
    Derives (phraseAt place e) ls := by
  match place with
  | 0 => exact .single h
  | 1 => exact .test h
  | level + 2 =>
    have hjoined : Derives (.binary level e) (ls ++ []) := .operands (by omega) h .joinedNil
    rwa [List.append_nil] at hjoined

/-- What stands in a tight place may stand in a looser one. -/
theorem Derives.loosen_le {e : Expr} {ls : List Lexeme} {place level : Nat}
    (h : Derives (phraseAt level e) ls) (hle : place ≤ level) (hlevel : level ≤ 8) :
    Derives (phraseAt place e) ls := by
  obtain ⟨n, rfl⟩ := Nat.exists_eq_add_of_le hle
  induction n with
  | zero => exact h
  | succ n ih => exact ih (Derives.loosen h (by omega)) (by omega) (by omega)

theorem Derives.of_primary {e : Expr} {ls : List Lexeme} (h : Derives (.primary e) ls) :
    Derives (.unary e) ls := by
  have hextension := Derives.extension h .extendedNil
  rwa [List.append_nil] at hextension

/-- An expression that derives a phrase of its level derives one of every place it is printed in. -/
theorem Derives.piecesAt {e : Expr} {place : Nat}
    (h : Derives (phraseAt (min e.level 8) e) (lexemes e.pieces)) (hplace : place ≤ 8) :
    Derives (phraseAt place e) (lexemes (e.piecesAt place)) := by
  unfold Expr.piecesAt grouped
  by_cases hlevel : e.level < place
  · have hgroup : Derives (.primary e) (lexemes (mark '(' :: (e.pieces ++ [mark ')']))) := by
      simpa using Derives.group (h.loosen_le (Nat.zero_le _) (Nat.min_le_right _ _))
    have hunary : Derives (phraseAt 8 e) _ := .operand hgroup.of_primary
    simpa [hlevel] using hunary.loosen_le hplace (Nat.le_refl 8)
  · have hle : place ≤ min e.level 8 := by omega
    simpa [hlevel] using h.loosen_le hle (Nat.min_le_right _ _)

/-! ## Lists -/

theorem lexemes_separated_cons (ps : List Piece) (more : List (List Piece)) :
    lexemes (separated (ps :: more)) =
      lexemes ps ++ more.flatMap fun qs => .punctuation ',' :: lexemes qs := by
  induction more generalizing ps with
  | nil => simp [separated]
  | cons qs more ih => simp [separated, ih]

/-- Printed items, each behind a comma, are derived. -/
theorem derives_listed {es : List Expr} {f : Expr → List Piece}
    (h : ∀ e ∈ es, Derives (.conditional e) (lexemes (f e))) :
    Derives (.listed es) ((es.map f).flatMap fun qs => .punctuation ',' :: lexemes qs) := by
  induction es with
  | nil => exact .listedNil
  | cons e es ih =>
    have he := h e List.mem_cons_self
    have hes := ih fun e' he' => h e' (List.mem_cons_of_mem e he')
    simpa using Derives.listedCons he hes

/-- Printed arguments are derived with their closing mark. -/
theorem derives_arguments {es : List Expr} {f : Expr → List Piece} (closing : Char)
    (h : ∀ e ∈ es, Derives (.conditional e) (lexemes (f e))) :
    Derives (.arguments closing es) (lexemes (separated (es.map f)) ++ [.punctuation closing]) := by
  induction es with
  | nil => exact .argumentsNil
  | cons e es ih =>
    have he := h e List.mem_cons_self
    have hes := ih fun e' he' => h e' (List.mem_cons_of_mem e he')
    cases es with
    | nil => exact .argumentsOne he
    | cons e' es => simpa [separated] using Derives.argumentsCons he hes

/-- Printed members are derived with the brace behind them. -/
theorem derives_members {ms : List (String × Expr)} {f : Expr → List Piece}
    (h : ∀ m ∈ ms, Derives (.conditional m.2) (lexemes (f m.2))) :
    Derives (.members ms)
      (lexemes (separated (ms.map fun m => keyed m.1 (f m.2))) ++ [.punctuation '}']) := by
  induction ms with
  | nil => exact .membersNil
  | cons m ms ih =>
    have hm := h m List.mem_cons_self
    have hms := ih fun m' hm' => h m' (List.mem_cons_of_mem m hm')
    have hkey : Grammar.key? (.text m.1) = some m.1 := rfl
    cases ms with
    | nil => simpa [separated, keyed] using Derives.membersOne hkey hm
    | cons m' ms => simpa [separated, keyed] using Derives.membersCons hkey hm hms

theorem itemPieces_eq_map (es : List Expr) : itemPieces es = es.map (Expr.piecesAt 1) := by
  induction es with
  | nil => rfl
  | cons e es ih => rw [itemPieces, ih, List.map_cons, Expr.piecesAt]

theorem memberPieces_eq_map (ms : List (String × Expr)) :
    memberPieces ms = ms.map fun m => keyed m.1 (m.2.piecesAt 1) := by
  induction ms with
  | nil => rfl
  | cons m ms ih => rw [memberPieces, ih, List.map_cons, Expr.piecesAt]

/-- A literal holds together as tightly as anything. -/
theorem level_literal (v : Value) : 8 ≤ level (.literal v) := by
  cases v with
  | int n =>
    simp only [level]
    split <;> decide
  | _ => exact Nat.le_succ 8

theorem piecesAt_literal {place : Nat} (h : place ≤ 8) (v : Value) :
    Expr.piecesAt place (.literal v) = v.pieces := by
  have hlevel : ¬ level (.literal v) < place := Nat.not_lt.2 (Nat.le_trans h (level_literal v))
  simp [Expr.piecesAt, hlevel, grouped, pieces]

/-! ## Constants -/

theorem value_itemPieces_eq_map (vs : List Value) :
    Value.itemPieces vs = (vs.map Expr.literal).map (Expr.piecesAt 1) := by
  induction vs with
  | nil => rfl
  | cons v vs ih => simp [Value.itemPieces, ih, piecesAt_literal]

theorem value_fieldPieces_eq_map (fields : List (String × Value)) :
    Value.fieldPieces fields =
      (constantMembers fields).map fun m => keyed m.1 (m.2.piecesAt 1) := by
  induction fields with
  | nil => rfl
  | cons field fields ih =>
    simp_all [Value.fieldPieces, constantMembers, piecesAt_literal]

/-- A constant that derives a unary phrase derives one of every place. -/
theorem Derives.piecesAt_literal {v : Value} {place : Nat}
    (h : Derives (.unary (.literal v)) (lexemes v.pieces)) (hplace : place ≤ 8) :
    Derives (phraseAt place (.literal v)) (lexemes (Expr.piecesAt place (.literal v))) := by
  rw [Expr.piecesAt_literal hplace]
  have hunary : Derives (phraseAt 8 (.literal v)) (lexemes v.pieces) := .operand h
  exact hunary.loosen_le hplace (Nat.le_refl 8)

/-- A printed constant is derived, whatever it is made of. -/
theorem derives_of_plain {v : Value} (h : v.Plain I S) :
    Derives (.unary (.literal v)) (lexemes v.pieces) := by
  induction h with
  | null => exact Derives.of_primary (.constant rfl)
  | bool b => cases b <;> exact Derives.of_primary (.constant rfl)
  | @int n hn =>
    have hnat : Derives (.unary (.literal (.int n.natAbs))) [.int n.natAbs] := .of_primary (.int _)
    by_cases hneg : n < 0
    · have habs : -(n.natAbs : Int) = n := by omega
      have hsign := Signed.minusInt n.natAbs
      rw [habs] at hsign
      simpa [Value.pieces, hneg] using Derives.sign hsign hnat
    · have habs : (n.natAbs : Int) = n := by omega
      simpa [Value.pieces, hneg, habs] using hnat
  | text hs => exact Derives.of_primary (.text _)
  | list hvs ih =>
    refine Derives.of_primary ?_
    rw [Value.pieces, value_itemPieces_eq_map, lexemes_lexeme, lexemes_append]
    refine .constantArray (derives_arguments ']' ?_)
    intro e he
    obtain ⟨v, hv, rfl⟩ := List.mem_map.1 he
    exact (ih v hv).piecesAt_literal (by decide : 1 ≤ 8)
  | @object fields hnodup hkeys hvalues ih =>
    refine Derives.of_primary ?_
    rw [Value.pieces, value_fieldPieces_eq_map, lexemes_lexeme, lexemes_append]
    have hmembers := @derives_members (constantMembers fields) (Expr.piecesAt 1) ?_
    · have hobject := Derives.constantObject hmembers
      rwa [Entries.ofPairs_of_nodup hnodup] at hobject
    · intro m hm
      obtain ⟨field, hfield, rfl⟩ := List.mem_map.1 hm
      exact (ih field hfield).piecesAt_literal (by decide : 1 ≤ 8)

/-! ## Places -/

/-- The lexemes are a primary expression and a row of members, brackets and calls. -/
def Chained (e : Expr) (ls : List Lexeme) : Prop :=
  ∃ base first more, Derives (.primary base) first ∧ Derives (.extended base e) more ∧
    ls = first ++ more

/-- A primary expression with its members, brackets and calls is one of the unary level. -/
theorem Chained.derives {e : Expr} {ls : List Lexeme} (h : Chained e ls) :
    Derives (.unary e) ls := by
  obtain ⟨base, first, more, hfirst, hmore, rfl⟩ := h
  exact .extension hfirst hmore

theorem chained_of_primary {e : Expr} {ls : List Lexeme} (h : Derives (.primary e) ls) :
    Chained e ls :=
  ⟨e, ls, [], h, .extendedNil, (List.append_nil ls).symm⟩

/-- A row goes on where another one ends. -/
theorem Derives.extended_append {base e e' : Expr} {ls more : List Lexeme}
    (h : Derives (.extended base e) ls) (h' : Derives (.extended e e') more) :
    Derives (.extended base e') (ls ++ more) := by
  generalize hφ : Phrase.extended base e = φ at h
  induction h generalizing base with
  | extendedNil =>
    cases hφ
    exact h'
  | member hm _ ih =>
    cases hφ
    exact .member hm (ih rfl)
  | brackets hb hi _ _ ih =>
    cases hφ
    simpa using Derives.brackets hb hi (ih rfl)
  | call ha _ _ ih =>
    cases hφ
    simpa using Derives.call ha (ih rfl)
  | _ => cases hφ

theorem Chained.append {e e' : Expr} {ls more : List Lexeme} (h : Chained e ls)
    (h' : Derives (.extended e e') more) : Chained e' (ls ++ more) := by
  obtain ⟨base, first, row, hfirst, hrow, rfl⟩ := h
  exact ⟨base, first, row ++ more, hfirst, hrow.extended_append h', List.append_assoc _ _ _⟩

/-- Member names extend a place, whatever kind of place `K` makes of its names. -/
theorem Chained.dotted {K : List String → Expr}
    (hK : ∀ names name, (K names).member? name = some (K (names ++ [name])))
    {names : List String} {ls : List Lexeme} (h : Chained (K names) ls) (more : List String) :
    Chained (K (names ++ more)) (ls ++ lexemes (dotted more)) := by
  induction more generalizing names ls with
  | nil => simpa [Piece.dotted] using h
  | cons name more ih =>
    have hmember := h.append (.member (hK names name) .extendedNil)
    simpa [Piece.dotted] using ih hmember

/-- A path is printed as its first name and the members behind it. -/
theorem chained_path {name : String} {names : List String}
    (hconstant : Grammar.constant? name = none) (hthis : name ≠ "this") :
    Chained (.path (name :: names)) (lexemes (segments (name :: names))) :=
  (chained_of_primary (.path hconstant hthis)).dotted (K := .path) (fun _ _ => rfl) names

/-! ## Expressions -/

/-- What the induction says of an expression: its lexemes derive it at its level, and those of a
place can be extended. -/
def Printed (e : Expr) : Prop :=
  Derives (phraseAt (min e.level 8) e) (lexemes e.pieces) ∧
    (e.isPlace = true → Chained e (lexemes e.pieces))

theorem Printed.at {e : Expr} (h : Printed e) (place : Nat) (hplace : place ≤ 8) :
    Derives (phraseAt place e) (lexemes (e.piecesAt place)) :=
  h.1.piecesAt hplace

/-- For a place it is enough that its lexemes are a row. -/
theorem printed_of_chained {e : Expr} (hlevel : e.level = 9) (h : Chained e (lexemes e.pieces)) :
    Printed e := by
  refine ⟨?_, fun _ => h⟩
  rw [hlevel]
  exact .operand h.derives

/-- An expression of the unary level is printed as it is in every place. -/
theorem printed_of_unary {e : Expr} (hlevel : 8 ≤ e.level) (hplace : e.isPlace = false)
    (h : Derives (.unary e) (lexemes e.pieces)) : Printed e := by
  refine ⟨?_, fun hplace' => absurd hplace' (by simp [hplace])⟩
  rw [Nat.min_eq_right hlevel]
  exact .operand h

theorem Derives.joined_append {k : Nat} {left e e' : Expr} {ls more : List Lexeme}
    (h : Derives (.joined k left e) ls) (h' : Derives (.joined k e e') more) :
    Derives (.joined k left e') (ls ++ more) := by
  generalize hφ : Phrase.joined k left e = φ at h
  induction h generalizing left with
  | joinedNil =>
    cases hφ
    exact h'
  | joinedCons hop hr _ _ ih =>
    cases hφ
    simpa using Derives.joinedCons hop hr (ih rfl)
  | _ => cases hφ

/-- An operator joins an operand of the next level to one of its own on the left. -/
theorem Derives.join {op : Operator} {k : Nat} {left right : Expr} {ls more : List Lexeme}
    (hop : op.level? = some k) (hk : k < 6) (hleft : Derives (.binary k left) ls)
    (hright : Derives (.binary (k + 1) right) more) :
    Derives (.binary k (.binary op left right)) (ls ++ .operator op :: more) := by
  have hstep : Derives (.joined k left (.binary op left right)) (.operator op :: more) := by
    simpa using Derives.joinedCons hop hright .joinedNil
  cases hleft with
  | operands hlevel hfirst hjoined =>
    simpa using Derives.operands hlevel hfirst (hjoined.joined_append hstep)
  | operand _ => exact absurd hk (Nat.lt_irrefl 6)

theorem Derives.unary_of_binary {e : Expr} {ls : List Lexeme} (h : Derives (.binary 6 e) ls) :
    Derives (.unary e) ls := by
  cases h with
  | operands hlevel _ _ => exact absurd hlevel (Nat.lt_irrefl 6)
  | operand hoperand => exact hoperand

/-- Two operands are joined below the unary level. -/
theorem level_lt_six {op : Operator} {k : Nat} (hop : op.level? = some k) : k < 6 := by
  cases op <;> simp [Operator.level?] at hop <;> omega

/-- Two printed operands with an operator between them are derived, the left one in the place of the
operator and the right one in a tighter one. -/
theorem printed_binary {op : Operator} {k : Nat} {left right : Expr} (hop : op.level? = some k)
    (hleft : Printed left) (hright : Printed right) : Printed (.binary op left right) := by
  have hk := level_lt_six hop
  have hl : Derives (.binary k left) _ := hleft.at (k + 2) (by omega)
  have hr : Derives (.binary (k + 1) right) _ := hright.at (k + 3) (by omega)
  have hlevel : min (level (.binary op left right)) 8 = k + 2 := by
    simp only [level, hop, Option.getD_some]
    omega
  refine ⟨?_, nofun⟩
  rw [hlevel]
  change Derives (.binary k (.binary op left right)) _
  simpa [pieces, between, hop, Expr.piecesAt] using Derives.join hop hk hl hr

theorem printed_unary {op : Operator} {operand : Expr} (hop : op.isUnary = true)
    (hne : operand.isLiteral = false) (h : Printed operand) : Printed (.unary op operand) := by
  have hoperand := Derives.unary_of_binary (h.at 8 (Nat.le_refl 8))
  exact printed_of_unary (Nat.le_refl 8) rfl (.operation hop hne hoperand)

theorem printed_choice {test yes no : Expr} (htest : Printed test) (hyes : Printed yes)
    (hno : Printed no) : Printed (.choice test yes no) := by
  have ht : Derives (.binary 0 test) _ := htest.at 2 (by decide)
  have hy : Derives (.conditional yes) _ := hyes.at 1 (by decide)
  have hn : Derives (.conditional no) _ := hno.at 1 (by decide)
  refine ⟨?_, nofun⟩
  change Derives (.conditional (.choice test yes no)) _
  simpa [pieces, between, Expr.piecesAt] using Derives.choice ht hy hn

theorem printed_sequence {first second : Expr} {more : List Expr}
    (h : ∀ e ∈ first :: second :: more, Printed e) :
    Printed (.sequence (first :: second :: more)) := by
  have hfirst : Derives (.conditional first) _ := (h first List.mem_cons_self).at 1 (by decide)
  have hmore := derives_listed fun e he => (h e (List.mem_cons_of_mem first he)).at 1 (by decide)
  refine ⟨?_, nofun⟩
  change Derives (.sequence (.sequence (first :: second :: more))) _
  simpa [pieces, itemPieces_eq_map, lexemes_separated_cons] using Derives.several hfirst hmore

/-- The lexemes of a printed canonical expression derive it. -/
theorem Canonical.printed {e : Expr} (h : Canonical I S e) : Printed e := by
  induction h with
  | literal hv => exact printed_of_unary (level_literal _) rfl (derives_of_plain hv)
  | path _ hconstant hthis _ => exact printed_of_chained rfl (chained_path hconstant hthis)
  | @relative names _ =>
    have hrow := (chained_of_primary .this).dotted (K := .relative) (fun _ _ => rfl) names
    exact printed_of_chained rfl hrow
  | @aliasPath name names _ _ =>
    have hrow := (chained_of_primary (.aliasPath name)).dotted (K := .aliasPath ("#" ++ name))
      (fun _ _ => rfl) names
    refine printed_of_chained rfl ?_
    simpa [pieces] using hrow
  | @attributePath name names _ _ =>
    have hrow := (chained_of_primary (.attributePath name)).dotted (K := .attributePath name)
      (fun _ _ => rfl) names
    exact printed_of_chained rfl hrow
  | @brackets before inside after hplace _ _ _ hbefore hinside =>
    have hinside : Derives (phraseAt 0 inside) _ := (hinside.at 1 (by decide)).loosen (by decide)
    have hopen := (hbefore.2 hplace).append
      (.brackets hplace hinside .extendedNil)
    have hrow := hopen.dotted (K := .brackets before inside) (fun _ _ => rfl) after
    refine printed_of_chained rfl ?_
    simpa [pieces, Expr.piecesAt] using hrow
  | @call names args after _ _ _ hnames hargs =>
    have hlist := derives_arguments ')' fun e he => (hargs e he).at 1 (by decide)
    have hrow := ((hnames.2 rfl).append (.call hlist .extendedNil)).dotted (K := .call names args)
      (fun _ _ => rfl) after
    refine printed_of_chained rfl ?_
    simpa [pieces, itemPieces_eq_map] using hrow
  | unary hop hne _ ih => exact printed_unary hop hne ih
  | binary hop _ _ hleft hright => exact printed_binary hop hleft hright
  | choice _ _ _ htest hyes hno => exact printed_choice htest hyes hno
  | array hne _ ih =>
    have hlist := derives_arguments ']' fun e he => (ih e he).at 1 (by decide)
    have harray := Derives.of_primary (.array hne hlist)
    refine printed_of_unary (Nat.le_succ 8) rfl ?_
    simpa [pieces, itemPieces_eq_map] using harray
  | object hne _ _ ih =>
    have hlist := derives_members fun m hm => (ih m hm).at 1 (by decide)
    have hobject := Derives.of_primary (.object hne hlist)
    refine printed_of_unary (Nat.le_succ 8) rfl ?_
    simpa [pieces, memberPieces_eq_map] using hobject
  | sequence _ ih => exact printed_sequence ih

/-- Every canonical expression is derived from its printed lexemes. -/
theorem Canonical.derives {e : Expr} (h : Canonical I S e) :
    Derives (.sequence e) (lexemes e.pieces) :=
  h.printed.1.loosen_le (Nat.zero_le _) (Nat.min_le_right _ _)

end Stencil.Expr
