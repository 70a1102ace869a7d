import Stencil.Proofs.Expr.Descent

/-!
# Where reading stops

`Stops` says, apart from the rules themselves, at which lexeme and with which complaint the descent
comes to its end: the rules that are open have each taken the lexemes of their calls, and the
innermost one finds a lexeme that it can neither use nor leave to the others. `locatesAt` shows that
every failure is of this kind and names the place of that lexeme, but for a sign that is read before
a constant to which it does not apply.
-/

namespace Stencil.Expr

open Grammar

/-! ## What follows a phrase -/

section

variable {level : Nat} {ts : List Token}

/-- The lexemes that hold on to what stands before them. -/
theorem tightness_cases {l : Lexeme} (h : tightness l ≠ 0) :
    (l = .punctuation ',' ∧ tightness l = 1) ∨ (l = .punctuation '?' ∧ tightness l = 2) ∨
      (∃ op level, l = .operator op ∧ op.level? = some level ∧ level < 6 ∧
        tightness l = level + 3) ∨
      ((l = .punctuation '.' ∨ l = .punctuation '[' ∨ l = .punctuation '(') ∧
        tightness l = 9) := by
  cases l with
  | punctuation c =>
    simp only [tightness] at h ⊢
    grind
  | operator op => cases op <;> simp [tightness, Operator.level?] at h ⊢
  | _ => exact absurd rfl h

theorem tightness_eq_one {l : Lexeme} (h : tightness l = 1) : l = .punctuation ',' := by
  obtain ⟨hl, -⟩ | ⟨-, hl⟩ | ⟨op, level, -, -, -, hl⟩ | ⟨-, hl⟩ :=
    tightness_cases (l := l) (by omega)
  · exact hl
  all_goals omega

theorem tightness_eq_two {l : Lexeme} (h : tightness l = 2) : l = .punctuation '?' := by
  obtain ⟨-, hl⟩ | ⟨hl, -⟩ | ⟨op, level, -, -, -, hl⟩ | ⟨-, hl⟩ :=
    tightness_cases (l := l) (by omega)
  · omega
  · exact hl
  all_goals omega

theorem tightness_eq_add_three {l : Lexeme} (hlevel : level < 6) (h : tightness l = level + 3) :
    ∃ op, l = .operator op ∧ op.level? = some level := by
  obtain ⟨-, hl⟩ | ⟨-, hl⟩ | ⟨op, k, hop, hk, -, hl⟩ | ⟨-, hl⟩ :=
    tightness_cases (l := l) (by omega)
  · omega
  · omega
  · obtain rfl : k = level := by omega
    exact ⟨op, hop, hk⟩
  · omega

theorem tightness_eq_nine {l : Lexeme} (h : tightness l = 9) :
    l = .punctuation '.' ∨ l = .punctuation '[' ∨ l = .punctuation '(' := by
  obtain ⟨-, hl⟩ | ⟨-, hl⟩ | ⟨op, level, -, -, hlt, hl⟩ | ⟨hl, -⟩ :=
    tightness_cases (l := l) (by omega)
  · omega
  · omega
  · omega
  · exact hl

/-- A bound on the next lexeme goes down by one if the lexeme does not reach it. -/
theorem Follows.tighten {bound : Nat} (h : Follows (bound + 1) ts)
    (hne : ∀ t us, ts = t :: us → tightness t.lexeme ≠ bound) : Follows bound ts := by
  cases ts with
  | nil => simp [Follows]
  | cons t us =>
    have hlt := follows_cons.1 h
    have hbound := hne t us rfl
    exact follows_cons.2 (by omega)

/-- Where the punctuation of a level is not there, something less firm follows. -/
theorem Follows.of_skip? {c : Char} {bound : Nat} (h : Follows (bound + 1) ts)
    (hc : ∀ l, tightness l = bound → l = .punctuation c) (hskip : skip? c ts = none) :
    Follows bound ts := by
  refine h.tighten ?_
  rintro ⟨l, p⟩ us rfl hl
  obtain rfl := hc l hl
  simp at hskip

/-- Where no operator of a level is there, something less firm follows. -/
theorem Follows.of_operatorAt? (h : Follows (level + 4) ts) (hlevel : level < 6)
    (hat : operatorAt? level ts = none) : Follows (level + 3) ts := by
  refine h.tighten ?_
  rintro ⟨l, p⟩ us rfl hl
  obtain ⟨op, rfl, hop⟩ := tightness_eq_add_three hlevel hl
  simp [operatorAt?_operator hop] at hat

end

/-- The rows that go on from an expression; what they see first does not belong to it. -/
def Goal.Faces (ts : List Token) : Goal → Prop
  | .listed => Follows 2 ts
  | .joined level _ => Follows (level + 4) ts
  | _ => True

/-- With this fuel the rules read as far as they can. -/
def ReachesAt (fuel : Nat) : Prop :=
  ∀ (g : Goal) {ts rest : List Token} {r : g.Result}, g.Regular → g.Faces ts →
    g.run fuel ts = .ok (r, rest) → Follows (g.phrase r).reach rest

namespace ReachesAt

variable {fuel : Nat} {ts rest : List Token} {e : Expr} (ih : ReachesAt fuel)
include ih

theorem sequence (h : Grammar.sequence (fuel + 1) ts = .ok (e, rest)) : Follows 1 rest := by
  simp only [Grammar.sequence, bind_eq_ok, Prod.exists] at h
  obtain ⟨first, us, hfirst, h⟩ := h
  have hus : Follows 2 us := ih .conditional trivial trivial hfirst
  split at h
  · rename_i hskip
    obtain ⟨-, rfl⟩ := Prod.mk.inj (Except.ok.inj h)
    exact hus.of_skip? (fun _ => tightness_eq_one) hskip
  · simp only [bind_eq_ok, Prod.exists] at h
    obtain ⟨more, vs, hmore, h⟩ := h
    obtain ⟨-, rfl⟩ := Prod.mk.inj (Except.ok.inj h)
    exact ih .listed trivial hus hmore

theorem listed {es : List Expr} (hts : Follows 2 ts)
    (h : Grammar.listed (fuel + 1) ts = .ok (es, rest)) : Follows 1 rest := by
  unfold Grammar.listed at h
  split at h
  · rename_i hskip
    obtain ⟨-, rfl⟩ := Prod.mk.inj (Except.ok.inj h)
    exact hts.of_skip? (fun _ => tightness_eq_one) hskip
  · simp only [bind_eq_ok, Prod.exists] at h
    obtain ⟨first, us, hfirst, more, vs, hmore, h⟩ := h
    obtain ⟨-, rfl⟩ := Prod.mk.inj (Except.ok.inj h)
    exact ih .listed trivial (ih .conditional trivial trivial hfirst) hmore

theorem conditional (h : Grammar.conditional (fuel + 1) ts = .ok (e, rest)) : Follows 2 rest := by
  simp only [Grammar.conditional, bind_eq_ok, Prod.exists] at h
  obtain ⟨test, us, htest, h⟩ := h
  have hus : Follows 3 us := ih (.binary 0) (Nat.zero_le 6) trivial htest
  split at h
  · rename_i hskip
    obtain ⟨-, rfl⟩ := Prod.mk.inj (Except.ok.inj h)
    exact hus.of_skip? (fun _ => tightness_eq_two) hskip
  · simp only [bind_eq_ok, Prod.exists] at h
    obtain ⟨yes, vs, -, ws, -, no, rest', hno, h⟩ := h
    obtain ⟨-, rfl⟩ := Prod.mk.inj (Except.ok.inj h)
    exact ih .conditional trivial trivial hno

theorem binary {level : Nat} (hlevel : level ≤ 6)
    (h : Grammar.binary (fuel + 1) level ts = .ok (e, rest)) : Follows (level + 3) rest := by
  unfold Grammar.binary at h
  split at h
  · rename_i heq
    subst heq
    exact ih .unary trivial trivial h
  · have hlt : level < 6 := by omega
    simp only [bind_eq_ok, Prod.exists] at h
    obtain ⟨left, us, hleft, h⟩ := h
    exact ih (.joined level left) hlt (ih (.binary (level + 1)) hlt trivial hleft) h

theorem joined {level : Nat} {left : Expr} (hlevel : level < 6) (hts : Follows (level + 4) ts)
    (h : Grammar.joined (fuel + 1) level left ts = .ok (e, rest)) : Follows (level + 3) rest := by
  unfold Grammar.joined at h
  split at h
  · rename_i hat
    obtain ⟨-, rfl⟩ := Prod.mk.inj (Except.ok.inj h)
    exact hts.of_operatorAt? hlevel hat
  · simp only [bind_eq_ok, Prod.exists] at h
    obtain ⟨right, us, hright, h⟩ := h
    exact ih (.joined level _) hlevel (ih (.binary (level + 1)) hlevel trivial hright) h

theorem unary (h : Grammar.unary (fuel + 1) ts = .ok (e, rest)) : Follows 9 rest := by
  unfold Grammar.unary at h
  split at h
  · simp only [bind_eq_ok, Prod.exists] at h
    obtain ⟨operand, us, hoperand, e', -, h⟩ := h
    obtain ⟨-, rfl⟩ := Prod.mk.inj (Except.ok.inj h)
    exact ih .unary trivial trivial hoperand
  · simp only [bind_eq_ok, Prod.exists] at h
    obtain ⟨base, us, -, h⟩ := h
    exact ih (.extended base) trivial trivial h

theorem extended {base : Expr} (h : Grammar.extended (fuel + 1) base ts = .ok (e, rest)) :
    Follows 9 rest := by
  unfold Grammar.extended at h
  split at h
  · split at h
    · split at h
      · exact ih (.extended _) trivial trivial h
      · exact (stopAt_ne_ok h).elim
    · exact (stopAt_ne_ok h).elim
  · simp only [bind_eq_ok, Prod.exists] at h
    obtain ⟨inside, us, -, vs, -, h⟩ := h
    split at h
    · exact ih (.extended _) trivial trivial h
    · exact (stopAt_ne_ok h).elim
  · split at h
    · simp only [bind_eq_ok, Prod.exists] at h
      obtain ⟨args, us, -, h⟩ := h
      exact ih (.extended _) trivial trivial h
    · exact (stopAt_ne_ok h).elim
  · rename_i hpoint hbracket hcall
    obtain ⟨-, rfl⟩ := Prod.mk.inj (Except.ok.inj h)
    refine (follows_ten ts).tighten ?_
    rintro ⟨l, p⟩ us rfl hl
    obtain rfl | rfl | rfl := tightness_eq_nine hl
    · exact hpoint p us rfl
    · exact hbracket p us rfl
    · exact hcall p us rfl

end ReachesAt

/-- The rules read as far as they can. -/
theorem reachesAt (fuel : Nat) : ReachesAt fuel := by
  induction fuel with
  | zero =>
    intro g ts rest r hg _ h
    cases g <;> exact (stopAt_ne_ok h).elim
  | succ fuel ih =>
    intro g ts rest r hg hts h
    cases g with
    | sequence => exact ih.sequence h
    | listed => exact ih.listed hts h
    | conditional => exact ih.conditional h
    | binary level => exact ih.binary hg h
    | joined level left => exact ih.joined hg hts h
    | unary => exact ih.unary h
    | extended base => exact ih.extended h
    | primary | arguments | members => exact follows_ten rest

/-! ## Complaints -/

/-- A rule that has taken the lexemes `ls` stops before `next`. -/
inductive Fails : Goal → List Lexeme → Lexeme → Complaint → Prop
  | colon {test yes : Expr} {ls ys : List Lexeme} {next : Lexeme} (ht : Derives (.binary 0 test) ls)
    (hy : Derives (.conditional yes) ys) (hbound : tightness next < 2)
    (hnext : next ≠ .punctuation ':') :
    Fails .conditional (ls ++ .punctuation '?' :: ys) next (.expected (String.singleton ':'))
  | name {base : Expr} {next : Lexeme} (hnext : ∀ s, next ≠ .name s) :
    Fails (.extended base) [.punctuation '.'] next (.expected "IDENT")
  | member {base : Expr} {s : String} {next : Lexeme} (hm : base.member? s = none) :
    Fails (.extended base) [.punctuation '.', .name s] next .memberAfterPath
  | bracket {base inside : Expr} {ls : List Lexeme} {next : Lexeme}
    (hi : Derives (.sequence inside) ls) (hbound : tightness next < 1)
    (hnext : next ≠ .punctuation ']') :
    Fails (.extended base) (.punctuation '[' :: ls) next (.expected (String.singleton ']'))
  | place {base inside : Expr} {ls : List Lexeme} {next : Lexeme}
    (hi : Derives (.sequence inside) ls) (hb : base.isPlace = false) :
    Fails (.extended base) (.punctuation '[' :: (ls ++ [.punctuation ']'])) next .bracketsAfterPath
  | function {base : Expr} {next : Lexeme} (hb : ∀ f, base ≠ .path f) :
    Fails (.extended base) [.punctuation '('] next .callOfName
  | operand {next : Lexeme} (hnext : opens next = false ∨ ∃ op, next = .operator op) :
    Fails .primary [] next .unexpected
  | parenthesis {e : Expr} {ls : List Lexeme} {next : Lexeme} (he : Derives (.sequence e) ls)
    (hbound : tightness next < 1) (hnext : next ≠ .punctuation ')') :
    Fails .primary (.punctuation '(' :: ls) next (.expected (String.singleton ')'))
  | argument {closing : Char} {e : Expr} {ls : List Lexeme} {next : Lexeme}
    (he : Derives (.conditional e) ls) (hbound : tightness next < 1)
    (hnext : next ≠ .punctuation closing) :
    Fails (.arguments closing) ls next (.expected (String.singleton ','))
  | key {next : Lexeme} (hk : key? next = none) (hnext : next ≠ .punctuation '}') :
    Fails .members [] next .objectKey
  | keyColon {key next : Lexeme} {k : String} (hk : key? key = some k)
    (hnext : next ≠ .punctuation ':') :
    Fails .members [key] next (.expected (String.singleton ':'))
  | value {key next : Lexeme} {k : String} {e : Expr} {ls : List Lexeme} (hk : key? key = some k)
    (he : Derives (.conditional e) ls) (hbound : tightness next < 1)
    (hnext : next ≠ .punctuation '}') :
    Fails .members (key :: .punctuation ':' :: ls) next (.expected (String.singleton ','))

/-- A rule that has taken the lexemes `ls`, itself and in its calls, stops before `last`. -/
inductive Stops : Goal → List Lexeme → Lexeme → Complaint → Prop
  | here {g : Goal} {ls : List Lexeme} {last : Lexeme} {complaint : Complaint}
    (h : Fails g ls last complaint) : Stops g ls last complaint
  | inside {g g' : Goal} {ls more : List Lexeme} {next last : Lexeme} {complaint : Complaint}
    (h : Enters g ls next g') (hnext : (more ++ [last]).head? = some next)
    (hmore : Stops g' more last complaint) : Stops g (ls ++ more) last complaint

/-- Reading fails because a sign does not fit the constant behind it, or it stops at one of the
tokens. -/
inductive Located (Stop : List Lexeme → Lexeme → Complaint → Prop) (ts : List Token) : Cause → Prop
  | refused {pre us rest : List Token} {op : Operator} {p : Nat} {v : Value} {ls : List Lexeme}
    (hts : ts = pre ++ ⟨.operator op, p⟩ :: us) (hoperand : Derives (.unary (.literal v)) ls)
    (hls : Passes ls us rest) (hfold : foldUnary op v = .error (.cannotApply op.symbol v)) :
    Located Stop ts (.cannotApply op.symbol v)
  | stopped {pre post : List Token} {t : Token} {complaint : Complaint}
    (hts : ts = pre ++ t :: post)
    (h : Stop (pre.map Token.lexeme) t.lexeme complaint) :
    Located Stop ts (.stopped complaint t.lexeme.value? t.position)

section

variable {g g' : Goal} {ls : List Lexeme} {ts us : List Token} {cause : Cause}

theorem exists_cons_of_stop_mem (h : .stop ∈ ts.map Token.lexeme) :
    ∃ l p us, ts = ⟨l, p⟩ :: us := by
  obtain ⟨l, p, -, us, -, hts, -⟩ := inStep_alike ⟨h, rfl⟩
  exact ⟨l, p, us, hts⟩

/-- A failure inside of a call is located for the rule that makes it. -/
theorem Located.inside (h : Located (Stops g') us cause) (hls : Passes ls ts us)
    (henters : ∀ next p vs, us = ⟨next, p⟩ :: vs → Enters g ls next g') :
    Located (Stops g) ts cause := by
  obtain ⟨mid, rfl, rfl⟩ := hls
  cases h with
  | @refused pre us rest op p v ls hus hoperand hls hfold =>
    have hsplit : mid ++ (pre ++ ⟨.operator op, p⟩ :: us) =
        (mid ++ pre) ++ ⟨.operator op, p⟩ :: us := (List.append_assoc _ _ _).symm
    exact hus ▸ .refused hsplit hoperand hls hfold
  | @stopped pre post t complaint hus hstops =>
    have hsplit : mid ++ us = (mid ++ pre) ++ t :: post := by rw [hus, List.append_assoc]
    refine .stopped hsplit ?_
    rw [List.map_append]
    cases pre with
    | nil => exact .inside (henters t.lexeme t.position post hus) rfl hstops
    | cons u pre => exact .inside (henters u.lexeme u.position _ hus) rfl hstops

theorem located_stopAt {α : Type} {complaint : Complaint} (hstop : .stop ∈ us.map Token.lexeme)
    (h : (stopAt complaint us : Except Cause α) = .error cause) (hls : Passes ls ts us)
    (hfails : ∀ next p vs, us = ⟨next, p⟩ :: vs → Fails g ls next complaint) :
    Located (Stops g) ts cause := by
  obtain ⟨l, p, vs, rfl⟩ := exists_cons_of_stop_mem hstop
  obtain ⟨mid, rfl, rfl⟩ := hls
  obtain rfl := Except.error.inj h
  exact .stopped rfl (.here (hfails l p vs rfl))

/-- Punctuation that is missing is located where it is demanded. -/
theorem located_demand {c : Char} (hstop : .stop ∈ us.map Token.lexeme)
    (h : demand c us = .error cause) (hls : Passes ls ts us)
    (hfails : ∀ next p vs, us = ⟨next, p⟩ :: vs → next ≠ .punctuation c →
      Fails g ls next (.expected (String.singleton c))) : Located (Stops g) ts cause := by
  unfold demand at h
  split at h
  · cases h
  · rename_i hskip
    refine located_stopAt hstop h hls fun next p vs hus => hfails next p vs hus ?_
    rintro rfl
    simp [hus] at hskip

theorem foldUnary_eq_error {op : Operator} {v : Value} (h : foldUnary op v = .error cause) :
    cause = .cannotApply op.symbol v := by
  unfold foldUnary at h
  split at h
  case h_6 => exact (Except.error.inj h).symm
  all_goals cases h

/-- A sign fails on constants alone. -/
theorem exists_of_ofUnary_eq_error {op : Operator} {operand : Expr}
    (h : ofUnary op operand = .error cause) :
    ∃ v, operand = .literal v ∧ foldUnary op v = .error cause := by
  unfold ofUnary at h
  split at h
  · rename_i v
    cases hv : foldUnary op v with
    | ok w => simp [hv, Except.map] at h
    | error cause' =>
      obtain rfl : cause' = cause := by simpa [hv, Except.map] using h
      exact ⟨v, rfl, hv⟩
  · cases h

end

/-- Behind a member of a list stands its closing mark, a comma, or what it stops at. -/
theorem separated_eq_error {α : Type} {us : List Token} {cause : Cause} {c : Char}
    {f : List Token → Except Cause α} (hus : Follows 2 us)
    (h : (if (skip? c us).isSome then Except.ok us >>= f else demand ',' us >>= f) = .error cause) :
    (∃ p vs, us = ⟨.punctuation c, p⟩ :: vs ∧ f us = .error cause) ∨
      (∃ p vs, us = ⟨.punctuation ',', p⟩ :: vs ∧ f vs = .error cause) ∨
      demand ',' us = .error cause ∧
        ∀ next p vs, us = ⟨next, p⟩ :: vs → next ≠ .punctuation ',' →
          tightness next < 1 ∧ next ≠ .punctuation c := by
  split at h
  · rename_i hsome
    obtain ⟨vs, hvs⟩ := Option.isSome_iff_exists.1 hsome
    obtain ⟨p, hp⟩ := exists_of_skip? hvs
    exact .inl ⟨p, vs, hp, h⟩
  · rename_i hsome
    obtain h | ⟨vs, hvs, h⟩ := bind_eq_error.1 h
    · refine .inr (.inr ⟨h, ?_⟩)
      rintro next p vs rfl hne
      have hbound : tightness next < 2 := follows_cons.1 hus
      have hcomma : tightness next ≠ 1 := fun hone => hne (tightness_eq_one hone)
      refine ⟨by omega, ?_⟩
      rintro rfl
      simp at hsome
    · obtain ⟨p, hp⟩ := exists_of_demand hvs
      exact .inr (.inl ⟨p, vs, hp, h⟩)

/-- With this fuel, where it is enough, the failures of the rules are located. -/
def LocatesAt (fuel : Nat) : Prop :=
  ∀ (g : Goal) {ts : List Token} {cause : Cause}, g.Regular → g.need ts ≤ fuel →
    .stop ∈ ts.map Token.lexeme → g.run fuel ts = .error cause → Located (Stops g) ts cause

/-- What a rule has taken, with the end token left. -/
theorem Goal.exists_passes (g : Goal) {fuel : Nat} {ts rest : List Token} {r : g.Result}
    (hg : g.Regular) (hstop : .stop ∈ ts.map Token.lexeme) (h : g.run fuel ts = .ok (r, rest)) :
    ∃ ls, Derives (g.phrase r) ls ∧ Passes ls ts rest ∧ .stop ∈ rest.map Token.lexeme := by
  obtain ⟨ls, hr, hls⟩ := passes_of_run hg h
  exact ⟨ls, hr, hls, stop_mem_of_run hstop h⟩

namespace LocatesAt

variable {fuel : Nat} {g : Goal} {ls : List Lexeme} {ts us : List Token} {cause : Cause}
variable (ih : LocatesAt fuel)
include ih

theorem enter (g' : Goal) (hfuel : g.need ts ≤ fuel + 1) (hg : g.Regular)
    (hstop : .stop ∈ us.map Token.lexeme) (h : g'.run fuel us = .error cause)
    (hls : Passes ls ts us) (henters : ∀ next p vs, us = ⟨next, p⟩ :: vs → Enters g ls next g') :
    Located (Stops g) ts cause := by
  obtain ⟨next, p, vs, hus⟩ := exists_cons_of_stop_mem hstop
  have henter := henters next p vs hus
  have hneed := Nat.le_of_lt_succ (Nat.lt_of_lt_of_le (henter.need_lt hls) hfuel)
  exact (ih g' (henter.regular hg) hneed hstop h).inside hls henters

theorem sequence (hfuel : Goal.sequence.need ts ≤ fuel + 1) (hstop : .stop ∈ ts.map Token.lexeme)
    (h : Grammar.sequence (fuel + 1) ts = .error cause) : Located (Stops .sequence) ts cause := by
  unfold Grammar.sequence at h
  obtain h | ⟨⟨first, us⟩, hfirst, h⟩ := bind_eq_error.1 h
  · exact ih.enter .conditional hfuel trivial hstop h .nil fun _ _ _ _ => .first
  obtain ⟨ls, he, hls, hus⟩ := Goal.exists_passes .conditional trivial hstop hfirst
  dsimp only at h
  split at h
  · cases h
  · obtain h | ⟨_, -, h⟩ := bind_eq_error.1 h
    · exact ih.enter .listed hfuel trivial hus h hls fun _ _ _ _ => .others he
    · cases h

theorem listed (hfuel : Goal.listed.need ts ≤ fuel + 1) (hstop : .stop ∈ ts.map Token.lexeme)
    (h : Grammar.listed (fuel + 1) ts = .error cause) : Located (Stops .listed) ts cause := by
  unfold Grammar.listed at h
  split at h
  · cases h
  · rename_i us hcomma
    obtain ⟨p, rfl⟩ := exists_of_skip? hcomma
    have hus : .stop ∈ us.map Token.lexeme := by simpa using hstop
    obtain h | ⟨⟨first, vs⟩, hfirst, h⟩ := bind_eq_error.1 h
    · exact ih.enter .conditional hfuel trivial hus h .one fun _ _ _ _ => .item
    obtain ⟨ls, he, hls, hvs⟩ := Goal.exists_passes .conditional trivial hus hfirst
    obtain h | ⟨_, -, h⟩ := bind_eq_error.1 h
    · exact ih.enter .listed hfuel trivial hvs h hls.cons fun _ _ _ _ => .items he
    · cases h

theorem conditional (hfuel : Goal.conditional.need ts ≤ fuel + 1)
    (hstop : .stop ∈ ts.map Token.lexeme)
    (h : Grammar.conditional (fuel + 1) ts = .error cause) :
    Located (Stops .conditional) ts cause := by
  unfold Grammar.conditional at h
  obtain h | ⟨⟨test, us⟩, htest, h⟩ := bind_eq_error.1 h
  · exact ih.enter (.binary 0) hfuel trivial hstop h .nil fun _ _ _ _ => .test
  obtain ⟨ls, ht, hls, hus⟩ := Goal.exists_passes (.binary 0) (Nat.zero_le 6) hstop htest
  dsimp only at h
  split at h
  · cases h
  · rename_i vs hmark
    obtain ⟨p, rfl⟩ := exists_of_skip? hmark
    have hvs : .stop ∈ vs.map Token.lexeme := by simpa using hus
    obtain h | ⟨⟨yes, ws⟩, hyes, h⟩ := bind_eq_error.1 h
    · exact ih.enter .conditional hfuel trivial hvs h (hls.append .one) fun _ _ _ _ => .yes ht
    obtain ⟨ys, hy, hys, hws⟩ := Goal.exists_passes .conditional trivial hvs hyes
    have hreach : Follows 2 ws := reachesAt fuel .conditional trivial trivial hyes
    obtain h | ⟨us, hcolon, h⟩ := bind_eq_error.1 h
    · refine located_demand hws h (hls.append hys.cons) fun next q us hnext hne => ?_
      subst hnext
      exact .colon ht hy (follows_cons.1 hreach) hne
    obtain ⟨q, rfl⟩ := exists_of_demand hcolon
    obtain h | ⟨_, -, h⟩ := bind_eq_error.1 h
    · exact ih.enter .conditional hfuel trivial (by simpa using hws) h
        (hls.append (hys.append .one).cons) fun _ _ _ _ => .no ht hy
    · cases h

theorem binary {level : Nat} (hlevel : level ≤ 6) (hfuel : (Goal.binary level).need ts ≤ fuel + 1)
    (hstop : .stop ∈ ts.map Token.lexeme)
    (h : Grammar.binary (fuel + 1) level ts = .error cause) :
    Located (Stops (.binary level)) ts cause := by
  unfold Grammar.binary at h
  split at h
  · rename_i heq
    subst heq
    exact ih.enter .unary hfuel hlevel hstop h .nil fun _ _ _ _ => .operand
  · have hlt : level < 6 := by omega
    obtain h | ⟨⟨left, us⟩, hleft, h⟩ := bind_eq_error.1 h
    · exact ih.enter (.binary (level + 1)) hfuel hlevel hstop h .nil fun _ _ _ _ => .left hlt
    obtain ⟨ls, hl, hls, hus⟩ := Goal.exists_passes (.binary (level + 1)) hlt hstop hleft
    exact ih.enter (.joined level left) hfuel hlevel hus h hls fun _ _ _ _ => .joins hlt hl

theorem joined {level : Nat} {left : Expr} (hlevel : level < 6)
    (hfuel : (Goal.joined level left).need ts ≤ fuel + 1) (hstop : .stop ∈ ts.map Token.lexeme)
    (h : Grammar.joined (fuel + 1) level left ts = .error cause) :
    Located (Stops (.joined level left)) ts cause := by
  unfold Grammar.joined at h
  split at h
  · cases h
  · rename_i op us hat
    obtain ⟨p, rfl, hop⟩ := exists_of_operatorAt? hat
    have hus : .stop ∈ us.map Token.lexeme := by simpa using hstop
    obtain h | ⟨⟨right, vs⟩, hright, h⟩ := bind_eq_error.1 h
    · exact ih.enter (.binary (level + 1)) hfuel hlevel hus h .one fun _ _ _ _ => .right hop
    obtain ⟨ls, hr, hls, hvs⟩ := Goal.exists_passes (.binary (level + 1)) hlevel hus hright
    exact ih.enter (.joined level _) hfuel hlevel hvs h hls.cons fun _ _ _ _ => .joinsMore hop hr

theorem unary (hfuel : Goal.unary.need ts ≤ fuel + 1) (hstop : .stop ∈ ts.map Token.lexeme)
    (h : Grammar.unary (fuel + 1) ts = .error cause) : Located (Stops .unary) ts cause := by
  unfold Grammar.unary at h
  split at h
  · rename_i op us hat
    obtain ⟨p, rfl, hop⟩ := exists_of_unaryAt? hat
    have hus : .stop ∈ us.map Token.lexeme := by simpa using hstop
    obtain h | ⟨⟨operand, vs⟩, hoperand, h⟩ := bind_eq_error.1 h
    · exact ih.enter .unary hfuel trivial hus h .one fun _ _ _ _ => .operation hop
    obtain ⟨ls, he, hls, -⟩ := Goal.exists_passes .unary trivial hus hoperand
    obtain h | ⟨_, -, h⟩ := bind_eq_error.1 h
    · obtain ⟨v, rfl, hfold⟩ := exists_of_ofUnary_eq_error h
      obtain rfl := foldUnary_eq_error hfold
      exact .refused (List.nil_append _).symm he hls hfold
    · cases h
  · rename_i hat
    obtain h | ⟨⟨base, us⟩, hbase, h⟩ := bind_eq_error.1 h
    · refine ih.enter .primary hfuel trivial hstop h .nil fun next p vs hts => .base ?_
      rintro op rfl
      simpa [hts, unaryAt?] using hat
    obtain ⟨ls, hb, hls, hus⟩ := Goal.exists_passes .primary trivial hstop hbase
    exact ih.enter (.extended base) hfuel trivial hus h hls fun _ _ _ _ => .extension hb

theorem extended {base : Expr} (hfuel : (Goal.extended base).need ts ≤ fuel + 1)
    (hstop : .stop ∈ ts.map Token.lexeme)
    (h : Grammar.extended (fuel + 1) base ts = .error cause) :
    Located (Stops (.extended base)) ts cause := by
  unfold Grammar.extended at h
  split at h
  · split at h
    · split at h
      · rename_i base' hm
        exact ih.enter (.extended base') hfuel trivial (by simpa using hstop) h (.cons .one)
          fun _ _ _ _ => .member hm
      · rename_i hm
        exact located_stopAt (by simpa using hstop) h (.cons .one) fun _ _ _ _ => .member hm
    · rename_i hname
      refine located_stopAt (by simpa using hstop) h .one fun next p vs hts => .name ?_
      rintro s rfl
      exact hname s p vs hts
  · rename_i p us
    have hus : .stop ∈ us.map Token.lexeme := by simpa using hstop
    obtain h | ⟨⟨inside, vs⟩, hinside, h⟩ := bind_eq_error.1 h
    · exact ih.enter .sequence hfuel trivial hus h .one fun _ _ _ _ => .inside
    obtain ⟨ls, hi, hls, hvs⟩ := Goal.exists_passes .sequence trivial hus hinside
    have hreach : Follows 1 vs := reachesAt fuel .sequence trivial trivial hinside
    dsimp only at h
    obtain h | ⟨ws, hclose, h⟩ := bind_eq_error.1 h
    · refine located_demand hvs h hls.cons fun next q us hnext hne => ?_
      subst hnext
      exact .bracket hi (follows_cons.1 hreach) hne
    obtain ⟨q, rfl⟩ := exists_of_demand hclose
    have hws : .stop ∈ ws.map Token.lexeme := by simpa using hvs
    split at h
    · rename_i hplace
      exact ih.enter (.extended _) hfuel trivial hws h (hls.append .one).cons
        fun _ _ _ _ => .brackets hplace hi
    · rename_i hplace
      exact located_stopAt hws h (hls.append .one).cons
        fun _ _ _ _ => .place hi (Bool.eq_false_iff.2 hplace)
  · rename_i p us
    have hus : .stop ∈ us.map Token.lexeme := by simpa using hstop
    split at h
    · obtain h | ⟨⟨args, vs⟩, hargs, h⟩ := bind_eq_error.1 h
      · exact ih.enter (.arguments ')') hfuel trivial hus h .one fun _ _ _ _ => .called
      obtain ⟨ls, ha, hls, hvs⟩ := Goal.exists_passes (.arguments ')') (.inl rfl) hus hargs
      exact ih.enter (.extended _) hfuel trivial hvs h hls.cons fun _ _ _ _ => .call ha
    · rename_i hpath
      exact located_stopAt hus h .one fun _ _ _ _ => .function fun f hf => hpath f hf
  · cases h

theorem primary (hfuel : Goal.primary.need ts ≤ fuel + 1) (hstop : .stop ∈ ts.map Token.lexeme)
    (h : Grammar.primary (fuel + 1) ts = .error cause) : Located (Stops .primary) ts cause := by
  obtain ⟨l, p, us, rfl⟩ := exists_cons_of_stop_mem hstop
  obtain ⟨e, -, hread⟩ | rfl | rfl | rfl | ⟨hl, hother⟩ := primary_cases l
  · rw [hread] at h
    cases h
  · have hus : .stop ∈ us.map Token.lexeme := by simpa using hstop
    obtain h | ⟨⟨e, vs⟩, he, h⟩ := bind_eq_error.1 h
    · exact ih.enter .sequence hfuel trivial hus h .one fun _ _ _ _ => .group
    obtain ⟨ls, he', hls, hvs⟩ := Goal.exists_passes .sequence trivial hus he
    have hreach : Follows 1 vs := reachesAt fuel .sequence trivial trivial he
    obtain h | ⟨_, -, h⟩ := bind_eq_error.1 h
    · refine located_demand hvs h hls.cons fun next q us hnext hne => ?_
      subst hnext
      exact .parenthesis he' (follows_cons.1 hreach) hne
    · cases h
  · obtain h | ⟨_, -, h⟩ := bind_eq_error.1 h
    · exact ih.enter (.arguments ']') hfuel trivial (by simpa using hstop) h .one
        fun _ _ _ _ => .array
    · cases h
  · obtain h | ⟨_, -, h⟩ := bind_eq_error.1 h
    · exact ih.enter .members hfuel trivial (by simpa using hstop) h .one fun _ _ _ _ => .object
    · cases h
  · rw [hother] at h
    refine located_stopAt hstop h .nil fun next q vs hts => .operand ?_
    obtain ⟨rfl, -⟩ := Token.mk.inj (List.cons.inj hts).1
    exact hl

theorem arguments {closing : Char} (hc : (Goal.arguments closing).Regular)
    (hfuel : (Goal.arguments closing).need ts ≤ fuel + 1) (hstop : .stop ∈ ts.map Token.lexeme)
    (h : Grammar.arguments (fuel + 1) closing ts = .error cause) :
    Located (Stops (.arguments closing)) ts cause := by
  unfold Grammar.arguments at h
  split at h
  · cases h
  · rename_i hskip
    obtain h | ⟨⟨first, us⟩, hfirst, h⟩ := bind_eq_error.1 h
    · refine ih.enter .conditional hfuel hc hstop h .nil fun next p vs hts => .argument ?_
      rintro rfl
      simp [hts] at hskip
    obtain ⟨ls, he, hls, hus⟩ := Goal.exists_passes .conditional trivial hstop hfirst
    have hreach : Follows 2 us := reachesAt fuel .conditional trivial trivial hfirst
    obtain ⟨p, vs, hvs, hmore⟩ | ⟨p, vs, rfl, hmore⟩ | ⟨hcomma, hnext⟩ :=
      separated_eq_error hreach h
    · obtain hmore | ⟨_, -, hend⟩ := bind_eq_error.1 hmore
      · refine ih.enter (.arguments closing) hfuel hc hus hmore hls fun next q ws hws => ?_
        obtain ⟨rfl, -⟩ := Token.mk.inj (List.cons.inj (hvs.symm.trans hws)).1
        exact .lastArgument he
      · cases hend
    · obtain hmore | ⟨_, -, hend⟩ := bind_eq_error.1 hmore
      · exact ih.enter (.arguments closing) hfuel hc (by simpa using hus) hmore (hls.append .one)
          fun _ _ _ _ => .arguments he
      · cases hend
    · refine located_demand hus hcomma hls fun next p vs hvs hne => ?_
      obtain ⟨hbound, hclosing⟩ := hnext next p vs hvs hne
      exact .argument he hbound hclosing

theorem members (hfuel : Goal.members.need ts ≤ fuel + 1) (hstop : .stop ∈ ts.map Token.lexeme)
    (h : Grammar.members (fuel + 1) ts = .error cause) : Located (Stops .members) ts cause := by
  obtain ⟨key, p, us, rfl⟩ := exists_cons_of_stop_mem hstop
  unfold Grammar.members at h
  split at h
  · cases h
  rename_i hskip
  dsimp only at h
  split at h
  · rename_i hk
    refine located_stopAt hstop h .nil fun next q vs hts => ?_
    obtain ⟨rfl, -⟩ := Token.mk.inj (List.cons.inj hts).1
    refine .key hk ?_
    rintro rfl
    simp at hskip
  · rename_i k hk
    have hus : .stop ∈ us.map Token.lexeme := by
      refine (List.mem_cons.1 hstop).resolve_left ?_
      rintro rfl
      cases hk
    obtain hcolon | ⟨vs, hcolon, hvalue⟩ := bind_eq_error.1 h
    · exact located_demand hus hcolon .one fun _ _ _ _ hne => .keyColon hk hne
    obtain ⟨q, rfl⟩ := exists_of_demand hcolon
    have hvs : .stop ∈ vs.map Token.lexeme := by simpa using hus
    obtain h | ⟨⟨v, ws⟩, hv, h⟩ := bind_eq_error.1 hvalue
    · exact ih.enter .conditional hfuel trivial hvs h (.cons .one) fun _ _ _ _ => .value hk
    obtain ⟨ls, he, hls, hws⟩ := Goal.exists_passes .conditional trivial hvs hv
    have hreach : Follows 2 ws := reachesAt fuel .conditional trivial trivial hv
    obtain ⟨r, us, hclosed, hmore⟩ | ⟨r, us, rfl, hmore⟩ | ⟨hcomma, hnext⟩ :=
      separated_eq_error hreach h
    · obtain hmore | ⟨_, -, hend⟩ := bind_eq_error.1 hmore
      · refine ih.enter .members hfuel trivial hws hmore hls.cons.cons fun next r vs hvs => ?_
        obtain ⟨rfl, -⟩ := Token.mk.inj (List.cons.inj (hclosed.symm.trans hvs)).1
        exact .lastMember hk he
      · cases hend
    · obtain hmore | ⟨_, -, hend⟩ := bind_eq_error.1 hmore
      · exact ih.enter .members hfuel trivial (by simpa using hws) hmore (hls.append .one).cons.cons
          fun _ _ _ _ => .members hk he
      · cases hend
    · refine located_demand hws hcomma hls.cons.cons fun next r vs hvs hne => ?_
      obtain ⟨hbound, hclosing⟩ := hnext next r vs hvs hne
      exact .value hk he hbound hclosing

end LocatesAt

/-- With enough fuel every failure is located. The induction is on the fuel, with one lemma for each
rule. -/
theorem locatesAt (fuel : Nat) : LocatesAt fuel := by
  induction fuel with
  | zero =>
    intro g ts cause hg hfuel
    exact absurd hfuel (Nat.not_le_of_lt (Goal.need_pos hg))
  | succ fuel ih =>
    intro g ts cause hg hfuel hstop h
    cases g with
    | sequence => exact ih.sequence hfuel hstop h
    | listed => exact ih.listed hfuel hstop h
    | conditional => exact ih.conditional hfuel hstop h
    | binary level => exact ih.binary hg hfuel hstop h
    | joined level left => exact ih.joined hg hfuel hstop h
    | unary => exact ih.unary hfuel hstop h
    | extended base => exact ih.extended hfuel hstop h
    | primary => exact ih.primary hfuel hstop h
    | arguments closing => exact ih.arguments hg hfuel hstop h
    | members => exact ih.members hfuel hstop h

/-- Reading a whole text stops inside of its expression, or behind it before the end. -/
inductive StopsWhole (ls : List Lexeme) (last : Lexeme) : Complaint → Prop
  | inside {complaint : Complaint} (h : Stops .sequence ls last complaint) :
    StopsWhole ls last complaint
  | behind {e : Expr} (he : Derives (.sequence e) ls) (hbound : tightness last < 1)
    (hlast : last ≠ .stop) : StopsWhole ls last .unexpected

/-- Where no expression is read, a sign does not fit its operand or one of the tokens, the end token
among them, is where the descent stops. -/
theorem located_of_ofTokens {ts : List Token} {cause : Cause} (hstop : .stop ∈ ts.map Token.lexeme)
    (h : ofTokens ts = .error cause) : Located StopsWhole ts cause := by
  rw [ofTokens_eq_bind] at h
  obtain h | ⟨⟨e, rest⟩, he, h⟩ := bind_eq_error.1 h
  · have hlocated := locatesAt _ .sequence trivial (need_sequence_le ts) hstop h
    cases hlocated with
    | refused hts hoperand hls hfold => exact .refused hts hoperand hls hfold
    | stopped hts hstops => exact .stopped hts (.inside hstops)
  · have hrun : Goal.sequence.run (fuelFor ts) ts = .ok (e, rest) := he
    obtain ⟨ls, hderives, ⟨pre, hts, rfl⟩, hrest⟩ := Goal.exists_passes .sequence trivial hstop hrun
    have hreach : Follows 1 rest := reachesAt _ .sequence trivial trivial hrun
    obtain ⟨l, p, us, rfl⟩ := exists_cons_of_stop_mem hrest
    by_cases hl : l = .stop
    · subst hl
      cases h
    · have hclose : close (e, ⟨l, p⟩ :: us) = stopAt .unexpected (⟨l, p⟩ :: us) := by
        cases l with
        | stop => exact absurd rfl hl
        | _ => rfl
      rw [hclose] at h
      obtain rfl := Except.error.inj h
      exact .stopped hts (.behind hderives (follows_cons.1 hreach) hl)

end Stencil.Expr
