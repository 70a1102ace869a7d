import Stencil.Proofs.Expr.Lockstep

/-!
# The descent through the grammar

`Enters` lists the calls between the rules: which rule is entered from which, after which lexemes
and at the sight of which next one. Each call leads to less need of fuel, so that more fuel than
`Goal.need` changes no result, neither what is read nor where reading stops.
-/

namespace Stencil.Expr

open Grammar

/-! ## Stretches of tokens -/

/-- The tokens from `ts` up to `us` are these lexemes. -/
def Passes (ls : List Lexeme) (ts us : List Token) : Prop :=
  ∃ pre, ts = pre ++ us ∧ pre.map Token.lexeme = ls

section

variable {ls ls' : List Lexeme} {ts us vs : List Token} {l : Lexeme} {p : Nat}

theorem Passes.nil : Passes [] ts ts :=
  ⟨[], rfl, rfl⟩

theorem Passes.cons (h : Passes ls ts us) : Passes (l :: ls) (⟨l, p⟩ :: ts) us := by
  obtain ⟨pre, rfl, rfl⟩ := h
  exact ⟨⟨l, p⟩ :: pre, rfl, rfl⟩

theorem Passes.one : Passes [l] (⟨l, p⟩ :: ts) ts :=
  .cons .nil

/-- Lexemes that follow each other are passed together. -/
theorem Passes.append (h : Passes ls ts us) (h' : Passes ls' us vs) : Passes (ls ++ ls') ts vs := by
  obtain ⟨pre, rfl, rfl⟩ := h
  obtain ⟨pre', rfl, rfl⟩ := h'
  exact ⟨pre ++ pre', by rw [List.append_assoc], List.map_append⟩

theorem Passes.length_eq (h : Passes ls ts us) : ts.length = ls.length + us.length := by
  obtain ⟨pre, rfl, rfl⟩ := h
  rw [List.length_append, List.length_map]

end

/-! ## Calls -/

namespace Goal

def phrase : (g : Goal) → g.Result → Phrase
  | .sequence, e => .sequence e
  | .listed, es => .listed es
  | .conditional, e => .conditional e
  | .binary level, e => .binary level e
  | .joined level left, e => .joined level left e
  | .unary, e => .unary e
  | .extended base, e => .extended base e
  | .primary, e => .primary e
  | .arguments closing, es => .arguments closing es
  | .members, ms => .members ms

/-- The rules that a sequence leads to. -/
def Regular : Goal → Prop
  | .binary level => level ≤ 6
  | .joined level _ => level < 6
  | .arguments closing => closing = ')' ∨ closing = ']'
  | _ => True

/-- How many rules the descent can pass before it takes a token. -/
def rank : Goal → Nat
  | .sequence | .arguments _ => 11
  | .conditional => 10
  | .binary level => 9 - level
  | .unary => 2
  | _ => 1

/-- Enough fuel for a rule on these tokens. -/
def need (g : Goal) (ts : List Token) : Nat :=
  16 * ts.length + g.rank

variable {g : Goal} {fuel : Nat} {ts rest : List Token}

theorem need_pos (hg : g.Regular) : 0 < g.need ts := by
  have hrank : 0 < g.rank := by
    cases g with
    | binary level => exact Nat.sub_pos_of_lt (Nat.lt_of_le_of_lt hg (by decide))
    | _ => exact Nat.zero_lt_succ _
  exact Nat.lt_add_left _ hrank

/-- What a rule reads it passes, and the grammar derives it. -/
theorem passes_of_run {r : g.Result} (hg : g.Regular) (h : g.run fuel ts = .ok (r, rest)) :
    ∃ ls, Derives (g.phrase r) ls ∧ Passes ls ts rest := by
  have hregular : (g.phrase r).Regular := by
    cases g <;> exact hg
  have hreads : (g.phrase r).Reads fuel ts rest := by
    cases g <;> exact h
  obtain ⟨pre, hpre, hderives⟩ := soundAt fuel (g.phrase r) hregular hreads
  exact ⟨_, hderives, pre, hpre, rfl⟩

/-- The end token is left where a rule ends. -/
theorem stop_mem_of_run {r : g.Result} (hstop : .stop ∈ ts.map Token.lexeme)
    (h : g.run fuel ts = .ok (r, rest)) : .stop ∈ rest.map Token.lexeme := by
  have hbeside := (inStep_alike.agreesAt fuel g ⟨hstop, rfl⟩).rel_of_ok h h
  exact hbeside.2.1

end Goal

/-- A rule that has taken the lexemes `ls` and sees `next` calls another rule. -/
inductive Enters : Goal → List Lexeme → Lexeme → Goal → Prop
  | first {next : Lexeme} : Enters .sequence [] next .conditional
  | others {e : Expr} {ls : List Lexeme} {next : Lexeme} (he : Derives (.conditional e) ls) :
    Enters .sequence ls next .listed
  | item {next : Lexeme} : Enters .listed [.punctuation ','] next .conditional
  | items {e : Expr} {ls : List Lexeme} {next : Lexeme} (he : Derives (.conditional e) ls) :
    Enters .listed (.punctuation ',' :: ls) next .listed
  | test {next : Lexeme} : Enters .conditional [] next (.binary 0)
  | yes {test : Expr} {ls : List Lexeme} {next : Lexeme} (ht : Derives (.binary 0 test) ls) :
    Enters .conditional (ls ++ [.punctuation '?']) next .conditional
  | no {test yes : Expr} {ls ys : List Lexeme} {next : Lexeme} (ht : Derives (.binary 0 test) ls)
    (hy : Derives (.conditional yes) ys) :
    Enters .conditional (ls ++ .punctuation '?' :: (ys ++ [.punctuation ':'])) next .conditional
  | operand {next : Lexeme} : Enters (.binary 6) [] next .unary
  | left {level : Nat} {next : Lexeme} (hlevel : level < 6) :
    Enters (.binary level) [] next (.binary (level + 1))
  | joins {level : Nat} {left : Expr} {ls : List Lexeme} {next : Lexeme} (hlevel : level < 6)
    (hl : Derives (.binary (level + 1) left) ls) :
    Enters (.binary level) ls next (.joined level left)
  | right {level : Nat} {left : Expr} {op : Operator} {next : Lexeme}
    (hop : op.level? = some level) :
    Enters (.joined level left) [.operator op] next (.binary (level + 1))
  | joinsMore {level : Nat} {left right : Expr} {op : Operator} {ls : List Lexeme} {next : Lexeme}
    (hop : op.level? = some level) (hr : Derives (.binary (level + 1) right) ls) :
    Enters (.joined level left) (.operator op :: ls) next (.joined level (.binary op left right))
  | operation {op : Operator} {next : Lexeme} (hop : op.isUnary = true) :
    Enters .unary [.operator op] next .unary
  | base {next : Lexeme} (hnext : ∀ op, next = .operator op → op.isUnary = false) :
    Enters .unary [] next .primary
  | extension {base : Expr} {ls : List Lexeme} {next : Lexeme} (hb : Derives (.primary base) ls) :
    Enters .unary ls next (.extended base)
  | member {base base' : Expr} {name : String} {next : Lexeme}
    (hm : base.member? name = some base') :
    Enters (.extended base) [.punctuation '.', .name name] next (.extended base')
  | inside {base : Expr} {next : Lexeme} : Enters (.extended base) [.punctuation '['] next .sequence
  | brackets {base inside : Expr} {ls : List Lexeme} {next : Lexeme} (hb : base.isPlace = true)
    (hi : Derives (.sequence inside) ls) :
    Enters (.extended base) (.punctuation '[' :: (ls ++ [.punctuation ']'])) next
      (.extended (.brackets base inside []))
  | called {f : List String} {next : Lexeme} :
    Enters (.extended (.path f)) [.punctuation '('] next (.arguments ')')
  | call {f : List String} {args : List Expr} {ls : List Lexeme} {next : Lexeme}
    (ha : Derives (.arguments ')' args) ls) :
    Enters (.extended (.path f)) (.punctuation '(' :: ls) next (.extended (.call f args []))
  | group {next : Lexeme} : Enters .primary [.punctuation '('] next .sequence
  | array {next : Lexeme} : Enters .primary [.punctuation '['] next (.arguments ']')
  | object {next : Lexeme} : Enters .primary [.punctuation '{'] next .members
  | argument {closing : Char} {next : Lexeme} (hnext : next ≠ .punctuation closing) :
    Enters (.arguments closing) [] next .conditional
  | arguments {closing : Char} {e : Expr} {ls : List Lexeme} {next : Lexeme}
    (he : Derives (.conditional e) ls) :
    Enters (.arguments closing) (ls ++ [.punctuation ',']) next (.arguments closing)
  | lastArgument {closing : Char} {e : Expr} {ls : List Lexeme} (he : Derives (.conditional e) ls) :
    Enters (.arguments closing) ls (.punctuation closing) (.arguments closing)
  | value {key next : Lexeme} {k : String} (hk : key? key = some k) :
    Enters .members [key, .punctuation ':'] next .conditional
  | members {key next : Lexeme} {k : String} {e : Expr} {ls : List Lexeme} (hk : key? key = some k)
    (he : Derives (.conditional e) ls) :
    Enters .members (key :: .punctuation ':' :: (ls ++ [.punctuation ','])) next .members
  | lastMember {key : Lexeme} {k : String} {e : Expr} {ls : List Lexeme} (hk : key? key = some k)
    (he : Derives (.conditional e) ls) :
    Enters .members (key :: .punctuation ':' :: ls) (.punctuation '}') .members

section

variable {g g' : Goal} {ls : List Lexeme} {next : Lexeme} {ts us : List Token} {fuel : Nat}

/-- A sequence leads to regular rules alone. -/
theorem Enters.regular (h : Enters g ls next g') (hg : g.Regular) : g'.Regular := by
  cases h with
  | test => exact Nat.zero_le 6
  | left hlevel => exact hlevel
  | joins hlevel => exact hlevel
  | right => exact hg
  | joinsMore => exact hg
  | called => exact .inl rfl
  | array => exact .inr rfl
  | arguments => exact hg
  | lastArgument => exact hg
  | _ => trivial

/-- A call goes down in rank, or some lexemes have been taken before it. -/
theorem Enters.rank_lt (h : Enters g ls next g') : g'.rank < 16 * ls.length + g.rank := by
  have hpositive {e : Expr} {ls : List Lexeme} (he : Derives (.conditional e) ls) :
      0 < ls.length := by
    obtain ⟨l, more, rfl, -⟩ := he.exists_cons rfl
    exact Nat.zero_lt_succ _
  cases h <;>
    simp only [Goal.rank, List.length_append, List.length_cons, List.length_nil] <;>
    first
      | omega
      | exact Nat.lt_add_of_pos_left (Nat.mul_pos (by decide) (hpositive ‹_›))

/-- Each call of a rule needs less fuel than the rule that makes it. -/
theorem Enters.need_lt (h : Enters g ls next g') (hls : Passes ls ts us) :
    g'.need us < g.need ts := by
  have hrank := h.rank_lt
  rw [Goal.need, Goal.need, hls.length_eq]
  omega

/-! ## Fuel -/

section

variable {α β : Type}

theorem bind_congr_ok {x y : Except Cause α} {f g : α → Except Cause β} (hxy : x = y)
    (hfg : ∀ a, y = .ok a → f a = g a) : (x >>= f) = (y >>= g) := by
  subst hxy
  cases x with
  | error cause => rfl
  | ok a => exact hfg a rfl

theorem separated_congr (c : Char) {f g : List Token → Except Cause β}
    (hclosed : ∀ p vs, ts = ⟨.punctuation c, p⟩ :: vs → f ts = g ts)
    (hcomma : ∀ p vs, ts = ⟨.punctuation ',', p⟩ :: vs → f vs = g vs) :
    (if (skip? c ts).isSome then Except.ok ts >>= f else demand ',' ts >>= f) =
      if (skip? c ts).isSome then Except.ok ts >>= g else demand ',' ts >>= g := by
  split
  · rename_i hsome
    obtain ⟨vs, hvs⟩ := Option.isSome_iff_exists.1 hsome
    obtain ⟨p, hts⟩ := exists_of_skip? hvs
    exact hclosed p vs hts
  · refine bind_congr_ok rfl fun vs hvs => ?_
    obtain ⟨p, hts⟩ := exists_of_demand hvs
    exact hcomma p vs hts

end

/-- With this fuel, where it is enough, one unit more changes no result. -/
def StableAt (fuel : Nat) : Prop :=
  ∀ (g : Goal) {ts : List Token}, g.Regular → g.need ts ≤ fuel → g.run (fuel + 1) ts = g.run fuel ts

namespace StableAt

variable (ih : StableAt fuel)
include ih

/-- A rule that is entered with enough fuel gives the same with one unit more. -/
theorem enter (hfuel : g.need ts ≤ fuel + 1) (hg : g.Regular) (next : Lexeme)
    (h : Enters g ls next g') (hls : Passes ls ts us) : g'.run (fuel + 1) us = g'.run fuel us :=
  ih g' (h.regular hg) (Nat.le_of_lt_succ (Nat.lt_of_lt_of_le (h.need_lt hls) hfuel))

theorem sequence (hfuel : Goal.sequence.need ts ≤ fuel + 1) :
    Grammar.sequence (fuel + 2) ts = Grammar.sequence (fuel + 1) ts := by
  unfold Grammar.sequence
  refine bind_congr_ok (ih.enter hfuel trivial .stop .first .nil) ?_
  rintro ⟨first, us⟩ hfirst
  obtain ⟨ls, he, hls⟩ := Goal.passes_of_run (g := .conditional) trivial hfirst
  dsimp only
  split
  · rfl
  · exact bind_congr_ok (ih.enter hfuel trivial .stop (.others he) hls) fun _ _ => rfl

theorem listed (hfuel : Goal.listed.need ts ≤ fuel + 1) :
    Grammar.listed (fuel + 2) ts = Grammar.listed (fuel + 1) ts := by
  unfold Grammar.listed
  split
  · rfl
  · rename_i us hcomma
    obtain ⟨p, rfl⟩ := exists_of_skip? hcomma
    refine bind_congr_ok (ih.enter hfuel trivial .stop .item .one) ?_
    rintro ⟨first, vs⟩ hfirst
    obtain ⟨ls, he, hls⟩ := Goal.passes_of_run (g := .conditional) trivial hfirst
    exact bind_congr_ok (ih.enter hfuel trivial .stop (.items he) hls.cons) fun _ _ => rfl

theorem conditional (hfuel : Goal.conditional.need ts ≤ fuel + 1) :
    Grammar.conditional (fuel + 2) ts = Grammar.conditional (fuel + 1) ts := by
  unfold Grammar.conditional
  refine bind_congr_ok (ih.enter hfuel trivial .stop .test .nil) ?_
  rintro ⟨test, us⟩ htest
  obtain ⟨ls, ht, hls⟩ := Goal.passes_of_run (g := .binary 0) (Nat.zero_le 6) htest
  dsimp only
  split
  · rfl
  · rename_i vs hmark
    obtain ⟨p, rfl⟩ := exists_of_skip? hmark
    refine bind_congr_ok (ih.enter hfuel trivial .stop (.yes ht) (hls.append .one)) ?_
    rintro ⟨yes, ws⟩ hyes
    obtain ⟨ys, hy, hys⟩ := Goal.passes_of_run (g := .conditional) trivial hyes
    refine bind_congr_ok rfl fun us hus => ?_
    obtain ⟨q, rfl⟩ := exists_of_demand hus
    refine bind_congr_ok (ih.enter hfuel trivial .stop (.no ht hy) ?_) fun _ _ => rfl
    exact hls.append (hys.append .one).cons

theorem binary {level : Nat} (hlevel : level ≤ 6) (hfuel : (Goal.binary level).need ts ≤ fuel + 1) :
    Grammar.binary (fuel + 2) level ts = Grammar.binary (fuel + 1) level ts := by
  unfold Grammar.binary
  split
  · rename_i heq
    subst heq
    exact ih.enter hfuel hlevel .stop .operand .nil
  · have hlt : level < 6 := by omega
    refine bind_congr_ok (ih.enter hfuel hlevel .stop (.left hlt) .nil) ?_
    rintro ⟨left, us⟩ hleft
    obtain ⟨ls, hl, hls⟩ := Goal.passes_of_run (g := .binary (level + 1)) hlt hleft
    exact ih.enter hfuel hlevel .stop (.joins hlt hl) hls

theorem joined {level : Nat} {left : Expr} (hlevel : level < 6)
    (hfuel : (Goal.joined level left).need ts ≤ fuel + 1) :
    Grammar.joined (fuel + 2) level left ts = Grammar.joined (fuel + 1) level left ts := by
  unfold Grammar.joined
  split
  · rfl
  · rename_i op us hat
    obtain ⟨p, rfl, hop⟩ := exists_of_operatorAt? hat
    refine bind_congr_ok (ih.enter hfuel hlevel .stop (.right hop) .one) ?_
    rintro ⟨right, vs⟩ hright
    obtain ⟨ls, hr, hls⟩ := Goal.passes_of_run (g := .binary (level + 1)) hlevel hright
    exact ih.enter hfuel hlevel .stop (.joinsMore hop hr) hls.cons

theorem unary (hfuel : Goal.unary.need ts ≤ fuel + 1) :
    Grammar.unary (fuel + 2) ts = Grammar.unary (fuel + 1) ts := by
  unfold Grammar.unary
  split
  · rename_i op us hat
    obtain ⟨p, rfl, hop⟩ := exists_of_unaryAt? hat
    exact bind_congr_ok (ih.enter hfuel trivial .stop (.operation hop) .one) fun _ _ => rfl
  · refine bind_congr_ok (ih.enter hfuel trivial .stop (.base (by simp)) .nil) ?_
    rintro ⟨base, us⟩ hbase
    obtain ⟨ls, hb, hls⟩ := Goal.passes_of_run (g := .primary) trivial hbase
    exact ih.enter hfuel trivial .stop (.extension hb) hls

theorem extended {base : Expr} (hfuel : (Goal.extended base).need ts ≤ fuel + 1) :
    Grammar.extended (fuel + 2) base ts = Grammar.extended (fuel + 1) base ts := by
  unfold Grammar.extended
  split
  · split
    · split
      · rename_i hm
        exact ih.enter hfuel trivial .stop (.member hm) (.cons .one)
      · rfl
    · rfl
  · refine bind_congr_ok (ih.enter hfuel trivial .stop .inside .one) ?_
    rintro ⟨inside, vs⟩ hinside
    obtain ⟨ls, hi, hls⟩ := Goal.passes_of_run (g := .sequence) trivial hinside
    refine bind_congr_ok rfl fun ws hws => ?_
    obtain ⟨q, rfl⟩ := exists_of_demand hws
    split
    · rename_i hplace
      exact ih.enter hfuel trivial .stop (.brackets hplace hi) (hls.append .one).cons
    · rfl
  · split
    · refine bind_congr_ok (ih.enter hfuel trivial .stop .called .one) ?_
      rintro ⟨args, vs⟩ hargs
      obtain ⟨ls, ha, hls⟩ := Goal.passes_of_run (g := .arguments ')') (.inl rfl) hargs
      exact ih.enter hfuel trivial .stop (.call ha) hls.cons
    · rfl
  · rfl

theorem arguments {closing : Char} (hc : (Goal.arguments closing).Regular)
    (hfuel : (Goal.arguments closing).need ts ≤ fuel + 1) :
    Grammar.arguments (fuel + 2) closing ts = Grammar.arguments (fuel + 1) closing ts := by
  unfold Grammar.arguments
  split
  · rfl
  · refine bind_congr_ok (ih.enter hfuel hc .stop (.argument (by simp)) .nil) ?_
    rintro ⟨first, us⟩ hfirst
    obtain ⟨ls, he, hls⟩ := Goal.passes_of_run (g := .conditional) trivial hfirst
    refine separated_congr closing (fun _ _ _ => ?_) fun p vs hvs => ?_
    · exact bind_congr_ok (ih.enter hfuel hc _ (.lastArgument he) hls) fun _ _ => rfl
    · subst hvs
      exact bind_congr_ok (ih.enter hfuel hc .stop (.arguments he) (hls.append .one)) fun _ _ => rfl

theorem primary (hfuel : Goal.primary.need ts ≤ fuel + 1) :
    Grammar.primary (fuel + 2) ts = Grammar.primary (fuel + 1) ts := by
  unfold Grammar.primary
  split
  case h_7 => exact bind_congr_ok (ih.enter hfuel trivial .stop .group .one) fun _ _ => rfl
  case h_8 => exact bind_congr_ok (ih.enter hfuel trivial .stop .array .one) fun _ _ => rfl
  case h_9 => exact bind_congr_ok (ih.enter hfuel trivial .stop .object .one) fun _ _ => rfl
  all_goals rfl

theorem members (hfuel : Goal.members.need ts ≤ fuel + 1) :
    Grammar.members (fuel + 2) ts = Grammar.members (fuel + 1) ts := by
  unfold Grammar.members
  split
  · rfl
  · split
    · rfl
    · split
      · rfl
      · rename_i hk
        refine bind_congr_ok rfl fun vs hvs => ?_
        obtain ⟨p, rfl⟩ := exists_of_demand hvs
        refine bind_congr_ok (ih.enter hfuel trivial .stop (.value hk) (.cons .one)) ?_
        rintro ⟨v, us⟩ hv
        obtain ⟨ls, he, hls⟩ := Goal.passes_of_run (g := .conditional) trivial hv
        refine separated_congr '}' (fun _ _ _ => ?_) fun q ws hws => ?_
        · refine bind_congr_ok (ih.enter hfuel trivial _ (.lastMember hk he) ?_) fun _ _ => rfl
          exact hls.cons.cons
        · subst hws
          refine bind_congr_ok (ih.enter hfuel trivial .stop (.members hk he) ?_) fun _ _ => rfl
          exact (hls.append .one).cons.cons

end StableAt

end

/-- With enough fuel, one unit more changes nothing. The induction is on the fuel, with one lemma
for each rule. -/
theorem stableAt (fuel : Nat) : StableAt fuel := by
  induction fuel with
  | zero =>
    intro g ts hg hfuel
    exact absurd hfuel (Nat.not_le_of_lt (Goal.need_pos hg))
  | succ fuel ih =>
    intro g ts hg hfuel
    cases g with
    | sequence => exact ih.sequence hfuel
    | listed => exact ih.listed hfuel
    | conditional => exact ih.conditional hfuel
    | binary level => exact ih.binary hg hfuel
    | joined level left => exact ih.joined hg hfuel
    | unary => exact ih.unary hfuel
    | extended base => exact ih.extended hfuel
    | primary => exact ih.primary hfuel
    | arguments closing => exact ih.arguments hg hfuel
    | members => exact ih.members hfuel

/-- More fuel than a rule needs does not change what it reads or where it stops. -/
theorem Goal.run_of_le {g : Goal} {ts : List Token} {fuel : Nat} (hg : g.Regular)
    (hfuel : g.need ts ≤ fuel) : g.run fuel ts = g.run (g.need ts) ts := by
  obtain ⟨extra, rfl⟩ := Nat.exists_eq_add_of_le hfuel
  induction extra with
  | zero => rfl
  | succ extra ih =>
    calc g.run (g.need ts + (extra + 1)) ts
      _ = g.run (g.need ts + extra) ts := stableAt _ g hg (Nat.le_add_right _ _)
      _ = g.run (g.need ts) ts := ih (Nat.le_add_right _ _)

/-! ## Behind the end -/

/-- The fuel of a whole text is enough for its sequence. -/
theorem need_sequence_le (ts : List Token) : Goal.sequence.need ts ≤ fuelFor ts :=
  Nat.add_le_add_left (by decide) _

/-- More fuel than enough reads a text in the same way. -/
theorem ofTokens_of_fuel {ts : List Token} {fuel : Nat} (hfuel : fuelFor ts ≤ fuel) :
    ofTokens ts = Grammar.sequence fuel ts >>= close := by
  have hrun {n : Nat} (hn : fuelFor ts ≤ n) : Goal.sequence.run n ts = _ :=
    Goal.run_of_le trivial (Nat.le_trans (need_sequence_le ts) hn)
  calc ofTokens ts
    _ = Goal.sequence.run (fuelFor ts) ts >>= close := ofTokens_eq_bind ts
    _ = Goal.sequence.run fuel ts >>= close := by rw [hrun (Nat.le_refl _), hrun hfuel]

/-- The same tokens with an end token among them, and more behind the first ones. -/
def Trails (more ts ts' : List Token) : Prop :=
  .stop ∈ ts'.map Token.lexeme ∧ ts = ts' ++ more

/-- Tokens behind the end token are never looked at. -/
theorem inStep_trails (more : List Token) : InStep (Trails more) := by
  rintro _ (_ | ⟨⟨l, p⟩, us⟩) ⟨hstop, rfl⟩
  · cases hstop
  · refine ⟨l, p, p, us ++ more, us, rfl, rfl, fun hl => ⟨?_, rfl⟩⟩
    exact (List.mem_cons.1 hstop).resolve_left hl.symm

/-- What stands behind the end token is never looked at. -/
theorem ofTokens_append {ts : List Token} (h : .stop ∈ ts.map Token.lexeme) (more : List Token) :
    ofTokens (ts ++ more) = ofTokens ts := by
  have hle : fuelFor ts ≤ fuelFor (ts ++ more) := by
    simp only [fuelFor, List.length_append]
    omega
  have hagrees := (inStep_trails more).close ⟨h, rfl⟩ (fuelFor (ts ++ more))
  rw [← ofTokens_eq_bind, ← ofTokens_of_fuel hle] at hagrees
  generalize ofTokens (ts ++ more) = x, ofTokens ts = y at hagrees
  cases hagrees with
  | ok h => rw [h]
  | refused => rfl
  | @stopped complaint us us' h =>
    obtain ⟨hstop, rfl⟩ := h
    cases us' with
    | nil => cases hstop
    | cons t us' => rfl

end Stencil.Expr
