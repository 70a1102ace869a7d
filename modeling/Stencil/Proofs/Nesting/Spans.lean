import Stencil.Proofs.Building.Moves

/-!
# Balanced spans

A text is balanced if every block that it opens is closed in it, and every directive that closes or
continues a block finds that block in it. `Balanced` is the grammar of such texts, without a stack:
it relates spans to the nodes that they make. Balanced spans can be taken whatever is open before,
and add their nodes to the innermost frame. Conversely the spans that lead from a detached frame
back to it are balanced.
-/

namespace Stencil

open Nesting

theorem Stack.closed?_of_close {o : Opener} {content : List Node} {n : Node}
    (h : o.close content = some n) (s : Stack) :
    (⟨⟨o, content.reverse⟩ :: s.frames, s.root⟩ : Stack).closed? = some (s.push n) := by
  simp [closed?, h]

/-! ## Blocks that a span opens and needs -/

namespace Span

/-- A directive that closes or continues the block in which it stands. -/
def NeedsBlock : Span → Prop
  | .literal _ => False
  | .directive d => (∃ word, d.role = .closes word) ∨ Continues d

/-- How many more blocks are open behind a span than before. -/
def weight : Span → Int
  | .literal _ => 0
  | .directive d =>
    match d.role with
    | .opens _ _ => 1
    | .closes _ => -1
    | _ => 0

instance (span : Span) : Decidable span.NeedsBlock :=
  match span with
  | .literal _ => .isFalse id
  | .directive d => decidable_of_iff
      ((match d.role with | .closes _ | .otherwise | .elseIf _ => true | _ => false) = true) <| by
    cases h : d.role <;> simp [NeedsBlock, Continues, h]

variable {d : Directive}

/-- A continuation closes one level and opens one. -/
theorem weight_of_continues (h : Continues d) : (directive d).weight = 0 := by
  obtain h | ⟨a, h⟩ := h <;> simp [weight, h]

/-- A value can stand outside every block. -/
theorem not_needsBlock_of_shows {ws : List ValueWord} (h : d.role = .shows ws) :
    ¬ (directive d).NeedsBlock := by
  simp [NeedsBlock, Continues, h]

/-- The start of a block can stand outside every other. -/
theorem not_needsBlock_of_opens {w : BlockWord} {a : Option String} (h : d.role = .opens w a) :
    ¬ (directive d).NeedsBlock := by
  simp [NeedsBlock, Continues, h]

end Span

/-! ## The grammar -/

namespace Spans

mutual

/-- Spans that make these nodes. -/
inductive Balanced (scene : Scene) : List Span → List Node → Prop where
  | nil : Balanced scene [] []
  | cons {spans more : List Span} {n : Node} {ns : List Node} (h : Stretch scene spans n)
      (hs : Balanced scene more ns) : Balanced scene (spans ++ more) (n :: ns)

/-- Spans that make one node. A block ends with its own word or with the word that fits all. -/
inductive Stretch (scene : Scene) : List Span → Node → Prop where
  | text (data : String) : Stretch scene [.literal data] (.text data)
  | value {d : Directive} {ws : List ValueWord} (h : d.role = .shows ws)
      (hview : d.role.isView = false) : Stretch scene [.directive d] (.value (.marked d))
  | view {d : Directive} {ws : List ValueWord} {n : Node} (h : d.role = .shows ws)
      (hview : d.role.isView = true) (hn : d.Refers scene n) : Stretch scene [.directive d] n
  | block {o : Opener} {opening inside : List Span} {content : List Node} {n : Node}
      {c first : Directive} {word w : String} (ho : Opening scene o opening)
      (hs : Balanced scene inside content) (hn : o.close content = some n)
      (hc : c.role = .closes word) (hfirst : o.opening? = some first)
      (hw : first.role.blockWord? = some w) (hword : word = "end" ∨ word = w) :
      Stretch scene (opening ++ (inside ++ [.directive c])) n

/-- Spans that open a block, with its branches but the last. A condition has any number of further
branches, a loop at most one, and other blocks have none. -/
inductive Opening (scene : Scene) : Opener → List Span → Prop where
  | start {d : Directive} {w : BlockWord} {a : Option String} (h : d.role = .opens w a) :
      Opening scene (Build.openerOf w d) [.directive d]
  | branch {earlier : List (Directive × List Node)} {d d' : Directive}
      {opening inside : List Span} {content : List Node}
      (ho : Opening scene (.conditional earlier d) opening) (hs : Balanced scene inside content)
      (hd : Continues d') :
      Opening scene (.conditional (earlier ++ [(d, content)]) d')
        (opening ++ (inside ++ [.directive d']))
  | eachElse {d d' : Directive} {opening inside : List Span} {content : List Node}
      (ho : Opening scene (.each d) opening) (hs : Balanced scene inside content)
      (hd : d'.role = .otherwise) :
      Opening scene (.eachElse d content) (opening ++ (inside ++ [.directive d']))

end

variable {scene : Scene} {spans more opening : List Span} {n : Node} {ns ms : List Node}
  {o : Opener} {d : Directive} {s s' s'' : Stack}

theorem Balanced.singleton (h : Stretch scene spans n) : Balanced scene spans [n] := by
  simpa using Balanced.cons h .nil

theorem Balanced.append (h : Balanced scene spans ns) (h' : Balanced scene more ms) :
    Balanced scene (spans ++ more) (ns ++ ms) := by
  induction ns generalizing spans with
  | nil =>
    cases h
    exact h'
  | cons n ns ih =>
    obtain _ | ⟨hstretch, hs⟩ := h
    rw [List.append_assoc]
    exact .cons hstretch (ih hs)

theorem Opening.ne_detached (h : Opening scene o opening) : o ≠ .detached := by
  cases h with
  | start => exact ne_detached_of_opening? _ _ (opening?_openerOf _ _)
  | branch | eachElse => simp

/-! ## Open blocks, counted -/

def level : List Span → Int
  | [] => 0
  | span :: spans => span.weight + level spans

/-- If this many blocks are open before the spans, each directive that needs a block has one. -/
def Supplied (open? : Int) : List Span → Prop
  | [] => True
  | span :: spans => (span.NeedsBlock → 0 < open?) ∧ Supplied (open? + span.weight) spans

section Level

variable {k k' : Int}

@[simp]
theorem level_nil : level [] = 0 := rfl

@[simp]
theorem level_cons (span : Span) (spans : List Span) :
    level (span :: spans) = span.weight + level spans := rfl

@[simp]
theorem level_append (spans more : List Span) :
    level (spans ++ more) = level spans + level more := by
  induction spans with
  | nil => simp
  | cons span spans ih => simp [ih, Int.add_assoc]

theorem Supplied.mono (h : Supplied k spans) (hle : k ≤ k') : Supplied k' spans := by
  induction spans generalizing k k' with
  | nil => trivial
  | cons span spans ih =>
    exact ⟨fun hneeds => Int.lt_of_lt_of_le (h.1 hneeds) hle, ih h.2 (Int.add_le_add_right hle _)⟩

/-- Two stretches in a row find their blocks open if the first does, and the second on the level the
first leaves. -/
theorem supplied_append :
    Supplied k (spans ++ more) ↔ Supplied k spans ∧ Supplied (k + level spans) more := by
  induction spans generalizing k with
  | nil => simp [Supplied]
  | cons span spans ih => simp [Supplied, ih, and_assoc, Int.add_assoc]

theorem supplied_singleton {span : Span} : Supplied k [span] ↔ (span.NeedsBlock → 0 < k) :=
  and_iff_left trivial

/-- A block that is opened, its inside, and what closes or continues it. -/
theorem supplied_block {inside : List Span} (ho : level opening = 1 ∧ Supplied 0 opening)
    (hs : level inside = 0 ∧ Supplied 0 inside) (span : Span) :
    level (opening ++ (inside ++ [span])) = 1 + span.weight ∧
      Supplied 0 (opening ++ (inside ++ [span])) := by
  refine ⟨by simp [ho.1, hs.1], ?_⟩
  rw [supplied_append, supplied_append, supplied_singleton, ho.1, hs.1]
  exact ⟨ho.2, hs.2.mono (by decide), fun _ => by decide⟩

end Level

mutual

/-- Balanced spans leave as many blocks open as before, and use none of those. -/
theorem Balanced.supplied {scene : Scene} {spans : List Span} {ns : List Node}
    (h : Balanced scene spans ns) : level spans = 0 ∧ Supplied 0 spans := by
  match h with
  | .nil => exact ⟨rfl, trivial⟩
  | .cons hstretch hs =>
    obtain ⟨hlevel, hsupplied⟩ := hstretch.supplied
    obtain ⟨hlevel', hsupplied'⟩ := hs.supplied
    exact ⟨by rw [level_append, hlevel, hlevel']; rfl,
      supplied_append.2 ⟨hsupplied, by rwa [hlevel]⟩⟩

/-- The spans of a node leave the level as it is and need no block around them. -/
theorem Stretch.supplied {scene : Scene} {spans : List Span} {n : Node}
    (h : Stretch scene spans n) : level spans = 0 ∧ Supplied 0 spans := by
  match h with
  | .text data => exact ⟨rfl, supplied_singleton.2 False.elim⟩
  | .value hrole _ | .view hrole _ _ =>
    refine ⟨by simp [Span.weight, hrole], supplied_singleton.2 fun hneeds => ?_⟩
    exact absurd hneeds (Span.not_needsBlock_of_shows hrole)
  | @Stretch.block _ _ _ _ _ _ c _ _ _ ho hs _ hc _ _ _ =>
    obtain ⟨hlevel, hsupplied⟩ := supplied_block ho.supplied hs.supplied (.directive c)
    exact ⟨by simp [hlevel, Span.weight, hc], hsupplied⟩

/-- The spans of an open block leave one level more and need no block around them. -/
theorem Opening.supplied {scene : Scene} {o : Opener} {opening : List Span}
    (h : Opening scene o opening) : level opening = 1 ∧ Supplied 0 opening := by
  match h with
  | .start hrole =>
    refine ⟨by simp [Span.weight, hrole], supplied_singleton.2 fun hneeds => ?_⟩
    exact absurd hneeds (Span.not_needsBlock_of_opens hrole)
  | @Opening.branch _ _ _ d' _ _ _ ho hs hd =>
    obtain ⟨hlevel, hsupplied⟩ := supplied_block ho.supplied hs.supplied (.directive d')
    exact ⟨by simp [hlevel, Span.weight_of_continues hd], hsupplied⟩
  | @Opening.eachElse _ _ d' _ _ _ ho hs hd =>
    obtain ⟨hlevel, hsupplied⟩ := supplied_block ho.supplied hs.supplied (.directive d')
    exact ⟨by simp [hlevel, Span.weight_of_continues (.inl hd)], hsupplied⟩

end

/-- Before each directive that needs a block, more blocks are opened than closed. -/
theorem Balanced.level_pos {before after : List Span} {span : Span}
    (h : Balanced scene (before ++ span :: after) ns) (hspan : span.NeedsBlock) :
    0 < level before := by
  obtain ⟨-, hafter⟩ := supplied_append.1 h.supplied.2
  simpa using hafter.1 hspan

/-! ## Balanced spans can be taken -/

mutual

/-- Balanced spans lead from any stack to that stack with their nodes added. -/
theorem Balanced.moves {scene : Scene} {spans : List Span} {ns : List Node}
    (h : Balanced scene spans ns) (s : Stack) : SpanMoves scene spans s (addAll ns s) := by
  match h with
  | .nil =>
    rw [addAll_nil]
    exact .nil s
  | .cons hstretch hs =>
    rw [addAll_cons]
    exact (hstretch.moves s).append (hs.moves _)

/-- The spans of one node lead from any stack to that stack with the node added. -/
theorem Stretch.moves {scene : Scene} {spans : List Span} {n : Node}
    (h : Stretch scene spans n) (s : Stack) : SpanMoves scene spans s (s.push n) := by
  match h with
  | .text data => exact .single (.text data s)
  | .value hrole hview => exact .single (.value hrole hview s)
  | .view hrole hview hn => exact .single (.view hrole hview hn s)
  | .block (o := o) ho hs hn hc hfirst hw hword =>
    have hinside := hs.moves (s.opened o)
    rw [addAll_opened] at hinside
    refine (ho.moves s).append (hinside.append (.single ?_))
    exact .closes hc (Stack.closed?_of_close hn s) (newest?_push n s)
      ((opening?_of_close hn).trans hfirst) hw hword

/-- The spans of an open block lead from any stack to that stack with the block opened on it. -/
theorem Opening.moves {scene : Scene} {o : Opener} {opening : List Span}
    (h : Opening scene o opening) (s : Stack) : SpanMoves scene opening s (s.opened o) := by
  match h with
  | .start hrole => exact .single (.opens hrole s)
  | @Opening.branch _ earlier d d' _ _ content ho hs hd =>
    have hinside := hs.moves (s.opened (.conditional earlier d))
    rw [addAll_opened] at hinside
    have hclosed : Stack.closed? ⟨⟨.conditional earlier d, content.reverse⟩ :: s.frames, s.root⟩ =
        some (s.push (.conditional (earlier ++ [(d, content)]))) := Stack.closed?_of_close rfl s
    have hbranch : SpanMove scene (.directive d') _ _ := .branch hd hclosed (newest?_push _ s)
    rw [dropNewest_push] at hbranch
    exact (ho.moves s).append (hinside.append (.single hbranch))
  | @Opening.eachElse _ d d' _ _ content ho hs hd =>
    have hinside := hs.moves (s.opened (.each d))
    rw [addAll_opened] at hinside
    have hclosed : Stack.closed? ⟨⟨.each d, content.reverse⟩ :: s.frames, s.root⟩ =
        some (s.push (.each d content none)) := Stack.closed?_of_close rfl s
    have hbranch : SpanMove scene (.directive d') _ _ := .eachElse hd hclosed (newest?_push _ s)
    rw [dropNewest_push] at hbranch
    exact (ho.moves s).append (hinside.append (.single hbranch))

end

/-! ## What leads back to its frame is balanced -/

/-- The spans that a stack has taken since a detached frame was opened at its bottom. -/
inductive Taken (scene : Scene) : Stack → List Span → Prop where
  | bottom {content : List Node} {spans : List Span} (hs : Balanced scene spans content.reverse) :
      Taken scene ⟨[⟨.detached, content⟩], []⟩ spans
  | frame {o : Opener} {content : List Node} {fs : List Frame} {root : List Node}
      {spans opening inside : List Span} (h : Taken scene ⟨fs, root⟩ spans)
      (ho : Opening scene o opening) (hs : Balanced scene inside content.reverse) :
      Taken scene ⟨⟨o, content⟩ :: fs, root⟩ (spans ++ (opening ++ inside))

namespace Taken

theorem push (h : Taken scene s spans) (hstretch : Stretch scene more n) :
    Taken scene (s.push n) (spans ++ more) := by
  cases h with
  | bottom hs =>
    apply Taken.bottom
    simpa [Stack.top] using hs.append (.singleton hstretch)
  | frame h ho hs =>
    have hinside := hs.append (.singleton hstretch)
    simp only [List.append_assoc]
    apply Taken.frame h ho
    simpa [Stack.top] using hinside

theorem opened (h : Taken scene s spans) (ho : Opening scene o opening) :
    Taken scene (s.opened o) (spans ++ opening) := by
  have hframe : Taken scene (s.opened o) (spans ++ (opening ++ [])) := .frame h ho .nil
  simpa using hframe

/-- Closing a frame ends a block, or it leaves the detached frame at the bottom. -/
theorem closed? (h : Taken scene s spans) (hs : s.closed? = some s') (hn : s'.newest? = some n) :
    Attached s' ∨ ∃ o opening inside content taken, Taken scene s'.dropNewest taken ∧
      Opening scene o opening ∧ Balanced scene inside content ∧ o.close content = some n ∧
        spans = taken ++ (opening ++ inside) := by
  cases h with
  | bottom hbalanced =>
    cases hs
    exact .inl (List.forall_mem_nil _)
  | @frame o content fs root taken opening inside h ho hbalanced =>
    obtain ⟨n', hclose⟩ := exists_close ho.ne_detached content.reverse
    simp only [Stack.closed?, hclose, Option.some.injEq] at hs
    subst hs
    cases (newest?_push n' ⟨fs, root⟩).symm.trans hn
    rw [dropNewest_push]
    exact .inr ⟨o, opening, inside, _, taken, h, ho, hbalanced, hclose, rfl⟩

/-- A span is taken as part of a balanced sequence, or it leaves the detached frame. -/
theorem move {span : Span} (h : Taken scene s spans) (hmove : SpanMove scene span s s') :
    Taken scene s' (spans ++ [span]) ∨ Attached s' := by
  cases hmove with
  | text data => exact .inl (h.push (.text data))
  | value hrole hview => exact .inl (h.push (.value hrole hview))
  | view hrole hview hn => exact .inl (h.push (.view hrole hview hn))
  | opens hrole => exact .inl (h.opened (.start hrole))
  | closes hrole hs hn hfirst hw hword =>
    obtain hs' | ⟨o, opening, inside, content, taken, htaken, ho, hbalanced, hclose, rfl⟩ :=
      h.closed? hs hn
    · exact .inr hs'
    · rw [opening?_of_close hclose] at hfirst
      have hstretch := Stretch.block ho hbalanced hclose hrole hfirst hw hword
      have htaken' := htaken.push hstretch
      rw [push_dropNewest hn] at htaken'
      simpa using Or.inl htaken'
  | branch hd hs hn =>
    obtain hs' | ⟨o, opening, inside, content, taken, htaken, ho, hbalanced, hclose, rfl⟩ :=
      h.closed? hs hn
    · exact .inr (hs'.reopened (by simp))
    · cases o with
      | conditional earlier last =>
        cases hclose
        simpa using Or.inl (htaken.opened (.branch ho hbalanced hd))
      | _ => cases hclose
  | eachElse hrole hs hn =>
    obtain hs' | ⟨o, opening, inside, content, taken, htaken, ho, hbalanced, hclose, rfl⟩ :=
      h.closed? hs hn
    · exact .inr (hs'.reopened (by simp))
    · cases o with
      | each first =>
        cases hclose
        simpa using Or.inl (htaken.opened (.eachElse ho hbalanced hrole))
      | _ => cases hclose

/-- Spans taken in a text account for the stack on, unless they closed a block that was open before
the text. -/
theorem moves (h : Taken scene s spans) (hmoves : SpanMoves scene more s s') :
    Taken scene s' (spans ++ more) ∨ Attached s' := by
  induction hmoves generalizing spans with
  | nil => exact .inl (by rwa [List.append_nil])
  | cons hmove hmoves ih =>
    obtain h' | hattached := h.move hmove
    · simpa using ih h'
    · exact .inr (hmoves.attached hattached)

end Taken

/-- Spans are balanced exactly if they lead from a detached frame back to it. -/
theorem balanced_iff_moves : Balanced scene spans ns ↔
    SpanMoves scene spans (Stack.empty.opened .detached) ⟨[⟨.detached, ns.reverse⟩], []⟩ := by
  constructor
  · intro h
    have hmoves := h.moves (Stack.empty.opened .detached)
    rwa [addAll_opened] at hmoves
  · intro h
    have hstart : Taken scene (Stack.empty.opened .detached) [] := .bottom .nil
    obtain hend | hattached := hstart.moves h
    · generalize hs : (⟨[⟨.detached, ns.reverse⟩], []⟩ : Stack) = s at hend
      cases hend with
      | bottom hbalanced =>
        cases hs
        simpa using hbalanced
      | frame h ho =>
        cases hs
        exact absurd rfl ho.ne_detached
    · exact absurd rfl (hattached _ List.mem_cons_self)

end Spans

end Stencil
