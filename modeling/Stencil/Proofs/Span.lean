import Stencil.Proofs.Expr.Braces
import Stencil.Proofs.Expr.Spelling
import Stencil.Span

/-!
# What a scan covers

A text that is scanned without a failure is cut into literal stretches and regions, and nothing of
it is left out. The two characters at the end of a region are cut off without a look at them. The
last one is always a brace. The one before it is a brace exactly if the braces that no rule pairs
are even: those of an alias, of the word after a slash and of the texts between quotes.
-/

namespace Stencil

open Braces

/-! ## The braces of a directive -/

def Role.named : Role → List Char
  | .opens _ as? | .elseIf as? => (as?.getD "").toList
  | .closes word => word.toList
  | .otherwise | .shows _ => []

namespace Directive

variable {cs body : List Char}

theorem excess_of_afterWord? {word : String} (h : afterWord? word cs = some body) :
    excess '{' '}' cs = excess '{' '}' word.toList + excess '{' '}' body := by
  unfold afterWord? at h
  split at h
  · rename_i hprefix
    obtain ⟨more, rfl⟩ := List.isPrefixOf_iff_prefix.1 hprefix
    rw [← String.length_toList, List.drop_left] at h
    split at h
    · rename_i c rest
      split at h
      · rename_i hc
        obtain rfl := Option.some.inj h
        rw [excess_append, excess_cons_blank hc, excess_skipBlanks]
      · cases h
    · cases h
  · cases h

/-- Splitting off an alias loses no unbalanced brace. -/
theorem excess_splitAlias (cs : List Char) :
    excess '{' '}' cs =
      excess '{' '}' ((splitAlias cs).2.getD []) + excess '{' '}' (splitAlias cs).1 := by
  have hwhole : excess '{' '}' cs = excess '{' '}' [] + excess '{' '}' cs := (Int.zero_add _).symm
  unfold splitAlias
  dsimp only
  split
  · rename_i c rest hrest
    split
    · rename_i hc
      have hblank : Text.isBlank c = true := by
        simp only [Bool.and_eq_true] at hc
        exact hc.1.1
      have hback : excess '{' '}' (cs.reverse.dropWhile fun c => !Text.isBlank c) =
          excess '{' '}' rest := by
        rw [← excess_skipBlanks, hrest, excess_cons_other (by decide) (by decide),
          excess_cons_other (by decide) (by decide), excess_cons_blank hblank]
      have hsplit := congrArg (excess '{' '}')
        (List.takeWhile_append_dropWhile (p := fun c => !Text.isBlank c) (l := cs.reverse))
      rw [excess_append, hback, excess_reverse] at hsplit
      simpa [excess_skipBlanks] using hsplit.symm
    · exact hwhole
  · exact hwhole

theorem excess_of_head? {role : Role} (h : head? cs = some (role, body)) :
    excess '{' '}' cs = excess '{' '}' role.named + excess '{' '}' body := by
  obtain ⟨⟨word, make⟩, hmem, hmake⟩ := List.exists_of_findSome?_eq_some h
  have hword : excess '{' '}' word.toList = 0 := by
    simp only [headWords, List.mem_cons, List.not_mem_nil, or_false, Prod.mk.injEq] at hmem
    obtain ⟨rfl, -⟩ | ⟨rfl, -⟩ | ⟨rfl, -⟩ | ⟨rfl, -⟩ | ⟨rfl, -⟩ := hmem <;> decide
  have hnamed (as? : Option String) : (make as?).named = (as?.getD "").toList := by
    simp only [headWords, List.mem_cons, List.not_mem_nil, or_false, Prod.mk.injEq] at hmem
    obtain ⟨-, rfl⟩ | ⟨-, rfl⟩ | ⟨-, rfl⟩ | ⟨-, rfl⟩ | ⟨-, rfl⟩ := hmem <;> rfl
  dsimp only at hmake
  split at hmake
  · rename_i c rest hafter
    obtain ⟨rfl, rfl⟩ := Prod.mk.inj (Option.some.inj hmake)
    rw [excess_of_afterWord? hafter, hword, Int.zero_add, excess_splitAlias (c :: rest), hnamed]
    cases (splitAlias (c :: rest)).2 <;> simp
  · cases hmake

theorem excess_valueWords (cs : List Char) :
    excess '{' '}' (valueWords cs).2 = excess '{' '}' cs := by
  fun_induction valueWords cs with
  | case1 => rfl
  | case2 cs w rest h ws body hbody ih =>
    obtain ⟨w', -, hw⟩ := List.exists_of_findSome?_eq_some h
    obtain ⟨rest', hafter, he⟩ := Option.map_eq_some_iff.1 hw
    obtain ⟨-, rfl⟩ := Prod.mk.inj he
    have hword : excess '{' '}' w'.text.toList = 0 := by cases w' <;> decide
    rw [hbody] at ih
    rw [excess_of_afterWord? hafter, hword, Int.zero_add]
    exact ih

/-- The word of a directive and its body hold the braces of its source. -/
theorem excess_classify (cs : List Char) :
    excess '{' '}' cs =
      excess '{' '}' (classify cs).1.named + excess '{' '}' (classify cs).2 := by
  unfold classify
  split
  · rename_i role body hhead
    exact excess_of_head? hhead
  · split
    · rename_i helse
      rw [helse]
      rfl
    · split
      · rename_i hunbound
        rw [hunbound]
        rfl
      · split
        · rename_i hbound
          rw [hbound]
          rfl
        · split
          · rename_i rest
            rw [excess_cons_other (by decide) (by decide), ← excess_trim]
            dsimp only [Role.named]
            rw [excess_nil, Int.add_zero]
            split
            · rename_i hempty
              rw [List.isEmpty_iff.1 hempty]
              rfl
            · rw [String.toList_ofList]
          · exact ((Int.zero_add _).trans (excess_valueWords cs)).symm

/-- The characters of a directive whose braces no rule pairs. -/
def free (text : String) : List Char :=
  let parts := classify (Text.trim text.toList)
  parts.1.named ++ Expr.quoted (String.ofList parts.2)

theorem excess_of_body? {e? : Option Expr} (h : body? cs = .ok e?) :
    excess '{' '}' cs = excess '{' '}' (Expr.quoted (String.ofList cs)) := by
  unfold body? at h
  split at h
  · rename_i hempty
    have htokens : Token.read "" = .ok [⟨.stop, 0⟩] := Token.readFrom_of_nil rfl 0
    simp [List.isEmpty_iff.1 hempty, Expr.quoted, htokens, Lexeme.quoted]
  · cases hread : Expr.read (String.ofList cs) with
    | error cause =>
      rw [hread] at h
      cases h
    | ok e => rw [← Expr.excess_of_read hread, String.toList_ofList]

/-- The braces of a directive are even but for the free ones. -/
theorem excess_of_read {text : String} {d : Directive} (h : Directive.read text = .ok d) :
    excess '{' '}' text.toList = excess '{' '}' (free text) := by
  unfold Directive.read at h
  dsimp only at h
  split at h
  · rename_i e? hbody
    rw [← excess_trim, excess_classify, excess_of_body? hbody, ← excess_append]
    rfl
  · cases h

end Directive

/-! ## The first opening of a text -/

namespace Text

theorem not_infix_of_splitAtFirst?_eq_none {part cs : List Char}
    (h : splitAtFirst? part cs = none) : ¬ part <:+: cs := by
  unfold splitAtFirst? at h
  induction cs with
  | nil =>
    unfold splitWhere? at h
    split at h
    · cases h
    · rename_i hpart
      rwa [List.infix_nil, ← List.prefix_nil, ← List.isPrefixOf_iff_prefix]
  | cons c cs ih =>
    unfold splitWhere? at h
    split at h
    · cases h
    · rename_i hpart
      rw [List.infix_cons_iff, ← List.isPrefixOf_iff_prefix]
      exact not_or.2 ⟨hpart, ih (Option.map_eq_none_iff.1 h)⟩

/-- A text is split at the first place where the part occurs. -/
theorem exists_of_splitAtFirst? {part cs before rest : List Char} (hpart : part ≠ [])
    (h : splitAtFirst? part cs = some (before, rest)) :
    ¬ part <:+: before ∧ ∃ more, rest = part ++ more := by
  unfold splitAtFirst? at h
  induction cs generalizing before with
  | nil =>
    unfold splitWhere? at h
    split at h
    · rename_i hnil
      exact absurd (List.prefix_nil.1 (List.isPrefixOf_iff_prefix.1 hnil)) hpart
    · cases h
  | cons c cs ih =>
    have happend := splitWhere?_append h
    unfold splitWhere? at h
    split at h
    · rename_i hfirst
      obtain ⟨rfl, rfl⟩ := Prod.mk.inj (Option.some.inj h)
      obtain ⟨more, hmore⟩ := List.isPrefixOf_iff_prefix.1 hfirst
      exact ⟨fun hinfix => hpart (List.infix_nil.1 hinfix), more, hmore.symm⟩
    · rename_i hfirst
      obtain ⟨⟨before', rest'⟩, hrest, he⟩ := Option.map_eq_some_iff.1 h
      obtain ⟨rfl, rfl⟩ := Prod.mk.inj he
      obtain ⟨hnone, hmore⟩ := ih hrest
      refine ⟨fun hinfix => ?_, hmore⟩
      obtain hprefix | hinfix := List.infix_cons_iff.1 hinfix
      · have hwhole : part <+: c :: cs := happend ▸ hprefix.trans (List.prefix_append _ _)
        exact hfirst (List.isPrefixOf_iff_prefix.2 hwhole)
      · exact hnone hinfix

end Text

/-! ## The stretches of a text -/

namespace Span

def isDirective : Span → Bool
  | .literal _ => false
  | .directive _ => true

/-- A stretch of a text: literal characters, or a region with what is read of it and the character
before its last brace. -/
inductive Stretch where
  | literal (cs : List Char)
  | region (inside : List Char) (mark : Char)

namespace Stretch

def written : Stretch → List Char
  | .literal cs => cs
  | .region inside mark => '{' :: '{' :: inside ++ [mark, '}']

def span? : Stretch → Option Span
  | .literal cs => some (.literal (String.ofList cs))
  | .region inside _ =>
    if inside.isEmpty then none
    else (Directive.read (String.ofList inside)).toOption.map .directive

/-- A literal stretch goes on up to a region, and a region is empty or read as a directive. -/
def IsRead : Stretch → Prop
  | .literal cs => cs ≠ [] ∧ ¬ ['{', '{'] <:+: cs
  | .region inside _ => inside = [] ∨ ∃ d, Directive.read (String.ofList inside) = .ok d

/-- A region ends in two braces. -/
def IsClosed : Stretch → Prop
  | .literal _ => True
  | .region _ mark => mark = '}'

/-- A region ends in two braces if its free braces are even; else one more of them is closed than
opened, and another character stands before the last brace. -/
def IsCounted : Stretch → Prop
  | .literal _ => True
  | .region inside mark =>
    mark = '}' ∧ excess '{' '}' (Directive.free (String.ofList inside)) = 0 ∨
      mark ≠ '{' ∧ mark ≠ '}' ∧ excess '{' '}' (Directive.free (String.ofList inside)) = 1

end Stretch

/-- The stretches make up the text, and the spans tell of them. -/
structure Covers (cs : List Char) (spans : List Span) (stretches : List Stretch) : Prop where
  written : stretches.flatMap Stretch.written = cs
  spans : stretches.filterMap Stretch.span? = spans
  read : ∀ s ∈ stretches, s.IsRead ∧ s.IsCounted

theorem covers_nil : Covers [] [] [] := ⟨rfl, rfl, by simp⟩

theorem Covers.cons {cs : List Char} {spans : List Span} {stretches : List Stretch}
    (h : Covers cs spans stretches) {s : Stretch} (hread : s.IsRead) (hcounted : s.IsCounted) :
    Covers (s.written ++ cs) (s.span?.toList ++ spans) (s :: stretches) where
  written := by rw [List.flatMap_cons, h.written]
  spans := by
    rw [← h.spans, List.filterMap_cons]
    cases s.span? <;> rfl
  read := by
    intro s' hs'
    obtain rfl | hs' := List.mem_cons.1 hs'
    · exact ⟨hread, hcounted⟩
    · exact h.read s' hs'

/-- What a step takes for literal it takes up to the next region. -/
theorem Covers.literals {cs before : List Char} {spans : List Span} {stretches : List Stretch}
    (h : Covers cs spans stretches) (hbefore : ¬ ['{', '{'] <:+: before) :
    ∃ stretches', Covers (before ++ cs) (literals before ++ spans) stretches' := by
  cases before with
  | nil => exact ⟨stretches, h⟩
  | cons c before => exact ⟨_, h.cons (s := .literal (c :: before)) ⟨by simp, hbefore⟩ trivial⟩

theorem step_eq_finished {cs : List Char} (h : step cs = .finished) : cs = [] := by
  unfold step at h
  split at h
  · rename_i hempty
    exact List.isEmpty_iff.1 hempty
  · split at h
    · cases h
    · split at h <;> cases h

/-- The last step takes all that is left, in which no region opens. -/
theorem step_eq_literal {cs ds : List Char} (h : step cs = .literal ds) :
    ds = cs ∧ cs ≠ [] ∧ ¬ ['{', '{'] <:+: cs := by
  unfold step at h
  split at h
  · cases h
  · rename_i hne
    split at h
    · rename_i hopening
      cases h
      refine ⟨rfl, fun hnil => hne (by rw [hnil]; rfl), ?_⟩
      exact Text.not_infix_of_splitAtFirst?_eq_none (Option.map_eq_none_iff.1 hopening)
    · split at h <;> cases h

/-- A region stands behind text in which none opens, and ends with its mark and a brace. -/
theorem step_eq_region {cs before inside rest : List Char}
    (h : step cs = .region before inside rest) :
    ¬ ['{', '{'] <:+: before ∧ ∃ mark, Marks inside mark ∧
      cs = before ++ ((Stretch.region inside mark).written ++ rest) := by
  unfold step at h
  split at h
  · cases h
  · split at h
    · cases h
    · rename_i before' after hopening
      split at h
      · cases h
      · rename_i region rest' hsplit
        cases h
        obtain ⟨⟨before, found⟩, hfound, he⟩ := Option.map_eq_some_iff.1 hopening
        obtain ⟨rfl, rfl⟩ := Prod.mk.inj he
        obtain ⟨hbefore, more, rfl⟩ := Text.exists_of_splitAtFirst? (by decide) hfound
        obtain ⟨inside, mark, rfl, hmarks⟩ := exists_of_split? hsplit
        have hinner : inner (inside ++ [mark, '}']) = inside := by
          simp [inner]
        have hmore : inside ++ [mark, '}'] ++ rest = more := split?_append hsplit
        refine ⟨hbefore, mark, by rwa [hinner], ?_⟩
        rw [hinner, ← Text.splitWhere?_append hfound, ← hmore]
        simp [Stretch.written]

theorem isCounted_nil {mark : Char} (h : Marks [] mark) : (Stretch.region [] mark).IsCounted := by
  obtain ⟨hmark, -⟩ | ⟨-, -, hexcess⟩ := h
  · exact .inl ⟨hmark, by decide +kernel⟩
  · exact absurd hexcess (by decide)

/-- In a region that reads as a directive, the braces outside of quotes tell the mark at its end. -/
theorem isCounted_of_read {inside : List Char} {mark : Char} {d : Directive} (h : Marks inside mark)
    (hread : Directive.read (String.ofList inside) = .ok d) :
    (Stretch.region inside mark).IsCounted := by
  have hexcess := Directive.excess_of_read hread
  rw [String.toList_ofList] at hexcess
  rwa [Marks, hexcess] at h

/-- The stretches of a tail of the text: by induction along the steps, each of which takes a
literal stretch and a region off the front. -/
theorem exists_covers (text : String) (cs : List Char) (h : (scanFrom text cs).failure? = none) :
    ∃ stretches, Covers cs (scanFrom text cs).spans stretches := by
  fun_induction scanFrom text cs with
  | case1 cs hstep =>
    rw [step_eq_finished hstep]
    exact ⟨[], covers_nil⟩
  | case2 cs ds hstep =>
    obtain ⟨rfl, hne, hliteral⟩ := step_eq_literal hstep
    have hcovers := covers_nil.cons (s := .literal ds) ⟨hne, hliteral⟩ trivial
    rw [List.append_nil, List.append_nil] at hcovers
    exact ⟨_, hcovers⟩
  | case3 => cases h
  | case4 cs before inside rest hstep hinside ih =>
    obtain rfl := List.isEmpty_iff.1 hinside
    obtain ⟨hbefore, mark, hmarks, rfl⟩ := step_eq_region hstep
    obtain ⟨stretches, hrest⟩ := ih h
    have hregion := hrest.cons (s := .region [] mark) (.inl rfl) (isCounted_nil hmarks)
    exact hregion.literals hbefore
  | case5 => cases h
  | case6 cs before inside rest hstep hinside d hread ih =>
    obtain ⟨hbefore, mark, hmarks, rfl⟩ := step_eq_region hstep
    obtain ⟨stretches, hrest⟩ := ih h
    have hregion := hrest.cons (s := .region inside mark) (.inr ⟨d, hread⟩)
      (isCounted_of_read hmarks hread)
    have hspan : (Stretch.region inside mark).span? = some (.directive d) := by
      simp [Stretch.span?, hinside, hread, Except.toOption]
    rw [hspan] at hregion
    obtain ⟨stretches', hcovers⟩ := hregion.literals hbefore
    refine ⟨stretches', ?_⟩
    simpa [Scan.prepend] using hcovers

/-- A text that is scanned without a failure is made up of its literal spans and its regions. A
region ends in a brace, with another one before it exactly if its free braces are even. -/
theorem exists_covers_of_scan {text : String} (h : (scan text).failure? = none) :
    ∃ stretches : List Stretch, stretches.flatMap Stretch.written = text.toList ∧
      stretches.filterMap Stretch.span? = (scan text).spans ∧
      ∀ s ∈ stretches, s.IsRead ∧ s.IsCounted := by
  rw [scan_eq] at h ⊢
  obtain ⟨stretches, hcovers⟩ := exists_covers text text.toList h
  exact ⟨stretches, hcovers.written, hcovers.spans, hcovers.read⟩

theorem exists_covers_of_quoted_brace :
    (scan "a\x7b\x7b'\x7d'x\x7d").failure? = none ∧
    ∃ stretches : List Stretch,
      stretches.flatMap Stretch.written = "a\x7b\x7b'\x7d'x\x7d".toList ∧
      stretches.filterMap Stretch.span? = (scan "a\x7b\x7b'\x7d'x\x7d").spans ∧
      ∀ s ∈ stretches, s.IsRead ∧ s.IsCounted := by
  have hscan : (scan "a\x7b\x7b'\x7d'x\x7d").failure? = none := by
    rw [← Option.isNone_iff_eq_none]
    decide +kernel
  exact ⟨hscan, exists_covers_of_scan hscan⟩

/-- A brace between quotes makes a region end before its second closing brace. -/
theorem not_forall_closed :
    ¬ ∀ text : String, (scan text).failure? = none →
      ∃ stretches : List Stretch, stretches.flatMap Stretch.written = text.toList ∧
        stretches.filterMap Stretch.span? = (scan text).spans ∧
        ∀ s ∈ stretches, s.IsRead ∧ s.IsClosed := by
  intro hall
  have hscan : (scan "\x7b\x7b'\x7d'x\x7d").failure? = none := by
    rw [← Option.isNone_iff_eq_none]
    decide +kernel
  have hspans : ∀ s ∈ (scan "\x7b\x7b'\x7d'x\x7d").spans, s.isDirective = true := by
    rw [← List.all_eq_true]
    decide +kernel
  obtain ⟨stretches, hwritten, htold, hread⟩ := hall _ hscan
  obtain rfl | ⟨before, last, rfl⟩ := stretches.eq_nil_or_concat
  · exact absurd hwritten (by decide)
  · cases last with
    | literal cs =>
      have hliteral : Span.literal (String.ofList cs) ∈ (scan "\x7b\x7b'\x7d'x\x7d").spans := by
        rw [← htold]
        exact List.mem_filterMap.2 ⟨.literal cs, by simp, rfl⟩
      exact absurd (hspans _ hliteral) (by simp [isDirective])
    | region inside mark =>
      obtain rfl : mark = '}' := (hread (.region inside mark) (by simp)).2
      have hback := congrArg List.reverse hwritten
      simp [Stretch.written] at hback

end Span

end Stencil
