import Stencil.Proofs.Expr.Failures
import Stencil.Proofs.Span

/-!
# Scanning a joined text

A scan does not look past the brace that closes a region, and the text before a region stays the
same if more is added behind it. So a joined text has the spans of its parts, but that literal
spans may meet where the parts do. Two braces that meet there would open a region, and such parts
are left out. A scan fails only in its regions: no tail of the text ever comes back.
-/

namespace Stencil

open Braces

/-! ## More text behind -/

namespace Text

/-- The first occurrence of a part is the first one in any longer text. The part is no longer than
the text in which it was found, so it does not reach behind it. -/
theorem splitAtFirst?_append_of_eq_some {part cs before rest : List Char} (hpart : part ≠ [])
    (h : splitAtFirst? part cs = some (before, rest)) (more : List Char) :
    splitAtFirst? part (cs ++ more) = some (before, rest ++ more) := by
  unfold splitAtFirst? at h ⊢
  induction cs generalizing before with
  | nil =>
    obtain ⟨-, found, hfound⟩ := exists_of_splitAtFirst? hpart h
    have hempty := splitWhere?_append h
    simp [hfound, hpart] at hempty
  | cons c cs ih =>
    obtain ⟨-, found, hfound⟩ := exists_of_splitAtFirst? hpart h
    have hwhole := splitWhere?_append h
    rw [splitWhere?] at h
    rw [List.cons_append, splitWhere?]
    split at h
    · rename_i hfirst
      have hprefix : part.isPrefixOf (c :: (cs ++ more)) = true := by
        rw [List.isPrefixOf_iff_prefix] at hfirst ⊢
        exact hfirst.trans (List.prefix_append (c :: cs) more)
      obtain ⟨rfl, rfl⟩ := Prod.mk.inj (Option.some.inj h)
      rw [if_pos hprefix, List.cons_append]
    · rename_i hfirst
      obtain ⟨⟨before', rest'⟩, hrest, he⟩ := Option.map_eq_some_iff.1 h
      obtain ⟨rfl, rfl⟩ := Prod.mk.inj he
      have hlength : part.length ≤ (c :: cs).length := by
        rw [← hwhole, hfound]
        simp
        omega
      have hprefix : ¬ part.isPrefixOf (c :: (cs ++ more)) = true := by
        rw [List.isPrefixOf_iff_prefix] at hfirst ⊢
        exact fun hpre => hfirst
          (List.prefix_of_prefix_length_le hpre (List.prefix_append (c :: cs) more) hlength)
      rw [if_neg hprefix, ih hrest]
      rfl

end Text

namespace Braces

variable {opener closer : Char}

/-- The first balance point does not depend on what follows. -/
theorem FirstAt.append {cs : List Char} {depth : Int} {n : Nat}
    (h : FirstAt opener closer cs depth n) (more : List Char) :
    FirstAt opener closer (cs ++ more) depth n := by
  obtain ⟨hle, heq, hbefore⟩ := h
  refine ⟨Nat.le_trans hle (by simp), ?_, fun m hm => ?_⟩
  · rwa [List.take_append_of_le_length hle]
  · rw [List.take_append_of_le_length (by omega)]
    exact hbefore m hm

/-- A region ends where it does whatever stands behind it. -/
theorem split?_append_right {cs region rest : List Char} (h : split? cs = some (region, rest))
    (more : List Char) : split? (cs ++ more) = some (region, rest ++ more) := by
  obtain ⟨n, hn, he⟩ := Option.map_eq_some_iff.1 h
  obtain ⟨rfl, rfl⟩ := Prod.mk.inj he
  have hle := closing_le hn
  rw [closing_eq_some_iff (by decide) (by decide)] at hn
  have hmore := (closing_eq_some_iff (by decide) (by decide)).2 (hn.append more)
  rw [split?, hmore, Option.map_some, List.take_append_of_le_length hle,
    List.drop_append_of_le_length hle]

end Braces

namespace Span

theorem opening?_append_of_eq_some {cs before after : List Char}
    (h : opening? cs = some (before, after)) (more : List Char) :
    opening? (cs ++ more) = some (before, after ++ more) := by
  obtain ⟨⟨before, rest⟩, hrest, he⟩ := Option.map_eq_some_iff.1 h
  obtain ⟨rfl, rfl⟩ := Prod.mk.inj he
  obtain ⟨-, found, rfl⟩ := Text.exists_of_splitAtFirst? (by decide) hrest
  rw [opening?, Text.splitAtFirst?_append_of_eq_some (by decide) hrest]
  rfl

/-- The first region is the same in any longer text. -/
theorem step_append_of_eq_region {cs before inside rest : List Char}
    (h : step cs = .region before inside rest) (more : List Char) :
    step (cs ++ more) = .region before inside (rest ++ more) := by
  unfold step at h
  split at h
  · cases h
  · rename_i hne
    split at h
    · cases h
    · rename_i before' after hopening
      split at h
      · cases h
      · rename_i region rest' hsplit
        cases h
        have hmore : (cs ++ more).isEmpty = false := by
          simpa using fun hnil => absurd hnil (by simpa using hne)
        simp only [step, hmore, opening?_append_of_eq_some hopening,
          split?_append_right hsplit]
        rfl

/-! ## More text in front -/

/-- No opening pair of braces stands where the two texts meet. -/
def Apart (cs ds : List Char) : Prop :=
  ¬ (cs.getLast? = some '{' ∧ ds.head? = some '{')

theorem Apart.of_suffix {cs rest ds : List Char} (h : Apart cs ds) (hrest : rest <:+ cs) :
    Apart rest ds := by
  obtain ⟨front, rfl⟩ := hrest
  intro hmeet
  refine h ⟨?_, hmeet.2⟩
  rw [List.getLast?_append, hmeet.1]
  rfl

/-- A text without a pair of opening braces is passed over. -/
theorem splitAtFirst?_append_of_not_infix {cs ds : List Char} (h : ¬ ['{', '{'] <:+: cs)
    (hapart : Apart cs ds) :
    Text.splitAtFirst? ['{', '{'] (cs ++ ds) =
      (Text.splitAtFirst? ['{', '{'] ds).map fun r => (cs ++ r.1, r.2) := by
  induction cs with
  | nil => simp
  | cons c cs ih =>
    have hrest := ih (fun hmark => h (hmark.trans (List.suffix_cons c cs).isInfix))
      (hapart.of_suffix (List.suffix_cons c cs))
    have hprefix : ¬ ['{', '{'].isPrefixOf (c :: (cs ++ ds)) = true := by
      rw [List.isPrefixOf_iff_prefix, ← List.cons_append]
      intro hpre
      cases cs with
      | nil =>
        obtain ⟨rfl, more, rfl⟩ := List.cons_prefix_cons.1 hpre
        exact hapart ⟨rfl, rfl⟩
      | cons d cs =>
        have hpair : ['{', '{'] <+: c :: d :: cs :=
          List.prefix_of_prefix_length_le hpre (List.prefix_append _ _) (by simp)
        exact h hpair.isInfix
    calc Text.splitAtFirst? ['{', '{'] (c :: cs ++ ds)
        = (Text.splitAtFirst? ['{', '{'] (cs ++ ds)).map fun r => (c :: r.1, r.2) := if_neg hprefix
      _ = (Text.splitAtFirst? ['{', '{'] ds).map fun r => (c :: cs ++ r.1, r.2) := by
        rw [hrest, Option.map_map]
        rfl

theorem opening?_append_of_not_infix {cs ds : List Char} (h : ¬ ['{', '{'] <:+: cs)
    (hapart : Apart cs ds) :
    opening? (cs ++ ds) = (opening? ds).map fun r => (cs ++ r.1, r.2) := by
  rw [opening?, opening?, splitAtFirst?_append_of_not_infix h hapart, Option.map_map, Option.map_map]
  rfl

def Step.led (cs : List Char) : Step → Step
  | .finished => .literal cs
  | .literal ds => .literal (cs ++ ds)
  | .region before inside rest => .region (cs ++ before) inside rest
  | .unbalanced => .unbalanced

/-- Text in which no region opens joins the text behind it. -/
theorem step_append_of_not_infix {cs ds : List Char} (hne : cs ≠ []) (h : ¬ ['{', '{'] <:+: cs)
    (hapart : Apart cs ds) : step (cs ++ ds) = (step ds).led cs := by
  have hwhole : (cs ++ ds).isEmpty = false := by simp [hne]
  simp only [step, hwhole, opening?_append_of_not_infix h hapart]
  cases ds with
  | nil =>
    have hnone : opening? [] = none := rfl
    simp [hnone, Step.led]
  | cons d ds =>
    cases opening? (d :: ds) with
    | none => simp [Step.led]
    | some r =>
      cases hsplit : split? r.2 with
      | none => simp [Step.led, hsplit]
      | some found => simp [Step.led, hsplit]

/-! ## Literal spans that meet -/

def merged : List Span → List Span
  | [] => []
  | .directive d :: spans => .directive d :: merged spans
  | .literal s :: spans =>
    match merged spans with
    | .literal t :: rest => .literal (s ++ t) :: rest
    | rest => .literal s :: rest

/-- Merging goes through whatever stands in front. -/
theorem merged_append_congr (front : List Span) {spans spans' : List Span}
    (h : merged spans = merged spans') : merged (front ++ spans) = merged (front ++ spans') := by
  induction front with
  | nil => exact h
  | cons x front ih => cases x <;> simp only [List.cons_append, merged, ih]

theorem merged_literal_literal (s t : String) (spans : List Span) :
    merged (.literal s :: .literal t :: spans) = merged (.literal (s ++ t) :: spans) := by
  simp only [merged]
  split
  · rename_i u rest hmerged
    cases hspans : merged spans with
    | nil => simp_all
    | cons x xs => cases x <;> simp_all [String.append_assoc]
  · rename_i hmerged
    exfalso
    split at hmerged
    · exact hmerged _ _ rfl
    · exact hmerged _ _ rfl

theorem merged_literals (cs ds : List Char) (spans : List Span) :
    merged (literals (cs ++ ds) ++ spans) = merged (literals cs ++ (literals ds ++ spans)) := by
  cases cs with
  | nil => rfl
  | cons c cs =>
    cases ds with
    | nil => simp [literals]
    | cons d ds => simp [literals, merged_literal_literal, String.ofList_append, String.append_assoc]

/-! ## Two scans that tell the same -/

/-- Both scans succeed or none does, and their spans differ in literals that meet alone. -/
structure Scan.Agree (s s' : Scan) : Prop where
  succeeds : s.failure? = none ↔ s'.failure? = none
  spans : s.failure? = none → merged s.spans = merged s'.spans

namespace Scan.Agree

variable {s s' s'' : Scan}

theorem refl (s : Scan) : s.Agree s := ⟨Iff.rfl, fun _ => rfl⟩

theorem prepend (h : s.Agree s') (front : List Span) :
    (s.prepend front).Agree (s'.prepend front) where
  succeeds := h.succeeds
  spans hs := merged_append_congr front (h.spans hs)

theorem of_failures {e e' : Error} (h : s.failure? = some e) (h' : s'.failure? = some e') :
    s.Agree s' where
  succeeds := by simp [h, h']
  spans hs := by simp [h] at hs

end Scan.Agree

theorem Scan.prepend_prepend (s : Scan) (front more : List Span) :
    (s.prepend more).prepend front = s.prepend (front ++ more) := by
  simp [Scan.prepend]

/-- The text that a failure shows is all that a scan takes from the whole text. -/
theorem scanFrom_agree (text text' : String) (cs : List Char) :
    (scanFrom text cs).Agree (scanFrom text' cs) := by
  fun_induction scanFrom text cs with
  | case1 cs hstep =>
    rw [scanFrom_eq, hstep]
    exact .refl _
  | case2 cs ds hstep =>
    rw [scanFrom_eq, hstep]
    exact .refl _
  | case3 cs hstep =>
    rw [scanFrom_eq, hstep]
    exact .of_failures rfl rfl
  | case4 cs before inside rest hstep hinside ih =>
    rw [scanFrom_eq text', hstep]
    simp only [hinside, if_true]
    exact ih.prepend _
  | case5 cs before inside rest hstep hinside e hread =>
    rw [scanFrom_eq, hstep]
    simp only [hinside, hread]
    exact .refl _
  | case6 cs before inside rest hstep hinside d hread ih =>
    rw [scanFrom_eq text', hstep]
    simp only [hinside, hread]
    exact ih.prepend _

theorem literals_of_ne_nil {cs : List Char} (h : cs ≠ []) :
    literals cs = [.literal (String.ofList cs)] := by
  rw [literals, if_neg (by simpa using h)]

/-- A scan behind a literal text: this text is a literal span of its own or meets the first one. -/
theorem scanFrom_append_of_not_infix (text : String) {cs ds : List Char}
    (h : ¬ ['{', '{'] <:+: cs) (hapart : Apart cs ds) :
    (scanFrom text (cs ++ ds)).Agree ((scanFrom text ds).prepend (literals cs)) := by
  by_cases hne : cs = []
  · subst hne
    exact .refl _
  · rw [scanFrom_eq text (cs ++ ds), step_append_of_not_infix hne h hapart, scanFrom_eq text ds]
    cases hstep : step ds with
    | finished =>
      rw [literals_of_ne_nil hne]
      exact .refl _
    | literal es =>
      obtain ⟨rfl, hes, -⟩ := step_eq_literal hstep
      have hmeet := merged_literals cs es []
      refine ⟨Iff.rfl, fun _ => ?_⟩
      simpa [Step.led, Scan.prepend, literals_of_ne_nil, hes, hne] using hmeet
    | unbalanced => exact .of_failures rfl rfl
    | region before inside rest =>
      dsimp only [Step.led]
      split
      · exact ⟨Iff.rfl, fun _ => merged_literals cs before _⟩
      · split
        · exact .of_failures rfl rfl
        · refine ⟨Iff.rfl, fun _ => ?_⟩
          simp only [Scan.prepend, List.append_assoc, List.singleton_append]
          exact merged_literals cs before _

/-- A scan goes on behind a text that it takes without a failure, by induction along the steps over
that text. -/
theorem scanFrom_append (text text' : String) {cs ds : List Char}
    (h : (scanFrom text cs).failure? = none) (hapart : Apart cs ds) :
    (scanFrom text' (cs ++ ds)).Agree ((scanFrom text' ds).prepend (scanFrom text cs).spans) := by
  fun_induction scanFrom text cs with
  | case1 cs hstep =>
    rw [step_eq_finished hstep]
    exact .refl _
  | case2 cs es hstep =>
    obtain ⟨rfl, hes, hliteral⟩ := step_eq_literal hstep
    rw [← literals_of_ne_nil hes]
    exact scanFrom_append_of_not_infix text' hliteral hapart
  | case3 => cases h
  | case4 cs before inside rest hstep hinside ih =>
    obtain ⟨-, mark, -, hcs⟩ := step_eq_region hstep
    have hrest : rest <:+ cs := hcs ▸ (List.suffix_append _ _).trans (List.suffix_append _ _)
    rw [scanFrom_eq text', step_append_of_eq_region hstep]
    simp only [hinside, if_true]
    have hagree := (ih h (hapart.of_suffix hrest)).prepend (literals before)
    rwa [Scan.prepend_prepend] at hagree
  | case5 => cases h
  | case6 cs before inside rest hstep hinside d hread ih =>
    obtain ⟨-, mark, -, hcs⟩ := step_eq_region hstep
    have hrest : rest <:+ cs := hcs ▸ (List.suffix_append _ _).trans (List.suffix_append _ _)
    rw [scanFrom_eq text', step_append_of_eq_region hstep]
    simp only [hinside, hread]
    have hagree := (ih h (hapart.of_suffix hrest)).prepend (literals before ++ [.directive d])
    rwa [Scan.prepend_prepend] at hagree

/-- Regions end in a closing brace, so an opening one at the end of a text is literal. -/
theorem exists_literal_of_getLast? {text : String} {cs : List Char}
    (h : (scanFrom text cs).failure? = none) (hlast : cs.getLast? = some '{') :
    ∃ front s, (scanFrom text cs).spans = front ++ [.literal s] ∧ s.toList.getLast? = some '{' := by
  have hrest {cs before inside rest : List Char} (hstep : step cs = .region before inside rest)
      (hlast : cs.getLast? = some '{') : rest.getLast? = some '{' := by
    obtain ⟨-, mark, -, rfl⟩ := step_eq_region hstep
    cases rest with
    | nil =>
      have hclosed : before ++ ((Stretch.region inside mark).written ++ []) =
          before ++ '{' :: '{' :: (inside ++ [mark]) ++ ['}'] := by simp [Stretch.written]
      rw [hclosed, List.getLast?_concat] at hlast
      exact absurd (Option.some.inj hlast) (by decide)
    | cons c rest => simpa [List.getLast?_append, List.getLast?_cons] using hlast
  fun_induction scanFrom text cs with
  | case1 cs hstep => simp [step_eq_finished hstep] at hlast
  | case2 cs es hstep =>
    obtain ⟨rfl, -⟩ := step_eq_literal hstep
    exact ⟨[], _, rfl, by rwa [String.toList_ofList]⟩
  | case3 => cases h
  | case4 cs before inside rest hstep hinside ih =>
    obtain ⟨front, s, hspans, hs⟩ := ih h (hrest hstep hlast)
    exact ⟨literals before ++ front, s, by simp [Scan.prepend, hspans], hs⟩
  | case5 => cases h
  | case6 cs before inside rest hstep hinside d hread ih =>
    obtain ⟨front, s, hspans, hs⟩ := ih h (hrest hstep hlast)
    exact ⟨literals before ++ .directive d :: front, s, by simp [Scan.prepend, hspans], hs⟩

end Span

/-! ## How a scan fails -/

/-- An error in an expression is one of the grammar, or one of converting a number. -/
theorem Expr.kind_of_read_eq_error {source : String} {cause : Cause}
    (h : Expr.read source = .error cause) : cause.kind ≠ .lexical := by
  unfold Expr.read at h
  split at h
  · rename_i cause' htokens
    obtain rfl := Except.error.inj h
    obtain ⟨before, c, more, -, -, -, hnext⟩ := Token.exists_stuck htokens
    unfold Token.next Token.number at hnext
    grind [Cause.kind]
  · rename_i tokens htokens
    cases located_of_ofTokens (stop_mem_of_read htokens) h <;> simp [Cause.kind]

/-- An error in a directive is one in its expression. -/
theorem Directive.kind_of_read_eq_error {text : String} {e : Error}
    (h : Directive.read text = .error e) : e.cause.kind ≠ .lexical := by
  unfold Directive.read at h
  dsimp only at h
  split at h
  · cases h
  · rename_i cause hbody
    obtain rfl := Except.error.inj h
    unfold body? at hbody
    split at hbody
    · cases hbody
    · cases hread : Expr.read (String.ofList (classify (Text.trim text.toList)).2) with
      | ok e =>
        rw [hread] at hbody
        cases hbody
      | error cause' =>
        rw [hread] at hbody
        cases hbody
        exact Expr.kind_of_read_eq_error hread

namespace Span

/-- A scan that fails meets braces that are not closed or a directive that is not read. -/
theorem failure_of_scanFrom {text : String} {cs : List Char} {e : Error}
    (h : (scanFrom text cs).failure? = some e) :
    e = .of (.unbalancedBraces text) ∨ ∃ s, Directive.read s = .error e := by
  fun_induction scanFrom text cs with
  | case1 => cases h
  | case2 => cases h
  | case3 => exact .inl (Option.some.inj h).symm
  | case4 cs before inside rest hstep hinside ih => exact ih h
  | case5 cs before inside rest hstep hinside e' hread =>
    obtain rfl := Option.some.inj h
    exact .inr ⟨_, hread⟩
  | case6 cs before inside rest hstep hinside d hread ih => exact ih h

/-- A text behind one that is scanned without a failure, where no pair of opening braces stands
between the two, is scanned as it would be alone, and the spans are the same but for literals that
meet. The first of these braces would be the end of a literal span. No scan of any text stalls. -/
theorem scan_append :
    (∀ a b : String, (scan a).failure? = none →
      ¬ (a.toList.getLast? = some '{' ∧ b.toList.head? = some '{') →
      ((scan (a ++ b)).failure? = none ↔ (scan b).failure? = none) ∧
        ((scan b).failure? = none →
          merged (scan (a ++ b)).spans = merged ((scan a).spans ++ (scan b).spans))) ∧
      (∀ a : String, (scan a).failure? = none → a.toList.getLast? = some '{' →
        ∃ front s, (scan a).spans = front ++ [.literal s] ∧ s.toList.getLast? = some '{') ∧
      ∀ text e, (scan text).failure? = some e → ∀ shown, e.cause ≠ .stalledText shown := by
  refine ⟨?_, fun a ha hlast => ?_, ?_⟩
  · intro a b ha hapart
    rw [scan_eq] at ha
    have hagree := scanFrom_append a (a ++ b) ha hapart
    have htext := (scanFrom_agree (a ++ b) b b.toList).prepend (scanFrom a a.toList).spans
    rw [scan_eq (a ++ b), scan_eq a, scan_eq b, String.toList_append]
    have hsame := hagree.succeeds.trans htext.succeeds
    refine ⟨hsame, fun hb => ?_⟩
    have hwhole := hsame.2 hb
    exact (hagree.spans hwhole).trans (htext.spans (hagree.succeeds.1 hwhole))
  · rw [scan_eq] at ha ⊢
    exact exists_literal_of_getLast? ha hlast
  · intro text e he shown hcause
    rw [scan_eq] at he
    obtain rfl | ⟨s, hread⟩ := failure_of_scanFrom he
    · cases hcause
    · exact Directive.kind_of_read_eq_error hread (by rw [hcause]; rfl)

theorem scan_append_at_empty_region :
    (scan "a\x7b\x7b\x7d\x7d").failure? = none ∧
      ¬ ("a\x7b\x7b\x7d\x7d".toList.getLast? = some '{' ∧ "b\x7b".toList.head? = some '{') ∧
      ((scan ("a\x7b\x7b\x7d\x7d" ++ "b\x7b")).failure? = none ↔ (scan "b\x7b").failure? = none) ∧
      ((scan "b\x7b").failure? = none →
        merged (scan ("a\x7b\x7b\x7d\x7d" ++ "b\x7b")).spans =
          merged ((scan "a\x7b\x7b\x7d\x7d").spans ++ (scan "b\x7b").spans)) := by
  have ha : (scan "a\x7b\x7b\x7d\x7d").failure? = none := by
    rw [← Option.isNone_iff_eq_none]
    decide +kernel
  have hapart : ¬ ("a\x7b\x7b\x7d\x7d".toList.getLast? = some '{' ∧
      "b\x7b".toList.head? = some '{') := by decide
  exact ⟨ha, hapart, scan_append.1 _ _ ha hapart⟩

end Span

end Stencil
