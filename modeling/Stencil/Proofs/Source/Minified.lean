import Mathlib.Data.List.Induction
import Stencil.Proofs.Source.Expressions
import Stencil.Proofs.Source.OpenText

/-!
# Minified sources

Minifying a source that is written from tags, text and directives changes its text alone: the tags
and the directives are copied as they are written, in their order, so a template that is read from
the minified source has the expressions of one that is read from the source itself.

A source that is not written so can be cut inside a directive. The elements that keep their blanks
are looked for before the directives are, also between the quotes of an expression.
-/

namespace Stencil

open Nesting

/-! ## Blanks at the ends -/

section

variable {es : List Event}

theorem quiet_dropWhile {cs : List Char} (h : ∀ c ∈ cs, isQuiet c = true) :
    ∀ c ∈ Text.skipBlanks cs, isQuiet c = true :=
  fun c hc => h c ((List.dropWhile_sublist _).subset hc)

/-- Leading blanks can be dropped without changing what is spelled. -/
theorem spells_skipBlanks (h : ∀ e ∈ es, e.Tidy) :
    Spells (Text.skipBlanks (sourceChars es)) es := by
  induction es with
  | nil => exact spells_sourceChars h
  | cons e es ih =>
    rw [List.forall_mem_cons] at h
    by_cases hmark : e.isLiteral = false
    · obtain ⟨⟨c, cs, hchars, hblank⟩, -⟩ := h.1.solid hmark
      have hskip : Text.skipBlanks (sourceChars (e :: es)) = sourceChars (e :: es) := by
        rw [sourceChars_cons, hchars, List.cons_append, Text.skipBlanks,
          List.dropWhile_cons_of_neg (by simp [hblank])]
      rw [hskip]
      exact spells_sourceChars (List.forall_mem_cons.2 h)
    · cases e with
      | literal data =>
        have hquiet : ∀ c ∈ data.toList, isQuiet c = true := h.1
        rw [sourceChars_cons, Text.skipBlanks, List.dropWhile_append]
        split
        · exact (ih h.2).congr rfl
        · have hfront : Spells (Text.skipBlanks data.toList) [.literal data] :=
            spells_of_quiet (quiet_dropWhile hquiet) rfl
          exact hfront.append (spells_sourceChars h.2)
      | start | stop | directive | comment => exact absurd rfl hmark

theorem spells_skipBlanks_reverse (h : ∀ e ∈ es, e.Tidy) :
    Spells (Text.skipBlanks (sourceChars es).reverse).reverse es := by
  induction es using List.reverseRecOn with
  | nil => exact spells_sourceChars h
  | append_singleton es e ih =>
    obtain ⟨hes, he⟩ := List.forall_mem_append.1 h
    rw [List.forall_mem_singleton] at he
    have hchars : sourceChars (es ++ [e]) = sourceChars es ++ e.chars := by
      simp [sourceChars]
    by_cases hmark : e.isLiteral = false
    · obtain ⟨-, cs, c, hlast, hblank⟩ := he.solid hmark
      have hskip : (Text.skipBlanks (sourceChars (es ++ [e])).reverse).reverse =
          sourceChars (es ++ [e]) := by
        simp [hchars, hlast, Text.skipBlanks, hblank]
      rw [hskip]
      exact spells_sourceChars h
    · cases e with
      | literal data =>
        have hquiet : ∀ c ∈ data.toList.reverse, isQuiet c = true :=
          fun c hc => he c (List.mem_reverse.1 hc)
        rw [hchars, List.reverse_append, Text.skipBlanks, List.dropWhile_append]
        split
        · exact (ih hes).congr (by rw [marks_append]; exact (List.append_nil _).symm)
        · rw [List.reverse_append, List.reverse_reverse]
          refine (spells_sourceChars hes).append (spells_of_quiet (fun c hc => ?_) rfl)
          exact quiet_dropWhile hquiet c (List.mem_reverse.1 hc)
      | start | stop | directive | comment => exact absurd rfl hmark

/-- Blanks at both ends can be dropped without changing what is spelled. -/
theorem Spells.trim {cs : List Char} (h : Spells cs es) : Spells (Text.trim cs) es := by
  obtain ⟨es₁, rfl, hes₁, hmarks₁⟩ := h
  obtain ⟨es₂, hskip, hes₂, hmarks₂⟩ := spells_skipBlanks hes₁
  rw [Text.trim, hskip]
  exact (spells_skipBlanks_reverse hes₂).congr (hmarks₂.trans hmarks₁)

end

/-! ## Spaces that are asked for -/

namespace Markup

theorem expandSpaces_cons {c : Char} {cs : List Char} (h : c = '&' → ∀ ds, cs ≠ 's' :: ds) :
    expandSpaces (c :: cs) = c :: expandSpaces cs := by
  rw [expandSpaces]
  rintro ds rfl rfl
  exact h rfl _ rfl

theorem expandSpaces_append {cs : List Char} (h : Mild cs) (ds : List Char) :
    expandSpaces (cs ++ ds) = cs ++ expandSpaces ds := by
  induction cs with
  | nil => rfl
  | cons c cs ih =>
    rw [List.cons_append, expandSpaces_cons, ih h.2.2, List.cons_append]
    intro hc ds' heq
    obtain ⟨d, more, rfl, rfl | rfl⟩ := h.2.1 hc <;> cases heq

end Markup

/-- What spells events has no space mark to expand. -/
theorem Spells.expandSpaces {cs : List Char} {es : List Event} (h : Spells cs es) :
    Markup.expandSpaces cs = cs := by
  obtain ⟨es', rfl, hes', -⟩ := h
  induction es' with
  | nil => rfl
  | cons e es' ih =>
    rw [List.forall_mem_cons] at hes'
    rw [sourceChars_cons]
    by_cases hmark : e.isText = true
    · rw [Markup.expandSpaces_append (hes'.1.sound.mild hmark), ih hes'.2]
    · obtain ⟨cs, hchars⟩ := hes'.1.chars_of_tag hmark
      rw [hchars, List.cons_append, Markup.expandSpaces_cons (by simp),
        Markup.expandSpaces_append (hes'.1.sound.mild_tail hchars), ih hes'.2]

/-! ## Elements that keep their blanks -/

namespace Markup

theorem length_of_spelled? {ps cs letters rest : List Char}
    (h : spelled? ps cs = some (letters, rest)) : letters.length = ps.length := by
  induction ps generalizing cs letters with
  | nil =>
    cases h
    rfl
  | cons p ps ih =>
    cases cs with
    | nil => cases h
    | cons c cs =>
      rw [spelled?] at h
      split at h
      · obtain ⟨⟨more, rest'⟩, hmore, heq⟩ := Option.map_eq_some_iff.1 h
        cases heq
        simp [ih hmore]
      · cases h

theorem eq_drop_of_repeated? {ps cs rest : List Char} (h : repeated? ps cs = some rest) :
    rest = cs.drop ps.length := by
  induction ps generalizing cs with
  | nil =>
    cases h
    rfl
  | cons p ps ih =>
    cases cs with
    | nil => cases h
    | cons c cs =>
      rw [repeated?] at h
      split at h
      · exact ih h
      · cases h

/-- The text after an end tag in lower case that closes an element. -/
theorem eq_of_tagEnd? {ps cs letters rest tag more after : List Char}
    (hps : ∀ p ∈ ps, p.isLower = true) (hspelled : spelled? ps cs = some (letters, rest))
    (htag : ∀ t ∈ tag, isTagChar t = true)
    (h : (repeated? letters (tag ++ '>' :: more)).bind tagEnd? = some after) : after = more := by
  obtain rfl := eq_of_endTag? hps hspelled htag h
  obtain ⟨left, hrepeated, hend⟩ := Option.bind_eq_some_iff.1 h
  have hleft : left = '>' :: more := by
    rw [eq_drop_of_repeated? hrepeated, length_of_spelled? hspelled, List.drop_left]
  have hblank : Text.isBlank '>' = false := by decide
  rw [hleft] at hend
  simpa [tagEnd?, Text.skipBlanks, hblank] using hend.symm

/-- No element begins inside a mild text. -/
theorem afterPreserved?_of_mild {cs : List Char} (h : Mild cs) (hne : cs ≠ []) (rest : List Char) :
    afterPreserved? (cs ++ rest) = none := by
  obtain ⟨c, cs, rfl⟩ := List.exists_cons_of_ne_nil hne
  rw [afterPreserved?, List.findSome?_eq_none_iff]
  intro name hname
  rw [List.cons_append]
  by_cases hc : c = '<'
  · subst hc
    obtain ⟨d, ds, rfl, hd⟩ := h.1 rfl
    simp only [List.mem_cons, List.not_mem_nil, or_false] at hname
    obtain rfl | rfl | rfl | rfl := hname <;> obtain rfl | rfl := hd <;> rfl
  · rw [afterElement?]
    rintro _ heq
    exact hc (List.cons.inj heq).1

end Markup

section

variable {es : List Event}

/-- An end tag in a source is one of its events. -/
theorem exists_stop_of_sourceChars (h : ∀ e ∈ es, e.Tidy) {before inside : List Char}
    (heq : sourceChars es = before ++ '<' :: '/' :: inside) :
    ∃ es₁ tag es₂, es = es₁ ++ .stop tag :: es₂ ∧
      inside = tag.toList ++ '>' :: sourceChars es₂ := by
  induction es generalizing before with
  | nil => simp [sourceChars] at heq
  | cons e es ih =>
    rw [List.forall_mem_cons] at h
    have hlater (before : List Char) (heq : sourceChars es = before ++ '<' :: '/' :: inside) :
        ∃ es₁ tag es₂, e :: es = es₁ ++ .stop tag :: es₂ ∧
          inside = tag.toList ++ '>' :: sourceChars es₂ := by
      obtain ⟨es₁, tag, es₂, rfl, hinside⟩ := ih h.2 heq
      exact ⟨e :: es₁, tag, es₂, rfl, hinside⟩
    rw [sourceChars_cons] at heq
    obtain ⟨more, -, hrest⟩ | ⟨more, hchars, hrest⟩ := List.append_eq_append_iff.1 heq
    · exact hlater _ hrest
    · cases more with
      | nil => exact hlater [] hrest.symm
      | cons c more =>
        obtain ⟨rfl, hrest⟩ := List.cons.inj hrest
        have hsign (hsign : ∃ d ds, more = d :: ds ∧ (d = ' ' ∨ d = '=')) : False := by
          obtain ⟨d, ds, rfl, rfl | rfl⟩ := hsign <;> cases hrest
        cases before with
        | cons b before => exact (hsign ((h.1.sound.mild_tail hchars).of_append.1 rfl)).elim
        | nil =>
          cases e with
          | comment => cases h.1
          | literal | directive =>
            have hmild := h.1.sound.mild rfl
            rw [hchars] at hmild
            exact (hsign (hmild.1 rfl)).elim
          | stop tag =>
            refine ⟨[], tag, es, rfl, ?_⟩
            cases hchars
            simpa using hrest
          | start tag as selfClosing =>
            obtain ⟨c, cs, hname, hc, -⟩ := h.1.2.1.1
            rw [Event.chars, hname] at hchars
            cases hchars
            cases hrest
            cases hc

/-- An element that keeps its blanks is made of whole events. -/
theorem exists_of_afterPreserved? (h : ∀ e ∈ es, e.Tidy) {rest : List Char}
    (hafter : Markup.afterPreserved? (sourceChars es) = some rest) :
    ∃ es₁ es₂, es = es₁ ++ es₂ ∧ sourceChars es₁ ≠ [] ∧ rest = sourceChars es₂ := by
  obtain ⟨name, hname, helement⟩ := List.exists_of_findSome?_eq_some hafter
  have hlower : ∀ p ∈ name.toList, p.isLower = true := by
    simp only [List.mem_cons, List.not_mem_nil, or_false] at hname
    obtain rfl | rfl | rfl | rfl := hname <;> exact forall_mem_of_all (by decide)
  unfold Markup.afterElement? at helement
  split at helement
  · rename_i cs hchars
    split at helement
    · rename_i letters left hspelled
      split at helement
      · obtain ⟨before, s, rfl, hend⟩ := Markup.exists_of_afterFirst? helement
        unfold Markup.endTag? at hend
        split at hend
        · rename_i inside
          rw [← Markup.spelled?_append hspelled, ← List.append_assoc, ← List.cons_append] at hchars
          obtain ⟨es₁, tag, es₂, rfl, rfl⟩ := exists_stop_of_sourceChars h hchars
          have htag : IsTag tag := h (.stop tag) (by simp)
          refine ⟨es₁ ++ [.stop tag], es₂, by simp, ?_, ?_⟩
          · simp [sourceChars, Event.chars]
          · exact Markup.eq_of_tagEnd? hlower hspelled htag.isTagName.isTagChar hend
        · cases hend
      · cases helement
    · cases helement
  · cases helement

/-- Elements that keep their blanks are copied, and the text around them is minified. -/
theorem spells_mapOpen (gone : List Event) (hgone : ∀ e ∈ gone, e.Tidy) (hes : ∀ e ∈ es, e.Tidy) :
    Spells (Markup.mapOpen Markup.minifyOpen
      (Markup.piecesFrom Markup.afterPreserved? (sourceChars gone).reverse (sourceChars es)))
      (gone ++ es) := by
  induction hlength : es.length using Nat.strongRecOn generalizing es gone with
  | ind n ih =>
    subst hlength
    cases es with
    | nil =>
      have hopen := spells_minifyOpen hgone
      simpa [sourceChars, Markup.piecesFrom, Markup.mapOpen] using hopen
    | cons e es =>
      cases hafter : Markup.afterPreserved? (sourceChars (e :: es)) with
      | none =>
        rw [List.forall_mem_cons] at hes
        rw [sourceChars_cons] at hafter ⊢
        have hopen : ∀ s, s <:+ e.chars → s ≠ [] →
            Markup.afterPreserved? (s ++ sourceChars es) = none := by
          intro s hs hne
          obtain ⟨before, hchars⟩ := hs
          cases before with
          | nil =>
            rw [List.nil_append] at hchars
            rw [hchars]
            exact hafter
          | cons b before =>
            exact Markup.afterPreserved?_of_mild (hes.1.sound.mild_tail hchars.symm).of_append hne _
        have hchunk : e.chars.reverse ++ (sourceChars gone).reverse =
            (sourceChars (gone ++ [e])).reverse := by
          simp [sourceChars]
        have hmore := ih es.length (by simp) (gone ++ [e]) ?_ hes.2 rfl
        · rw [Markup.piecesFrom_append hopen, hchunk]
          simpa using hmore
        · simpa [or_imp, forall_and] using ⟨hgone, hes.1⟩
      | some rest =>
        obtain ⟨es₁, es₂, heq, hne, rfl⟩ := exists_of_afterPreserved? hes hafter
        have hshorter : es₂.length < (e :: es).length := by
          have hpos : 0 < es₁.length := List.length_pos_iff.2 fun hnil => hne (hnil ▸ rfl)
          rw [heq, List.length_append]
          omega
        rw [heq, List.forall_mem_append] at hes
        rw [heq, sourceChars_append] at hafter ⊢
        have hmore : Spells _ ([] ++ es₂) :=
          ih es₂.length hshorter [] (List.forall_mem_nil _) hes.2 rfl
        have hall := ((spells_minifyOpen hgone).append (spells_sourceChars hes.1)).append hmore
        rw [Markup.piecesFrom_consumed hne hafter]
        simpa [Markup.mapOpen, sourceChars] using hall

end

/-! ## Whole sources -/

section

variable {es : List Event}

/-- Minifying changes the text of a source alone. -/
theorem spells_minify (h : ∀ e ∈ es, e.Tidy) :
    Spells (Markup.minify (String.ofList (sourceChars es))).toList es := by
  have hopen : Spells (Markup.mapOpen Markup.minifyOpen
      (Markup.pieces Markup.afterPreserved? (sourceChars es))) ([] ++ es) :=
    spells_mapOpen [] (List.forall_mem_nil _) h
  rw [Markup.minify, String.toList_ofList, String.toList_ofList, hopen.trim.expandSpaces]
  exact hopen.trim

/-- Text has no expressions, so they are told by the other events. -/
theorem flatMap_exprs_marks (scene : Scene) (es : List Event) :
    (marks es).flatMap (Event.exprs scene) = es.flatMap (Event.exprs scene) := by
  induction es with
  | nil => rfl
  | cons e es ih =>
    cases e with
    | literal data => simpa [marks, Event.isLiteral, Event.exprs] using ih
    | start | stop | directive | comment => simpa [marks, Event.isLiteral] using ih

/-- Minifying does not change the expressions of a source that is written from tags, text and
directives: they are the same, in the same order. -/
theorem exprs_minify {scene : Scene} (hscene : scene.view? = none) {observers : Observers}
    (hobservers : observers = .default ∨ observers = .empty) {source : String}
    (hsource : source = String.ofList (sourceChars es)) (hes : ∀ e ∈ es, e.Tidy) {t t' : Template}
    (ht : ((Builder.start observers).run (Build.markup scene source)).1 = .ok t)
    (ht' : ((Builder.start observers).run (Build.markup scene (Markup.minify source))).1 = .ok t') :
    t'.exprs = t.exprs := by
  subst hsource
  have hsuppress : observers.Suppress := .of_usual hobservers
  obtain ⟨es', hchars, hes', hmarks⟩ := spells_minify hes
  rw [← String.ofList_toList (s := Markup.minify _), hchars] at ht'
  rw [exprs_of_run_markup hscene hsuppress hes' ht', exprs_of_run_markup hscene hsuppress hes ht,
    ← flatMap_exprs_marks, hmarks, flatMap_exprs_marks]

/-- Blanks between tags are dropped or shrink, those in expressions stay. -/
theorem exprs_minify_paragraph :
    let source := " <p title=\"\x7b\x7b'a  b'\x7d\x7d\">\n  \x7b\x7b'c   d' + e\x7d\x7d  </p>\n"
    Markup.minify source =
        "<p title=\"\x7b\x7b'a  b'\x7d\x7d\"> \x7b\x7b'c   d' + e\x7d\x7d </p>" ∧
      ∃ t t' : Template,
        ((Builder.start .default).run (Build.markup (bareScene .empty) source)).1 = .ok t ∧
        ((Builder.start .default).run
          (Build.markup (bareScene .empty) (Markup.minify source))).1 = .ok t' ∧
        t.exprs.map Expr.print = ["'a  b'", "'c   d' + e"] ∧ t'.exprs = t.exprs := by
  intro source
  let title : String × Value := ("title", .text "\x7b\x7b'a  b'\x7d\x7d")
  let es : List Event := [.literal " ", .start "p" [title] false, .literal "\n  ",
    .directive ⟨"'c   d' + e", .shows [], none⟩, .literal "  ", .stop "p", .literal "\n"]
  have hquiet (s : String) (h : (s.toList.all fun c => decide (isQuiet c = true)) = true) :
      ∀ c ∈ s.toList, isQuiet c = true := forall_mem_of_all h
  have hes : ∀ e ∈ es, e.Tidy := by
    have hp : IsTag "p" := ⟨⟨'p', [], by decide, by decide, by simp⟩, by decide +kernel, by decide⟩
    have hvalue := hquiet "'a  b'" (by decide)
    have hlaid : Laid ('{' :: '{' :: ("'a  b'".toList ++ ['}', '}'])) :=
      .directive (mild_of_quiet hvalue) (balanced_of_quiet hvalue) .nil
    have htitle : Event.IsQuoted title :=
      ⟨⟨by decide, forall_mem_of_all (by decide +kernel), by decide⟩, _, rfl, by decide,
        mild_of_not_mem (by decide) (by decide), hlaid⟩
    have hstart : (Event.start "p" [title] false).Tidy :=
      ⟨rfl, hp, by decide +kernel, List.forall_mem_singleton.2 htitle⟩
    have hsum := hquiet "'c   d' + e" (by decide)
    have hdirective : (Event.directive ⟨"'c   d' + e", .shows [], none⟩).Tidy :=
      ⟨mild_of_quiet hsum, balanced_of_quiet hsum⟩
    simp only [es, List.forall_mem_cons]
    exact ⟨hquiet _ (by decide), hstart, hquiet _ (by decide), hdirective, hquiet _ (by decide), hp,
      hquiet _ (by decide), List.forall_mem_nil _⟩
  have hsource : source = String.ofList (sourceChars es) := by decide +kernel
  have hrun : ((Builder.start .default).run
      (Build.markup (bareScene .empty) source)).1.toOption.map
        (fun t => t.exprs.map Expr.print) = some ["'a  b'", "'c   d' + e"] := by
    decide +kernel
  have hrun' : ((Builder.start .default).run
      (Build.markup (bareScene .empty) (Markup.minify source))).1.toOption.map
        (fun t => t.exprs.map Expr.print) = some ["'a  b'", "'c   d' + e"] := by
    decide +kernel
  obtain ⟨t, ht, hexprs⟩ := exists_of_toOption_map hrun
  obtain ⟨t', ht', -⟩ := exists_of_toOption_map hrun'
  exact ⟨by decide +kernel, t, t', ht, ht', hexprs,
    exprs_minify rfl (.inl rfl) hsource hes ht ht'⟩

/-- Between the quotes of an expression blanks are lost where an element that keeps its blanks
seems to end. -/
theorem not_forall_exprs_minify :
    ¬ ∀ (source : String) (t t' : Template), ¬ "&sp;".toList <:+: source.toList →
      ((Builder.start .default).run (Build.markup (bareScene .empty) source)).1 = .ok t →
      ((Builder.start .default).run
        (Build.markup (bareScene .empty) (Markup.minify source))).1 = .ok t' →
      t'.exprs = t.exprs := by
  intro h
  let source := "\x7b\x7b'<pre></pre>   x'\x7d\x7d"
  have hrun : ((Builder.start .default).run
      (Build.markup (bareScene .empty) source)).1.toOption.map
        (fun t => t.exprs.map Expr.print) = some ["'<pre></pre>   x'"] := by
    decide +kernel
  have hrun' : ((Builder.start .default).run
      (Build.markup (bareScene .empty) (Markup.minify source))).1.toOption.map
        (fun t => t.exprs.map Expr.print) = some ["'<pre></pre> x'"] := by
    decide +kernel
  obtain ⟨t, ht, hexprs⟩ := exists_of_toOption_map hrun
  obtain ⟨t', ht', hexprs'⟩ := exists_of_toOption_map hrun'
  rw [h source t t' (by decide +kernel) ht ht', hexprs] at hexprs'
  exact absurd hexprs' (by decide)

end

end Stencil
