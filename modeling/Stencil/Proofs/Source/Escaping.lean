import Mathlib.Data.List.Infix
import Stencil.Proofs.Source.Reading

/-!
# Directives in one piece

Before a source is read, each less-than sign of a directive that would start markup is replaced by
a reference. `Escaped` relates the text after this to the text before it: the reader takes every
such text as text alone, and puts together what it stands for. So a directive reaches the builder
in one piece, whatever less-than signs it holds.

A source in which a comment, a script or a style sheet is found is cut there before its directives
are looked for, also between the quotes of an expression, and then its directives are not whole.
-/

namespace Stencil

namespace Markup

/-! ## Escaped texts -/

/-- The first text is read as the second: its less-than signs start no markup, and those that
would are references. -/
inductive Escaped : List Char → List Char → Prop
  | nil : Escaped [] []
  | plain {c : Char} {es cs : List Char} (hsign : c ≠ '<') (hand : c ≠ '&') (h : Escaped es cs) :
    Escaped (c :: es) (c :: cs)
  | sign {es cs : List Char} (hnext : ∃ d ds, es = d :: ds ∧ startsMarkup d = false)
    (h : Escaped es cs) : Escaped ('<' :: es) ('<' :: cs)
  | reference {es cs : List Char} (h : Escaped es cs) :
    Escaped ('&' :: 'l' :: 't' :: ';' :: es) ('<' :: cs)

/-- Escaping a region puts references in the place of less-than signs. -/
theorem escaped_escapeRegion {cs : List Char} (hand : '&' ∉ cs) (hlast : cs.getLast? ≠ some '<') :
    Escaped (escapeRegion cs) cs := by
  fun_induction escapeRegion cs with
  | case1 => exact .nil
  | case2 c =>
    refine .plain ?_ ?_ .nil
    · rintro rfl
      exact hlast rfl
    · rintro rfl
      exact hand List.mem_cons_self
  | case3 c d cs hmarkup ih =>
    obtain ⟨rfl, -⟩ := hmarkup
    exact .reference (ih (fun h => hand (List.mem_cons_of_mem _ h)) hlast)
  | case4 c d cs hplain ih =>
    have hrest := ih (fun h => hand (List.mem_cons_of_mem _ h)) hlast
    by_cases hc : c = '<'
    · subst hc
      obtain ⟨e, es, heq, he⟩ := exists_escapeRegion_cons d cs
      refine .sign ⟨e, es, heq, ?_⟩ hrest
      obtain rfl | rfl := he
      · simpa using hplain
      · rfl
    · refine .plain hc ?_ hrest
      rintro rfl
      exact hand List.mem_cons_self

section

variable {es cs : List Char}

theorem Escaped.append (h : Escaped es cs) {es' cs' : List Char} (h' : Escaped es' cs') :
    Escaped (es ++ es') (cs ++ cs') := by
  induction h with
  | nil => exact h'
  | plain hsign hand _ ih => exact .plain hsign hand ih
  | sign hnext _ ih =>
    obtain ⟨d, ds, rfl, hd⟩ := hnext
    exact .sign ⟨d, ds ++ es', rfl, hd⟩ ih
  | reference _ ih => exact .reference ih

theorem Escaped.isEmpty_eq (h : Escaped es cs) : es.isEmpty = cs.isEmpty := by
  cases h <;> rfl

/-- The reference stands for the sign. -/
theorem reference?_lt (es : List Char) :
    reference? ('l' :: 't' :: ';' :: es) = some (.ok ['<'], 3) := by
  have hname : (('l' :: 't' :: ';' :: es).takeWhile isReferenceChar).take 32 = ['l', 't'] := by
    have hl : isReferenceChar 'l' = true := by decide
    have ht : isReferenceChar 't' = true := by decide
    have hend : isReferenceChar ';' = false := by decide
    simp [hl, ht, hend]
  have hlt : namedText ['l', 't', ';'] = ['<'] := by decide +kernel
  simp [reference?, hname, withSemicolon, hlt]

/-- What was escaped is decoded back. -/
theorem Escaped.decode_eq (h : Escaped es cs) (hsign : '<' ∉ es) : decode es = .ok cs := by
  induction h with
  | nil => rw [decode]
  | @plain c es cs _ hand _ ih =>
    rw [decode, if_neg hand, ih fun h => hsign (List.mem_cons_of_mem c h)]
    rfl
  | sign => exact absurd List.mem_cons_self hsign
  | reference _ ih =>
    simp only [List.mem_cons, not_or] at hsign
    rw [decode, if_pos rfl, reference?_lt]
    simp only [List.drop_succ_cons, List.drop_zero, ih hsign.2.2.2.2]
    rfl

/-- Escaped text is read as the text it was made from. -/
theorem Escaped.textItems_eq (h : Escaped es cs) (hsign : '<' ∉ es) :
    textItems es = .ok (rawItems cs) := by
  rw [textItems, h.decode_eq hsign, rawItems, h.isEmpty_eq]
  rfl

/-- The end of an escaped text is not inside a reference. Every ampersand is that of a reference. -/
theorem Escaped.mightContinue_eq (h : Escaped es cs) : mightContinue es = false := by
  refine mightContinue_eq_false fun before after hes _ => ?_
  suffices hsemicolon : ';' ∈ after from ⟨';', hsemicolon, by decide⟩
  induction h generalizing before with
  | nil => simp at hes
  | plain _ hand _ ih =>
    cases before with
    | nil => exact absurd (List.cons.inj hes).1 hand
    | cons b before => exact ih before (List.cons.inj hes).2
  | sign _ _ ih =>
    cases before with
    | nil => simp at hes
    | cons b before => exact ih before (List.cons.inj hes).2
  | reference _ ih =>
    match before with
    | [] =>
      cases hes
      simp
    | [_] | [_, _] | [_, _, _] => simp at hes
    | _ :: _ :: _ :: _ :: before =>
      simp only [List.cons_append, List.cons.injEq] at hes
      exact ih before hes.2.2.2.2

/-- An escaped text is read as the text that it stands for, in pieces. A sign ends the stretch that
is being read, and the next one starts empty. -/
theorem Escaped.exists_reading (h : Escaped es cs) {before shown : List Char}
    (hsign : '<' ∉ before) (hbefore : Escaped before shown) :
    ∃ items, readingFrom false none (before ++ es) = ⟨items, [], none, none⟩ ∧
      Collects items (shown ++ cs) := by
  induction h generalizing before shown with
  | nil =>
    rw [List.append_nil, List.append_nil]
    exact ⟨rawItems shown,
      readingFrom_end hsign (hbefore.textItems_eq hsign) hbefore.mightContinue_eq,
      collects_rawItems shown⟩
  | @plain c es cs hc hand _ ih =>
    have hmore := ih (by simpa [hsign] using Ne.symm hc) (hbefore.append (.plain hc hand .nil))
    simpa using hmore
  | reference _ ih =>
    have hmore := ih (by simpa using hsign) (hbefore.append (.reference .nil))
    simpa using hmore
  | sign hnext _ ih =>
    obtain ⟨d, ds, rfl, hd⟩ := hnext
    obtain ⟨items, hread, hcollects⟩ := ih List.not_mem_nil .nil
    refine ⟨rawItems shown ++ [.data ['<']] ++ items, ?_, ?_⟩
    · rw [List.nil_append] at hread
      rw [readingFrom_sign hsign (hbefore.textItems_eq hsign) hd, hread]
      rfl
    · have hall := ((collects_rawItems shown).append (collects_rawItems ['<'])).append hcollects
      simpa [rawItems] using hall

/-- Escaped text reports the events of the text it was made from. -/
theorem Escaped.reports (h : Escaped es cs) : Reports es (runEvents cs) := by
  obtain ⟨items, hread, hcollects⟩ := h.exists_reading List.not_mem_nil .nil
  have hevents := hcollects none []
  refine ⟨items, hread, ?_⟩
  rw [List.append_nil] at hevents
  rw [hevents, List.nil_append, eventsFrom, flush_grown]

end

/-! ## Whole directives -/

/-- A text that is one directive is escaped as a whole. -/
theorem escapeOpen_of_split? {inside : List Char} (h : Braces.split? inside = some (inside, [])) :
    escapeOpen ('{' :: '{' :: inside) = escapeRegion ('{' :: '{' :: inside) := by
  have hself := Text.splitAtFirst?_self '{' ['{'] inside
  rw [List.cons_append, List.cons_append, List.nil_append] at hself
  have hdirective : directive? ('{' :: '{' :: inside) = some ([], '{' :: '{' :: inside, []) := by
    rw [directive?, hself]
    simp only [h, Option.map_some]
  rw [escapeOpen_of_some hdirective, escapeOpen_of_none rfl, List.nil_append, List.append_nil]

end Markup

theorem Braces.split?_of_regionEnd? {inside : List Char}
    (h : regionEnd? ('{' :: '{' :: inside) 2 0 ['{'] ['}'] = some ((inside.length : Int) + 2)) :
    split? inside = some (inside, []) := by
  have hstart : searchStart ('{' :: '{' :: inside).length (0 + 2) = 2 := rfl
  rw [regionEnd?, if_neg (by decide), hstart] at h
  simp only [List.length_cons] at h
  rw [if_neg (by omega)] at h
  cases hclosing : closing ['{'] ['}'] 2 inside with
  | none =>
    rw [show List.drop (Int.toNat 2) ('{' :: '{' :: inside) = inside from rfl, hclosing] at h
    cases h
  | some n =>
    rw [show List.drop (Int.toNat 2) ('{' :: '{' :: inside) = inside from rfl, hclosing] at h
    have hlength : (2 : Int) + n = inside.length + 2 := Option.some.inj h
    have hn : n = inside.length := by omega
    rw [split?, hclosing, hn]
    simp

/-- A source that is one directive is read as one text, if no comment, script or style sheet is
found in it. -/
theorem read_directive {body source : String} (hsource : source = "\x7b\x7b" ++ body ++ "\x7d\x7d")
    (hand : '&' ∉ body.toList)
    (hend : Braces.regionEnd? source.toList 2 0 ['{'] ['}'] = some (source.length : Int))
    (hraw : ∀ cs, cs <:+ source.toList → Markup.afterUndecoded? cs = none) :
    Markup.read source = ⟨[.text source], none⟩ := by
  have hchars : source.toList = '{' :: '{' :: (body.toList ++ ['}', '}']) := by
    simp [hsource]
  have hlength : (source.length : Int) = ((body.toList ++ ['}', '}']).length : Int) + 2 := by
    rw [← String.length_toList, hchars]
    rfl
  rw [hlength, hchars] at hend
  have hescape : Markup.escape source = String.ofList (Markup.escapeRegion source.toList) := by
    rw [Markup.escape, Markup.pieces_eq_singleton hraw, hchars,
      ← Markup.escapeOpen_of_split? (Braces.split?_of_regionEnd? hend)]
    simp [Markup.mapOpen]
  have hescaped : Markup.Escaped (Markup.escapeRegion source.toList) source.toList := by
    refine Markup.escaped_escapeRegion ?_ ?_
    · simpa [hchars] using hand
    · have hlast : source.toList = ('{' :: '{' :: (body.toList ++ ['}'])) ++ ['}'] := by
        simp [hchars]
      rw [hlast, List.getLast?_concat]
      decide
  obtain ⟨items, hitems, hevents⟩ := hescaped.reports.exists_items
  rw [Markup.read, hescape, String.toList_ofList, hitems]
  have hrun : runEvents source.toList = [.text source] := by
    rw [runEvents, if_neg (by simp [hchars]), String.ofList_toList]
  rw [← hrun]
  exact hevents

/-- Signs before a letter, a slash and an exclamation mark, and a region of braces inside. -/
theorem read_directive_signs :
    let source := "\x7b\x7ba<b ? '</p>' : '<!--' + \x7bc: d<=e\x7d\x7d\x7d"
    Markup.escape source =
        "\x7b\x7ba&lt;b ? '&lt;/p>' : '&lt;!--' + \x7bc: d<=e\x7d\x7d\x7d" ∧
      Markup.read source = ⟨[.text source], none⟩ := by
  intro source
  have hraw : ∀ cs ∈ source.toList.tails, Markup.afterUndecoded? cs = none := by
    decide +kernel
  have hsource : source = "\x7b\x7b" ++ "a<b ? '</p>' : '<!--' + \x7bc: d<=e\x7d" ++ "\x7d\x7d" := rfl
  exact ⟨by decide +kernel, read_directive hsource (by decide) (by decide +kernel) fun cs hcs =>
    hraw cs ((List.mem_tails cs _).2 hcs)⟩

/-- Between the quotes of an expression a comment is a comment. -/
theorem not_forall_read_directive :
    ¬ ∀ body source : String, source = "\x7b\x7b" ++ body ++ "\x7d\x7d" → '&' ∉ body.toList →
      Braces.regionEnd? source.toList 2 0 ['{'] ['}'] = some (source.length : Int) →
      Markup.read source = ⟨[.text source], none⟩ := by
  intro h
  have hread := h "'<!---->'" "\x7b\x7b'<!---->'\x7d\x7d" rfl (by decide) (by decide +kernel)
  have hevents : (Markup.read "\x7b\x7b'<!---->'\x7d\x7d").events =
      [.text "\x7b\x7b'", .comment "<!---->" "", .text "'\x7d\x7d"] := by
    decide +kernel
  rw [hread] at hevents
  exact absurd hevents (by decide)

end Stencil
