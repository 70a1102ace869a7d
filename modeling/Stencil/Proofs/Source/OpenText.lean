import Stencil.Proofs.Markup.Parts
import Stencil.Proofs.Source.Running

/-!
# Minified open text

Text in which no element keeps its blanks is cut into tags, directives and the text between them.
Minifying copies the tags and the directives, drops the blank runs between two tags and shrinks
the others. `Spells` says of a text that it is written from given tags and directives, in their
order, with any text between them.
-/

namespace Stencil

open Nesting

/-! ## Texts of the same tags and directives -/

/-- The events other than text. -/
def marks (es : List Event) : List Event :=
  es.filter fun e => !e.isLiteral

/-- The text is written from these events, or from others that differ in their literals alone. -/
def Spells (cs : List Char) (es : List Event) : Prop :=
  ∃ es', cs = sourceChars es' ∧ (∀ e ∈ es', e.Tidy) ∧ marks es' = marks es

section

variable {cs ds : List Char} {es fs : List Event}

theorem marks_append (es fs : List Event) : marks (es ++ fs) = marks es ++ marks fs :=
  List.filter_append ..

theorem marks_cons (e : Event) (es : List Event) : marks (e :: es) = marks [e] ++ marks es :=
  marks_append [e] es

theorem sourceChars_append (es fs : List Event) :
    sourceChars (es ++ fs) = sourceChars es ++ sourceChars fs :=
  List.flatMap_append

theorem sourceChars_cons (e : Event) (es : List Event) :
    sourceChars (e :: es) = e.chars ++ sourceChars es :=
  List.flatMap_cons

theorem spells_sourceChars (h : ∀ e ∈ es, e.Tidy) : Spells (sourceChars es) es :=
  ⟨es, rfl, h, rfl⟩

/-- Two texts in a row spell their events in a row. -/
theorem Spells.append (h : Spells cs es) (h' : Spells ds fs) : Spells (cs ++ ds) (es ++ fs) := by
  obtain ⟨es', rfl, hes', hmarks⟩ := h
  obtain ⟨fs', rfl, hfs', hmarks'⟩ := h'
  refine ⟨es' ++ fs', (sourceChars_append es' fs').symm, List.forall_mem_append.2 ⟨hes', hfs'⟩, ?_⟩
  rw [marks_append, marks_append, hmarks, hmarks']

/-- What spells events spells all events that have the same marks. -/
theorem Spells.congr (h : Spells cs es) (hmarks : marks es = marks fs) : Spells cs fs := by
  obtain ⟨es', rfl, hes', hmarks'⟩ := h
  exact ⟨es', rfl, hes', hmarks'.trans hmarks⟩

theorem spells_of_quiet (h : ∀ c ∈ cs, isQuiet c = true) (hmarks : marks es = []) :
    Spells cs es := by
  refine ⟨[.literal (String.ofList cs)], ?_, ?_, hmarks.symm⟩
  · simp [sourceChars, Event.chars]
  · rw [List.forall_mem_singleton]
    intro c hc
    exact h c (by simpa using hc)

end

namespace Nesting.Event

variable {e : Event}

theorem Tidy.chars_of_tag (h : e.Tidy) (htag : ¬ e.isText = true) : ∃ cs, e.chars = '<' :: cs := by
  cases e with
  | start | stop => exact ⟨_, rfl⟩
  | literal | directive => exact absurd rfl htag
  | comment => cases h

/-- Tags and directives neither begin nor end with a blank. -/
theorem Tidy.solid (h : e.Tidy) (hmark : e.isLiteral = false) :
    (∃ c cs, e.chars = c :: cs ∧ Text.isBlank c = false) ∧
      ∃ cs c, e.chars = cs ++ [c] ∧ Text.isBlank c = false := by
  have hblank : Text.isBlank '<' = false ∧ Text.isBlank '>' = false ∧ Text.isBlank '{' = false ∧
      Text.isBlank '}' = false := by decide
  cases e with
  | literal data => cases hmark
  | comment data => cases h
  | directive d =>
    exact ⟨⟨_, _, rfl, hblank.2.2.1⟩, '{' :: '{' :: (d.source.toList ++ ['}']), '}',
      by simp [chars], hblank.2.2.2⟩
  | stop tag =>
    exact ⟨⟨_, _, rfl, hblank.1⟩, '<' :: '/' :: tag.toList, '>', by simp [chars], hblank.2.1⟩
  | start tag as selfClosing =>
    obtain ⟨rfl, -⟩ := h
    exact ⟨⟨_, _, rfl, hblank.1⟩, '<' :: (tag.toList ++ as.flatMap attributeChars), '>',
      by simp [chars], hblank.2.1⟩

theorem IsAssigned.mild {a : String × Value} (h : IsAssigned a) : Mild (attributeChars a) := by
  obtain ⟨name, value⟩ := a
  obtain ⟨⟨-, hname⟩, s, rfl, -, hmild, -⟩ := h
  have hquiet := not_mem_of_quiet fun c hc => (hname c hc).2
  have hfront : Mild (' ' :: (name.toList ++ ['=', '"'])) :=
    mild_of_not_mem (by simpa using hquiet.1) (by simpa using hquiet.2.1)
  have hback : Mild ['"'] := mild_of_not_mem (by decide) (by decide)
  simpa [attributeChars, valueChars] using hfront.append (hmild.append hback)

/-- After its first character an event has no tag and no reference. -/
theorem Sound.mild_tail (h : e.Sound) {c : Char} {cs : List Char} (hchars : e.chars = c :: cs) :
    Mild cs := by
  have htag {tag : String} (htag : IsTagName tag) : Mild tag.toList :=
    mild_of_not_mem (fun hmem => absurd (htag.isTagChar _ hmem) (by decide))
      fun hmem => absurd (htag.isTagChar _ hmem) (by decide)
  have hend : Mild ['>'] := mild_of_not_mem (by decide) (by decide)
  cases e with
  | comment data => cases h
  | literal | directive =>
    have hmild := h.mild rfl
    rw [hchars] at hmild
    exact hmild.2.2
  | stop tag =>
    obtain ⟨-, rfl⟩ := List.cons.inj hchars
    exact mild_cons (by decide) (by decide) ((htag h).append hend)
  | start tag as selfClosing =>
    obtain ⟨rfl, hname, -, has⟩ := h
    obtain ⟨-, rfl⟩ := List.cons.inj hchars
    have hattributes : Mild (as.flatMap attributeChars) :=
      flatMap_induction (P := Mild) trivial Mild.append fun a ha => (has a ha).mild
    exact (htag hname).append (hattributes.append hend)

end Nesting.Event

/-! ## Parts of open text -/

namespace Markup

/-- Attributes in quotes are passed over up to the end of the tag. -/
theorem tagRest?_append {cs : List Char} (h : ∀ c ∈ cs, c ≠ '>' ∧ c ≠ '"' ∧ c ≠ '\'')
    (rest : List Char) : tagRest? (cs ++ rest) = tagRest? rest := by
  induction cs with
  | nil => rfl
  | cons c cs ih =>
    obtain ⟨⟨hclose, hdouble, hsingle⟩, hcs⟩ := List.forall_mem_cons.1 h
    rw [List.cons_append, tagRest?_cons hclose hdouble hsingle, ih hcs]

theorem tagRest?_attributes {as : List (String × Value)} (h : ∀ a ∈ as, Event.IsAssigned a)
    (rest : List Char) : tagRest? (as.flatMap Event.attributeChars ++ '>' :: rest) = some rest := by
  induction as with
  | nil => rw [List.flatMap_nil, List.nil_append, tagRest?]
  | cons a as ih =>
    rw [List.forall_mem_cons] at h
    obtain ⟨name, value⟩ := a
    obtain ⟨⟨-, hname⟩, s, rfl, hquote, -⟩ := h.1
    have hfront : ∀ c ∈ ' ' :: (name.toList ++ ['=']), c ≠ '>' ∧ c ≠ '"' ∧ c ≠ '\'' := by
      have hwritten : ∀ c ∈ name.toList, c ≠ '>' ∧ c ≠ '"' ∧ c ≠ '\'' := by
        intro c hc
        refine ⟨?_, ?_, ?_⟩ <;> rintro rfl <;> exact absurd (hname _ hc).1 (by decide)
      simpa [or_imp, forall_and] using hwritten
    have hchars : (Event.attributeChars (name, .text s) ++ as.flatMap Event.attributeChars) ++
        '>' :: rest = ' ' :: (name.toList ++ ['=']) ++
          '"' :: (s.toList ++ '"' :: (as.flatMap Event.attributeChars ++ '>' :: rest)) := by
      simp [Event.attributeChars, Event.valueChars]
    rw [List.flatMap_cons, hchars, tagRest?_append hfront, tagRest?_quote (.inl rfl) hquote, ih h.2]

theorem tagRest?_tag {tag : List Char} (h : ∀ c ∈ tag, isTagChar c = true) (rest : List Char) :
    tagRest? (tag ++ rest) = tagRest? rest := by
  refine tagRest?_append (fun c hc => ⟨?_, ?_, ?_⟩) rest <;> rintro rfl <;>
    exact absurd (h _ hc) (by decide)

end Markup

/-- A tag ends where it was written to end. -/
theorem afterTagLike?_of_tidy {e : Event} (h : e.Tidy) (htag : ¬ e.isText = true)
    (rest : List Char) : Markup.afterTagLike? (e.chars ++ rest) = some rest := by
  cases e with
  | literal | directive => exact absurd rfl htag
  | comment => cases h
  | stop tag =>
    have hname : IsTag tag := h
    have hrest := Markup.tagRest?_tag hname.isTagName.isTagChar ('>' :: rest)
    have hchars : (Event.stop tag).chars ++ rest = '<' :: '/' :: (tag.toList ++ '>' :: rest) := by
      simp [Event.chars]
    rw [hchars, Markup.afterTagLike?]
    simp [Markup.afterComment?, hrest, Markup.tagRest?]
  | start tag as selfClosing =>
    obtain ⟨rfl, hname, -, has⟩ := h
    obtain ⟨c, cs, heq, hc, hcs⟩ := hname.1
    have hrest : Markup.tagRest? (cs ++ (as.flatMap Event.attributeChars ++ '>' :: rest)) =
        some rest := by
      rw [Markup.tagRest?_tag hcs, Markup.tagRest?_attributes fun a ha => (has a ha).isAssigned]
    have hchars : (Event.start tag as false).chars ++ rest =
        '<' :: c :: (cs ++ (as.flatMap Event.attributeChars ++ '>' :: rest)) := by
      simp [Event.chars, heq]
    have hletter : c.isAlpha = true := Token.isAlpha_of_isLower hc
    have hcomment : Markup.afterComment? ('<' :: c :: (cs ++ (as.flatMap Event.attributeChars ++
        '>' :: rest))) = none := by
      rw [Markup.afterComment?]
      rintro _ heq'
      obtain ⟨rfl, -⟩ := List.cons.inj (List.cons.inj heq').2
      cases hc
    rw [hchars, Markup.afterTagLike?, hcomment]
    simp [hletter, hrest]

/-! ## Events as parts -/

/-- The part that an event is cut out as. -/
def Nesting.Event.part : Event → Markup.Part
  | .literal data => .text data.toList
  | .directive d => .directive (Event.directive d).chars
  | e => .tag e.chars

/-- No literal is empty, and no two of them are neighbours. -/
def Merged (es : List Event) : Prop :=
  Apart Event.isLiteral es ∧ ∀ e ∈ es, e.chars ≠ []

section

variable {es : List Event}

/-- Neighbouring quiet texts can be merged into one. By induction on the events: each is put in
front, unless it is a literal that meets another one. -/
theorem exists_merged (h : ∀ e ∈ es, e.Tidy) : ∃ es', sourceChars es' = sourceChars es ∧
    (∀ e ∈ es', e.Tidy) ∧ marks es' = marks es ∧ Merged es' := by
  induction es with
  | nil => exact ⟨[], rfl, h, rfl, trivial, List.forall_mem_nil _⟩
  | cons e es ih =>
    rw [List.forall_mem_cons] at h
    obtain ⟨es', hchars, htidy, hmarks, hapart, hne⟩ := ih h.2
    have hcons (hapart' : Apart Event.isLiteral (e :: es')) (hne' : e.chars ≠ []) :
        ∃ es', sourceChars es' = sourceChars (e :: es) ∧ (∀ e ∈ es', e.Tidy) ∧
          marks es' = marks (e :: es) ∧ Merged es' := by
      refine ⟨e :: es', ?_, List.forall_mem_cons.2 ⟨h.1, htidy⟩, ?_, hapart',
        List.forall_mem_cons.2 ⟨hne', hne⟩⟩
      · rw [sourceChars_cons, sourceChars_cons, hchars]
      · rw [marks_cons e es', marks_cons e es, hmarks]
    by_cases hmark : e.isLiteral = false
    · refine hcons ⟨fun he => ?_, hapart⟩ ?_
      · rw [hmark] at he
        cases he
      · obtain ⟨⟨c, cs, hfirst, -⟩, -⟩ := h.1.solid hmark
        simp [hfirst]
    · cases e with
      | literal data =>
        by_cases hempty : (Event.literal data).chars = []
        · refine ⟨es', ?_, htidy, hmarks, hapart, hne⟩
          rw [sourceChars_cons, hempty, hchars, List.nil_append]
        · match es' with
          | .literal data' :: es' =>
            have hgrown : (data ++ data').toList = data.toList ++ data'.toList :=
              String.toList_append ..
            refine ⟨.literal (data ++ data') :: es', ?_, ?_, hmarks, hapart, ?_⟩
            · rw [sourceChars_cons, sourceChars_cons, ← hchars, sourceChars_cons, Event.chars,
                hgrown, List.append_assoc]
              rfl
            · rw [List.forall_mem_cons] at htidy ⊢
              refine ⟨fun c hc => ?_, htidy.2⟩
              rw [hgrown, List.mem_append] at hc
              exact hc.elim (h.1 c) (htidy.1 c)
            · rw [List.forall_mem_cons] at hne ⊢
              refine ⟨?_, hne.2⟩
              rw [Event.chars, hgrown]
              exact List.append_ne_nil_of_left_ne_nil hempty _
          | [] => exact hcons ⟨fun _ => by simp, hapart⟩ hempty
          | .start .. :: _ | .stop _ :: _ | .directive _ :: _ | .comment _ :: _ =>
            exact hcons ⟨fun _ => by simp [Event.isLiteral], hapart⟩ hempty
      | start | stop | directive | comment => exact absurd rfl hmark

/-- What follows a literal stops the text. -/
theorem stopsText_sourceChars (h : ∀ e ∈ es, e.Tidy) (hmark : ∀ e ∈ es.head?, e.isLiteral = false) :
    sourceChars es = [] ∨ Markup.stopsText (sourceChars es) = true := by
  match es with
  | [] => exact .inl rfl
  | .start .. :: _ | .stop _ :: _ | .directive _ :: _ => exact .inr rfl
  | .comment _ :: _ => cases h _ List.mem_cons_self
  | .literal _ :: _ => cases hmark _ rfl

theorem unstopped_of_quiet {cs : List Char} (h : ∀ c ∈ cs, isQuiet c = true) (rest : List Char) :
    Markup.Unstopped cs rest := by
  intro s hs hne
  obtain ⟨c, s, rfl⟩ := List.exists_cons_of_ne_nil hne
  have hc : isQuiet c = true := h c (hs.subset List.mem_cons_self)
  rw [List.cons_append, ← Bool.not_eq_true, Markup.stopsText_cons]
  rintro (rfl | ⟨rfl, -⟩) <;> cases hc

/-- An event is cut off the front of a source. -/
theorem fits_part {e : Event} (h : e.Tidy) (hne : e.chars ≠ []) {rest : List Char}
    (hrest : e.isLiteral = true → rest = [] ∨ Markup.stopsText rest = true) :
    Markup.Fits e.part rest ∧ e.part.chars = e.chars := by
  cases e with
  | literal data =>
    obtain ⟨c, cs, hchars⟩ := List.exists_cons_of_ne_nil hne
    have hquiet : ∀ d ∈ c :: cs, isQuiet d = true := hchars ▸ h
    refine ⟨?_, rfl⟩
    rw [Event.part, ← Event.chars, hchars]
    exact .text (unstopped_of_quiet hquiet rest) (hrest rfl)
  | directive d => exact ⟨.directive (by simpa using h.2.split? rest), rfl⟩
  | start | stop => exact ⟨.tag (afterTagLike?_of_tidy h (by simp [Event.isText]) rest), rfl⟩
  | comment => cases h

/-- A source is cut into its tags, its directives and the text between them. -/
theorem cut_part (h : ∀ e ∈ es, e.Tidy) (hmerged : Merged es) :
    Markup.Cut (es.map Event.part) ∧ Markup.joined (es.map Event.part) = sourceChars es := by
  induction es with
  | nil => exact ⟨.nil, rfl⟩
  | cons e es ih =>
    obtain ⟨hapart, hne⟩ := hmerged
    rw [List.forall_mem_cons] at h hne
    obtain ⟨hcut, hjoined⟩ := ih h.2 ⟨hapart.2, hne.2⟩
    obtain ⟨hfits, hchars⟩ :=
      fits_part h.1 hne.1 fun hmark => stopsText_sourceChars h.2 (hapart.1 hmark)
    rw [List.map_cons, Markup.joined_cons, hchars, hjoined, sourceChars_cons]
    exact ⟨.cons (by rwa [hjoined]) hcut, rfl⟩

/-- The source of merged events is cut into one part for each event. -/
theorem parts_sourceChars (h : ∀ e ∈ es, e.Tidy) (hmerged : Merged es) :
    Markup.parts (sourceChars es) = es.map Event.part := by
  obtain ⟨hcut, hjoined⟩ := cut_part h hmerged
  rw [← hjoined, Markup.parts_joined hcut]

/-! ## Shrinking -/

theorem quiet_collapse {cs : List Char} (h : ∀ c ∈ cs, isQuiet c = true) :
    ∀ c ∈ Text.collapse cs, isQuiet c = true := by
  rw [Text.collapse]
  generalize false = afterBlank
  induction cs generalizing afterBlank with
  | nil => exact List.forall_mem_nil _
  | cons c cs ih =>
    rw [List.forall_mem_cons] at h
    rw [Text.collapseFrom]
    split
    · split
      · exact ih h.2 true
      · exact List.forall_mem_cons.2 ⟨rfl, ih h.2 true⟩
    · exact List.forall_mem_cons.2 ⟨h.1, ih h.2 false⟩

/-- A part that is shrunk still spells its event. -/
theorem spells_shrunk {e : Event} (h : e.Tidy) : Spells e.part.shrunk [e] := by
  have hself : Spells (sourceChars [e]) [e] := spells_sourceChars (List.forall_mem_singleton.2 h)
  rw [sourceChars_cons, sourceChars, List.flatMap_nil, List.append_nil] at hself
  cases e with
  | literal data => exact spells_of_quiet (quiet_collapse h) rfl
  | start | stop | directive | comment => exact hself

theorem spells_flatMap_shrunk (h : ∀ e ∈ es, e.Tidy) :
    Spells ((es.map Event.part).flatMap Markup.Part.shrunk) es := by
  induction es with
  | nil => exact spells_sourceChars h
  | cons e es ih =>
    rw [List.forall_mem_cons] at h
    rw [List.map_cons, List.flatMap_cons]
    exact (spells_shrunk h.1).append (ih h.2)

/-- A run is dropped only where it has no directive. -/
theorem spells_shrinkRun (h : ∀ e ∈ es, e.Tidy) (htext : ∀ e ∈ es, e.isText = true) :
    Spells (Markup.shrinkRun (es.map Event.part).reverse) es := by
  rw [Markup.shrinkRun]
  split
  · rw [List.reverse_reverse]
    exact spells_flatMap_shrunk h
  · rename_i hink
    refine spells_of_quiet (List.forall_mem_nil _) (List.filter_eq_nil_iff.2 fun e he => ?_)
    cases e with
    | literal => simp [Event.isLiteral]
    | directive d =>
      refine absurd (List.any_eq_true.2 ⟨(Event.directive d).part, ?_, rfl⟩) hink
      exact List.mem_reverse.2 (List.mem_map_of_mem he)
    | start | stop | comment => cases htext _ he

theorem spells_shrinkFrom (run : List Event) (hrun : ∀ e ∈ run, e.Tidy)
    (htext : ∀ e ∈ run, e.isText = true) (hes : ∀ e ∈ es, e.Tidy) :
    Spells (Markup.shrinkFrom (run.map Event.part).reverse (es.map Event.part)) (run ++ es) := by
  induction es generalizing run with
  | nil =>
    rw [List.append_nil]
    exact spells_shrinkRun hrun htext
  | cons e es ih =>
    rw [List.forall_mem_cons] at hes
    have hword (hword : e.isText = true) :
        Spells (Markup.shrinkFrom (e.part :: (run.map Event.part).reverse) (es.map Event.part))
          (run ++ e :: es) := by
      have hgrown := ih (run ++ [e]) ?_ ?_ hes.2
      · simpa using hgrown
      · simpa [or_imp, forall_and] using ⟨hrun, hes.1⟩
      · simpa [or_imp, forall_and] using ⟨htext, hword⟩
    have htag (htag : e.part = .tag e.chars) :
        Spells (Markup.shrinkRun (run.map Event.part).reverse ++ e.chars ++
          Markup.shrinkFrom [] (es.map Event.part)) (run ++ e :: es) := by
      have hself : Spells e.part.shrunk [e] := spells_shrunk hes.1
      rw [htag] at hself
      have hrest : Spells (Markup.shrinkFrom [] (es.map Event.part)) ([] ++ es) :=
        ih [] (List.forall_mem_nil _) (List.forall_mem_nil _) hes.2
      have hall := ((spells_shrinkRun hrun htext).append hself).append hrest
      simpa [Markup.Part.shrunk] using hall
    cases e with
    | literal | directive => exact hword rfl
    | start | stop => exact htag rfl
    | comment => cases hes.1

/-- Minified source still spells its events. -/
theorem spells_minifyOpen (h : ∀ e ∈ es, e.Tidy) :
    Spells (Markup.minifyOpen (sourceChars es)) es := by
  obtain ⟨es', hchars, htidy, hmarks, hmerged⟩ := exists_merged h
  rw [Markup.minifyOpen, ← hchars, parts_sourceChars htidy hmerged]
  have hshrunk : Spells (Markup.shrinkFrom [] (es'.map Event.part)) ([] ++ es') :=
    spells_shrinkFrom [] (List.forall_mem_nil _) (List.forall_mem_nil _) htidy
  exact hshrunk.congr hmarks

end

end Stencil
