import Stencil.Proofs.Source.Tags

/-!
# Written events are read back

A source is read as its tags and, between them, the runs of text and directives, each run as one
event. The reader stops at every less-than sign of a run, so a run arrives in several pieces, and
these are put together again; `Collects` says what a list of pieces amounts to.
-/

namespace Stencil

open Nesting

namespace Markup

/-! ## Steps of the reading -/

@[simp]
theorem prepend_prepend (items items' : List Item) (r : Reading) :
    (r.prepend items').prepend items = r.prepend (items ++ items') := by
  simp [Reading.prepend]

theorem readingFrom_nil : readingFrom false none [] = ⟨[], [], none, none⟩ := by
  rw [readingFrom]

theorem readingFrom_onward {cs rest : List Char} {items : List Item} {n : Nat}
    (h : move false none cs = .onward items n none) (hcs : cs ≠ []) (hpos : 0 < n)
    (hrest : cs.drop n = rest) :
    readingFrom false none cs = (readingFrom false none rest).prepend items := by
  obtain ⟨c, cs, rfl⟩ := List.exists_cons_of_ne_nil hcs
  obtain ⟨n, rfl⟩ : ∃ m, n = m + 1 := ⟨n - 1, by omega⟩
  rw [readingFrom, h]
  dsimp only
  rw [Nat.add_sub_cancel, ← hrest, List.drop_succ_cons]

/-- Text without references is read as it stands. -/
theorem textItems_of_mild {cs : List Char} (h : Mild cs) : textItems cs = .ok (rawItems cs) := by
  rw [textItems, decode_of_mild h]
  rfl

section

variable {before : List Char} {items : List Item} (hsign : '<' ∉ before)
  (htext : textItems before = .ok items)

include hsign htext

/-- Markup ends the text before it and is read as one item. -/
theorem readingFrom_item {piece rest : List Char} {i : Item}
    (hpiece : found ('<' :: piece ++ rest) = .item (some i) rest none) :
    readingFrom false none (before ++ ('<' :: piece ++ rest)) =
      (readingFrom false none rest).prepend (items ++ [i]) := by
  have hmove : move false none (before ++ ('<' :: piece ++ rest)) =
      .onward (items ++ [i]) (before ++ '<' :: piece).length none := by
    rw [List.cons_append] at hpiece ⊢
    simp only [move, Text.splitAtFirst?_singleton hsign, htext, hpiece, moveOver,
      Option.toList_some, List.length_append, List.length_cons]
    congr 1
    omega
  refine readingFrom_onward hmove (by simp) (List.length_pos_iff.2 (by simp)) ?_
  rw [← List.append_assoc, List.drop_left]

theorem readingFrom_sign {c : Char} (hc : startsMarkup c = false) (rest : List Char) :
    readingFrom false none (before ++ '<' :: c :: rest) =
      (readingFrom false none (c :: rest)).prepend (items ++ [.data ['<']]) := by
  have hmove : move false none (before ++ '<' :: c :: rest) =
      .onward (items ++ [.data ['<']]) (before ++ ['<']).length none := by
    simp only [move, Text.splitAtFirst?_singleton hsign, htext, found_sign hc rest, moveOver,
      List.length_append, List.length_cons, List.length_nil]
    rw [if_pos (by omega)]
    congr 1
    omega
  refine readingFrom_onward hmove (by simp) (List.length_pos_iff.2 (by simp)) ?_
  rw [List.append_cons before '<' (c :: rest), List.drop_left]

theorem readingFrom_end (hwhole : mightContinue before = false) :
    readingFrom false none before = ⟨items, [], none, none⟩ := by
  by_cases hempty : before = []
  · subst hempty
    rw [textItems, decode] at htext
    cases htext
    exact readingFrom_nil
  · have hmove : move false none before = .onward items before.length none := by
      simp only [move, Text.splitAtFirst?_eq_none hsign, hwhole, htext, Bool.false_eq_true,
        if_false]
    rw [readingFrom_onward hmove hempty (List.length_pos_iff.2 hempty) List.drop_length,
      readingFrom_nil]
    simp [Reading.prepend]

end

/-! ## Runs of text -/

def grown (pending : Option (List Char)) (cs : List Char) : Option (List Char) :=
  if cs.isEmpty then pending else some (pending.getD [] ++ cs)

/-- The items are text, in all as much as `cs`. -/
def Collects (items : List Item) (cs : List Char) : Prop :=
  ∀ pending more,
    eventsFrom none pending (items ++ more) = eventsFrom none (grown pending cs) more

theorem collects_rawItems (cs : List Char) : Collects (rawItems cs) cs := by
  intro pending more
  by_cases hempty : cs = []
  · simp [rawItems, grown, hempty]
  · simp [rawItems, grown, hempty, eventsFrom]

theorem Collects.append {items items' : List Item} {cs ds : List Char} (h : Collects items cs)
    (h' : Collects items' ds) : Collects (items ++ items') (cs ++ ds) := by
  intro pending more
  have hgrown : grown (grown pending cs) ds = grown pending (cs ++ ds) := by
    by_cases hcs : cs = []
    · simp [grown, hcs]
    · by_cases hds : ds = []
      · simp [grown, hds]
      · simp [grown, hcs, hds]
  rw [List.append_assoc, h, h', hgrown]

/-- What a reading makes of a text after any stretch without less-than signs. -/
def Ends (cs : List Char) (r : Reading) : Prop :=
  ∀ before, '<' ∉ before → Mild before →
    readingFrom false none (before ++ cs) = r.prepend (rawItems before)

/-- A mild run is read as text, in pieces. A sign ends the stretch that is being read, and the next
one starts empty. -/
theorem Ends.run {cs : List Char} {r : Reading} (h : Ends cs r) {run before : List Char}
    (hsign : '<' ∉ before) (hmild : Mild (before ++ run)) :
    ∃ items, readingFrom false none (before ++ (run ++ cs)) = r.prepend items ∧
      Collects items (before ++ run) := by
  induction run generalizing before with
  | nil =>
    rw [List.append_nil] at hmild ⊢
    exact ⟨rawItems before, h before hsign hmild, collects_rawItems before⟩
  | cons c run ih =>
    by_cases hc : c = '<'
    · subst hc
      obtain ⟨d, ds, rfl, hd⟩ := hmild.of_append.1 rfl
      have hbefore : Mild before := hmild.before_sign
      have hrun : Mild ([] ++ d :: ds) := hmild.of_append.2.2
      obtain ⟨items, hread, hcollects⟩ := ih List.not_mem_nil hrun
      refine ⟨rawItems before ++ [.data ['<']] ++ items, ?_, ?_⟩
      · have hsigned : startsMarkup d = false := by obtain rfl | rfl := hd <;> rfl
        rw [List.cons_append, List.cons_append,
          readingFrom_sign hsign (textItems_of_mild hbefore) hsigned]
        rw [List.nil_append, List.cons_append] at hread
        rw [hread, prepend_prepend]
      · have hall := ((collects_rawItems before).append (collects_rawItems ['<'])).append hcollects
        simpa [rawItems] using hall
    · have hsign' : '<' ∉ before ++ [c] := by
        simp [hsign, Ne.symm hc]
      have hmild' : Mild (before ++ [c] ++ run) := by simpa using hmild
      obtain ⟨items, hread, hcollects⟩ := ih hsign' hmild'
      refine ⟨items, ?_, ?_⟩
      · simpa using hread
      · simpa using hcollects

/-- Text in front of markup is read as text, and the markup after it as before. -/
theorem Ends.read {cs run : List Char} {r : Reading} (h : Ends cs r) (hrun : Mild run) :
    ∃ items, readingFrom false none (run ++ cs) = r.prepend items ∧ Collects items run :=
  h.run List.not_mem_nil (show Mild ([] ++ run) from hrun)

theorem ends_nil : Ends [] ⟨[], [], none, none⟩ := by
  intro before hsign hmild
  rw [List.append_nil, readingFrom_end hsign (textItems_of_mild hmild) (mightContinue_of_mild hmild)]
  simp [Reading.prepend]

theorem ends_item {piece rest : List Char} {i : Item}
    (hpiece : found ('<' :: piece ++ rest) = .item (some i) rest none) :
    Ends ('<' :: piece ++ rest) ((readingFrom false none rest).prepend [i]) := by
  intro before hsign hmild
  rw [readingFrom_item hsign (textItems_of_mild hmild) hpiece, prepend_prepend]

end Markup

/-! ## Whole sources -/

def runEvents (run : List Char) : List Markup.Event :=
  if run.isEmpty then [] else [.text (String.ofList run)]

/-- What the reader reports of written events, after the run of text that it has in hand. -/
def report (run : List Char) : List Event → List Markup.Event
  | [] => runEvents run
  | .start tag as selfClosing :: es =>
    runEvents run ++ .start (String.ofList (Event.start tag as selfClosing).chars) tag
      (as.map fun a => (a.1, some (String.ofList (Event.valueChars a.2)))) selfClosing ::
      report [] es
  | .stop tag :: es => runEvents run ++ .stop ("</" ++ tag ++ ">") tag :: report [] es
  | e :: es => report (run ++ e.chars) es

namespace Nesting.Event

/-- An attribute with a value that stands in double quotes. -/
def IsQuoted (a : String × Value) : Prop :=
  IsAttributeName a.1 ∧ ∃ s : String, a.2 = .text s ∧ '"' ∉ s.toList ∧ Mild s.toList ∧ Laid s.toList

/-- An attribute whose value stands in double quotes, also one that declares a hook. -/
def IsAssigned (a : String × Value) : Prop :=
  (a.1 ≠ "" ∧ ∀ c ∈ a.1.toList, Markup.startsWrittenName c = true ∧ isQuiet c = true) ∧
    ∃ s : String, a.2 = .text s ∧ '"' ∉ s.toList ∧ Mild s.toList ∧ Laid s.toList

theorem IsQuoted.isAssigned {a : String × Value} (h : IsQuoted a) : IsAssigned a :=
  ⟨⟨h.1.1, h.1.2.1⟩, h.2⟩

/-- Events whose characters are read as they are written, the tags of views among them. -/
def Sound : Event → Prop
  | .start tag as selfClosing =>
    selfClosing = false ∧ IsTagName tag ∧ (as.map fun a => Text.lower a.1.toList).Nodup ∧
      ∀ a ∈ as, IsAssigned a
  | .stop tag => IsTagName tag
  | .literal data => ∀ c ∈ data.toList, isQuiet c = true
  | .directive d => Mild d.source.toList ∧ Balanced d.source.toList
  | .comment _ => False

/-- Events of which the same holds and that ask for no hooks and no views. -/
def Tidy : Event → Prop
  | .start tag as selfClosing =>
    selfClosing = false ∧ IsTag tag ∧ (as.map fun a => Text.lower a.1.toList).Nodup ∧
      ∀ a ∈ as, IsQuoted a
  | .stop tag => IsTag tag
  | .literal data => ∀ c ∈ data.toList, isQuiet c = true
  | .directive d => Mild d.source.toList ∧ Balanced d.source.toList
  | .comment _ => False

theorem Tidy.sound {e : Event} (h : e.Tidy) : e.Sound := by
  cases e with
  | start tag as selfClosing =>
    exact ⟨h.1, h.2.1.isTagName, h.2.2.1, fun a ha => (h.2.2.2 a ha).isAssigned⟩
  | stop tag => exact IsTag.isTagName h
  | literal | directive | comment => exact h

def pair (a : String × Value) : List Char × List Char :=
  (a.1.toList, valueChars a.2)

theorem chars_start (tag : String) (as : List (String × Value)) :
    (Event.start tag as false).chars = Markup.startText tag (as.map pair) := by
  simp [chars, Markup.startText, Markup.row, List.flatMap_map, Markup.written, pair]
  rfl

theorem IsAssigned.writes {a : String × Value} (h : IsAssigned a) : Markup.Writes (pair a) := by
  obtain ⟨name, value⟩ := a
  obtain ⟨⟨hne, hname⟩, s, rfl, hquote, hmild, -⟩ := h
  exact ⟨by simpa [pair] using hne, fun c hc => (hname c hc).1, hquote, hmild⟩

/-- The text of an attribute: what stands before its value has neither braces nor signs. -/
theorem IsAssigned.attributeChars_eq {a : String × Value} (h : IsAssigned a) :
    ∃ cs ds, attributeChars a = cs ++ (ds ++ ['"']) ∧ '<' ∉ cs ∧ '{' ∉ cs ∧ Mild ds ∧ Laid ds := by
  obtain ⟨name, value⟩ := a
  obtain ⟨⟨-, hname⟩, s, rfl, -, hmild, hlaid⟩ := h
  have hquiet := not_mem_of_quiet fun c hc => (hname c hc).2
  refine ⟨' ' :: (name.toList ++ ['=', '"']), s.toList, ?_, ?_, ?_, hmild, hlaid⟩
  · simp [attributeChars, valueChars]
  · simpa using hquiet.1
  · simpa using hquiet.2.2.1

theorem IsAssigned.orderly {a : String × Value} (h : IsAssigned a) : Orderly (attributeChars a) := by
  obtain ⟨cs, ds, heq, hcs, -, hmild, -⟩ := h.attributeChars_eq
  rw [heq]
  exact (orderly_of_not_mem hcs).append (hmild.orderly.append (orderly_of_not_mem (by decide)))

theorem IsAssigned.laid {a : String × Value} (h : IsAssigned a) : Laid (attributeChars a) := by
  obtain ⟨cs, ds, heq, -, hcs, -, hlaid⟩ := h.attributeChars_eq
  rw [heq]
  exact .plain hcs (hlaid.append (laid_of_not_mem (by decide)))

/-- A sound text holds no start of markup or reference. -/
theorem Sound.mild {e : Event} (h : e.Sound) (htext : e.isText = true) : Mild e.chars := by
  cases e with
  | literal data => exact mild_of_quiet h
  | directive d =>
    have hbraces : Mild ['}', '}'] := mild_of_not_mem (by decide) (by decide)
    have hopen : '{' ≠ '<' ∧ '{' ≠ '&' := by decide
    exact mild_cons hopen.1 hopen.2 (mild_cons hopen.1 hopen.2 (h.1.append hbraces))
  | start | stop | comment => cases htext

section

variable {P : List Char → Prop} (hnil : P []) (happend : ∀ {cs ds}, P cs → P ds → P (cs ++ ds))

include hnil happend

/-- What holds of the parts of a text and passes to joined texts holds of the text. -/
theorem flatMap_induction {α : Type} {f : α → List Char} {as : List α} (h : ∀ a ∈ as, P (f a)) :
    P (as.flatMap f) := by
  induction as with
  | nil => exact hnil
  | cons a as ih =>
    rw [List.flatMap_cons]
    exact happend (h a List.mem_cons_self) (ih fun b hb => h b (List.mem_cons_of_mem a hb))

end

theorem Sound.orderly {e : Event} (h : e.Sound) : Orderly e.chars := by
  cases e with
  | literal data => exact (h.mild rfl).orderly
  | directive d => exact (h.mild rfl).orderly
  | comment data => cases h
  | stop tag =>
    have htag : IsTagName tag := h
    have hnot : '<' ∉ '/' :: (tag.toList ++ ['>']) := by
      simpa using fun hmem => (isTagChar_only (htag.isTagChar _ hmem)).2.2.2.2.2.1 rfl
    exact ⟨fun _ => .stop htag, orderly_of_not_mem hnot⟩
  | start tag as selfClosing =>
    obtain ⟨rfl, htag, -, has⟩ := h
    have hattributes : Orderly (as.flatMap attributeChars) :=
      flatMap_induction (P := Orderly) trivial Orderly.append fun a ha => (has a ha).orderly
    have hnot : '<' ∉ tag.toList := fun hmem =>
      (isTagChar_only (htag.isTagChar _ hmem)).2.2.2.2.2.1 rfl
    refine ⟨fun _ => ?_, (orderly_of_not_mem hnot).append (hattributes.append ?_)⟩
    · obtain ⟨c, cs, heq, hc, -⟩ := htag.letters
      rw [heq]
      refine .other ?_ ?_ <;> rintro rfl <;> cases hc
    · exact orderly_of_not_mem (by decide)

theorem Sound.laid {e : Event} (h : e.Sound) : Laid e.chars := by
  cases e with
  | literal data => exact laid_of_not_mem (not_mem_of_quiet h).2.2.1
  | directive d => exact .directive h.1 h.2 .nil
  | comment data => cases h
  | stop tag =>
    have htag : IsTagName tag := h
    have hnot : '{' ∉ '<' :: '/' :: (tag.toList ++ ['>']) := by
      simpa using fun hmem => (isTagChar_only (htag.isTagChar _ hmem)).2.2.2.2.2.2.1 rfl
    exact laid_of_not_mem hnot
  | start tag as selfClosing =>
    obtain ⟨rfl, htag, -, has⟩ := h
    have hattributes : Laid (as.flatMap attributeChars) :=
      flatMap_induction (P := Laid) .nil Laid.append fun a ha => (has a ha).laid
    have hnot : '{' ∉ '<' :: tag.toList := by
      simpa using fun hmem => (isTagChar_only (htag.isTagChar _ hmem)).2.2.2.2.2.2.1 rfl
    exact .plain hnot (hattributes.append (laid_of_not_mem (by decide)))

end Nesting.Event

section

variable {es : List Event}

theorem orderly_sourceChars (h : ∀ e ∈ es, e.Sound) : Orderly (sourceChars es) :=
  Event.flatMap_induction (P := Orderly) trivial Orderly.append fun e he => (h e he).orderly

theorem laid_sourceChars (h : ∀ e ∈ es, e.Sound) : Laid (sourceChars es) :=
  Event.flatMap_induction (P := Laid) .nil Laid.append fun e he => (h e he).laid

end

namespace Markup

/-- The text is read to its end, and these events are reported. -/
def Reports (cs : List Char) (events : List Event) : Prop :=
  ∃ items, readingFrom false none cs = ⟨items, [], none, none⟩ ∧
    eventsFrom none none items = ⟨events, none⟩

/-- The second reading of a text that was read to its end adds nothing. -/
theorem Reports.exists_items {cs : List Char} {events : List Event} (h : Reports cs events) :
    ∃ read, items cs = (read, none) ∧ eventsFrom none none read = ⟨events, none⟩ := by
  obtain ⟨read, hread, hevents⟩ := h
  have hsecond : readingFrom true none [] = ⟨[], [], none, none⟩ := by
    rw [readingFrom]
  have hleft : leftItems ⟨[], [], none, none⟩ = .ok [] := by
    simp [leftItems, textItems, decode, Except.map]
  refine ⟨read, ?_, hevents⟩
  simp only [items, hread, hsecond, hleft, List.append_nil]

theorem flush_grown (cs : List Char) : flush (grown none cs) = runEvents cs := by
  by_cases hcs : cs = [] <;> simp [flush, grown, runEvents, hcs]

/-- A run of texts reports its own events. -/
theorem reports_run {run : List Char} (hrun : Mild run) : Reports run (runEvents run) := by
  obtain ⟨items, hread, hcollects⟩ := ends_nil.read hrun
  have hevents := hcollects none []
  refine ⟨items, ?_, ?_⟩
  · simpa [Reading.prepend] using hread
  · rw [List.append_nil] at hevents
    rw [hevents, eventsFrom, flush_grown]

/-- A run of text, a tag and what follows. -/
theorem Reports.tag {run piece rest : List Char} {events : List Event} {i : Item} {e : Event}
    (hrest : Reports rest events) (hrun : Mild run)
    (hpiece : found ('<' :: piece ++ rest) = .item (some i) rest none)
    (hdata : ∀ cs, i ≠ .data cs) (hi : itemEvents i = .ok [e]) :
    Reports (run ++ ('<' :: piece ++ rest)) (runEvents run ++ e :: events) := by
  obtain ⟨items', hread', hevents'⟩ := hrest
  obtain ⟨items, hread, hcollects⟩ := (ends_item hpiece).read hrun
  refine ⟨items ++ i :: items', ?_, ?_⟩
  · rw [hread, hread']
    simp [Reading.prepend]
  · rw [hcollects, eventsFrom, hi]
    · simp [hevents', flush_grown]
    · exact hdata

end Markup

section

variable {es : List Event}

/-- Written events are reported run by run and tag by tag. -/
theorem reports_sourceChars (h : ∀ e ∈ es, e.Sound) {run : List Char} (hrun : Mild run) :
    Markup.Reports (run ++ sourceChars es) (report run es) := by
  induction es generalizing run with
  | nil =>
    rw [sourceChars, List.flatMap_nil, List.append_nil]
    exact Markup.reports_run hrun
  | cons e es ih =>
    have he := h e List.mem_cons_self
    have hes {run : List Char} (hrun : Mild run) :
        Markup.Reports (run ++ sourceChars es) (report run es) :=
      ih (fun e' he' => h e' (List.mem_cons_of_mem e he')) hrun
    have hcons : sourceChars (e :: es) = e.chars ++ sourceChars es := List.flatMap_cons
    have htext (hword : e.isText = true) :
        Markup.Reports (run ++ sourceChars (e :: es)) (report (run ++ e.chars) es) := by
      rw [hcons, ← List.append_assoc]
      exact hes (hrun.append (he.mild hword))
    have hnext : Markup.Reports ([] ++ sourceChars es) (report [] es) := hes trivial
    rw [List.nil_append] at hnext
    cases e with
    | literal data => exact htext rfl
    | directive d => exact htext rfl
    | comment data => cases he
    | stop tag =>
      have htag : IsTagName tag := he
      have hfound : Markup.found ('<' :: ('/' :: (tag.toList ++ ['>'])) ++ sourceChars es) =
          .item (some (.stop tag.toList)) (sourceChars es) none := by
        simpa using Markup.found_stop htag (sourceChars es)
      have hevent : Markup.itemEvents (.stop tag.toList) =
          .ok [.stop ("</" ++ tag ++ ">") tag] := by
        simp [Markup.itemEvents, htag.isVoid]
      rw [hcons]
      exact hnext.tag hrun hfound (by simp) hevent
    | start tag as selfClosing =>
      obtain ⟨rfl, htag, hnodup, has⟩ := he
      have hwrites : ∀ p ∈ as.map Event.pair, Markup.Writes p := by
        intro p hp
        obtain ⟨a, ha, rfl⟩ := List.mem_map.1 hp
        exact (has a ha).writes
      have hlower : ((as.map Event.pair).map fun p => Text.lower p.1).Nodup := by
        simpa [List.map_map, Function.comp_def, Event.pair] using hnodup
      have hfound := Markup.found_start htag hwrites (sourceChars es)
      have hevent : Markup.itemEvents (.start (Markup.startTag tag (as.map Event.pair))) =
          .ok [.start (String.ofList (Event.start tag as false).chars) tag
            (as.map fun a => (a.1, some (String.ofList (Event.valueChars a.2)))) false] := by
        rw [Markup.itemEvents, Markup.startEvent_written htag hwrites hlower, Event.chars_start]
        simp [Except.map, Event.pair, Function.comp_def]
      rw [hcons, Event.chars_start]
      exact hnext.tag hrun hfound (by simp) hevent

/-- Reading undoes writing, up to the gathering of runs. -/
theorem read_sourceChars (h : ∀ e ∈ es, e.Sound) :
    Markup.read (String.ofList (sourceChars es)) = ⟨report [] es, none⟩ := by
  have hreports : Markup.Reports ([] ++ sourceChars es) (report [] es) :=
    reports_sourceChars h trivial
  obtain ⟨items, hitems, hevents⟩ := hreports.exists_items
  rw [List.nil_append] at hitems
  rw [Markup.read, Markup.escape_eq_self (orderly_sourceChars h) (laid_sourceChars h),
    String.toList_ofList, hitems]
  exact hevents

end

end Stencil
