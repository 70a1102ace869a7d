import Stencil.Proofs.Source.Characters

/-!
# Written tags are read back

A start tag is written as its name and its attributes, each with a space before it and its value in
double quotes. The reader takes it apart again: the attributes in order, their values without the
quotes, and their names in the case in which they are written. Nothing is asked of the text after
the tag.
-/

namespace Stencil.Markup

def written (p : List Char × List Char) : List Char :=
  ' ' :: (p.1 ++ '=' :: '"' :: (p.2 ++ ['"']))

/-- What the reader takes for an attribute, its quotes included. -/
def raw (p : List Char × List Char) : RawAttribute :=
  (p.1, some ('"' :: p.2 ++ ['"']))

/-- A name and a value that can be written so. -/
structure Writes (p : List Char × List Char) : Prop where
  ne_nil : p.1 ≠ []
  name : ∀ c ∈ p.1, startsWrittenName c = true
  quote : '"' ∉ p.2
  mild : Mild p.2

/-! ## Attributes -/

theorem startsWrittenName_only {c : Char} (h : startsWrittenName c = true) :
    startsAttribute c = true ∧ isAttributeChar c = true ∧ Text.isBlank c = false ∧ c ≠ '/' := by
  simp only [startsWrittenName, Bool.not_eq_true', Bool.or_eq_false_iff, beq_eq_false_iff_ne] at h
  simp [isAttributeChar, startsAttribute, h]

theorem quotedValue?_written {value : List Char} (h : '"' ∉ value) (rest : List Char) :
    quotedValue? ('"' :: (value ++ '"' :: rest)) = some ('"' :: value ++ ['"'], rest) := by
  have hquote : isQuote '"' = true := rfl
  simp only [quotedValue?, hquote, if_true, Text.splitAtFirst?_singleton h, List.drop_succ_cons,
    List.drop_zero]

theorem skipBlanks_cons {c : Char} (h : Text.isBlank c = false) (cs : List Char) :
    Text.skipBlanks (c :: cs) = c :: cs := by
  simp [Text.skipBlanks, h]

theorem assigned?_written {value : List Char} (h : '"' ∉ value) (rest : List Char) :
    assigned? ('=' :: '"' :: (value ++ '"' :: rest)) = some ('"' :: value ++ ['"'], rest) := by
  have hsign : Text.skipBlanks ('=' :: '"' :: (value ++ '"' :: rest)) =
      '=' :: '"' :: (value ++ '"' :: rest) := skipBlanks_cons (by decide) _
  have hstart : Text.skipBlanks ('"' :: (value ++ '"' :: rest)) = '"' :: (value ++ '"' :: rest) :=
    skipBlanks_cons (by decide) _
  simp [assigned?, hsign, hstart, quotedValue?_written h]

section

variable {p : List Char × List Char} {c : Char} {name : List Char}

theorem takeWhile_name (hp : Writes p) (hname : p.1 = c :: name) (rest : List Char) :
    (name ++ '=' :: rest).takeWhile isAttributeChar = name ∧
      (name ++ '=' :: rest).dropWhile isAttributeChar = '=' :: rest := by
  have hchars : ∀ d ∈ name, isAttributeChar d = true := fun d hd =>
    (startsWrittenName_only (hp.name d (hname ▸ List.mem_cons_of_mem c hd))).2.1
  have hstop : ∀ d ∈ ('=' :: rest).head?, isAttributeChar d = false := by simp [isAttributeChar]
  exact ⟨Token.takeWhile_append_stop hchars hstop, Token.dropWhile_append_stop hchars hstop⟩

/-- A written attribute is read up to its closing quote. -/
theorem attributeAt_written (hp : Writes p) (hname : p.1 = c :: name) (rest : List Char) :
    attributeAt c (name ++ '=' :: '"' :: (p.2 ++ '"' :: rest)) = (raw p, rest) := by
  have hstretch := takeWhile_name hp hname ('"' :: (p.2 ++ '"' :: rest))
  simp only [attributeAt, hstretch.1, hstretch.2, assigned?_written hp.quote]
  rw [raw, hname]

end

def row (ps : List (List Char × List Char)) (rest : List Char) : List Char :=
  ps.flatMap written ++ '>' :: rest

theorem row_cons (p : List Char × List Char) (ps : List (List Char × List Char)) (rest : List Char) :
    row (p :: ps) rest = ' ' :: (p.1 ++ '=' :: '"' :: (p.2 ++ '"' :: row ps rest)) := by
  simp [row, written]

theorem skipSeparators_row {p : List Char × List Char} (hp : Writes p)
    (ps : List (List Char × List Char)) (rest : List Char) :
    skipSeparators (row (p :: ps) rest) = p.1 ++ '=' :: '"' :: (p.2 ++ '"' :: row ps rest) := by
  rw [row_cons]
  obtain ⟨c, name, hname⟩ := List.exists_cons_of_ne_nil hp.ne_nil
  have hc := startsWrittenName_only (hp.name c (hname ▸ List.mem_cons_self))
  rw [hname, List.cons_append, skipSeparators, if_pos Text.isBlank_space, skipSeparators]
  simp [hc]

/-- The attributes are read in order, up to the end of the tag. -/
theorem attributes_row {ps : List (List Char × List Char)} (hps : ∀ p ∈ ps, Writes p)
    (rest : List Char) {before : Char} (hbefore : ps ≠ [] → precedesAttribute before = true) :
    attributes before (skipSeparators (row ps rest)) = (ps.map raw, '>' :: rest) := by
  induction ps generalizing before with
  | nil =>
    have hend : skipSeparators (row [] rest) = '>' :: rest := by
      simp [row, skipSeparators, show Text.isBlank '>' = false by decide]
    rw [hend, attributes]
    simp [startsAttribute]
  | cons p ps ih =>
    have hp := hps p List.mem_cons_self
    obtain ⟨c, name, hname⟩ := List.exists_cons_of_ne_nil hp.ne_nil
    have hc := startsWrittenName_only (hp.name c (hname ▸ List.mem_cons_self))
    have hfollows : ps ≠ [] → precedesAttribute (characterAfter (raw p) (row ps rest)) = true := by
      intro hne
      obtain ⟨q, qs, rfl⟩ := List.exists_cons_of_ne_nil hne
      rw [row_cons]
      simp [characterAfter, Option.filter, Text.isBlank_space, precedesAttribute]
    have hmore := ih (fun q hq => hps q (List.mem_cons_of_mem p hq)) hfollows
    rw [skipSeparators_row hp, hname, List.cons_append, attributes]
    simp only [hbefore (List.cons_ne_nil p ps), hc.1, Bool.and_self, if_true,
      attributeAt_written hp hname, hmore, List.map_cons]

theorem readAttribute_raw {p : List Char × List Char} (hp : Writes p) :
    readAttribute (raw p) = .ok (Text.lower p.1, some p.2) := by
  have hunquoted : unquoted ('"' :: p.2 ++ ['"']) = p.2 := by
    simp [unquoted, isQuote]
  simp only [readAttribute, raw, Option.mapM_some, hunquoted, decode_of_mild hp.mild]
  rfl

/-- Written attributes are read back with their names in lower case. -/
theorem mapM_readAttribute {ps : List (List Char × List Char)} (hps : ∀ p ∈ ps, Writes p) :
    (ps.map raw).mapM readAttribute = .ok (ps.map fun p => (Text.lower p.1, some p.2)) := by
  induction ps with
  | nil => rfl
  | cons p ps ih =>
    rw [List.map_cons, List.mapM_cons, readAttribute_raw (hps p List.mem_cons_self),
      ih fun q hq => hps q (List.mem_cons_of_mem p hq)]
    rfl

/-! ## Start tags -/

section

variable {tag : String} {ps : List (List Char × List Char)}

theorem row_stops (ps : List (List Char × List Char)) (rest : List Char) :
    ∀ c ∈ (row ps rest).head?, isTagNameChar c = false ∧ startsAttribute c = false := by
  intro c hc
  cases ps with
  | nil =>
    obtain rfl : '>' = c := by simpa [row] using hc
    decide
  | cons p ps =>
    rw [row_cons] at hc
    obtain rfl : ' ' = c := by simpa using hc
    decide

theorem tagName?_written (htag : IsTagName tag) (ps : List (List Char × List Char)) (rest : List Char) :
    tagName? (tag.toList ++ row ps rest) = some (tag.toList, row ps rest) := by
  obtain ⟨c, cs, heq, hc, hcs⟩ := htag.letters
  have hchars : ∀ d ∈ cs, isTagNameChar d = true := fun d hd => (isTagChar_only (hcs d hd)).1
  have hstop : ∀ d ∈ (row ps rest).head?, isTagNameChar d = false := fun d hd =>
    (row_stops ps rest d hd).1
  have halpha : c.isAlpha = true := Token.isAlpha_of_isLower hc
  rw [heq, List.cons_append, tagName?, if_pos halpha, Token.takeWhile_append_stop hchars hstop,
    Token.dropWhile_append_stop hchars hstop]

/-- The gap before the first attribute is what the separators take, and ends in a blank. -/
theorem gap_row (hps : ∀ p ∈ ps, Writes p) (rest : List Char) (last : Char) :
    let gap := (row ps rest).takeWhile fun c => Text.isBlank c || c == '/'
    (row ps rest).drop gap.length = skipSeparators (row ps rest) ∧
      (row ps rest).take ((row ps rest).length - (skipSeparators (row ps rest)).length) = gap ∧
      (ps ≠ [] → precedesAttribute (lastOr last gap) = true) := by
  intro gap
  cases ps with
  | nil =>
    have hblank : Text.isBlank '>' = false := by decide
    have hskip : skipSeparators (row [] rest) = row [] rest := by
      simp [row, skipSeparators, hblank]
    have hgap : gap = [] := by simp [gap, row, hblank]
    simp [hgap, hskip]
  | cons p ps =>
    have hp := hps p List.mem_cons_self
    obtain ⟨c, name, hname⟩ := List.exists_cons_of_ne_nil hp.ne_nil
    have hc := startsWrittenName_only (hp.name c (hname ▸ List.mem_cons_self))
    have hgap : gap = [' '] := by
      simp [gap, row_cons, hname, Text.isBlank_space, hc]
    rw [hgap, skipSeparators_row hp, row_cons]
    refine ⟨rfl, ?_, fun _ => by simp [lastOr, precedesAttribute, Text.isBlank_space]⟩
    rw [List.length_cons, Nat.add_sub_cancel_left]
    rfl

def startText (tag : String) (ps : List (List Char × List Char)) : List Char :=
  '<' :: (tag.toList ++ row ps [])

theorem startText_append (tag : String) (ps : List (List Char × List Char)) (rest : List Char) :
    startText tag ps ++ rest = '<' :: (tag.toList ++ row ps rest) := by
  simp [startText, row]

theorem lowerFrom_of_isTagChar {cs : List Char} (h : ∀ c ∈ cs, isTagChar c = true)
    (before : List Char) : Text.lowerFrom before cs = cs := by
  induction cs generalizing before with
  | nil => rfl
  | cons c cs ih =>
    have hc := h c List.mem_cons_self
    have hsigma : c ≠ 'Σ' := by
      rintro rfl
      exact absurd (toNat_lt_of_isTagChar hc) (by decide)
    rw [Text.lowerFrom, if_neg hsigma, ih fun d hd => h d (List.mem_cons_of_mem c hd),
      (isTagChar_only hc).2.2.2.2.2.2.2.2]
    rfl

theorem lower_of_isTagName (htag : IsTagName tag) : Text.lower tag.toList = tag.toList :=
  lowerFrom_of_isTagChar htag.isTagChar []

def startTag (tag : String) (ps : List (List Char × List Char)) : StartTag :=
  ⟨startText tag ps, tag.toList, ps.map fun p => (Text.lower p.1, some p.2), .plain⟩

/-- A written start tag is read back. -/
theorem startTag?_written (htag : IsTagName tag) (hps : ∀ p ∈ ps, Writes p) (rest : List Char) :
    startTag? (startText tag ps ++ rest) = .ok (some (startTag tag ps, rest)) := by
  obtain ⟨hdrop, hpassed, hprecedes⟩ := gap_row hps rest (lastOr '<' tag.toList)
  have hattributes := attributes_row hps rest hprecedes
  have hbracket : Text.skipBlanks ('>' :: rest) = '>' :: rest := skipBlanks_cons (by decide) rest
  have hafter : afterTag? ('>' :: rest) = some rest := rfl
  have htail : ('>' :: rest).take (('>' :: rest).length - rest.length) = ['>'] := by
    simp
  have htext : (startText tag ps ++ rest).take
      ((startText tag ps ++ rest).length - rest.length) = startText tag ps := by
    rw [List.length_append, Nat.add_sub_cancel, List.take_left]
  have hname : tagName? ((startText tag ps ++ rest).drop 1) = some (tag.toList, row ps rest) := by
    rw [startText_append]
    exact tagName?_written htag ps rest
  have htrim : Text.trim ['>'] = ['>'] := by decide
  rw [startTag?, hname]
  simp only [hdrop, hpassed, hattributes, hbracket, hafter, htail, htext, htrim,
    mapM_readAttribute hps, lower_of_isTagName htag, if_true]
  rfl

/-! ## The names of the attributes -/

theorem afterWrittenValue_written {value : List Char} (h : '"' ∉ value) (rest : List Char) :
    afterWrittenValue ('=' :: '"' :: (value ++ '"' :: rest)) = rest := by
  have hsign : Text.skipBlanks ('=' :: '"' :: (value ++ '"' :: rest)) =
      '=' :: '"' :: (value ++ '"' :: rest) := skipBlanks_cons (by decide) _
  have hstart : Text.skipBlanks ('"' :: (value ++ '"' :: rest)) = '"' :: (value ++ '"' :: rest) :=
    skipBlanks_cons (by decide) _
  rw [afterWrittenValue, hsign]
  simp only [hstart, quotedValue?_written h]

theorem writtenNames_row (hps : ∀ p ∈ ps, Writes p) :
    writtenNames (row ps []) = ps.map Prod.fst := by
  induction ps with
  | nil =>
    have hbracket : startsWrittenName '>' = false := by decide
    simp [row, writtenNames, hbracket]
  | cons p ps ih =>
    have hp := hps p List.mem_cons_self
    obtain ⟨c, name, hname⟩ := List.exists_cons_of_ne_nil hp.ne_nil
    have hc := hp.name c (hname ▸ List.mem_cons_self)
    have hspace : startsWrittenName ' ' = false := by decide
    have hstretch := takeWhile_name hp hname ('"' :: (p.2 ++ '"' :: row ps []))
    rw [row_cons, writtenNames, hspace, hname, List.cons_append, writtenNames]
    simp only [hc, Bool.false_eq_true, if_false, if_true, hstretch.1, hstretch.2,
      afterWrittenValue_written hp.quote, ih fun q hq => hps q (List.mem_cons_of_mem p hq),
      List.map_cons, hname]

theorem sourceNames_written (htag : IsTagName tag) (hps : ∀ p ∈ ps, Writes p) :
    sourceNames (startText tag ps) = ps.map Prod.fst := by
  obtain ⟨c, cs, heq, hc, hcs⟩ := htag.letters
  have hstart : startsAttribute c = true :=
    (isTagChar_only (htag.isTagChar c (heq ▸ List.mem_cons_self))).2.2.1
  have hdrop : (cs ++ row ps []).dropWhile startsAttribute = row ps [] :=
    Token.dropWhile_append_stop (fun d hd => (isTagChar_only (hcs d hd)).2.2.1)
      fun d hd => (row_stops ps [] d hd).2
  rw [startText, heq, List.cons_append, sourceNames]
  simp only [hstart, if_true, hdrop, writtenNames_row hps]

/-- Attributes with distinct names keep the spelling they were written in. -/
theorem namedAttributes_written (tag : String) {seen : List (List Char)}
    (hnodup : (ps.map fun p => Text.lower p.1).Nodup)
    (hseen : ∀ p ∈ ps, Text.lower p.1 ∉ seen) :
    namedAttributes tag seen
        ((ps.map Prod.fst).zip (ps.map fun p => (Text.lower p.1, some p.2))) =
      .ok (ps.map fun p => (String.ofList p.1, some (String.ofList p.2))) := by
  induction ps generalizing seen with
  | nil => rfl
  | cons p ps ih =>
    rw [List.map_cons, List.nodup_cons] at hnodup
    have hnew : seen.contains (Text.lower p.1) = false := by
      simpa using hseen p List.mem_cons_self
    have hmore : ∀ q ∈ ps, Text.lower q.1 ∉ Text.lower p.1 :: seen := by
      intro q hq hmem
      obtain hsame | hold := List.mem_cons.1 hmem
      · exact hnodup.1 (hsame ▸ List.mem_map_of_mem hq)
      · exact hseen q (List.mem_cons_of_mem p hq) hold
    simp only [List.map_cons, List.zip_cons_cons, namedAttributes, hnew, Bool.false_eq_true,
      if_false, ih hnodup.2 hmore]
    rfl

/-- The event of a written start tag has its attributes as they are written. -/
theorem startEvent_written (htag : IsTagName tag) (hps : ∀ p ∈ ps, Writes p)
    (hnodup : (ps.map fun p => Text.lower p.1).Nodup) :
    startEvent (startTag tag ps) =
      .ok (.start (String.ofList (startText tag ps)) tag
        (ps.map fun p => (String.ofList p.1, some (String.ofList p.2))) false) := by
  have hnames : (ps.map Prod.fst).map Text.lower =
      (ps.map fun p => (Text.lower p.1, some p.2)).map Prod.fst := by
    simp [Function.comp_def]
  simp only [startEvent, startTag, sourceNames_written htag hps, hnames, if_true,
    namedAttributes_written _ hnodup fun p _ => List.not_mem_nil, String.ofList_toList]
  rfl

/-! ## What stands at a less-than sign -/

theorem found_of_isAlpha {c : Char} (hc : c.isAlpha = true) (rest : List Char) :
    found ('<' :: c :: rest) = openTag ('<' :: c :: rest) := by
  unfold found
  split <;> simp_all

/-- A written start tag is found as one. -/
theorem found_start (htag : IsTagName tag) (hps : ∀ p ∈ ps, Writes p) (rest : List Char) :
    found (startText tag ps ++ rest) = .item (some (.start (startTag tag ps))) rest none := by
  have hopen : found (startText tag ps ++ rest) = openTag (startText tag ps ++ rest) := by
    obtain ⟨c, cs, heq, hc, -⟩ := htag.letters
    rw [startText_append, heq]
    exact found_of_isAlpha (Token.isAlpha_of_isLower hc) _
  have hraw : ¬ (tag.toList = "script".toList ∨ tag.toList = "style".toList) := by
    rw [String.toList_inj, String.toList_inj]
    exact not_or.2 ⟨htag.ne_script, htag.ne_style⟩
  rw [hopen, openTag, startTag?_written htag hps]
  exact congrArg (Found.item _ rest) (if_neg hraw)

theorem plainEndTag?_written (htag : IsTagName tag) (rest : List Char) :
    plainEndTag? (tag.toList ++ '>' :: rest) = some tag.toList := by
  obtain ⟨c, cs, heq, hc, hcs⟩ := htag.letters
  have hblank : Text.isBlank c = false :=
    (isTagChar_only (htag.isTagChar c (heq ▸ List.mem_cons_self))).2.2.2.1
  have hchars : ∀ d ∈ cs, isEndNameChar d = true := fun d hd => (isTagChar_only (hcs d hd)).2.1
  have hstop : ∀ d ∈ ('>' :: rest).head?, isEndNameChar d = false := by
    intro d hd
    obtain rfl : '>' = d := by simpa using hd
    decide
  have hbracket : Text.skipBlanks ('>' :: rest) = '>' :: rest := skipBlanks_cons (by decide) rest
  have hlower := lower_of_isTagName htag
  rw [heq] at hlower
  rw [plainEndTag?, heq, List.cons_append, skipBlanks_cons hblank]
  simp [Token.isAlpha_of_isLower hc, Token.takeWhile_append_stop hchars hstop,
    Token.dropWhile_append_stop hchars hstop, hbracket, hlower]

/-- A written end tag is found as one. -/
theorem found_stop (htag : IsTagName tag) (rest : List Char) :
    found ('<' :: '/' :: (tag.toList ++ '>' :: rest)) =
      .item (some (.stop tag.toList)) rest none := by
  have hnot : '>' ∉ tag.toList := fun hmem =>
    (isTagChar_only (htag.isTagChar _ hmem)).2.2.2.2.1 rfl
  have hbracket : upToBracket? (tag.toList ++ '>' :: rest) = some (tag.toList, rest) := by
    rw [upToBracket?, Text.splitAtFirst?_singleton hnot]
    rfl
  rw [found, endTag, hbracket]
  simp only [plainEndTag?_written htag]

theorem found_sign {c : Char} (hc : startsMarkup c = false) (rest : List Char) :
    found ('<' :: c :: rest) = .sign := by
  simp only [startsMarkup, Bool.or_eq_false_iff, beq_eq_false_iff_ne] at hc
  obtain ⟨⟨⟨halpha, hslash⟩, hmark⟩, hquestion⟩ := hc
  unfold found
  split <;> simp_all

end

end Stencil.Markup
