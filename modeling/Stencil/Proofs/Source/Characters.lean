import Stencil.Proofs.Braces
import Stencil.Proofs.Source.Writing

/-!
# Characters of a source

What the readers of a source ask of its characters. In a mild text every less-than sign is the
comparison of two expressions and every ampersand belongs to a conjunction, so nothing in it is a
tag or a reference. In a balanced text the braces close each other. A text that is laid out in
stretches without braces and in directives, and in which every less-than sign opens what it should,
is not changed by the escaping of directives.
-/

namespace Stencil

/-- What a given text is made of is decided character by character. -/
theorem forall_mem_of_all {cs : List Char} {p : Char → Prop} [DecidablePred p]
    (h : (cs.all fun c => decide (p c)) = true) : ∀ c ∈ cs, p c := by
  simpa using h

/-! ## Mild texts -/

/-- A less-than sign stands before a space or an equals sign, and an ampersand before another one
or a space. -/
def Mild : List Char → Prop
  | [] => True
  | c :: cs =>
    (c = '<' → ∃ d ds, cs = d :: ds ∧ (d = ' ' ∨ d = '=')) ∧
      (c = '&' → ∃ d ds, cs = d :: ds ∧ (d = '&' ∨ d = ' ')) ∧ Mild cs

theorem mild_cons {c : Char} {cs : List Char} (hsign : c ≠ '<') (hand : c ≠ '&') (h : Mild cs) :
    Mild (c :: cs) :=
  ⟨fun hc => absurd hc hsign, fun hc => absurd hc hand, h⟩

theorem Mild.append {cs ds : List Char} (hcs : Mild cs) (hds : Mild ds) : Mild (cs ++ ds) := by
  induction cs with
  | nil => exact hds
  | cons c cs ih =>
    refine ⟨fun hc => ?_, fun hc => ?_, ih hcs.2.2⟩
    · obtain ⟨d, ds', rfl, hd⟩ := hcs.1 hc
      exact ⟨d, ds' ++ ds, rfl, hd⟩
    · obtain ⟨d, ds', rfl, hd⟩ := hcs.2.1 hc
      exact ⟨d, ds' ++ ds, rfl, hd⟩

theorem Mild.of_append {cs ds : List Char} (h : Mild (cs ++ ds)) : Mild ds := by
  induction cs with
  | nil => exact h
  | cons c cs ih => exact ih h.2.2

/-- Neither sign asks for a less-than sign after it. -/
theorem Mild.before_sign {cs ds : List Char} (h : Mild (cs ++ '<' :: ds)) : Mild cs := by
  induction cs with
  | nil => trivial
  | cons c cs ih =>
    have hnext {p q : Char} (hp : '<' ≠ p) (hq : '<' ≠ q)
        (hfollows : ∃ d ds', cs ++ '<' :: ds = d :: ds' ∧ (d = p ∨ d = q)) :
        ∃ d ds', cs = d :: ds' ∧ (d = p ∨ d = q) := by
      obtain ⟨d, ds', heq, hd⟩ := hfollows
      cases cs with
      | nil =>
        obtain ⟨rfl, -⟩ := List.cons.inj heq
        exact absurd hd (not_or.2 ⟨hp, hq⟩)
      | cons e cs =>
        obtain ⟨rfl, -⟩ := List.cons.inj heq
        exact ⟨e, cs, rfl, hd⟩
    exact ⟨fun hc => hnext (by decide) (by decide) (h.1 hc),
      fun hc => hnext (by decide) (by decide) (h.2.1 hc), ih h.2.2⟩

theorem mild_of_not_mem {cs : List Char} (hsign : '<' ∉ cs) (hand : '&' ∉ cs) : Mild cs := by
  induction cs with
  | nil => trivial
  | cons c cs ih =>
    simp only [List.mem_cons, not_or] at hsign hand
    exact mild_cons (Ne.symm hsign.1) (Ne.symm hand.1) (ih hsign.2 hand.2)

theorem not_mem_of_quiet {cs : List Char} (h : ∀ c ∈ cs, isQuiet c = true) :
    '<' ∉ cs ∧ '&' ∉ cs ∧ '{' ∉ cs ∧ '}' ∉ cs := by
  have hloud (c : Char) (hc : isQuiet c = false) : c ∉ cs := by
    intro hmem
    rw [h c hmem] at hc
    cases hc
  exact ⟨hloud _ rfl, hloud _ rfl, hloud _ rfl, hloud _ rfl⟩

theorem mild_of_quiet {cs : List Char} (h : ∀ c ∈ cs, isQuiet c = true) : Mild cs :=
  mild_of_not_mem (not_mem_of_quiet h).1 (not_mem_of_quiet h).2.1

namespace Markup

/-- There is no reference in a mild text. -/
theorem decode_of_mild {cs : List Char} (h : Mild cs) : decode cs = .ok cs := by
  induction cs with
  | nil => rw [decode]
  | cons c cs ih =>
    have hnone : (if c = '&' then reference? cs else none) = none := by
      split
      · rename_i hc
        obtain ⟨d, ds, rfl, rfl | rfl⟩ := h.2.1 hc <;> rfl
      · rfl
    rw [decode, hnone, ih h.2.2]
    rfl

/-- A text does not end inside a reference if a blank or a semicolon follows its last ampersand. On
the way back to the last ampersand that character is passed. -/
theorem mightContinue_eq_false {cs : List Char}
    (h : ∀ before after, cs = before ++ '&' :: after → '&' ∉ after →
      ∃ c ∈ after, (Text.isBlank c || c == ';') = true) :
    mightContinue cs = false := by
  rw [mightContinue]
  generalize hback : (cs.drop (cs.length - 34)).reverse = back
  rw [List.reverse_eq_iff] at hback
  by_cases hmem : '&' ∈ back
  · obtain ⟨after, before, rfl, hlast⟩ := List.eq_append_cons_of_mem hmem
    have htake : (after ++ '&' :: before).takeWhile (· != '&') = after := by
      refine Token.takeWhile_append_stop ?_ (by simp)
      intro c hc
      simpa using ne_of_mem_of_not_mem hc hlast
    have hcs : cs = (cs.take (cs.length - 34) ++ before.reverse) ++ '&' :: after.reverse := by
      have hsplit := (List.take_append_drop (cs.length - 34) cs).symm
      rw [hback] at hsplit
      simpa using hsplit
    obtain ⟨c, hc, hstops⟩ := h _ _ hcs (by simpa using hlast)
    have hany : (after.any fun c => Text.isBlank c || c == ';') = true :=
      List.any_eq_true.2 ⟨c, List.mem_reverse.1 hc, hstops⟩
    simp [htake, hany]
  · simp [hmem]

/-- A mild text does not end inside a reference. -/
theorem mightContinue_of_mild {cs : List Char} (h : Mild cs) : mightContinue cs = false := by
  refine mightContinue_eq_false fun before after hcs hlast => ?_
  rw [hcs] at h
  obtain ⟨d, ds, rfl, hd⟩ := h.of_append.2.1 rfl
  obtain rfl | rfl := hd
  · exact absurd List.mem_cons_self hlast
  · exact ⟨' ', List.mem_cons_self, by simp [Text.isBlank_space]⟩

end Markup

/-! ## Balanced texts -/

/-- Counting braces over the text comes back to the depth at its front. -/
def Balanced (cs : List Char) : Prop :=
  ∀ (depth : Int) (rest : List Char), 0 < depth →
    Braces.closing ['{'] ['}'] depth (cs ++ rest) =
      (Braces.closing ['{'] ['}'] depth rest).map (cs.length + ·)

namespace Braces

theorem closing_open {depth : Int} (h : 0 < depth) (cs : List Char) :
    closing ['{'] ['}'] depth ('{' :: cs) = (closing ['{'] ['}'] (depth + 1) cs).map (· + 1) :=
  closing_cons (by decide) (by omega) '{' cs

theorem closing_close {depth : Int} (h : 0 < depth) (cs : List Char) :
    closing ['{'] ['}'] depth ('}' :: cs) = (closing ['{'] ['}'] (depth - 1) cs).map (· + 1) :=
  closing_cons (by decide) (by omega) '}' cs

end Braces

/-- A text is balanced if its braces are even and no closing one comes too early. -/
theorem balanced_of_peak {cs : List Char} (hexcess : Braces.excess '{' '}' cs = 0)
    (hpeak : Braces.peak '{' '}' cs ≤ 0) : Balanced cs := by
  intro depth rest hdepth
  rw [Braces.closing_append (by decide) (by omega), hexcess, Int.sub_zero]

theorem Balanced.append {cs ds : List Char} (hcs : Balanced cs) (hds : Balanced ds) :
    Balanced (cs ++ ds) := by
  intro depth rest hdepth
  rw [List.append_assoc, hcs depth _ hdepth, hds depth _ hdepth, Option.map_map]
  simp [Function.comp_def, Nat.add_assoc]

/-- A text without braces is balanced. -/
theorem balanced_of_not_mem {cs : List Char} (hopen : '{' ∉ cs) (hclose : '}' ∉ cs) :
    Balanced cs := by
  have hskeleton := Braces.skeleton_of_not_mem hopen hclose
  refine balanced_of_peak ?_ ?_
  · rw [← Braces.excess_skeleton, hskeleton, Braces.excess_nil]
  · exact Int.le_of_eq (by rw [← Braces.peak_skeleton, hskeleton, Braces.peak_nil])

theorem balanced_of_quiet {cs : List Char} (h : ∀ c ∈ cs, isQuiet c = true) : Balanced cs :=
  balanced_of_not_mem (not_mem_of_quiet h).2.2.1 (not_mem_of_quiet h).2.2.2

theorem Balanced.enclosed {cs : List Char} (h : Balanced cs) : Balanced ('{' :: (cs ++ ['}'])) := by
  intro depth rest hdepth
  rw [List.cons_append, Braces.closing_open hdepth, List.append_assoc, h _ _ (by omega),
    List.singleton_append, Braces.closing_close (by omega), Int.add_sub_cancel, Option.map_map,
    Option.map_map]
  congr 1
  funext n
  simp only [Function.comp_apply, List.length_cons, List.length_append, List.length_nil]
  omega

/-- The region of two opening braces ends where a balanced text does. -/
theorem Balanced.split? {cs : List Char} (h : Balanced cs) (rest : List Char) :
    Braces.split? (cs ++ '}' :: '}' :: rest) = some (cs ++ ['}', '}'], rest) := by
  have hclosing : Braces.closing ['{'] ['}'] 2 (cs ++ '}' :: '}' :: rest) =
      some (cs.length + 2) := by
    rw [h _ _ (by decide), Braces.closing_close (by decide), Braces.closing_close (by decide)]
    simp [Braces.closing_zero]
  rw [Braces.split?, hclosing, Option.map_some, List.take_length_add_append,
    List.drop_length_add_append]
  rfl

/-! ## Directives in a text -/

/-- A text of stretches without opening braces and of directives. -/
inductive Laid : List Char → Prop
  | nil : Laid []
  | plain {cs ds : List Char} (hcs : '{' ∉ cs) (hds : Laid ds) : Laid (cs ++ ds)
  | directive {cs ds : List Char} (hmild : Mild cs) (hbalanced : Balanced cs) (hds : Laid ds) :
    Laid ('{' :: '{' :: (cs ++ '}' :: '}' :: ds))

theorem laid_of_not_mem {cs : List Char} (h : '{' ∉ cs) : Laid cs := by
  rw [← List.append_nil cs]
  exact .plain h .nil

theorem Laid.append {cs ds : List Char} (hcs : Laid cs) (hds : Laid ds) : Laid (cs ++ ds) := by
  induction hcs with
  | nil => exact hds
  | plain h _ ih =>
    rw [List.append_assoc]
    exact .plain h ih
  | directive hmild hbalanced _ ih =>
    simpa using Laid.directive hmild hbalanced ih

namespace Markup

theorem exists_escapeRegion_cons (c : Char) (cs : List Char) :
    ∃ d ds, escapeRegion (c :: cs) = d :: ds ∧ (d = c ∨ d = '&') := by
  cases cs with
  | nil => exact ⟨c, [], rfl, .inl rfl⟩
  | cons e cs =>
    rw [escapeRegion]
    split
    · exact ⟨'&', _, rfl, .inr rfl⟩
    · exact ⟨c, _, rfl, .inl rfl⟩

/-- Characters that need no escape are left as they are. -/
theorem escapeRegion_of_mild {cs : List Char} (h : Mild cs) : escapeRegion cs = cs := by
  fun_induction escapeRegion cs with
  | case1 => rfl
  | case2 c => rfl
  | case3 c d cs hmarkup ih =>
    obtain ⟨d', ds, heq, hd⟩ := h.1 hmarkup.1
    obtain ⟨rfl, rfl⟩ := List.cons.inj heq
    obtain rfl | rfl := hd <;> cases hmarkup.2
  | case4 c d cs _ ih => rw [ih h.2.2]

theorem escapeOpen_of_none {cs : List Char} (h : directive? cs = none) : escapeOpen cs = cs := by
  rw [escapeOpen]
  split <;> simp_all

theorem escapeOpen_of_some {cs before region rest : List Char}
    (h : directive? cs = some (before, region, rest)) :
    escapeOpen cs = before ++ escapeRegion region ++ escapeOpen rest := by
  rw [escapeOpen]
  split <;> simp_all

theorem directive?_append {cs : List Char} (h : '{' ∉ cs) (ds : List Char) :
    directive? (cs ++ ds) = (directive? ds).map fun r => (cs ++ r.1, r.2) := by
  rw [directive?, directive?, Text.splitAtFirst?_append h]
  cases Text.splitAtFirst? ['{', '{'] ds with
  | none => rfl
  | some r =>
    obtain ⟨before, rest⟩ := r
    simp only [Option.map_some]
    split <;> simp_all [Function.comp_def]

/-- Text in front of the first brace is copied. -/
theorem escapeOpen_append {cs : List Char} (h : '{' ∉ cs) (ds : List Char) :
    escapeOpen (cs ++ ds) = cs ++ escapeOpen ds := by
  have happend := directive?_append h ds
  cases hds : directive? ds with
  | none =>
    rw [hds] at happend
    rw [escapeOpen_of_none happend, escapeOpen_of_none hds]
  | some r =>
    obtain ⟨before, region, rest⟩ := r
    rw [hds] at happend
    rw [escapeOpen_of_some happend, escapeOpen_of_some hds]
    simp only [List.append_assoc]

/-- A balanced body in braces is found as one region. -/
theorem directive?_of_balanced {cs : List Char} (h : Balanced cs) (rest : List Char) :
    directive? ('{' :: '{' :: (cs ++ '}' :: '}' :: rest)) =
      some ([], '{' :: '{' :: (cs ++ ['}', '}']), rest) := by
  have hself := Text.splitAtFirst?_self '{' ['{'] (cs ++ '}' :: '}' :: rest)
  rw [List.cons_append, List.cons_append, List.nil_append] at hself
  rw [directive?, hself]
  simp only [h.split?, Option.map_some]

/-- Escaping leaves the directives alone whose less-than signs are comparisons. -/
theorem escapeOpen_of_laid {cs : List Char} (h : Laid cs) : escapeOpen cs = cs := by
  induction h with
  | nil => exact escapeOpen_of_none rfl
  | plain h _ ih => rw [escapeOpen_append h, ih]
  | @directive cs ds hmild hbalanced _ ih =>
    have hregion : Mild ('{' :: '{' :: (cs ++ ['}', '}'])) := by
      refine mild_cons (by decide) (by decide) (mild_cons (by decide) (by decide) (hmild.append ?_))
      exact mild_of_not_mem (by decide) (by decide)
    rw [escapeOpen_of_some (directive?_of_balanced hbalanced ds), escapeRegion_of_mild hregion, ih]
    simp

end Markup

/-! ## Less-than signs in a text -/

/-- The tags of elements whose content is markup. -/
structure IsTagName (tag : String) : Prop where
  letters : ∃ c cs, tag.toList = c :: cs ∧ c.isLower = true ∧ ∀ d ∈ cs, isTagChar d = true
  isVoid : Markup.isVoid tag = false
  ne_script : tag ≠ "script"
  ne_style : tag ≠ "style"

theorem IsTag.isTagName {tag : String} (h : IsTag tag) : IsTagName tag :=
  ⟨h.1, h.2.1, h.2.2.1, h.2.2.2.1⟩

/-- What may follow a less-than sign: no declaration, and of end tags those of the elements whose
content is decoded. -/
inductive Opens : List Char → Prop
  | other {c : Char} {cs : List Char} (hmark : c ≠ '!') (hslash : c ≠ '/') : Opens (c :: cs)
  | stop {tag : String} {cs : List Char} (htag : IsTagName tag) :
    Opens ('/' :: (tag.toList ++ '>' :: cs))

/-- Every less-than sign stands before what may follow it. -/
def Orderly : List Char → Prop
  | [] => True
  | c :: cs => (c = '<' → Opens cs) ∧ Orderly cs

theorem Opens.append {cs : List Char} (h : Opens cs) (ds : List Char) : Opens (cs ++ ds) := by
  cases h with
  | other hmark hslash => exact .other hmark hslash
  | stop htag => simpa using Opens.stop htag

theorem Orderly.append {cs ds : List Char} (hcs : Orderly cs) (hds : Orderly ds) :
    Orderly (cs ++ ds) := by
  induction cs with
  | nil => exact hds
  | cons c cs ih => exact ⟨fun hc => (hcs.1 hc).append ds, ih hcs.2⟩

theorem Orderly.of_append {cs ds : List Char} (h : Orderly (cs ++ ds)) : Orderly ds := by
  induction cs with
  | nil => exact h
  | cons c cs ih => exact ih h.2

theorem orderly_of_not_mem {cs : List Char} (h : '<' ∉ cs) : Orderly cs := by
  induction cs with
  | nil => trivial
  | cons c cs ih =>
    simp only [List.mem_cons, not_or] at h
    exact ⟨fun hc => absurd hc.symm h.1, ih h.2⟩

theorem Mild.orderly {cs : List Char} (h : Mild cs) : Orderly cs := by
  induction cs with
  | nil => trivial
  | cons c cs ih =>
    refine ⟨fun hc => ?_, ih h.2.2⟩
    obtain ⟨d, ds, rfl, rfl | rfl⟩ := h.1 hc
    · exact .other (by decide) (by decide)
    · exact .other (by decide) (by decide)

theorem toNat_lt_of_isTagChar {c : Char} (h : isTagChar c = true) : c.toNat < 128 := by
  simp only [isTagChar, Char.isDigit, Bool.or_eq_true, Bool.and_eq_true, decide_eq_true_eq,
    beq_iff_eq, UInt32.le_iff_toNat_le] at h
  obtain (((((h | h) | rfl) | rfl) | rfl) | rfl) := h
  · exact Token.toNat_lt_of_isLower h
  · exact Nat.lt_of_le_of_lt h.2 (by decide)
  all_goals decide

/-- The characters of a tag stand for themselves wherever tags are read. -/
theorem isTagChar_only {c : Char} (h : isTagChar c = true) :
    Markup.isTagNameChar c = true ∧ Markup.isEndNameChar c = true ∧ Markup.startsAttribute c = true ∧
      Text.isBlank c = false ∧ c ≠ '>' ∧ c ≠ '<' ∧ c ≠ '{' ∧ Markup.foldLetter c = c ∧
      Text.lowerChar c = [c] := by
  have hascii := toNat_lt_of_isTagChar h
  revert h
  refine Token.forall_ascii (P := fun c => isTagChar c = true → Markup.isTagNameChar c = true ∧
    Markup.isEndNameChar c = true ∧ Markup.startsAttribute c = true ∧ Text.isBlank c = false ∧
    c ≠ '>' ∧ c ≠ '<' ∧ c ≠ '{' ∧ Markup.foldLetter c = c ∧ Text.lowerChar c = [c]) ?_ hascii
  decide +kernel

theorem IsTagName.isTagChar {tag : String} (h : IsTagName tag) :
    ∀ c ∈ tag.toList, isTagChar c = true := by
  obtain ⟨c, cs, heq, hc, hcs⟩ := h.letters
  rw [heq]
  intro d hd
  obtain rfl | hd := List.mem_cons.1 hd
  · simp [Stencil.isTagChar, hc]
  · exact hcs d hd

namespace Markup

theorem spelled?_append {ps cs letters rest : List Char} (h : spelled? ps cs = some (letters, rest)) :
    letters ++ rest = cs := by
  induction ps generalizing cs letters with
  | nil =>
    simp only [spelled?, Option.some.injEq, Prod.mk.injEq] at h
    rw [← h.1, ← h.2, List.nil_append]
  | cons p ps ih =>
    cases cs with
    | nil => cases h
    | cons c cs =>
      rw [spelled?] at h
      split at h
      · obtain ⟨⟨more, rest'⟩, hmore, heq⟩ := Option.map_eq_some_iff.1 h
        simp only [Prod.mk.injEq] at heq
        obtain ⟨rfl, rfl⟩ := heq
        rw [List.cons_append, ih hmore]
      · cases h

/-- A letter that an end tag repeats is the one of the name, if the end tag is written in lower
case. -/
theorem eq_of_spells {p c t : Char} (hp : p.isLower = true) (hspells : spells p c = true)
    (ht : foldLetter t = t) (hascii : t.toNat < 128) (hrepeats : foldLetter c = foldLetter t) :
    t = p := by
  rw [ht] at hrepeats
  subst hrepeats
  simp only [spells, Bool.or_eq_true, Bool.and_eq_true, beq_iff_eq] at hspells
  obtain (rfl | ⟨rfl, rfl⟩) | ⟨rfl, rfl | rfl⟩ := hspells
  · by_cases hdotted : c = 'İ'
    · subst hdotted
      cases hp
    · rw [foldLetter, if_neg hdotted]
  · exact absurd hascii (by decide)
  · rfl
  · exact absurd hascii (by decide)

/-- An end tag in lower case repeats the letters of no other name. -/
theorem eq_of_endTag? {ps cs letters rest tag more after : List Char}
    (hps : ∀ p ∈ ps, p.isLower = true) (hspelled : spelled? ps cs = some (letters, rest))
    (htag : ∀ t ∈ tag, isTagChar t = true)
    (h : (repeated? letters (tag ++ '>' :: more)).bind tagEnd? = some after) : tag = ps := by
  induction ps generalizing cs letters tag with
  | nil =>
    simp only [spelled?, Option.some.injEq, Prod.mk.injEq] at hspelled
    rw [← hspelled.1, repeated?, Option.bind_some] at h
    cases tag with
    | nil => rfl
    | cons t tag =>
      have ht := isTagChar_only (htag t List.mem_cons_self)
      simp [tagEnd?, Text.skipBlanks, ht] at h
  | cons p ps ih =>
    cases cs with
    | nil => cases hspelled
    | cons c cs =>
      rw [spelled?] at hspelled
      split at hspelled
      · rename_i hspells
        obtain ⟨⟨letters', rest'⟩, hletters, heq⟩ := Option.map_eq_some_iff.1 hspelled
        simp only [Prod.mk.injEq] at heq
        obtain ⟨rfl, rfl⟩ := heq
        have hp := hps p List.mem_cons_self
        cases tag with
        | nil =>
          rw [List.nil_append, repeated?] at h
          split at h
          · rename_i hrepeats
            obtain rfl := eq_of_spells hp hspells rfl (by decide) hrepeats
            cases hp
          · cases h
        | cons t tag =>
          have ht := htag t List.mem_cons_self
          rw [List.cons_append, repeated?] at h
          split at h
          · rename_i hrepeats
            have hfold := (isTagChar_only ht).2.2.2.2.2.2.2.1
            obtain rfl := eq_of_spells hp hspells hfold (toNat_lt_of_isTagChar ht) hrepeats
            rw [ih (fun q hq => hps q (List.mem_cons_of_mem t hq)) hletters
              (fun t' ht' => htag t' (List.mem_cons_of_mem t ht')) h]
          · cases h
      · cases hspelled

theorem afterFirst?_eq_none {p : List Char → Option (List Char)} {cs : List Char}
    (hp : ∀ s, s <:+ cs → p s = none) : afterFirst? p cs = none := by
  induction cs with
  | nil => exact hp [] (List.suffix_refl _)
  | cons c cs ih =>
    rw [afterFirst?, hp _ (List.suffix_refl _)]
    exact ih fun s hs => hp s (hs.trans (List.suffix_cons c cs))

theorem exists_of_afterFirst? {p : List Char → Option (List Char)} {cs rest : List Char}
    (h : afterFirst? p cs = some rest) : ∃ before s, cs = before ++ s ∧ p s = some rest := by
  induction cs with
  | nil => exact ⟨[], [], rfl, h⟩
  | cons c cs ih =>
    rw [afterFirst?] at h
    split at h
    · rename_i heq
      cases h
      exact ⟨[], c :: cs, rfl, heq⟩
    · obtain ⟨before, s, rfl, hs⟩ := ih h
      exact ⟨c :: before, s, rfl, hs⟩

/-- No element of this name is closed in an orderly text. -/
theorem afterElement?_of_orderly {name : String} (hname : ∀ p ∈ name.toList, p.isLower = true)
    (htag : ¬ IsTagName name) {cs : List Char} (h : Orderly cs) : afterElement? name cs = none := by
  unfold afterElement?
  split
  · rename_i cs
    split
    · rename_i letters rest hspelled
      have hrest : Orderly rest := by
        have hcs := h.2
        rw [← spelled?_append hspelled] at hcs
        exact hcs.of_append
      have hnone : afterFirst? (endTag? letters) rest = none := by
        refine afterFirst?_eq_none fun s hs => ?_
        obtain ⟨before, rfl⟩ := hs
        unfold endTag?
        split
        · rename_i inside
          rw [Option.eq_none_iff_forall_ne_some]
          intro after hafter
          have hopens : Opens ('/' :: inside) := hrest.of_append.1 rfl
          generalize heq : '/' :: inside = opened at hopens
          cases hopens with
          | other _ hslash => exact hslash (List.cons.inj heq).1.symm
          | @stop tag more hstop =>
            obtain rfl := (List.cons.inj heq).2
            have hsame := eq_of_endTag? hname hspelled hstop.isTagChar hafter
            rw [String.toList_inj] at hsame
            exact htag (hsame ▸ hstop)
        · rfl
      rw [hnone, ite_self]
    · rfl
  · rfl

/-- Orderly text starts no region that is left undecoded. -/
theorem afterUndecoded?_of_orderly {cs : List Char} (h : Orderly cs) : afterUndecoded? cs = none := by
  have hscript : afterElement? "script" cs = none :=
    afterElement?_of_orderly (forall_mem_of_all (by decide)) (fun htag => htag.ne_script rfl) h
  have hstyle : afterElement? "style" cs = none :=
    afterElement?_of_orderly (forall_mem_of_all (by decide)) (fun htag => htag.ne_style rfl) h
  have hcomment : afterComment? cs = none := by
    unfold afterComment?
    split
    · rename_i inside
      have hopens : Opens ('!' :: '-' :: '-' :: inside) := h.1 rfl
      cases hopens with
      | other hmark _ => exact absurd rfl hmark
    · rfl
  rw [afterUndecoded?, hcomment, hscript, hstyle]
  rfl

/-- A text in which no region starts joins the piece before the first region. -/
theorem piecesFrom_append {after? : List Char → Option (List Char)} {cs rest : List Char}
    (h : ∀ s, s <:+ cs → s ≠ [] → after? (s ++ rest) = none) (chunk : List Char) :
    piecesFrom after? chunk (cs ++ rest) = piecesFrom after? (cs.reverse ++ chunk) rest := by
  induction cs generalizing chunk with
  | nil => rfl
  | cons c cs ih =>
    have hnone : after? (c :: (cs ++ rest)) = none := h _ (List.suffix_refl _) (by simp)
    have hconsumed : consumed after? (c :: (cs ++ rest)) = 0 := by
      rw [consumed, hnone]
    rw [List.cons_append, piecesFrom, hconsumed]
    dsimp only
    rw [ih fun s hs => h s (hs.trans (List.suffix_cons c cs))]
    simp

/-- A region that is taken whole is a piece of its own. -/
theorem piecesFrom_consumed {after? : List Char → Option (List Char)} {cs rest : List Char}
    (hne : cs ≠ []) (h : after? (cs ++ rest) = some rest) (chunk : List Char) :
    piecesFrom after? chunk (cs ++ rest) =
      .openText chunk.reverse :: .raw cs :: piecesFrom after? [] rest := by
  obtain ⟨c, cs, rfl⟩ := List.exists_cons_of_ne_nil hne
  have hconsumed : consumed after? (c :: (cs ++ rest)) = cs.length + 1 := by
    rw [List.cons_append] at h
    rw [consumed, h]
    simp
    omega
  rw [List.cons_append, piecesFrom, hconsumed]
  simp

/-- A text without raw regions is one open piece. -/
theorem pieces_eq_singleton {after? : List Char → Option (List Char)} {cs : List Char}
    (h : ∀ s, s <:+ cs → after? s = none) : pieces after? cs = [.openText cs] := by
  have happend : piecesFrom after? [] (cs ++ []) = piecesFrom after? (cs.reverse ++ []) [] :=
    piecesFrom_append (fun s hs _ => by rw [List.append_nil, h s hs]) []
  rw [List.append_nil] at happend
  rw [pieces, happend, piecesFrom]
  simp

/-- Escaping does not change a source that is laid out in order. -/
theorem escape_eq_self {cs : List Char} (horderly : Orderly cs) (hlaid : Laid cs) :
    escape (String.ofList cs) = String.ofList cs := by
  have hpieces : pieces afterUndecoded? cs = [.openText cs] := by
    refine pieces_eq_singleton fun s hs => ?_
    obtain ⟨before, rfl⟩ := hs
    exact afterUndecoded?_of_orderly horderly.of_append
  rw [escape, String.toList_ofList, hpieces]
  simp [mapOpen, escapeOpen_of_laid hlaid]

end Markup

end Stencil
