import Stencil.Proofs.Source.Characters
import Stencil.Proofs.Text.Blank

/-!
# Recognisers of raw regions

A comment and an element are each found at the front of a text by reading up to an end mark. When a
text is changed one asks whether the same regions are found in it. The change is any relation `R`
between texts. A recogniser that is `BlindTo R` takes the second of two related texts if it takes
the first, and a region that it takes it also takes before a related text. Two things follow for a
change that `Keeps` what the recognisers look at: they are blind to it, and so is what finds the
first region of several kinds.
-/

namespace Stencil.Markup

open Text

/-- What a recogniser looks at in the first of two related texts stands in the second too: the
less-than signs, words of characters of a kind, and the ends of words, comments and tags. -/
structure Keeps (P : Char → Prop) (R : List Char → List Char → Prop) : Prop where
  prepend : ∀ front {cs ds}, R cs ds → R (front ++ cs) (front ++ ds)
  append_lessThan : ∀ {cs ds cs' ds'}, R cs ds → R cs' ds' →
    R (cs ++ '<' :: cs') (ds ++ '<' :: ds')
  exists_cut : ∀ {before cs ds}, R (before ++ '<' :: cs) ds →
    ∃ before' ds', ds = before' ++ '<' :: ds' ∧ R cs ds'
  exists_append : ∀ {word cs ds}, (∀ c ∈ word, P c) → R (word ++ cs) ds →
    ∃ ds', ds = word ++ ds' ∧ R cs ds'
  endsWord_eq : ∀ {cs ds}, R cs ds → endsWord cs = endsWord ds
  commentEnd : ∀ {cs ds}, R cs ds → ['-', '-', '>'] <:+: cs → ['-', '-', '>'] <:+: ds
  tagEnd : ∀ {cs ds}, R cs ds → (tagEnd? cs).isSome → (tagEnd? ds).isSome

/-- The recogniser takes what starts with a less-than sign. It takes the second of two related texts
if it takes the first, and what it takes it also takes before a related text. -/
structure BlindTo (R : List Char → List Char → Prop) (after? : List Char → Option (List Char)) :
    Prop where
  nil : after? [] = none
  cons : ∀ {c cs}, c ≠ '<' → after? (c :: cs) = none
  isSome : ∀ {cs ds}, R cs ds → (after? ('<' :: cs)).isSome → (after? ('<' :: ds)).isSome
  exists_region : ∀ {cs rest}, after? ('<' :: cs) = some rest → ∃ region, cs = region ++ rest ∧
    ∀ more, R more rest → after? ('<' :: (region ++ more)) = some more

variable {P : Char → Prop} {R : List Char → List Char → Prop} {cs ds rest : List Char}

/-! ## Combining recognisers -/

namespace BlindTo

variable {after? after₁? after₂? : List Char → Option (List Char)}

/-- A recogniser takes nothing of the first text if it takes nothing of the second. -/
theorem eq_none (h : BlindTo R after?) (hcs : R cs ds) (hnone : after? ('<' :: ds) = none) :
    after? ('<' :: cs) = none := by
  rw [← Option.not_isSome_iff_eq_none] at hnone ⊢
  exact fun hsome => hnone (h.isSome hcs hsome)

/-- A region is found also before a related text. -/
theorem region {region more : List Char} (h : BlindTo R after?)
    (hregion : after? ('<' :: (region ++ rest)) = some rest) (hrest : R more rest) :
    after? ('<' :: (region ++ more)) = some more := by
  obtain ⟨region', heq, hmore⟩ := h.exists_region hregion
  obtain rfl := List.append_cancel_right heq
  exact hmore more hrest

theorem exists_lessThan (h : BlindTo R after?) (hcs : after? cs = some rest) :
    ∃ cs', cs = '<' :: cs' := by
  cases cs with
  | nil =>
    rw [h.nil] at hcs
    cases hcs
  | cons c cs =>
    by_cases hc : c = '<'
    · exact ⟨cs, by rw [hc]⟩
    · rw [h.cons hc] at hcs
      cases hcs

/-- Two recognisers that are blind to a change are so together. -/
theorem orElse (hR : Keeps P R) (h₁ : BlindTo R after₁?) (h₂ : BlindTo R after₂?) :
    BlindTo R fun cs => (after₁? cs).orElse fun _ => after₂? cs where
  nil := by simp [h₁.nil, h₂.nil]
  cons hc := by simp [h₁.cons hc, h₂.cons hc]
  isSome hcs hsome := by
    simp only [Option.orElse_eq_or, Option.isSome_or, Bool.or_eq_true] at hsome ⊢
    exact hsome.imp (h₁.isSome hcs) (h₂.isSome hcs)
  exists_region {cs rest} hsome := by
    cases hfirst : after₁? ('<' :: cs) with
    | some rest' =>
      rw [hfirst] at hsome
      cases hsome
      obtain ⟨region, rfl, hregion⟩ := h₁.exists_region hfirst
      refine ⟨region, rfl, fun more hmore => ?_⟩
      rw [hregion more hmore]
      rfl
    | none =>
      rw [hfirst] at hsome
      obtain ⟨region, rfl, hregion⟩ := h₂.exists_region hsome
      refine ⟨region, rfl, fun more hmore => ?_⟩
      rw [h₁.eq_none (hR.prepend region hmore) hfirst, hregion more hmore]
      rfl

end BlindTo

theorem afterFirst?_append {after? : List Char → Option (List Char)} {before s : List Char}
    (hs : (after? s).isSome) : (afterFirst? after? (before ++ s)).isSome := by
  induction before with
  | nil =>
    cases s with
    | nil => exact hs
    | cons c s =>
      obtain ⟨rest, hrest⟩ := Option.isSome_iff_exists.1 hs
      rw [List.nil_append, afterFirst?, hrest]
      rfl
  | cons c before ih =>
    rw [List.cons_append, afterFirst?]
    split
    · rfl
    · exact ih

namespace BlindTo

variable {after? : List Char → Option (List Char)}

/-- What is found in the first text is found in the second. -/
theorem isSome_afterFirst? (hR : Keeps P R) (h : BlindTo R after?) (hcs : R cs ds)
    (hsome : (afterFirst? after? cs).isSome) : (afterFirst? after? ds).isSome := by
  obtain ⟨rest, hrest⟩ := Option.isSome_iff_exists.1 hsome
  obtain ⟨before, s, rfl, hs⟩ := exists_of_afterFirst? hrest
  obtain ⟨s, rfl⟩ := h.exists_lessThan hs
  obtain ⟨before', s', rfl, hs'⟩ := hR.exists_cut hcs
  exact afterFirst?_append (h.isSome hs' (Option.isSome_of_eq_some hs))

/-- Whatever text is related to what follows, the same region is taken in front of it. -/
theorem exists_afterFirst? (hR : Keeps P R) (h : BlindTo R after?)
    (hcs : afterFirst? after? cs = some rest) : ∃ region, cs = region ++ rest ∧
      ∀ more, R more rest → afterFirst? after? (region ++ more) = some more := by
  induction cs with
  | nil =>
    rw [afterFirst?, h.nil] at hcs
    cases hcs
  | cons c cs ih =>
    rw [afterFirst?] at hcs
    split at hcs
    · rename_i rest' hfirst
      cases hcs
      obtain ⟨cs, hcons⟩ := h.exists_lessThan hfirst
      cases hcons
      obtain ⟨region, rfl, hregion⟩ := h.exists_region hfirst
      refine ⟨'<' :: region, rfl, fun more hmore => ?_⟩
      rw [List.cons_append, afterFirst?, hregion more hmore]
    · rename_i hfirst
      obtain ⟨region, rfl, hregion⟩ := ih hcs
      refine ⟨c :: region, rfl, fun more hmore => ?_⟩
      have hnone : after? (c :: (region ++ more)) = none := by
        by_cases hc : c = '<'
        · subst hc
          exact h.eq_none (hR.prepend region hmore) hfirst
        · exact h.cons hc
      rw [List.cons_append, afterFirst?, hnone]
      exact hregion more hmore

end BlindTo

/-! ## Comments -/

theorem exists_afterComment? (h : afterComment? ('<' :: cs) = some rest) :
    ∃ inside, cs = '!' :: '-' :: '-' :: inside ∧ ∃ region, inside = region ++ rest ∧
      ∀ more, afterComment? ('<' :: '!' :: '-' :: '-' :: (region ++ more)) = some more := by
  unfold afterComment? at h
  split at h
  · rename_i inside heq
    obtain rfl := (List.cons.inj heq).2
    obtain ⟨⟨before, behind⟩, hsplit, heq⟩ := Option.map_eq_some_iff.1 h
    obtain ⟨after, rfl, hfirst⟩ := exists_splitAtFirst? hsplit
    obtain rfl : after = rest := heq
    obtain rfl := splitWhere?_append hsplit
    refine ⟨_, rfl, before ++ ['-', '-', '>'], by simp, fun more => ?_⟩
    rw [List.append_assoc, afterComment?, hfirst]
    rfl
  · cases h

/-- A comment is taken exactly if it is closed. -/
theorem isSome_afterComment?_iff (cs : List Char) :
    (afterComment? ('<' :: '!' :: '-' :: '-' :: cs)).isSome ↔ ['-', '-', '>'] <:+: cs := by
  rw [afterComment?, Option.isSome_map, isSome_splitAtFirst?_iff]

/-- The marks of a comment are all that is looked at. -/
theorem blindTo_afterComment? (hR : Keeps P R) (hmark : P '!') (hdash : P '-') :
    BlindTo R afterComment? where
  nil := rfl
  cons hc := by
    unfold afterComment?
    split
    · rename_i heq
      exact absurd (List.cons.inj heq).1 hc
    · rfl
  isSome {cs ds} h hcs := by
    obtain ⟨rest, hrest⟩ := Option.isSome_iff_exists.1 hcs
    obtain ⟨inside, rfl, -⟩ := exists_afterComment? hrest
    have hkept : ∀ c ∈ ['!', '-', '-'], P c := by simp [hmark, hdash]
    obtain ⟨inside', rfl, hinside⟩ := hR.exists_append hkept h
    rw [isSome_afterComment?_iff] at hcs
    exact (isSome_afterComment?_iff inside').2 (hR.commentEnd hinside hcs)
  exists_region h := by
    obtain ⟨inside, rfl, region, rfl, hmore⟩ := exists_afterComment? h
    exact ⟨'!' :: '-' :: '-' :: region, rfl, fun more _ => hmore more⟩

/-! ## Elements -/

/-- The letters that count as an s or an i are folded to that letter or to themselves. -/
theorem foldLetter_of_spells {p c : Char} (h : spells p c = true) :
    foldLetter c = p ∨ foldLetter c ∈ ['i', 'ſ', 'ı'] := by
  simp only [spells, Bool.or_eq_true, Bool.and_eq_true, beq_iff_eq] at h
  obtain (rfl | ⟨-, rfl⟩) | ⟨-, rfl | rfl⟩ := h
  · rw [foldLetter]
    split
    · exact .inr List.mem_cons_self
    · exact .inl rfl
  · exact .inr (by decide)
  · exact .inr (by decide)
  · exact .inr (by decide)

theorem exists_spelled? {ps letters : List Char} (h : spelled? ps cs = some (letters, rest)) :
    (∀ c ∈ letters, ∃ p ∈ ps, spells p c = true) ∧
      ∀ more, spelled? ps (letters ++ more) = some (letters, more) := by
  induction ps generalizing cs letters with
  | nil =>
    cases h
    exact ⟨List.forall_mem_nil _, fun more => rfl⟩
  | cons p ps ih =>
    cases cs with
    | nil => cases h
    | cons c cs =>
      rw [spelled?] at h
      split at h
      · rename_i hspells
        obtain ⟨⟨letters', rest'⟩, hletters, heq⟩ := Option.map_eq_some_iff.1 h
        cases heq
        obtain ⟨hnames, hmore⟩ := ih hletters
        refine ⟨List.forall_mem_cons.2 ⟨⟨p, List.mem_cons_self, hspells⟩, fun c hc => ?_⟩, ?_⟩
        · obtain ⟨q, hq, hc⟩ := hnames c hc
          exact ⟨q, List.mem_cons_of_mem p hq, hc⟩
        · intro more
          rw [List.cons_append, spelled?, if_pos hspells, hmore]
          rfl
      · cases h

theorem exists_repeated? {letters : List Char} (h : repeated? letters cs = some rest) :
    ∃ word, cs = word ++ rest ∧ (∀ d ∈ word, ∃ c ∈ letters, foldLetter d = foldLetter c) ∧
      ∀ more, repeated? letters (word ++ more) = some more := by
  induction letters generalizing cs with
  | nil =>
    cases h
    exact ⟨[], rfl, List.forall_mem_nil _, fun more => rfl⟩
  | cons p letters ih =>
    cases cs with
    | nil => cases h
    | cons c cs =>
      rw [repeated?] at h
      split at h
      · rename_i hsame
        obtain ⟨word, rfl, hword, hmore⟩ := ih h
        refine ⟨c :: word, rfl, List.forall_mem_cons.2 ⟨⟨p, List.mem_cons_self, hsame.symm⟩,
          fun d hd => ?_⟩, fun more => ?_⟩
        · obtain ⟨q, hq, hd⟩ := hword d hd
          exact ⟨q, List.mem_cons_of_mem p hq, hd⟩
        · rw [List.cons_append, repeated?, if_pos hsame, hmore]
      · cases h

theorem tagEnd?_append {gap : List Char} (h : AreBlank gap) (rest : List Char) :
    tagEnd? (gap ++ '>' :: rest) = some rest := by
  have hclose : isBlank '>' = false := by decide
  rw [tagEnd?, skipBlanks_append h, skipBlanks, List.dropWhile_cons_of_neg (by simp [hclose])]
  rfl

theorem exists_tagEnd? (h : tagEnd? cs = some rest) :
    ∃ gap, AreBlank gap ∧ cs = gap ++ '>' :: rest := by
  obtain ⟨gap, hgap, hcs⟩ := exists_skipBlanks cs
  refine ⟨gap, hgap, ?_⟩
  unfold tagEnd? at h
  split at h
  · rename_i heq
    cases h
    rw [← heq, hcs]
  · cases h

/-- An end tag is a slash, the letters of its name and a bracket, with blanks before it. -/
theorem exists_endTag? {letters : List Char} (h : endTag? letters ('<' :: cs) = some rest) :
    ∃ inside, cs = '/' :: inside ∧ (repeated? letters inside).bind tagEnd? = some rest := by
  unfold endTag? at h
  split at h
  · rename_i inside heq
    exact ⟨inside, (List.cons.inj heq).2, h⟩
  · cases h

/-- The letters of an end tag are all that is looked at. -/
theorem blindTo_endTag? (hR : Keeps P R) (hslash : P '/') {letters : List Char}
    (hletters : ∀ c ∈ letters, ∀ d, foldLetter d = foldLetter c → P d) :
    BlindTo R (endTag? letters) where
  nil := rfl
  cons hc := by
    unfold endTag?
    split
    · rename_i heq
      exact absurd (List.cons.inj heq).1 hc
    · rfl
  isSome {cs ds} h hcs := by
    obtain ⟨rest, hrest⟩ := Option.isSome_iff_exists.1 hcs
    obtain ⟨inside, rfl, hinside⟩ := exists_endTag? hrest
    obtain ⟨left, hrepeated, hend⟩ := Option.bind_eq_some_iff.1 hinside
    obtain ⟨word, rfl, hword, hmore⟩ := exists_repeated? hrepeated
    have hkept : ∀ c ∈ '/' :: word, P c := List.forall_mem_cons.2 ⟨hslash, fun d hd => by
      obtain ⟨c, hc, hsame⟩ := hword d hd
      exact hletters c hc d hsame⟩
    obtain ⟨left', rfl, hleft⟩ := hR.exists_append hkept h
    rw [List.cons_append, endTag?, hmore, Option.bind_some]
    exact hR.tagEnd hleft (Option.isSome_of_eq_some hend)
  exists_region {cs rest} h := by
    obtain ⟨inside, rfl, hinside⟩ := exists_endTag? h
    obtain ⟨left, hrepeated, hend⟩ := Option.bind_eq_some_iff.1 hinside
    obtain ⟨word, rfl, -, hmore⟩ := exists_repeated? hrepeated
    obtain ⟨gap, hgap, rfl⟩ := exists_tagEnd? hend
    refine ⟨'/' :: (word ++ gap ++ ['>']), by simp, fun more _ => ?_⟩
    have hshape : '<' :: ('/' :: (word ++ gap ++ ['>']) ++ more) =
        '<' :: '/' :: (word ++ (gap ++ '>' :: more)) := by simp
    rw [hshape, endTag?, hmore, Option.bind_some, tagEnd?_append hgap]

theorem afterElement?_lessThan {name : String} {letters left : List Char}
    (hspelled : spelled? name.toList cs = some (letters, left)) :
    afterElement? name ('<' :: cs) =
      if endsWord left then afterFirst? (endTag? letters) left else none := by
  rw [afterElement?, hspelled]

/-- An element begins with its name and goes up to the first end tag that repeats it. -/
theorem exists_afterElement? {name : String} (h : afterElement? name ('<' :: cs) = some rest) :
    ∃ letters left, spelled? name.toList cs = some (letters, left) ∧ endsWord left = true ∧
      afterFirst? (endTag? letters) left = some rest := by
  cases hspelled : spelled? name.toList cs with
  | none =>
    rw [afterElement?, hspelled] at h
    cases h
  | some found =>
    obtain ⟨letters, left⟩ := found
    rw [afterElement?_lessThan hspelled] at h
    split at h
    · exact ⟨letters, left, rfl, ‹_›, h⟩
    · cases h

/-- An element is found alike if its name is, in its start tag and where an end tag repeats it. -/
theorem blindTo_afterElement? (hR : Keeps P R) (hslash : P '/') {name : String}
    (hname : ∀ p ∈ name.toList, ∀ c d, spells p c = true → foldLetter d = foldLetter c → P d) :
    BlindTo R (afterElement? name) where
  nil := rfl
  cons hc := by
    unfold afterElement?
    split
    · rename_i heq
      exact absurd (List.cons.inj heq).1 hc
    · rfl
  isSome {cs ds} h hcs := by
    obtain ⟨rest, hrest⟩ := Option.isSome_iff_exists.1 hcs
    obtain ⟨letters, left, hspelled, hword, hfirst⟩ := exists_afterElement? hrest
    obtain ⟨hletters, hmore⟩ := exists_spelled? hspelled
    have hkept : ∀ c ∈ letters, ∀ d, foldLetter d = foldLetter c → P d := fun c hc d => by
      obtain ⟨p, hp, hspells⟩ := hletters c hc
      exact hname p hp c d hspells
    obtain rfl := spelled?_append hspelled
    obtain ⟨left', rfl, hleft⟩ := hR.exists_append (fun c hc => hkept c hc c rfl) h
    rw [afterElement?_lessThan (hmore left'), ← hR.endsWord_eq hleft, if_pos hword]
    exact (blindTo_endTag? hR hslash hkept).isSome_afterFirst? hR hleft
      (Option.isSome_of_eq_some hfirst)
  exists_region {cs rest} h := by
    obtain ⟨letters, left, hspelled, hword, hfirst⟩ := exists_afterElement? h
    obtain ⟨hletters, hmore⟩ := exists_spelled? hspelled
    have hkept : ∀ c ∈ letters, ∀ d, foldLetter d = foldLetter c → P d := fun c hc d => by
      obtain ⟨p, hp, hspells⟩ := hletters c hc
      exact hname p hp c d hspells
    obtain rfl := spelled?_append hspelled
    obtain ⟨region, rfl, hregion⟩ := (blindTo_endTag? hR hslash hkept).exists_afterFirst? hR hfirst
    refine ⟨letters ++ region, by simp, fun more hmore' => ?_⟩
    rw [List.append_assoc, afterElement?_lessThan (hmore _),
      hR.endsWord_eq (hR.prepend region hmore'), if_pos hword]
    exact hregion more hmore'

end Stencil.Markup
