import Stencil.Markup.Minify
import Stencil.Proofs.Markup.Recognisers
import Stencil.Proofs.Text.Ink

/-!
# Regions of respaced texts

A comment, a tag, an element that keeps its blanks and a region between braces are each found at the
front of a text by reading up to an end mark. Two things are shown of each. What is found does not
depend on what follows it, and whether it is found does not depend on the number and the kind of the
blanks that follow: of two texts of the same ink either both have it or none.
-/

namespace Stencil

open Text

/-! ## Braces -/

namespace Braces

variable {cs ds region rest : List Char}

/-- A region ends where it ends whatever follows it. -/
theorem split?_region (h : split? cs = some (region, rest)) (more : List Char) :
    split? (region ++ more) = some (region, more) := by
  obtain ⟨n, hn, heq⟩ := Option.map_eq_some_iff.1 h
  cases heq
  have hle := closing_le hn
  have hlength : (cs.take n).length = n := List.length_take_of_le hle
  have hmore : closing ['{'] ['}'] 2 (cs.take n ++ more) = some n := by
    rw [closing_eq_some_iff (by decide) (by decide)] at hn ⊢
    obtain ⟨-, hdepth, hbefore⟩ := hn
    have htake (m : Nat) (hm : m ≤ n) : (cs.take n ++ more).take m = cs.take m := by
      rw [List.take_append_of_le_length (by omega), List.take_take, Nat.min_eq_left hm]
    refine ⟨by rw [List.length_append]; omega, by rw [htake n (Nat.le_refl n)]; exact hdepth, ?_⟩
    intro m hm
    rw [htake m (Nat.le_of_lt hm)]
    exact hbefore m hm
  rw [split?, hmore, Option.map_some, List.take_left' hlength, List.drop_left' hlength]

/-- Blanks do not count in the search for the end of a region. -/
theorem isSome_closing_ink (depth : Int) (cs : List Char) :
    (closing ['{'] ['}'] depth (ink cs)).isSome =
      (closing ['{'] ['}'] depth cs).isSome := by
  induction cs generalizing depth with
  | nil => rfl
  | cons c cs ih =>
    by_cases hdepth : depth = 0
    · rw [hdepth, closing_zero, closing_zero]
    · rw [closing_cons (by decide) hdepth, Option.isSome_map]
      cases hc : isBlank c with
      | true =>
        have hother : c ≠ '{' ∧ c ≠ '}' := by
          constructor <;> rintro rfl <;> exact absurd hc (by decide)
        rw [ink_cons_of_blank hc, ih, excess_other hother.1 hother.2, Int.sub_zero]
      | false =>
        rw [ink_cons_of_ink hc, closing_cons (by decide) hdepth, Option.isSome_map, ih]

theorem split?_eq_none_iff (h : Respaced cs ds) : split? cs = none ↔ split? ds = none := by
  have hsome := isSome_closing_ink 2 cs
  rw [h.ink_eq, isSome_closing_ink 2 ds] at hsome
  rw [split?, split?, Option.map_eq_none_iff, Option.map_eq_none_iff, ← Option.not_isSome_iff_eq_none,
    ← Option.not_isSome_iff_eq_none, hsome]

end Braces

namespace Markup

variable {cs ds rest : List Char}

/-! ## Tags and comments -/

theorem tagRest?_cons {c : Char} (hclose : c ≠ '>') (hdouble : c ≠ '"') (hsingle : c ≠ '\'')
    (cs : List Char) : tagRest? (c :: cs) = tagRest? cs := by
  rw [tagRest?, if_neg (by simp [hdouble, hsingle])]
  exact hclose

/-- What stands between quotes does not end a tag. -/
theorem tagRest?_quote {quote : Char} {before : List Char} (hquote : quote = '"' ∨ quote = '\'')
    (h : quote ∉ before) (rest : List Char) :
    tagRest? (quote :: (before ++ quote :: rest)) = tagRest? rest := by
  have hsplit := splitAtFirst?_singleton h rest
  rw [tagRest?, if_pos hquote]
  · split <;> rename_i heq
    · cases hsplit.symm.trans heq
      rfl
    · cases hsplit.symm.trans heq
  · obtain rfl | rfl := hquote <;> simp

/-- A quote that is never closed keeps a tag from ending. -/
theorem tagRest?_open {quote : Char} (hquote : quote = '"' ∨ quote = '\'') (h : quote ∉ cs) :
    tagRest? (quote :: cs) = none := by
  have hsplit := splitAtFirst?_eq_none h []
  rw [tagRest?, if_pos hquote]
  · split <;> rename_i heq
    · cases hsplit.symm.trans heq
    · rfl
  · obtain rfl | rfl := hquote <;> simp

/-- The attributes and the end of a tag, read one by one: a quoted value is passed as a whole. -/
theorem tagRest?_induction {P : List Char → Prop} (nil : P []) (close : ∀ cs, P ('>' :: cs))
    (quoted : ∀ quote before rest, quote = '"' ∨ quote = '\'' → quote ∉ before → P rest →
      P (quote :: (before ++ quote :: rest)))
    (unclosed : ∀ quote cs, quote = '"' ∨ quote = '\'' → quote ∉ cs → P (quote :: cs))
    (other : ∀ c cs, c ≠ '>' → c ≠ '"' → c ≠ '\'' → P cs → P (c :: cs)) (cs : List Char) : P cs := by
  induction hlength : cs.length using Nat.strongRecOn generalizing cs with
  | ind n ih =>
    subst hlength
    cases cs with
    | nil => exact nil
    | cons c cs =>
      by_cases hclose : c = '>'
      · exact hclose ▸ close cs
      · by_cases hquote : c = '"' ∨ c = '\''
        · by_cases hmem : c ∈ cs
          · obtain ⟨before, rest, rfl, hbefore⟩ := List.eq_append_cons_of_mem hmem
            exact quoted c before rest hquote hbefore (ih rest.length (by simp; omega) rest rfl)
          · exact unclosed c cs hquote hmem
        · rw [not_or] at hquote
          exact other c cs hclose hquote.1 hquote.2 (ih cs.length (by simp) cs rfl)

theorem exists_tagRest? (h : tagRest? cs = some rest) :
    ∃ region, cs = region ++ rest ∧ ∀ more, tagRest? (region ++ more) = some more := by
  induction cs using tagRest?_induction with
  | nil => simp [tagRest?] at h
  | close cs =>
    rw [tagRest?] at h
    cases h
    exact ⟨['>'], rfl, fun more => by rw [List.singleton_append, tagRest?]⟩
  | quoted quote before rest' hquote hbefore ih =>
    rw [tagRest?_quote hquote hbefore] at h
    obtain ⟨region, rfl, hregion⟩ := ih h
    refine ⟨quote :: (before ++ quote :: region), by simp, fun more => ?_⟩
    have hshape : quote :: (before ++ quote :: region) ++ more =
        quote :: (before ++ quote :: (region ++ more)) := by simp
    rw [hshape, tagRest?_quote hquote hbefore, hregion]
  | unclosed quote cs hquote hmem =>
    rw [tagRest?_open hquote hmem] at h
    cases h
  | other c cs hclose hdouble hsingle ih =>
    rw [tagRest?_cons hclose hdouble hsingle] at h
    obtain ⟨region, rfl, hregion⟩ := ih h
    refine ⟨c :: region, rfl, fun more => ?_⟩
    rw [List.cons_append, tagRest?_cons hclose hdouble hsingle, hregion]

/-- Blanks do not decide whether a tag ends. -/
theorem isSome_tagRest?_ink (cs : List Char) :
    (tagRest? (ink cs)).isSome = (tagRest? cs).isSome := by
  have hmark {c : Char} (hc : c = '"' ∨ c = '\'') : isBlank c = false := by
    obtain rfl | rfl := hc <;> decide
  have hclose : isBlank '>' = false := by decide
  have hgone {c : Char} {cs : List Char} (hc : c ∉ cs) : c ∉ ink cs :=
    fun hmem => hc (mem_ink_iff.1 hmem).1
  induction cs using tagRest?_induction with
  | nil => rfl
  | close cs =>
    rw [ink_cons_of_ink hclose, tagRest?, tagRest?]
    rfl
  | quoted quote before rest hquote hbefore ih =>
    rw [ink_cons_of_ink (hmark hquote), ink_append, ink_cons_of_ink (hmark hquote),
      tagRest?_quote hquote (hgone hbefore), tagRest?_quote hquote hbefore, ih]
  | unclosed quote cs hquote hmem =>
    rw [ink_cons_of_ink (hmark hquote), tagRest?_open hquote (hgone hmem),
      tagRest?_open hquote hmem]
  | other c cs hclose hdouble hsingle ih =>
    rw [tagRest?_cons hclose hdouble hsingle, ← ih]
    cases hc : isBlank c with
    | true => rw [ink_cons_of_blank hc]
    | false => rw [ink_cons_of_ink hc, tagRest?_cons hclose hdouble hsingle]

theorem isSome_tagRest? (h : Respaced cs ds) : (tagRest? cs).isSome = (tagRest? ds).isSome := by
  rw [← isSome_tagRest?_ink cs, h.ink_eq, isSome_tagRest?_ink ds]

/-! ## Recognisers -/

/-- Whether a word is continued is told by the character that touches it. -/
theorem endsWord_eq (cs : List Char) : endsWord cs = match spacedFrom false cs with
    | (false, c) :: _ => !isWord c
    | _ => true := by
  cases cs with
  | nil => rfl
  | cons c cs =>
    cases hc : isBlank c with
    | false =>
      rw [spacedFrom_cons_of_ink hc]
      rfl
    | true =>
      have hword := of_isBlank (P := fun c => isWord c = false) hc (by decide +kernel)
      rw [endsWord, hword, spacedFrom_cons_of_blank hc, spacedFrom_true false]
      split
      · rename_i heq
        split at heq
        · cases heq
        · obtain ⟨hfirst, -⟩ := List.cons.inj heq
          obtain ⟨hsign, rfl⟩ := Prod.mk.inj hfirst
          rw [bne_eq_false_iff_eq] at hsign
          rw [hsign]
          decide +kernel
      · rfl

/-- Other blanks keep what touches, and the less-than signs. -/
theorem keeps_respaced : Keeps (fun c => isBlank c = false ∧ c ≠ '<') Respaced where
  prepend front _ _ h := h.prepend front
  append_lessThan h h' := h.append_lessThan (h'.prepend ['<'])
  exists_cut h := by
    obtain ⟨before', ds', heq, -, hds'⟩ := h.exists_cut isBlank_lessThan
    exact ⟨before', ds', heq, hds'⟩
  exists_append hword h := h.exists_append _ hword
  endsWord_eq h := by rw [endsWord_eq, endsWord_eq, h]
  commentEnd h := (h.infix_iff (by decide) (forall_mem_of_all (by decide))).1
  tagEnd h hsome := by
    obtain ⟨rest, hrest⟩ := Option.isSome_iff_exists.1 hsome
    obtain ⟨gap, hgap, rfl⟩ := exists_tagEnd? hrest
    obtain ⟨gap', rest', rfl, hgap', -⟩ := h.exists_cut (by decide)
    rw [tagEnd?_append (hgap'.areBlank hgap)]
    rfl

/-- The recogniser takes what starts with a less-than sign, and it does not see how the text behind
is spaced. -/
structure Blind (after? : List Char → Option (List Char)) : Prop where
  nil : after? [] = none
  cons : ∀ {c cs}, c ≠ '<' → after? (c :: cs) = none
  isSome : ∀ {cs ds}, Respaced cs ds → (after? ('<' :: cs)).isSome → (after? ('<' :: ds)).isSome
  exists_region : ∀ {cs rest}, after? ('<' :: cs) = some rest → ∃ region, cs = region ++ rest ∧
    ∀ more, Respaced rest more → after? ('<' :: (region ++ more)) = some more

theorem blind_iff_blindTo {after? : List Char → Option (List Char)} :
    Blind after? ↔ BlindTo Respaced after? := by
  constructor
  · intro h
    refine ⟨h.nil, h.cons, h.isSome, fun hcs => ?_⟩
    obtain ⟨region, heq, hmore⟩ := h.exists_region hcs
    exact ⟨region, heq, fun more hrest => hmore more hrest.symm⟩
  · intro h
    refine ⟨h.nil, h.cons, h.isSome, fun hcs => ?_⟩
    obtain ⟨region, heq, hmore⟩ := h.exists_region hcs
    exact ⟨region, heq, fun more hrest => hmore more hrest.symm⟩

namespace Blind

variable {after? after₁? after₂? : List Char → Option (List Char)}

theorem blindTo (h : Blind after?) : BlindTo Respaced after? :=
  blind_iff_blindTo.1 h

theorem eq_none_iff (h : Blind after?) (hcs : Respaced cs ds) :
    after? ('<' :: cs) = none ↔ after? ('<' :: ds) = none :=
  ⟨h.blindTo.eq_none hcs.symm, h.blindTo.eq_none hcs⟩

/-- A region is found also when the text behind it is respaced. -/
theorem region {region more : List Char} (h : Blind after?)
    (hregion : after? ('<' :: (region ++ rest)) = some rest) (hrest : Respaced rest more) :
    after? ('<' :: (region ++ more)) = some more :=
  h.blindTo.region hregion hrest.symm

theorem orElse (h₁ : Blind after₁?) (h₂ : Blind after₂?) :
    Blind fun cs => (after₁? cs).orElse fun _ => after₂? cs :=
  blind_iff_blindTo.2 (h₁.blindTo.orElse keeps_respaced h₂.blindTo)

end Blind

theorem blind_afterComment? : Blind afterComment? :=
  blind_iff_blindTo.2 (blindTo_afterComment? keeps_respaced (by decide) (by decide))

/-- The text after a tag, or after what is written like one. -/
def afterBrackets? : List Char → Option (List Char)
  | '<' :: c :: cs => if c.isAlpha || c == '/' || c == '!' || c == '?' then tagRest? cs else none
  | _ => none

/-- What opens a tag touches the less-than sign. -/
theorem touches_of_opens {c : Char} (h : (c.isAlpha || c == '/' || c == '!' || c == '?') = true) :
    isBlank c = false ∧ c ≠ '<' := by
  constructor
  · cases hc : isBlank c with
    | false => rfl
    | true =>
      have hnot := of_isBlank (P := fun c => (c.isAlpha || c == '/' || c == '!' || c == '?') = false)
        hc (by decide +kernel)
      rw [h] at hnot
      cases hnot
  · rintro rfl
    cases h

theorem blind_afterBrackets? : Blind afterBrackets? where
  nil := rfl
  cons hc := by
    unfold afterBrackets?
    split
    · rename_i heq
      exact absurd (List.cons.inj heq).1 hc
    · rfl
  isSome {cs ds} h hcs := by
    unfold afterBrackets? at hcs
    split at hcs
    · rename_i c cs heq
      obtain rfl := (List.cons.inj heq).2
      split at hcs
      · rename_i hopens
        obtain ⟨ds, rfl, hds⟩ :=
          h.exists_append [c] (by simpa using touches_of_opens hopens)
        rw [List.singleton_append, afterBrackets?, if_pos hopens, ← isSome_tagRest? hds]
        exact hcs
      · cases hcs
    · cases hcs
  exists_region {cs rest} h := by
    unfold afterBrackets? at h
    split at h
    · rename_i c cs heq
      obtain rfl := (List.cons.inj heq).2
      split at h
      · rename_i hopens
        obtain ⟨region, rfl, hregion⟩ := exists_tagRest? h
        refine ⟨c :: region, rfl, fun more _ => ?_⟩
        rw [List.cons_append, afterBrackets?, if_pos hopens, hregion]
      · cases h
    · cases h

/-- Blanks decide nothing about tags and comments. -/
theorem blind_afterTagLike? : Blind afterTagLike? :=
  blind_afterComment?.orElse blind_afterBrackets?

/-! ## Elements -/

/-- The letters of a name touch the less-than sign and one another, also where an end tag repeats
them. -/
def IsNameLetter (c : Char) : Prop :=
  isBlank (foldLetter c) = false ∧ foldLetter c ≠ '<'

instance : DecidablePred IsNameLetter :=
  fun _ => inferInstanceAs (Decidable (_ ∧ _))

/-- The letters of a name are no blanks and no less-than signs. -/
theorem IsNameLetter.touches {c : Char} (h : IsNameLetter c) : isBlank c = false ∧ c ≠ '<' := by
  constructor
  · cases hc : isBlank c with
    | false => rfl
    | true =>
      have hfold := of_isBlank (P := fun c => isBlank (foldLetter c) = true) hc (by decide +kernel)
      rw [h.1] at hfold
      cases hfold
  · rintro rfl
    exact h.2 rfl

theorem isNameLetter_of_spells {p c : Char} (hp : p.isLower = true) (h : spells p c = true) :
    IsNameLetter c := by
  have hlower : isBlank p = false ∧ p ≠ '<' := by
    constructor
    · cases hblank : isBlank p with
      | false => rfl
      | true =>
        have hnot := of_isBlank (P := fun c => c.isLower = false) hblank (by decide +kernel)
        rw [hp] at hnot
        cases hnot
    · rintro rfl
      cases hp
  obtain hfold | hfold := foldLetter_of_spells h
  · rw [IsNameLetter, hfold]
    exact hlower
  · have hodd : ∀ d ∈ ['i', 'ſ', 'ı'], isBlank d = false ∧ d ≠ '<' :=
      forall_mem_of_all (by decide)
    exact hodd _ hfold

/-- Nor do they decide about elements that keep their content. -/
theorem blind_afterElement? {name : String} (hname : ∀ p ∈ name.toList, p.isLower = true) :
    Blind (afterElement? name) := by
  refine blind_iff_blindTo.2 (blindTo_afterElement? keeps_respaced (by decide) ?_)
  intro p hp c d hspells hsame
  have hc := isNameLetter_of_spells (hname p hp) hspells
  have hd : IsNameLetter d := by
    rw [IsNameLetter, hsame]
    exact hc
  exact hd.touches

/-- Of blind recognisers the first one that takes something is blind. -/
theorem Blind.findSome? {ι : Type} {after? : ι → List Char → Option (List Char)} {is : List ι}
    (h : ∀ i ∈ is, Blind (after? i)) : Blind fun cs => is.findSome? fun i => after? i cs := by
  induction is with
  | nil => exact ⟨rfl, fun _ => rfl, fun _ hsome => (by cases hsome), fun hsome => (by cases hsome)⟩
  | cons i is ih =>
    obtain ⟨hi, his⟩ := List.forall_mem_cons.1 h
    have heq : (fun cs => (i :: is).findSome? fun i => after? i cs) =
        fun cs => (after? i cs).orElse fun _ => is.findSome? fun i => after? i cs := by
      funext cs
      rw [List.findSome?_cons]
      cases after? i cs <;> rfl
    rw [heq]
    exact hi.orElse (ih his)

/-- Elements that keep their blanks are found alike in respaced texts. -/
theorem blind_afterPreserved? : Blind afterPreserved? :=
  Blind.findSome? fun name hname => blind_afterElement? <| by
    simp only [List.mem_cons, List.not_mem_nil, or_false] at hname
    obtain rfl | rfl | rfl | rfl := hname <;> exact forall_mem_of_all (by decide)

end Markup

end Stencil
