import Stencil.Proofs.Markup.Regions
import Stencil.Proofs.Text.Collapse
import Stencil.Proofs.Text.Search

/-!
# Open text and its parts

`Cut` says of parts that they are the ones into which the text that they make up is cut: a tag and a
directive end where they are found to end, an open directive reaches to the end of the text, and
text runs up to the next tag or directive. A part stays one of the cut when the text behind it is
respaced, and so does text of which the blanks are collapsed.
-/

namespace Stencil.Markup

open Text

def Part.chars : Part → List Char
  | .tag cs => cs
  | .directive cs => cs
  | .text cs => cs

def joined (ps : List Part) : List Char :=
  ps.flatMap Part.chars

/-- No tag and no directive begins in the text when `rest` stands behind it. -/
def Unstopped (cs rest : List Char) : Prop :=
  ∀ s, s <:+ cs → s ≠ [] → stopsText (s ++ rest) = false

/-- The part is cut off the front of the text that it makes up with `rest` behind it. -/
inductive Fits : Part → List Char → Prop
  | directive {region rest : List Char} (h : Braces.split? (region ++ rest) = some (region, rest)) :
    Fits (.directive ('{' :: '{' :: region)) rest
  | openDirective {cs : List Char} (h : Braces.split? cs = none) :
    Fits (.directive ('{' :: '{' :: cs)) []
  | tag {cs rest : List Char} (h : afterTagLike? ('<' :: (cs ++ rest)) = some rest) :
    Fits (.tag ('<' :: cs)) rest
  | sign {cs rest : List Char} (hnone : afterTagLike? ('<' :: (cs ++ rest)) = none)
    (h : Unstopped cs rest) (hrest : rest = [] ∨ stopsText rest = true) :
    Fits (.text ('<' :: cs)) rest
  | text {c : Char} {cs rest : List Char} (h : Unstopped (c :: cs) rest)
    (hrest : rest = [] ∨ stopsText rest = true) : Fits (.text (c :: cs)) rest

/-- The parts are those of the text that they make up. -/
inductive Cut : List Part → Prop
  | nil : Cut []
  | cons {p : Part} {ps : List Part} (h : Fits p (joined ps)) (hps : Cut ps) : Cut (p :: ps)

variable {c : Char} {cs ds rest more gap : List Char} {p : Part} {ps qs : List Part}

@[simp]
theorem joined_nil : joined [] = [] := rfl

@[simp]
theorem joined_cons (p : Part) (ps : List Part) : joined (p :: ps) = p.chars ++ joined ps :=
  List.flatMap_cons

theorem Fits.exists_cons (h : Fits p rest) : ∃ c cs, p.chars = c :: cs := by
  cases h <;> exact ⟨_, _, rfl⟩

theorem suffix_append_cases {s : List Char} (h : s <:+ gap ++ cs) :
    s <:+ cs ∨ ∃ front, front <:+ gap ∧ front ≠ [] ∧ s = front ++ cs := by
  obtain ⟨before, heq⟩ := h
  obtain ⟨front, rfl, rfl⟩ | ⟨front, rfl, rfl⟩ := List.append_eq_append_iff.1 heq
  · by_cases hfront : front = []
    · exact .inl (by simp [hfront])
    · exact .inr ⟨front, List.suffix_append .., hfront, rfl⟩
  · exact .inl (List.suffix_append ..)

/-! ## Cutting -/

/-- Text stops at a less-than sign or at two opening braces. -/
theorem stopsText_cons (c : Char) (cs : List Char) :
    stopsText (c :: cs) = true ↔ c = '<' ∨ c = '{' ∧ cs.head? = some '{' := by
  have hhead : ['{'] <+: cs ↔ cs.head? = some '{' := by
    cases cs <;> simp [List.cons_prefix_cons, @eq_comm _ '{']
  rw [stopsText, Bool.or_eq_true, List.isPrefixOf_iff_prefix, List.cons_prefix_cons, hhead, or_comm]
  simp [@eq_comm _ '{']

theorem stopsText_append (h : stopsText cs = true) (ds : List Char) :
    stopsText (cs ++ ds) = true := by
  cases cs with
  | nil => cases h
  | cons c cs =>
    rw [List.cons_append, stopsText_cons]
    rw [stopsText_cons] at h
    refine h.imp_right fun ⟨hbrace, hhead⟩ => ⟨hbrace, ?_⟩
    rw [List.head?_append, hhead]
    rfl

/-- A text that is not stopped ends where the next part begins, or at the brace of a pair that meets
it. -/
theorem Unstopped.splitWhere? (h : Unstopped cs rest) (hrest : rest = [] ∨ stopsText rest = true) :
    splitWhere? stopsText (cs ++ rest) = some (cs, rest) ∨
      splitWhere? stopsText (cs ++ rest) = none ∧ rest = [] := by
  rw [splitWhere?_of_forall h]
  obtain rfl | hrest := hrest
  · exact .inr ⟨rfl, rfl⟩
  · rw [splitWhere?_self hrest]
    simp

/-- A part that fits is the one that is cut off. What follows its first character goes up to the
next stop. -/
theorem Fits.partAt (h : Fits p rest) (hp : p.chars = c :: cs) :
    ∃ kind, p = kind (c :: cs) ∧ Markup.partAt c (cs ++ rest) = (kind, cs.length) := by
  cases h with
  | @directive region _ h =>
    obtain ⟨rfl, rfl⟩ := List.cons.inj hp
    refine ⟨.directive, rfl, ?_⟩
    simp [Markup.partAt, h, Nat.add_comm]
  | @openDirective cs h =>
    obtain ⟨rfl, rfl⟩ := List.cons.inj hp
    exact ⟨.directive, rfl, by simp [Markup.partAt, h]⟩
  | tag h =>
    obtain ⟨rfl, rfl⟩ := List.cons.inj hp
    refine ⟨.tag, rfl, ?_⟩
    simp [Markup.partAt, List.isPrefixOf, h]
  | sign hnone h hrest =>
    obtain ⟨rfl, rfl⟩ := List.cons.inj hp
    refine ⟨.text, rfl, ?_⟩
    obtain hsplit | ⟨hsplit, rfl⟩ := h.splitWhere? hrest
    · simp [Markup.partAt, List.isPrefixOf, hnone, hsplit]
    · rw [List.append_nil] at hnone hsplit
      simp [Markup.partAt, List.isPrefixOf, hnone, hsplit]
  | @text d ds _ h hrest =>
    obtain ⟨rfl, rfl⟩ := List.cons.inj hp
    refine ⟨.text, rfl, ?_⟩
    have hfirst := h _ (List.suffix_refl _) (by simp)
    rw [List.cons_append, stopsText, Bool.or_eq_false_iff] at hfirst
    have hsign : d ≠ '<' := by simpa using hfirst.2
    have hlater : Unstopped ds rest := fun s hs => h s (hs.trans (List.suffix_cons d ds))
    obtain hsplit | ⟨hsplit, rfl⟩ := hlater.splitWhere? hrest
    · simp [Markup.partAt, hfirst.1, hsign, hsplit]
    · simp only [List.append_nil] at hfirst hsplit ⊢
      simp [Markup.partAt, hfirst.1, hsign, hsplit]

theorem parts_of_fits (h : Fits p rest) : parts (p.chars ++ rest) = p :: parts rest := by
  obtain ⟨c, cs, hp⟩ := h.exists_cons
  obtain ⟨kind, rfl, hpart⟩ := h.partAt hp
  rw [hp, List.cons_append, parts, hpart]
  simp

/-- The parts of a text come back when it is cut again. -/
theorem parts_joined (h : Cut ps) : parts (joined ps) = ps := by
  induction h with
  | nil => rw [joined_nil, parts]
  | cons hfits _ ih => rw [joined_cons, parts_of_fits hfits, ih]

/-- Every text has a part at its front. A text takes what follows its first character, up to the
next stop. -/
theorem exists_fits (c : Char) (cs : List Char) :
    ∃ p rest, c :: cs = p.chars ++ rest ∧ Fits p rest := by
  by_cases hdirective : c = '{' ∧ cs.head? = some '{'
  · obtain ⟨rfl, hhead⟩ := hdirective
    obtain ⟨cs, rfl⟩ := List.head?_eq_some_iff.1 hhead
    cases hsplit : Braces.split? cs with
    | none => exact ⟨_, [], by simp [Part.chars], .openDirective hsplit⟩
    | some found =>
      obtain ⟨region, rest⟩ := found
      obtain rfl := Braces.split?_append hsplit
      exact ⟨_, rest, rfl, .directive hsplit⟩
  · obtain ⟨before, rest, rfl, hbefore, hrest⟩ :
        ∃ before rest, cs = before ++ rest ∧ Unstopped before rest ∧
          (rest = [] ∨ stopsText rest = true) := by
      cases hsplit : splitWhere? stopsText cs with
      | none =>
        refine ⟨cs, [], by simp, fun s hs _ => ?_, .inl rfl⟩
        rw [List.append_nil, forall_of_splitWhere?_eq_none hsplit s hs]
      | some found =>
        obtain ⟨before, rest⟩ := found
        obtain ⟨hrest, hbefore⟩ := forall_of_splitWhere? hsplit
        exact ⟨before, rest, (splitWhere?_append hsplit).symm, hbefore, .inr hrest⟩
    by_cases hc : c = '<'
    · subst hc
      cases htag : afterTagLike? ('<' :: (before ++ rest)) with
      | none => exact ⟨_, rest, rfl, .sign htag hbefore hrest⟩
      | some rest' =>
        obtain ⟨region, heq, -⟩ := blind_afterTagLike?.exists_region htag
        rw [heq] at htag ⊢
        exact ⟨_, rest', rfl, .tag htag⟩
    · refine ⟨_, rest, rfl, .text (c := c) ?_ hrest⟩
      intro s hs hne
      obtain rfl | hs := List.suffix_cons_iff.1 hs
      · rw [List.cons_append, ← Bool.not_eq_true, stopsText_cons]
        exact fun hstop => hstop.elim hc hdirective
      · exact hbefore s hs hne

/-- A text is cut into its parts. -/
theorem cut_parts (cs : List Char) : Cut (parts cs) ∧ joined (parts cs) = cs := by
  induction hlength : cs.length using Nat.strongRecOn generalizing cs with
  | ind n ih =>
    subst hlength
    cases cs with
    | nil =>
      rw [parts]
      exact ⟨.nil, rfl⟩
    | cons c cs =>
      obtain ⟨p, rest, heq, hfits⟩ := exists_fits c cs
      obtain ⟨d, ds, hp⟩ := hfits.exists_cons
      have hshorter : rest.length < (c :: cs).length := by
        rw [heq, hp, List.length_append, List.length_cons]
        omega
      obtain ⟨hcut, hjoined⟩ := ih rest.length hshorter rest rfl
      rw [heq, parts_of_fits hfits]
      refine ⟨.cons (by rwa [hjoined]) hcut, ?_⟩
      rw [joined_cons, hjoined]

/-! ## Parts of respaced texts -/

/-- Blanks stop no text. The brace behind touches this one in both texts. Two braces that touch in
one of the texts touch in both. -/
theorem Unstopped.respaced (h : Unstopped cs rest) (hcs : Respaced cs ds)
    (hall : Respaced (cs ++ rest) (ds ++ more)) : Unstopped ds more := by
  rintro s ⟨before, rfl⟩ hne
  obtain ⟨c, s, rfl⟩ := List.exists_cons_of_ne_nil hne
  rw [List.cons_append, ← Bool.not_eq_true, stopsText_cons]
  intro hstop
  have hc : isBlank c = false := by
    obtain rfl | ⟨rfl, -⟩ := hstop <;> decide
  obtain ⟨before', s', rfl, hbefore, hs⟩ := hcs.symm.exists_cut hc
  have hgo := h (c :: s') (List.suffix_append ..) (by simp)
  rw [List.cons_append, ← Bool.not_eq_true, stopsText_cons] at hgo
  refine hgo (hstop.imp_right fun ⟨hbrace, hhead⟩ => ⟨hbrace, ?_⟩)
  obtain ⟨more', hmore⟩ := List.head?_eq_some_iff.1 hhead
  have hbehind : Respaced (s' ++ rest) (['{'] ++ more') := by
    rw [List.append_assoc, List.append_assoc, List.cons_append, List.cons_append, hmore] at hall
    exact hall.cancel hbefore.symm hc
  obtain ⟨rest', hrest', -⟩ := hbehind.symm.exists_append ['{'] (forall_mem_of_all (by decide))
  rw [hrest']
  rfl

/-- A tag fits in front of other blanks as well. -/
theorem Fits.tag_respaced (h : Fits (.tag cs) rest) (hrest : Respaced rest more) :
    Fits (.tag cs) more := by
  obtain _ | _ | h := h
  exact .tag (blind_afterTagLike?.region h hrest)

/-- A part stays one when the text behind it is respaced. -/
theorem Fits.respaced (h : Fits p rest) (hrest : Respaced rest more) (hnil : rest = [] → more = [])
    (hstop : stopsText rest = true → stopsText more = true) : Fits p more := by
  cases h with
  | directive h => exact .directive (Braces.split?_region h more)
  | openDirective h => exact hnil rfl ▸ .openDirective h
  | tag h => exact (Fits.tag h).tag_respaced hrest
  | sign hnone h hend =>
    exact .sign ((blind_afterTagLike?.eq_none_iff (hrest.prepend _)).1 hnone)
      (h.respaced rfl (hrest.prepend _)) (hend.imp hnil hstop)
  | text h hend => exact .text (h.respaced rfl (hrest.prepend _)) (hend.imp hnil hstop)

/-- A text that fits still does after its blanks have been collapsed. -/
theorem Fits.collapse (h : Fits (.text cs) rest) : Fits (.text (collapse cs)) rest := by
  have hcollapse (cs : List Char) : Respaced (cs ++ rest) (Text.collapse cs ++ rest) :=
    (respaced_collapse_append cs rest).symm
  cases h with
  | @sign cs _ hnone h hend =>
    rw [collapse_cons_of_ink isBlank_lessThan]
    exact .sign ((blind_afterTagLike?.eq_none_iff (hcollapse cs)).1 hnone)
      (h.respaced (respaced_collapse cs).symm (hcollapse cs)) hend
  | @text c cs _ h hend =>
    have hmore := h.respaced (respaced_collapse (c :: cs)).symm (hcollapse (c :: cs))
    obtain ⟨d, ds, heq⟩ : ∃ d ds, Text.collapse (c :: cs) = d :: ds := by
      rw [Text.collapse, collapseFrom]
      split <;> exact ⟨_, _, rfl⟩
    rw [heq] at hmore ⊢
    exact .text hmore hend

end Stencil.Markup
