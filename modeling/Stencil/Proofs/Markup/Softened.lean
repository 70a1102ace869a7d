import Stencil.Markup.Escape
import Stencil.Proofs.Markup.Pieces

/-!
# Softened texts

Escaping replaces less-than signs by their reference and changes nothing else. In a text that is
softened in this way no recogniser finds a region that was not there, and a region that is left as
it was is found again. So the text is cut into the same pieces, the braces of a directive balance
where they did, and escaping once more changes nothing. If the source has no ampersand, every
reference in the result was a less-than sign.
-/

namespace Stencil

open Text

/-- A whole text is a region exactly if it ends at its end. -/
theorem Braces.split?_self_iff {cs : List Char} :
    split? cs = some (cs, []) ↔ closing ['{'] ['}'] 2 cs = some cs.length := by
  rw [split?, Option.map_eq_some_iff]
  constructor
  · rintro ⟨n, hn, heq⟩
    have hle := closing_le hn
    have hdrop := List.drop_eq_nil_iff.1 (Prod.mk.inj heq).2
    rwa [Nat.le_antisymm hle hdrop] at hn
  · intro h
    exact ⟨cs.length, h, by simp⟩

namespace Markup

/-! ## Softened texts -/

/-- The first text is the second with references for some of its less-than signs. -/
inductive Softened : List Char → List Char → Prop
  | nil : Softened [] []
  | kept (c : Char) {es cs : List Char} (h : Softened es cs) : Softened (c :: es) (c :: cs)
  | reference {es cs : List Char} (h : Softened es cs) :
    Softened ('&' :: 'l' :: 't' :: ';' :: es) ('<' :: cs)

def unescape : List Char → List Char
  | '&' :: 'l' :: 't' :: ';' :: cs => '<' :: unescape cs
  | c :: cs => c :: unescape cs
  | [] => []

variable {es es' cs cs' before word region rest : List Char} {c : Char}

namespace Softened

theorem refl (cs : List Char) : Softened cs cs := by
  induction cs with
  | nil => exact .nil
  | cons c cs ih => exact .kept c ih

/-- References in two texts are references in both together. -/
theorem append (h : Softened es cs) (h' : Softened es' cs') : Softened (es ++ es') (cs ++ cs') := by
  induction h with
  | nil => exact h'
  | kept c _ ih => exact .kept c ih
  | reference _ ih => exact .reference ih

theorem exists_cons (hc : c ≠ '&') (h : Softened (c :: es) cs) :
    ∃ cs', cs = c :: cs' ∧ Softened es cs' := by
  cases h with
  | kept _ h => exact ⟨_, rfl, h⟩
  | reference _ => exact absurd rfl hc

/-- A word without an ampersand is in both texts. -/
theorem exists_append (hword : ∀ c ∈ word, c ≠ '&') (h : Softened (word ++ es) cs) :
    ∃ cs', cs = word ++ cs' ∧ Softened es cs' := by
  induction word generalizing cs with
  | nil => exact ⟨cs, rfl, h⟩
  | cons c word ih =>
    obtain ⟨hc, hword⟩ := List.forall_mem_cons.1 hword
    obtain ⟨cs, rfl, hcs⟩ := h.exists_cons hc
    obtain ⟨cs', rfl, hcs'⟩ := ih hword hcs
    exact ⟨cs', rfl, hcs'⟩

/-- A character that no reference holds stands in both texts. -/
theorem exists_cut (hc : c ∉ ['&', 'l', 't', ';']) (h : Softened (before ++ c :: es) cs) :
    ∃ before' cs', cs = before' ++ c :: cs' ∧ Softened es cs' := by
  generalize hes : before ++ c :: es = es' at h
  induction h generalizing before with
  | nil => simp at hes
  | @kept d es' cs' h ih =>
    cases before with
    | nil =>
      cases hes
      exact ⟨[], cs', rfl, h⟩
    | cons b before =>
      cases hes
      obtain ⟨before', cs'', rfl, hcs''⟩ := ih rfl
      exact ⟨d :: before', cs'', rfl, hcs''⟩
  | @reference es' cs' h ih =>
    match before with
    | [] | [_] | [_, _] | [_, _, _] =>
      simp only [List.nil_append, List.cons_append, List.cons.injEq] at hes
      simp [hes] at hc
    | _ :: _ :: _ :: _ :: before =>
      simp only [List.cons_append, List.cons.injEq] at hes
      obtain ⟨before', cs'', rfl, hcs''⟩ := ih hes.2.2.2.2
      exact ⟨'<' :: before', cs'', rfl, hcs''⟩

theorem endsWord_eq (h : Softened es cs) : endsWord es = endsWord cs := by
  cases h with
  | nil | kept => rfl
  | reference =>
    have hword : isWord '&' = isWord '<' := by decide +kernel
    rw [endsWord, endsWord, hword]

/-- A text without ampersands comes back from its references. -/
theorem unescape_eq (h : Softened es cs) (hand : '&' ∉ cs) : unescape es = cs := by
  induction h with
  | nil => rfl
  | kept c _ ih =>
    rw [List.mem_cons, not_or] at hand
    rw [unescape, ih hand.2]
    intro _ heq _
    exact hand.1 heq.symm
  | reference _ ih =>
    rw [unescape, ih (List.not_mem_of_not_mem_cons hand)]

/-- The braces of the texts balance in the same place. -/
theorem closing_eq (h : Softened es cs) {depth : Int}
    (hcs : Braces.closing ['{'] ['}'] depth cs = some cs.length) :
    Braces.closing ['{'] ['}'] depth es = some es.length := by
  have hpass {c : Char} (hopen : c ≠ '{') (hclose : c ≠ '}') {d : Int} (hd : d ≠ 0)
      (cs : List Char) : Braces.closing ['{'] ['}'] d (c :: cs) =
        (Braces.closing ['{'] ['}'] d cs).map (· + 1) := by
    rw [Braces.closing_cons (by decide) hd, Braces.excess_other hopen hclose, Int.sub_zero]
  induction h generalizing depth with
  | nil => exact hcs
  | kept c h ih =>
    by_cases hdepth : depth = 0
    · simp [hdepth, Braces.closing_zero] at hcs
    · rw [Braces.closing_cons (by decide) hdepth] at hcs ⊢
      rw [ih (by simpa using hcs), List.length_cons, Option.map_some]
  | reference h ih =>
    by_cases hdepth : depth = 0
    · simp [hdepth, Braces.closing_zero] at hcs
    · rw [hpass (by decide) (by decide) hdepth] at hcs
      rw [hpass (by decide) (by decide) hdepth, hpass (by decide) (by decide) hdepth,
        hpass (by decide) (by decide) hdepth, hpass (by decide) (by decide) hdepth,
        ih (by simpa using hcs)]
      simp

end Softened

/-- A softened text holds what the recognisers look at, as far as they look. -/
theorem keeps_softened : Keeps (· ≠ '&') Softened where
  prepend front _ _ h := (Softened.refl front).append h
  append_lessThan h h' := h.append (.kept '<' h')
  exists_cut h := h.exists_cut (by decide)
  exists_append hword h := h.exists_append hword
  endsWord_eq h := h.endsWord_eq
  commentEnd h := by
    rintro ⟨before, after, rfl⟩
    rw [List.append_assoc, List.cons_append] at h
    obtain ⟨before', rest, rfl, hrest⟩ := h.exists_cut (by decide)
    obtain ⟨after', rfl, -⟩ := hrest.exists_append (forall_mem_of_all (by decide))
    exact ⟨before', after', by simp⟩
  tagEnd h hsome := by
    obtain ⟨rest, hrest⟩ := Option.isSome_iff_exists.1 hsome
    obtain ⟨gap, hgap, rfl⟩ := exists_tagEnd? hrest
    have hkept : ∀ c ∈ gap, c ≠ '&' := fun c hc => by
      rintro rfl
      exact absurd (hgap _ hc) (by decide)
    obtain ⟨left, rfl, hleft⟩ := h.exists_append hkept
    obtain ⟨rest', rfl, -⟩ := hleft.exists_cons (by decide)
    rw [tagEnd?_append hgap]
    rfl

/-- No letter of a name is an ampersand, in either case. -/
theorem ne_ampersand_of_spells {p c d : Char} (hp : p.isLower = true) (h : spells p c = true)
    (hsame : foldLetter d = foldLetter c) : d ≠ '&' := by
  rintro rfl
  have hfold : foldLetter '&' = '&' := by decide
  rw [hfold] at hsame
  obtain hc | hc := foldLetter_of_spells h
  · rw [← hsame.trans hc] at hp
    cases hp
  · rw [← hsame] at hc
    exact absurd hc (by decide)

/-- References hide no comment and no element whose content is not decoded. -/
theorem blindTo_afterUndecoded? : BlindTo Softened afterUndecoded? := by
  have helement {name : String} (hname : ∀ p ∈ name.toList, p.isLower = true) :
      BlindTo Softened (afterElement? name) :=
    blindTo_afterElement? keeps_softened (by decide) fun p hp _ _ =>
      ne_ampersand_of_spells (hname p hp)
  exact (blindTo_afterComment? keeps_softened (by decide) (by decide)).orElse keeps_softened
    ((helement (forall_mem_of_all (by decide))).orElse keeps_softened
      (helement (forall_mem_of_all (by decide))))

/-! ## Escaped regions -/

/-- Escaping puts references for less-than signs and does nothing else. -/
theorem softened_escapeRegion (cs : List Char) : Softened (escapeRegion cs) cs := by
  fun_induction escapeRegion cs with
  | case1 => exact .nil
  | case2 c => exact .kept c .nil
  | case3 c d cs hmarkup ih =>
    obtain ⟨rfl, -⟩ := hmarkup
    exact .reference ih
  | case4 c d cs _ ih => exact .kept c ih

theorem escapeRegion_cons_of_ne (hc : c ≠ '<') (cs : List Char) :
    escapeRegion (c :: cs) = c :: escapeRegion cs := by
  cases cs with
  | nil => rfl
  | cons d cs => rw [escapeRegion, if_neg fun h => hc h.1]

/-- No less-than sign is left that would start markup. -/
theorem not_infix_escapeRegion (hc : startsMarkup c = true) (cs : List Char) :
    ¬ ['<', c] <:+: escapeRegion cs := by
  fun_induction escapeRegion cs with
  | case1 => simp
  | case2 d => exact fun h => absurd h.length_le (by simp)
  | case3 d e cs hmarkup ih => simpa [List.infix_cons_iff] using ih
  | case4 d e cs hplain ih =>
    rw [List.infix_cons_iff, not_or]
    refine ⟨fun hfront => ?_, ih⟩
    obtain ⟨rfl, hnext⟩ := List.cons_prefix_cons.1 hfront
    obtain ⟨first, more, heq, hfirst⟩ := exists_escapeRegion_cons e cs
    rw [heq] at hnext
    obtain ⟨rfl, -⟩ := List.cons_prefix_cons.1 hnext
    obtain rfl | rfl := hfirst
    · exact hplain ⟨rfl, hc⟩
    · cases hc

/-- A text whose less-than signs start no markup stays as it is. -/
theorem escapeRegion_of_not_infix (h : ∀ c, startsMarkup c = true → ¬ ['<', c] <:+: cs) :
    escapeRegion cs = cs := by
  fun_induction escapeRegion cs with
  | case1 => rfl
  | case2 c => rfl
  | case3 c d cs hmarkup =>
    obtain ⟨rfl, hd⟩ := hmarkup
    exact absurd ⟨[], cs, rfl⟩ (h d hd)
  | case4 c d cs _ ih =>
    rw [ih fun e he hfound => h e he (hfound.trans (List.suffix_cons c _).isInfix)]

/-- What is escaped is not escaped again. A less-than sign that is left stands before a character
that starts no markup. -/
theorem escapeRegion_escapeRegion (cs : List Char) :
    escapeRegion (escapeRegion cs) = escapeRegion cs :=
  escapeRegion_of_not_infix fun _ hc => not_infix_escapeRegion hc cs

/-! ## Escaped directives -/

set_option linter.unusedVariables false in
/-- The directives of an open text with their braces, up to the first one that is not closed. -/
def directives (cs : List Char) : List (List Char) :=
  match h : directive? cs with
  | none => []
  | some (_, region, rest) => region :: directives rest
termination_by cs.length
decreasing_by exact directive?_length h

theorem directives_of_none (h : directive? cs = none) : directives cs = [] := by
  rw [directives]
  split <;> simp_all

/-- The directives of a text are its first one and those behind it. -/
theorem directives_of_some (h : directive? cs = some (before, region, rest)) :
    directives cs = region :: directives rest := by
  rw [directives]
  split <;> simp_all

/-- The braces of a directive, and what is found in front of it whatever follows. -/
theorem exists_of_directive? (h : directive? cs = some (before, region, rest)) :
    cs = before ++ region ++ rest ∧ ∃ inside, region = '{' :: '{' :: inside ∧
      Braces.split? inside = some (inside, []) ∧
      ∀ more, splitAtFirst? ['{', '{'] (before ++ '{' :: '{' :: more) =
        some (before, '{' :: '{' :: more) := by
  rw [directive?] at h
  split at h
  · rename_i before' inside hsplit
    obtain ⟨⟨r, t⟩, hr, heq⟩ := Option.map_eq_some_iff.1 h
    cases heq
    obtain ⟨after, -, hfirst⟩ := exists_splitAtFirst? hsplit
    have hself := Braces.split?_region hr []
    rw [List.append_nil] at hself
    refine ⟨?_, r, rfl, hself, hfirst⟩
    rw [← splitWhere?_append hsplit, ← Braces.split?_append hr]
    simp
  · cases h

/-- A directive that is escaped is found where it was, whatever follows. -/
theorem directive?_escaped (h : directive? cs = some (before, region, rest)) (more : List Char) :
    directive? (before ++ escapeRegion region ++ more) =
      some (before, escapeRegion region, more) := by
  obtain ⟨-, inside, rfl, hself, hfirst⟩ := exists_of_directive? h
  have hescaped : Braces.split? (escapeRegion inside) = some (escapeRegion inside, []) := by
    rw [Braces.split?_self_iff] at hself ⊢
    exact (softened_escapeRegion inside).closing_eq hself
  rw [escapeRegion_cons_of_ne (by decide), escapeRegion_cons_of_ne (by decide), List.append_assoc,
    directive?, List.cons_append, List.cons_append, hfirst]
  simp [Braces.split?_region hescaped]

theorem softened_escapeOpen (cs : List Char) : Softened (escapeOpen cs) cs := by
  fun_induction escapeOpen cs with
  | case1 cs => exact .refl cs
  | case2 cs before region rest h ih =>
    obtain ⟨rfl, -⟩ := exists_of_directive? h
    exact ((Softened.refl before).append (softened_escapeRegion region)).append ih

/-- Escaping the directives of an open text twice comes to escaping them once. -/
theorem escapeOpen_escapeOpen (cs : List Char) : escapeOpen (escapeOpen cs) = escapeOpen cs := by
  fun_induction escapeOpen cs with
  | case1 cs h => exact escapeOpen_of_none h
  | case2 cs before region rest h ih =>
    rw [escapeOpen_of_some (directive?_escaped h _), escapeRegion_escapeRegion, ih]

/-- Escaping leaves each directive where it was. -/
theorem directives_escapeOpen (cs : List Char) :
    directives (escapeOpen cs) = (directives cs).map escapeRegion := by
  fun_induction escapeOpen cs with
  | case1 cs h => rw [directives_of_none h, List.map_nil]
  | case2 cs before region rest h ih =>
    rw [directives_of_some (directive?_escaped h _), directives_of_some h, ih, List.map_cons]

/-! ## Escaped sources -/

def openTexts : List Piece → List (List Char)
  | [] => []
  | .openText cs :: ps => cs :: openTexts ps
  | .raw _ :: ps => openTexts ps

/-- The directives that escaping finds in a text: in its open pieces, in each from the left. -/
def openDirectives (cs : List Char) : List (List Char) :=
  (openTexts (pieces afterUndecoded? cs)).flatMap directives

theorem openTexts_map (f : List Char → List Char) (ps : List Piece) :
    openTexts (ps.map (Piece.onOpen f)) = (openTexts ps).map f := by
  induction ps with
  | nil => rfl
  | cons p ps ih =>
    cases p with
    | openText cs => simp [Piece.onOpen, openTexts, ih]
    | raw cs => simp [Piece.onOpen, openTexts, ih]

/-- A source is escaped in its open pieces. -/
theorem toList_escape (source : String) :
    (escape source).toList = mapOpen escapeOpen (pieces afterUndecoded? source.toList) := by
  rw [escape, String.toList_ofList]

/-- An escaped source differs from the source in references alone. -/
theorem softened_escape (source : String) : Softened (escape source).toList source.toList := by
  obtain ⟨htorn, heq⟩ := torn_pieces blindTo_afterUndecoded? source.toList
  have hopen := keeps_softened.mapOpen htorn softened_escapeOpen
  rwa [heq, ← toList_escape] at hopen

/-- An escaped source is cut where the source is. -/
theorem pieces_escape (source : String) : pieces afterUndecoded? (escape source).toList =
    (pieces afterUndecoded? source.toList).map (Piece.onOpen escapeOpen) := by
  rw [toList_escape]
  exact pieces_mapOpen_pieces keeps_softened blindTo_afterUndecoded? softened_escapeOpen _

/-- The directives of an escaped source are those of the source, escaped. -/
theorem openDirectives_escape (source : String) : openDirectives (escape source).toList =
    (openDirectives source.toList).map escapeRegion := by
  rw [openDirectives, pieces_escape, openTexts_map, List.flatMap_map, openDirectives,
    List.map_flatMap]
  simp only [directives_escapeOpen]

/-- Escaping twice is escaping once. It is undone by putting the less-than sign for each reference,
unless the source has ampersands of its own. In the result no directive outside the comments and the
elements that are not decoded holds a less-than sign that would start markup. -/
theorem escape_reversible (source : String) :
    escape (escape source) = escape source ∧
    ('&' ∉ source.toList → String.ofList (unescape (escape source).toList) = source) ∧
    ∀ region ∈ openDirectives (escape source).toList,
      ∀ c, startsMarkup c = true → ¬ ['<', c] <:+: region := by
  refine ⟨?_, fun hand => ?_, fun region hregion c hc => ?_⟩
  · rw [← String.toList_inj, toList_escape (escape source), toList_escape source]
    exact mapOpen_pieces_twice keeps_softened blindTo_afterUndecoded? softened_escapeOpen
      escapeOpen_escapeOpen _
  · rw [(softened_escape source).unescape_eq hand, String.ofList_toList]
  · rw [openDirectives_escape, List.mem_map] at hregion
    obtain ⟨region, -, rfl⟩ := hregion
    exact not_infix_escapeRegion hc region

/-- Less-than signs of directives before, inside and behind a comment. -/
theorem escape_reversible_comment :
    let source := "\x7b\x7ba<b\x7d\x7d<!--\x7b\x7ba<b\x7d\x7d--><p id='\x7b\x7bc</d\x7d\x7d'>"
    let first := "\x7b\x7ba&lt;b\x7d\x7d"
    let last := "\x7b\x7bc&lt;/d\x7d\x7d"
    escape source = first ++ "<!--\x7b\x7ba<b\x7d\x7d--><p id='" ++ last ++ "'>" ∧
      escape (escape source) = escape source ∧
      String.ofList (unescape (escape source).toList) = source ∧
      openDirectives (escape source).toList = [first.toList, last.toList] ∧
      ¬ ['<', 'b'] <:+: first.toList ∧ ¬ ['<', '/'] <:+: last.toList := by
  intro source first last
  obtain ⟨htwice, hback, hregions⟩ := escape_reversible source
  have hopen : openDirectives (escape source).toList = [first.toList, last.toList] := by
    decide +kernel
  rw [hopen] at hregions
  refine ⟨by decide +kernel, htwice, hback (by decide), hopen, ?_, ?_⟩
  · exact hregions _ List.mem_cons_self 'b' rfl
  · exact hregions _ (List.mem_cons_of_mem _ List.mem_cons_self) '/' rfl

end Markup

end Stencil
