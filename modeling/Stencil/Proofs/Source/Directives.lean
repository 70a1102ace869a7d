import Stencil.Proofs.Source.Printed
import Stencil.Proofs.Text.Blank

/-!
# Written directives are read back

The text between the braces is classified by its first words, and in a header by its last ones. A
printed expression that carries no keyword is shown as a value; after the word of a block the
expression goes to the end, or to the alias if one is written.
-/

namespace Stencil

open Nesting

namespace Text

theorem trimmed_of_solid {cs : List Char} (h : Piece.Solid cs) : Trimmed cs where
  first := by
    obtain ⟨c, rest, rfl, hblank, -⟩ := h.starts
    simpa using hblank
  last := by
    obtain ⟨rest, c, rfl, hblank⟩ := h.stops
    simpa using hblank

/-- A text without blanks at its ends is trimmed already. -/
theorem trim_of_solid {cs : List Char} (h : Piece.Solid cs) : trim cs = cs := by
  simpa using trim_between (trimmed_of_solid h) areBlank_nil areBlank_nil

/-- A blank parts the words before it from those behind it. -/
theorem wordsFrom_append {c : Char} (hc : isBlank c = true) (word cs ds : List Char) :
    wordsFrom word (cs ++ c :: ds) = wordsFrom word cs ++ wordsFrom [] ds := by
  induction cs generalizing word with
  | nil =>
    simp only [List.nil_append, wordsFrom, hc, if_true]
    split <;> simp
  | cons d cs ih =>
    simp only [List.cons_append, wordsFrom, ih]
    split
    · split <;> simp
    · rfl

end Text

namespace Directive

/-! ## Words in front -/

/-- A front word is taken off with the blanks behind it. -/
theorem afterWord?_front (word : String) {gap cs : List Char} (hgap : Text.AreBlank gap)
    (hne : gap ≠ []) (hcs : ∀ c ∈ cs.head?, Text.isBlank c = false) :
    afterWord? word (word.toList ++ (gap ++ cs)) = some cs := by
  obtain ⟨c, rest, rfl⟩ := List.exists_cons_of_ne_nil hne
  obtain ⟨hblank, hrest⟩ := List.forall_mem_cons.1 hgap
  have hskip : Text.skipBlanks (rest ++ cs) = cs := by
    rw [Text.skipBlanks_append hrest, Text.skipBlanks_of_head? hcs]
  have hdrop : (word.toList ++ (c :: rest ++ cs)).drop word.length = c :: (rest ++ cs) := by
    rw [← String.length_toList, List.drop_left, List.cons_append]
  have hfront : word.toList.isPrefixOf (word.toList ++ (c :: rest ++ cs)) = true := by
    simp
  rw [afterWord?, if_pos hfront, hdrop]
  simp only [hblank, if_true, hskip]

theorem afterWord?_self (word : String) {cs : List Char} (h : Piece.Solid cs) :
    afterWord? word (word.toList ++ ' ' :: cs) = some cs :=
  afterWord?_front word Text.areBlank_space (by simp) (Text.trimmed_of_solid h).first

theorem afterWord?_eq_none {word : String} {cs : List Char}
    (h : (word.toList.isPrefixOf cs && (cs.drop word.length).head?.any Text.isBlank) = false) :
    afterWord? word cs = none := by
  unfold afterWord?
  split
  · rename_i hfront
    rw [hfront, Bool.true_and] at h
    split
    · rename_i heq
      rw [heq] at h
      simp_all
    · rfl
  · rfl

/-- A word is not read in the place of another one that neither starts with it nor starts it. -/
theorem afterWord?_other {w word : String}
    (h : (w.toList.isPrefixOf word.toList || word.toList.isPrefixOf w.toList) = false)
    (cs : List Char) : afterWord? w (word.toList ++ cs) = none := by
  refine afterWord?_eq_none (Bool.and_eq_false_iff.2 (.inl ?_))
  rw [← Bool.not_eq_true] at h ⊢
  rw [Bool.or_eq_true, List.isPrefixOf_iff_prefix, List.isPrefixOf_iff_prefix] at h
  rw [List.isPrefixOf_iff_prefix]
  intro hw
  exact h (List.prefix_or_prefix_of_prefix hw (List.prefix_append _ _))

/-- A text that no other rule takes is shown. -/
theorem classify_shows {cs : List Char} (hhead : head? cs = none)
    (hlone : ∀ w ∈ loneWords, cs ≠ w.toList) (hslash : ∀ rest, cs ≠ '/' :: rest) :
    classify cs = (.shows (valueWords cs).1, (valueWords cs).2) := by
  have helse := hlone "else" (by decide)
  have hunbound := hlone "unbound" (by decide)
  have hbound := hlone "bound" (by decide)
  unfold classify
  simp only [hhead, if_neg helse, if_neg hunbound, if_neg hbound]

theorem valueWords_of_none {cs : List Char} (h : valueWord? cs = none) :
    valueWords cs = ([], cs) := by
  rw [valueWords]
  split
  · rfl
  · rename_i hword
    rw [h] at hword
    cases hword

theorem valueWords_of_some {cs rest : List Char} {w : ValueWord}
    (h : valueWord? cs = some (w, rest)) :
    valueWords cs = (w :: (valueWords rest).1, (valueWords rest).2) := by
  rw [valueWords]
  split
  · rename_i hnone
    rw [h] at hnone
    cases hnone
  · rename_i hword
    rw [h] at hword
    cases hword
    rfl

/-- An expression without a keyword is shown. -/
theorem classify_of_hasKeyword_eq_false {e : Expr} (hsolid : Piece.Solid e.print.toList)
    (h : e.hasKeyword = false) : classify e.print.toList = (.shows [], e.print.toList) := by
  obtain ⟨hlone, hfront⟩ := Bool.or_eq_false_iff.1 h
  have hafter : ∀ w ∈ frontWords, afterWord? w e.print.toList = none := by
    intro w hw
    exact afterWord?_eq_none (by simpa using List.any_eq_false.1 hfront w hw)
  have hhead : head? e.print.toList = none := by
    rw [head?, List.findSome?_eq_none_iff]
    rintro ⟨word, role⟩ hp
    have hwords : ∀ w ∈ headWords.map Prod.fst, w ∈ frontWords := by decide
    simp only [hafter word (hwords word (List.mem_map_of_mem hp))]
  have hvalue : valueWord? e.print.toList = none := by
    rw [valueWord?, List.findSome?_eq_none_iff]
    intro w hw
    have hw' : w.text ∈ frontWords := by
      revert w
      decide
    rw [hafter w.text hw']
    rfl
  have hne : ∀ w ∈ loneWords, e.print.toList ≠ w.toList := by
    intro w hw heq
    rw [String.toList_inj] at heq
    simp [heq, hw] at hlone
  have hslash : ∀ rest, e.print.toList ≠ '/' :: rest := by
    obtain ⟨c, rest, heq, -, hc⟩ := hsolid.starts
    intro rest' heq'
    exact hc (List.cons.inj (heq.symm.trans heq')).1
  rw [classify_shows hhead hne hslash, valueWords_of_none hvalue]

/-- A printed expression that starts like none of the words has no keyword. -/
theorem hasKeyword_eq_false_of_starts {e : Expr} {c : Char} {cs : List Char}
    (heq : e.print.toList = c :: cs)
    (hc : ∀ w ∈ loneWords ++ frontWords, w.toList.head? ≠ some c) : e.hasKeyword = false := by
  have hlone : loneWords.contains e.print = false := by
    rw [List.contains_eq_mem, decide_eq_false_iff_not]
    intro hw
    exact hc _ (List.mem_append_left _ hw) (by rw [heq, List.head?_cons])
  rw [Expr.hasKeyword, hlone, Bool.false_or, List.any_eq_false]
  intro w hw hfront
  obtain ⟨tail, htail⟩ := List.isPrefixOf_iff_prefix.1 (Bool.and_eq_true_iff.1 hfront).1
  have hhead := hc w (List.mem_append_right _ hw)
  rw [heq] at htail
  have hne : ∀ w ∈ frontWords, w.toList ≠ [] := by decide
  cases hw' : w.toList with
  | nil => exact hne w hw hw'
  | cons d ds =>
    rw [hw', List.cons_append] at htail
    exact hhead (by rw [hw', List.head?_cons, (List.cons.inj htail).1])

/-! ## Words at the end -/

/-- The word `as` between two blanks. -/
theorem mem_words_as {c d : Char} (hc : Text.isBlank c = true) (hd : Text.isBlank d = true)
    (before after : List Char) :
    ['a', 's'] ∈ Text.words (before ++ c :: 'a' :: 's' :: d :: after) := by
  have hword : Text.wordsFrom [] ('a' :: 's' :: d :: after) =
      Text.wordsFrom [] ['a', 's'] ++ Text.wordsFrom [] after :=
    Text.wordsFrom_append hd [] ['a', 's'] after
  have has : Text.wordsFrom [] ['a', 's'] = [['a', 's']] := by decide
  rw [Text.words, Text.wordsFrom_append hc, hword, has]
  simp

/-- A text that ends with `as` and an alias, with blanks between them: `body` stands before. -/
inductive Aliased (body aliasName : List Char) : List Char → Prop
  | intro {gap gap' : List Char} (hbody : body ≠ [])
    (hlast : ∀ c ∈ body.getLast?, Text.isBlank c = false) (hname : aliasName ≠ [])
    (hink : ∀ c ∈ aliasName, Text.isBlank c = false) (hgap : Text.AreBlank gap) (hgap₀ : gap ≠ [])
    (hgap' : Text.AreBlank gap') (hgap₀' : gap' ≠ []) :
    Aliased body aliasName (body ++ (gap ++ 'a' :: 's' :: (gap' ++ aliasName)))

section

variable {body aliasName cs : List Char}

theorem Aliased.mem_words (h : Aliased body aliasName cs) : ['a', 's'] ∈ Text.words cs := by
  obtain @⟨gap, gap', -, -, -, -, hgap, hgap₀, hgap', hgap₀'⟩ := h
  obtain ⟨before, c, rfl⟩ := (List.eq_nil_or_concat gap).resolve_left hgap₀
  obtain ⟨d, after, rfl⟩ := List.exists_cons_of_ne_nil hgap₀'
  have hmem := mem_words_as (hgap c (by simp)) (hgap' d (by simp)) (body ++ before)
    (after ++ aliasName)
  simpa using hmem

/-- The last word behind an `as` is the alias, and all before it the body. The text is read from its
end: alias, blanks, the word, a blank, more blanks, body. -/
theorem splitAlias_of_aliased (h : Aliased body aliasName cs) :
    splitAlias cs = (body, some aliasName) := by
  obtain @⟨gap, gap', hbody, hlast, hname, hink, hgap, hgap₀, hgap', hgap₀'⟩ := h
  obtain ⟨c, rest, hrest⟩ := List.exists_cons_of_ne_nil (List.reverse_ne_nil_iff.2 hgap₀)
  have hblank : Text.isBlank c = true ∧ Text.AreBlank rest := by
    have hall := hgap.reverse
    rw [hrest] at hall
    exact List.forall_mem_cons.1 hall
  have hback : (body ++ (gap ++ 'a' :: 's' :: (gap' ++ aliasName))).reverse =
      aliasName.reverse ++ (gap'.reverse ++ 's' :: 'a' :: c :: (rest ++ body.reverse)) := by
    simp [hrest]
  have hink' : ∀ d ∈ aliasName.reverse, (!Text.isBlank d) = true := by
    intro d hd
    simp [hink d (List.mem_reverse.1 hd)]
  have hstop : ∀ d ∈ (gap'.reverse ++ 's' :: 'a' :: c :: (rest ++ body.reverse)).head?,
      (!Text.isBlank d) = false := by
    obtain ⟨b, bs, hbs⟩ := List.exists_cons_of_ne_nil (List.reverse_ne_nil_iff.2 hgap₀')
    simp [hbs, hgap'.reverse b (by simp [hbs])]
  have hskip' : Text.skipBlanks (gap'.reverse ++ 's' :: 'a' :: c :: (rest ++ body.reverse)) =
      's' :: 'a' :: c :: (rest ++ body.reverse) := by
    rw [Text.skipBlanks_append hgap'.reverse]
    refine Text.skipBlanks_of_head? ?_
    simp [show Text.isBlank 's' = false by decide]
  have hskip : Text.skipBlanks (rest ++ body.reverse) = body.reverse := by
    rw [Text.skipBlanks_append hblank.2]
    refine Text.skipBlanks_of_head? ?_
    rwa [List.head?_reverse]
  simp only [splitAlias, hback, Token.takeWhile_append_stop hink' hstop,
    Token.dropWhile_append_stop hink' hstop, hskip', hskip]
  simp [hblank.1, hname, hbody]

end

/-- No alias is split off but one that is written at the end. The blanks behind the word cannot be
missing, since an alias stops only at a blank. -/
theorem splitAlias_or (cs : List Char) :
    splitAlias cs = (cs, none) ∨
      ∃ body aliasName, splitAlias cs = (body, some aliasName) ∧ Aliased body aliasName cs := by
  unfold splitAlias
  extract_lets isInk back aliasName
  split
  · rename_i c rest heq
    split
    · rename_i hblank
      simp only [Bool.and_eq_true, Bool.not_eq_true', List.isEmpty_eq_false_iff] at hblank
      obtain ⟨⟨hblank, hname⟩, hbody⟩ := hblank
      obtain ⟨gap', hgap', hafter⟩ := Text.exists_skipBlanks (back.dropWhile isInk)
      obtain ⟨gap, hgap, hbefore⟩ := Text.exists_skipBlanks rest
      rw [heq] at hafter
      have hback : back =
          aliasName ++ (gap' ++ 's' :: 'a' :: c :: (gap ++ Text.skipBlanks rest)) := by
        rw [hbefore, hafter]
        exact List.takeWhile_append_dropWhile.symm
      have hcs : cs = (Text.skipBlanks rest).reverse ++ ((c :: gap).reverse ++ 'a' :: 's' ::
          (gap'.reverse ++ aliasName.reverse)) := by
        rw [← List.reverse_inj, show cs.reverse = back from rfl]
        simpa using hback
      have hink : ∀ d ∈ aliasName.reverse, Text.isBlank d = false := by
        intro d hd
        have hd' := List.all_eq_true.1 List.all_takeWhile d (List.mem_reverse.1 hd)
        simpa [isInk] using hd'
      have hgap₀' : gap' ≠ [] := by
        rintro rfl
        have hfirst := Text.head?_dropWhile_eq_false isInk back 's' (by simp [← hafter])
        exact absurd hfirst (by decide)
      have hlast : ∀ d ∈ (Text.skipBlanks rest).reverse.getLast?, Text.isBlank d = false := by
        rw [List.getLast?_reverse]
        exact Text.head?_skipBlanks rest
      have hgap₁ : Text.AreBlank (c :: gap) := List.forall_mem_cons.2 ⟨hblank, hgap⟩
      have haliased := Aliased.intro (List.reverse_ne_nil_iff.2 hbody) hlast
        (List.reverse_ne_nil_iff.2 hname) hink hgap₁.reverse (by simp) hgap'.reverse
        (List.reverse_ne_nil_iff.2 hgap₀')
      rw [← hcs] at haliased
      exact .inr ⟨_, _, rfl, haliased⟩
    · exact .inl rfl
  · exact .inl rfl

/-- Without the word `as` there is no alias. -/
theorem splitAlias_of_not_mem {cs : List Char} (h : ['a', 's'] ∉ Text.words cs) :
    splitAlias cs = (cs, none) := by
  refine (splitAlias_or cs).resolve_right ?_
  rintro ⟨body, aliasName, -, haliased⟩
  exact h haliased.mem_words

theorem aliased_append {cs aliasName : List Char} (hsolid : Piece.Solid cs)
    (hne : aliasName ≠ []) (halias : ∀ c ∈ aliasName, Text.isBlank c = false) :
    Aliased cs aliasName (cs ++ ' ' :: 'a' :: 's' :: ' ' :: aliasName) :=
  .intro hsolid.ne_nil (Text.trimmed_of_solid hsolid).last hne halias Text.areBlank_space (by simp)
    Text.areBlank_space (by simp)

/-! ## Headers -/

theorem mem_frontWords {word : String} {role : Option String → Role}
    (h : (word, role) ∈ headWords) : word ∈ frontWords := by
  have hwords : ∀ w ∈ headWords.map Prod.fst, w ∈ frontWords := by decide
  exact hwords word (List.mem_map_of_mem h)

theorem solid_of_mem_frontWords {word : String} (h : word ∈ frontWords) :
    Piece.Solid word.toList := by
  have hne : word.toList ≠ [] := by
    revert word
    decide
  refine Piece.solid_of_ends hne ?_ ?_ <;> revert word <;> decide

theorem leading_of_mem {word : String} {role : Option String → Role} (h : (word, role) ∈ headWords)
    (a : Option String) : leading (role a) = [word] ∧ (role a).alias? = a := by
  simp only [headWords, List.mem_cons, Prod.mk.injEq, List.not_mem_nil, or_false] at h
  obtain ⟨rfl, rfl⟩ | ⟨rfl, rfl⟩ | ⟨rfl, rfl⟩ | ⟨rfl, rfl⟩ | ⟨rfl, rfl⟩ := h <;> exact ⟨rfl, rfl⟩

/-- After the word of a block stands its expression, and perhaps an alias. -/
theorem head?_written {word : String} {role : Option String → Role} (h : (word, role) ∈ headWords)
    {cs : List Char} (hsolid : Piece.Solid cs) :
    head? (word.toList ++ ' ' :: cs) =
      some (role ((splitAlias cs).2.map String.ofList), (splitAlias cs).1) := by
  have hself := afterWord?_self word hsolid
  have hnodup : (headWords.map Prod.fst).Nodup := by decide
  obtain ⟨c, rest, rfl, -⟩ := hsolid.starts
  obtain ⟨before, after, hwords⟩ := List.append_of_mem h
  rw [head?, List.findSome?_eq_some_iff]
  refine ⟨before, (word, role), after, hwords, by simp only [hself], ?_⟩
  rintro ⟨w, r⟩ hp
  have hmem : (w, r) ∈ headWords := by
    rw [hwords]
    exact List.mem_append_left _ hp
  have hne : w ≠ word := by
    rintro rfl
    rw [hwords, List.map_append, List.map_cons, List.nodup_append] at hnodup
    exact hnodup.2.2 w (List.mem_map_of_mem hp) w List.mem_cons_self rfl
  have hother : ∀ w ∈ headWords.map Prod.fst, ∀ word ∈ headWords.map Prod.fst, w ≠ word →
      (w.toList.isPrefixOf word.toList || word.toList.isPrefixOf w.toList) = false := by decide
  have hapart := hother w (List.mem_map_of_mem hmem) word (List.mem_map_of_mem h) hne
  simp only [afterWord?_other hapart]

/-- A directive word is told apart by its own spelling, and what follows is its body. -/
theorem classify_written {word : String} {role : Option String → Role}
    (h : (word, role) ∈ headWords) {cs : List Char} (hsolid : Piece.Solid cs) :
    classify (word.toList ++ ' ' :: cs) =
      (role ((splitAlias cs).2.map String.ofList), (splitAlias cs).1) := by
  unfold classify
  simp only [head?_written h hsolid]

/-! ## Whole directives -/

/-- A directive that is read from its own source, also inside an attribute. -/
structure Legible (d : Directive) : Prop where
  neat : Neat d.source.toList
  ne_empty : d.source ≠ ""
  read : Directive.read d.source = .ok d

theorem ne_empty_of_solid {s : String} (h : Piece.Solid s.toList) : s ≠ "" := by
  rintro rfl
  exact h.ne_nil rfl

section

variable {s : String} {role : Role} {body : List Char} {e : Expr} {cause : Cause}

theorem body?_of_ne_nil (hne : body ≠ []) :
    body? body = (Expr.read (String.ofList body)).map some := by
  rw [body?, List.isEmpty_eq_false_iff.2 hne]
  rfl

/-- A directive reads if its body does. -/
theorem read_of_ok (hclassify : classify (Text.trim s.toList) = (role, body)) (hne : body ≠ [])
    (h : Expr.read (String.ofList body) = .ok e) :
    Directive.read s = .ok ⟨String.ofList (Text.trim s.toList), role, some e⟩ := by
  simp only [Directive.read, hclassify, body?_of_ne_nil hne, h, Except.map]

/-- A directive fails if its body does, and the message shows the directive. -/
theorem read_of_error (hclassify : classify (Text.trim s.toList) = (role, body)) (hne : body ≠ [])
    (h : Expr.read (String.ofList body) = .error cause) :
    Directive.read s = .error ((Error.of cause).within
      ("\n\nWithin expression: " ++ String.ofList (Text.trim s.toList))) := by
  simp only [Directive.read, hclassify, body?_of_ne_nil hne, h, Except.map]

theorem read_of_classify {S : String → Prop} (hsolid : Piece.Solid s.toList)
    (hclassify : classify s.toList = (role, e.print.toList)) (he : e.Canonical Token.Short S) :
    Directive.read s = .ok ⟨s, role, some e⟩ := by
  have htrim := Text.trim_of_solid hsolid
  rw [← htrim] at hclassify
  have hread : Expr.read (String.ofList e.print.toList) = .ok e := by
    rw [String.ofList_toList, he.read_print]
  rw [read_of_ok hclassify he.solid_print.ne_nil hread, htrim, String.ofList_toList]

/-- A directive with an expression that is refused is refused. -/
theorem read_of_refused (hsolid : Piece.Solid e.print.toList) (hword : e.hasKeyword = false)
    (h : Expr.read e.print = .error cause) : ∃ error, Directive.read e.print = .error error := by
  have hclassify : classify (Text.trim e.print.toList) = (.shows [], e.print.toList) := by
    rw [Text.trim_of_solid hsolid, classify_of_hasKeyword_eq_false hsolid hword]
  have hread : Expr.read (String.ofList e.print.toList) = .error cause := by
    rwa [String.ofList_toList]
  exact ⟨_, read_of_error hclassify hsolid.ne_nil hread⟩

end

theorem legible_shows {d : Directive} {e : Expr} (h : d.Holds Token.Short (.shows []) e)
    (hword : e.hasKeyword = false) : Legible d.respelled := by
  obtain ⟨hrole, hexpr, he⟩ := h
  have hwritten : d.written = e.print := by
    simp [written, hrole, hexpr, leading, Role.alias?, trailing, Text.join]
  have hread := read_of_classify he.solid_print
    (classify_of_hasKeyword_eq_false he.solid_print hword) he
  refine ⟨?_, ?_, ?_⟩
  · simpa [respelled, hwritten] using he.neat
  · simpa [respelled, hwritten] using ne_empty_of_solid he.solid_print
  · simpa [respelled, hwritten, ← hrole, ← hexpr] using hread

/-- What stands after the word of a block. -/
def headerChars (e : Expr) (a : Option String) : List Char :=
  e.print.toList ++ a.toList.flatMap fun s => ' ' :: 'a' :: 's' :: ' ' :: s.toList

section

variable {e : Expr} {a : Option String}

theorem neat_headerChars (he : e.Canonical Token.Short Quotable) (ha : ∀ s ∈ a, IsAlias s) :
    Neat (headerChars e a) := by
  cases a with
  | none => simpa [headerChars] using he.neat
  | some s =>
    obtain ⟨name, rfl, hname⟩ := ha s rfl
    have has : Neat [' ', 'a', 's', ' ', '#'] := neat_of_all (by decide)
    have hall := he.neat.append (has.append (Piece.neat_name hname))
    simpa [headerChars] using hall

theorem solid_headerChars (he : e.Canonical Token.Short Quotable) (ha : ∀ s ∈ a, IsAlias s) :
    Piece.Solid (headerChars e a) := by
  cases a with
  | none => simpa [headerChars] using he.solid_print
  | some s =>
    obtain ⟨name, rfl, hname⟩ := ha s rfl
    have hall := he.solid_print.between (Piece.solid_name hname) [' ', 'a', 's', ' ', '#']
    simpa [headerChars] using hall

/-- The head of a block is split at the alias it was written with. -/
theorem splitAlias_headerChars (he : e.Canonical Token.Short Quotable) (has : e.hasAs = false)
    (ha : ∀ s ∈ a, IsAlias s) :
    splitAlias (headerChars e a) = (e.print.toList, a.map String.toList) := by
  cases a with
  | none =>
    have hnot : ['a', 's'] ∉ Text.words e.print.toList := by simpa [Expr.hasAs] using has
    simpa [headerChars] using splitAlias_of_not_mem hnot
  | some s =>
    obtain ⟨name, rfl, hname⟩ := ha s rfl
    have hmark : ∀ c ∈ "#".toList, Text.isBlank c = false := forall_mem_of_all (by decide)
    have hink : ∀ c ∈ ("#" ++ name).toList, Text.isBlank c = false := by
      simp only [String.toList_append, List.mem_append]
      rintro c (hc | hc)
      · exact hmark c hc
      · exact (isQuiet_of_isNameRest (isNameRest_of_isIdentifier hname c hc)).2.2.1
    have hsplit := splitAlias_of_aliased (aliased_append he.solid_print (by simp) hink)
    simpa [headerChars] using hsplit

end

theorem Heads.role_eq {I : Int → Prop} {r : Role} {d : Directive} (h : d.Heads I r) : d.role = r := by
  obtain ⟨e, hholds, -⟩ := h
  exact hholds.1

/-- Every header is read back. -/
theorem legible_heads {word : String} {role : Option String → Role} (h : (word, role) ∈ headWords)
    {a : Option String} (ha : ∀ s ∈ a, IsAlias s) {d : Directive}
    (hd : d.Heads Token.Short (role a)) : Legible d.respelled := by
  obtain ⟨e, ⟨hrole, hexpr, he⟩, has⟩ := hd
  obtain ⟨hleading, halias⟩ := leading_of_mem h a
  have hneat : ∀ w ∈ frontWords, Neat w.toList := by
    intro w hw
    refine neat_of_all ?_
    revert w
    decide
  have hspace : Neat [' '] := neat_of_all (by decide)
  have hwritten : d.written.toList = word.toList ++ ' ' :: headerChars e a := by
    cases a <;> simp [written, hrole, hexpr, hleading, halias, trailing, Text.join, headerChars]
  have hneat' : Neat d.written.toList := by
    rw [hwritten]
    exact (hneat word (mem_frontWords h)).append (hspace.append (neat_headerChars he ha))
  have hsolid' : Piece.Solid d.written.toList := by
    rw [hwritten]
    exact (solid_of_mem_frontWords (mem_frontWords h)).between (solid_headerChars he ha) [' ']
  have hclassify : classify d.written.toList = (role a, e.print.toList) := by
    rw [hwritten, classify_written h (solid_headerChars he ha), splitAlias_headerChars he has ha]
    simp [Function.comp_def]
  have hread := read_of_classify hsolid' hclassify he
  refine ⟨hneat', ne_empty_of_solid hsolid', ?_⟩
  simpa [respelled, ← hrole, ← hexpr] using hread

/-- The else directive is read back from its source. -/
theorem legible_else : Legible ⟨"else", .otherwise, none⟩ :=
  ⟨neat_of_all (by decide), by decide, rfl⟩

/-- A directive without an expression is read back. -/
theorem legible_bare {r : Role} {d : Directive} (h : d.Bare r)
    (hr : r = .otherwise ∨ r = .opens .unbound none ∨ r = .opens .bound none) :
    Legible d.respelled := by
  obtain ⟨source, role, expr?⟩ := d
  obtain ⟨rfl, rfl⟩ : role = r ∧ expr? = none := h
  obtain rfl | rfl | rfl := hr
  · exact legible_else
  · have hlegible : Legible ⟨"unbound", .opens .unbound none, none⟩ :=
      ⟨neat_of_all (by decide), by decide, rfl⟩
    exact hlegible
  · have hlegible : Legible ⟨"bound", .opens .bound none, none⟩ :=
      ⟨neat_of_all (by decide), by decide, rfl⟩
    exact hlegible

/-- The end of a block is read back from its source. -/
theorem legible_closing (w : BlockWord) : Legible ⟨"/" ++ w.text, .closes w.text, none⟩ := by
  cases w <;> exact ⟨neat_of_all (by decide), by decide, rfl⟩

end Directive

end Stencil
