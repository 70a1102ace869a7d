import Stencil.Proofs.Markup.Pieces

/-!
# What minifying keeps

The elements that keep their blanks stand in the minified source where they stand in the source, so
the pieces of the minified source are the minified pieces. It follows that minifying a second time
changes nothing, and that minifying touches blanks alone. Both are said of sources that do not spell
the entity `&sp;`, which becomes a blank.
-/

namespace Stencil.Markup

open Text

variable {cs gap : List Char} {ps : List Piece} {f : List Char → List Char}

/-- The text with its open pieces minified. -/
def thinned (cs : List Char) : List Char :=
  mapOpen minifyOpen (pieces afterPreserved? cs)

theorem thinned_mapOpen (h : Torn afterPreserved? ps) :
    thinned (mapOpen id ps) = mapOpen minifyOpen ps := by
  rw [thinned, pieces_mapOpen h]

/-- Minifying a text twice comes to minifying it once. -/
theorem thinned_thinned (cs : List Char) : thinned (thinned cs) = thinned cs :=
  mapOpen_pieces_twice keeps_respaced blind_afterPreserved?.blindTo respaced_minifyOpen
    minifyOpen_minifyOpen cs

/-- Minifying changes blanks alone. -/
theorem respaced_thinned (cs : List Char) : Respaced (thinned cs) cs := by
  obtain ⟨htorn, heq⟩ := torn_pieces blind_afterPreserved?.blindTo cs
  have hopen := keeps_respaced.mapOpen htorn respaced_minifyOpen
  rwa [heq] at hopen

/-- If no open piece gets longer, neither does the text. -/
theorem length_mapOpen_le (hf : ∀ cs, (f cs).length ≤ cs.length) (ps : List Piece) :
    (mapOpen f ps).length ≤ (mapOpen id ps).length := by
  induction ps with
  | nil => exact Nat.le_refl 0
  | cons p ps ih =>
    cases p with
    | openText cs =>
      have hcs := hf cs
      simp only [mapOpen_openText, List.length_append, id]
      omega
    | raw cs =>
      simp only [mapOpen_raw, List.length_append]
      omega

theorem length_thinned_le (cs : List Char) : (thinned cs).length ≤ cs.length := by
  have hopen := length_mapOpen_le length_minifyOpen_le (pieces afterPreserved? cs)
  rwa [(torn_pieces blind_afterPreserved?.blindTo cs).2] at hopen

/-- Blanks at the end stay blanks at the end. -/
theorem exists_thinned_append (hgap : AreBlank gap) (cs : List Char) :
    ∃ gap', AreBlank gap' ∧ thinned (cs ++ gap) = thinned cs ++ gap' := by
  obtain ⟨htorn, heq⟩ := torn_pieces blind_afterPreserved?.blindTo cs
  obtain ⟨qs, hqs, happend, gap', hgap', hmore⟩ := htorn.exists_append blind_afterPreserved? hgap
  rw [heq] at happend
  refine ⟨gap', hgap', ?_⟩
  rw [← happend, thinned_mapOpen hqs, hmore, thinned]

theorem exists_append_thinned (hgap : AreBlank gap) (cs : List Char) :
    ∃ gap', AreBlank gap' ∧ thinned (gap ++ cs) = gap' ++ thinned cs := by
  obtain ⟨htorn, heq⟩ := torn_pieces blind_afterPreserved?.blindTo cs
  obtain ⟨qs, hqs, happend, gap', hgap', hmore⟩ := htorn.exists_prepend blind_afterPreserved? hgap
  rw [heq] at happend
  refine ⟨gap', hgap', ?_⟩
  rw [← happend, thinned_mapOpen hqs, hmore, thinned]

/-- It does not matter whether a text is trimmed before it is thinned. -/
theorem trim_thinned_trim (cs : List Char) : trim (thinned (trim cs)) = trim (thinned cs) := by
  obtain ⟨before, after, hbefore, hafter, heq⟩ := exists_trim cs
  obtain ⟨before', hbefore', hfront⟩ := exists_append_thinned hbefore (trim cs ++ after)
  obtain ⟨after', hafter', hback⟩ := exists_thinned_append hafter (trim cs)
  rw [heq, hback] at hfront
  rw [hfront, trim_around hbefore' hafter']

/-! ## Sources -/

/-- A text without `&sp;` has nothing to expand. -/
theorem expandSpaces_eq_self (h : ¬ "&sp;".toList <:+: cs) : expandSpaces cs = cs := by
  induction cs using expandSpaces.induct with
  | case1 cs ih => exact absurd (List.prefix_append "&sp;".toList cs).isInfix h
  | case2 c cs hentity ih =>
    rw [expandSpaces, ih fun hcs => h (hcs.trans (List.suffix_cons c cs).isInfix)]
    exact hentity
  | case3 => rfl

theorem not_infix_trim_thinned (h : ¬ "&sp;".toList <:+: cs) :
    ¬ "&sp;".toList <:+: trim (thinned cs) := by
  intro hentity
  have hthinned := hentity.trans (infix_trim _)
  have hword : "&sp;".toList <:+: thinned cs ↔ "&sp;".toList <:+: cs :=
    (respaced_thinned cs).infix_iff (by decide) (forall_mem_of_all (by decide))
  exact h (hword.1 hthinned)

/-- Without `&sp;` a text is minified by thinning and trimming it. -/
theorem toList_minify {source : String} (h : ¬ "&sp;".toList <:+: source.toList) :
    (minify source).toList = trim (thinned source.toList) := by
  rw [minify, String.toList_ofList]
  exact expandSpaces_eq_self (not_infix_trim_thinned h)

/-- Minifying a second time changes nothing. -/
theorem minify_minify {source : String} (h : ¬ "&sp;".toList <:+: source.toList) :
    minify (minify source) = minify source := by
  have hlist := toList_minify h
  have hagain : ¬ "&sp;".toList <:+: (minify source).toList := by
    rw [hlist]
    exact not_infix_trim_thinned h
  rw [← String.toList_inj]
  calc (minify (minify source)).toList
    _ = trim (thinned (minify source).toList) := toList_minify hagain
    _ = trim (thinned (trim (thinned source.toList))) := by rw [hlist]
    _ = trim (thinned (thinned source.toList)) := trim_thinned_trim _
    _ = trim (thinned source.toList) := by rw [thinned_thinned]
    _ = (minify source).toList := hlist.symm

/-- An element that is closed late, and braces and a tag that are never closed. -/
theorem minify_minify_unclosed :
    let source := " <pre> a  </PRE  > \n <b \t x> \x7b\x7b 'c  \x7d\x7d </p title=\"> \x7b\x7b  d "
    minify source = "<pre> a  </PRE  ><b \t x> \x7b\x7b 'c  \x7d\x7d </p title=\"> \x7b\x7b  d" ∧
      minify (minify source) = minify source :=
  ⟨by decide +kernel, minify_minify (by decide +kernel)⟩

/-- A text without tags and directives is one part. -/
theorem parts_of_plain (hne : cs ≠ []) (hsign : '<' ∉ cs) (hbraces : ¬ ['{', '{'] <:+: cs) :
    parts cs = [.text cs] := by
  have hstop : Unstopped cs [] := by
    intro s hs hne
    obtain ⟨c, s, rfl⟩ := List.exists_cons_of_ne_nil hne
    rw [List.append_nil, ← Bool.not_eq_true, stopsText_cons]
    rintro (rfl | ⟨rfl, hhead⟩)
    · exact hsign (hs.subset List.mem_cons_self)
    · obtain ⟨s, rfl⟩ := List.head?_eq_some_iff.1 hhead
      exact hbraces ((List.prefix_append ['{', '{'] s).isInfix.trans hs.isInfix)
  obtain ⟨c, cs, rfl⟩ := List.exists_cons_of_ne_nil hne
  have hjoined := parts_joined (.cons (.text hstop (.inl rfl)) .nil)
  simpa [Part.chars] using hjoined

/-- In a text without tags and directives all runs of blanks collapse. -/
theorem trim_minifyOpen_of_plain (hsign : '<' ∉ cs) (hbraces : ¬ ['{', '{'] <:+: cs) :
    trim (minifyOpen cs) = collapse (trim cs) := by
  by_cases hne : cs = []
  · rw [hne, minifyOpen_eq, parts]
    rfl
  · rw [minifyOpen_eq, parts_of_plain hne hsign hbraces, ← trim_collapse]
    cases hkept : false || isInk (.text cs) || !endsRun [] with
    | true =>
      rw [thinFrom_text_of_kept hkept]
      simp [Part.chars, thinFrom]
    | false =>
      obtain ⟨hblank, -, -, hdropped⟩ := thinFrom_text_of_dropped hkept
      rw [hdropped, trim_eq_nil_iff.2 (areBlank_collapse hblank)]
      rfl

theorem thinned_of_plain (hsign : '<' ∉ cs) : thinned cs = minifyOpen cs := by
  have hnone : ∀ s, s <:+ cs → afterPreserved? s = none := by
    intro s hs
    rw [Option.eq_none_iff_forall_ne_some]
    intro rest hrest
    obtain ⟨s, rfl⟩ := blind_afterPreserved?.blindTo.exists_lessThan hrest
    exact hsign (hs.subset List.mem_cons_self)
  rw [thinned, pieces_eq_singleton hnone, mapOpen_openText, mapOpen_nil, List.append_nil]

/-- Minifying touches blanks alone: the ink of the source stays, the source does not get longer, and
of a text without tags and directives the blanks collapse and those at the ends go. -/
theorem ink_minify {source : String} (h : ¬ "&sp;".toList <:+: source.toList) :
    ink (minify source).toList = ink source.toList ∧
      (minify source).length ≤ source.length ∧
      (¬ "\x7b\x7b".toList <:+: source.toList → '<' ∉ source.toList →
        minify source = String.ofList (collapse (trim source.toList))) := by
  have hlist := toList_minify h
  refine ⟨?_, ?_, fun hbraces hsign => ?_⟩
  · rw [hlist, ink_trim, (respaced_thinned _).ink_eq]
  · rw [← String.length_toList, ← String.length_toList, hlist]
    exact Nat.le_trans (infix_trim _).length_le (length_thinned_le _)
  · rw [← String.toList_inj, hlist, String.toList_ofList, thinned_of_plain hsign,
      trim_minifyOpen_of_plain hsign hbraces]

/-- A source with tags and directives, and one that is text alone. -/
theorem ink_minify_title :
    let source := "<h1>\n  \x7b\x7b title \x7d\x7d \t! </h1>\n <script> a  < b </script > \x7b\x7b  c"
    let words := " \x7bone\x7d \n two "
    ink (minify source).toList = ink source.toList ∧ (minify source).length ≤ source.length ∧
      minify source = "<h1> \x7b\x7b title \x7d\x7d ! </h1><script> a  < b </script > \x7b\x7b  c" ∧
      minify words = String.ofList (collapse (trim words.toList)) ∧
      minify words = "\x7bone\x7d two" := by
  intro source words
  have hsource : ¬ "&sp;".toList <:+: source.toList := by decide +kernel
  have hwords : ¬ "&sp;".toList <:+: words.toList := by decide +kernel
  obtain ⟨hink, hlength, -⟩ := ink_minify hsource
  obtain ⟨-, -, hplain⟩ := ink_minify hwords
  exact ⟨hink, hlength, by decide +kernel, hplain (by decide +kernel) (by decide +kernel),
    by decide +kernel⟩

end Stencil.Markup
