import Stencil.Proofs.Markup.Parts

/-!
# Thinned parts

`thinFrom` gives the parts of the minified text. Text keeps its first character, touches what it
touched before, and is dropped only before a tag or the end, so these parts are again those of the
text that they make up, and thinning them a second time changes nothing. Blanks at the ends of a
text leave no more than blanks at the ends of the minified text.
-/

namespace Stencil.Markup

open Text

variable {cs ds rest gap : List Char} {p : Part} {ps qs : List Part}

/-- Whether a run of text and directives ends before these parts. -/
def endsRun : List Part → Bool
  | [] => true
  | .tag _ :: _ => true
  | _ => false

/-- The parts of the minified text. `kept` says that something of the run so far is kept. -/
def thinFrom (kept : Bool) : List Part → List Part
  | [] => []
  | .tag cs :: ps => .tag cs :: thinFrom false ps
  | .directive cs :: ps => .directive cs :: thinFrom true ps
  | .text cs :: ps =>
    if kept || isInk (.text cs) || !endsRun ps then .text (collapse cs) :: thinFrom true ps
    else thinFrom false ps

/-- A text is kept for its ink alone. -/
theorem isInk_text_eq_false : isInk (.text cs) = false ↔ AreBlank cs := by
  simp [isInk, ← trim_eq_nil_iff]

theorem isInk_text_congr (h : AreBlank cs ↔ AreBlank ds) :
    isInk (.text cs) = isInk (.text ds) := by
  rw [Bool.eq_iff_iff, ← Bool.not_eq_false, ← Bool.not_eq_false, isInk_text_eq_false,
    isInk_text_eq_false, h]

theorem isInk_sign (cs : List Char) : isInk (.text ('<' :: cs)) = true := by
  rw [← Bool.not_eq_false, isInk_text_eq_false]
  exact fun hblank => absurd (hblank '<' List.mem_cons_self) (by decide)

/-- A text with ink is collapsed, and so is one in a run that is kept or goes on. -/
theorem thinFrom_text_of_kept {kept : Bool}
    (h : (kept || isInk (.text cs) || !endsRun ps) = true) :
    thinFrom kept (.text cs :: ps) = .text (collapse cs) :: thinFrom true ps :=
  if_pos h

/-- Blanks are dropped between tags, where the run has nothing else. -/
theorem thinFrom_text_of_dropped {kept : Bool}
    (h : (kept || isInk (.text cs) || !endsRun ps) = false) :
    AreBlank cs ∧ endsRun ps = true ∧ kept = false ∧
      thinFrom kept (.text cs :: ps) = thinFrom false ps := by
  have hdropped : thinFrom kept (.text cs :: ps) = thinFrom false ps := if_neg (by simp [h])
  simp only [Bool.or_eq_false_iff, Bool.not_eq_false', isInk_text_eq_false] at h
  exact ⟨h.1.2, h.2, h.1.1, hdropped⟩

/-- Blanks that end a run are not seen from behind. -/
theorem respaced_before_run (hps : Cut ps) (h : endsRun ps = true) (hgap : AreBlank gap) :
    Respaced (gap ++ joined ps) (joined ps) := by
  cases hps with
  | nil =>
    rw [joined_nil, List.append_nil]
    exact respaced_append_blank hgap []
  | @cons p ps hfits hps =>
    generalize heq : joined ps = rest at hfits
    cases hfits with
    | tag =>
      rw [Respaced, joined_cons, Part.chars, List.cons_append, spacedFrom_append_lessThan,
        spacedFrom_of_areBlank hgap]
      rfl
    | directive | openDirective | sign | text => cases h

/-- Thinning keeps the ink, and what of it touches. -/
theorem respaced_joined_thinFrom (h : Cut ps) (kept : Bool) :
    Respaced (joined (thinFrom kept ps)) (joined ps) := by
  induction h generalizing kept with
  | nil => exact rfl
  | @cons p ps hfits hps ih =>
    cases p with
    | tag cs => exact (ih false).prepend cs
    | directive cs => exact (ih true).prepend cs
    | text cs =>
      rw [joined_cons]
      cases hkept : kept || isInk (.text cs) || !endsRun ps with
      | true =>
        rw [thinFrom_text_of_kept hkept, joined_cons]
        exact (respaced_collapse_append cs _).trans ((ih true).prepend cs)
      | false =>
        obtain ⟨hblank, hends, -, hdropped⟩ := thinFrom_text_of_dropped hkept
        rw [hdropped]
        exact (ih false).trans (respaced_before_run hps hends hblank).symm

theorem stopsText_joined_thinFrom (h : Cut ps) (kept : Bool) (hstop : stopsText (joined ps) = true) :
    stopsText (joined (thinFrom kept ps)) = true := by
  cases h with
  | nil => exact hstop
  | @cons p ps hfits hps =>
    generalize heq : joined ps = rest at hfits
    cases hfits with
    | directive | openDirective => exact (stopsText_cons _ _).2 (.inr ⟨rfl, rfl⟩)
    | tag => exact (stopsText_cons _ _).2 (.inl rfl)
    | @sign cs =>
      rw [thinFrom_text_of_kept (by simp [isInk_sign]), joined_cons, Part.chars,
        collapse_cons_of_ink isBlank_lessThan]
      exact (stopsText_cons _ _).2 (.inl rfl)
    | text h =>
      have hgo := h _ (List.suffix_refl _) (by simp)
      rw [joined_cons, Part.chars, heq, hgo] at hstop
      cases hstop

theorem joined_eq_nil (h : Cut ps) (hps : joined ps = []) : ps = [] := by
  cases h with
  | nil => rfl
  | cons hfits =>
    obtain ⟨c, cs, hp⟩ := hfits.exists_cons
    rw [joined_cons, hp] at hps
    cases hps

/-- The thinned parts are those of the text that they make up. -/
theorem cut_thinFrom (h : Cut ps) (kept : Bool) : Cut (thinFrom kept ps) := by
  induction h generalizing kept with
  | nil => exact .nil
  | @cons p ps hfits hps ih =>
    have hthin (kept : Bool) : Fits p (joined (thinFrom kept ps)) := by
      refine hfits.respaced (respaced_joined_thinFrom hps kept).symm (fun hnil => ?_)
        (stopsText_joined_thinFrom hps kept)
      rw [joined_eq_nil hps hnil]
      rfl
    cases p with
    | tag cs => exact .cons (hthin false) (ih false)
    | directive cs => exact .cons (hthin true) (ih true)
    | text cs =>
      cases hkept : kept || isInk (.text cs) || !endsRun ps with
      | true =>
        rw [thinFrom_text_of_kept hkept]
        exact .cons (hthin true).collapse (ih true)
      | false =>
        obtain ⟨-, -, -, hdropped⟩ := thinFrom_text_of_dropped hkept
        exact hdropped ▸ ih false

theorem endsRun_thinFrom_true (ps : List Part) : endsRun (thinFrom true ps) = endsRun ps := by
  cases ps with
  | nil => rfl
  | cons p ps => cases p <;> rfl

theorem isInk_collapse (cs : List Char) : isInk (.text (collapse cs)) = isInk (.text cs) :=
  isInk_text_congr ⟨(respaced_collapse cs).areBlank, (respaced_collapse cs).symm.areBlank⟩

/-- Thinning the parts twice comes to thinning them once. -/
theorem thinFrom_thinFrom (kept : Bool) (ps : List Part) :
    thinFrom kept (thinFrom kept ps) = thinFrom kept ps := by
  induction ps generalizing kept with
  | nil => rfl
  | cons p ps ih =>
    cases p with
    | tag cs => exact congrArg (Part.tag cs :: ·) (ih false)
    | directive cs => exact congrArg (Part.directive cs :: ·) (ih true)
    | text cs =>
      cases hkept : kept || isInk (.text cs) || !endsRun ps with
      | true =>
        have hagain : (kept || isInk (.text (collapse cs)) || !endsRun (thinFrom true ps)) = true := by
          rw [isInk_collapse, endsRun_thinFrom_true, hkept]
        rw [thinFrom_text_of_kept hkept, thinFrom_text_of_kept hagain, collapse_collapse, ih]
      | false =>
        obtain ⟨-, -, rfl, hdropped⟩ := thinFrom_text_of_dropped hkept
        rw [hdropped, ih]

/-- Thinning makes no text longer. -/
theorem length_joined_thinFrom_le (kept : Bool) (ps : List Part) :
    (joined (thinFrom kept ps)).length ≤ (joined ps).length := by
  induction ps generalizing kept with
  | nil => exact Nat.le_refl 0
  | cons p ps ih =>
    have hrest (kept : Bool) : (joined (thinFrom kept ps)).length ≤ (joined ps).length := ih kept
    rw [joined_cons, List.length_append]
    cases p with
    | tag cs | directive cs =>
      rw [thinFrom, joined_cons, List.length_append]
      exact Nat.add_le_add_left (hrest _) _
    | text cs =>
      cases hkept : kept || isInk (.text cs) || !endsRun ps with
      | true =>
        rw [thinFrom_text_of_kept hkept, joined_cons, List.length_append]
        exact Nat.add_le_add (length_collapseFrom_le false cs) (hrest true)
      | false =>
        obtain ⟨-, -, -, hdropped⟩ := thinFrom_text_of_dropped hkept
        rw [hdropped]
        exact Nat.le_trans (hrest false) (Nat.le_add_left _ _)

/-! ## Shrinking -/

/-- Whether a run goes on with something that is kept. -/
def inksRun : List Part → Bool
  | .directive _ :: _ => true
  | .text cs :: _ => isInk (.text cs)
  | _ => false

/-- Text is followed by text only where a less-than sign opens no tag. -/
theorem inksRun_of_cut (h : Cut (.text cs :: ps)) (hends : endsRun ps = false) :
    inksRun ps = true := by
  obtain _ | ⟨hfits, hps⟩ := h
  have hstop : joined ps = [] ∨ stopsText (joined ps) = true := by
    cases hfits with
    | sign _ _ hrest | text _ hrest => exact hrest
  cases hps with
  | nil => cases hends
  | @cons p ps hnext _ =>
    rw [joined_cons] at hstop
    generalize joined ps = rest at hnext hstop
    cases hnext with
    | tag => cases hends
    | directive | openDirective => rfl
    | sign => exact isInk_sign _
    | text h =>
      have hgo := h _ (List.suffix_refl _) (by simp)
      rw [List.cons_append] at hgo
      simp [Part.chars, hgo] at hstop

theorem shrinkFrom_tag (run : List Part) (cs : List Char) (ps : List Part) :
    shrinkFrom run (.tag cs :: ps) = shrinkRun run ++ cs ++ shrinkFrom [] ps := rfl

theorem shrinkFrom_directive (run : List Part) (cs : List Char) (ps : List Part) :
    shrinkFrom run (.directive cs :: ps) = shrinkFrom (.directive cs :: run) ps := rfl

theorem shrinkFrom_text (run : List Part) (cs : List Char) (ps : List Part) :
    shrinkFrom run (.text cs :: ps) = shrinkFrom (.text cs :: run) ps := rfl

/-- A run with ink is shrunk part by part. -/
theorem shrinkRun_eq {run : List Part} (h : run.any isInk = true) :
    shrinkRun run = run.reverse.flatMap Part.shrunk :=
  if_pos h

/-- Of a run of blanks alone nothing is left. -/
theorem shrinkFrom_blank (hblank : AreBlank cs) (hends : endsRun ps = true) :
    shrinkFrom [] (.text cs :: ps) = shrinkFrom [] ps := by
  have hnone : shrinkRun [.text cs] = [] := by
    rw [shrinkRun, List.any_cons, isInk_text_eq_false.2 hblank]
    rfl
  cases ps with
  | nil => exact hnone
  | cons p ps =>
    cases p with
    | tag cs' =>
      rw [shrinkFrom_text, shrinkFrom_tag, shrinkFrom_tag, hnone]
      rfl
    | directive | text => cases hends

/-- The newest part of a run is the last one that is written. -/
theorem flatMap_shrunk_cons (p : Part) (run : List Part) (cs : List Char) :
    (p :: run).reverse.flatMap Part.shrunk ++ cs =
      run.reverse.flatMap Part.shrunk ++ (p.shrunk ++ cs) := by
  simp

/-- A run of which something is kept is kept as a whole. -/
theorem shrinkFrom_eq (h : Cut ps) : shrinkFrom [] ps = joined (thinFrom false ps) ∧
    ∀ run, (run.any isInk || inksRun ps) = true →
      shrinkFrom run ps = run.reverse.flatMap Part.shrunk ++ joined (thinFrom true ps) := by
  induction h with
  | nil =>
    refine ⟨rfl, fun run hrun => ?_⟩
    simp only [inksRun, Bool.or_false] at hrun
    rw [shrinkFrom, shrinkRun_eq hrun, thinFrom, joined_nil, List.append_nil]
  | @cons p ps hfits hps ih =>
    obtain ⟨hfresh, hgoing⟩ := ih
    cases p with
    | tag cs =>
      refine ⟨?_, fun run hrun => ?_⟩
      · rw [shrinkFrom_tag, hfresh]
        rfl
      · simp only [inksRun, Bool.or_false] at hrun
        rw [shrinkFrom_tag, hfresh, shrinkRun_eq hrun, thinFrom, joined_cons, List.append_assoc]
        rfl
    | directive cs =>
      have hdirective (run : List Part) : shrinkFrom run (.directive cs :: ps) =
          run.reverse.flatMap Part.shrunk ++ (cs ++ joined (thinFrom true ps)) := by
        rw [shrinkFrom_directive, hgoing _ rfl, flatMap_shrunk_cons, Part.shrunk]
      exact ⟨hdirective [], fun run _ => hdirective run⟩
    | text cs =>
      have htext (run : List Part) (hrun : ((Part.text cs :: run).any isInk || inksRun ps) = true) :
          shrinkFrom run (.text cs :: ps) =
            run.reverse.flatMap Part.shrunk ++ (collapse cs ++ joined (thinFrom true ps)) := by
        rw [shrinkFrom_text, hgoing _ hrun, flatMap_shrunk_cons, Part.shrunk]
      refine ⟨?_, fun run hrun => htext run ?_⟩
      · cases hkept : false || isInk (.text cs) || !endsRun ps with
        | true =>
          rw [thinFrom_text_of_kept hkept]
          refine htext [] ?_
          cases hends : endsRun ps with
          | true => simp_all
          | false => simp [inksRun_of_cut (.cons hfits hps) hends]
        | false =>
          obtain ⟨hblank, hends, -, hdropped⟩ := thinFrom_text_of_dropped hkept
          rw [hdropped, ← hfresh, shrinkFrom_blank hblank hends]
      · have hfirst : isInk (.text cs) = inksRun (.text cs :: ps) := rfl
        rw [List.any_cons, hfirst, Bool.or_comm (inksRun _), hrun, Bool.true_or]

/-- Minifying thins the parts of the text. -/
theorem minifyOpen_eq (cs : List Char) : minifyOpen cs = joined (thinFrom false (parts cs)) :=
  (shrinkFrom_eq (cut_parts cs).1).1

/-- The parts of a minified text are the thinned ones. -/
theorem parts_minifyOpen (cs : List Char) : parts (minifyOpen cs) = thinFrom false (parts cs) := by
  rw [minifyOpen_eq, parts_joined (cut_thinFrom (cut_parts cs).1 false)]

/-- A minified text is minified. -/
theorem minifyOpen_minifyOpen (cs : List Char) : minifyOpen (minifyOpen cs) = minifyOpen cs := by
  rw [minifyOpen_eq (minifyOpen cs), parts_minifyOpen, thinFrom_thinFrom, minifyOpen_eq]

/-- Minifying an open text changes blanks alone. -/
theorem respaced_minifyOpen (cs : List Char) : Respaced (minifyOpen cs) cs := by
  obtain ⟨hcut, hjoined⟩ := cut_parts cs
  have hthin := respaced_joined_thinFrom hcut false
  rwa [hjoined, ← minifyOpen_eq] at hthin

theorem length_minifyOpen_le (cs : List Char) : (minifyOpen cs).length ≤ cs.length := by
  have hthin := length_joined_thinFrom_le false (parts cs)
  rwa [(cut_parts cs).2, ← minifyOpen_eq] at hthin

/-! ## Blanks at the ends -/

theorem unstopped_blank (hgap : AreBlank gap) (rest : List Char) : Unstopped gap rest := by
  intro s hs hne
  obtain ⟨c, s, rfl⟩ := List.exists_cons_of_ne_nil hne
  have hc : isBlank c = true := hgap c (hs.subset List.mem_cons_self)
  rw [List.cons_append, ← Bool.not_eq_true, stopsText_cons]
  rintro (rfl | ⟨rfl, -⟩) <;> exact absurd hc (by decide)

/-- Blanks up to the next tag or directive are a part. -/
theorem fits_blank (hgap : AreBlank gap) (hne : gap ≠ [])
    (hrest : rest = [] ∨ stopsText rest = true) : Fits (.text gap) rest := by
  obtain ⟨c, gap, rfl⟩ := List.exists_cons_of_ne_nil hne
  exact .text (unstopped_blank hgap rest) hrest

theorem isInk_append_blank (hgap : AreBlank gap) (cs : List Char) :
    isInk (.text (cs ++ gap)) = isInk (.text cs) :=
  isInk_text_congr (by rw [AreBlank, List.forall_mem_append]; exact and_iff_left hgap)

/-- The parts of a text with blanks behind it. Thinning leaves blanks of these at the end. -/
structure Trailing (gap : List Char) (ps qs : List Part) : Prop where
  cut : Cut qs
  joined_eq : joined qs = joined ps ++ gap
  endsRun_eq : ps ≠ [] → endsRun qs = endsRun ps
  exists_thin : ∀ kept, ∃ gap', AreBlank gap' ∧
    joined (thinFrom kept qs) = joined (thinFrom kept ps) ++ gap'

theorem trailing_nil (hgap : AreBlank gap) (hne : gap ≠ []) : Trailing gap [] [.text gap] where
  cut := .cons (fits_blank hgap hne (.inl rfl)) .nil
  joined_eq := by simp [Part.chars]
  endsRun_eq h := absurd rfl h
  exists_thin kept := by
    have hcut : Cut [.text gap] := .cons (fits_blank hgap hne (.inl rfl)) .nil
    refine ⟨_, (respaced_joined_thinFrom hcut kept).symm.areBlank ?_, rfl⟩
    simpa [Part.chars] using hgap

theorem trailing_cons {gap : List Char} (hfits : Fits p (joined qs)) (h : Trailing gap ps qs)
    (hends : ∀ cs, p = .text cs → ps ≠ []) : Trailing gap (p :: ps) (p :: qs) where
  cut := .cons hfits h.cut
  joined_eq := by rw [joined_cons, joined_cons, h.joined_eq, List.append_assoc]
  endsRun_eq _ := by cases p <;> rfl
  exists_thin kept := by
    have hafter (kept : Bool) (cs : List Char) : ∃ gap', AreBlank gap' ∧
        cs ++ joined (thinFrom kept qs) = cs ++ joined (thinFrom kept ps) ++ gap' := by
      obtain ⟨gap', hgap', heq⟩ := h.exists_thin kept
      exact ⟨gap', hgap', by rw [heq, List.append_assoc]⟩
    cases p with
    | tag cs => exact hafter false cs
    | directive cs => exact hafter true cs
    | text cs =>
      have hsame := h.endsRun_eq (hends cs rfl)
      cases hkept : kept || isInk (.text cs) || !endsRun ps with
      | true =>
        rw [thinFrom_text_of_kept hkept, thinFrom_text_of_kept (by rwa [hsame])]
        exact hafter true (collapse cs)
      | false =>
        obtain ⟨-, -, -, hdropped⟩ := thinFrom_text_of_dropped hkept
        rw [← hsame] at hkept
        obtain ⟨-, -, -, hdropped'⟩ := thinFrom_text_of_dropped hkept
        rw [hdropped, hdropped']
        exact h.exists_thin false

theorem trailing_text (hgap : AreBlank gap) (hfits : Fits (.text (cs ++ gap)) []) :
    Trailing gap [.text cs] [.text (cs ++ gap)] where
  cut := .cons hfits .nil
  joined_eq := by simp [Part.chars]
  endsRun_eq _ := rfl
  exists_thin kept := by
    cases hkept : kept || isInk (.text cs) || !endsRun [] with
    | true =>
      obtain ⟨gap', hgap', heq⟩ := exists_append_collapse hgap cs
      rw [thinFrom_text_of_kept hkept, thinFrom_text_of_kept (by rwa [isInk_append_blank hgap]), heq]
      exact ⟨gap', hgap', by simp [Part.chars, thinFrom]⟩
    | false =>
      obtain ⟨-, -, -, hdropped⟩ := thinFrom_text_of_dropped hkept
      rw [← isInk_append_blank hgap] at hkept
      obtain ⟨-, -, -, hdropped'⟩ := thinFrom_text_of_dropped hkept
      exact ⟨[], areBlank_nil, by rw [hdropped, hdropped', List.append_nil]⟩

theorem trailing_openDirective (hgap : AreBlank gap) (hfits : Fits (.directive (cs ++ gap)) []) :
    Trailing gap [.directive cs] [.directive (cs ++ gap)] where
  cut := .cons hfits .nil
  joined_eq := by simp [Part.chars]
  endsRun_eq _ := rfl
  exists_thin _ := ⟨gap, hgap, by simp [thinFrom, Part.chars]⟩

/-- Text and an open directive at the end take the blanks in, a tag and a closed directive do
not. -/
theorem exists_trailing_singleton (hgap : AreBlank gap) (hne : gap ≠ []) (h : Fits p []) :
    ∃ qs, Trailing gap [p] qs := by
  have hbehind (cs : List Char) : Respaced cs (cs ++ gap) := (respaced_append_blank hgap cs).symm
  have hbeside (hp : Fits p gap) (hends : ∀ cs, p = .text cs → ([] : List Part) ≠ []) :
      ∃ qs, Trailing gap [p] qs := by
    refine ⟨[p, .text gap], trailing_cons ?_ (trailing_nil hgap hne) hends⟩
    simpa [Part.chars] using hp
  generalize hnil : [] = rest at h
  cases h with
  | directive h =>
    subst hnil
    exact hbeside (.directive (Braces.split?_region h gap)) (by simp)
  | tag h =>
    subst hnil
    exact hbeside ((Fits.tag h).tag_respaced (hbehind [])) (by simp)
  | @openDirective cs h =>
    exact ⟨_, trailing_openDirective hgap
      (.openDirective ((Braces.split?_eq_none_iff (hbehind cs)).1 h))⟩
  | @sign cs _ hnone h _ =>
    subst hnil
    refine ⟨_, trailing_text hgap (.sign ?_ (h.respaced (hbehind cs) ?_) (.inl rfl))⟩
    · simpa using (blind_afterTagLike?.eq_none_iff (hbehind cs)).1 (by simpa using hnone)
    · simpa using hbehind cs
  | @text c cs _ h _ =>
    subst hnil
    refine ⟨_, trailing_text hgap (.text (h.respaced (hbehind (c :: cs)) ?_) (.inl rfl))⟩
    simpa using hbehind (c :: cs)

/-- Whatever the last part is, blanks behind the text can be put behind it. -/
theorem exists_trailing (hgap : AreBlank gap) (hne : gap ≠ []) (h : Cut ps) :
    ∃ qs, Trailing gap ps qs := by
  induction h with
  | nil => exact ⟨_, trailing_nil hgap hne⟩
  | @cons p ps hfits hps ih =>
    by_cases hlast : ps = []
    · subst hlast
      exact exists_trailing_singleton hgap hne hfits
    · obtain ⟨qs, htrailing⟩ := ih
      refine ⟨p :: qs, trailing_cons ?_ htrailing fun _ _ => hlast⟩
      rw [htrailing.joined_eq]
      refine hfits.respaced (respaced_append_blank hgap _).symm (fun hnil => ?_) fun hstop => ?_
      · exact absurd (joined_eq_nil hps hnil) hlast
      · exact stopsText_append hstop gap

/-- Blanks behind an open text stay behind it. -/
theorem exists_minifyOpen_append (hgap : AreBlank gap) (cs : List Char) :
    ∃ gap', AreBlank gap' ∧ minifyOpen (cs ++ gap) = minifyOpen cs ++ gap' := by
  obtain ⟨hcut, hjoined⟩ := cut_parts cs
  by_cases hne : gap = []
  · exact ⟨[], areBlank_nil, by simp [hne]⟩
  · obtain ⟨qs, h⟩ := exists_trailing hgap hne hcut
    obtain ⟨gap', hgap', heq⟩ := h.exists_thin false
    have hparts := parts_joined h.cut
    rw [h.joined_eq, hjoined] at hparts
    exact ⟨gap', hgap', by rw [minifyOpen_eq, minifyOpen_eq, hparts, heq]⟩

theorem Unstopped.blank_append (h : Unstopped cs rest) (hgap : AreBlank gap) :
    Unstopped (gap ++ cs) rest := by
  intro s hs hne
  obtain hs | ⟨front, hfront, hfirst, rfl⟩ := suffix_append_cases hs
  · exact h s hs hne
  · rw [List.append_assoc]
    exact unstopped_blank hgap (cs ++ rest) front hfront hfirst

/-- Where the run goes on with ink, it does not matter whether something was kept before. -/
theorem thinFrom_true_of_inksRun (h : inksRun ps = true) : thinFrom true ps = thinFrom false ps := by
  cases ps with
  | nil => rfl
  | cons p ps =>
    cases p with
    | tag | directive => rfl
    | text cs =>
      have hink : isInk (.text cs) = true := h
      rw [thinFrom_text_of_kept (by simp), thinFrom_text_of_kept (by simp [hink])]

theorem exists_thinFrom_leading (hgap : AreBlank gap) (cs : List Char) (ps : List Part) :
    ∃ gap', AreBlank gap' ∧ joined (thinFrom false (.text (gap ++ cs) :: ps)) =
      gap' ++ joined (thinFrom false (.text cs :: ps)) := by
  have hink : isInk (.text (gap ++ cs)) = isInk (.text cs) :=
    isInk_text_congr (by rw [AreBlank, List.forall_mem_append]; exact and_iff_right hgap)
  cases hkept : false || isInk (.text cs) || !endsRun ps with
  | true =>
    obtain ⟨gap', hgap', heq⟩ := exists_collapse_append hgap cs
    rw [thinFrom_text_of_kept hkept, thinFrom_text_of_kept (by rwa [hink]), heq]
    exact ⟨gap', hgap', by simp [Part.chars]⟩
  | false =>
    obtain ⟨-, -, -, hdropped⟩ := thinFrom_text_of_dropped hkept
    rw [← hink] at hkept
    obtain ⟨-, -, -, hdropped'⟩ := thinFrom_text_of_dropped hkept
    exact ⟨[], areBlank_nil, by rw [hdropped, hdropped', List.nil_append]⟩

/-- The parts of a text with blanks before it. In front of a stop the blanks are a part of their
own. -/
theorem exists_leading (hgap : AreBlank gap) (hne : gap ≠ []) (h : Cut ps) :
    ∃ qs, Cut qs ∧ joined qs = gap ++ joined ps ∧ ∃ gap', AreBlank gap' ∧
      joined (thinFrom false qs) = gap' ++ joined (thinFrom false ps) := by
  by_cases hstop : joined ps = [] ∨ stopsText (joined ps) = true
  · have hcut : Cut (.text gap :: ps) := .cons (fits_blank hgap hne hstop) h
    refine ⟨_, hcut, rfl, ?_⟩
    cases hkept : false || isInk (.text gap) || !endsRun ps with
    | false =>
      obtain ⟨-, -, -, hdropped⟩ := thinFrom_text_of_dropped hkept
      exact ⟨[], areBlank_nil, by rw [hdropped, List.nil_append]⟩
    | true =>
      have hends : endsRun ps = false := by
        simpa [isInk_text_eq_false.2 hgap] using hkept
      refine ⟨collapse gap, areBlank_collapse hgap, ?_⟩
      rw [thinFrom_text_of_kept hkept, thinFrom_true_of_inksRun (inksRun_of_cut hcut hends)]
      rfl
  · cases h with
    | nil => exact absurd (.inl rfl) hstop
    | @cons p ps hfits hps =>
      rw [joined_cons] at hstop
      generalize hrest : joined ps = rest at hfits hstop
      cases hfits with
      | directive | openDirective => exact absurd (.inr ((stopsText_cons _ _).2 (.inr ⟨rfl, rfl⟩))) hstop
      | tag | sign => exact absurd (.inr ((stopsText_cons _ _).2 (.inl rfl))) hstop
      | @text c cs _ h hend =>
        obtain ⟨d, gap, rfl⟩ := List.exists_cons_of_ne_nil hne
        have hfits : Fits (.text (d :: gap ++ c :: cs)) (joined ps) :=
          hrest ▸ .text (h.blank_append hgap) hend
        exact ⟨_, .cons hfits hps, by simp [Part.chars], exists_thinFrom_leading hgap (c :: cs) ps⟩

/-- Blanks in front of an open text stay in front of it. -/
theorem exists_append_minifyOpen (hgap : AreBlank gap) (cs : List Char) :
    ∃ gap', AreBlank gap' ∧ minifyOpen (gap ++ cs) = gap' ++ minifyOpen cs := by
  obtain ⟨hcut, hjoined⟩ := cut_parts cs
  by_cases hne : gap = []
  · exact ⟨[], areBlank_nil, by simp [hne]⟩
  · obtain ⟨qs, hqs, heq, gap', hgap', hthin⟩ := exists_leading hgap hne hcut
    have hparts := parts_joined hqs
    rw [heq, hjoined] at hparts
    exact ⟨gap', hgap', by rw [minifyOpen_eq, minifyOpen_eq, hparts, hthin]⟩

end Stencil.Markup
