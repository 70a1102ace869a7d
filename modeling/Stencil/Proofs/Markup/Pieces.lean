import Stencil.Proofs.Markup.Thinning

/-!
# Pieces of changed texts

`Torn` says of pieces that they are the ones into which the text that they make up is cut. They stay
so when the open ones are changed and the recogniser is blind to that, as it is when they are
respaced. Blanks at the ends of a text leave no more than blanks when its open pieces are minified.
-/

namespace Stencil.Markup

open Text

/-! ## Pieces of changed texts -/

/-- The recogniser takes nothing at any position of the text when `rest` stands behind it. -/
def Passed (after? : List Char → Option (List Char)) (cs rest : List Char) : Prop :=
  ∀ s, s <:+ cs → s ≠ [] → after? (s ++ rest) = none

/-- The pieces are those of the text that they make up. -/
inductive Torn (after? : List Char → Option (List Char)) : List Piece → Prop
  | last {cs : List Char} (h : Passed after? cs []) : Torn after? [.openText cs]
  | cons {cs raw : List Char} {ps : List Piece}
    (h : Passed after? cs ('<' :: (raw ++ mapOpen id ps)))
    (hraw : after? ('<' :: (raw ++ mapOpen id ps)) = some (mapOpen id ps)) (hps : Torn after? ps) :
    Torn after? (.openText cs :: .raw ('<' :: raw) :: ps)

def Piece.onOpen (f : List Char → List Char) : Piece → Piece
  | .openText cs => .openText (f cs)
  | .raw cs => .raw cs

variable {P : Char → Prop} {R : List Char → List Char → Prop}
  {after? : List Char → Option (List Char)} {cs ds rest more gap : List Char}
  {ps : List Piece} {f : List Char → List Char}

@[simp]
theorem mapOpen_nil (f : List Char → List Char) : mapOpen f [] = [] := rfl

@[simp]
theorem mapOpen_openText (f : List Char → List Char) (cs : List Char) (ps : List Piece) :
    mapOpen f (.openText cs :: ps) = f cs ++ mapOpen f ps :=
  List.flatMap_cons

@[simp]
theorem mapOpen_raw (f : List Char → List Char) (cs : List Char) (ps : List Piece) :
    mapOpen f (.raw cs :: ps) = cs ++ mapOpen f ps :=
  List.flatMap_cons

/-- Changing the open pieces twice is changing them once by both. -/
theorem mapOpen_map (f g : List Char → List Char) (ps : List Piece) :
    mapOpen g (ps.map (Piece.onOpen f)) = mapOpen (g ∘ f) ps := by
  rw [mapOpen, mapOpen, List.flatMap_map]
  congr
  funext p
  cases p <;> rfl

/-- The pieces of a text come back when it is cut again. -/
theorem pieces_mapOpen (h : Torn after? ps) : pieces after? (mapOpen id ps) = ps := by
  induction h with
  | @last cs h =>
    have happend := piecesFrom_append h []
    rw [List.append_nil, List.append_nil] at happend
    rw [mapOpen_openText, mapOpen_nil, List.append_nil, id, pieces, happend, piecesFrom,
      List.reverse_reverse]
  | @cons cs raw ps h hraw _ ih =>
    rw [mapOpen_openText, mapOpen_raw, id, pieces, List.cons_append, piecesFrom_append h,
      ← List.cons_append, piecesFrom_consumed (by simp) hraw, List.append_nil, List.reverse_reverse]
    exact congrArg _ (congrArg _ ih)

/-- Every text has pieces, and they make it up. -/
theorem exists_torn (h : BlindTo R after?) (cs : List Char) :
    ∃ ps, Torn after? ps ∧ mapOpen id ps = cs := by
  induction hlength : cs.length using Nat.strongRecOn generalizing cs with
  | ind n ih =>
    subst hlength
    cases hsplit : splitWhere? (fun s => (after? s).isSome) cs with
    | none =>
      refine ⟨[.openText cs], .last fun s hs _ => ?_, by simp⟩
      have hnone := forall_of_splitWhere?_eq_none hsplit s hs
      rwa [List.append_nil, ← Option.not_isSome_iff_eq_none, Bool.not_eq_true]
    | some found =>
      obtain ⟨before, s⟩ := found
      obtain ⟨hs, hbefore⟩ := forall_of_splitWhere? hsplit
      obtain rfl := splitWhere?_append hsplit
      obtain ⟨rest, hrest⟩ := Option.isSome_iff_exists.1 hs
      obtain ⟨s, rfl⟩ := h.exists_lessThan hrest
      obtain ⟨raw, rfl, -⟩ := h.exists_region hrest
      obtain ⟨ps, hps, rfl⟩ := ih rest.length (by simp; omega) rest rfl
      refine ⟨.openText before :: .raw ('<' :: raw) :: ps, .cons (fun s hs hne => ?_) hrest hps, ?_⟩
      · simpa using hbefore s hs hne
      · simp

theorem torn_pieces (h : BlindTo R after?) (cs : List Char) :
    Torn after? (pieces after? cs) ∧ mapOpen id (pieces after? cs) = cs := by
  obtain ⟨ps, hps, rfl⟩ := exists_torn h cs
  rw [pieces_mapOpen hps]
  exact ⟨hps, rfl⟩

/-- Nothing is taken in a changed text where the text behind stays related. -/
theorem Passed.changed (hR : Keeps P R) (hafter : BlindTo R after?) (h : Passed after? cs rest)
    (hcs : R ds cs) (hall : ∀ xs ys, R ys xs → R (ys ++ more) (xs ++ rest)) :
    Passed after? ds more := by
  rintro s ⟨before, rfl⟩ hne
  obtain ⟨c, s, rfl⟩ := List.exists_cons_of_ne_nil hne
  by_cases hc : c = '<'
  · subst hc
    obtain ⟨before', s', rfl, hs⟩ := hR.exists_cut hcs
    have hnone := h ('<' :: s') (List.suffix_append ..) (by simp)
    exact hafter.eq_none (hall s' s hs) hnone
  · exact hafter.cons hc

theorem Keeps.mapOpen (hR : Keeps P R) (h : Torn after? ps) (hf : ∀ cs, R (f cs) cs) :
    R (mapOpen f ps) (mapOpen id ps) := by
  induction h with
  | @last cs h => simpa using hf cs
  | @cons cs raw ps h hraw _ ih =>
    simp only [mapOpen_openText, mapOpen_raw, id, List.cons_append]
    exact hR.append_lessThan (hf cs) (hR.prepend raw ih)

/-- The pieces are again those of a text when the open ones are changed. -/
theorem Torn.map (hR : Keeps P R) (hafter : BlindTo R after?) (h : Torn after? ps)
    (hf : ∀ cs, R (f cs) cs) : Torn after? (ps.map (Piece.onOpen f)) := by
  induction h with
  | @last cs h =>
    exact .last (h.changed hR hafter (hf cs) fun xs ys hxs => by simpa using hxs)
  | @cons cs raw ps h hraw hps ih =>
    have hrest : R (mapOpen id (ps.map (Piece.onOpen f))) (mapOpen id ps) := by
      rw [mapOpen_map]
      exact hR.mapOpen hps hf
    refine .cons (h.changed hR hafter (hf cs) fun xs ys hxs => ?_) ?_ ih
    · exact hR.append_lessThan hxs (hR.prepend raw hrest)
    · exact hafter.region hraw hrest

/-- If the recogniser is blind to what changes the open pieces, the text is cut as before. -/
theorem pieces_mapOpen_pieces (hR : Keeps P R) (hafter : BlindTo R after?)
    (hf : ∀ cs, R (f cs) cs) (cs : List Char) :
    pieces after? (mapOpen f (pieces after? cs)) = (pieces after? cs).map (Piece.onOpen f) := by
  have hpieces := pieces_mapOpen ((torn_pieces hafter cs).1.map hR hafter hf)
  rwa [mapOpen_map] at hpieces

/-- If a change of open text does not change it again and keeps what the recogniser sees, cutting
and changing twice comes to doing so once. -/
theorem mapOpen_pieces_twice (hR : Keeps P R) (hafter : BlindTo R after?) (hf : ∀ cs, R (f cs) cs)
    (htwice : ∀ cs, f (f cs) = f cs) (cs : List Char) :
    mapOpen f (pieces after? (mapOpen f (pieces after? cs))) = mapOpen f (pieces after? cs) := by
  have hcomp : f ∘ f = f := funext htwice
  rw [pieces_mapOpen_pieces hR hafter hf, mapOpen_map, hcomp]

/-- A recogniser that does not see blanks passes a text with others. -/
theorem Passed.respaced (hafter : Blind after?) (h : Passed after? cs rest) (hcs : Respaced cs ds)
    (hall : ∀ xs ys, Respaced xs ys → Respaced (xs ++ rest) (ys ++ more)) :
    Passed after? ds more :=
  h.changed keeps_respaced hafter.blindTo hcs.symm fun _ _ hxs => (hall _ _ hxs.symm).symm

/-! ## Blanks at the ends -/

/-- Blanks at the end of a text stay with its last piece, or make one. -/
theorem Torn.exists_append (hafter : Blind after?) (h : Torn after? ps) (hgap : AreBlank gap) :
    ∃ qs, Torn after? qs ∧ mapOpen id qs = mapOpen id ps ++ gap ∧
      ∃ gap', AreBlank gap' ∧ mapOpen minifyOpen qs = mapOpen minifyOpen ps ++ gap' := by
  induction h with
  | @last cs h =>
    have hbehind : Respaced cs (cs ++ gap) := (respaced_append_blank hgap cs).symm
    obtain ⟨gap', hgap', heq⟩ := exists_minifyOpen_append hgap cs
    refine ⟨[.openText (cs ++ gap)], ?_, by simp, gap', hgap', by simp [heq]⟩
    exact .last (h.respaced hafter hbehind fun xs ys hxs => by simpa using hxs)
  | @cons cs raw ps h hraw hps ih =>
    obtain ⟨qs, hqs, heq, gap', hgap', hmore⟩ := ih
    have hrest : Respaced (mapOpen id ps) (mapOpen id qs) :=
      heq ▸ (respaced_append_blank hgap _).symm
    refine ⟨.openText cs :: .raw ('<' :: raw) :: qs, .cons ?_ ?_ hqs, by simp [heq], gap', hgap',
      by simp [hmore]⟩
    · exact h.respaced hafter rfl fun xs ys hxs =>
        hxs.append_lessThan (hrest.prepend ('<' :: raw))
    · exact hafter.region hraw hrest

theorem Passed.blank_append (hafter : Blind after?) (h : Passed after? cs rest)
    (hgap : AreBlank gap) : Passed after? (gap ++ cs) rest := by
  intro s hs hne
  obtain hs | ⟨front, hfront, hfirst, rfl⟩ := suffix_append_cases hs
  · exact h s hs hne
  · obtain ⟨c, front, rfl⟩ := List.exists_cons_of_ne_nil hfirst
    refine hafter.cons ?_
    rintro rfl
    exact absurd (hgap '<' (hfront.subset List.mem_cons_self)) (by decide)

theorem Torn.exists_prepend (hafter : Blind after?) (h : Torn after? ps) (hgap : AreBlank gap) :
    ∃ qs, Torn after? qs ∧ mapOpen id qs = gap ++ mapOpen id ps ∧
      ∃ gap', AreBlank gap' ∧ mapOpen minifyOpen qs = gap' ++ mapOpen minifyOpen ps := by
  cases h with
  | @last cs h =>
    obtain ⟨gap', hgap', heq⟩ := exists_append_minifyOpen hgap cs
    exact ⟨_, .last (h.blank_append hafter hgap), by simp, gap', hgap', by simp [heq]⟩
  | @cons cs raw ps h hraw hps =>
    obtain ⟨gap', hgap', heq⟩ := exists_append_minifyOpen hgap cs
    exact ⟨_, .cons (h.blank_append hafter hgap) hraw hps, by simp, gap', hgap', by simp [heq]⟩

end Stencil.Markup
