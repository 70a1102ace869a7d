import Stencil.Proofs.Text.Ink

/-!
# Collapsed blanks

Collapsing a text a second time changes nothing, and blanks at the ends of a text stay at its ends.
So it does not matter whether a text is trimmed before its blanks are collapsed or afterwards.
-/

namespace Stencil.Text

variable {afterBlank : Bool} {c : Char} {cs ds gap : List Char}

theorem collapseFrom_cons_of_ink (hc : isBlank c = false) (cs : List Char) :
    collapseFrom afterBlank (c :: cs) = c :: collapseFrom false cs :=
  if_neg (by simp [hc])

theorem collapseFrom_cons_of_blank (hc : isBlank c = true) (cs : List Char) :
    collapseFrom afterBlank (c :: cs) =
      if afterBlank then collapseFrom true cs else ' ' :: collapseFrom true cs :=
  if_pos hc

theorem collapse_cons_of_ink (hc : isBlank c = false) (cs : List Char) :
    collapse (c :: cs) = c :: collapse cs :=
  collapseFrom_cons_of_ink hc cs

theorem collapseFrom_collapseFrom (afterBlank : Bool) (cs : List Char) :
    collapseFrom afterBlank (collapseFrom afterBlank cs) = collapseFrom afterBlank cs := by
  induction cs generalizing afterBlank with
  | nil => rfl
  | cons c cs ih =>
    cases hc : isBlank c with
    | false => rw [collapseFrom_cons_of_ink hc, collapseFrom_cons_of_ink hc, ih]
    | true =>
      rw [collapseFrom_cons_of_blank hc]
      cases afterBlank with
      | true => exact ih true
      | false =>
        rw [if_neg (by simp), collapseFrom_cons_of_blank isBlank_space, if_neg (by simp), ih]

/-- Collapsing blanks twice is collapsing them once. -/
theorem collapse_collapse (cs : List Char) : collapse (collapse cs) = collapse cs :=
  collapseFrom_collapseFrom false cs

/-- Collapsing makes no text longer. -/
theorem length_collapseFrom_le (afterBlank : Bool) (cs : List Char) :
    (collapseFrom afterBlank cs).length ≤ cs.length := by
  induction cs generalizing afterBlank with
  | nil => exact Nat.le_refl 0
  | cons c cs ih =>
    rw [collapseFrom]
    split
    · split
      · exact Nat.le_succ_of_le (ih true)
      · exact Nat.succ_le_succ (ih true)
    · exact Nat.succ_le_succ (ih false)

/-- Behind a character that is not blank a text is collapsed anew. -/
theorem collapseFrom_append_ink (hc : isBlank c = false) (afterBlank : Bool) (cs ds : List Char) :
    collapseFrom afterBlank (cs ++ c :: ds) = collapseFrom afterBlank cs ++ c :: collapse ds := by
  induction cs generalizing afterBlank with
  | nil => exact collapseFrom_cons_of_ink hc ds
  | cons d cs ih =>
    rw [List.cons_append]
    cases hd : isBlank d with
    | false =>
      rw [collapseFrom_cons_of_ink hd, collapseFrom_cons_of_ink hd, ih, List.cons_append]
    | true =>
      rw [collapseFrom_cons_of_blank hd, collapseFrom_cons_of_blank hd, ih]
      cases afterBlank <;> rfl

theorem areBlank_collapse (h : AreBlank gap) : AreBlank (collapse gap) :=
  (respaced_collapse gap).symm.areBlank h

theorem collapseFrom_true_of_areBlank (h : AreBlank gap) (cs : List Char) :
    collapseFrom true (gap ++ cs) = collapseFrom true cs := by
  induction gap with
  | nil => rfl
  | cons c gap ih =>
    obtain ⟨hc, hgap⟩ := List.forall_mem_cons.1 h
    rw [List.cons_append, collapseFrom_cons_of_blank hc, if_pos rfl, ih hgap]

/-- Blanks before a text stay before it. -/
theorem exists_collapse_append (h : AreBlank gap) (cs : List Char) :
    ∃ gap', AreBlank gap' ∧ collapse (gap ++ cs) = gap' ++ collapse cs := by
  cases gap with
  | nil => exact ⟨[], areBlank_nil, rfl⟩
  | cons c gap =>
    obtain ⟨hc, hgap⟩ := List.forall_mem_cons.1 h
    have hfirst : collapse (c :: gap ++ cs) = ' ' :: collapseFrom true cs := by
      rw [List.cons_append, collapse, collapseFrom_cons_of_blank hc, if_neg (by simp),
        collapseFrom_true_of_areBlank hgap]
    cases cs with
    | nil => exact ⟨[' '], areBlank_space, hfirst⟩
    | cons d cs =>
      cases hd : isBlank d with
      | false =>
        refine ⟨[' '], areBlank_space, ?_⟩
        rw [hfirst, collapseFrom_cons_of_ink hd, collapse_cons_of_ink hd]
        rfl
      | true =>
        refine ⟨[], areBlank_nil, ?_⟩
        rw [hfirst, collapseFrom_cons_of_blank hd, collapse, collapseFrom_cons_of_blank hd]
        rfl

/-- Blanks behind a text stay behind it. -/
theorem exists_collapseFrom_append (h : AreBlank gap) (afterBlank : Bool) (cs : List Char) :
    ∃ gap', AreBlank gap' ∧
      collapseFrom afterBlank (cs ++ gap) = collapseFrom afterBlank cs ++ gap' := by
  induction cs generalizing afterBlank with
  | nil =>
    refine ⟨collapseFrom afterBlank gap, ?_, rfl⟩
    cases afterBlank with
    | true =>
      have hgone := collapseFrom_true_of_areBlank h []
      rw [List.append_nil] at hgone
      rw [hgone]
      exact areBlank_nil
    | false => exact areBlank_collapse h
  | cons c cs ih =>
    rw [List.cons_append]
    cases hc : isBlank c with
    | false =>
      obtain ⟨gap', hgap', heq⟩ := ih false
      exact ⟨gap', hgap', by rw [collapseFrom_cons_of_ink hc, collapseFrom_cons_of_ink hc, heq]; rfl⟩
    | true =>
      obtain ⟨gap', hgap', heq⟩ := ih true
      refine ⟨gap', hgap', ?_⟩
      rw [collapseFrom_cons_of_blank hc, collapseFrom_cons_of_blank hc, heq]
      cases afterBlank <;> rfl

theorem exists_append_collapse (h : AreBlank gap) (cs : List Char) :
    ∃ gap', AreBlank gap' ∧ collapse (cs ++ gap) = collapse cs ++ gap' :=
  exists_collapseFrom_append h false cs

/-! ## Trimming -/

/-- What is trimmed off are the blanks at the ends. -/
theorem exists_trim (cs : List Char) :
    ∃ before after, AreBlank before ∧ AreBlank after ∧ before ++ (trim cs ++ after) = cs := by
  obtain ⟨before, hbefore, heq⟩ := exists_skipBlanks cs
  obtain ⟨after, hafter, heq'⟩ := exists_skipBlanks (skipBlanks cs).reverse
  refine ⟨before, after.reverse, hbefore, hafter.reverse, ?_⟩
  rw [trim, ← List.reverse_append, heq', List.reverse_reverse, heq]

theorem infix_trim (cs : List Char) : trim cs <:+: cs := by
  obtain ⟨before, after, -, -, heq⟩ := exists_trim cs
  exact ⟨before, after, by rw [List.append_assoc, heq]⟩

/-- Trimming drops nothing but blanks. -/
theorem ink_trim (cs : List Char) : ink (trim cs) = ink cs := by
  obtain ⟨before, after, hbefore, hafter, heq⟩ := exists_trim cs
  have hink := congrArg ink heq
  rwa [ink_append, ink_append, ink_of_areBlank hbefore, ink_of_areBlank hafter, List.nil_append,
    List.append_nil] at hink

theorem trim_eq_nil_iff : trim cs = [] ↔ AreBlank cs := by
  constructor
  · intro h
    obtain ⟨before, after, hbefore, hafter, heq⟩ := exists_trim cs
    rw [h, List.nil_append] at heq
    exact heq ▸ List.forall_mem_append.2 ⟨hbefore, hafter⟩
  · intro h
    rw [trim, skipBlanks_of_areBlank h]
    rfl

/-- Blanks around a text are trimmed off with those at its ends. -/
theorem trim_around {before after : List Char} (hbefore : AreBlank before) (hafter : AreBlank after)
    (cs : List Char) : trim (before ++ (cs ++ after)) = trim cs := by
  obtain ⟨before', after', hbefore', hafter', heq⟩ := exists_trim cs
  have hshape : before ++ (cs ++ after) = before ++ before' ++ (trim cs ++ (after' ++ after)) :=
    calc before ++ (cs ++ after)
      _ = before ++ (before' ++ (trim cs ++ after') ++ after) := by rw [heq]
      _ = before ++ before' ++ (trim cs ++ (after' ++ after)) := by simp
  rw [hshape]
  exact trim_between (trimmed_trim cs) (List.forall_mem_append.2 ⟨hbefore, hbefore'⟩)
    (List.forall_mem_append.2 ⟨hafter', hafter⟩)

theorem trimmed_collapse (h : Trimmed cs) : Trimmed (collapse cs) where
  first := by
    cases cs with
    | nil => simp
    | cons c cs =>
      have hc := h.first c rfl
      rw [collapse_cons_of_ink hc]
      exact h.first
  last := by
    obtain rfl | ⟨front, c, heq⟩ := List.eq_nil_or_concat cs
    · simp
    · rw [List.concat_eq_append] at heq
      subst heq
      have hc := h.last c (by simp)
      rw [collapse, collapseFrom_append_ink hc]
      simpa using hc

/-- Trimming and collapsing can be done in either order. -/
theorem trim_collapse (cs : List Char) : trim (collapse cs) = collapse (trim cs) := by
  obtain ⟨before, after, hbefore, hafter, heq⟩ := exists_trim cs
  obtain ⟨before', hbefore', hfront⟩ := exists_collapse_append hbefore (trim cs ++ after)
  obtain ⟨after', hafter', hback⟩ := exists_append_collapse hafter (trim cs)
  rw [heq, hback] at hfront
  rw [hfront]
  exact trim_between (trimmed_collapse (trimmed_trim cs)) hbefore' hafter'

end Stencil.Text
