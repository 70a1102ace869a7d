import Stencil.Text.Blank

/-!
# Blanks around a text

Trimming takes exactly the blanks at the ends: a text without any there is left as it is, and is
what is left when blanks are written around it.
-/

namespace Stencil.Text

/-- Nothing but blanks. -/
def AreBlank (cs : List Char) : Prop :=
  ∀ c ∈ cs, isBlank c = true

/-- No blank stands at an end of the text. -/
structure Trimmed (cs : List Char) : Prop where
  first : ∀ c ∈ cs.head?, isBlank c = false
  last : ∀ c ∈ cs.getLast?, isBlank c = false

variable {cs gap before after : List Char}

/-- What holds of the code points that are listed holds of every blank. -/
theorem of_isBlank {P : Char → Prop} {c : Char} (hc : isBlank c = true)
    (h : ∀ r ∈ blankRanges, ∀ n ∈ List.range' r.1 (r.2 + 1 - r.1), P (Char.ofNat n)) : P c := by
  obtain ⟨r, hr, hlow, hhigh⟩ := Ranges.holds_iff.1 hc
  have hmem : c.toNat ∈ List.range' r.1 (r.2 + 1 - r.1) := List.mem_range'_1.2 ⟨hlow, by omega⟩
  simpa [Char.ofNat_toNat] using h r hr c.toNat hmem

theorem areBlank_nil : AreBlank [] := by
  simp [AreBlank]

theorem areBlank_space : AreBlank [' '] := by
  simp [AreBlank, isBlank_space]

theorem AreBlank.reverse (h : AreBlank gap) : AreBlank gap.reverse :=
  fun c hc => h c (List.mem_reverse.1 hc)

/-- Leading blanks are skipped. -/
theorem skipBlanks_append (h : AreBlank gap) (cs : List Char) :
    skipBlanks (gap ++ cs) = skipBlanks cs := by
  induction gap with
  | nil => rfl
  | cons c gap ih =>
    obtain ⟨hc, hgap⟩ := List.forall_mem_cons.1 h
    rw [List.cons_append, skipBlanks, List.dropWhile_cons_of_pos hc]
    exact ih hgap

theorem skipBlanks_of_head? (h : ∀ c ∈ cs.head?, isBlank c = false) : skipBlanks cs = cs := by
  cases cs with
  | nil => rfl
  | cons c cs =>
    have hc := h c rfl
    rw [skipBlanks, List.dropWhile_cons_of_neg (by simp [hc])]

theorem skipBlanks_of_areBlank (h : AreBlank gap) : skipBlanks gap = [] := by
  have hskip := skipBlanks_append h []
  rwa [List.append_nil] at hskip

theorem trimmed_of_ink (h : ∀ c ∈ cs, isBlank c = false) : Trimmed cs where
  first c hc := h c (List.mem_of_mem_head? hc)
  last c hc := h c (List.mem_of_getLast? hc)

/-- Skipping takes off blanks only. -/
theorem exists_skipBlanks (cs : List Char) : ∃ gap, AreBlank gap ∧ gap ++ skipBlanks cs = cs :=
  ⟨cs.takeWhile isBlank, List.all_eq_true.1 List.all_takeWhile, List.takeWhile_append_dropWhile⟩

theorem head?_dropWhile_eq_false (p : Char → Bool) (cs : List Char) :
    ∀ c ∈ (cs.dropWhile p).head?, p c = false := by
  intro c hc
  have hnot := List.head?_dropWhile_not p cs
  rw [Option.mem_def.1 hc] at hnot
  exact hnot

/-- No blank stands behind the skipped ones. -/
theorem head?_skipBlanks (cs : List Char) : ∀ c ∈ (skipBlanks cs).head?, isBlank c = false :=
  head?_dropWhile_eq_false isBlank cs

/-- Blanks around a trimmed text are taken off. -/
theorem trim_between (h : Trimmed cs) (hbefore : AreBlank before) (hafter : AreBlank after) :
    trim (before ++ (cs ++ after)) = cs := by
  rw [trim, skipBlanks_append hbefore]
  by_cases hcs : cs = []
  · rw [hcs, List.nil_append, skipBlanks_of_areBlank hafter]
    rfl
  · have hfirst : ∀ c ∈ (cs ++ after).head?, isBlank c = false := by
      obtain ⟨c, cs, rfl⟩ := List.exists_cons_of_ne_nil hcs
      exact h.first
    have hlast : ∀ c ∈ cs.reverse.head?, isBlank c = false := by
      rw [List.head?_reverse]
      exact h.last
    rw [skipBlanks_of_head? hfirst, List.reverse_append, skipBlanks_append hafter.reverse,
      skipBlanks_of_head? hlast, List.reverse_reverse]

/-- What trimming leaves has no blank at its ends. -/
theorem trimmed_trim (cs : List Char) : Trimmed (trim cs) where
  first := by
    obtain ⟨gap, -, hgap⟩ := exists_skipBlanks (skipBlanks cs).reverse
    have hsplit : trim cs ++ gap.reverse = skipBlanks cs := by
      rw [trim, ← List.reverse_append, hgap, List.reverse_reverse]
    intro c hc
    have hhead : c ∈ (skipBlanks cs).head? := by
      rw [← hsplit, List.head?_append, Option.mem_def.1 hc]
      rfl
    exact head?_skipBlanks cs c hhead
  last := by
    rw [trim, List.getLast?_reverse]
    exact head?_skipBlanks _

end Stencil.Text
