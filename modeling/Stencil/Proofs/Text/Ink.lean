import Stencil.Proofs.Text.Blank

/-!
# The ink of a text

The ink of a text is its characters that are not blank. Two texts are respaced if they have the same
ink and the same characters of it touch: they differ in the number and the kind of their blanks, and
in the blanks at their ends. The less-than sign is an exception. A blank before it counts for
nothing, so it may come or go.
-/

namespace Stencil.Text

def ink (cs : List Char) : List Char :=
  cs.filter fun c => !isBlank c

/-- The ink of a text, each character with whether a blank stands before it, unless it is a
less-than sign. `afterBlank` says that a blank stands before the text. -/
def spacedFrom (afterBlank : Bool) : List Char → List (Bool × Char)
  | [] => []
  | c :: cs =>
    if isBlank c then spacedFrom true cs else (afterBlank && c != '<', c) :: spacedFrom false cs

variable {b : Bool} {c : Char} {cs ds xs ys gap : List Char}

@[simp]
theorem ink_append (cs ds : List Char) : ink (cs ++ ds) = ink cs ++ ink ds :=
  List.filter_append cs ds

theorem ink_cons_of_blank (hc : isBlank c = true) (cs : List Char) : ink (c :: cs) = ink cs :=
  List.filter_cons_of_neg (by simp [hc])

theorem ink_cons_of_ink (hc : isBlank c = false) (cs : List Char) : ink (c :: cs) = c :: ink cs :=
  List.filter_cons_of_pos (by simp [hc])

theorem ink_of_areBlank (h : AreBlank gap) : ink gap = [] :=
  List.filter_eq_nil_iff.2 fun c hc => by simp [h c hc]

theorem mem_ink_iff : c ∈ ink cs ↔ c ∈ cs ∧ isBlank c = false := by
  simp [ink]

theorem spacedFrom_cons_of_blank (hc : isBlank c = true) (cs : List Char) :
    spacedFrom b (c :: cs) = spacedFrom true cs :=
  if_pos hc

theorem spacedFrom_cons_of_ink (hc : isBlank c = false) (cs : List Char) :
    spacedFrom b (c :: cs) = (b && c != '<', c) :: spacedFrom false cs :=
  if_neg (by simp [hc])

theorem isBlank_lessThan : isBlank '<' = false := by decide

@[simp]
theorem spacedFrom_lessThan (b : Bool) (cs : List Char) :
    spacedFrom b ('<' :: cs) = (false, '<') :: spacedFrom false cs := by
  rw [spacedFrom_cons_of_ink isBlank_lessThan]
  simp

/-- Blanks alone leave no mark. -/
theorem spacedFrom_of_areBlank (h : AreBlank gap) : spacedFrom b gap = [] := by
  induction gap generalizing b with
  | nil => rfl
  | cons c gap ih =>
    obtain ⟨hc, hgap⟩ := List.forall_mem_cons.1 h
    rw [spacedFrom_cons_of_blank hc, ih hgap]

theorem areBlank_of_spacedFrom_eq_nil (h : spacedFrom b cs = []) : AreBlank cs := by
  induction cs generalizing b with
  | nil => exact areBlank_nil
  | cons c cs ih =>
    cases hc : isBlank c with
    | true =>
      rw [spacedFrom_cons_of_blank hc] at h
      exact List.forall_mem_cons.2 ⟨hc, ih h⟩
    | false =>
      rw [spacedFrom_cons_of_ink hc] at h
      cases h

/-- The ink of a joined text. Of the first part only the last character matters to the second. -/
theorem spacedFrom_append (b : Bool) (cs ds : List Char) :
    spacedFrom b (cs ++ ds) = spacedFrom b cs ++ spacedFrom (cs.foldl (fun _ c => isBlank c) b) ds := by
  induction cs generalizing b with
  | nil => rfl
  | cons c cs ih =>
    rw [List.cons_append, List.foldl_cons]
    cases hc : isBlank c with
    | true => rw [spacedFrom_cons_of_blank hc, spacedFrom_cons_of_blank hc, ih]
    | false =>
      rw [spacedFrom_cons_of_ink hc, spacedFrom_cons_of_ink hc, ih]
      rfl

/-- Before a less-than sign nothing of the first part matters. -/
theorem spacedFrom_append_lessThan (b : Bool) (cs ds : List Char) :
    spacedFrom b (cs ++ '<' :: ds) = spacedFrom b cs ++ spacedFrom false ('<' :: ds) := by
  rw [spacedFrom_append, spacedFrom_lessThan, spacedFrom_lessThan]

/-- Apart from the spacing, these are the marks of the text. -/
theorem map_spacedFrom (b : Bool) (cs : List Char) : (spacedFrom b cs).map Prod.snd = ink cs := by
  induction cs generalizing b with
  | nil => rfl
  | cons c cs ih =>
    cases hc : isBlank c with
    | true => rw [spacedFrom_cons_of_blank hc, ih, ink_cons_of_blank hc]
    | false => rw [spacedFrom_cons_of_ink hc, List.map_cons, ih, ink_cons_of_ink hc]

/-- Collapsing the blanks of a text keeps its ink, and whether it ends with a blank. -/
theorem spacedFrom_collapseFrom (afterBlank b : Bool) (cs ds : List Char) :
    spacedFrom (afterBlank || b) (collapseFrom afterBlank cs ++ ds) =
      spacedFrom (afterBlank || b) (cs ++ ds) := by
  induction cs generalizing afterBlank b with
  | nil => rfl
  | cons c cs ih =>
    rw [collapseFrom, List.cons_append]
    cases hc : isBlank c with
    | true =>
      have hmore := ih true b
      rw [Bool.true_or] at hmore
      rw [spacedFrom_cons_of_blank hc, if_pos rfl]
      cases afterBlank with
      | true => exact hmore
      | false =>
        rw [if_neg (by simp), List.cons_append, spacedFrom_cons_of_blank isBlank_space, hmore]
    | false =>
      have hmore : spacedFrom false (collapseFrom false cs ++ ds) = spacedFrom false (cs ++ ds) :=
        ih false false
      rw [if_neg (by simp), List.cons_append, spacedFrom_cons_of_ink hc, spacedFrom_cons_of_ink hc,
        hmore]

/-- A blank before the text makes its first character one after a blank. -/
theorem spacedFrom_true (b : Bool) (cs : List Char) :
    spacedFrom true cs = match spacedFrom b cs with
      | [] => []
      | (_, c) :: ink => (c != '<', c) :: ink := by
  induction cs generalizing b with
  | nil => rfl
  | cons c cs ih =>
    cases hc : isBlank c with
    | true =>
      rw [spacedFrom_cons_of_blank hc, spacedFrom_cons_of_blank hc]
      exact ih true
    | false =>
      rw [spacedFrom_cons_of_ink hc, spacedFrom_cons_of_ink hc, Bool.true_and]

/-- Where the ink of a text is cut at a character, the text is cut there as well. -/
theorem exists_of_spacedFrom_eq_append {before after : List (Bool × Char)} {afterBlank : Bool}
    (h : spacedFrom b cs = before ++ (afterBlank, c) :: after) :
    ∃ xs ys, cs = xs ++ c :: ys ∧ spacedFrom b xs = before ∧ spacedFrom false ys = after := by
  induction cs generalizing b before with
  | nil => simp [spacedFrom] at h
  | cons d cs ih =>
    cases hd : isBlank d with
    | true =>
      rw [spacedFrom_cons_of_blank hd] at h
      obtain ⟨xs, ys, rfl, hxs, hys⟩ := ih h
      exact ⟨d :: xs, ys, rfl, by rw [spacedFrom_cons_of_blank hd, hxs], hys⟩
    | false =>
      rw [spacedFrom_cons_of_ink hd] at h
      cases before with
      | nil =>
        obtain ⟨hfirst, hafter⟩ := List.cons.inj h
        obtain ⟨-, rfl⟩ := Prod.mk.inj hfirst
        exact ⟨[], cs, rfl, rfl, hafter⟩
      | cons first before =>
        obtain ⟨hfirst, hmore⟩ := List.cons.inj h
        obtain ⟨xs, ys, rfl, hxs, hys⟩ := ih hmore
        exact ⟨d :: xs, ys, rfl, by rw [spacedFrom_cons_of_ink hd, hxs, hfirst], hys⟩

/-! ## Texts of the same ink -/

/-- The texts have the same ink, and the same of it touches. -/
def Respaced (cs ds : List Char) : Prop :=
  spacedFrom false cs = spacedFrom false ds

namespace Respaced

theorem symm (h : Respaced cs ds) : Respaced ds cs :=
  Eq.symm h

theorem trans (h : Respaced cs ds) (h' : Respaced ds xs) : Respaced cs xs :=
  Eq.trans h h'

theorem spacedFrom_eq (h : Respaced cs ds) (b : Bool) : spacedFrom b cs = spacedFrom b ds := by
  cases b with
  | false => exact h
  | true => rw [spacedFrom_true false cs, spacedFrom_true false ds, h]

/-- What stands before a less-than sign and what follows it can be respaced apart. -/
theorem append_lessThan (h : Respaced cs ds) (h' : Respaced ('<' :: xs) ('<' :: ys)) :
    Respaced (cs ++ '<' :: xs) (ds ++ '<' :: ys) := by
  rw [Respaced, spacedFrom_append_lessThan, spacedFrom_append_lessThan, h, h']

/-- Respacing goes through whatever stands in front. -/
theorem prepend (h : Respaced cs ds) (xs : List Char) : Respaced (xs ++ cs) (xs ++ ds) := by
  rw [Respaced, spacedFrom_append, spacedFrom_append, h.spacedFrom_eq]

/-- What follows a common character behind respaced texts. -/
theorem cancel (h : Respaced (xs ++ c :: cs) (ys ++ c :: ds)) (hxs : Respaced xs ys)
    (hc : isBlank c = false) : Respaced cs ds := by
  rw [Respaced, spacedFrom_append, spacedFrom_append, spacedFrom_cons_of_ink hc,
    spacedFrom_cons_of_ink hc] at h
  exact (List.cons.inj (List.append_inj h (congrArg List.length hxs)).2).2

/-- Respacing keeps the marks. -/
theorem ink_eq (h : Respaced cs ds) : ink cs = ink ds := by
  rw [← map_spacedFrom false cs, ← map_spacedFrom false ds, h]

theorem areBlank (h : Respaced gap cs) (hgap : AreBlank gap) : AreBlank cs :=
  areBlank_of_spacedFrom_eq_nil ((Eq.symm h).trans (spacedFrom_of_areBlank hgap))

/-- Where one text is cut at a character, so is the other. -/
theorem exists_cut (h : Respaced (xs ++ c :: cs) ds) (hc : isBlank c = false) :
    ∃ ys ds', ds = ys ++ c :: ds' ∧ Respaced xs ys ∧ Respaced cs ds' := by
  rw [Respaced, spacedFrom_append, spacedFrom_cons_of_ink hc] at h
  obtain ⟨ys, ds', rfl, hys, hds'⟩ := exists_of_spacedFrom_eq_append (Eq.symm h)
  exact ⟨ys, ds', rfl, Eq.symm hys, Eq.symm hds'⟩

/-- Characters that touch what stands before them still do. -/
theorem exists_append (word : List Char) (h : Respaced (word ++ cs) ds)
    (hword : ∀ c ∈ word, isBlank c = false ∧ c ≠ '<') :
    ∃ ds', ds = word ++ ds' ∧ Respaced cs ds' := by
  induction word generalizing ds with
  | nil => exact ⟨ds, rfl, h⟩
  | cons c word ih =>
    obtain ⟨⟨hc, hsign⟩, hword⟩ := List.forall_mem_cons.1 hword
    rw [List.cons_append, Respaced, spacedFrom_cons_of_ink hc] at h
    cases ds with
    | nil => cases h
    | cons d ds =>
      cases hd : isBlank d with
      | true =>
        rw [spacedFrom_cons_of_blank hd, spacedFrom_true false ds] at h
        split at h
        · cases h
        · obtain ⟨hfirst, -⟩ := List.cons.inj h
          simp_all
      | false =>
        rw [spacedFrom_cons_of_ink hd] at h
        obtain ⟨hfirst, hrest⟩ := List.cons.inj h
        obtain ⟨-, rfl⟩ := Prod.mk.inj hfirst
        obtain ⟨ds', rfl, hds'⟩ := ih hrest hword
        exact ⟨ds', rfl, hds'⟩

/-- A word stands in both texts or in none. -/
theorem infix_iff {first : Char} {word : List Char} (h : Respaced cs ds)
    (hfirst : isBlank first = false) (hword : ∀ c ∈ word, isBlank c = false ∧ c ≠ '<') :
    first :: word <:+: cs ↔ first :: word <:+: ds := by
  have hmove {cs ds : List Char} (h : Respaced cs ds) (hstands : first :: word <:+: cs) :
      first :: word <:+: ds := by
    obtain ⟨before, after, rfl⟩ := hstands
    rw [List.append_assoc, List.cons_append] at h
    obtain ⟨before', rest, rfl, -, hrest⟩ := h.exists_cut hfirst
    obtain ⟨after', rfl, -⟩ := hrest.exists_append word hword
    exact ⟨before', after', by simp⟩
  exact ⟨hmove h, hmove h.symm⟩

end Respaced

theorem respaced_collapse_append (cs ds : List Char) : Respaced (collapse cs ++ ds) (cs ++ ds) :=
  spacedFrom_collapseFrom false false cs ds

/-- Collapsing a text respaces it. -/
theorem respaced_collapse (cs : List Char) : Respaced (collapse cs) cs := by
  have happend := respaced_collapse_append cs []
  rwa [List.append_nil, List.append_nil] at happend

theorem respaced_append_blank (h : AreBlank gap) (cs : List Char) : Respaced (cs ++ gap) cs := by
  rw [Respaced, spacedFrom_append, spacedFrom_of_areBlank h, List.append_nil]

end Stencil.Text
