import Stencil.Text.Case

/-!
# Names that have no capitals to get

Only a hyphen that another character follows is replaced, and what replaces it begins with a hyphen
only if that character is one, which leaves fewer hyphens than before. So a name stays as it is
exactly if it has no hyphen in front of another character than a line feed.
-/

namespace Stencil.Text

/-- A hyphen stands in front of a character that is no line feed. -/
def HasHyphen (cs : List Char) : Prop :=
  ∃ front c back, cs = front ++ '-' :: c :: back ∧ c ≠ '\n'

/-- A hyphen counts where a character other than a line break follows. -/
theorem hasHyphen_cons {c : Char} {cs : List Char} :
    HasHyphen (c :: cs) ↔ (c = '-' ∧ ∃ d ∈ cs.head?, d ≠ '\n') ∨ HasHyphen cs := by
  constructor
  · rintro ⟨front, d, back, hcs, hd⟩
    cases front with
    | nil =>
      obtain ⟨rfl, rfl⟩ := List.cons.inj hcs
      exact .inl ⟨rfl, d, rfl, hd⟩
    | cons a front => exact .inr ⟨front, d, back, (List.cons.inj hcs).2, hd⟩
  · rintro (⟨rfl, d, hd, hne⟩ | ⟨front, d, back, rfl, hd⟩)
    · obtain ⟨back, rfl⟩ := List.head?_eq_some_iff.1 hd
      exact ⟨[], d, back, rfl, hne⟩
    · exact ⟨c :: front, d, back, rfl, hd⟩

/-! ## Capitals -/

theorem ofNat_ne_hyphen {n : Nat} (h : '-'.toNat < n) : Char.ofNat n ≠ '-' := by
  intro heq
  have hn : (Char.ofNat n).toNat = '-'.toNat := congrArg Char.toNat heq
  by_cases hvalid : n.isValidChar
  · have hsame : (Char.ofNat n).toNat = n := congrArg Char.toNat (dif_pos hvalid)
    omega
  · have hzero : (Char.ofNat n).toNat = 0 := congrArg Char.toNat (dif_neg hvalid)
    exact absurd (hzero.symm.trans hn) (by decide)

theorem mem_of_lookup {n : Nat} {ns : List Nat} {table : List (Nat × List Nat)}
    (h : table.lookup n = some ns) : (n, ns) ∈ table := by
  obtain ⟨before, after, rfl, -⟩ := List.lookup_eq_some_iff.1 h
  simp

/-- A run maps to letters behind the hyphen. -/
theorem hyphen_lt_of_map? {r : CaseRun} (hr : r ∈ upperRuns) {n m : Nat} (h : r.map? n = some m) :
    '-'.toNat < m := by
  have hruns : ∀ r ∈ upperRuns, ('-'.toNat : Int) < r.first + r.shift := by decide +kernel
  have hfirst := hruns r hr
  rw [CaseRun.map?] at h
  split at h
  · rename_i hin
    have hm := Option.some.inj h
    omega
  · cases h

/-- No other character than a hyphen has a capital that begins with one. -/
theorem eq_of_mem_head?_upperChar {c : Char} (h : '-' ∈ (upperChar c).head?) : c = '-' := by
  rw [upperChar] at h
  split at h
  · rename_i hascii
    have hall : ∀ n < 0x80, '-' ∈ [(Char.ofNat n).toUpper].head? → Char.ofNat n = '-' := by
      decide
    have hc := hall c.toNat hascii
    rw [Char.ofNat_toNat] at hc
    exact hc h
  · split at h
    · rename_i ns hns
      have hall : ∀ e ∈ upperExpansions, '-' ∉ (e.2.map Char.ofNat).head? := by decide
      exact absurd h (hall _ (mem_of_lookup hns))
    · cases hfind : upperRuns.findSome? (·.map? c.toNat) with
      | none => simpa [hfind] using h
      | some m =>
        obtain ⟨r, hr, hm⟩ := List.exists_of_findSome?_eq_some hfind
        rw [hfind] at h
        exact absurd (Option.some.inj h) (ofNat_ne_hyphen (hyphen_lt_of_map? hr hm))

theorem upperChar_ne_nil (c : Char) : upperChar c ≠ [] := by
  rw [upperChar]
  split
  · exact List.cons_ne_nil _ _
  · split
    · rename_i ns hns
      have hall : ∀ e ∈ upperExpansions, e.2 ≠ [] := by decide
      exact fun h => hall _ (mem_of_lookup hns) (List.map_eq_nil_iff.1 h)
    · exact List.cons_ne_nil _ _

theorem upperChar_hyphen : upperChar '-' = ['-'] := by
  decide

/-- A capital that begins with a hyphen is a hyphen. -/
theorem upperChar_append {c : Char} {cs ds : List Char} (h : upperChar c ++ cs = '-' :: ds) :
    c = '-' ∧ cs = ds := by
  have hc : c = '-' := by
    refine eq_of_mem_head?_upperChar ?_
    cases hupper : upperChar c with
    | nil => exact absurd hupper (upperChar_ne_nil c)
    | cons d us =>
      rw [hupper] at h
      exact congrArg some (List.cons.inj h).1
  subst hc
  rw [upperChar_hyphen] at h
  exact ⟨rfl, (List.cons.inj h).2⟩

/-- The capitals of a text are not the text with hyphens in front of it. -/
theorem camelChars_ne (cs : List Char) (n : Nat) :
    camelChars cs ≠ List.replicate (n + 1) '-' ++ cs := by
  fun_induction camelChars cs generalizing n with
  | case1 => simp
  | case2 c =>
    intro h
    simpa using congrArg List.length h
  | case3 cs ih =>
    intro h
    have hsecond := congrArg (·[1]?) h
    cases n <;> simp [List.replicate_succ] at hsecond
  | case4 c cs hc ih =>
    intro h
    obtain ⟨rfl, hcs⟩ := upperChar_append h
    refine ih (n + 1) (hcs.trans ?_)
    simp [List.replicate_succ']
  | case5 c cs hnil hhyphen ih =>
    intro h
    rw [List.replicate_succ, List.cons_append, List.cons.injEq] at h
    obtain ⟨rfl, hcs⟩ := h
    cases cs with
    | nil => exact hnil rfl
    | cons d cs => exact hhyphen d cs rfl rfl

/-- Only a name without a hyphen is its own camel case. -/
theorem camelChars_eq_self_iff {cs : List Char} : camelChars cs = cs ↔ ¬ HasHyphen cs := by
  have hnil : ¬ HasHyphen [] := by
    rintro ⟨front, c, back, hcs, -⟩
    simp at hcs
  fun_induction camelChars cs with
  | case1 => simp [hnil]
  | case2 c => simp [hasHyphen_cons, hnil]
  | case3 cs ih => simp [hasHyphen_cons, ih]
  | case4 c cs hc ih =>
    refine iff_of_false (fun h => ?_) (not_not_intro (hasHyphen_cons.2 (.inl ⟨rfl, c, rfl, hc⟩)))
    obtain ⟨rfl, hcs⟩ := upperChar_append h
    exact camelChars_ne cs 0 hcs
  | case5 c cs hone hhyphen ih =>
    have hstays : ¬ (c = '-' ∧ ∃ d ∈ cs.head?, d ≠ '\n') := by
      rintro ⟨rfl, d, hd, -⟩
      obtain ⟨back, rfl⟩ := List.head?_eq_some_iff.1 hd
      exact hhyphen d back rfl rfl
    have hrest : HasHyphen (c :: cs) ↔ HasHyphen cs := hasHyphen_cons.trans (or_iff_right hstays)
    exact (List.cons_inj_right c).trans (ih.trans (not_congr hrest).symm)

/-- A name stays as it is if it has no hyphen in front of a character that can be a capital. -/
theorem camel_eq_self_iff {name : String} : camel name = name ↔ ¬ HasHyphen name.toList := by
  rw [← camelChars_eq_self_iff, camel, ← String.toList_inj, String.toList_ofList]

end Stencil.Text
