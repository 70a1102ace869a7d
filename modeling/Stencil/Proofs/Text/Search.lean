import Stencil.Span

/-!
# Where a search stops

A search for a text passes over every stretch that does not hold its first character, and does not
read on behind what it finds. Hence a stretch without opening braces is one literal span. What a
scan tells of a text are literals and directives that were read, and the head of a directive opens
or continues a block.
-/

namespace Stencil.Text

/-- A stretch without the first character of the part is passed over. -/
theorem splitAtFirst?_append {c : Char} {before : List Char} (h : c ∉ before)
    (part rest : List Char) :
    splitAtFirst? (c :: part) (before ++ rest) =
      (splitAtFirst? (c :: part) rest).map fun r => (before ++ r.1, r.2) := by
  induction before with
  | nil => simp
  | cons d before ih =>
    simp only [List.mem_cons, not_or] at h
    have hd : (c == d) = false := by simpa using h.1
    have hprefix : (c :: part).isPrefixOf (d :: (before ++ rest)) = false := by
      simp [List.isPrefixOf, hd]
    simp only [splitAtFirst?] at ih ⊢
    rw [List.cons_append, splitWhere?, hprefix, ih h.2]
    simp [Function.comp_def]

@[simp]
theorem splitAtFirst?_nil (c : Char) (part : List Char) :
    splitAtFirst? (c :: part) [] = none := rfl

/-- A text that starts with the part is split at its front. -/
theorem splitAtFirst?_self (c : Char) (part rest : List Char) :
    splitAtFirst? (c :: part) (c :: part ++ rest) = some ([], c :: part ++ rest) := by
  have h : (c :: part).isPrefixOf (c :: (part ++ rest)) = true := by simp
  rw [List.cons_append, splitAtFirst?, splitWhere?, h]
  rfl

theorem splitAtFirst?_eq_none {c : Char} {cs : List Char} (h : c ∉ cs) (part : List Char) :
    splitAtFirst? (c :: part) cs = none := by
  have := splitAtFirst?_append h part []
  simpa using this

/-- The first occurrence of a character after a stretch without it. -/
theorem splitAtFirst?_singleton {c : Char} {before : List Char} (h : c ∉ before)
    (rest : List Char) :
    splitAtFirst? [c] (before ++ c :: rest) = some (before, c :: rest) := by
  have hself := splitAtFirst?_self c [] rest
  rw [splitAtFirst?_append h]
  simp only [List.cons_append, List.nil_append] at hself
  simp [hself]

section

variable {part cs before rest : List Char}

/-- The first occurrence of a part is the first one whatever follows it. Whether the part begins
further left is seen before the part ends. -/
theorem exists_splitAtFirst? (h : splitAtFirst? part cs = some (before, rest)) :
    ∃ after, rest = part ++ after ∧
      ∀ more, splitAtFirst? part (before ++ (part ++ more)) = some (before, part ++ more) := by
  have hself (more : List Char) : part.isPrefixOf (part ++ more) = true :=
    List.isPrefixOf_iff_prefix.2 (List.prefix_append part more)
  induction cs generalizing before with
  | nil =>
    rw [splitAtFirst?, splitWhere?] at h
    split at h
    · rename_i hpart
      obtain rfl : part = [] := List.prefix_nil.1 (List.isPrefixOf_iff_prefix.1 hpart)
      cases h
      refine ⟨[], rfl, fun more => ?_⟩
      cases more <;> rfl
    · cases h
  | cons c cs ih =>
    rw [splitAtFirst?, splitWhere?] at h
    split at h
    · rename_i hpart
      obtain ⟨after, hafter⟩ := List.isPrefixOf_iff_prefix.1 hpart
      cases h
      refine ⟨after, hafter.symm, fun more => ?_⟩
      rw [List.nil_append]
      cases hmore : part ++ more with
      | nil =>
        obtain ⟨rfl, -⟩ := List.append_eq_nil_iff.1 hmore
        rfl
      | cons d ds => rw [splitAtFirst?, splitWhere?, ← hmore, hself, if_pos rfl]
    · rename_i hpart
      obtain ⟨⟨b, r⟩, hb, heq⟩ := Option.map_eq_some_iff.1 h
      cases heq
      obtain ⟨after, rfl, hfirst⟩ := ih hb
      refine ⟨after, rfl, fun more => ?_⟩
      obtain rfl := splitWhere?_append hb
      have hlater : part.isPrefixOf (c :: (b ++ (part ++ more))) = false := by
        rw [Bool.eq_false_iff]
        intro hprefix
        refine hpart (List.isPrefixOf_iff_prefix.2 ?_)
        rw [List.isPrefixOf_iff_prefix, ← List.append_assoc, ← List.cons_append] at hprefix
        have hshort : part <+: c :: (b ++ part) :=
          List.prefix_of_prefix_length_le hprefix (List.prefix_append _ _) (by simp; omega)
        rw [← List.append_assoc, ← List.cons_append]
        exact hshort.trans (List.prefix_append _ _)
      have hmore := hfirst more
      rw [splitAtFirst?] at hmore
      rw [List.cons_append, splitAtFirst?, splitWhere?, hlater, hmore]
      rfl

/-- A search passes the positions at which the test fails. -/
theorem splitWhere?_of_forall {p : List Char → Bool}
    (h : ∀ s, s <:+ before → s ≠ [] → p (s ++ rest) = false) :
    splitWhere? p (before ++ rest) = (splitWhere? p rest).map fun r => (before ++ r.1, r.2) := by
  induction before with
  | nil => simp
  | cons c before ih =>
    have hc : p (c :: (before ++ rest)) = false := h _ (List.suffix_refl _) (by simp)
    rw [List.cons_append, splitWhere?, hc, ih fun s hs => h s (hs.trans (List.suffix_cons c before))]
    simp [Function.comp_def]

theorem splitWhere?_self {p : List Char → Bool} (h : p cs = true) :
    splitWhere? p cs = some ([], cs) := by
  cases cs <;> simp [splitWhere?, h]

/-- The test holds where the search stops, and not before. -/
theorem forall_of_splitWhere? {p : List Char → Bool} (h : splitWhere? p cs = some (before, rest)) :
    p rest = true ∧ ∀ s, s <:+ before → s ≠ [] → p (s ++ rest) = false := by
  induction cs generalizing before with
  | nil =>
    rw [splitWhere?] at h
    split at h
    · cases h
      exact ⟨‹_›, fun s hs hne => absurd (List.suffix_nil.1 hs) hne⟩
    · cases h
  | cons c cs ih =>
    rw [splitWhere?] at h
    split at h
    · cases h
      exact ⟨‹_›, fun s hs hne => absurd (List.suffix_nil.1 hs) hne⟩
    · rename_i hc
      obtain ⟨⟨b, r⟩, hb, heq⟩ := Option.map_eq_some_iff.1 h
      cases heq
      obtain ⟨hrest, hbefore⟩ := ih hb
      refine ⟨hrest, fun s hs hne => ?_⟩
      obtain rfl | hs := List.suffix_cons_iff.1 hs
      · rw [List.cons_append, splitWhere?_append hb]
        simpa using hc
      · exact hbefore s hs hne

/-- A text can be split exactly where one of its endings passes the test. -/
theorem isSome_splitWhere?_iff {p : List Char → Bool} :
    (splitWhere? p cs).isSome ↔ ∃ s, s <:+ cs ∧ p s = true := by
  induction cs with
  | nil =>
    rw [splitWhere?]
    cases hp : p [] <;> simp [hp]
  | cons c cs ih =>
    rw [splitWhere?]
    cases hp : p (c :: cs) with
    | true => simpa using ⟨c :: cs, List.suffix_refl _, hp⟩
    | false => simp [List.suffix_cons_iff, or_and_right, exists_or, hp, ih]

theorem forall_of_splitWhere?_eq_none {p : List Char → Bool} (h : splitWhere? p cs = none) :
    ∀ s, s <:+ cs → p s = false := by
  intro s hs
  rw [← Bool.not_eq_true]
  intro hp
  have hsome := isSome_splitWhere?_iff.2 ⟨s, hs, hp⟩
  rw [h] at hsome
  cases hsome

/-- A text can be split at a part exactly if it contains the part. -/
theorem isSome_splitAtFirst?_iff : (splitAtFirst? part cs).isSome ↔ part <:+: cs := by
  rw [splitAtFirst?, isSome_splitWhere?_iff, List.infix_iff_prefix_suffix]
  simp [List.isPrefixOf_iff_prefix, and_comm]

end

end Stencil.Text

/-- A head opens a block or continues a condition. -/
theorem Stencil.Directive.role_of_head? {cs body : List Char} {role : Role}
    (h : head? cs = some (role, body)) :
    (∃ w a, role = .opens w a) ∨ ∃ a, role = .elseIf a := by
  obtain ⟨⟨word, make⟩, hmem, hmake⟩ := List.exists_of_findSome?_eq_some h
  have hheads : ∀ a, (∃ w, make a = .opens w a) ∨ make a = .elseIf a := by
    intro a
    simp only [headWords, List.mem_cons, List.not_mem_nil, or_false, Prod.mk.injEq] at hmem
    obtain ⟨-, rfl⟩ | ⟨-, rfl⟩ | ⟨-, rfl⟩ | ⟨-, rfl⟩ | ⟨-, rfl⟩ := hmem <;> simp
  dsimp only at hmake
  split at hmake
  · rw [← (Prod.mk.inj (Option.some.inj hmake)).1]
    exact (hheads _).imp (fun ⟨w, hw⟩ => ⟨w, _, hw⟩) fun ha => ⟨_, ha⟩
  · cases hmake

namespace Stencil.Span

theorem scanFrom_nil (text : String) : scanFrom text [] = ⟨[], none⟩ :=
  scanFrom_eq text []

theorem scan_empty : scan "" = ⟨[], none⟩ := by
  rw [scan_eq, String.toList_empty, scanFrom_nil]

/-- Text without a brace is scanned as one literal. -/
theorem scanFrom_literal {cs : List Char} (hne : cs ≠ []) (h : '{' ∉ cs) (text : String) :
    scanFrom text cs = ⟨[.literal (String.ofList cs)], none⟩ := by
  have hempty : cs.isEmpty = false := by simpa using hne
  have hstep : step cs = .literal cs := by
    simp [step, hempty, opening?, Text.splitAtFirst?_eq_none h]
  rw [scanFrom_eq, hstep]

/-- A text without opening braces is one literal span. -/
theorem scan_literal {s : String} (hne : s ≠ "") (h : '{' ∉ s.toList) :
    scan s = ⟨[.literal s], none⟩ := by
  rw [scan_eq, scanFrom_literal (by simpa using hne) h, String.ofList_toList]

theorem not_mem_literals (d : Directive) (cs : List Char) : .directive d ∉ literals cs := by
  cases cs <;> simp [literals]

/-- The directives of a text are read from its regions. -/
theorem exists_read_of_mem_scan {text : String} {d : Directive}
    (h : .directive d ∈ (scan text).spans) : ∃ s, Directive.read s = .ok d := by
  rw [scan_eq] at h
  generalize text.toList = cs at h
  fun_induction scanFrom text cs with
  | case1 => cases h
  | case2 => simp at h
  | case3 => cases h
  | case4 cs before inside rest _ _ ih =>
    obtain h | h := List.mem_append.1 h
    · exact absurd h (not_mem_literals d before)
    · exact ih h
  | case5 cs before => exact absurd h (not_mem_literals d before)
  | case6 cs before inside rest _ _ d' hread ih =>
    obtain h | h := List.mem_append.1 h
    · obtain h | h := List.mem_append.1 h
      · exact absurd h (not_mem_literals d before)
      · cases List.mem_singleton.1 h
        exact ⟨_, hread⟩
    · exact ih h

end Stencil.Span
