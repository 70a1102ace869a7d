import Stencil.Proofs.Source.Directives

/-!
# Words in front of a value

A value may have any number of words in front of it, in any order, each with blanks behind it. They
are taken off one after another, and what is left is read as if it stood alone; the words only say
how its value is shown.
-/

namespace Stencil.Directive

/-- The text is `rest` with these words in front of it, each with blanks behind it. -/
inductive Fronted (rest : List Char) : List ValueWord → List Char → Prop
  | nil : Fronted rest [] rest
  | cons {w : ValueWord} {ws : List ValueWord} {gap cs : List Char} (hgap : Text.AreBlank gap)
    (hne : gap ≠ []) (h : Fronted rest ws cs) :
    Fronted rest (w :: ws) (w.text.toList ++ (gap ++ cs))

theorem exists_of_afterWord? {word : String} {cs rest : List Char}
    (h : afterWord? word cs = some rest) :
    ∃ c more, Text.isBlank c = true ∧ cs = word.toList ++ c :: more := by
  simp only [afterWord?] at h
  split at h
  · rename_i hfront
    split at h
    · rename_i c more hdrop
      split at h
      · rename_i hblank
        refine ⟨c, more, hblank, ?_⟩
        rw [← String.length_toList] at hdrop
        rw [← hdrop]
        exact List.prefix_iff_eq_append.1 (List.isPrefixOf_iff_prefix.1 hfront) |>.symm
      · cases h
    · cases h
  · cases h

/-! ## The words are taken off -/

theorem valueWord?_eq_none {cs : List Char}
    (h : ∀ (w : ValueWord) (c : Char) (more : List Char), Text.isBlank c = true →
      cs ≠ w.text.toList ++ c :: more) : valueWord? cs = none := by
  rw [valueWord?, List.findSome?_eq_none_iff]
  intro w _
  rw [Option.map_eq_none_iff, Option.eq_none_iff_forall_not_mem]
  intro rest hrest
  obtain ⟨c, more, hblank, hcs⟩ := exists_of_afterWord? hrest
  exact h w c more hblank hcs

/-- A word with blanks behind it is taken from the front of a text. -/
theorem valueWord?_front (w : ValueWord) {gap cs : List Char} (hgap : Text.AreBlank gap)
    (hne : gap ≠ []) (hcs : ∀ c ∈ cs.head?, Text.isBlank c = false) :
    valueWord? (w.text.toList ++ (gap ++ cs)) = some (w, cs) := by
  have hself := afterWord?_front w.text hgap hne hcs
  have hother : ∀ v : ValueWord, v ≠ w →
      afterWord? v.text (w.text.toList ++ (gap ++ cs)) = none := by
    intro v hv
    refine afterWord?_other ?_ _
    revert v
    cases w <;> rintro (_ | _ | _ | _) hv <;> first | exact absurd rfl hv | decide
  cases w <;> simp [valueWord?, hself, hother]

section

variable {p cs before after : List Char} {ws : List ValueWord}

theorem trimmed_text (w : ValueWord) : Text.Trimmed w.text.toList := by
  refine Text.trimmed_of_ink ?_
  cases w <;> exact forall_mem_of_all (by decide)

theorem Fronted.ne_nil (h : Fronted p ws cs) (hne : p ≠ []) : cs ≠ [] := by
  cases h with
  | nil => exact hne
  | cons _ hgap _ => simp [hgap]

/-- Words in front of a trimmed text leave it trimmed. -/
theorem Fronted.trimmed (h : Fronted p ws cs) (hne : p ≠ []) (hp : Text.Trimmed p) :
    Text.Trimmed cs := by
  induction h with
  | nil => exact hp
  | @cons w ws gap cs hgap hgap₀ h ih =>
    have hw : ∃ c rest, w.text.toList = c :: rest := by cases w <;> exact ⟨_, _, rfl⟩
    obtain ⟨c, rest, hw⟩ := hw
    refine ⟨?_, ?_⟩
    · have hfirst := (trimmed_text w).first
      rw [hw] at hfirst ⊢
      exact hfirst
    · have hcs := h.ne_nil hne
      have hlast : (w.text.toList ++ (gap ++ cs)).getLast? = cs.getLast? := by
        rw [← List.append_assoc, List.getLast?_append, Option.or_of_isSome (by simpa using hcs)]
      rw [hlast]
      exact ih.last

/-- All words in front of a text are taken, in their order. -/
theorem valueWords_of_fronted (h : Fronted p ws cs) (hne : p ≠ []) (hp : Text.Trimmed p)
    (hplain : valueWord? p = none) : valueWords cs = (ws, p) := by
  induction h with
  | nil => exact valueWords_of_none hplain
  | @cons w ws gap cs hgap hgap₀ h ih =>
    have hword := valueWord?_front w hgap hgap₀ (h.trimmed hne hp).first
    rw [valueWords_of_some hword, ih]

/-! ## No other rule takes the text -/

/-- A text that begins with such a word is no header. -/
theorem head?_of_fronted (h : Fronted p ws cs) (hws : ws ≠ []) : head? cs = none := by
  cases h with
  | nil => exact absurd rfl hws
  | @cons w ws gap cs hgap hgap₀ h =>
    have hother : ∀ word ∈ headWords.map Prod.fst,
        (word.toList.isPrefixOf w.text.toList || w.text.toList.isPrefixOf word.toList) = false := by
      cases w <;> decide
    rw [head?, List.findSome?_eq_none_iff]
    rintro ⟨word, role⟩ hmem
    simp only [afterWord?_other (hother word (List.mem_map_of_mem hmem))]

/-- A text with such words in front shows a value. -/
theorem classify_of_fronted (h : Fronted p ws cs) (hws : ws ≠ []) (hne : p ≠ [])
    (hp : Text.Trimmed p) (hplain : valueWord? p = none) : classify cs = (.shows ws, p) := by
  have hblank : ∃ c ∈ cs, Text.isBlank c = true := by
    cases h with
    | nil => exact absurd rfl hws
    | @cons w ws gap cs hgap hgap₀ h =>
      obtain ⟨c, hc⟩ := List.exists_mem_of_ne_nil gap hgap₀
      exact ⟨c, by simp [hc], hgap c hc⟩
  have hlone : ∀ word ∈ loneWords, cs ≠ word.toList := by
    have hink : ∀ word ∈ loneWords, ∀ c ∈ word.toList, Text.isBlank c = false := by
      intro word hword
      refine forall_mem_of_all ?_
      revert word
      decide
    rintro word hword rfl
    obtain ⟨c, hc, hblank⟩ := hblank
    rw [hink word hword c hc] at hblank
    cases hblank
  have hslash : ∀ rest, cs ≠ '/' :: rest := by
    cases h with
    | nil => exact absurd rfl hws
    | @cons w ws gap cs hgap hgap₀ h => cases w <;> simp [ValueWord.text]
  rw [classify_shows (head?_of_fronted h hws) hlone hslash, valueWords_of_fronted h hne hp hplain]

/-! ## Whole directives -/

/-- Of several words that bind, the last one counts. -/
theorem binding?_shows (ws : List ValueWord) : (Role.shows ws).binding? =
    (ws.filter fun w => w == .unbound || w == .bound).getLast?.map ValueWord.text := by
  rw [Role.binding?, Role.words, ← List.head?_filter, List.filter_reverse, List.head?_reverse]

/-- The directive that shows the value of `e`, read from `s` with these words in front. -/
structure Shows (d : Directive) (s : String) (ws : List ValueWord) (e : Expr) : Prop where
  source_eq : d.source = String.ofList (Text.trim s.toList)
  expr?_eq : d.expr? = some e
  blockWord?_eq : d.role.blockWord? = none
  alias?_eq : d.role.alias? = none
  isEnd_eq : d.role.isEnd = false
  isUnescaped_iff : d.role.isUnescaped = true ↔ .unescaped ∈ ws
  isView_iff : d.role.isView = true ↔ .view ∈ ws
  binding?_eq : d.role.binding? =
    (ws.filter fun w => w == .unbound || w == .bound).getLast?.map ValueWord.text

theorem shows_mk (s : String) (ws : List ValueWord) (e : Expr) :
    Shows ⟨String.ofList (Text.trim s.toList), .shows ws, some e⟩ s ws e where
  source_eq := rfl
  expr?_eq := rfl
  blockWord?_eq := rfl
  alias?_eq := rfl
  isEnd_eq := rfl
  isUnescaped_iff := by simp [Role.isUnescaped, Role.words]
  isView_iff := by simp [Role.isView, Role.words]
  binding?_eq := binding?_shows ws

/-- Words in front of a value leave its expression as it is, and fail where it fails. -/
theorem read_fronted {s : String} (h : Fronted p ws cs) (hws : ws ≠ []) (hne : p ≠ [])
    (hp : Text.trim p = p)
    (hplain : ∀ (w : ValueWord) (c : Char) (more : List Char), Text.isBlank c = true →
      p ≠ w.text.toList ++ c :: more)
    (hbefore : Text.AreBlank before) (hafter : Text.AreBlank after)
    (hs : s.toList = before ++ (cs ++ after)) :
    (∀ e, Expr.read (String.ofList p) = .ok e →
        ∃ d, Directive.read s = .ok d ∧ Shows d s ws e) ∧
      ∀ cause, Expr.read (String.ofList p) = .error cause →
        ∃ error, Directive.read s = .error error ∧ error.kind.isOwn = true ∧
          error.message = cause.message ++ "\n\nWithin expression: " ++
            String.ofList (Text.trim s.toList) := by
  have hp' : Text.Trimmed p := hp ▸ Text.trimmed_trim p
  have htrim : Text.trim s.toList = cs := by
    rw [hs, Text.trim_between (h.trimmed hne hp') hbefore hafter]
  have hclassify := classify_of_fronted h hws hne hp' (valueWord?_eq_none hplain)
  rw [← htrim] at hclassify
  constructor
  · intro e hread
    exact ⟨_, read_of_ok hclassify hne hread, shows_mk s ws e⟩
  · intro cause hread
    refine ⟨_, read_of_error hclassify hne hread, Error.isOwn_kind_within _ _, ?_⟩
    rw [Error.message_within, Error.message_of, String.append_assoc]

end

/-- Two words that bind, and a word in front of a text that is refused. -/
theorem read_fronted_rebound :
    (∃ d, Directive.read " bound  unbound\tx\n" = .ok d ∧
        Shows d " bound  unbound\tx\n" [.bound, .unbound] (.path ["x"])) ∧
      ∃ error, Directive.read "view a +" = .error error ∧ error.kind.isOwn = true ∧
        error.message = "Unexpected token, found end of expression at position 3" ++
          "\n\nWithin expression: " ++ "view a +" := by
  constructor
  · have hspaces : Text.AreBlank [' ', ' '] ∧ Text.AreBlank ['\t'] ∧ Text.AreBlank ['\n'] :=
      ⟨forall_mem_of_all (by decide), forall_mem_of_all (by decide), forall_mem_of_all (by decide)⟩
    have hfronted : Fronted ['x'] [.bound, .unbound] "bound  unbound\tx".toList :=
      .cons hspaces.1 (by simp) (.cons hspaces.2.1 (by simp) .nil)
    have hcanonical : (Expr.path ["x"]).Canonical Token.Short (fun _ => True) :=
      .path rfl rfl (by decide) (by simp)
    have hplain : ∀ (w : ValueWord) (c : Char) (more : List Char), Text.isBlank c = true →
        ['x'] ≠ w.text.toList ++ c :: more := by
      rintro (_ | _ | _ | _) c more - <;> simp [ValueWord.text]
    have hread := read_fronted (s := " bound  unbound\tx\n") hfronted (by simp) (by simp)
      (by decide) hplain Text.areBlank_space hspaces.2.2 (by decide)
    exact hread.1 _ hcanonical.read_print
  · have hfronted : Fronted ['a', ' ', '+'] [.view] "view a +".toList :=
      .cons Text.areBlank_space (by simp) .nil
    have hplain : ∀ (w : ValueWord) (c : Char) (more : List Char), Text.isBlank c = true →
        ['a', ' ', '+'] ≠ w.text.toList ++ c :: more := by
      rintro (_ | _ | _ | _) c more - <;> simp [ValueWord.text]
    have hread := read_fronted (s := "view a +") hfronted (by simp) (by simp) (by decide) hplain
      Text.areBlank_nil Text.areBlank_nil (by simp)
    have hmessage : (match Expr.read "a +" with | .error cause => cause.message | .ok _ => "") =
        "Unexpected token, found end of expression at position 3" := by decide +kernel
    cases hcause : Expr.read "a +" with
    | ok e =>
      rw [hcause] at hmessage
      simp at hmessage
    | error cause =>
      rw [hcause] at hmessage
      rw [← show cause.message = _ from hmessage]
      exact hread.2 cause hcause

end Stencil.Directive
