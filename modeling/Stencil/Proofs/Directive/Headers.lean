import Stencil.Proofs.Source.Directives

/-!
# Headers of blocks

After the word of a block stands its expression, and perhaps `as` with an alias. The alias is split
off before the expression is read, so the text alone decides: a printed expression that ends like
one with an alias, as a string inside it may, is cut in two. With an alias behind it every printed
expression is safe, since the last `as` is the written one.
-/

namespace Stencil.Directive

/-- The text is read as a header with this word, alias and expression. -/
def Announces (s word : String) (a : Option String) (e : Expr) : Prop :=
  ∃ d, Directive.read s = .ok d ∧ d.role.blockWord? = some word ∧ d.role.alias? = a ∧
    d.expr? = some e

theorem exists_role_of_mem {word : String}
    (h : word ∈ ["if", "unless", "else if", "each", "with"]) :
    ∃ role, (word, role) ∈ headWords := by
  have hwords : headWords.map Prod.fst = ["if", "unless", "else if", "each", "with"] := rfl
  rw [← hwords] at h
  obtain ⟨⟨_, role⟩, hmem, rfl⟩ := List.mem_map.1 h
  exact ⟨role, hmem⟩

/-- The role of a directive comes from its trimmed text. -/
theorem role_of_read {s : String} {d : Directive} (h : Directive.read s = .ok d) :
    d.role = (classify (Text.trim s.toList)).1 := by
  simp only [Directive.read] at h
  split at h
  · cases h
    rfl
  · cases h

theorem solid_append_alias {cs aliasName : List Char} (hsolid : Piece.Solid cs)
    (hne : aliasName ≠ []) (hink : ∀ c ∈ aliasName, Text.isBlank c = false) :
    Piece.Solid (cs ++ ' ' :: 'a' :: 's' :: ' ' :: aliasName) := by
  obtain ⟨c, rest, rfl, hstarts⟩ := hsolid.starts
  obtain ⟨before, d, rfl⟩ := (List.eq_nil_or_concat aliasName).resolve_left hne
  exact ⟨⟨c, _, List.cons_append, hstarts⟩,
    ⟨c :: rest ++ ' ' :: 'a' :: 's' :: ' ' :: before, d, by simp, hink d (by simp)⟩⟩

section

variable {word s : String} {role : Option String → Role} {cs : List Char} {e : Expr}
  {S : String → Prop}

theorem blockWord?_of_mem (h : (word, role) ∈ headWords) (a : Option String) :
    (role a).blockWord? = some word := by
  simp only [headWords, List.mem_cons, Prod.mk.injEq, List.not_mem_nil, or_false] at h
  obtain ⟨rfl, rfl⟩ | ⟨rfl, rfl⟩ | ⟨rfl, rfl⟩ | ⟨rfl, rfl⟩ | ⟨rfl, rfl⟩ := h <;> rfl

/-- A header in front of an expression has no blanks at its ends. -/
theorem solid_written (h : (word, role) ∈ headWords) (hsolid : Piece.Solid cs)
    (hs : s.toList = word.toList ++ ' ' :: cs) : Piece.Solid s.toList := by
  rw [hs]
  exact (solid_of_mem_frontWords (mem_frontWords h)).between hsolid [' ']

/-- A header is read as it is taken apart at its alias. -/
theorem announces_of_splitAlias (h : (word, role) ∈ headWords) (hsolid : Piece.Solid cs)
    (hs : s.toList = word.toList ++ ' ' :: cs) (he : e.Canonical Token.Short S)
    {a : Option (List Char)} (hsplit : splitAlias cs = (e.print.toList, a)) :
    Announces s word (a.map String.ofList) e := by
  have hclassify : classify s.toList = (role (a.map String.ofList), e.print.toList) := by
    rw [hs, classify_written h hsolid, hsplit]
  exact ⟨_, read_of_classify (solid_written h hsolid hs) hclassify he, blockWord?_of_mem h _,
    (leading_of_mem h _).2, rfl⟩

/-- The alias of a header is what stands behind its last `as`. -/
theorem alias?_of_read (h : (word, role) ∈ headWords) (hsolid : Piece.Solid cs)
    (hs : s.toList = word.toList ++ ' ' :: cs) {d : Directive} (hread : Directive.read s = .ok d) :
    d.role.alias? = (splitAlias cs).2.map String.ofList := by
  rw [role_of_read hread, Text.trim_of_solid (solid_written h hsolid hs), hs,
    classify_written h hsolid]
  exact (leading_of_mem h _).2

/-- An expression that is refused announces nothing. -/
theorem not_announces_of_refused (h : (word, role) ∈ headWords) (hsolid : Piece.Solid cs)
    (hs : s.toList = word.toList ++ ' ' :: cs) {body : List Char} {aliasName : Option (List Char)}
    (hsplit : splitAlias cs = (body, aliasName)) (hne : body ≠ []) {cause : Cause}
    (hbody : Expr.read (String.ofList body) = .error cause) (a : Option String) :
    ¬ Announces s word a e := by
  rintro ⟨d, hread, -⟩
  have hclassify : classify (Text.trim s.toList) = (role (aliasName.map String.ofList), body) := by
    rw [Text.trim_of_solid (solid_written h hsolid hs), hs, classify_written h hsolid, hsplit]
  rw [read_of_error hclassify hne hbody] at hread
  cases hread

/-- Without an alias a header is read as it is written exactly if its expression does not end like
an alias. -/
theorem announces_iff (h : (word, role) ∈ headWords) (he : e.Canonical Token.Short S) :
    Announces (word ++ " " ++ e.print) word none e ↔
      ¬ ∃ body aliasName, Aliased body aliasName e.print.toList := by
  have hs : (word ++ " " ++ e.print).toList = word.toList ++ ' ' :: e.print.toList := by simp
  constructor
  · rintro ⟨d, hread, -, halias, -⟩ ⟨body, aliasName, haliased⟩
    have hsome := alias?_of_read h he.solid_print hs hread
    rw [splitAlias_of_aliased haliased, halias] at hsome
    cases hsome
  · intro hnot
    have hsplit : splitAlias e.print.toList = (e.print.toList, none) := by
      refine (splitAlias_or e.print.toList).resolve_right ?_
      rintro ⟨body, aliasName, -, haliased⟩
      exact hnot ⟨body, aliasName, haliased⟩
    exact announces_of_splitAlias h he.solid_print hs he hsplit

/-- With an alias it always is. -/
theorem announces_as (h : (word, role) ∈ headWords) (he : e.Canonical Token.Short S) {a : String}
    (hne : a ≠ "") (hink : ∀ c ∈ a.toList, Text.isBlank c = false) :
    Announces (word ++ " " ++ e.print ++ " as " ++ a) word (some a) e := by
  have hs : (word ++ " " ++ e.print ++ " as " ++ a).toList =
      word.toList ++ ' ' :: (e.print.toList ++ ' ' :: 'a' :: 's' :: ' ' :: a.toList) := by
    simp
  have hne' : a.toList ≠ [] := by simpa using hne
  have hsplit := splitAlias_of_aliased (aliased_append he.solid_print hne' hink)
  have hannounces := announces_of_splitAlias h (solid_append_alias he.solid_print hne' hink) hs he
    hsplit
  simpa using hannounces

end

/-- A header is read as it was written, unless the printed expression itself ends like one with an
alias. -/
theorem read_header {word : String} (hword : word ∈ ["if", "unless", "else if", "each", "with"])
    {e : Expr} (he : e.Canonical Token.Short fun _ => True) :
    (Announces (word ++ " " ++ e.print) word none e ↔
        ¬ ∃ body aliasName, Aliased body aliasName e.print.toList) ∧
      ∀ a : String, a ≠ "" → (∀ c ∈ a.toList, Text.isBlank c = false) →
        Announces (word ++ " " ++ e.print ++ " as " ++ a) word (some a) e := by
  obtain ⟨role, h⟩ := exists_role_of_mem hword
  exact ⟨announces_iff h he, fun a hne hink => announces_as h he hne hink⟩

/-- A path, with an alias and without one. -/
theorem read_header_each :
    (Expr.path ["items"]).Canonical Token.Short (fun _ => True) ∧
      Announces "each items" "each" none (.path ["items"]) ∧
      Announces "each items as #item" "each" (some "#item") (.path ["items"]) := by
  have hcanonical : (Expr.path ["items"]).Canonical Token.Short (fun _ => True) :=
    .path rfl rfl (by decide) (by simp)
  have hprint : (Expr.path ["items"]).print = "items" := by decide
  have hnot : ¬ ∃ body aliasName, Aliased body aliasName (Expr.path ["items"]).print.toList := by
    rintro ⟨body, aliasName, haliased⟩
    have hmem := haliased.mem_words
    rw [hprint] at hmem
    exact absurd hmem (by decide)
  obtain ⟨hplain, halias⟩ := read_header (show "each" ∈ _ by decide) hcanonical
  have hplain' := hplain.2 hnot
  have halias' := halias "#item" (by decide) (forall_mem_of_all (by decide))
  rw [hprint] at hplain' halias'
  exact ⟨hcanonical, hplain', halias'⟩

/-- An integer of too many digits cannot be announced. -/
theorem not_announces_long {n : Nat} (hn : 10 ^ integerDigitLimit ≤ n) :
    ¬ Announces ("if " ++ (Expr.literal (.int n)).print ++ " as x") "if" (some "x")
      (.literal (.int n)) := by
  have hif : ("if", Role.opens .condition) ∈ headWords := by simp [headWords]
  obtain ⟨cause, hlong⟩ := Expr.read_print_long hn
  rw [← String.ofList_toList (s := Expr.print _)] at hlong
  have hsolid : Piece.Solid (Expr.literal (.int n)).print.toList := by
    rw [Expr.toList_print_nat]
    exact Piece.solid_toDigits n
  have hx : ∀ c ∈ ['x'], Text.isBlank c = false := forall_mem_of_all (by decide)
  have hsplit := splitAlias_of_aliased (aliased_append hsolid (by simp) hx)
  exact not_announces_of_refused hif (solid_append_alias hsolid (by simp) hx) (by simp) hsplit
    hsolid.ne_nil hlong _

/-- Both conditions are needed: a string may end in `as` and a word, and an integer may have more
digits than the language takes. -/
theorem not_forall_announces :
    (¬ ∀ e : Expr, e.Canonical Token.Short (fun _ => True) →
        Announces ("if " ++ e.print) "if" none e) ∧
      ¬ ∀ e : Expr, e.Canonical (fun _ => True) (fun _ => True) →
        Announces ("if " ++ e.print ++ " as x") "if" (some "x") e := by
  constructor
  · intro hall
    have hif : ("if", Role.opens .condition) ∈ headWords := by simp [headWords]
    have hspace := Text.areBlank_space
    have hcanonical : (Expr.literal (.text "b as c")).Canonical Token.Short (fun _ => True) :=
      .literal (.text trivial)
    have haliased : Aliased ['\'', 'b'] ['c', '\'']
        (['\'', 'b'] ++ ([' '] ++ 'a' :: 's' :: ([' '] ++ ['c', '\'']))) :=
      .intro (by simp) (Text.trimmed_of_ink (forall_mem_of_all (by decide))).last (by simp)
        (forall_mem_of_all (by decide)) hspace (by simp) hspace (by simp)
    have hprint : (Expr.literal (.text "b as c")).print.toList =
        ['\'', 'b'] ++ ([' '] ++ 'a' :: 's' :: ([' '] ++ ['c', '\''])) := by decide
    rw [← hprint] at haliased
    exact (announces_iff hif hcanonical).1 (hall _ hcanonical) ⟨_, _, haliased⟩
  · intro hall
    have hannounces := hall (.literal (.int (10 ^ integerDigitLimit : Nat)))
      (.literal (.int trivial))
    exact not_announces_long (Nat.le_refl _) hannounces

end Stencil.Directive
