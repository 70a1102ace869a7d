import Stencil.Command.Running
import Stencil.Json.Writing
import Stencil.Proofs.Session

/-!
# Checking templates in another order

A file that is checked is also registered as a view, so later files can refer to it and earlier ones
cannot. What a file is told therefore depends on the names that are registered before it, and on
nothing else that happens before it. More names never turn an acceptance into a failure.

Hence a check of some files ends in the same way in every order exactly if no file needs one of the
others: what is accepted after all the others is accepted alone. This holds as long as no log is
written to one of the files, because that changes what is checked.
-/

namespace Stencil.Command

open Session

/-! ## Reports -/

/-- A printed report tells these verdicts, each in a line of its own. -/
inductive Tells : List (String × Bool) → String → Prop where
  | nil : Tells [] ""
  | accepted {verdicts : List (String × Bool)} {text : String} (file : String)
      (h : Tells verdicts text) :
      Tells ((file, true) :: verdicts) ("OK   " ++ file ++ "\n" ++ text)
  | rejected {verdicts : List (String × Bool)} {text message : String} (file : String)
      (hline : '\n' ∉ message.toList) (h : Tells verdicts text) :
      Tells ((file, false) :: verdicts) ("FAIL " ++ file ++ ": " ++ message ++ "\n" ++ text)

/-- A line ends at its first line feed. -/
theorem eq_of_line_eq {message message' text text' : String} (h : '\n' ∉ message.toList)
    (h' : '\n' ∉ message'.toList) (heq : message ++ "\n" ++ text = message' ++ "\n" ++ text') :
    text = text' := by
  have hlists : message.toList ++ '\n' :: text.toList = message'.toList ++ '\n' :: text'.toList := by
    simpa using congrArg String.toList heq
  have hsplit := Text.splitAtFirst?_singleton h text.toList
  rw [hlists, Text.splitAtFirst?_singleton h', Option.some.injEq, Prod.mk.injEq] at hsplit
  exact String.toList_inj.1 (List.cons.inj hsplit.2).2.symm

/-- An acceptance does not begin as a rejection. -/
theorem accepted_ne_rejected (rest rest' : String) : "OK   " ++ rest ≠ "FAIL " ++ rest' := by
  intro h
  have hlists := congrArg String.toList h
  rw [String.toList_append, String.toList_append] at hlists
  cases (List.cons.inj hlists).1

/-- A report tells one verdict on each file. -/
theorem Tells.unique {verdicts verdicts' : List (String × Bool)} {text : String}
    (h : Tells verdicts text) (h' : Tells verdicts' text)
    (hfiles : verdicts.map Prod.fst = verdicts'.map Prod.fst) : verdicts = verdicts' := by
  induction h generalizing verdicts' with
  | nil => exact (List.map_eq_nil_iff.1 hfiles.symm).symm
  | @accepted verdicts text file h ih =>
    generalize htext : "OK   " ++ file ++ "\n" ++ text = printed at h'
    cases h' with
    | nil => cases hfiles
    | accepted file' h' =>
      obtain ⟨rfl, hrest⟩ := List.cons.inj hfiles
      rw [String.append_right_inj] at htext
      subst htext
      rw [ih h' hrest]
    | rejected file' =>
      simp only [String.append_assoc] at htext
      exact absurd htext (accepted_ne_rejected _ _)
  | @rejected verdicts text message file hline h ih =>
    generalize htext : "FAIL " ++ file ++ ": " ++ message ++ "\n" ++ text = printed at h'
    cases h' with
    | nil => cases hfiles
    | accepted file' =>
      simp only [String.append_assoc] at htext
      exact absurd htext.symm (accepted_ne_rejected _ _)
    | @rejected _ text' message' file' hline' h' =>
      obtain ⟨rfl, hrest⟩ := List.cons.inj hfiles
      have hcut : message ++ "\n" ++ text = message' ++ "\n" ++ text' := by
        simpa [String.append_assoc] using htext
      obtain rfl := eq_of_line_eq hline hline' hcut
      rw [ih h' hrest]

/-! ## Verdicts -/

def viewName (file : String) : String :=
  (Path.ofText file).stem

/-- What the verdicts on files depend on, apart from the names that are registered. -/
structure Conditions where
  minifies : Bool
  strict : Bool
  text : String → String

/-- Whether a file is accepted if views of these names are registered, besides its own. -/
def Conditions.accepts (c : Conditions) (names : List String) (file : String) : Bool :=
  (View.plain (viewName file) (c.text file) c.minifies).parses
    (.ofNames (viewName file :: names)) c.strict

/-- More names never turn an acceptance into a failure. -/
theorem Conditions.accepts_mono {c : Conditions} {names names' : List String} {file : String}
    (hnames : ∀ name ∈ names, name ∈ names') (h : c.accepts names file = true) :
    c.accepts names' file = true := by
  refine View.parses_mono (Registry.isPlain_ofNames _) (Registry.isPlain_ofNames _) ?_ h
  simp only [Registry.names_ofNames, List.mem_cons]
  exact fun name hname => hname.imp_right (hnames name)

/-- A session in which the conditions hold for the files, and views of these names are registered. -/
structure Meets (c : Conditions) (files names : List String) (s : Session) : Prop where
  spares : s.Spares (files.map .ofText)
  minifies : s.answer "parser.minify" = .ok c.minifies
  strict : s.answer "parser.strict_close" = .ok c.strict
  text : ∀ file ∈ files, s.outlets.files.readText (.ofText file) = .ok (c.text file)
  plain : s.registry.IsPlain
  names : ∀ name, name ∈ s.registry.names ↔ name ∈ names

section

variable {c : Conditions} {files names : List String} {s s' : Session}

/-- Steps that leave everything but the registry alone keep the conditions. -/
theorem Meets.stays (h : Meets c files names s) (hstays : s.Stays (files.map .ofText) s')
    {names' : List String} (hplain : s'.registry.IsPlain)
    (hnames : ∀ name, name ∈ s'.registry.names ↔ name ∈ names') : Meets c files names' s' where
  spares := hstays.spares h.spares
  minifies := (hstays.answer _).trans h.minifies
  strict := (hstays.answer _).trans h.strict
  text file hfile := (hstays.text _ (List.mem_map_of_mem hfile)).trans (h.text file hfile)
  plain := hplain
  names := hnames

/-- The verdict on a file is that of registering and parsing its view, where an error of the
language's own is a verdict and any other one stops the run. -/
theorem run_verdict (s : Session) (file : String) : s.run (verdict file) =
    match s.run (registerFile (.ofText file) none .default) with
    | (.ok v, s₁) =>
      match s₁.run (Action.parse v) with
      | (.ok _, s₂) => (.ok none, s₂)
      | (.error e, s₂) => if e.kind.isOwn then (.ok (some e), s₂) else (.error e, s₂)
    | (.error e, s₁) => (.error e, s₁) := by
  rw [verdict, run_bind]
  rcases s.run (registerFile (.ofText file) none .default) with ⟨_ | v, s₁⟩
  · rfl
  · dsimp only
    rw [run_bind, run_tryCatch, run_bind, run_discard]
    rcases s₁.run (Action.parse v) with ⟨e | t, s₂⟩
    · by_cases hown : e.kind.isOwn = true
      · simp only [hown, if_true]
        rfl
      · simp only [hown]
        rfl
    · rfl

/-- The verdict on a file depends on the names that are registered, and its own name is one of them
afterwards. -/
theorem Meets.exists_run_verdict (h : Meets c files names s) {file : String}
    (hfile : file ∈ files) :
    ∃ error? s', s.run (verdict file) = (.ok error?, s') ∧
      error?.isNone = c.accepts names file ∧ Meets c files (viewName file :: names) s' ∧
      s'.outlets.printed = s.outlets.printed := by
  let v := View.plain (viewName file) (c.text file) c.minifies
  obtain ⟨s₁, hregister, hstays, hregistry⟩ :=
    exists_run_register_default h.spares h.minifies (viewName file) (c.text file)
  have hregisterFile : s.run (registerFile (.ofText file) none .default) = (.ok v, s₁) := by
    rw [registerFile, run_bind_of_ok (run_readFile (h.text file hfile))]
    exact hregister
  have hplain : s₁.registry.IsPlain := hregistry ▸ h.plain.insert (View.isPlain_plain _ _ _) rfl
  have hnames : ∀ name, name ∈ s₁.registry.names ↔ name ∈ viewName file :: names := by
    intro name
    rw [hregistry, Registry.mem_names_insert, List.mem_cons, h.names]
    rfl
  have haccepts : v.parses s₁.registry c.strict = c.accepts names file :=
    View.parses_congr hplain (Registry.isPlain_ofNames _) (by simpa using hnames)
  have hmeets₁ := h.stays hstays hplain hnames
  obtain ⟨s₂, hstays₂, ⟨hparses, t, hparse, hregistry₂⟩ | ⟨hparses, e, hparse, hown, hregistry₂⟩⟩ :=
    exists_run_parse_cases hmeets₁.spares hmeets₁.strict v
  · refine ⟨none, s₂, ?_, ?_, hmeets₁.stays hstays₂ ?_ ?_, ?_⟩
    · rw [run_verdict, hregisterFile]
      simp only [hparse]
    · rw [← haccepts, hparses]
      rfl
    · exact hregistry₂ ▸ hplain.keepTemplate _ _
    · rw [hregistry₂, Registry.names_keepTemplate]
      exact hnames
    · exact (hstays.trans hstays₂).printed
  · refine ⟨some e, s₂, ?_, ?_, hmeets₁.stays hstays₂ ?_ ?_, ?_⟩
    · rw [run_verdict, hregisterFile]
      simp only [hparse, hown, if_true]
    · rw [← haccepts, hparses]
      rfl
    · exact hregistry₂ ▸ hplain
    · exact hregistry₂ ▸ hnames
    · exact (hstays.trans hstays₂).printed

/-- What a report tells of an error fits in one line. -/
theorem not_mem_firstLine (message : String) : '\n' ∉ (Text.firstLine message).toList := by
  intro h
  rw [Text.firstLine, String.toList_ofList] at h
  have hline := List.all_eq_true.1 List.all_takeWhile _ h
  revert hline
  decide

/-- The line about a file. -/
theorem Meets.exists_run_report (h : Meets c files names s) (file : String)
    (error? : Option Error) :
    ∃ s' line, s.run (report file error?) = (.ok (), s') ∧ Meets c files names s' ∧
      s'.outlets.printed = s.outlets.printed ++ line ∧
      ∀ {verdicts : List (String × Bool)} {text : String}, Tells verdicts text →
        Tells ((file, error?.isNone) :: verdicts) (line ++ text) := by
  have hanswer (line key : String) :
      ({ s with outlets := s.outlets.print line } : Session).answer key = s.answer key := by
    apply answer_congr <;> rfl
  have hprint (line : String) : Meets c files names { s with outlets := s.outlets.print line } :=
    ⟨h.spares, (hanswer line _).trans h.minifies, (hanswer line _).trans h.strict, h.text, h.plain,
      h.names⟩
  cases error? with
  | none => exact ⟨_, _, run_modify s _, hprint _, rfl, fun h => .accepted file h⟩
  | some e =>
    let line := "FAIL " ++ file ++ ": " ++ Text.firstLine e.message ++ "\n"
    obtain ⟨s', hlog, hstays, hregistry⟩ := exists_run_writeLog (hprint line).spares Log.commandLog
      .debug "Template failed" [("file", .text file), ("error", .text e.message)]
    refine ⟨s', line, ?_, ?_, hstays.printed, fun h => .rejected file (not_mem_firstLine _) h⟩
    · exact (run_bind_of_ok (run_modify s _) _).trans hlog
    · exact (hprint line).stays hstays (hregistry ▸ h.plain) (hregistry ▸ h.names)

def Conditions.verdicts (c : Conditions) (names : List String) : List String → List Bool
  | [] => []
  | file :: files => c.accepts names file :: verdicts c (viewName file :: names) files

def checkAll (files : List String) : Action (List (Option Error)) :=
  files.mapM fun file => do
    let error? ← verdict file
    report file error?
    return error?

/-- Files that are checked one after the other get the verdicts that the names before them allow,
and each gets its line. -/
theorem Meets.exists_run_checkAll (h : Meets c files names s) {checked : List String}
    (hchecked : ∀ file ∈ checked, file ∈ files) :
    ∃ errors s' text, s.run (checkAll checked) = (.ok errors, s') ∧
      errors.map Option.isNone = c.verdicts names checked ∧
      (∃ names', Meets c files names' s') ∧
      s'.outlets.printed = s.outlets.printed ++ text ∧
      Tells (checked.zip (c.verdicts names checked)) text := by
  induction checked generalizing s names with
  | nil => exact ⟨[], s, "", rfl, rfl, ⟨names, h⟩, by simp, .nil⟩
  | cons file checked ih =>
    rw [List.forall_mem_cons] at hchecked
    obtain ⟨error?, s₁, hverdict, hnone, hmeets₁, hprinted₁⟩ := h.exists_run_verdict hchecked.1
    obtain ⟨s₂, line, hreport, hmeets₂, hprinted₂, htells⟩ :=
      hmeets₁.exists_run_report file error?
    obtain ⟨errors, s', text, hrest, hnones, hmeets', hprinted', htold⟩ := ih hmeets₂ hchecked.2
    refine ⟨error? :: errors, s', line ++ text, ?_, ?_, hmeets', ?_, ?_⟩
    · rw [checkAll] at hrest
      rw [checkAll, List.mapM_cons]
      simp only [bind_assoc, pure_bind]
      rw [run_bind_of_ok hverdict, run_bind_of_ok hreport, run_bind_of_ok hrest, run_pure]
    · rw [List.map_cons, hnone, hnones, Conditions.verdicts]
    · rw [hprinted', hprinted₂, hprinted₁, String.append_assoc]
    · rw [Conditions.verdicts, List.zip_cons_cons, ← hnone]
      exact htells htold

/-- Whatever the verdicts on files are, their names are registered afterwards. -/
theorem Meets.exists_run_verdicts (h : Meets c files names s) {before : List String}
    (hbefore : ∀ file ∈ before, file ∈ files) :
    ∃ errors s', s.run (before.mapM verdict) = (.ok errors, s') ∧
      Meets c files (before.reverse.map viewName ++ names) s' := by
  induction before generalizing s names with
  | nil => exact ⟨[], s, rfl, h⟩
  | cons file before ih =>
    rw [List.forall_mem_cons] at hbefore
    obtain ⟨error?, s₁, hverdict, -, hmeets₁, -⟩ := h.exists_run_verdict hbefore.1
    obtain ⟨errors, s', hrest, hmeets'⟩ := ih hmeets₁ hbefore.2
    refine ⟨error? :: errors, s', ?_, by simpa using hmeets'⟩
    rw [List.mapM_cons, run_bind_of_ok hverdict, run_bind_of_ok hrest, run_pure]

/-- Files that come later are checked with the names of the earlier ones. -/
theorem Conditions.verdicts_append (c : Conditions) (names before files : List String) :
    c.verdicts names (before ++ files) =
      c.verdicts names before ++ c.verdicts (before.reverse.map viewName ++ names) files := by
  induction before generalizing names with
  | nil => rfl
  | cons file before ih => simp [Conditions.verdicts, ih]

theorem Conditions.length_verdicts (c : Conditions) (names files : List String) :
    (c.verdicts names files).length = files.length := by
  induction files generalizing names with
  | nil => rfl
  | cons file files ih => rw [Conditions.verdicts, List.length_cons, List.length_cons, ih]

end

/-! ## Checking -/

/-- The run of a check prints these verdicts and ends with the exit code that they ask for. -/
def Reports (s : Session) (o : CheckOptions) (accepted : String → Bool) : Prop :=
  ∃ s' text, s.run (check o) = (.ok (if o.files.all accepted then 0 else 1), s') ∧
    s'.outlets.printed = s.outlets.printed ++ text ∧
    Tells (o.files.map fun file => (file, accepted file)) text

/-- Whether a file is accepted after others have been checked. -/
def acceptedAfter (s : Session) (views? : Option String) (before : List String) (file : String) :
    Bool :=
  match (s.run (do
    loadViews views?
    discard (before.mapM verdict)
    verdict file)).1 with
  | .ok none => true
  | _ => false

section

variable {c : Conditions} {files names checked : List String} {s s₁ : Session}
  {views? : Option String}

/-- After the files have been checked, the exit code tells whether one of them has failed. -/
theorem exists_run_check {s₂ : Session} {errors : List (Option Error)} {paths : List Path}
    (hload : s.run (loadViews views?) = (.ok (), s₁))
    (hall : s₁.run (checkAll checked) = (.ok errors, s₂)) (hspares : s₂.Spares paths) :
    ∃ s', s.run (check ⟨checked, views?⟩) =
        (.ok (if (errors.map Option.isNone).all id then 0 else 1), s') ∧
      s'.outlets.printed = s₂.outlets.printed := by
  obtain ⟨s', hlog, hstays, -⟩ := exists_run_writeLog hspares Log.commandLog .info
    "Checked templates"
    [("files", .int checked.length), ("failed", .int (errors.filter Option.isSome).length)]
  have hfailed : (errors.filter Option.isSome).length = 0 ↔
      (errors.map Option.isNone).all id = true := by
    rw [List.length_eq_zero_iff, List.filter_eq_nil_iff, List.all_map, List.all_eq_true]
    simp
  refine ⟨s', ?_, hstays.printed⟩
  rw [checkAll] at hall
  rw [check, run_bind_of_ok hload, run_bind_of_ok hall]
  dsimp only
  rw [run_bind_of_ok hlog, run_pure]
  simp only [hfailed]

/-- A check prints the verdicts and exits with the code that they ask for. -/
theorem Meets.exists_run_check (h : Meets c files names s₁)
    (hload : s.run (loadViews views?) = (.ok (), s₁))
    (hprinted : s₁.outlets.printed = s.outlets.printed)
    (hchecked : ∀ file ∈ checked, file ∈ files) :
    ∃ s' text, s.run (check ⟨checked, views?⟩) =
        (.ok (if (c.verdicts names checked).all id then 0 else 1), s') ∧
      s'.outlets.printed = s.outlets.printed ++ text ∧
      Tells (checked.zip (c.verdicts names checked)) text := by
  obtain ⟨errors, s₂, text, hall, hnones, ⟨names', hmeets⟩, hprinted₂, htells⟩ :=
    h.exists_run_checkAll hchecked
  obtain ⟨s', hrun, hprinted'⟩ := Command.exists_run_check hload hall hmeets.spares
  refine ⟨s', text, ?_, by rw [hprinted', hprinted₂, hprinted], htells⟩
  rw [hrun, hnones]

/-- A check reports what is told of its files exactly if these are their verdicts. -/
theorem Meets.reports_iff (h : Meets c files names s₁)
    (hload : s.run (loadViews views?) = (.ok (), s₁))
    (hprinted : s₁.outlets.printed = s.outlets.printed)
    (hchecked : ∀ file ∈ checked, file ∈ files) {accepted : String → Bool} :
    Reports s ⟨checked, views?⟩ accepted ↔ c.verdicts names checked = checked.map accepted := by
  obtain ⟨s', text, hrun, hprinted', htells⟩ := h.exists_run_check hload hprinted hchecked
  have hlength : checked.length = (c.verdicts names checked).length :=
    (c.length_verdicts names checked).symm
  constructor
  · rintro ⟨s'', text', hrun', hprinted'', htells'⟩
    obtain ⟨-, rfl⟩ := Prod.mk.inj (hrun.symm.trans hrun')
    rw [hprinted', String.append_right_inj] at hprinted''
    subst hprinted''
    have hfiles : (checked.zip (c.verdicts names checked)).map Prod.fst =
        (checked.map fun file => (file, accepted file)).map Prod.fst := by
      rw [List.map_fst_zip hlength.le, List.map_map]
      exact (List.map_id checked).symm
    have hverdicts := congrArg (List.map Prod.snd) (htells.unique htells' hfiles)
    rw [List.map_snd_zip hlength.ge, List.map_map] at hverdicts
    exact hverdicts
  · intro hverdicts
    rw [hverdicts, List.all_map] at hrun
    rw [hverdicts, ← List.map_id checked, List.map_map, List.zip_map'] at htells
    exact ⟨s', text, hrun, hprinted', htells⟩

/-- Of the files that are checked before, only the names count. -/
theorem Meets.acceptedAfter_eq (h : Meets c files names s₁)
    (hload : s.run (loadViews views?) = (.ok (), s₁)) {before : List String}
    (hbefore : ∀ file ∈ before, file ∈ files) {file : String} (hfile : file ∈ files) :
    acceptedAfter s views? before file =
      c.accepts (before.reverse.map viewName ++ names) file := by
  obtain ⟨errors, s₂, hbefore, hmeets⟩ := h.exists_run_verdicts hbefore
  obtain ⟨error?, s₃, hverdict, hnone, -, -⟩ := hmeets.exists_run_verdict hfile
  have hdiscard : s₁.run (discard (before.mapM verdict)) = (.ok (), s₂) := by
    rw [run_discard, hbefore]
  rw [acceptedAfter, run_bind_of_ok hload, run_bind_of_ok hdiscard, hverdict, ← hnone]
  cases error? <;> rfl

/-- A file before which only other files are checked. -/
theorem mem_erase_of_perm {before rest : List String} {file : String}
    (h : (before ++ file :: rest).Perm files) : ∀ other ∈ before, other ∈ files.erase file := by
  intro other hother
  have herase : (before ++ rest).Perm (files.erase file) := by
    have hperm := (List.perm_middle.symm.trans h).erase file
    rwa [List.erase_cons_head] at hperm
  exact herase.subset (List.mem_append_left rest hother)

/-- If no file needs another one, every order gives the verdicts on the files alone. By induction on
the files that are still to be checked. -/
theorem Conditions.verdicts_eq_of_perm
    (h : ∀ file ∈ files, c.accepts ((files.erase file).reverse.map viewName ++ names) file = true →
      c.accepts names file = true) (hperm : checked.Perm files) :
    c.verdicts names checked = checked.map (c.accepts names) := by
  have hrest : ∀ before rest : List String, before ++ rest = checked →
      c.verdicts (before.reverse.map viewName ++ names) rest = rest.map (c.accepts names) := by
    intro before rest
    induction rest generalizing before with
    | nil => exact fun _ => rfl
    | cons file rest ih =>
      rintro rfl
      have hothers := mem_erase_of_perm hperm
      have hfile : c.accepts (before.reverse.map viewName ++ names) file =
          c.accepts names file := by
        rw [Bool.eq_iff_iff]
        constructor
        · intro haccepts
          refine h file (hperm.subset (by simp)) (Conditions.accepts_mono ?_ haccepts)
          intro name hname
          obtain hname | hname := List.mem_append.1 hname
          · obtain ⟨other, hother, rfl⟩ := List.mem_map.1 hname
            refine List.mem_append_left _ (List.mem_map_of_mem (List.mem_reverse.2 ?_))
            exact hothers other (List.mem_reverse.1 hother)
          · exact List.mem_append_right _ hname
        · exact Conditions.accepts_mono fun name hname => List.mem_append_right _ hname
      have hnext := ih (before ++ [file]) (by simp)
      rw [Conditions.verdicts, List.map_cons, hfile]
      simpa using hnext
  exact hrest [] checked rfl

/-- Loading the views changes nothing that verdicts depend on but the names. -/
theorem exists_meets {σ : Settings} (hregistry : s.registry = .empty) (hσ : s.settings = .ok σ)
    (hreadable : ∀ file ∈ files, ∃ text, s.outlets.files.readText (.ofText file) = .ok text)
    (hspares : s.Spares (files.map .ofText))
    (hload : s.run (loadViews views?) = (.ok (), s₁)) :
    (∃ c, Meets c files s₁.registry.names s₁) ∧ s₁.outlets.printed = s.outlets.printed := by
  have hanswer (key : String) : s.answer key = .ok (σ.getBool key (.bool true)).1 := by
    rw [answer_eq, hσ]
    rfl
  have hplain : s.registry.IsPlain := hregistry ▸ Registry.isPlain_empty
  have hstays : s.Stays (files.map .ofText) s₁ ∧ s₁.registry.IsPlain := by
    cases views? with
    | none =>
      cases hload
      exact ⟨.refl s, hplain⟩
    | some directory =>
      obtain ⟨views, hviews⟩ := run_discard_eq_ok.1 hload
      exact stays_of_run_loadViews hspares (hanswer _) hplain hviews
  let c : Conditions :=
    { minifies := (σ.getBool "parser.minify" (.bool true)).1
      strict := (σ.getBool "parser.strict_close" (.bool true)).1
      text := fun file => (s.outlets.files.readText (.ofText file)).toOption.getD "" }
  have hmeets : Meets c files s.registry.names s := by
    refine ⟨hspares, hanswer _, hanswer _, fun file hfile => ?_, hplain, fun name => Iff.rfl⟩
    obtain ⟨text, htext⟩ := hreadable file hfile
    simp only [c, htext, Except.toOption, Option.getD_some]
  exact ⟨⟨c, hmeets.stays hstays.1 hstays.2 fun name => Iff.rfl⟩, hstays.1.printed⟩

/-! ## All orders -/

/-- How the run of a check ends: with these verdicts, or with an error in some state. -/
def Ends (s : Session) (o : CheckOptions) : Except (Error × Session) (String → Bool) → Prop
  | .ok accepted => Reports s o accepted
  | .error (e, s') => s.run (check o) = (.error e, s')

/-- With views that can be loaded and settings, all orders give the same verdicts exactly if no file
needs another one. For the way back each file is checked first and then last. -/
theorem Meets.reports_perm_iff (h : Meets c files names s₁)
    (hload : s.run (loadViews views?) = (.ok (), s₁))
    (hprinted : s₁.outlets.printed = s.outlets.printed) :
    (∃ accepted, ∀ checked, checked.Perm files → Reports s ⟨checked, views?⟩ accepted) ↔
      ∀ file ∈ files, acceptedAfter s views? (files.erase file) file = true →
        acceptedAfter s views? [] file = true := by
  have hreports {checked : List String} (hperm : checked.Perm files)
      (accepted : String → Bool) : Reports s ⟨checked, views?⟩ accepted ↔
        c.verdicts names checked = checked.map accepted :=
    h.reports_iff hload hprinted fun file hfile => hperm.subset hfile
  have hothers {file : String} (hfile : file ∈ files) :
      acceptedAfter s views? (files.erase file) file =
        c.accepts ((files.erase file).reverse.map viewName ++ names) file :=
    h.acceptedAfter_eq hload (fun other hother => List.mem_of_mem_erase hother) hfile
  have halone {file : String} (hfile : file ∈ files) :
      acceptedAfter s views? [] file = c.accepts names file :=
    h.acceptedAfter_eq hload (List.forall_mem_nil _) hfile
  constructor
  · rintro ⟨accepted, hall⟩ file hfile hafter
    have hfirst := (hreports (List.perm_cons_erase hfile).symm accepted).1
      (hall _ (List.perm_cons_erase hfile).symm)
    have hlastPerm : (files.erase file ++ [file]).Perm files :=
      (List.perm_append_singleton file _).trans (List.perm_cons_erase hfile).symm
    have hlast := (hreports hlastPerm accepted).1 (hall _ hlastPerm)
    rw [Conditions.verdicts, List.map_cons] at hfirst
    rw [Conditions.verdicts_append, List.map_append] at hlast
    have hlastVerdict := List.append_inj_right hlast (by simp [Conditions.length_verdicts])
    rw [hothers hfile] at hafter
    rw [halone hfile, (List.cons.inj hfirst).1, ← (List.cons.inj hlastVerdict).1, hafter]
  · intro hneeds
    refine ⟨c.accepts names, fun checked hperm => (hreports hperm _).2 ?_⟩
    refine Conditions.verdicts_eq_of_perm (fun file hfile hafter => ?_) hperm
    rw [← halone hfile]
    exact hneeds file hfile (hothers hfile ▸ hafter)

/-- With settings, every check ends with verdicts. -/
theorem Meets.exists_ending_iff (h : Meets c files names s₁)
    (hload : s.run (loadViews views?) = (.ok (), s₁))
    (hprinted : s₁.outlets.printed = s.outlets.printed) :
    (∃ ending, ∀ checked, checked.Perm files → Ends s ⟨checked, views?⟩ ending) ↔
      ∃ accepted, ∀ checked, checked.Perm files → Reports s ⟨checked, views?⟩ accepted := by
  constructor
  · rintro ⟨⟨e, s'⟩ | accepted, hends⟩
    · obtain ⟨s'', text, hrun, -⟩ := h.exists_run_check hload hprinted fun file hfile => hfile
      have hfails : s.run (check ⟨files, views?⟩) = (.error e, s') := hends files (.refl files)
      rw [hrun] at hfails
      cases hfails
    · exact ⟨accepted, hends⟩
  · rintro ⟨accepted, hreports⟩
    exact ⟨.ok accepted, hreports⟩

/-- Without views, nothing is accepted. -/
theorem acceptedAfter_of_load_error {e : Error} (hload : s.run (loadViews views?) = (.error e, s₁))
    (before : List String) (file : String) : acceptedAfter s views? before file = false := by
  rw [acceptedAfter, run_bind_of_error hload]

/-- Without settings, no view is loaded. -/
theorem eq_of_load_of_settings_error {e : Error} (hsettings : s.settings = .error e)
    (hload : s.run (loadViews views?) = (.ok (), s₁)) : s₁ = s := by
  cases views? with
  | none =>
    cases hload
    rfl
  | some directory =>
    obtain ⟨views, hviews⟩ := run_discard_eq_ok.1 hload
    exact eq_of_run_loadViews_of_settings_error hsettings hviews

/-- Without settings, no file can be registered. -/
theorem run_verdict_of_settings_error {e : Error} (hsettings : s.settings = .error e)
    {file text : String} (htext : s.outlets.files.readText (.ofText file) = .ok text) :
    s.run (verdict file) = (.error e, s) := by
  have hregister : s.run (registerFile (.ofText file) none .default) = (.error e, s) := by
    rw [registerFile, run_bind_of_ok (run_readFile htext)]
    exact run_register_of_settings_error hsettings _ _
  rw [run_verdict, hregister]

/-- A check of no files tells nothing and ends well. -/
theorem reports_nil (hspares : s.Spares []) (hload : s.run (loadViews views?) = (.ok (), s))
    (accepted : String → Bool) : Reports s ⟨[], views?⟩ accepted := by
  have hall : s.run (checkAll []) = (.ok [], s) := rfl
  obtain ⟨s', hrun, hprinted⟩ := exists_run_check hload hall hspares
  exact ⟨s', "", hrun, by rw [hprinted, String.append_empty], .nil⟩

/-- Without settings, a check of files fails at the first of them. -/
theorem exists_ending_of_settings_error {e : Error} (hsettings : s.settings = .error e)
    (hreadable : ∀ file ∈ files, ∃ text, s.outlets.files.readText (.ofText file) = .ok text)
    (hspares : s.Spares (files.map .ofText)) (hload : s.run (loadViews views?) = (.ok (), s)) :
    ∃ ending, ∀ checked, checked.Perm files → Ends s ⟨checked, views?⟩ ending := by
  by_cases hfiles : files = []
  · subst hfiles
    refine ⟨.ok fun _ => true, fun checked hperm => ?_⟩
    obtain rfl := hperm.eq_nil
    exact reports_nil hspares hload _
  · refine ⟨.error (e, s), fun checked hperm => ?_⟩
    cases checked with
    | nil => exact absurd hperm.symm.eq_nil hfiles
    | cons file checked =>
      obtain ⟨text, htext⟩ := hreadable file (hperm.subset List.mem_cons_self)
      have hverdict := run_verdict_of_settings_error hsettings htext
      have hall : s.run (checkAll (file :: checked)) = (.error e, s) := by
        rw [checkAll, List.mapM_cons]
        exact run_bind_of_error (run_bind_of_error hverdict _) _
      rw [Ends, check, run_bind_of_ok hload]
      exact run_bind_of_error hall _

/-- Without settings, nothing is accepted. -/
theorem acceptedAfter_of_settings_error {e : Error} (hsettings : s.settings = .error e)
    (hload : s.run (loadViews views?) = (.ok (), s))
    (hreadable : ∀ file ∈ files, ∃ text, s.outlets.files.readText (.ofText file) = .ok text)
    {before : List String} (hbefore : ∀ file ∈ before, file ∈ files) {file : String}
    (hfile : file ∈ files) : acceptedAfter s views? before file = false := by
  rw [acceptedAfter, run_bind_of_ok hload]
  cases before with
  | nil =>
    obtain ⟨text, htext⟩ := hreadable file hfile
    have hnone : s.run (discard (([] : List String).mapM verdict)) = (.ok (), s) := rfl
    rw [run_bind_of_ok hnone, run_verdict_of_settings_error hsettings htext]
  | cons first before =>
    obtain ⟨text, htext⟩ := hreadable first (hbefore first List.mem_cons_self)
    have hfirst : s.run (discard ((first :: before).mapM verdict)) = (.error e, s) := by
      rw [run_discard, List.mapM_cons,
        run_bind_of_error (run_verdict_of_settings_error hsettings htext)]
    rw [run_bind_of_error hfirst]

/-- A check ends in the same way in every order of the files exactly if each file that is accepted
after all the others is accepted alone. -/
theorem ends_perm_iff (hregistry : s.registry = .empty)
    (hreadable : ∀ file ∈ files, ∃ text, s.outlets.files.readText (.ofText file) = .ok text)
    (hspares : s.Spares (files.map .ofText)) :
    (∃ ending, ∀ checked, checked.Perm files → Ends s ⟨checked, views?⟩ ending) ↔
      ∀ file ∈ files, acceptedAfter s views? (files.erase file) file = true →
        acceptedAfter s views? [] file = true := by
  rcases hload : s.run (loadViews views?) with ⟨e | _, s₁⟩
  · refine iff_of_true ⟨.error (e, s₁), fun checked _ => run_bind_of_error hload _⟩ ?_
    intro file _ hafter
    rw [acceptedAfter_of_load_error hload] at hafter
    cases hafter
  · cases hsettings : s.settings with
    | error e =>
      obtain rfl := eq_of_load_of_settings_error hsettings hload
      refine iff_of_true (exists_ending_of_settings_error hsettings hreadable hspares hload) ?_
      intro file hfile hafter
      have hothers : ∀ other ∈ files.erase file, other ∈ files := fun other hother =>
        List.mem_of_mem_erase hother
      rw [acceptedAfter_of_settings_error hsettings hload hreadable hothers hfile] at hafter
      cases hafter
    | ok σ =>
      obtain ⟨⟨c, hmeets⟩, hprinted⟩ := exists_meets hregistry hsettings hreadable hspares hload
      rw [hmeets.exists_ending_iff hload hprinted, hmeets.reports_perm_iff hload hprinted]

def startWith (files views : List (String × String)) : Session :=
  let here := files.map fun f => (⟨.above 0, [f.1]⟩, .file (.text f.2))
  let below := views.map fun v => (⟨.above 0, ["views", v.1]⟩, .file (.text v.2))
  .start Json.strict [] ⟨here ++ (⟨.above 0, ["views"]⟩, .directory) :: below⟩ ⟨2024, 1, 1, 0, 0, 0, 0⟩

/-- The first file refers to a view that is found in the directory of views, and the second one
takes its place. That one is rejected, but it can be referred to. -/
theorem ends_perm_iff_shadowed :
    let files := ["a.html", "b.html"]
    let s := startWith [("a.html", "\x7b\x7bview 'b'\x7d\x7d"), ("b.html", "\x7b\x7bif x\x7d\x7d")]
      [("b.html", "x")]
    s.registry = .empty ∧
      (∀ file ∈ files, ∃ text, s.outlets.files.readText (.ofText file) = .ok text) ∧
      s.Spares (files.map .ofText) ∧
      ∃ ending, ∀ checked, checked.Perm files → Ends s ⟨checked, some "views"⟩ ending := by
  intro files s
  have hreadable : ∀ file ∈ files, ∃ text, s.outlets.files.readText (.ofText file) = .ok text := by
    simp only [files, List.forall_mem_cons]
    exact ⟨⟨_, rfl⟩, ⟨_, rfl⟩, List.forall_mem_nil _⟩
  have hspares : s.Spares (files.map .ofText) := spares_start _ _ _ _ _
  exact ⟨rfl, hreadable, hspares, (ends_perm_iff rfl hreadable hspares).2 (by decide +kernel)⟩

/-- If two orders differ in their exit codes, they do not end in the same way. -/
theorem not_exists_ending (hperm : checked.Perm files)
    (hexit : (s.run (check ⟨files, views?⟩)).1.toOption ≠
      (s.run (check ⟨checked, views?⟩)).1.toOption) :
    ¬ ∃ ending, ∀ checked, checked.Perm files → Ends s ⟨checked, views?⟩ ending := by
  rintro ⟨ending, hends⟩
  have hfiles := hends files (.refl files)
  have hchecked := hends checked hperm
  apply hexit
  cases ending with
  | error failure =>
    simp only [Ends] at hfiles hchecked
    rw [hfiles, hchecked]
  | ok accepted =>
    obtain ⟨s₁, text, hrun, -⟩ := hfiles
    obtain ⟨s₂, text', hrun', -⟩ := hchecked
    rw [hrun, hrun', hperm.all_eq]

/-- A file that refers to another one is accepted after it and rejected before it. -/
theorem not_forall_ends_perm :
    ¬ ∀ (s : Session) (views? : Option String) (files : List String), s.registry = .empty →
      (∀ file ∈ files, ∃ text, s.outlets.files.readText (.ofText file) = .ok text) →
      s.Spares (files.map .ofText) → (files.map viewName).Nodup →
      ∃ ending, ∀ checked, checked.Perm files → Ends s ⟨checked, views?⟩ ending := by
  intro h
  let s := startWith [("a.html", "\x7b\x7bview 'b'\x7d\x7d"), ("b.html", "x")] []
  have hreadable : ∀ file ∈ ["a.html", "b.html"],
      ∃ text, s.outlets.files.readText (.ofText file) = .ok text := by
    simp only [List.forall_mem_cons]
    exact ⟨⟨_, rfl⟩, ⟨_, rfl⟩, List.forall_mem_nil _⟩
  have hends := h s none ["a.html", "b.html"] rfl hreadable (spares_start _ _ _ _ _)
    (by decide +kernel)
  have hexit : (s.run (check ⟨["a.html", "b.html"], none⟩)).1.toOption ≠
      (s.run (check ⟨["b.html", "a.html"], none⟩)).1.toOption := by
    decide +kernel
  exact not_exists_ending (.swap _ _ _) hexit hends

/-- A log that is written to one of the files makes the order matter as well, even if no file needs
another one. Here the log names the view that the other file is registered as. -/
theorem not_forall_ends_perm_of_log :
    ¬ ∀ (s : Session) (views? : Option String) (files : List String), s.registry = .empty →
      (∀ file ∈ files, ∃ text, s.outlets.files.readText (.ofText file) = .ok text) →
      (files.map viewName).Nodup →
      (∀ file ∈ files, acceptedAfter s views? (files.erase file) file = true →
        acceptedAfter s views? [] file = true) →
      ∃ ending, ∀ checked, checked.Perm files → Ends s ⟨checked, views?⟩ ending := by
  intro h
  let sink : Log.Sink := .file (.ofText "a") Log.usualMaxSize Log.usualBackups
  let s : Session :=
    { startWith [("a", ""), ("\x7b\x7b", "")] [] with
      logs := [(Log.viewsLog, ⟨⟨Log.viewsLog, .debug, []⟩, [⟨sink, .usual false, .debug⟩]⟩)] }
  have hreadable : ∀ file ∈ ["a", "\x7b\x7b"],
      ∃ text, s.outlets.files.readText (.ofText file) = .ok text := by
    simp only [List.forall_mem_cons]
    exact ⟨⟨_, rfl⟩, ⟨_, rfl⟩, List.forall_mem_nil _⟩
  have halone : ∀ file ∈ ["a", "\x7b\x7b"], acceptedAfter s none [] file = true := by
    decide +kernel
  have hends := h s none ["a", "\x7b\x7b"] rfl hreadable (by decide +kernel)
    fun file hfile _ => halone file hfile
  have hexit : (s.run (check ⟨["a", "\x7b\x7b"], none⟩)).1.toOption ≠
      (s.run (check ⟨["\x7b\x7b", "a"], none⟩)).1.toOption := by
    decide +kernel
  exact not_exists_ending (.swap _ _ _) hexit hends

end

end Stencil.Command
