import Stencil.Command.Running
import Stencil.Proofs.Json
import Stencil.Proofs.Session.Directory
import Stencil.Proofs.Session.SetUp

/-!
# How parsing a template ends

A run that parses the template in a file, with the views below a directory, ends as the parsing of
the view does: it prints the tree as JSON and exits with zero, or it complains of the error and
exits with one. There is a third way. A tree that the library for JSON does not write, because an
integer in it is too large or because it is nested too deeply, ends the run by an error that nothing
reports.
-/

namespace Stencil.Command

open Session

/-! ## The preparation -/

/-- What is left of the preparation once there are settings. -/
def configure (i : Invocation) : Action Unit := do
  match i.config? with
  | some path => Action.loadSettings path
  | none => pure ()
  let level ← Action.setting "logging.level" (.text "WARNING")
  let format ← Action.setting "logging.format" (.text "text")
  Action.configureLogs ((i.logLevel?.map .text).getD level) ((i.logFormat?.map .text).getD format)
    i.logFile? true

/-- Without a log file, the preparation sets up settings and logs and does nothing else. -/
theorem setsUp_configure {i : Invocation} (h : i.logFile? = none) :
    Action.SetsUp (configure i) := by
  have hlogs : Action.SetsUp (do
      let level ← Action.setting "logging.level" (.text "WARNING")
      let format ← Action.setting "logging.format" (.text "text")
      Action.configureLogs ((i.logLevel?.map .text).getD level)
        ((i.logFormat?.map .text).getD format) i.logFile? true) := by
    rw [h]
    exact (Action.setsUp_setting _ _).bind fun _ => (Action.setsUp_setting _ _).bind fun _ =>
      Action.setsUp_configureLogs _ _ _
  rw [configure]
  cases i.config? with
  | some path => exact (Action.setsUp_loadSettings path).bind fun _ => hlogs
  | none => exact hlogs

/-- A preparation without a log file leaves settings that answer every question. -/
theorem setUp_of_prepare {s s' : Session} {i : Invocation} (hlog : i.logFile? = none)
    (h : s.run (prepare i) = (.ok (), s')) :
    s.SetUp s' ∧ ∀ key, ∃ b, s'.answer key = .ok b := by
  obtain ⟨_, s₁, hdiscard, hconfigure⟩ := run_bind_eq_ok.1 h
  obtain ⟨σ, hsettings⟩ := run_discard_eq_ok.1 hdiscard
  have hsetup := Action.setsUp_settings s
  rw [hsettings] at hsetup
  have hrest : s₁.run (configure i) = (.ok (), s') := hconfigure
  have hsetup' := setsUp_configure hlog s₁
  rw [hrest] at hsetup'
  refine ⟨hsetup.trans hsetup', exists_answer (hsetup'.settings ?_)⟩
  rw [run_settings] at hsettings
  split at hsettings
  · cases hsettings
    rfl
  · cases hsettings

theorem eq_ok_of_toOption {α ε : Type} {x : Except ε α} {a : α} (h : x.toOption = some a) :
    x = .ok a := by
  cases x with
  | error e => cases h
  | ok b => exact congrArg Except.ok (Option.some.inj h)

/-- Without variables in the environment and without options, the preparation succeeds. -/
theorem exists_run_prepare (json : Json.Library) (files : Files) (now : Log.Time)
    (task? : Option Task) :
    ∃ s, (Session.start json [] files now).run (prepare ⟨none, none, none, none, task?⟩) =
      (.ok (), s) := by
  let level := Settings.default.get "logging.level" (.text "WARNING")
  let format := level.2.get "logging.format" (.text "text")
  have hlevel : Log.Level.read level.1 = .ok .warning := eq_ok_of_toOption (by decide +kernel)
  have hlevel' : Log.Level.read (format.2.get "logging.level" (.text "WARNING")).1 = .ok .warning :=
    eq_ok_of_toOption (by decide +kernel)
  let s : Session := { Session.start json [] files now with settings? := some Settings.default }
  have hsettings : (Session.start json [] files now).run (discard Action.settings) = (.ok (), s) := rfl
  obtain ⟨l, s', hlog⟩ : ∃ l s', ({ s with settings? := some format.2 } : Session).run
      (Action.log Log.rootLog none) = (.ok l, s') := by
    have hmissing : Entries.get? Log.rootLog s.logs = none := rfl
    rw [Action.log, run_bind_of_ok (run_get _)]
    simp only [hmissing]
    rw [run_bind_of_ok (run_setting rfl _ _), hlevel', run_bind_of_ok (run_check_ok _ _)]
    exact ⟨_, _, rfl⟩
  rw [prepare, run_bind_of_ok hsettings]
  dsimp only
  rw [run_bind_of_ok (run_setting rfl _ _), run_bind_of_ok (run_setting rfl _ _),
    Action.configureLogs]
  dsimp only [Option.map, Option.getD]
  rw [hlevel, run_bind_of_ok (run_check_ok _ _), run_bind_of_ok (run_get _)]
  exact ⟨_, run_bind_of_ok (run_discard_eq_ok.2 ⟨l, hlog⟩) _⟩

/-! ## The task -/

def viewFiles (files : Files) : Option String → Except Cause (List Path)
  | none => .ok []
  | some directory => files.find (.ofText directory) "*.html"

def viewsIn (files : Files) (minifies : Bool) (found : List Path) :
    Option String → Except Cause (List View)
  | none => .ok []
  | some directory => found.mapM (Action.viewIn files (.ofText directory) minifies)

def ParseOptions.view (o : ParseOptions) (source : String) (minifies : Bool) : View :=
  { name := o.name?.getD (Path.ofText o.file).stem, source
    textOption := .bool o.isText
    unminifiedOption := .bool (o.unminified || !minifies)
    elements := [], attributes := [], arrays := [], template? := none }

def ParseOptions.layout (o : ParseOptions) : Json.Layout :=
  if o.indent then .lines else .compact

variable {files : Files} {o : ParseOptions} {source : String} {minifies strict : Bool}
  {views : List View} {paths found : List Path} {s : Session}

/-- Files that can be read are views, whatever they are called. -/
theorem exists_viewsIn {directory? : Option String}
    (hfound : viewFiles files directory? = .ok found)
    (htexts : ∀ path ∈ found, ∃ text, files.readText path = .ok text) (minifies : Bool) :
    ∃ views, viewsIn files minifies found directory? = .ok views := by
  cases directory? with
  | none => exact ⟨[], rfl⟩
  | some directory =>
    exact Action.exists_viewIn (fun path hpath => Files.exists_of_find hfound hpath) htexts

/-- Loading the views below a directory registers them in the order of their paths. -/
theorem exists_run_loadViews {directory? : Option String} (hs : s.Spares paths)
    (hminifies : s.answer "parser.minify" = .ok minifies)
    (hfound : viewFiles s.outlets.files directory? = .ok found)
    (hpaths : ∀ path ∈ found, path ∈ paths)
    (hviews : viewsIn s.outlets.files minifies found directory? = .ok views) :
    ∃ s', s.run (loadViews directory?) = (.ok (), s') ∧ s.Stays paths s' ∧
      s'.registry = views.foldl Registry.insert s.registry := by
  cases directory? with
  | none =>
    cases hviews
    exact ⟨s, rfl, .refl s, rfl⟩
  | some directory =>
    obtain ⟨s', hrun, hstays, hregistry⟩ :=
      Action.exists_run_views hs hminifies (fun _ _ => rfl) hpaths hviews
    refine ⟨s', run_discard_eq_ok.2 ⟨views, ?_⟩, hstays, hregistry⟩
    have hfind : s.outlets.files.find (.ofText directory) ("*" ++ ".html") = .ok found := hfound
    rw [Action.loadViews, run_bind_of_ok (run_get s), hfind, run_bind_of_ok (run_check_ok s found)]
    exact hrun

/-- The template's own view is registered last. -/
theorem exists_run_registerFile (hs : s.Spares paths)
    (hminifies : s.answer "parser.minify" = .ok minifies)
    (hsource : s.outlets.files.readText (.ofText o.file) = .ok source) :
    ∃ s', s.run (registerFile (.ofText o.file) o.name?
        { ViewOptions.default with
          isText := .bool o.isText
          unminified := if o.unminified then .bool true else .null }) =
        (.ok (o.view source minifies), s') ∧ s.Stays paths s' ∧
      s'.registry = s.registry.insert (o.view source minifies) := by
  let options : ViewOptions :=
    { ViewOptions.default with
      isText := .bool o.isText
      unminified := if o.unminified then .bool true else .null }
  have hmade : s.made (o.name?.getD (Path.ofText o.file).stem) source options =
      .ok (o.view source minifies) := by
    rw [made, Session.minifies, ParseOptions.view]
    cases hunminified : o.unminified with
    | true =>
      simp only [options, hunminified]
      rfl
    | false =>
      simp only [options, hunminified]
      rw [hminifies]
      rfl
  obtain ⟨s', hrun, hstays, hregistry⟩ :=
    exists_run_register hs (o.name?.getD (Path.ofText o.file).stem) source options
  rw [hmade] at hrun hregistry
  refine ⟨s', ?_, hstays, hregistry⟩
  rw [registerFile, run_bind_of_ok (run_readFile hsource)]
  exact hrun

def ParseOptions.parsed (o : ParseOptions) (source : String) (views : List View)
    (minifies strict : Bool) : Except Error Template :=
  let v := o.view source minifies
  (v.parse ((views.foldl Registry.insert .empty).insert v) strict).1

def ParseOptions.line (o : ParseOptions) (json : Json.Library) (t : Template) :
    Except Error String :=
  ((json.write o.layout t.dump).map (· ++ "\n")).mapError .of

/-- The task prints the line of the tree, and changes nothing else that is seen. -/
theorem exists_run_parse_task (hs : s.Spares (.ofText o.file :: found))
    (hminifies : s.answer "parser.minify" = .ok minifies)
    (hstrict : s.answer "parser.strict_close" = .ok strict) (hregistry : s.registry = .empty)
    (hsource : s.outlets.files.readText (.ofText o.file) = .ok source)
    (hfound : viewFiles s.outlets.files o.views? = .ok found)
    (hviews : viewsIn s.outlets.files minifies found o.views? = .ok views) :
    let line := (o.parsed source views minifies strict).bind (o.line s.json)
    ∃ s', s.run (parse o) = (line.map fun _ => 0, s') ∧
      s'.Spares (.ofText o.file :: found) ∧
      s'.outlets.printed = s.outlets.printed ++ line.toOption.getD "" := by
  intro line
  obtain ⟨s₁, hload, hstays₁, hregistry₁⟩ :=
    exists_run_loadViews hs hminifies hfound (fun path => List.mem_cons_of_mem _) hviews
  obtain ⟨s₂, hregister, hstays₂, hregistry₂⟩ :=
    exists_run_registerFile (o := o) (hstays₁.spares hs) ((hstays₁.answer _).trans hminifies)
      ((hstays₁.text _ List.mem_cons_self).trans hsource)
  have hstays := hstays₁.trans hstays₂
  obtain ⟨s₃, hparse, hstays₃, -⟩ :=
    exists_run_parse (hstays.spares hs) ((hstays.answer _).trans hstrict) (o.view source minifies)
  have hresult : ((o.view source minifies).parse s₂.registry strict).1 =
      o.parsed source views minifies strict := by
    rw [hregistry₂, hregistry₁, hregistry]
    rfl
  rw [hresult] at hparse
  have hspares := (hstays.trans hstays₃).spares hs
  have hprinted := (hstays.trans hstays₃).printed
  have hjson := (hstays.trans hstays₃).json
  have hrun : s.run (parse o) = s₂.run (do
      let t ← Action.parse (o.view source minifies)
      Action.print ((← Action.check ((← get).json.write o.layout t.dump)) ++ "\n")
      return 0) := by
    rw [parse, run_bind_of_ok hload]
    exact run_bind_of_ok hregister _
  cases hparsed : o.parsed source views minifies strict with
  | error e =>
    rw [hparsed] at hparse
    refine ⟨s₃, ?_, hspares, by simp [line, hparsed, hprinted, Except.bind, Except.toOption]⟩
    rw [hrun, run_bind_of_error hparse]
    simp [line, hparsed, Except.bind, Except.map]
  | ok t =>
    rw [hparsed] at hparse
    cases hwrite : s₃.json.write o.layout t.dump with
    | error cause =>
      have hline : line = .error (.of cause) := by
        simp [line, hparsed, ParseOptions.line, ← hjson, hwrite, Except.bind, Except.map,
          Except.mapError]
      refine ⟨s₃, ?_, hspares, by simp [hline, hprinted, Except.toOption]⟩
      rw [hrun, run_bind_of_ok hparse, run_bind_of_ok (run_get s₃), hwrite, hline]
      rfl
    | ok text =>
      have hline : line = .ok (text ++ "\n") := by
        simp [line, hparsed, ParseOptions.line, ← hjson, hwrite, Except.bind, Except.map,
          Except.mapError]
      refine ⟨{ s₃ with outlets := s₃.outlets.print (text ++ "\n") }, ?_, hspares, ?_⟩
      · rw [hrun, run_bind_of_ok hparse, run_bind_of_ok (run_get s₃), hwrite, hline]
        rfl
      · simp [hline, hprinted, Except.toOption, Log.Outlets.print]

/-- A task that fails with an error to be reported ends with a message and exit code 1, and any
other error goes on. -/
theorem run_perform (s : Session) (task : Task) : s.run (perform task) =
    match s.run (runTask task) with
    | (.ok code, s') => (.ok code, s')
    | (.error e, s') => s'.run (if isReported e then do
        Action.writeLog Log.commandLog .error "Command failed"
          [("command", .text task.name), ("error", .text e.kind.name)]
        Action.complain ("Error: " ++ e.message ++ "\n")
        return 1
      else throw e) := by
  rw [perform, run_bind, run_tryCatch, run_bind]
  rcases s.run (runTask task) with ⟨e | code, s'⟩
  · by_cases h : isReported e = true
    · simp only [h, if_true]
      rw [run_bind, run_bind]
      rfl
    · simp only [h]
      rfl
  · rfl

def Ending.code? : Ending → Option Nat
  | .exit code => some code
  | .misused | .failed _ => none

namespace Outcome

/-- The run prints what the library writes of the tree, in a line, and exits with zero. -/
def Shows (outcome : Outcome) (json : Json.Library) (layout : Json.Layout) (t : Template) : Prop :=
  outcome.ending = .exit 0 ∧
    ∃ text, json.write? layout t.dump = some text ∧ outcome.printed = text ++ "\n"

/-- The run prints nothing, complains of the error and exits with one. -/
def Complains (outcome : Outcome) (e : Error) : Prop :=
  outcome.ending = .exit 1 ∧ outcome.printed = "" ∧
    ∃ before, outcome.logged = before ++ "Error: " ++ e.message ++ "\n"

/-- The run ends in one of the two ways that are meant for it. -/
def Answers (outcome : Outcome) (json : Json.Library) (layout : Json.Layout) :
    Except Error Template → Prop
  | .ok t => outcome.Shows json layout t
  | .error e => outcome.Complains e

/-- The run ends in one of these ways, unless there is a tree that does not fit. -/
def Tells (outcome : Outcome) (json : Json.Library) (depth : ℕ∞) (layout : Json.Layout) :
    Except Error Template → Prop
  | .ok t =>
    Json.Fits depth t.dump ∧ outcome.Shows json layout t ∨
      ¬ Json.Fits depth t.dump ∧ outcome.ending = .failed (.of .notWritable) ∧
        outcome.printed = ""
  | .error e => outcome.Complains e

end Outcome

/-- The task runs to an end that tells its result. -/
theorem tells_of_run_perform {json : Json.Library} {depth : ℕ∞}
    (hjson : json.WritesFitting depth) {result : Except Error Template} {s' : Session}
    (hown : ∀ e, result = .error e → isReported e = true)
    (hrun : s.run (parse o) = ((result.bind (o.line json)).map fun _ => 0, s'))
    (hs : s'.Spares paths)
    (hprinted : s'.outlets.printed = (result.bind (o.line json)).toOption.getD "") :
    ∃ ending s'', s.run (perform (.parse o)) = (ending, s'') ∧
      Outcome.Tells ⟨match ending with
        | .ok code => .exit code
        | .error e => .failed e, s''.outlets.printed, s''.outlets.terminal, s''.outlets.files⟩
        json depth o.layout result := by
  have hrun' : s.run (runTask (.parse o)) = _ := hrun
  rw [run_perform, hrun']
  cases result with
  | error e =>
    obtain ⟨s₁, hlog, hstays, -⟩ := exists_run_writeLog hs Log.commandLog .error "Command failed"
      [("command", .text (Task.parse o).name), ("error", .text e.kind.name)]
    refine ⟨.ok 1, { s₁ with outlets := s₁.outlets.writeTerminal ("Error: " ++ e.message ++ "\n") },
      ?_, rfl, hstays.printed.trans hprinted, s₁.outlets.terminal, ?_⟩
    · simp only [Except.bind, Except.map, hown e rfl, if_true]
      exact run_bind_of_ok hlog _
    · simp [Log.Outlets.writeTerminal, String.append_assoc]
  | ok t =>
    cases hwrite : json.write? o.layout t.dump with
    | some text =>
      have hfits : Json.Fits depth t.dump := (hjson o.layout _).1 (by rw [hwrite]; rfl)
      have hline : o.line json t = .ok (text ++ "\n") := by
        simp only [ParseOptions.line, Json.Library.write, hwrite]
        rfl
      simp only [Except.bind, hline, Except.map] at hprinted ⊢
      exact ⟨.ok 0, s', rfl, .inl ⟨hfits, rfl, text, hwrite, hprinted⟩⟩
    | none =>
      have hfits : ¬ Json.Fits depth t.dump := by
        rw [← hjson o.layout, hwrite]
        exact Bool.false_ne_true
      have hline : o.line json t = .error (.of .notWritable) := by
        simp only [ParseOptions.line, Json.Library.write, hwrite]
        rfl
      simp only [Except.bind, hline, Except.map] at hprinted ⊢
      exact ⟨.error (.of .notWritable), s', rfl, .inr ⟨hfits, rfl, hprinted⟩⟩

/-- A run that parses a readable template with readable views ends as the parsing does, provided
that the settings and the logs could be set up. The library for JSON is any that writes what fits
and refuses the rest. -/
theorem tells_of_run_parse {json : Json.Library} {depth : ℕ∞} (hjson : json.WritesFitting depth)
    {environment : Environment} {now : Log.Time} {args : List String} {i : Invocation}
    (hargs : Invocation.read args = .ok i) (hlog : i.logFile? = none)
    (htask : i.task? = some (.parse o))
    (hprepare : (Session.start json environment files now).run (prepare i) = (.ok (), s))
    (hsource : files.readText (.ofText o.file) = .ok source)
    (hfound : viewFiles files o.views? = .ok found)
    (htexts : ∀ path ∈ found, ∃ text, files.readText path = .ok text) :
    ∃ minifies strict views, s.answer "parser.minify" = .ok minifies ∧
      s.answer "parser.strict_close" = .ok strict ∧
      viewsIn files minifies found o.views? = .ok views ∧
      (run json environment files now args).Tells json depth o.layout
        (o.parsed source views minifies strict) := by
  obtain ⟨hsetup, hanswers⟩ := setUp_of_prepare hlog hprepare
  obtain ⟨minifies, hminifies⟩ := hanswers "parser.minify"
  obtain ⟨strict, hstrict⟩ := hanswers "parser.strict_close"
  obtain ⟨views, hviews⟩ := exists_viewsIn hfound htexts minifies
  have hfiles : s.outlets.files = files := by rw [hsetup.outlets]; rfl
  have hspares := (hsetup.logs (logsToTerminal_start _ _ _ _)).spares (.ofText o.file :: found)
  obtain ⟨s₁, hrun, hspares₁, hprinted⟩ := exists_run_parse_task (o := o) hspares hminifies hstrict
    hsetup.registry (hfiles ▸ hsource) (hfiles ▸ hfound) (hfiles ▸ hviews)
  refine ⟨minifies, strict, views, hminifies, hstrict, hviews, ?_⟩
  have hown (e : Error) (he : o.parsed source views minifies strict = .error e) :
      isReported e = true := by
    rw [isReported, (o.view source minifies).isOwn_of_parse he]
    rfl
  have hempty : s.outlets.printed = "" := by rw [hsetup.outlets]; rfl
  have hsame : s.json = json := by rw [hsetup.json]; rfl
  rw [hempty, String.empty_append, hsame] at hprinted
  rw [hsame] at hrun
  obtain ⟨ending, s₂, hperform, htells⟩ := tells_of_run_perform hjson hown hrun hspares₁ hprinted
  have hinvoke : (Session.start json environment files now).run (invoke i) = (ending, s₂) := by
    rw [invoke, run_bind_of_ok hprepare, htask]
    exact hperform
  rw [run, runIn, hargs]
  simp only [hinvoke]
  exact htells

/-- A template that refers to a view below a directory. -/
theorem tells_of_run_parse_views :
    let files : Files := ⟨[(⟨.above 0, ["p.html"]⟩, .file (.text "\x7b\x7bview 'b'\x7d\x7d")),
      (⟨.above 0, ["views"]⟩, .directory), (⟨.above 0, ["views", "b.html"]⟩, .file (.text "x"))]⟩
    let now : Log.Time := ⟨2024, 1, 1, 0, 0, 0, 0⟩
    let args := ["parse", "p.html", "--views", "views"]
    ∃ i o s source found, Invocation.read args = .ok i ∧ i.logFile? = none ∧
      i.task? = some (.parse o) ∧
      (Session.start Json.strict [] files now).run (prepare i) = (.ok (), s) ∧
      files.readText (.ofText o.file) = .ok source ∧ viewFiles files o.views? = .ok found ∧
      (∀ path ∈ found, ∃ text, files.readText path = .ok text) ∧
      ∃ minifies strict views, s.answer "parser.minify" = .ok minifies ∧
        s.answer "parser.strict_close" = .ok strict ∧
        viewsIn files minifies found o.views? = .ok views ∧
        (run Json.strict [] files now args).Tells Json.strict Json.deepest o.layout
          (o.parsed source views minifies strict) := by
  intro files now args
  let o : ParseOptions := ⟨"p.html", none, false, false, some "views", false⟩
  let i : Invocation := ⟨none, none, none, none, some (.parse o)⟩
  have hargs : Invocation.read args = .ok i := rfl
  obtain ⟨s, hprepare⟩ := exists_run_prepare Json.strict files now i.task?
  have hsource : files.readText (.ofText o.file) = .ok "\x7b\x7bview 'b'\x7d\x7d" :=
    eq_ok_of_toOption (by decide +kernel)
  have hfound : viewFiles files o.views? = .ok [.ofText "views/b.html"] :=
    eq_ok_of_toOption (by decide +kernel)
  have htexts : ∀ path ∈ [Path.ofText "views/b.html"], ∃ text, files.readText path = .ok text := by
    rw [List.forall_mem_singleton]
    exact ⟨"x", eq_ok_of_toOption (by decide +kernel)⟩
  exact ⟨i, o, _, _, _, hargs, rfl, rfl, hprepare, hsource, hfound, htexts,
    tells_of_run_parse Json.strict_writesFitting hargs rfl rfl hprepare hsource hfound htexts⟩

/-- An integer that 64 bits do not hold ends the run by an error that nothing reports. -/
theorem not_forall_answers :
    ¬ ∀ (json : Json.Library) (depth : ℕ∞) (environment : Environment) (files : Files)
      (now : Log.Time) (args : List String) (i : Invocation) (o : ParseOptions) (s : Session)
      (source : String) (found : List Path), json.WritesFitting depth →
      Invocation.read args = .ok i → i.logFile? = none → i.task? = some (.parse o) →
      (Session.start json environment files now).run (prepare i) = (.ok (), s) →
      files.readText (.ofText o.file) = .ok source → viewFiles files o.views? = .ok found →
      (∀ path ∈ found, ∃ text, files.readText path = .ok text) →
      ∃ minifies strict views, s.answer "parser.minify" = .ok minifies ∧
        s.answer "parser.strict_close" = .ok strict ∧
        viewsIn files minifies found o.views? = .ok views ∧
        (run json environment files now args).Answers json o.layout
          (o.parsed source views minifies strict) := by
  intro h
  let files : Files :=
    ⟨[(⟨.above 0, ["p.html"]⟩, .file (.text "\x7b\x7b18446744073709551616\x7d\x7d"))]⟩
  let now : Log.Time := ⟨2024, 1, 1, 0, 0, 0, 0⟩
  let o : ParseOptions := ⟨"p.html", none, false, false, none, false⟩
  let i : Invocation := ⟨none, none, none, none, some (.parse o)⟩
  obtain ⟨s, hprepare⟩ := exists_run_prepare Json.strict files now i.task?
  have hsource : files.readText (.ofText o.file) =
      .ok "\x7b\x7b18446744073709551616\x7d\x7d" := eq_ok_of_toOption (by decide +kernel)
  have hexit : (run Json.strict [] files now ["parse", "p.html"]).ending.code? = none := by
    decide +kernel
  obtain ⟨minifies, strict, views, -, -, -, hanswers⟩ := h Json.strict _ [] files now
    ["parse", "p.html"] i o _ _ [] Json.strict_writesFitting rfl rfl rfl hprepare hsource rfl
    (List.forall_mem_nil _)
  cases hparsed : o.parsed _ views minifies strict with
  | ok t =>
    rw [hparsed] at hanswers
    rw [hanswers.1] at hexit
    cases hexit
  | error e =>
    rw [hparsed] at hanswers
    rw [hanswers.1] at hexit
    cases hexit

end Stencil.Command
