import Stencil.Proofs.Source.Directives
import Stencil.Proofs.Source.Reading

/-!
# Building from a written source

A run of literals and directives is scanned into its spans again, so a builder that is given what the
reader reports of a source does the same as one that is given the written events.
-/

namespace Stencil

open Nesting

namespace Nesting.Event

/-- Events that are read from what is written of them. -/
def Fit : Event → Prop
  | .literal data => data ≠ "" ∧ ∀ c ∈ data.toList, isQuiet c = true
  | .directive d => d.Legible
  | e => e.Tidy

def isLiteral : Event → Bool
  | .literal _ => true
  | _ => false

def span : Event → Span
  | .directive d => .directive d
  | .literal data => .literal data
  | _ => .literal ""

theorem Fit.tidy {e : Event} (h : e.Fit) : e.Tidy := by
  cases e with
  | literal data => exact h.2
  | directive d => exact ⟨h.neat.mild, h.neat.balanced⟩
  | start | stop | comment => exact h

theorem Fit.chars_ne_nil {e : Event} (h : e.Fit) : e.chars ≠ [] := by
  cases e with
  | literal data => simpa [chars] using h.1
  | directive | start | stop => simp [chars]
  | comment data => cases h

theorem take_of_isText {e : Event} (h : e.isText = true) (scene : Scene) :
    e.take scene = Build.span scene e.span := by
  cases e with
  | literal | directive => rfl
  | start | stop | comment => cases h

end Nesting.Event

/-! ## Neighbours -/

section

variable {α : Type} {p : α → Bool} {as bs : List α}

theorem Apart.left (h : Apart p (as ++ bs)) : Apart p as := by
  induction as with
  | nil => trivial
  | cons a as ih =>
    refine ⟨fun ha b hb => h.1 ha b ?_, ih h.2⟩
    have hfirst : (as ++ bs).head? = some b := by
      rw [List.head?_append, Option.mem_def.1 hb, Option.some_or]
    exact hfirst

theorem Apart.right (h : Apart p (as ++ bs)) : Apart p bs := by
  induction as with
  | nil => exact h
  | cons a as ih => exact ih h.2

/-- Two lists that stay apart where they meet. -/
theorem Apart.append (has : Apart p as) (hbs : Apart p bs)
    (h : (∀ a ∈ as.getLast?, p a = false) ∨ ∀ b ∈ bs.head?, p b = false) : Apart p (as ++ bs) := by
  induction as with
  | nil => exact hbs
  | cons a as ih =>
    cases as with
    | nil =>
      refine ⟨fun ha => ?_, hbs⟩
      obtain h | h := h
      · rw [h a rfl] at ha
        cases ha
      · exact h
    | cons a' as =>
      rw [List.getLast?_cons_cons] at h
      exact ⟨has.1, ih has.2 h⟩

end

/-! ## Spans -/

namespace Span

theorem opening?_append {cs : List Char} (h : '{' ∉ cs) (rest : List Char) :
    opening? (cs ++ '{' :: '{' :: rest) = some (cs, rest) := by
  have hself := Text.splitAtFirst?_self '{' ['{'] rest
  rw [List.cons_append, List.cons_append, List.nil_append] at hself
  rw [opening?, Text.splitAtFirst?_append h, hself]
  simp

theorem scanFrom_region {cs before inside rest : List Char} (h : step cs = .region before inside rest)
    (hinside : inside ≠ []) (text : String) :
    scanFrom text cs =
      match Directive.read (String.ofList inside) with
      | .error e => ⟨literals before, some e⟩
      | .ok d => (scanFrom text rest).prepend (literals before ++ [.directive d]) := by
  rw [scanFrom_eq, h]
  exact if_neg (by simpa using hinside)

/-- A stretch without braces, a directive and what follows. -/
theorem step_directive {before : List Char} (hbefore : '{' ∉ before) {d : Directive}
    (hbalanced : Balanced d.source.toList) (rest : List Char) :
    step (before ++ ((Event.directive d).chars ++ rest)) = .region before d.source.toList rest := by
  have hchars : before ++ ((Event.directive d).chars ++ rest) =
      before ++ '{' :: '{' :: (d.source.toList ++ '}' :: '}' :: rest) := by
    simp [Event.chars]
  rw [hchars, step, opening?_append hbefore]
  simp [hbalanced.split?, inner]

/-- A legible directive behind plain text is scanned, and then the rest. -/
theorem scanFrom_directive {before : List Char} (hbefore : '{' ∉ before) {d : Directive}
    (hd : d.Legible) (text : String) (rest : List Char) :
    scanFrom text (before ++ ((Event.directive d).chars ++ rest)) =
      (scanFrom text rest).prepend (literals before ++ [.directive d]) := by
  have hne : d.source.toList ≠ [] := by simpa using hd.ne_empty
  rw [scanFrom_region (step_directive hbefore hd.neat.balanced rest) hne, String.ofList_toList,
    hd.read]

/-- A directive that is refused stops the scan. -/
theorem scan_refused {d : Directive} (hbalanced : Balanced d.source.toList) (hne : d.source ≠ "")
    {e : Error} (h : Directive.read d.source = .error e) :
    scan (String.ofList (Event.directive d).chars) = ⟨[], some e⟩ := by
  have hstep : step (Event.directive d).chars = .region [] d.source.toList [] := by
    simpa using step_directive List.not_mem_nil hbalanced []
  rw [scan_eq, String.toList_ofList, scanFrom_region hstep (by simpa using hne), String.ofList_toList,
    h]
  rfl

end Span

section

variable {es : List Event}

/-- A run of literals and directives is scanned into its spans. The stretch before it is the literal
that has just been passed. -/
theorem scanFrom_sourceChars (hfit : ∀ e ∈ es, e.Fit) (htext : ∀ e ∈ es, e.isText = true)
    (hapart : Apart Event.isLiteral es) {before : List Char} (hbefore : '{' ∉ before)
    (hfirst : before ≠ [] → ∀ e ∈ es.head?, e.isLiteral = false) (text : String) :
    Span.scanFrom text (before ++ sourceChars es) =
      ⟨Span.literals before ++ es.map Event.span, none⟩ := by
  induction es generalizing before with
  | nil =>
    rw [sourceChars, List.flatMap_nil, List.append_nil, List.map_nil, List.append_nil]
    by_cases hempty : before = []
    · subst hempty
      exact Span.scanFrom_nil text
    · rw [Span.scanFrom_literal hempty hbefore]
      simp [Span.literals, hempty]
  | cons e es ih =>
    have hcons : sourceChars (e :: es) = e.chars ++ sourceChars es := List.flatMap_cons
    have he := hfit e List.mem_cons_self
    have hmore {cs : List Char} (hcs : '{' ∉ cs)
        (hnext : cs ≠ [] → ∀ e' ∈ es.head?, e'.isLiteral = false) :
        Span.scanFrom text (cs ++ sourceChars es) =
          ⟨Span.literals cs ++ es.map Event.span, none⟩ :=
      ih (fun e' he' => hfit e' (List.mem_cons_of_mem e he'))
        (fun e' he' => htext e' (List.mem_cons_of_mem e he')) hapart.2 hcs hnext
    cases e with
    | directive d =>
      have hrest : Span.scanFrom text ([] ++ sourceChars es) = _ :=
        hmore List.not_mem_nil fun hne => absurd rfl hne
      rw [List.nil_append] at hrest
      rw [hcons, Span.scanFrom_directive hbefore he, hrest]
      simp [Span.Scan.prepend, Span.literals, Event.span]
    | literal data =>
      obtain rfl : before = [] := by
        refine Decidable.byContradiction fun hne => ?_
        cases hfirst hne _ rfl
      rw [hcons, List.nil_append, Event.chars,
        hmore (not_mem_of_quiet he.2).2.2.1 fun _ => hapart.1 rfl]
      simp [Span.literals, he.1, Event.span]
    | start | stop | comment => cases htext _ List.mem_cons_self

/-- The source of texts and directives is scanned into their spans. -/
theorem scan_sourceChars (hfit : ∀ e ∈ es, e.Fit) (htext : ∀ e ∈ es, e.isText = true)
    (hapart : Apart Event.isLiteral es) :
    Span.scan (String.ofList (sourceChars es)) = ⟨es.map Event.span, none⟩ := by
  rw [Span.scan_eq, String.toList_ofList]
  exact scanFrom_sourceChars hfit htext hapart List.not_mem_nil (fun hne => absurd rfl hne) _

end

/-! ## Runs of a builder -/

/-- Steps that run alike from every builder are the same. -/
theorem Build.ext {α : Type} {x y : Build α} (h : ∀ b : Builder, b.run x = b.run y) : x = y :=
  funext h

section

variable {scene : Scene} {es : List Event}

theorem forM_span (htext : ∀ e ∈ es, e.isText = true) :
    (es.map Event.span).forM (Build.span scene) = es.forM (Event.take scene) := by
  induction es with
  | nil => rfl
  | cons e es ih =>
    rw [List.map_cons, Build.forM_cons, Build.forM_cons,
      ih fun e' he' => htext e' (List.mem_cons_of_mem e he'),
      Event.take_of_isText (htext e List.mem_cons_self)]

/-- A run is built as its events. -/
theorem forM_runEvents (hfit : ∀ e ∈ es, e.Fit) (htext : ∀ e ∈ es, e.isText = true)
    (hapart : Apart Event.isLiteral es) :
    (runEvents (sourceChars es)).forM (Build.event scene) = es.forM (Event.take scene) := by
  have hbuild : Build.text scene (String.ofList (sourceChars es)) = es.forM (Event.take scene) := by
    apply Build.ext
    intro b
    rw [Builder.run_text (scan_sourceChars hfit htext hapart), forM_span htext]
  by_cases hempty : sourceChars es = []
  · cases es with
    | nil => rfl
    | cons e es =>
      rw [sourceChars, List.flatMap_cons, List.append_eq_nil_iff] at hempty
      exact absurd hempty.1 (hfit e List.mem_cons_self).chars_ne_nil
  · have hevents : runEvents (sourceChars es) = [.text (String.ofList (sourceChars es))] := by
      simp [runEvents, hempty]
    rw [hevents, ← hbuild]
    exact bind_pure_unit

/-- The values of a start tag are reported as they are. -/
theorem attributeValues_report {as : List (String × Value)} (h : ∀ a ∈ as, Event.IsAssigned a) :
    (as.map fun a => (a.1, some (String.ofList (Event.valueChars a.2)))).map
      (fun a => (a.1, Markup.attributeValue a.2)) = as := by
  rw [List.map_map]
  refine List.map_congr_left (g := id) ?_ |>.trans (List.map_id as)
  rintro ⟨name, value⟩ ha
  obtain ⟨-, s, rfl, -⟩ := h _ ha
  simp [Markup.attributeValue, Event.valueChars]

/-- What the reader reports of a source is built like the events that were written. -/
theorem forM_report {run : List Event} (hrun : ∀ e ∈ run, e.Fit) (htext : ∀ e ∈ run, e.isText = true)
    (hes : ∀ e ∈ es, e.Fit) (hapart : Apart Event.isLiteral (run ++ es)) :
    (report (sourceChars run) es).forM (Build.event scene) =
      (run ++ es).forM (Event.take scene) := by
  induction es generalizing run with
  | nil =>
    rw [List.append_nil] at hapart ⊢
    exact forM_runEvents hrun htext hapart
  | cons e es ih =>
    have he := hes e List.mem_cons_self
    have hes' : ∀ e' ∈ es, e'.Fit := fun e' he' => hes e' (List.mem_cons_of_mem e he')
    have hword (hword : e.isText = true) :
        (report (sourceChars run ++ e.chars) es).forM (Build.event scene) =
          (run ++ e :: es).forM (Event.take scene) := by
      have hgrown : (report (sourceChars (run ++ [e])) es).forM (Build.event scene) =
          (run ++ [e] ++ es).forM (Event.take scene) := by
        refine ih ?_ ?_ hes' (by simpa using hapart)
        · simpa [or_imp, forall_and] using ⟨hrun, he⟩
        · simpa [or_imp, forall_and] using ⟨htext, hword⟩
      simpa [sourceChars] using hgrown
    have htag (event : Markup.Event) (hevent : Build.event scene event = e.take scene) :
        (runEvents (sourceChars run) ++ event :: report [] es).forM (Build.event scene) =
          (run ++ e :: es).forM (Event.take scene) := by
      have hmore : (report (sourceChars []) es).forM (Build.event scene) = ([] ++ es).forM _ :=
        ih (by simp) (by simp) hes' hapart.right.2
      rw [sourceChars, List.flatMap_nil, List.nil_append] at hmore
      calc (runEvents (sourceChars run) ++ event :: report [] es).forM (Build.event scene)
        _ = (runEvents (sourceChars run)).forM (Build.event scene) >>= fun _ =>
              Build.event scene event >>= fun _ => (report [] es).forM (Build.event scene) := by
          rw [Build.forM_append, Build.forM_cons]
        _ = run.forM (Event.take scene) >>= fun _ =>
              e.take scene >>= fun _ => es.forM (Event.take scene) := by
          rw [forM_runEvents hrun htext hapart.left, hevent, hmore]
        _ = (run ++ e :: es).forM (Event.take scene) := by
          rw [Build.forM_append, Build.forM_cons]
    cases e with
    | literal data => exact hword rfl
    | directive d => exact hword rfl
    | comment data => cases he
    | stop tag => exact htag _ rfl
    | start tag as selfClosing =>
      refine htag _ ?_
      rw [Build.event, attributeValues_report he.tidy.sound.2.2.2, Event.take]

end

end Stencil
