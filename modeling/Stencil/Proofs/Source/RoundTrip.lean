import Stencil.Proofs.Source.Running

/-!
# Round trip of written trees

A tree that can be written is built again from its source. The events of each node are read back as
they were written, and taking them adds the node to the innermost frame, whatever is open. `Rebuilt`
has both, and is carried from the parts of a node to the node.
-/

namespace Stencil

open Builder Nesting

/-! ## Taking events -/

section

variable {scene : Scene} {es fs : List Event} {s s' s'' : Stack}

/-- A builder without observers takes the events and has another stack then. -/
def Takes (scene : Scene) (es : List Event) (s s' : Stack) : Prop :=
  ∀ b : Builder, b.observers = .empty → b.stack = s →
    b.run (es.forM (Event.take scene)) = (.ok (), b.withStack s')

theorem Takes.nil (scene : Scene) (s : Stack) : Takes scene [] s s := by
  intro b _ hs
  rw [run_forM_nil, ← hs, withStack_stack]

/-- Events taken one after the other lead from stack to stack. -/
theorem Takes.append (h : Takes scene es s s') (h' : Takes scene fs s' s'') :
    Takes scene (es ++ fs) s s'' := by
  intro b hb hs
  rw [Build.forM_append, run_bind_of_ok (h b hb hs), h' (b.withStack s') hb rfl,
    withStack_withStack]

theorem Takes.cons {e : Event} (h : Takes scene [e] s s') (h' : Takes scene es s' s'') :
    Takes scene (e :: es) s s'' :=
  h.append h'

theorem takes_of_run {e : Event}
    (h : ∀ b : Builder, b.observers = .empty → b.stack = s →
      b.run (e.take scene) = (.ok (), b.withStack s')) : Takes scene [e] s s' := by
  intro b hb hs
  rw [run_forM_cons, run_bind_of_ok (h b hb hs), run_forM_nil]

/-- Every step the grammar of blocks allows is taken. -/
theorem Nesting.Step.takes {e : Event} (h : Step e s s') (hscene : scene.view? = none)
    (hplain : e.Plain) : Takes scene [e] s s' := by
  apply takes_of_run
  intro b hb hs
  exact run_take hscene hb hplain (hs ▸ h)

end

/-! ## Attributes -/

section

variable {scene : Scene}

theorem braced_ne_empty (s : String) : "\x7b\x7b" ++ s ++ "\x7d\x7d" ≠ "" := by
  intro hempty
  simpa using congrArg String.toList hempty

/-- A legible directive in braces is scanned as that directive. -/
theorem scan_directive {d : Directive} (hd : d.Legible) :
    Span.scan ("\x7b\x7b" ++ d.source ++ "\x7d\x7d") = ⟨[.directive d], none⟩ := by
  have hsource : "\x7b\x7b" ++ d.source ++ "\x7d\x7d" =
      String.ofList (sourceChars [.directive d]) := by
    rw [← String.toList_inj]
    simp [sourceChars, Event.chars]
  rw [hsource]
  exact scan_sourceChars (List.forall_mem_singleton.2 hd) (List.forall_mem_singleton.2 rfl)
    ⟨by simp, trivial⟩

/-- The attribute that a directive alone in a value makes. -/
def Directive.asAttribute (d : Directive) : Attribute :=
  match d.literal? with
  | some v => .literal v
  | none => .dynamic (.term (.marked d))

theorem run_attributeOf_directive {d : Directive} (hd : d.Legible) (hrole : d.role = .shows [])
    (name : String) (b : Builder) :
    b.run (Build.attributeOf scene name (.text ("\x7b\x7b" ++ d.source ++ "\x7d\x7d"))) =
      (.ok d.asAttribute, b) := by
  have htext (b : Builder) : b.run (Build.text scene ("\x7b\x7b" ++ d.source ++ "\x7d\x7d")) =
      (.ok (), b.withStack (b.stack.push (.value (.marked d)))) := by
    have hspan : b.run (Build.span scene (.directive d)) =
        (.ok (), b.withStack (b.stack.push (.value (.marked d)))) := by
      simp [Build.span, Build.directive, hrole, Role.isView, Role.words]
    rw [run_text (scan_directive hd), run_forM_cons, run_bind_of_ok hspan, run_forM_nil]
  refine run_attributeOf (braced_ne_empty d.source) htext ?_ b
  have hliteral : (Term.marked d).expr?.bind Expr.literal? = d.literal? := rfl
  simp only [Build.ofContent, hliteral, Directive.asAttribute]
  cases d.literal? <;> rfl

theorem isQuoted_directive {d : Directive} (hneat : Neat d.source.toList) {name : String}
    (hname : IsAttributeName name) :
    Event.IsQuoted (name, rawValue (.dynamic (.term (.marked d)))) := by
  refine ⟨hname, _, rfl, ?_⟩
  simpa using hneat.braced

variable {a : Attribute} (h : a.Serial Token.Short fun e => e.hasKeyword = false)

include h

/-- An attribute that was written and read back is the respelled one. -/
theorem run_attributeOf_respelled (name : String) (b : Builder) :
    b.run (Build.attributeOf scene name (rawValue a.respelled)) = (.ok a.respelled, b) := by
  cases h with
  | @literal s hne hs =>
    have hquiet := not_mem_of_quiet fun c hc => (hs c hc).1
    have hbrace : Event.hasBrace (.text s) = false := by
      simp [Event.hasBrace, hquiet.2.2]
    exact run_attributeOf_plain name hbrace b
  | @dynamic d e hd he hword =>
    have hliteral : d.respelled.literal? = none := by
      simpa [Directive.literal?, Directive.respelled, hd.2.1, Expr.isLiteral] using he
    have hread : b.run (Build.attributeOf scene name
        (rawValue (.dynamic (.term (.marked d.respelled))))) = (.ok d.respelled.asAttribute, b) :=
      run_attributeOf_directive (Directive.legible_shows hd hword) hd.1 name b
    rwa [Directive.asAttribute, hliteral] at hread

/-- The value of a written attribute stands in double quotes. -/
theorem isQuoted_rawValue {name : String} (hname : IsAttributeName name) :
    Event.IsQuoted (name, rawValue a.respelled) := by
  cases h with
  | @literal s hne hs =>
    have hquiet : ∀ c ∈ s.toList, isQuiet c = true := fun c hc => (hs c hc).1
    refine ⟨hname, s, rfl, fun hmem => (hs _ hmem).2 rfl, mild_of_quiet hquiet, ?_⟩
    exact laid_of_not_mem (not_mem_of_quiet hquiet).2.2.1
  | @dynamic d e hd he hword =>
    exact isQuoted_directive (Directive.legible_shows hd hword).neat hname

end

/-! ## Events that are read back -/

section

variable {es fs : List Event}

/-- Events that are read back from their source: no two literals stand side by side. -/
structure Readable (es : List Event) : Prop where
  fit : ∀ e ∈ es, e.Fit
  apart : Apart Event.isLiteral es

/-- Events that neither begin nor end with a literal. -/
def Fenced (es : List Event) : Prop :=
  (∃ e ∈ es.head?, e.isLiteral = false) ∧ ∃ e ∈ es.getLast?, e.isLiteral = false

theorem Readable.nil : Readable [] :=
  ⟨List.forall_mem_nil _, trivial⟩

/-- Readable sources can be joined where no two texts meet. -/
theorem Readable.append (hes : Readable es) (hfs : Readable fs)
    (h : (∀ e ∈ es.getLast?, e.isLiteral = false) ∨ ∀ e ∈ fs.head?, e.isLiteral = false) :
    Readable (es ++ fs) where
  fit := List.forall_mem_append.2 ⟨hes.fit, hfs.fit⟩
  apart := hes.apart.append hfs.apart h

theorem readable_singleton {e : Event} (h : e.Fit) : Readable [e] where
  fit := List.forall_mem_singleton.2 h
  apart := ⟨by simp, trivial⟩

theorem Readable.cons {e : Event} (hes : Readable es) (he : e.Fit) (hmark : e.isLiteral = false) :
    Readable (e :: es) :=
  (readable_singleton he).append hes (.inl (by simpa using hmark))

/-- Events between two that are no literals. -/
theorem Readable.enclosed {e e' : Event} (hes : Readable es) (he : e.Fit) (he' : e'.Fit)
    (hmark : e.isLiteral = false) (hmark' : e'.isLiteral = false) :
    Readable (e :: (es ++ [e'])) := by
  refine Readable.cons ?_ he hmark
  exact hes.append (readable_singleton he') (.inr (by simpa using hmark'))

theorem fenced_enclosed {e e' : Event} (hmark : e.isLiteral = false) (hmark' : e'.isLiteral = false)
    (es : List Event) : Fenced (e :: (es ++ [e'])) := by
  refine ⟨⟨e, rfl, hmark⟩, e', ?_, hmark'⟩
  rw [← List.cons_append, List.getLast?_concat]
  rfl

end

/-! ## Nodes that are built back -/

section

variable {scene : Scene}

/-- A node whose events are read back and build the node. -/
structure Node.Rebuilt (scene : Scene) (n : Node) : Prop where
  readable : Readable (flatten n)
  fenced : n.isText = false → Fenced (flatten n)
  takes : ∀ s : Stack, Takes scene (flatten n) s (s.push n)

/-- Nodes that are built back side by side. -/
structure RebuiltAll (scene : Scene) (ns : List Node) : Prop where
  rebuilt : ∀ n ∈ ns, n.Rebuilt scene
  apart : Apart Node.isText ns

variable {ns : List Node}

theorem RebuiltAll.tail {n : Node} (h : RebuiltAll scene (n :: ns)) : RebuiltAll scene ns where
  rebuilt := fun m hm => h.rebuilt m (List.mem_cons_of_mem n hm)
  apart := h.apart.2

/-- The events of rebuilt nodes add exactly these nodes. -/
theorem RebuiltAll.takes (h : RebuiltAll scene ns) (s : Stack) :
    Takes scene (flattenAll ns) s (addAll ns s) := by
  induction ns generalizing s with
  | nil =>
    rw [addAll_nil]
    exact .nil scene s
  | cons n ns ih =>
    rw [addAll_cons]
    exact ((h.rebuilt n List.mem_cons_self).takes s).append (ih h.tail _)

/-- What is inside of a block or an element is added to its frame. -/
theorem RebuiltAll.takes_opened (h : RebuiltAll scene ns) (o : Opener) (s : Stack) :
    Takes scene (flattenAll ns) (s.opened o) ⟨⟨o, ns.reverse⟩ :: s.frames, s.root⟩ := by
  have hcontent := h.takes (s.opened o)
  rwa [addAll_opened] at hcontent

/-- The source of rebuilt nodes is readable. -/
theorem RebuiltAll.readable (h : RebuiltAll scene ns) : Readable (flattenAll ns) := by
  induction ns with
  | nil => exact .nil
  | cons n ns ih =>
    have hn := h.rebuilt n List.mem_cons_self
    refine hn.readable.append (ih h.tail) ?_
    cases htext : n.isText with
    | false =>
      obtain ⟨e, he, hmark⟩ := (hn.fenced htext).2
      refine .inl fun e' he' => ?_
      rwa [Option.mem_unique he' he]
    | true =>
      refine .inr fun e' he' => ?_
      cases ns with
      | nil => cases he'
      | cons m ms =>
        have hm := h.tail.rebuilt m List.mem_cons_self
        obtain ⟨e, he, hmark⟩ := (hm.fenced (h.apart.1 htext m rfl)).1
        rw [flattenAll, List.head?_append, Option.mem_def.1 he, Option.some_or] at he'
        rwa [← Option.some.inj he']

end

/-! ## One case for each kind of node -/

section

variable {scene : Scene} (hscene : scene.view? = none)

include hscene

theorem rebuilt_text {data : String} (hne : data ≠ "")
    (hquiet : ∀ c ∈ data.toList, isQuiet c = true) : (Node.text data).Rebuilt scene where
  readable := readable_singleton ⟨hne, hquiet⟩
  fenced := fun h => absurd h (by simp [Node.isText])
  takes := fun s => (Step.literal data s).takes hscene trivial

theorem rebuilt_value {d : Directive} (hd : d.Legible) (hrole : d.role = .shows []) :
    (Node.value (.marked d)).Rebuilt scene where
  readable := readable_singleton hd
  fenced := fun _ => ⟨⟨_, rfl, rfl⟩, _, rfl, rfl⟩
  takes := by
    intro s
    have hplain : (Event.directive d).Plain := by
      simp [Event.Plain, hrole, Role.isView, Role.words]
    exact (Step.value hrole s).takes hscene hplain

/-- An element is read back if its children are. -/
theorem rebuilt_element {tag : String} {as : Attributes} {ns : List Node} (htag : IsTag tag)
    (hnodup : (as.map fun a => Text.lower a.1.toList).Nodup)
    (has : ∀ a ∈ as, Event.IsQuoted (a.1, rawValue a.2))
    (hread : ∀ a ∈ as, ∀ b : Builder,
      b.run (Build.attributeOf scene a.1 (rawValue a.2)) = (.ok a.2, b))
    (hns : RebuiltAll scene ns) : (Node.element tag as (some ns) false none).Rebuilt scene := by
  have hnames : (Entries.keys as).Nodup := by
    have hmap : as.map (fun a => Text.lower a.1.toList) =
        (Entries.keys as).map fun k => Text.lower k.toList := by
      simp [Entries.keys]
    rw [hmap] at hnodup
    exact List.Pairwise.of_map _ (fun k k' hne heq => hne (heq ▸ rfl)) hnodup
  have habsent (k : String) (hk : ¬ IsAttributeName k) : k ∉ Entries.keys as := by
    intro hmem
    obtain ⟨a, ha, rfl⟩ := List.mem_map.1 hmem
    exact hk (has a ha).1
  have hstart : (Event.start tag (rawAttributes as) false).Fit := by
    refine ⟨rfl, htag, by simpa [rawAttributes, Function.comp_def] using hnodup, ?_⟩
    intro a ha
    obtain ⟨a', ha', rfl⟩ := List.mem_map.1 ha
    exact has a' ha'
  have hopen (s : Stack) : Takes scene [.start tag (rawAttributes as) false] s
      (s.opened (.element tag as none)) := by
    apply takes_of_run
    intro b hb hs
    have hrun := run_startElement hscene hb htag.2.2.2.2 hread hnames
      (habsent "as" fun h => h.2.2.1 rfl) (habsent "on" fun h => h.2.2.2 rfl) false
    rw [if_neg (by simp [htag.2.1]), hs] at hrun
    exact hrun
  refine ⟨?_, fun _ => fenced_enclosed rfl rfl _, fun s => ?_⟩
  · exact hns.readable.enclosed hstart htag rfl rfl
  · have hstop := Step.stop tag as none ns.reverse s.frames s.root
    rw [List.reverse_reverse] at hstop
    exact (hopen s).cons ((hns.takes_opened _ s).append (hstop.takes hscene htag.2.2.2.2))

/-- A block is built back if taking what is inside leaves a frame that becomes the block. -/
theorem rebuilt_of_opens {d : Directive} {w : BlockWord} {a : Option String} {n : Node}
    {es : List Event} (hd : d.Legible) (hrole : d.role = .opens w a)
    (hn : flatten n = .directive d :: (es ++ [closing d])) (hes : Readable es)
    (htakes : ∀ s : Stack, ∃ o ns, o.close ns = some n ∧ o.opening? = some d ∧
      Takes scene es (s.opened (Build.openerOf w d)) ⟨⟨o, ns.reverse⟩ :: s.frames, s.root⟩) :
    n.Rebuilt scene := by
  have hclosing : closing d = .directive ⟨"/" ++ w.text, .closes w.text, none⟩ := by
    simp [closing, hrole, Role.blockWord?]
  have hplain : (Event.directive d).Plain := by
    simp [Event.Plain, hrole, Role.isView, Role.words]
  rw [hclosing] at hn
  refine ⟨?_, fun _ => ?_, fun s => ?_⟩
  · rw [hn]
    exact hes.enclosed hd (Directive.legible_closing w) rfl rfl
  · rw [hn]
    exact fenced_enclosed rfl rfl _
  · obtain ⟨o, ns, hclose, hopening, hinside⟩ := htakes s
    have hcloses : Closes w ⟨"/" ++ w.text, .closes w.text, none⟩ := .inr rfl
    have hstop := Step.close_of_closes hrole hcloses hclose hopening s
    rw [hn]
    exact ((Step.opens hrole s).takes hscene hplain).cons
      (hinside.append (hstop.takes hscene rfl))

/-- A block is read back if its content is. -/
theorem rebuilt_block {d : Directive} {w : BlockWord} {a : Option String} {ns : List Node}
    (hd : d.Legible) (hrole : d.role = .opens w a) (hw : Build.openerOf w d = .block d)
    (hns : RebuiltAll scene ns) : (Node.block d ns).Rebuilt scene := by
  refine rebuilt_of_opens hscene hd hrole rfl hns.readable fun s => ?_
  exact ⟨.block d, ns, rfl, rfl, hw ▸ hns.takes_opened _ s⟩

theorem rebuilt_each {d : Directive} {a : Option String} {ns : List Node} (hd : d.Legible)
    (hrole : d.role = .opens .each a) (hns : RebuiltAll scene ns) :
    (Node.each d ns none).Rebuilt scene := by
  refine rebuilt_of_opens hscene hd hrole rfl hns.readable fun s => ?_
  exact ⟨.each d, ns, rfl, rfl, hns.takes_opened _ s⟩

/-- A loop with an else branch is read back if both contents are. -/
theorem rebuilt_eachElse {d : Directive} {a : Option String} {ns ms : List Node} (hd : d.Legible)
    (hrole : d.role = .opens .each a) (hns : RebuiltAll scene ns) (hms : RebuiltAll scene ms) :
    (Node.each d ns (some ms)).Rebuilt scene := by
  have hflatten : flatten (.each d ns (some ms)) =
      .directive d :: ((flattenAll ns ++ otherwise :: flattenAll ms) ++ [closing d]) := by
    rw [flatten, List.append_assoc, List.cons_append]
  have hmore : Readable (otherwise :: flattenAll ms) :=
    hms.readable.cons Directive.legible_else rfl
  refine rebuilt_of_opens hscene hd hrole hflatten ?_ fun s => ?_
  · exact hns.readable.append hmore (.inr (by simp [otherwise, Event.isLiteral]))
  · have hbranch : Step otherwise ⟨⟨.each d, ns.reverse⟩ :: s.frames, s.root⟩ _ :=
      .eachElse rfl d ns.reverse s.frames s.root
    rw [List.reverse_reverse] at hbranch
    refine ⟨.eachElse d ns, ms, rfl, rfl, ?_⟩
    exact (hns.takes_opened _ s).append
      ((hbranch.takes hscene rfl).cons (hms.takes_opened (.eachElse d ns) s))

end

/-! ## Branches -/

section

variable {scene : Scene} {bs : List (Directive × List Node)}

/-- Further branches of a condition are read back. -/
theorem readable_flattenBranches (hbs : ∀ b ∈ bs, b.1.Legible ∧ RebuiltAll scene b.2) :
    Readable (flattenBranches bs) ∧ ∀ e ∈ (flattenBranches bs).head?, e.isLiteral = false := by
  induction bs with
  | nil => exact ⟨.nil, by simp [flattenBranches]⟩
  | cons b bs ih =>
    obtain ⟨d, ns⟩ := b
    obtain ⟨hd, hns⟩ := hbs _ List.mem_cons_self
    obtain ⟨hreadable, hhead⟩ := ih fun b hb => hbs b (List.mem_cons_of_mem _ hb)
    rw [flattenBranches]
    exact ⟨(hns.readable.append hreadable (.inr hhead)).cons hd rfl, by simp [Event.isLiteral]⟩

/-- The branches of a condition are taken one after the other, and end in the frame of the last. -/
theorem takes_flattenBranches (hscene : scene.view? = none) {ns : List Node}
    (hns : RebuiltAll scene ns) (hbs : ∀ b ∈ bs, Continues b.1 ∧ RebuiltAll scene b.2)
    (earlier : List (Directive × List Node)) (d : Directive) (s : Stack) :
    ∃ earlier' last ms, earlier' ++ [(last, ms)] = earlier ++ (d, ns) :: bs ∧
      Takes scene (flattenAll ns ++ flattenBranches bs) (s.opened (.conditional earlier d))
        ⟨⟨.conditional earlier' last, ms.reverse⟩ :: s.frames, s.root⟩ := by
  induction bs generalizing earlier d ns with
  | nil =>
    refine ⟨earlier, d, ns, rfl, ?_⟩
    rw [flattenBranches, List.append_nil]
    exact hns.takes_opened _ s
  | cons b bs ih =>
    obtain ⟨d', ns'⟩ := b
    obtain ⟨hd', hns'⟩ : Continues d' ∧ RebuiltAll scene ns' := hbs _ List.mem_cons_self
    have hbranch := Step.branch hd' earlier d ns.reverse s.frames s.root
    rw [List.reverse_reverse] at hbranch
    have hplain : (Event.directive d').Plain := by
      obtain hrole | ⟨a, hrole⟩ := hd' <;> simp [Event.Plain, hrole, Role.isView, Role.words]
    obtain ⟨earlier', last, ms, hall, hmore⟩ :=
      ih hns' (fun b hb => hbs b (List.mem_cons_of_mem _ hb)) (earlier ++ [(d, ns)]) d'
    refine ⟨earlier', last, ms, by simpa using hall, ?_⟩
    exact (hns.takes_opened _ s).append ((hbranch.takes hscene hplain).cons hmore)

/-- A conditional is read back if the content of every branch is. -/
theorem rebuilt_conditional (hscene : scene.view? = none) {d : Directive} {w : BlockWord}
    {a : Option String} {ns : List Node} (hd : d.Legible) (hrole : d.role = .opens w a)
    (hw : Build.openerOf w d = .conditional [] d) (hns : RebuiltAll scene ns)
    (hbs : ∀ b ∈ bs, b.1.Legible ∧ Continues b.1 ∧ RebuiltAll scene b.2) :
    (Node.conditional ((d, ns) :: bs)).Rebuilt scene := by
  have hflatten : flatten (.conditional ((d, ns) :: bs)) =
      .directive d :: ((flattenAll ns ++ flattenBranches bs) ++ [closing d]) := by
    simp [flatten, flattenBranches, Node.opening?]
  obtain ⟨hreadable, hhead⟩ :=
    readable_flattenBranches fun b hb => ⟨(hbs b hb).1, (hbs b hb).2.2⟩
  refine rebuilt_of_opens hscene hd hrole hflatten ?_ fun s => ?_
  · exact hns.readable.append hreadable (.inr hhead)
  · obtain ⟨earlier, last, ms, hall, htakes⟩ :=
      takes_flattenBranches hscene hns (fun b hb => (hbs b hb).2) [] d s
    refine ⟨.conditional earlier last, ms, by simp [Opener.close, hall], ?_, hw ▸ htakes⟩
    cases earlier with
    | nil => simp_all [Opener.opening?]
    | cons b earlier => simp_all [Opener.opening?]

end

/-! ## Respelled trees -/

namespace Node

theorem respelledAll_eq_map (ns : List Node) : respelledAll ns = ns.map respelled := by
  induction ns with
  | nil => rfl
  | cons n ns ih => rw [respelledAll, List.map_cons, ih]

theorem respelledBranches_eq_map (bs : List (Directive × List Node)) :
    respelledBranches bs = bs.map fun b => (b.1.respelled, respelledAll b.2) := by
  induction bs with
  | nil => rfl
  | cons b bs ih => rw [respelledBranches, List.map_cons, ih]

theorem isText_respelled (n : Node) : n.respelled.isText = n.isText := by
  cases n <;> rfl

end Node

section

variable {scene : Scene} {ns : List Node}

theorem rebuiltAll_respelledAll (hns : ∀ n ∈ ns, n.respelled.Rebuilt scene)
    (hapart : Apart Node.isText ns) : RebuiltAll scene (Node.respelledAll ns) := by
  rw [Node.respelledAll_eq_map]
  refine ⟨List.forall_mem_map.2 hns, ?_⟩
  induction ns with
  | nil => trivial
  | cons n ns ih =>
    refine ⟨fun htext m hm => ?_, ih (fun m hm => hns m (List.mem_cons_of_mem n hm)) hapart.2⟩
    rw [Node.isText_respelled] at htext
    rw [List.head?_map] at hm
    obtain ⟨m', hm', rfl⟩ := Option.map_eq_some_iff.1 hm
    rw [Node.isText_respelled]
    exact hapart.1 htext m' hm'

/-- A node that can be written is built back. The induction goes from what is inside of a node to
the node. -/
theorem Node.Serial.rebuilt {n : Node} (hscene : scene.view? = none)
    (h : n.Serial Token.Short fun e => e.hasKeyword = false) : n.respelled.Rebuilt scene := by
  induction h with
  | text hne hquiet => exact rebuilt_text hscene hne hquiet
  | value hd hword => exact rebuilt_value hscene (Directive.legible_shows hd hword) hd.1
  | @element tag as ns htag hnodup hnames has hapart _ ih =>
    have hquoted : ∀ a ∈ as.map fun a => (a.1, a.2.respelled),
        Event.IsQuoted (a.1, rawValue a.2) :=
      List.forall_mem_map.2 fun a ha => isQuoted_rawValue (has a ha) (hnames a ha)
    have hread : ∀ a ∈ as.map fun a => (a.1, a.2.respelled), ∀ b : Builder,
        b.run (Build.attributeOf scene a.1 (rawValue a.2)) = (.ok a.2, b) :=
      List.forall_mem_map.2 fun a ha => run_attributeOf_respelled (has a ha) a.1
    refine rebuilt_element hscene htag ?_ hquoted hread (rebuiltAll_respelledAll ih hapart)
    simpa [Function.comp_def] using hnodup
  | @conditional d ns bs hd hapart _ hbs haparts _ ih ihs =>
    have hif : ("if", Role.opens .condition) ∈ Directive.headWords := by simp [Directive.headWords]
    have hunless : ("unless", Role.opens .negation) ∈ Directive.headWords := by
      simp [Directive.headWords]
    have helseIf : ("else if", Role.elseIf) ∈ Directive.headWords := by simp [Directive.headWords]
    have hall := rebuiltAll_respelledAll ih hapart
    have hbranches : ∀ b ∈ Node.respelledBranches bs,
        b.1.Legible ∧ Continues b.1 ∧ RebuiltAll scene b.2 := by
      rw [Node.respelledBranches_eq_map]
      refine List.forall_mem_map.2 fun b hb => ?_
      have hcontent := rebuiltAll_respelledAll (ihs b hb) (haparts b hb)
      obtain hd' | hd' := hbs b hb
      · exact ⟨Directive.legible_heads helseIf (by simp) hd', .inr ⟨none, hd'.role_eq⟩, hcontent⟩
      · exact ⟨Directive.legible_bare hd' (.inl rfl), .inl hd'.1, hcontent⟩
    obtain hd | hd := hd
    · have hlegible := Directive.legible_heads hif (by simp) hd
      exact rebuilt_conditional hscene hlegible hd.role_eq rfl hall hbranches
    · have hlegible := Directive.legible_heads hunless (by simp) hd
      exact rebuilt_conditional hscene hlegible hd.role_eq rfl hall hbranches
  | @each d a ns otherwise hd ha hapart _ haparts _ ih ihs =>
    have heach : ("each", Role.opens .each) ∈ Directive.headWords := by simp [Directive.headWords]
    have hlegible := Directive.legible_heads heach ha hd
    have hall := rebuiltAll_respelledAll ih hapart
    cases otherwise with
    | none => exact rebuilt_each hscene hlegible hd.role_eq hall
    | some ms =>
      exact rebuilt_eachElse hscene hlegible hd.role_eq hall
        (rebuiltAll_respelledAll (ihs ms rfl) (haparts ms rfl))
  | @block d ns hd hapart _ ih =>
    have hwith : ("with", Role.opens .scope) ∈ Directive.headWords := by simp [Directive.headWords]
    have hall := rebuiltAll_respelledAll ih hapart
    obtain hd | hd | hd := hd
    · have hlegible := Directive.legible_heads hwith (by simp) hd
      exact rebuilt_block hscene hlegible hd.role_eq rfl hall
    · exact rebuilt_block hscene (Directive.legible_bare hd (.inr (.inl rfl))) hd.1 rfl hall
    · exact rebuilt_block hscene (Directive.legible_bare hd (.inr (.inr rfl))) hd.1 rfl hall

end

/-! ## Whole templates -/

/-- A builder of a source takes what the reader reports of it, after the notice at the start. -/
theorem run_markup_report (scene : Scene) {es : List Event} (hes : ∀ e ∈ es, e.Sound) (b : Builder) :
    ∃ b' : Builder, b.run (Build.markup scene (String.ofList (sourceChars es))) =
        b'.run ((report [] es).forM (Build.event scene) >>= fun _ => Build.finish scene) ∧
      b'.stack = b.stack ∧ b'.observers = b.observers := by
  have hevents : Build.events scene (Markup.read (String.ofList (sourceChars es))) =
      (report [] es).forM (Build.event scene) := by
    rw [read_sourceChars hes, Build.events]
    exact bind_pure_unit
  have hbegin := run_notice b .debug "Parsing template"
    [("template", .text scene.name), ("mode", .text "html")]
  rw [Build.markup, Build.begin, hevents]
  exact ⟨_, run_bind_of_ok hbegin _, rfl, rfl⟩

/-- A source is built like the events that it was written from. -/
theorem run_markup_sourceChars (scene : Scene) {es : List Event} (hes : Readable es) (b : Builder) :
    ∃ b' : Builder,
      b.run (Build.markup scene (String.ofList (sourceChars es))) = b'.run (build scene es) ∧
        b'.stack = b.stack ∧ b'.observers = b.observers := by
  have hreport : (report [] es).forM (Build.event scene) = es.forM (Event.take scene) :=
    forM_report (List.forall_mem_nil _) (List.forall_mem_nil _) hes.fit hes.apart
  obtain ⟨b', hrun, hb'⟩ := run_markup_report scene (fun e he => (hes.fit e he).tidy.sound) b
  rw [hreport] at hrun
  exact ⟨b', hrun, hb'⟩

/-- A tree is built again from its source. Only the sources of its directives are new: each is what
was written between the braces. -/
theorem run_markup_serialise (registry : Registry) (strict : Bool) {ns : List Node}
    (hns : ∀ n ∈ ns, n.Serial Token.Short fun e => e.hasKeyword = false)
    (hapart : Apart Node.isText ns) :
    ((Builder.start .empty).run (Build.markup ⟨none, registry, strict, .passive⟩ (serialise ns))).1 =
      .ok ⟨Node.respelledAll ns⟩ := by
  have hall : RebuiltAll ⟨none, registry, strict, .passive⟩ (Node.respelledAll ns) :=
    rebuiltAll_respelledAll (fun n hn => (hns n hn).rebuilt rfl) hapart
  obtain ⟨b, hrun, hstack, hobservers⟩ :=
    run_markup_sourceChars ⟨none, registry, strict, .passive⟩ hall.readable (Builder.start .empty)
  let b' := b.withStack (addAll (Node.respelledAll ns) .empty)
  have hroot : b'.stack = ⟨[], (Node.respelledAll ns).reverse⟩ := by
    simp [b', addAll, Stack.empty, Stack.setTop, Stack.top]
  calc ((Builder.start .empty).run (Build.markup ⟨none, registry, strict, .passive⟩ (serialise ns))).1
    _ = (b.run (build ⟨none, registry, strict, .passive⟩ (flattenAll (Node.respelledAll ns)))).1 := by
      rw [serialise, hrun]
    _ = (b'.run (Build.finish ⟨none, registry, strict, .passive⟩)).1 := by
      rw [build, run_bind_of_ok (hall.takes .empty b hobservers hstack)]
    _ = .ok ⟨Node.respelledAll ns⟩ := by
      rw [run_finish_of_nil _ hroot, List.reverse_reverse]

/-- A directive that was written canonically is its own respelling. -/
theorem Directive.respelled_eq_self {d : Directive} (h : d.written = d.source) :
    d.respelled = d := by
  rw [Directive.respelled, h]

/-- A loop with both branches in an element whose attributes are a constant and an expression. -/
theorem run_markup_loop :
    let less : Directive := ⟨"a < b", .shows [], some (.binary .lt (.path ["a"]) (.path ["b"]))⟩
    let loop : Directive := ⟨"each list as #x", .opens .each (some "#x"), some (.path ["list"])⟩
    let name : Directive := ⟨"#x.name", .shows [], some (.aliasPath "#x" ["name"])⟩
    let n : Node := .element "p"
      [("Title", .literal (.text "a > b")), ("data-n", .dynamic (.term (.marked less)))]
      (some [.each loop [.value (.marked name), .text ", "] (some [.text "none"])]) false none
    ((Builder.start .empty).run (Build.markup ⟨none, .empty, true, .passive⟩ (
      "<p Title=\"a > b\" data-n=\"\x7b\x7ba < b\x7d\x7d\">" ++
      "\x7b\x7beach list as #x\x7d\x7d\x7b\x7b#x.name\x7d\x7d, " ++
      "\x7b\x7belse\x7d\x7dnone\x7b\x7b/each\x7d\x7d</p>"))).1 = .ok ⟨[n]⟩ := by
  intro less loop name n
  have hp : IsTag "p" := ⟨⟨'p', [], by decide, by decide, by simp⟩, by decide +kernel, by decide⟩
  have hpath (s : String) (hs : Expr.isIdentifier s = true) (hne : Expr.Grammar.constant? s = none)
      (hthis : s ≠ "this") : (Expr.path [s]).Canonical Token.Short Quotable :=
    .path hs hne hthis (by simp)
  have ha := hpath "a" (by decide +kernel) (by decide +kernel) (by decide)
  have hb := hpath "b" (by decide +kernel) (by decide +kernel) (by decide)
  have hlist := hpath "list" (by decide +kernel) (by decide +kernel) (by decide)
  have hx : (Expr.aliasPath ("#" ++ "x") ["name"]).Canonical Token.Short Quotable :=
    .aliasPath (by decide +kernel) (by decide +kernel)
  have hloop : (Node.each loop [.value (.marked name), .text ", "] (some [.text "none"])).Serial
      Token.Short fun e => e.hasKeyword = false := by
    refine .each ⟨_, ⟨rfl, rfl, hlist⟩, by decide +kernel⟩ ?_ ?_ ?_ ?_ ?_
    · simpa using ⟨"x", by decide, by decide +kernel⟩
    · exact ⟨by simp [Node.isText], by simp, trivial⟩
    · have hvalue : (Node.value (.marked name)).Serial Token.Short fun e => e.hasKeyword = false :=
        .value ⟨rfl, rfl, hx⟩ (by decide +kernel)
      simpa using ⟨hvalue, .text (by decide) (forall_mem_of_all (by decide))⟩
    · simpa using ⟨by simp, trivial⟩
    · simpa using .text (by decide) (forall_mem_of_all (by decide))
  have hserial : n.Serial Token.Short fun e => e.hasKeyword = false := by
    refine .element hp (by decide +kernel) ?_ ?_ ⟨by simp, trivial⟩ (by simpa using hloop)
    · have htitle : IsAttributeName "Title" :=
        ⟨by decide, forall_mem_of_all (by decide +kernel), by decide⟩
      have hdata : IsAttributeName "data-n" :=
        ⟨by decide, forall_mem_of_all (by decide +kernel), by decide⟩
      simpa using ⟨htitle, hdata⟩
    · have htitle : (Attribute.literal (.text "a > b")).Serial Token.Short
          fun e => e.hasKeyword = false := .literal (by decide) (forall_mem_of_all (by decide))
      have hdata : (Attribute.dynamic (.term (.marked less))).Serial Token.Short
          fun e => e.hasKeyword = false :=
        .dynamic ⟨rfl, rfl, .binary (k := 3) rfl ha hb⟩ rfl (by decide +kernel)
      simpa using ⟨htitle, hdata⟩
  have hbuilt := run_markup_serialise .empty true (List.forall_mem_singleton.2 hserial)
    ⟨by simp, trivial⟩
  have hsource : serialise [n] = "<p Title=\"a > b\" data-n=\"\x7b\x7ba < b\x7d\x7d\">" ++
      "\x7b\x7beach list as #x\x7d\x7d\x7b\x7b#x.name\x7d\x7d, " ++
      "\x7b\x7belse\x7d\x7dnone\x7b\x7b/each\x7d\x7d</p>" := by
    decide +kernel
  have hless : less.respelled = less := Directive.respelled_eq_self (by decide +kernel)
  have hloop' : loop.respelled = loop := Directive.respelled_eq_self (by decide +kernel)
  have hname : name.respelled = name := Directive.respelled_eq_self (by decide +kernel)
  have hself : Node.respelledAll [n] = [n] := by
    simp [n, Node.respelledAll, Node.respelled, Node.respelledContent, Attribute.respelled,
      Term.respelled, hless, hloop', hname]
  rw [hsource, hself] at hbuilt
  exact hbuilt

/-! ## Trees that cannot be written -/

section

variable {scene : Scene}

/-- A directive that is refused fails the template. -/
theorem run_markup_refused {d : Directive} (hneat : Neat d.source.toList) (hne : d.source ≠ "")
    {e : Error} (h : Directive.read d.source = .error e) (b : Builder) :
    (b.run (Build.markup scene (String.ofList (sourceChars [.directive d])))).1 = .error e := by
  have hsound : ∀ e ∈ [Event.directive d], e.Sound :=
    List.forall_mem_singleton.2 ⟨hneat.mild, hneat.balanced⟩
  have hreport : report [] [.directive d] = [.text (String.ofList (Event.directive d).chars)] := rfl
  have htext (b : Builder) :
      b.run (Build.text scene (String.ofList (Event.directive d).chars)) = (.error e, b) := by
    rw [Build.text, Span.scan_refused hneat.balanced hne h]
    rfl
  obtain ⟨b', hrun, -⟩ := run_markup_report scene hsound b
  rw [hrun, hreport, run_bind_of_error]
  exact run_bind_of_error (htext b') _

/-- A directive that continues a block fails in the value of an attribute, where nothing comes
before. -/
theorem run_attributeOf_continues {d : Directive} (hd : d.Legible) (hcontinues : Continues d)
    {b : Builder} (hb : b.stack.newest? = none) (name : String) :
    ∃ e b', b.run (Build.attributeOf scene name (rawValue (.dynamic (.term (.marked d))))) =
      (.error e, b') := by
  have hclosed : (b.stack.opened .detached).closed? = some b.stack := by
    simp [Stack.closed?, Stack.opened, Opener.close]
  have hascend : (b.withStack (b.stack.opened .detached)).run
      (Build.ascend (.strayBlockEnd d.source)) = (.ok (), b) := by
    simp only [run_ascend, stack_withStack, hclosed, withStack_withStack, withStack_stack]
  have hcontinue : ∃ e b', (b.withStack (b.stack.opened .detached)).run
      (Build.span scene (.directive d)) = (.error e, b') := by
    change ∃ e b', Builder.run _ (Event.take scene (.directive d)) = (.error e, b')
    rw [take_of_continues hcontinues, Build.continueBlock, run_bind_of_ok hascend,
      run_bind_of_ok (run_stack b), hb]
    exact ⟨_, _, rfl⟩
  obtain ⟨e, b', hcontinue⟩ := hcontinue
  have htext : (b.withStack (b.stack.opened .detached)).run
      (Build.text scene ("\x7b\x7b" ++ d.source ++ "\x7d\x7d")) = (.error e, b') := by
    rw [run_text (scan_directive hd), run_forM_cons, run_bind_of_error hcontinue]
  refine ⟨e, b', ?_⟩
  simp only [rawValue, Build.attributeOf, if_neg (braced_ne_empty d.source)]
  rw [run_bind_of_ok (run_onStack b _), run_bind_of_ok (run_stack _), run_bind_of_error htext]

/-- An attribute of the top element whose value is the word `else` fails the template. -/
theorem run_markup_else (tag : String) (htag : IsTag tag) (name : String)
    (hname : IsAttributeName name) (es : List Event) (hes : Readable es) :
    let value := rawValue (.dynamic (.term (.marked ⟨"else", .otherwise, none⟩)))
    ∃ e, ((Builder.start .empty).run (Build.markup scene (String.ofList
      (sourceChars (.start tag [(name, value)] false :: es))))).1 = .error e := by
  intro value
  have hfit : (Event.start tag [(name, value)] false).Fit := by
    refine ⟨rfl, htag, by simp, List.forall_mem_singleton.2 ?_⟩
    exact isQuoted_directive Directive.legible_else.neat hname
  obtain ⟨b, hrun, hstack, -⟩ :=
    run_markup_sourceChars scene (hes.cons hfit rfl) (Builder.start .empty)
  obtain ⟨e, b', hvalue⟩ := run_attributeOf_continues Directive.legible_else (.inl rfl)
    (congrArg Stack.newest? hstack) name
  have hattributes : b.run (Build.attributesOf scene [(name, value)]) = (.error e, b') := by
    rw [Build.attributesOf, List.foldlM_cons, run_bind_of_error]
    exact run_bind_of_error hvalue _
  have hstart : b.run (Event.take scene (.start tag [(name, value)] false)) = (.error e, b') := by
    rw [Event.take, Build.startElement, run_bind_of_error hattributes]
  refine ⟨e, ?_⟩
  rw [hrun, build, run_bind_of_error]
  rw [run_forM_cons, run_bind_of_error hstart]

end

theorem hasKeyword_nat (n : Nat) : (Expr.literal (.int n)).hasKeyword = false := by
  obtain ⟨c, cs, heq⟩ := List.exists_cons_of_ne_nil (Nat.toDigits_ne_nil (n := n) (b := 10))
  have hdigit := Token.isDigit_toDigits n c (heq ▸ List.mem_cons_self)
  refine Directive.hasKeyword_eq_false_of_starts ((Expr.toList_print_nat n).trans heq) ?_
  have hletters : ∀ w ∈ loneWords ++ frontWords, w.toList.head?.any Char.isDigit = false := by
    decide
  intro w hw hstarts
  have hword := hletters w hw
  rw [hstarts, Option.any_some, hdigit] at hword
  cases hword

/-- A tree whose source fails. -/
def Refused (ns : List Node) : Prop :=
  ∃ e, ((Builder.start .empty).run
    (Build.markup ⟨none, .empty, true, .passive⟩ (serialise ns))).1 = .error e

/-- An attribute whose expression is the path `else`. -/
theorem exists_refused_else : ∃ ns : List Node,
    (∀ n ∈ ns, n.Serial Token.Short fun _ => True) ∧ Apart Node.isText ns ∧ Refused ns := by
  have hp : IsTag "p" := ⟨⟨'p', [], by decide, by decide, by simp⟩, by decide +kernel, by decide⟩
  have htitle : IsAttributeName "title" :=
    ⟨by decide, forall_mem_of_all (by decide +kernel), by decide⟩
  have helse : (Expr.path ["else"]).Canonical Token.Short Quotable :=
    .path (by decide +kernel) (by decide +kernel) (by decide) (by simp)
  let d : Directive := ⟨"else", .shows [], some (.path ["else"])⟩
  have hwritten : d.written = "else" := by decide +kernel
  have hvalue : rawValue (.dynamic (.term (.marked d.respelled))) =
      rawValue (.dynamic (.term (.marked ⟨"else", .otherwise, none⟩))) := by
    simp only [rawValue, Directive.respelled, hwritten]
  refine ⟨[.element "p" [("title", .dynamic (.term (.marked d)))] (some []) false none], ?_,
    ⟨by simp, trivial⟩, ?_⟩
  · refine List.forall_mem_singleton.2 (.element hp (by simp) ?_ ?_ trivial (by simp))
    · exact List.forall_mem_singleton.2 htitle
    · exact List.forall_mem_singleton.2 (.dynamic ⟨rfl, rfl, helse⟩ rfl trivial)
  · have hfails := @run_markup_else ⟨none, .empty, true, .passive⟩ "p" hp "title" htitle [.stop "p"]
      (readable_singleton hp)
    dsimp only at hfails
    rw [← hvalue] at hfails
    exact hfails

/-- An integer with more digits than the limit. -/
theorem exists_refused_long : ∃ ns : List Node,
    (∀ n ∈ ns, n.Serial (fun _ => True) fun e => e.hasKeyword = false) ∧
      Apart Node.isText ns ∧ Refused ns := by
  generalize hn : 10 ^ integerDigitLimit = n
  let e : Expr := .literal (.int n)
  let d : Directive := ⟨"", .shows [], some e⟩
  have hcanonical : e.Canonical (fun _ => True) Quotable := .literal (.int trivial)
  have hword : e.hasKeyword = false := hasKeyword_nat n
  have hsource : d.respelled.source = e.print := by
    simp [d, Directive.respelled, Directive.written, Directive.leading, Role.alias?,
      Directive.trailing, Text.join]
  have hneat : Neat e.print.toList := by
    rw [Expr.toList_print_nat]
    exact Piece.neat_toDigits n
  obtain ⟨cause, hlong⟩ := Expr.read_print_long (Nat.le_of_eq hn)
  obtain ⟨error, hread⟩ := Directive.read_of_refused hcanonical.solid_print hword hlong
  refine ⟨[.value (.marked d)], List.forall_mem_singleton.2 (.value ⟨rfl, rfl, hcanonical⟩ hword),
    ⟨by simp, trivial⟩, error, ?_⟩
  rw [← hsource] at hneat hread
  refine run_markup_refused hneat ?_ hread _
  rw [hsource]
  exact Directive.ne_empty_of_solid hcanonical.solid_print

/-- Neither condition can be left out: without the first, an expression of an attribute may be read
as another directive, and without the second an integer may have more digits than the limit. -/
theorem not_forall_run_markup_serialise :
    (¬ ∀ ns : List Node, (∀ n ∈ ns, n.Serial Token.Short fun _ => True) → Apart Node.isText ns →
      ((Builder.start .empty).run (Build.markup ⟨none, .empty, true, .passive⟩ (serialise ns))).1 =
        .ok ⟨Node.respelledAll ns⟩) ∧
    ¬ ∀ ns : List Node, (∀ n ∈ ns, n.Serial (fun _ => True) fun e => e.hasKeyword = false) →
      Apart Node.isText ns →
      ((Builder.start .empty).run (Build.markup ⟨none, .empty, true, .passive⟩ (serialise ns))).1 =
        .ok ⟨Node.respelledAll ns⟩ := by
  constructor
  · intro hall
    obtain ⟨ns, hns, hapart, e, hfails⟩ := exists_refused_else
    rw [hall ns hns hapart] at hfails
    cases hfails
  · intro hall
    obtain ⟨ns, hns, hapart, e, hfails⟩ := exists_refused_long
    rw [hall ns hns hapart] at hfails
    cases hfails

end Stencil
