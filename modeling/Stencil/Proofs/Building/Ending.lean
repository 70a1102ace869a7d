import Stencil.Proofs.Building.OpenNodes
import Stencil.Proofs.Source.RoundTrip

/-!
# Templates that end with open nodes

Where open nodes are no error, a template may end with some, and they are closed all at once. This
comes to the same as giving the ends that are missing, innermost first: closing a frame puts its
node in its place and changes nothing else of the tree. Two conditions exclude what an end tag may
do beyond that. The open elements are no views, and nobody observes them.

Where nothing is open, the two ways of ending a template agree on everything, failures included.
-/

namespace Stencil

open Builder Nesting

/-- The scene in which open nodes at the end are an error, or in which they are none. -/
def Scene.withStrict (strict : Bool) (scene : Scene) : Scene :=
  { scene with strict }

def Build.ended (scene : Scene) (calls : List Call) : Build Template := do
  calls.forM (Call.run scene)
  finish scene

namespace Opener

/-- The end of such a frame closes it and does nothing else. -/
def ClosesPlainly (scene : Scene) (observers : Observers) : Opener → Prop
  | .element tag _ _ =>
    scene.isViewTag tag = false ∧ observers.has ("element:" ++ tag) = false
  | _ => True

instance (scene : Scene) (observers : Observers) (o : Opener) :
    Decidable (o.ClosesPlainly scene observers) :=
  match o with
  | .element _ _ _ => inferInstanceAs (Decidable (_ ∧ _))
  | .conditional _ _ | .each _ | .eachElse _ _ | .block _ | .detached =>
    inferInstanceAs (Decidable True)

/-- The calls that end a frame: the end tag of its element, however it is written, or a text of
nothing but a directive that closes its block. -/
inductive EndedBy : Opener → Call → Prop where
  | element (tag : String) (as : Attributes) (hooks : Option (List Hook)) (written : String) :
      EndedBy (.element tag as hooks) (.stop written tag)
  | block {o : Opener} {first d : Directive} {w : BlockWord} {a : Option String} {data : String}
      (ho : o.opening? = some first) (hfirst : first.role = .opens w a)
      (hscan : Span.scan data = ⟨[.directive d], none⟩) (hd : Closes w d) :
      EndedBy o (.text data)

/-- The shortest end of a frame; a block is closed by its own word. -/
def ending (o : Opener) : Call :=
  match o with
  | .element tag _ _ => .stop ("</" ++ tag ++ ">") tag
  | o => .text ("\x7b\x7b/" ++ (o.opening?.bind (·.role.blockWord?)).getD "" ++ "\x7d\x7d")

end Opener

def Stack.openers (s : Stack) : List Opener :=
  s.frames.map Frame.opener

section

variable {scene : Scene} {b b' : Builder} {s s' : Stack}

/-- Calls do not ask whether open nodes are an error. -/
theorem Call.run_withStrict (strict : Bool) (scene : Scene) (c : Call) :
    c.run (scene.withStrict strict) = c.run scene := by
  cases c <;> rfl

theorem Build.text_withStrict (strict : Bool) (scene : Scene) (data : String) :
    Build.text (scene.withStrict strict) data = Build.text scene data :=
  Call.run_withStrict strict scene (.text data)

/-- Whether open nodes are an error matters only at the end of a template. -/
theorem Build.events_withStrict (strict : Bool) (scene : Scene) (es : Markup.Events) :
    Build.events (scene.withStrict strict) es = Build.events scene es := by
  have hevent : Build.event (scene.withStrict strict) = Build.event scene := by
    funext e
    rw [← Call.run_ofEvent, Call.run_withStrict, Call.run_ofEvent]
  rw [Build.events, hevent, Build.events]

theorem Stack.openers_push (s : Stack) (n : Node) : (s.push n).openers = s.openers := by
  obtain ⟨frames, root⟩ := s
  cases frames <;> rfl

/-- Closing takes away the innermost opener. -/
theorem Stack.openers_of_closed? (h : s.closed? = some s') : s'.openers = s.openers.tail := by
  obtain ⟨frames, root⟩ := s
  cases frames with
  | nil => cases h
  | cons f fs =>
    rw [← Option.some.inj h]
    cases f.opener.close f.content.reverse with
    | some n => exact openers_push _ n
    | none => rfl

/-- Closing a frame leaves the template as it is. -/
theorem Stack.nodes_of_closed? (hs : Attached s) (hclosed : s.closed? = some s') :
    s'.nodes = s.nodes := by
  have hlast (s : Stack) : s.levels.getLast? = some s.nodes := getLast?_levelsFrom _ _ _
  obtain ⟨frames, root⟩ := s
  cases frames with
  | nil => cases hclosed
  | cons f fs =>
    obtain ⟨outer, houter⟩ := levelsFrom_eq_cons root fs (f.opener.close f.content.reverse).toList
    have hlevels := hlast s'
    rw [levels_of_closed? hs hclosed] at hlevels
    have hall := hlast ⟨f :: fs, root⟩
    rw [levels, levelsFrom, List.append_nil, houter] at hlevels hall
    rw [List.getLast?_cons_cons] at hall
    exact Option.some.inj (hlevels.symm.trans hall)

/-- Elements that nobody observes stay as they are. -/
theorem Builder.run_observe_of_not_has {tag : String}
    (h : b.observers.has ("element:" ++ tag) = false) :
    b.run (Build.observe scene tag) = (.ok (), b) := by
  have hnone : b.observers.handlers ("element:" ++ tag) = [] := by
    simpa [Observers.has] using h
  rw [Build.observe, Build.emit, run_bind_of_ok (run_get b), hnone]
  rfl

/-- An element that stands for no view and has no observers is closed by doing nothing. -/
theorem Builder.run_closeElement_of_closesPlainly {tag : String} {as : Attributes}
    {hooks : Option (List Hook)} (h : (Opener.element tag as hooks).ClosesPlainly scene b.observers) :
    b.run (Build.closeElement scene tag) = (.ok (), b) := by
  obtain ⟨hview, hobserved⟩ := h
  obtain ⟨htag, helement⟩ := Scene.isViewTag_eq_false.1 hview
  rw [Build.closeElement, run_bind_of_ok (run_stack b)]
  split
  · rw [if_neg htag]
    simp only [helement, run_observe_of_not_has hobserved]
  · rfl

/-- The end of the innermost frame closes it. -/
theorem Opener.EndedBy.run {o : Opener} {content : List Node} {fs : List Frame} {root : List Node}
    {c : Call} (h : o.EndedBy c) (hs : b.stack = ⟨⟨o, content⟩ :: fs, root⟩)
    (hplain : o.ClosesPlainly scene b.observers) :
    ∃ s, b.stack.closed? = some s ∧ b.run (c.run scene) = (.ok (), b.withStack s) := by
  cases h with
  | element tag as hooks written =>
    have hclosed : b.stack.closed? =
        some (Stack.push (.element tag as (some content.reverse) false hooks) ⟨fs, root⟩) := by
      rw [hs]
      rfl
    refine ⟨_, hclosed, ?_⟩
    rw [Call.run, Build.endElement, run_bind_of_ok (run_ascend_of_closed? hclosed _),
      run_bind_of_ok (run_stack _), stack_withStack, newest?_push]
    dsimp only
    rw [if_pos (by simp [Node.isElement])]
    exact run_closeElement_of_closesPlainly hplain
  | @block o first d w a data ho hfirst hscan hd =>
    obtain ⟨n, hn⟩ := exists_close (ne_detached_of_opening? o first ho) content.reverse
    have hclosed : b.stack.closed? = some (Stack.push n ⟨fs, root⟩) := by
      rw [hs]
      simp [Stack.closed?, hn]
    have hmove : SpanMove scene (.directive d) b.stack (Stack.push n ⟨fs, root⟩) := by
      have hopening := (opening?_of_close hn).trans ho
      have hw : first.role.blockWord? = some w.text := by rw [hfirst, Role.blockWord?]
      obtain hd | hd := hd
      · exact .closes hd hclosed (newest?_push n _) hopening hw (.inl rfl)
      · exact .closes hd hclosed (newest?_push n _) hopening hw (.inr rfl)
    refine ⟨_, hclosed, run_text_eq_ok_iff.2 ⟨by rw [hscan], _, ?_, rfl⟩⟩
    rw [hscan]
    exact .cons hmove (.nil _)

/-- The ends of all open frames leave none of them, and the template is as before. -/
theorem Builder.run_forM_ends {ends : List Call} (hb : Attached b.stack)
    (hends : List.Forall₂ Opener.EndedBy b.stack.openers ends)
    (hplain : ∀ o ∈ b.stack.openers, o.ClosesPlainly scene b.observers) :
    ∃ s, b.run (ends.forM (Call.run scene)) = (.ok (), b.withStack s) ∧ s.frames = [] ∧
      s.nodes = b.stack.nodes := by
  generalize hopeners : b.stack.openers = openers at hends hplain
  induction hends generalizing b with
  | nil => exact ⟨b.stack, rfl, List.map_eq_nil_iff.1 hopeners, rfl⟩
  | @cons o c openers ends hend _ ih =>
    obtain ⟨f, fs, hframes, rfl, hfs⟩ := List.map_eq_cons_iff.1 hopeners
    have hstack : b.stack = ⟨⟨f.opener, f.content⟩ :: fs, b.stack.root⟩ := by
      rw [← hframes]
    obtain ⟨hinner, hbelow⟩ := List.forall_mem_cons.1 hplain
    obtain ⟨s, hclosed, hrun⟩ := hend.run hstack hinner
    have hs : s.openers = openers := by
      rw [Stack.openers_of_closed? hclosed, hopeners, List.tail_cons]
    have hattached : Attached s := (Call.move_of_run hb hrun).attached hb
    obtain ⟨s', hrest, hnone, hnodes⟩ := ih (b := b.withStack s) hattached hs hbelow
    refine ⟨s', ?_, hnone, hnodes.trans (Stack.nodes_of_closed? hb hclosed)⟩
    rw [run_forM_cons, run_bind_of_ok hrun, hrest, withStack_withStack]

/-- Each frame of a formed stack can be ended. -/
theorem Opener.Formed.endedBy_ending {o : Opener} (h : o.Formed scene) (ho : o ≠ .detached) :
    o.EndedBy o.ending := by
  have hblock {first : Directive} {ws : List BlockWord} (hfirst : o.opening? = some first)
      (hopens : first.Opens ws) (hending : o.ending = .text ("\x7b\x7b/" ++
        (o.opening?.bind (·.role.blockWord?)).getD "" ++ "\x7d\x7d")) : o.EndedBy o.ending := by
    obtain ⟨w, -, a, hrole⟩ := hopens
    have hdata : o.ending = .text ("\x7b\x7b" ++ ("/" ++ w.text) ++ "\x7d\x7d") := by
      rw [hending, hfirst, Option.bind_some, hrole]
      simp [Role.blockWord?, ← String.append_assoc]
    rw [hdata]
    exact .block hfirst hrole (scan_directive (Directive.legible_closing w)) (.inr rfl)
  cases o with
  | element tag as hooks => exact .element tag as hooks _
  | conditional earlier d =>
    cases earlier with
    | nil => exact hblock rfl h.1.1 rfl
    | cons b earlier => exact hblock rfl h.1.1 rfl
  | each d => exact hblock rfl h rfl
  | eachElse d body => exact hblock rfl h.1 rfl
  | block d => exact hblock rfl h rfl
  | detached => exact absurd rfl ho

/-- Every frame of a formed stack has its shortest end. -/
theorem Stack.Formed.forall₂_endings (h : s.Formed scene) (hs : Attached s) :
    List.Forall₂ Opener.EndedBy s.openers (s.openers.map Opener.ending) := by
  rw [List.forall₂_map_right_iff, List.forall₂_same]
  intro o ho
  obtain ⟨f, hf, rfl⟩ := List.mem_map.1 ho
  exact (h.frames f hf).1.endedBy_ending (hs f hf)

/-- Where open nodes are no error, the end of a template never fails. -/
theorem Builder.run_finish_of_lenient (hstrict : scene.strict = false) (b : Builder) :
    (b.run (Build.finish scene)).1 = .ok ⟨b.stack.nodes⟩ := by
  obtain ⟨⟨_ | ⟨f, fs⟩, root⟩, observers, marks, notices⟩ := b
  · exact run_finish_of_nil scene rfl
  · rw [Build.finish, run_bind_of_ok (run_stack _)]
    simp only [Stack.depth, hstrict]
    rfl

/-- Where nothing is open, ending the template does not ask whether that were an error. -/
theorem Builder.run_finish_withStrict (strict : Bool) (h : b.stack.frames = []) :
    b.run (Build.finish (scene.withStrict strict)) = b.run (Build.finish scene) := by
  obtain ⟨⟨frames, root⟩, observers, marks, notices⟩ := b
  obtain rfl : frames = [] := h
  rfl

end

/-- A step that does not ask about open nodes, and then the end of the template. -/
theorem Builder.run_bind_finish_withStrict {scene : Scene} {b : Builder} {α : Type}
    {step : Build α} (strict : Bool)
    (h : ∀ a b', b.run step = (.ok a, b') → b'.stack.frames = []) :
    b.run (step >>= fun _ => Build.finish (scene.withStrict strict)) =
      b.run (step >>= fun _ => Build.finish scene) := by
  rw [run_bind, run_bind]
  cases hrun : b.run step with
  | mk result b' =>
    cases result with
    | error e => rfl
    | ok a => exact run_finish_withStrict strict (h a b' hrun)

/-- A template that may end with open nodes is the one that must not, after the ends of what is
open. If the open elements are no views and nobody observes them, then the calls, any ends of the
open frames, innermost first, and the end of the template give the same template as the calls and
the end where open nodes are no error; and each open frame can be ended. If nothing is open after
the calls, or after a source, then both ways do the same and leave the same builder, whether they
succeed or fail. -/
theorem open_end_eq_closed_end (scene : Scene) (b : Builder) (hb : b.stack = .empty) :
    (∀ (calls : List Call) (b' : Builder),
      b.run (calls.forM (Call.run (scene.withStrict false))) = (.ok (), b') →
      (∀ o ∈ b'.stack.openers, o.ClosesPlainly scene b'.observers) →
      ∃ t, (b.run (Build.ended (scene.withStrict false) calls)).1 = .ok t ∧
        List.Forall₂ Opener.EndedBy b'.stack.openers (b'.stack.openers.map Opener.ending) ∧
        ∀ ends, List.Forall₂ Opener.EndedBy b'.stack.openers ends →
          (b.run (Build.ended (scene.withStrict true) (calls ++ ends))).1 = .ok t) ∧
    (∀ calls : List Call,
      (∀ b', b.run (calls.forM (Call.run scene)) = (.ok (), b') → b'.stack.frames = []) →
      b.run (Build.ended (scene.withStrict false) calls) =
        b.run (Build.ended (scene.withStrict true) calls)) ∧
    ∀ source : String,
      ((∀ b', b.run (Build.begin scene "html" >>= fun _ =>
          Build.events scene (Markup.read source)) = (.ok (), b') → b'.stack.frames = []) →
        b.run (Build.markup (scene.withStrict false) source) =
          b.run (Build.markup (scene.withStrict true) source)) ∧
      ((∀ b', b.run (Build.begin scene "string" >>= fun _ => Build.text scene source) =
          (.ok (), b') → b'.stack.frames = []) →
        b.run (Build.plain (scene.withStrict false) source) =
          b.run (Build.plain (scene.withStrict true) source)) := by
  have hcalls (strict : Bool) : Call.run (scene.withStrict strict) = Call.run scene :=
    funext (Call.run_withStrict strict scene)
  refine ⟨?_, ?_, fun source => ⟨?_, ?_⟩⟩
  · intro calls b' hrun hplain
    rw [hcalls] at hrun
    have hreached : Reached scene b' := Reached.forM (.start hb) hrun
    refine ⟨⟨b'.stack.nodes⟩, ?_, hreached.formed.forall₂_endings hreached.attached, ?_⟩
    · rw [Build.ended, hcalls, run_bind_of_ok hrun, run_finish_of_lenient rfl]
    · intro ends hends
      obtain ⟨s, hclosed, hnone, hnodes⟩ := run_forM_ends hreached.attached hends hplain
      have hall : b.run ((calls ++ ends).forM (Call.run scene)) = (.ok (), b'.withStack s) := by
        rw [Build.forM_append, run_bind_of_ok hrun, hclosed]
      rw [Build.ended, hcalls, run_bind_of_ok hall, run_finish_withStrict _ hnone,
        ← run_finish_withStrict false hnone, run_finish_of_lenient rfl, ← hnodes]
      rfl
  · intro calls hnone
    simp only [Build.ended, hcalls]
    rw [run_bind_finish_withStrict _ fun _ => hnone, run_bind_finish_withStrict _ fun _ => hnone]
  · intro hnone
    have hmarkup (strict : Bool) : Build.markup (scene.withStrict strict) source =
        ((Build.begin scene "html" >>= fun _ => Build.events scene (Markup.read source)) >>=
          fun _ => Build.finish (scene.withStrict strict)) := by
      rw [Build.markup, Build.events_withStrict, bind_assoc]
      rfl
    rw [hmarkup, hmarkup, run_bind_finish_withStrict _ fun _ => hnone,
      run_bind_finish_withStrict _ fun _ => hnone]
  · intro hnone
    have hplain (strict : Bool) : Build.plain (scene.withStrict strict) source =
        ((Build.begin scene "string" >>= fun _ => Build.text scene source) >>=
          fun _ => Build.finish (scene.withStrict strict)) := by
      rw [Build.plain, Build.text_withStrict, bind_assoc]
      rfl
    rw [hplain, hplain, run_bind_finish_withStrict _ fun _ => hnone,
      run_bind_finish_withStrict _ fun _ => hnone]

/-- A loop in its last branch, inside an element that nobody observes. -/
theorem open_end_eq_closed_end_loop :
    let scene := bareScene .empty
    let calls : List Call :=
      [.start "ul" [("class", .text "x")] false,
        .text "\x7b\x7beach items\x7d\x7da\x7b\x7belse\x7d\x7db"]
    let b := Builder.start .default
    let b' := (b.run (calls.forM (Call.run (scene.withStrict false)))).2
    let ends := b'.stack.openers.map Opener.ending
    (ends.map fun
      | .text data => data
      | .stop written _ => written
      | _ => "") = ["\x7b\x7b/each\x7d\x7d", "</ul>"] ∧
      (∀ o ∈ b'.stack.openers, o.ClosesPlainly scene b'.observers) ∧
      ∃ t, (b.run (Build.ended (scene.withStrict false) calls)).1 = .ok t ∧
        (b.run (Build.ended (scene.withStrict true) (calls ++ ends))).1 = .ok t := by
  intro scene calls b b' ends
  have hrun : b.run (calls.forM (Call.run (scene.withStrict false))) = (.ok (), b') :=
    Prod.ext (eq_ok_of_isSome (by decide +kernel)) rfl
  have hplain : ∀ o ∈ b'.stack.openers, o.ClosesPlainly scene b'.observers := by decide +kernel
  obtain ⟨t, hopen, hends, hclosed⟩ := (open_end_eq_closed_end scene b rfl).1 calls b' hrun hplain
  exact ⟨by decide +kernel, hplain, t, hopen, hclosed ends hends⟩

end Stencil
