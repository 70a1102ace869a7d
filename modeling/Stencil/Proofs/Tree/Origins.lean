import Stencil.Proofs.Building.Observing
import Stencil.Proofs.Building.OpenElements
import Stencil.Proofs.Tree.Weights

/-!
# Where the elements of a tree come from

Each element of a template was made by a start tag: the element was opened there, and it was added
to the stack on which the tag stood when its end came. The tag declares hooks in two of its
attributes and leaves the element the others. `Call.Makes` follows one element from the tag to its
end. No two elements of a template come from the same tag, wherever they stand in the tree, so the
hooks of each are settled from those that its own tag declares.
-/

namespace Stencil

open Builder Nesting

/-- The attributes that are read from what a start tag gives, wherever it stands. -/
def Attributes.AreRead (scene : Scene) (given : List (String × Value)) (as : Attributes) : Prop :=
  ∀ b : Builder, b.run (Build.attributesOf scene given) = (.ok as, b)

namespace Call

/-- The call is a start tag that declares these hooks and leaves its element these attributes. -/
def Declares (scene : Scene) (tag : String) (kept : Attributes) (hooks : Option (List Hook)) :
    Call → Prop
  | .start name given _ => name = tag ∧ ∃ read, Attributes.AreRead scene given read ∧
      Hook.declared Attribute.literal? .onElement read = .ok (hooks, kept)
  | _ => False

/-- The calls add the node to the stack. The first of them, which has this position among all calls,
is a start tag that declares these hooks, and up to the last one its element is open. -/
def Makes (scene : Scene) (b : Builder) (calls : List Call) (i : ℕ) (tag : String)
    (kept : Attributes) (hooks : Option (List Hook)) (n : Node) : Prop :=
  ∃ before c taken later, calls = before ++ c :: (taken ++ later) ∧ before.length = i ∧
    c.Declares scene tag kept hooks ∧
    (EffectFrom scene b before (c :: taken) fun s s' => s' = s.push n) ∧
    ∀ inner last rest, taken = inner ++ last :: rest →
      EffectFrom scene b before (c :: inner) fun s s' => s.OpenOver (.element tag kept hooks) s'

/-- The start tag at this position declares these hooks, and its element is still open on the stack
on which the tag stood. -/
def OpenSince (scene : Scene) (b : Builder) (calls : List Call) (i : ℕ) (tag : String)
    (kept : Attributes) (hooks : Option (List Hook)) (base : Stack) : Prop :=
  ∃ before c taken, calls = before ++ c :: taken ∧ before.length = i ∧
    c.Declares scene tag kept hooks ∧
    ∀ inner rest, taken = inner ++ rest → EffectFrom scene b before (c :: inner)
      fun s s' => s = base ∧ base.OpenOver (.element tag kept hooks) s'

section

variable {scene : Scene} {b b' b'' : Builder} {calls before taken : List Call} {c : Call} {i : ℕ}
  {tag : String} {kept : Attributes} {hooks : Option (List Hook)} {base : Stack} {n : Node}

theorem run_append (h : b.run (calls.forM (run scene)) = (.ok (), b')) (more : List Call) :
    b.run ((calls ++ more).forM (run scene)) = b'.run (more.forM (run scene)) := by
  rw [Build.forM_append, run_bind_of_ok h]

/-- What the last calls of a run do to the stack is their effect. -/
theorem effectFrom_of_run {R : Stack → Stack → Prop}
    (h : b.run ((before ++ taken).forM (run scene)) = (.ok (), b'))
    (hR : ∀ b₁, b.run (before.forM (run scene)) = (.ok (), b₁) → R b₁.stack b'.stack) :
    EffectFrom scene b before taken R := by
  rw [Build.forM_append] at h
  obtain ⟨_, b₁, hbefore, htaken⟩ := run_bind_eq_ok.1 h
  exact ⟨b₁, b', hbefore, htaken, hR b₁ hbefore⟩

theorem EffectFrom.mono {R Q : Stack → Stack → Prop} (h : EffectFrom scene b before taken R)
    (hRQ : ∀ s s', R s s' → Q s s') : EffectFrom scene b before taken Q := by
  obtain ⟨b₁, b₂, hbefore, htaken, hR⟩ := h
  exact ⟨b₁, b₂, hbefore, htaken, hRQ _ _ hR⟩

/-- An element that was made stays made, whatever is called later. -/
theorem Makes.concat (h : Makes scene b calls i tag kept hooks n) (c : Call) :
    Makes scene b (calls ++ [c]) i tag kept hooks n := by
  obtain ⟨before, first, taken, later, rfl, hi, hdeclares, hpush, hopen⟩ := h
  exact ⟨before, first, taken, later ++ [c], by simp, hi, hdeclares, hpush, hopen⟩

/-- A start tag that opens its element. -/
theorem openSince_of_run (hcalls : b.run (calls.forM (run scene)) = (.ok (), b'))
    (hdeclares : c.Declares scene tag kept hooks) (hc : b'.run (c.run scene) =
      (.ok (), b'.withStack (b'.stack.opened (.element tag kept hooks)))) :
    OpenSince scene b (calls ++ [c]) calls.length tag kept hooks b'.stack := by
  refine ⟨calls, c, [], rfl, rfl, hdeclares, fun inner rest htaken => ?_⟩
  obtain ⟨rfl, -⟩ := List.append_eq_nil_iff.1 htaken.symm
  refine ⟨b', b'.withStack (b'.stack.opened (.element tag kept hooks)), hcalls, ?_, rfl, .start _ _⟩
  rw [run_forM_cons, run_bind_of_ok hc, run_forM_nil]

/-- A start tag whose element has no content. -/
theorem makes_of_run (hcalls : b.run (calls.forM (run scene)) = (.ok (), b'))
    (hdeclares : c.Declares scene tag kept hooks)
    (hc : b'.run (c.run scene) = (.ok (), b'.withStack (b'.stack.push n))) :
    Makes scene b (calls ++ [c]) calls.length tag kept hooks n := by
  refine ⟨calls, c, [], [], by simp, rfl, hdeclares,
    ⟨b', b'.withStack (b'.stack.push n), hcalls, ?_, rfl⟩, ?_⟩
  · rw [run_forM_cons, run_bind_of_ok hc, run_forM_nil]
  · intro inner last rest htaken
    simp at htaken

/-- The position of a start tag does not change with the calls behind it. -/
theorem OpenSince.concat (h : OpenSince scene b calls i tag kept hooks base)
    (hcalls : b.run ((calls ++ [c]).forM (run scene)) = (.ok (), b'))
    (hopen : base.OpenOver (.element tag kept hooks) b'.stack) :
    OpenSince scene b (calls ++ [c]) i tag kept hooks base := by
  obtain ⟨before, first, taken, rfl, hi, hdeclares, hsince⟩ := h
  refine ⟨before, first, taken ++ [c], by simp, hi, hdeclares, fun inner rest htaken => ?_⟩
  obtain rfl | ⟨earlier, last, rfl⟩ := rest.eq_nil_or_concat
  · rw [List.append_nil] at htaken
    obtain ⟨b₁, b₂, hbefore, -, hbase, -⟩ := hsince [] taken rfl
    rw [← htaken]
    rw [List.append_assoc, List.cons_append] at hcalls
    refine effectFrom_of_run hcalls fun b₃ hb₃ => ?_
    rw [hb₃, Prod.mk.injEq] at hbefore
    exact ⟨hbefore.2 ▸ hbase, hopen⟩
  · rw [List.concat_eq_append, ← List.append_assoc] at htaken
    exact hsince inner earlier (List.append_inj_left' htaken rfl)

/-- The end of an element that is open makes it. -/
theorem OpenSince.makes (h : OpenSince scene b calls i tag kept hooks base)
    (hcalls : b.run ((calls ++ [c]).forM (run scene)) = (.ok (), b'))
    (hpush : b'.stack = base.push n) : Makes scene b (calls ++ [c]) i tag kept hooks n := by
  obtain ⟨before, first, taken, rfl, hi, hdeclares, hsince⟩ := h
  refine ⟨before, first, taken ++ [c], [], by simp, hi, hdeclares, ?_, ?_⟩
  · obtain ⟨b₁, b₂, hbefore, -, hbase, -⟩ := hsince [] taken rfl
    rw [List.append_assoc, List.cons_append] at hcalls
    refine effectFrom_of_run hcalls fun b₃ hb₃ => ?_
    rw [hb₃, Prod.mk.injEq] at hbefore
    rw [hpush, ← hbase, hbefore.2]
  · intro inner last rest htaken
    obtain rfl | ⟨earlier, final, rfl⟩ := rest.eq_nil_or_concat
    · have hinner := List.append_inj_left' htaken rfl
      exact (hsince inner [] (by simp [hinner])).mono fun s s' h => h.1 ▸ h.2
    · rw [List.concat_eq_append, ← List.cons_append, ← List.append_assoc] at htaken
      have hinner := List.append_inj_left' htaken rfl
      exact (hsince inner (last :: earlier) hinner).mono fun s s' h => h.1 ▸ h.2

end

end Call

/-! ## Open elements -/

/-- Each frame of an element that stands for no view has a position, and `Since` holds of it with the
stack below the frame. -/
inductive Stack.Tracked (scene : Scene)
    (Since : ℕ → String → Attributes → Option (List Hook) → Stack → Prop) (root : List Node) :
    List Frame → List ℕ → Prop
  | nil : Tracked scene Since root [] []
  | other {f : Frame} {fs : List Frame} {starts : List ℕ}
      (hf : ∀ tag as hooks, f.opener = .element tag as hooks → scene.isViewTag tag = true)
      (h : Tracked scene Since root fs starts) : Tracked scene Since root (f :: fs) starts
  | element {i : ℕ} {tag : String} {as : Attributes} {hooks : Option (List Hook)}
      {content : List Node} {fs : List Frame} {starts : List ℕ} (htag : scene.isViewTag tag = false)
      (hsince : Since i tag as hooks ⟨fs, root⟩) (h : Tracked scene Since root fs starts) :
      Tracked scene Since root (⟨.element tag as hooks, content⟩ :: fs) (i :: starts)

namespace Stack.Tracked

variable {scene : Scene} {Since Since' : ℕ → String → Attributes → Option (List Hook) → Stack → Prop}
  {s s' : Stack} {starts : List ℕ}

/-- Where an element is open on its base, one predicate may be replaced by another. -/
theorem mono (h : Tracked scene Since s.root s.frames starts)
    (hsince : ∀ i tag as hooks base, base.OpenOver (.element tag as hooks) s →
      Since i tag as hooks base → Since' i tag as hooks base) :
    Tracked scene Since' s.root s.frames starts := by
  obtain ⟨frames, root⟩ := s
  have hall : ∀ above fs starts, frames = above ++ fs → Tracked scene Since root fs starts →
      Tracked scene Since' root fs starts := by
    intro above fs starts hframes hfs
    induction hfs generalizing above with
    | nil => exact .nil
    | @other f _ _ hf _ ih => exact .other hf (ih (above ++ [f]) (by simp [hframes]))
    | @element _ tag as hooks content _ _ htag hi _ ih =>
      refine .element htag (hsince _ _ _ _ _ ⟨above, content, hframes, rfl⟩ hi) ?_
      exact ih (above ++ [⟨.element tag as hooks, content⟩]) (by simp [hframes])
  exact hall [] frames starts rfl h

/-- Changing the content of the innermost block leaves all start tags tracked. -/
theorem setTop (h : Tracked scene Since s.root s.frames starts) (content : List Node) :
    Tracked scene Since (s.setTop content).root (s.setTop content).frames starts := by
  obtain ⟨frames, root⟩ := s
  cases frames with
  | nil =>
    cases h
    exact .nil
  | cons f fs =>
    cases h with
    | other hf h => exact .other hf h
    | element htag hi h => exact .element htag hi h

theorem opened (h : Tracked scene Since s.root s.frames starts) {o : Opener}
    (ho : ∀ tag as hooks, o = .element tag as hooks → scene.isViewTag tag = true) :
    Tracked scene Since (s.opened o).root (s.opened o).frames starts :=
  .other ho h

theorem push (h : Tracked scene Since s.root s.frames starts) (n : Node) :
    Tracked scene Since (s.push n).root (s.push n).frames starts :=
  h.setTop _

/-- No element is closed if the newest node is none then. -/
theorem closed? (h : Tracked scene Since s.root s.frames starts) (hs : s.closed? = some s') {n : Node}
    (hn : s'.newest? = some n) (hblock : n.tag? = none) :
    Tracked scene Since s'.root s'.frames starts := by
  obtain ⟨frames, root⟩ := s
  cases h with
  | nil => cases hs
  | @other f fs _ _ h =>
    rw [← Option.some.inj hs]
    split
    · exact push h _
    · exact h
  | element =>
    obtain rfl := Option.some.inj hs
    obtain rfl := Option.some.inj ((newest?_push _ _).symm.trans hn)
    cases hblock

end Stack.Tracked

/-! ## Moves -/

section

variable {scene : Scene} {Since : ℕ → String → Attributes → Option (List Hook) → Stack → Prop}
  {s s' : Stack} {starts : List ℕ}

theorem SpanMove.tracked {span : Span} (h : SpanMove scene span s s')
    (hs : Stack.Tracked scene Since s.root s.frames starts) :
    Stack.Tracked scene Since s'.root s'.frames starts := by
  cases h with
  | text | value | view => exact hs.push _
  | @opens d w =>
    refine hs.opened fun tag as hooks ho => ?_
    cases w <;> cases ho
  | closes _ hclosed hn hfirst => exact hs.closed? hclosed hn (Node.tag?_of_opening? hfirst)
  | branch _ hclosed hn | eachElse _ hclosed hn =>
    exact ((hs.closed? hclosed hn rfl).setTop _).opened fun tag as hooks ho => by cases ho

/-- The spans of a text leave the start tags of open elements tracked. -/
theorem SpanMoves.tracked {spans : List Span} (h : SpanMoves scene spans s s')
    (hs : Stack.Tracked scene Since s.root s.frames starts) :
    Stack.Tracked scene Since s'.root s'.frames starts := by
  induction h with
  | nil => exact hs
  | cons hmove _ ih => exact ih (hmove.tracked hs)

end

/-! ## Calls -/

section

variable {scene : Scene} {policy : String → Option (List Hook) → Option (List Hook)}
  {b b' : Builder} {tag : String} {given : List (String × Value)} {selfClosing : Bool}

/-- A start tag leaves an open frame, or an element without content that is closed at once. -/
theorem Builder.exists_of_run_startElement (hattached : Attached b.stack)
    (h : b.run (Build.startElement scene tag given selfClosing) = (.ok (), b')) :
    ∃ kept hooks, (∀ a ∈ kept, a.2.IsRead scene) ∧
      (scene.isViewTag tag = false → (Call.start tag given selfClosing).Declares scene tag kept hooks) ∧
      ((b.withStack (b.stack.push (.element tag kept none selfClosing hooks))).run
          (Build.closeElement scene tag) = (.ok (), b') ∨
        b' = b.withStack (b.stack.opened (.element tag kept hooks))) := by
  rw [Build.startElement] at h
  obtain ⟨as, b₁, hattributes, hrest⟩ := run_bind_eq_ok.1 h
  obtain ⟨rfl, hruns, hread, -⟩ := exists_of_run_attributesOf hattached hattributes
  obtain ⟨⟨hooks, kept⟩, b₂, hcheck, htag⟩ := run_bind_eq_ok.1 hrest
  obtain ⟨hhooks, rfl⟩ := run_check_eq_ok.1 hcheck
  refine ⟨kept, hooks, fun a ha => hread a ((elementHooks_sublist hhooks).subset ha), ?_, ?_⟩
  · intro hview
    rw [Build.elementHooks, if_neg (by simp [hview])] at hhooks
    exact ⟨rfl, as, hruns, hhooks⟩
  · dsimp only at htag
    split at htag
    · rw [run_bind_of_ok (Builder.run_append _ _)] at htag
      exact .inl htag
    · exact .inr (Prod.mk.inj htag).2.symm

/-- A node with its position is an element that the start tag at this position made. Its hooks are
settled from those that the tag declares. -/
def Call.IsMade (scene : Scene) (policy : String → Option (List Hook) → Option (List Hook))
    (b : Builder) (calls : List Call) (m : ℕ × Node) : Prop :=
  ∃ tag kept declared content selfClosing,
    m.2 = .element tag kept content selfClosing (policy tag declared) ∧
      Call.Makes scene b calls m.1 tag kept declared m.2

/-- The positions of the start tags whose elements are open, and the elements that are made, with the
positions of theirs. There are no other elements in the stack. -/
structure Call.Accounts (scene : Scene) (policy : String → Option (List Hook) → Option (List Hook))
    (b : Builder) (calls : List Call) (b' : Builder) (starts : List ℕ) (made : List (ℕ × Node)) :
    Prop where
  run : b.run (calls.forM (Call.run scene)) = (.ok (), b')
  attached : Attached b'.stack
  observers : b'.observers = b.observers
  tracked : Stack.Tracked scene (Call.OpenSince scene b calls) b'.stack.root b'.stack.frames starts
  nodup : (starts ++ made.map Prod.fst).Nodup
  lt : ∀ i ∈ starts ++ made.map Prod.fst, i < calls.length
  isMade : ∀ m ∈ made, Call.IsMade scene policy b calls m
  weigh : ∀ w, b'.stack.weigh w ≤ (made.map fun m => w m.2).sum

namespace Call.Accounts

variable {b'' : Builder} {calls : List Call} {c : Call} {starts : List ℕ} {made : List (ℕ × Node)}

theorem start (hb : b.stack = .empty) : Accounts scene policy b [] b [] [] where
  run := run_forM_nil _ _
  attached := hb ▸ .empty
  observers := rfl
  tracked := hb ▸ .nil
  nodup := .nil
  lt := List.forall_mem_nil _
  isMade := List.forall_mem_nil _
  weigh w := by simp [hb, Stack.weigh, Stack.empty]

/-- One more successful call runs after those before it. -/
theorem run_concat (h : Accounts scene policy b calls b' starts made)
    (hc : b'.run (c.run scene) = (.ok (), b'')) :
    b.run ((calls ++ [c]).forM (Call.run scene)) = (.ok (), b'') := by
  rw [Call.run_append h.run, run_forM_cons, run_bind_of_ok hc, run_forM_nil]

/-- What was made so far stays made under one more call. -/
theorem isMade_concat (h : Accounts scene policy b calls b' starts made) (c : Call) :
    ∀ m ∈ made, IsMade scene policy b (calls ++ [c]) m := by
  intro m hm
  obtain ⟨tag, kept, declared, content, selfClosing, hn, hmakes⟩ := h.isMade m hm
  exact ⟨tag, kept, declared, content, selfClosing, hn, hmakes.concat c⟩

/-- The elements that are open after the call have been so since their start tags. -/
theorem openSince_concat (h : Accounts scene policy b calls b' starts made)
    (hc : b'.run (c.run scene) = (.ok (), b'')) {starts' : List ℕ}
    (htracked : Stack.Tracked scene (OpenSince scene b calls) b''.stack.root b''.stack.frames
      starts') :
    Stack.Tracked scene (OpenSince scene b (calls ++ [c])) b''.stack.root b''.stack.frames starts' :=
  htracked.mono fun _ _ _ _ _ hopen hsince => hsince.concat (h.run_concat hc) hopen

theorem lt_concat (h : Accounts scene policy b calls b' starts made) (c : Call) :
    ∀ i ∈ starts ++ made.map Prod.fst, i < (calls ++ [c]).length := by
  intro i hi
  rw [List.length_append]
  exact Nat.lt_add_right _ (h.lt i hi)

/-- The position of a call that is still to come is none of those before. -/
theorem not_mem (h : Accounts scene policy b calls b' starts made) :
    calls.length ∉ starts ++ made.map Prod.fst :=
  fun hmem => Nat.lt_irrefl _ (h.lt _ hmem)

/-- A call that makes no element and opens none. -/
theorem keep (h : Accounts scene policy b calls b' starts made)
    (hc : b'.run (c.run scene) = (.ok (), b'')) (hobservers : b''.observers = b'.observers)
    (htracked : Stack.Tracked scene (OpenSince scene b calls) b''.stack.root b''.stack.frames starts)
    (hweigh : ∀ w, b''.stack.weigh w ≤ b'.stack.weigh w) :
    Accounts scene policy b (calls ++ [c]) b'' starts made where
  run := h.run_concat hc
  attached := (Call.move_of_run h.attached hc).attached h.attached
  observers := hobservers.trans h.observers
  tracked := h.openSince_concat hc htracked
  nodup := h.nodup
  lt := h.lt_concat c
  isMade := h.isMade_concat c
  weigh w := Nat.le_trans (hweigh w) (h.weigh w)

/-- A start tag that opens an element. -/
theorem opens (h : Accounts scene policy b calls b' starts made) {kept : Attributes}
    {hooks : Option (List Hook)} (hview : scene.isViewTag tag = false)
    (hkept : ∀ a ∈ kept, a.2.IsRead scene) (hdeclares : c.Declares scene tag kept hooks)
    (hc : b'.run (c.run scene) =
      (.ok (), b'.withStack (b'.stack.opened (.element tag kept hooks)))) :
    Accounts scene policy b (calls ++ [c])
      (b'.withStack (b'.stack.opened (.element tag kept hooks))) (calls.length :: starts) made where
  run := h.run_concat hc
  attached := (Call.move_of_run h.attached hc).attached h.attached
  observers := h.observers
  tracked := by
    refine .element hview (openSince_of_run h.run hdeclares hc) (h.tracked.mono ?_)
    intro i tag as hooks base hopen hsince
    exact hsince.concat (h.run_concat hc) (hopen.opened _)
  nodup := List.nodup_cons.2 ⟨h.not_mem, h.nodup⟩
  lt := List.forall_mem_cons.2 ⟨by simp, h.lt_concat c⟩
  isMade := h.isMade_concat c
  weigh w := by
    rw [stack_withStack, Stack.weigh_opened, Opener.weigh, Attributes.weigh_eq_zero hkept]
    exact h.weigh w

/-- A start tag whose element has no content. -/
theorem leaf (h : Accounts scene policy b calls b' starts made) {kept : Attributes}
    {hooks : Option (List Hook)} (hkept : ∀ a ∈ kept, a.2.IsRead scene)
    (hdeclares : c.Declares scene tag kept hooks) {n : Node}
    (hn : n = .element tag kept none selfClosing (policy tag hooks))
    (hc : b'.run (c.run scene) = (.ok (), b'.withStack (b'.stack.push n))) :
    Accounts scene policy b (calls ++ [c]) (b'.withStack (b'.stack.push n)) starts
      ((calls.length, n) :: made) where
  run := h.run_concat hc
  attached := (Call.move_of_run h.attached hc).attached h.attached
  observers := h.observers
  tracked := h.openSince_concat hc (h.tracked.push n)
  nodup := by
    rw [List.map_cons, List.perm_middle.nodup_iff]
    exact List.nodup_cons.2 ⟨h.not_mem, h.nodup⟩
  lt i hi := by
    rw [List.map_cons, List.mem_append, List.mem_cons, or_left_comm, ← List.mem_append] at hi
    obtain rfl | hi := hi
    · simp
    · exact h.lt_concat c i hi
  isMade := List.forall_mem_cons.2
    ⟨⟨tag, kept, hooks, none, selfClosing, hn, makes_of_run h.run hdeclares hc⟩, h.isMade_concat c⟩
  weigh w := by
    have hbefore := h.weigh w
    rw [stack_withStack, hn, Stack.weigh_push_element, Attributes.weigh_eq_zero hkept,
      Option.getD_none, Node.weighAll_nil, List.map_cons, List.sum_cons]
    dsimp only
    omega

/-- An end tag that makes the element of the innermost frame. -/
theorem stop (h : Accounts scene policy b calls b' starts made) {kept : Attributes}
    {hooks : Option (List Hook)} {content : List Node} {fs : List Frame} {root : List Node}
    (hstack : b'.stack = ⟨⟨.element tag kept hooks, content⟩ :: fs, root⟩)
    (hview : scene.isViewTag tag = false) {n : Node}
    (hn : n = .element tag kept (some content.reverse) false (policy tag hooks))
    (hc : b'.run (c.run scene) = (.ok (), b'.withStack (Stack.push n ⟨fs, root⟩))) :
    ∃ starts' made', Accounts scene policy b (calls ++ [c])
      (b'.withStack (Stack.push n ⟨fs, root⟩)) starts' made' := by
  have htracked := h.tracked
  rw [hstack] at htracked
  cases htracked with
  | other hf =>
    have htag := hf _ _ _ rfl
    rw [hview] at htag
    cases htag
  | @element i _ _ _ _ _ starts _ hsince hbelow =>
    have hmoved : (starts ++ ((i, n) :: made).map Prod.fst).Perm
        (i :: starts ++ made.map Prod.fst) := by
      rw [List.map_cons]
      exact List.perm_middle
    refine ⟨starts, (i, n) :: made, ⟨h.run_concat hc,
      (Call.move_of_run h.attached hc).attached h.attached, h.observers,
      h.openSince_concat hc (Stack.Tracked.push (s := ⟨fs, root⟩) hbelow n),
      hmoved.nodup_iff.2 h.nodup, fun j hj => h.lt_concat c j (hmoved.mem_iff.1 hj), ?_, ?_⟩⟩
    · refine List.forall_mem_cons.2 ⟨⟨tag, kept, hooks, _, false, hn, ?_⟩, h.isMade_concat c⟩
      exact hsince.makes (h.run_concat hc) rfl
    · intro w
      have hbefore := h.weigh w
      rw [hstack] at hbefore
      simp only [Stack.weigh, Frame.weigh, Opener.weigh, List.map_cons, List.sum_cons] at hbefore
      rw [stack_withStack, hn, Stack.weigh_push_element, Option.getD_some, Node.weighAll_reverse,
        List.map_cons, List.sum_cons]
      simp only [Stack.weigh]
      omega

/-- What one call does to the elements of the stack. -/
theorem concat (h : Accounts scene policy b calls b' starts made)
    (hsettle : b.observers.Settle scene policy) (hc : b'.run (c.run scene) = (.ok (), b'')) :
    ∃ starts' made', Accounts scene policy b (calls ++ [c]) b'' starts' made' := by
  have hpointer {s : Stack} {tag : String} {as : Attributes} {content : List Node} {n : Node}
      (hn : Stands scene tag as content n) (w : Node → ℕ) :
      (s.push n).weigh w ≤ s.weigh w + (Attributes.weigh w as + Node.weighAll w content) := by
    have hinside := ViewAttributes.weigh_stands_le (w := w) hn
    have htag := Node.common_untagged.stands hn
    rw [Stack.weigh_push, Node.weight, htag]
    simpa using hinside
  cases c with
  | start tag given selfClosing =>
    obtain ⟨kept, hooks, hkept, hdeclares, hclose | rfl⟩ :=
      exists_of_run_startElement h.attached hc
    · obtain ⟨hview, rfl⟩ | ⟨n, hn, rfl⟩ :=
        hsettle.of_run_closeElement (observers_withStack _ b' ▸ h.observers) rfl hclose
      · exact ⟨_, _, h.leaf hkept (hdeclares hview) rfl hc⟩
      · refine ⟨_, _, h.keep hc rfl (h.tracked.push n) fun w => ?_⟩
        have hle := hpointer (s := b'.stack) hn w
        rwa [Attributes.weigh_eq_zero hkept, Option.getD_none, Node.weighAll_nil] at hle
    · cases hview : scene.isViewTag tag with
      | false => exact ⟨_, _, h.opens hview hkept (hdeclares hview) hc⟩
      | true =>
        refine ⟨_, _, h.keep hc rfl (h.tracked.opened ?_) fun w => ?_⟩
        · rintro tag as hooks ⟨⟩
          exact hview
        · rw [stack_withStack, Stack.weigh_opened, Opener.weigh, Attributes.weigh_eq_zero hkept]
          exact Nat.le_refl _
  | stop written tag =>
    obtain ⟨as, hooks, content, fs, root, hstack, hclose⟩ := exists_of_run_endElement h.attached hc
    obtain ⟨hview, rfl⟩ | ⟨n, hn, rfl⟩ :=
      hsettle.of_run_closeElement (observers_withStack _ b' ▸ h.observers) rfl hclose
    · exact h.stop hstack hview rfl hc
    · refine ⟨_, _, h.keep hc rfl ?_ fun w => ?_⟩
      · have htracked := h.tracked
        rw [hstack] at htracked
        cases htracked with
        | other _ hbelow => exact Stack.Tracked.push (s := ⟨fs, root⟩) hbelow n
        | element htag =>
          rw [hn.isViewTag] at htag
          cases htag
      · have hle := hpointer (s := ⟨fs, root⟩) hn w
        rw [Option.getD_some, Node.weighAll_reverse] at hle
        rw [hstack]
        simp only [stack_withStack, withStack_withStack, Stack.weigh, Frame.weigh, Opener.weigh,
          List.map_cons, List.sum_cons] at hle ⊢
        omega
  | text data =>
    obtain ⟨-, s, hmoves, rfl⟩ := run_text_eq_ok_iff.1 hc
    refine ⟨_, _, h.keep hc rfl (hmoves.tracked h.tracked) fun w => ?_⟩
    exact hmoves.weigh_le fun d => Span.isRead_of_mem_scan
  | comment tag data =>
    have hrun := hc
    rw [Call.run, Build.comment] at hrun
    split at hrun
    · obtain rfl := run_append_eq_ok.1 hrun
      refine ⟨_, _, h.keep hc rfl (h.tracked.push _) fun w => ?_⟩
      simp [Node.weight, Node.tag?, Node.descendants]
    · obtain rfl := (Prod.mk.inj hrun).2
      exact ⟨_, _, h.keep hc rfl h.tracked fun w => Nat.le_refl _⟩
  | declaration tag =>
    have hrun := hc
    rw [Call.run, Build.declaration] at hrun
    split at hrun
    · obtain rfl := run_append_eq_ok.1 hrun
      refine ⟨_, _, h.keep hc rfl (h.tracked.push _) fun w => ?_⟩
      simp [Node.weight, Node.tag?, Node.descendants]
    · cases hrun

end Call.Accounts

/-- However many calls there are, the elements of the stack are those that the calls made. -/
theorem Call.exists_accounts (hb : b.stack = .empty) (hsettle : b.observers.Settle scene policy)
    {calls : List Call} (h : b.run (calls.forM (Call.run scene)) = (.ok (), b')) :
    ∃ starts made, Accounts scene policy b calls b' starts made := by
  induction calls using List.reverseRecOn generalizing b' with
  | nil =>
    rw [run_forM_nil, Prod.mk.injEq] at h
    exact ⟨[], [], h.2 ▸ .start hb⟩
  | append_singleton calls c ih =>
    rw [Build.forM_append] at h
    obtain ⟨_, b₁, hcalls, hlast⟩ := run_bind_eq_ok.1 h
    rw [run_forM_cons] at hlast
    obtain ⟨_, b₂, hc, hnil⟩ := run_bind_eq_ok.1 hlast
    rw [run_forM_nil, Prod.mk.injEq] at hnil
    obtain ⟨starts, made, haccounts⟩ := ih hcalls
    exact haccounts.concat hsettle (hnil.2 ▸ hc)

end

/-! ## Templates -/

/-- The elements of a template, wherever they stand. -/
def Template.elements (t : Template) : List Node :=
  t.nodes.filter fun n => n.tag?.isSome

section

variable {scene : Scene} {policy : String → Option (List Hook) → Option (List Hook)}
  {observers : Observers} {isText : Bool} {source : String} {t : Template}

/-- If nothing is open at its end, a template has no elements but those that its start tags made, and
each of these at most once. -/
theorem exists_made (hstrict : scene.strict = true) (hsettle : observers.Settle scene policy)
    (h : ((Builder.start observers).run
      (if isText then Build.plain scene source else Build.markup scene source)).1 = .ok t) :
    ∃ (b : Builder) (made : List (ℕ × Node)), b.stack = .empty ∧ b.observers = observers ∧
      (made.map Prod.fst).Nodup ∧ t.elements.Perm (made.map Prod.snd) ∧
      ∀ m ∈ made, Call.IsMade scene policy b (Call.ofSource isText source) m := by
  obtain ⟨b, b', hstart, hb, hrun, hfinish⟩ := exists_run_ofSource h
  obtain ⟨starts, made, haccounts⟩ := Call.exists_accounts hstart (hb ▸ hsettle) hrun
  obtain ⟨hnone, hcontent⟩ := (run_finish_eq_ok_iff hstrict b' t).1 hfinish
  have hpart : t.elements.Subperm (made.map Prod.snd) := by
    refine Node.subperm_of_weigh fun w => ?_
    have hweigh := haccounts.weigh w
    rw [Stack.weigh, hnone] at hweigh
    have hall : Node.weighAll w t.content = Node.weighAll w b'.stack.root := by
      rw [hcontent, Node.weighAll_reverse]
    rw [List.map_map]
    exact Nat.le_trans (Nat.le_of_eq hall) hweigh
  obtain ⟨elements, hperm, hsublist⟩ := hpart
  obtain ⟨kept, hkept, rfl⟩ := List.sublist_map_iff.1 hsublist
  refine ⟨b, kept, hstart, hb, ?_, hperm.symm, fun m hm => haccounts.isMade m (hkept.subset hm)⟩
  exact (List.nodup_append.1 haccounts.nodup).2.1.sublist (hkept.map Prod.fst)

/-- The hooks that elements have are settled from hooks that there are. -/
theorem ne_nil_of_mem_elements (hstrict : scene.strict = true)
    (hsettle : observers.Settle scene policy)
    (hpolicy : ∀ tag hooks, hooks ≠ some [] → policy tag hooks ≠ some [])
    (h : t.IsReadFrom scene observers source) {n : Node} (hn : n ∈ t.elements) :
    n.hooks? ≠ some (some []) := by
  have hmade (isText : Bool) (h : ((Builder.start observers).run
      (if isText then Build.plain scene source else Build.markup scene source)).1 = .ok t) :
      n.hooks? ≠ some (some []) := by
    obtain ⟨b, made, -, -, -, hperm, hmade⟩ := exists_made hstrict hsettle h
    obtain ⟨m, hm, rfl⟩ := List.mem_map.1 (hperm.mem_iff.1 hn)
    obtain ⟨tag, kept, declared, content, selfClosing, heq, _, c, _, _, -, -, hdeclares, -⟩ :=
      hmade m hm
    cases c with
    | start name given sc =>
      obtain ⟨-, read, -, hdeclared⟩ := hdeclares
      rw [heq]
      simpa [Node.hooks?] using hpolicy tag declared (Hook.ne_nil_of_declared hdeclared)
    | _ => exact hdeclares.elim
  obtain h | h := h
  · exact hmade false h
  · exact hmade true h

/-- In a template that is read without open nodes at its end, all nodes are formed: those of its
content, and those inside branches, attributes and view pointers. With the usual observers, or with
none, no node has an empty list of hooks. -/
theorem formed_of_isReadFrom (hstrict : scene.strict = true)
    (h : t.IsReadFrom scene observers source) :
    (∀ n ∈ t.nodes, n.Formed scene) ∧
      (observers = .default ∨ observers = .empty → ∀ n ∈ t.nodes, n.hooks? ≠ some (some [])) := by
  have hformed : ∀ n ∈ t.nodes, n.Formed scene := by
    obtain ⟨b, hb, hfinish⟩ := h.exists_reached
    obtain ⟨-, hcontent⟩ := (run_finish_eq_ok_iff hstrict b t).1 hfinish
    rw [Template.forall_mem_nodes, hcontent]
    simpa using hb.formed.root
  refine ⟨hformed, fun hobservers n hn => ?_⟩
  cases n with
  | element tag as content selfClosing hooks =>
    have helement : .element tag as content selfClosing hooks ∈ t.elements :=
      List.mem_filter.2 ⟨hn, rfl⟩
    obtain rfl | rfl := hobservers
    · exact ne_nil_of_mem_elements hstrict Observers.settle_default
        (fun tag _ => Hook.guarded_ne_nil tag) h helement
    · exact ne_nil_of_mem_elements hstrict Observers.settle_empty (fun _ _ hne => hne) h helement
  | view | dynamicView => exact fun heq => (hformed _ hn).element (Option.some.inj heq)
  | _ => simp [Node.hooks?]

/-- A view with an attribute that has branches, array children and a child that is a view of its
own, read as the content of another view. -/
theorem formed_menu :
    let view (name : String) (tag : String) : View :=
      ⟨name, "", .null, .null, [.text tag], [], [("item", "items")], none⟩
    let scene : Scene :=
      ⟨some (view "page" "x-page"),
        (Registry.empty.insert (view "menu" "x-menu")).insert (view "icon" "x-icon"), true, .passive⟩
    let source := "<x-menu title=\"\x7b\x7bif a\x7d\x7dA\x7b\x7belse\x7d\x7dB\x7b\x7b/if\x7d\x7d\"" ++
      " as=\"m\"><item as=\"i\"><br>\x7b\x7blabel\x7d\x7d</item><view name=\"icon\"/></x-menu>"
    ∃ t : Template, t.IsReadFrom scene .default source ∧
      t.nodes.map Node.className =
        ["VIEW_POINTER", "CONDITIONAL_BLOCK", "TEXT", "TEXT", "ELEMENT", "DYNAMIC_TEXT",
          "VIEW_POINTER"] ∧
      ∀ n ∈ t.nodes, n.Formed scene ∧ n.hooks? ≠ some (some []) := by
  intro view scene source
  have hrun : ((Builder.start .default).run (Build.markup scene source)).1.toOption.map
      (fun t => t.nodes.map Node.className) =
        some ["VIEW_POINTER", "CONDITIONAL_BLOCK", "TEXT", "TEXT", "ELEMENT", "DYNAMIC_TEXT",
          "VIEW_POINTER"] := by
    decide +kernel
  obtain ⟨t, ht, hnodes⟩ := exists_of_toOption_map hrun
  have hread : t.IsReadFrom scene .default source := .inl ht
  obtain ⟨hformed, hhooks⟩ := formed_of_isReadFrom rfl hread
  exact ⟨t, hread, hnodes, fun n hn => ⟨hformed n hn, hhooks (.inl rfl) n hn⟩⟩

end

end Stencil
