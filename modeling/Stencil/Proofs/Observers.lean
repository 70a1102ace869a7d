import Stencil.Proofs.Building

/-!
# Which observers run, and in which order

Observers are registered and removed by calls. A ledger of the calls lists the registrations that
stand, in the order in which they were made; a removal strikes out the registration of the observer
that would run first. After any calls the observers of an event are those of the ledger, by priority
and, within one priority, by registration. An event runs exactly these, one after the other until
one of them fails, whatever they do to the observers meanwhile.
-/

namespace Stencil

/-! ## The running order -/

namespace Registration

/-- By priority, then by order of registration. -/
def Precedes (a b : Registration) : Prop :=
  a.priority < b.priority ∨ a.priority = b.priority ∧ a.order < b.order

instance (a b : Registration) : Decidable (a.Precedes b) :=
  inferInstanceAs (Decidable (_ ∨ _ ∧ _))

/-- No two registrations are each called before the other. -/
theorem Precedes.asymm {a b : Registration} (h : a.Precedes b) : ¬ b.Precedes a := by
  unfold Precedes at *
  omega

/-- Inserting a registration adds it and keeps all others. -/
theorem insert_perm (r : Registration) (rs : List Registration) :
    (insert r rs).Perm (r :: rs) := by
  induction rs with
  | nil => exact .refl _
  | cons x xs ih =>
    rw [insert]
    split
    · exact (ih.cons x).trans (.swap r x xs)
    · exact .refl _

/-- A registration that is made later than those in the list goes behind all that have its
priority. -/
theorem pairwise_insert {r : Registration} {rs : List Registration}
    (h : rs.Pairwise Precedes) (hlater : ∀ x ∈ rs, x.order < r.order) :
    (insert r rs).Pairwise Precedes := by
  induction rs with
  | nil => exact List.pairwise_singleton _ _
  | cons x xs ih =>
    obtain ⟨hx, hxs⟩ := List.pairwise_cons.1 h
    obtain ⟨hlaterx, hlaterxs⟩ := List.forall_mem_cons.1 hlater
    rw [insert]
    split
    · rename_i hbefore
      refine List.pairwise_cons.2 ⟨fun y hy => ?_, ih hxs hlaterxs⟩
      obtain rfl | hy := List.mem_cons.1 ((insert_perm r xs).mem_iff.1 hy)
      · simp only [before, Bool.or_eq_true, Bool.and_eq_true, decide_eq_true_eq,
          beq_iff_eq] at hbefore
        unfold Precedes
        omega
      · exact hx y hy
    · rename_i hbefore
      have hfirst : r.priority < x.priority := by
        simp only [before, Bool.or_eq_true, Bool.and_eq_true, decide_eq_true_eq,
          beq_iff_eq] at hbefore
        omega
      refine List.pairwise_cons.2 ⟨fun y hy => ?_, h⟩
      obtain rfl | hy := List.mem_cons.1 hy
      · exact .inl hfirst
      · have hxy := hx y hy
        unfold Precedes at *
        omega

end Registration

namespace Observers

/-- Removing an observer takes away its first registration in calling order, if it has one. -/
theorem removeFirst_eq (o : Observer) (rs : List Registration) :
    removeFirst o rs = (rs.find? fun r => r.observer = o).map rs.erase := by
  induction rs with
  | nil => rfl
  | cons r rs ih =>
    by_cases hr : r.observer = o
    · simp [removeFirst, hr]
    · rw [removeFirst, if_neg hr, ih, List.find?_cons_of_neg (by simpa using hr), Option.map_map]
      refine Option.map_congr fun x hx => ?_
      have hxr : r ≠ x := fun heq => hr (heq ▸ by simpa using List.find?_some hx)
      rw [Function.comp_apply, List.erase_cons_tail (by simpa using hxr)]

/-! ## Calls and their ledger -/

/-- A call that changes the observers. -/
inductive Call where
  | on (event : String) (o : Observer) (priority : Int)
  | remove (event : String) (o : Observer)

def run (os : Observers) : Call → Observers
  | .on event o priority => os.on event o priority
  | .remove event o => (os.remove event o).2

def runAll (os : Observers) (calls : List Call) : Observers :=
  calls.foldl run os

/-- The registrations for an event in a list of registrations with their events. -/
def registrationsFor (event : String) (rs : List (String × Registration)) : List Registration :=
  (rs.filter (·.1 = event)).map Prod.snd

/-- What calls come to: the registrations that stand, oldest first, and how many were made and how
many were taken away. -/
structure Ledger where
  standing : List (String × Registration)
  made : Nat
  removed : Nat

namespace Ledger

def handlers (l : Ledger) (event : String) : List Registration :=
  registrationsFor event l.standing

/-- Of the registrations of an observer for an event the one that no other one precedes. -/
def first? (l : Ledger) (event : String) (o : Observer) : Option Registration :=
  (l.handlers event).find? fun r =>
    r.observer = o ∧ ∀ r' ∈ l.handlers event, r'.observer = o → ¬ r'.Precedes r

/-- Writes a call down. -/
def record (l : Ledger) : Call → Ledger
  | .on event o priority =>
    ⟨l.standing ++ [(event, ⟨o, priority, l.made + 1⟩)], l.made + 1, l.removed⟩
  | .remove event o =>
    match l.first? event o with
    | some r => ⟨l.standing.erase (event, r), l.made, l.removed + 1⟩
    | none => l

def ofCalls (calls : List Call) : Ledger :=
  calls.foldl record ⟨[], 0, 0⟩

end Ledger

/-! ## Observers and their ledger -/

variable {os : Observers} {l : Ledger} {event : String}

theorem registrationsFor_perm {rs rs' : List (String × Registration)} (h : rs.Perm rs')
    (event : String) : (registrationsFor event rs).Perm (registrationsFor event rs') :=
  (h.filter _).map _

theorem registrationsFor_cons_self (r : Registration) (rs : List (String × Registration)) :
    registrationsFor event ((event, r) :: rs) = r :: registrationsFor event rs := by
  simp [registrationsFor]

theorem registrationsFor_cons_of_ne {event' : String} (h : event' ≠ event) (r : Registration)
    (rs : List (String × Registration)) :
    registrationsFor event ((event', r) :: rs) = registrationsFor event rs := by
  simp [registrationsFor, h]

theorem mem_registrationsFor {rs : List (String × Registration)} {r : Registration} :
    r ∈ registrationsFor event rs ↔ (event, r) ∈ rs := by
  simp [registrationsFor]

/-- The size counts the registrations of every event. -/
theorem size_eq_length (os : Observers) : os.size = (os.events.flatMap (·.2)).length := by
  have hfold : ∀ (es : Entries (List Registration)) (n : Nat),
      es.foldl (fun n e => n + e.2.length) n = n + (es.flatMap (·.2)).length := by
    intro es
    induction es with
    | nil => simp
    | cons e es ih => simp [ih, Nat.add_assoc]
  rw [size, hfold, Nat.zero_add]

/-- Writing the observers of an event makes the difference of the two lists. -/
theorem size_set (os : Observers) (event : String) (rs : List Registration) (n : Nat) :
    (⟨Entries.set event rs os.events, n⟩ : Observers).size + (os.handlers event).length =
      os.size + rs.length := by
  simp only [size_eq_length, handlers]
  induction os.events with
  | nil => simp [Entries.set]
  | cons e es ih =>
    obtain ⟨k, xs⟩ := e
    by_cases hk : k = event
    · simp only [Entries.set, Entries.get?, if_pos hk, List.flatMap_cons, List.length_append,
        Option.getD_some]
      omega
    · simp only [Entries.set, Entries.get?, if_neg hk, List.flatMap_cons,
        List.length_append] at ih ⊢
      omega

/-- The observers are those of the ledger, each event's in the running order. -/
structure Tracks (os : Observers) (l : Ledger) : Prop where
  perm : ∀ event, (os.handlers event).Perm (l.handlers event)
  sorted : ∀ event, (os.handlers event).Pairwise Registration.Precedes
  counter : os.counter = l.made
  order_le : ∀ x ∈ l.standing, x.2.order ≤ l.made
  size : os.size = l.standing.length
  balance : l.standing.length + l.removed = l.made

namespace Tracks

theorem empty : Tracks empty (.ofCalls []) where
  perm _ := .refl _
  sorted _ := .nil
  counter := rfl
  order_le := List.forall_mem_nil _
  size := rfl
  balance := rfl

/-- Of the registrations of an observer the first in the running order is preceded by no other one.
Any other registration of the observer comes later. -/
theorem first?_eq (h : Tracks os l) (event : String) (o : Observer) :
    l.first? event o = (os.handlers event).find? fun r => r.observer = o := by
  have hmem : ∀ r, r ∈ l.handlers event ↔ r ∈ os.handlers event :=
    fun r => (h.perm event).symm.mem_iff
  cases hfound : (os.handlers event).find? fun r => r.observer = o with
  | none =>
    refine List.find?_eq_none.2 fun r hr hpred => ?_
    have hother := List.find?_eq_none.1 hfound r ((hmem r).1 hr)
    simp_all
  | some r =>
    obtain ⟨hobserver, before, after, hsplit, hbefore⟩ := List.find?_eq_some_iff_append.1 hfound
    have hsorted := h.sorted event
    rw [hsplit] at hsorted
    have hafter : ∀ r' ∈ after, r.Precedes r' :=
      (List.pairwise_cons.1 (List.pairwise_append.1 hsorted).2.1).1
    have hothers : ∀ r' ∈ l.handlers event, r'.observer = o → r' = r ∨ r.Precedes r' := by
      intro r' hr' ho
      rw [hmem, hsplit, List.mem_append, List.mem_cons] at hr'
      obtain hr' | rfl | hr' := hr'
      · have hne := hbefore r' hr'
        simp [ho] at hne
      · exact .inl rfl
      · exact .inr (hafter r' hr')
    have hr : r ∈ l.handlers event := (hmem r).2 (List.mem_of_find?_eq_some hfound)
    have hleast : ∀ r' ∈ l.handlers event, r'.observer = o → ¬ r'.Precedes r := by
      intro r' hr' ho hprecedes
      obtain rfl | hlater := hothers r' hr' ho
      · exact hprecedes.asymm hprecedes
      · exact hlater.asymm hprecedes
    cases hfirst : l.first? event o with
    | none =>
      have hnone := List.find?_eq_none.1 hfirst r hr
      simp only [decide_eq_true_eq] at hnone hobserver
      exact absurd ⟨hobserver, hleast⟩ hnone
    | some r' =>
      have hr' : r' ∈ l.handlers event := List.mem_of_find?_eq_some hfirst
      have hpred := List.find?_some hfirst
      simp only [decide_eq_true_eq] at hpred hobserver
      obtain rfl | hlater := hothers r' hr' hpred.1
      · rfl
      · exact absurd hlater (hpred.2 r hr hobserver)

/-- A removal answers whether the observer was registered, and takes away the registration the log
names. -/
theorem remove_eq (h : Tracks os l) (event : String) (o : Observer) :
    os.remove event o =
      match l.first? event o with
      | some r => (true, ⟨Entries.set event ((os.handlers event).erase r) os.events, os.counter⟩)
      | none => (false, os) := by
  rw [remove, removeFirst_eq, h.first?_eq]
  cases (os.handlers event).find? fun r => r.observer = o <;> rfl

theorem handlers_set (os : Observers) (event : String) (rs : List Registration) (n : Nat) :
    (⟨Entries.set event rs os.events, n⟩ : Observers).handlers event = rs := by
  simp [handlers]

theorem handlers_set_of_ne (os : Observers) {event event' : String} (h : event ≠ event')
    (rs : List Registration) (n : Nat) :
    (⟨Entries.set event rs os.events, n⟩ : Observers).handlers event' = os.handlers event' := by
  simp [handlers, Entries.get?_set_of_ne h]

/-- A registration keeps the handlers in step with the log of calls. -/
theorem on (h : Tracks os l) (event : String) (o : Observer) (priority : Int) :
    Tracks (os.on event o priority) (l.record (.on event o priority)) := by
  have hrecorded : (l.record (.on event o priority)).standing.Perm
      ((event, ⟨o, priority, l.made + 1⟩) :: l.standing) :=
    List.perm_append_singleton _ _
  have hlater : ∀ r ∈ os.handlers event, r.order < l.made + 1 := fun r hr =>
    Nat.lt_succ_of_le (h.order_le (event, r) (mem_registrationsFor.1 ((h.perm event).mem_iff.1 hr)))
  have hcounter : os.counter + 1 = l.made + 1 := congrArg (· + 1) h.counter
  rw [Observers.on, hcounter]
  refine ⟨fun e => ?_, fun e => ?_, rfl, fun x hx => ?_, ?_, ?_⟩
  · have hlisted := registrationsFor_perm hrecorded e
    by_cases he : event = e
    · subst he
      rw [registrationsFor_cons_self] at hlisted
      rw [handlers_set]
      exact (Registration.insert_perm _ _).trans (((h.perm event).cons _).trans hlisted.symm)
    · rw [registrationsFor_cons_of_ne he] at hlisted
      rw [handlers_set_of_ne os he]
      exact (h.perm e).trans hlisted.symm
  · by_cases he : event = e
    · subst he
      rw [handlers_set]
      exact Registration.pairwise_insert (h.sorted event) hlater
    · rw [handlers_set_of_ne os he]
      exact h.sorted e
  · obtain rfl | hx := List.mem_cons.1 (hrecorded.mem_iff.1 hx)
    · exact Nat.le_refl _
    · exact Nat.le_succ_of_le (h.order_le x hx)
  · have hsize := size_set os event
      (Registration.insert ⟨o, priority, l.made + 1⟩ (os.handlers event)) (l.made + 1)
    have hlength := (Registration.insert_perm ⟨o, priority, l.made + 1⟩
      (os.handlers event)).length_eq
    have hstanding := hrecorded.length_eq
    have hbefore := h.size
    simp only [List.length_cons] at hlength hstanding
    omega
  · have hstanding := hrecorded.length_eq
    have hbalance := h.balance
    simp only [Ledger.record, List.length_cons] at hstanding ⊢
    omega

/-- A removal keeps the handlers in step with the log of calls. -/
theorem remove (h : Tracks os l) (event : String) (o : Observer) :
    Tracks (os.remove event o).2 (l.record (.remove event o)) := by
  rw [h.remove_eq, Ledger.record]
  cases hfirst : l.first? event o with
  | none => exact h
  | some r =>
    have hr : r ∈ l.handlers event := List.mem_of_find?_eq_some hfirst
    have hstanding : l.standing.Perm ((event, r) :: l.standing.erase (event, r)) :=
      List.perm_cons_erase (mem_registrationsFor.1 hr)
    have hhandlers : (os.handlers event).Perm (r :: (os.handlers event).erase r) :=
      List.perm_cons_erase ((h.perm event).mem_iff.2 hr)
    refine ⟨fun e => ?_, fun e => ?_, h.counter, fun x hx => ?_, ?_, ?_⟩
    · have hlisted := registrationsFor_perm hstanding e
      by_cases he : event = e
      · subst he
        rw [registrationsFor_cons_self] at hlisted
        rw [handlers_set]
        exact (hhandlers.symm.trans ((h.perm event).trans hlisted)).cons_inv
      · rw [registrationsFor_cons_of_ne he] at hlisted
        rw [handlers_set_of_ne os he]
        exact (h.perm e).trans hlisted
    · by_cases he : event = e
      · subst he
        rw [handlers_set]
        exact (h.sorted event).sublist List.erase_sublist
      · rw [handlers_set_of_ne os he]
        exact h.sorted e
    · exact h.order_le x (List.mem_of_mem_erase hx)
    · have hsize := size_set os event ((os.handlers event).erase r) os.counter
      have hlength := hhandlers.length_eq
      have hcount := hstanding.length_eq
      have hbefore := h.size
      simp only [List.length_cons] at hlength hcount
      dsimp only
      omega
    · have hcount := hstanding.length_eq
      have hbalance := h.balance
      simp only [List.length_cons] at hcount
      dsimp only
      omega

/-- What one call preserves. -/
theorem run (h : Tracks os l) (c : Call) : Tracks (os.run c) (l.record c) := by
  cases c with
  | on event o priority => exact h.on event o priority
  | remove event o => exact h.remove event o

/-- What all calls preserve. -/
theorem runAll (h : Tracks os l) (calls : List Call) :
    Tracks (os.runAll calls) (calls.foldl Ledger.record l) := by
  induction calls generalizing os l with
  | nil => exact h
  | cons c calls ih => exact ih (h.run c)

end Tracks

/-! ## Running the observers of an event -/

/-- The callbacks run one after the other, from a builder to a result, until one of them fails. -/
inductive Runs (act : Observer → Build Unit) :
    List Observer → Builder → Except Error Unit × Builder → Prop
  | done (b : Builder) : Runs act [] b (.ok (), b)
  | next {o : Observer} {rest : List Observer} {b b' : Builder}
      {result : Except Error Unit × Builder} :
      b.run (act o) = (.ok (), b') → Runs act rest b' result → Runs act (o :: rest) b result
  | failed {o : Observer} (rest : List Observer) {b b' : Builder} {e : Error} :
      b.run (act o) = (.error e, b') → Runs act (o :: rest) b (.error e, b')

variable {act : Observer → Build Unit}

/-- Calling the observers one by one is a run over them, in their order. -/
theorem runs_forM (act : Observer → Build Unit) (rs : List Registration) (b : Builder) :
    Runs act (rs.map (·.observer)) b (b.run (rs.forM fun r => act r.observer)) := by
  induction rs generalizing b with
  | nil => exact .done b
  | cons r rs ih =>
    rw [Builder.run_forM_cons, Builder.run_bind, List.map_cons]
    cases hrun : b.run (act r.observer) with
    | mk result b' =>
      cases result with
      | ok u => exact .next hrun (ih b')
      | error e => exact .failed _ hrun

/-- An event calls the observers that were registered when it was emitted, in their order. -/
theorem runs_emit (act : Observer → Build Unit) (event : String) (b : Builder) :
    Runs act ((b.observers.handlers event).map (·.observer)) b (b.run (Build.emit event act)) := by
  rw [Build.emit, Builder.run_bind_of_ok (Builder.run_get b)]
  exact runs_forM act _ b

/-- However observers are registered and removed, an event runs exactly those that stand, each once
for each of its registrations, by priority and then by registration, unless one of them fails, which
ends the event; a removal takes away the first one in this order. The number of observers is that
of the registrations less that of the removals that found one. -/
theorem emit_runAll (calls : List Call) :
    let os := empty.runAll calls
    let l := Ledger.ofCalls calls
    (∀ event, (os.handlers event).Perm (l.handlers event) ∧
      (os.handlers event).Pairwise Registration.Precedes ∧
      ∀ (act : Observer → Build Unit) (b : Builder),
        Runs act ((os.handlers event).map (·.observer)) { b with observers := os }
          (({ b with observers := os } : Builder).run (Build.emit event act))) ∧
    (∀ event o, (os.remove event o).1 = (l.first? event o).isSome) ∧
    os.size + l.removed = l.made := by
  intro os l
  have h : Tracks os l := Tracks.empty.runAll calls
  refine ⟨fun event => ⟨h.perm event, h.sorted event, fun act b => ?_⟩, fun event o => ?_, ?_⟩
  · exact runs_emit act event { b with observers := os }
  · rw [h.remove_eq]
    cases l.first? event o <;> rfl
  · rw [h.size]
    exact h.balance

def name? : Observer → Option String
  | .preventSubmit => none
  | .named name => some name

/-- An observer that fails keeps the later ones from running. -/
theorem not_forall_marks :
    ¬ ∀ (scene : Scene) (calls : List Call) (tag : String) (b : Builder),
      b.observers = empty.runAll calls →
      (∃ (s : Stack) (as : Attributes) (content : Option (List Node)) (selfClosing : Bool)
        (hooks : Option (List Hook)),
          b.stack = s.push (.element tag as content selfClosing hooks)) →
      (b.run (Build.observe scene tag)).2.marks.map (·.name) = b.marks.map (·.name) ++
        (b.observers.handlers ("element:" ++ tag)).filterMap (name? ·.observer) := by
  intro h
  let react : Reactions := fun mark _ os =>
    ⟨mark.hooks, os, if mark.name = "a" then some (.of (.reported .value "x")) else none⟩
  let calls : List Call := [.on "element:p" (.named "a") 50, .on "element:p" (.named "b") 50]
  let b : Builder := { Builder.start (empty.runAll calls) with
    stack := Stack.empty.push (.element "p" [] (some []) false none) }
  have hmarks := h ⟨none, .empty, true, react⟩ calls "p" b rfl ⟨.empty, [], some [], false, none, rfl⟩
  exact absurd hmarks (by decide)

end Observers

end Stencil
