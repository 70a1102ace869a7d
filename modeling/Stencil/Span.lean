import Stencil.Braces
import Stencil.Directive.Reading

/-!
# Spans of a text

A text is a sequence of literal spans and of directives between double braces. The end of a
directive is found by counting braces, so it may hold balanced braces of its own; an empty one
leaves no span. A reading that fails still tells the spans before the failure.
-/

namespace Stencil

inductive Span where
  | literal (text : String)
  | directive (d : Directive)
deriving Repr

namespace Span

/-- The text before the first double opening brace, and the text after it. -/
def opening? (cs : List Char) : Option (List Char × List Char) :=
  (Text.splitAtFirst? ['{', '{'] cs).map fun (before, rest) => (before, rest.drop 2)

def inner (region : List Char) : List Char :=
  region.take (region.length - 2)

def literals (cs : List Char) : List Span :=
  if cs.isEmpty then [] else [.literal (String.ofList cs)]

theorem opening?_length {cs before rest : List Char} (h : opening? cs = some (before, rest)) :
    rest.length ≤ cs.length := by
  obtain ⟨⟨b, r⟩, hb, he⟩ := Option.map_eq_some_iff.1 h
  simp only [Prod.mk.injEq] at he
  have := congrArg List.length (Text.splitWhere?_append hb)
  rw [List.length_append] at this
  rw [← he.2, List.length_drop]
  omega

/-- The first spans of a text: the literal before the first region, the region's own text, and
what follows it. -/
inductive Step where
  | finished
  | literal (cs : List Char)
  | region (before inside rest : List Char)
  | unbalanced

def step (cs : List Char) : Step :=
  if cs.isEmpty then .finished
  else match opening? cs with
    | none => .literal cs
    | some (before, after) =>
      match Braces.split? after with
      | none => .unbalanced
      | some (region, rest) => .region before (inner region) rest

/-- A region takes at least its braces, so a scan comes to an end. -/
theorem step_region_length {cs before inside rest : List Char}
    (h : step cs = .region before inside rest) : rest.length < cs.length := by
  simp only [step] at h
  split at h
  · simp at h
  · split at h
    · simp at h
    · rename_i ho
      split at h
      · simp at h
      · rename_i hs
        simp only [Step.region.injEq] at h
        have h₁ := Braces.split?_length hs
        have h₂ := opening?_length ho
        rw [← h.2.2]
        omega

/-- The spans of a text up to its end or to the failure that stopped the reading. -/
structure Scan where
  spans : List Span
  failure? : Option Error
deriving Repr

def Scan.prepend (spans : List Span) (s : Scan) : Scan :=
  { s with spans := spans ++ s.spans }

set_option linter.unusedVariables false in
def scanFrom (text : String) (cs : List Char) : Scan :=
  match h : step cs with
  | .finished => ⟨[], none⟩
  | .literal cs => ⟨[.literal (String.ofList cs)], none⟩
  | .unbalanced => ⟨[], some (.of (.unbalancedBraces text))⟩
  | .region before inside rest =>
    if inside.isEmpty then (scanFrom text rest).prepend (literals before)
    else match Directive.read (String.ofList inside) with
      | .error e => ⟨literals before, some e⟩
      | .ok d => (scanFrom text rest).prepend (literals before ++ [.directive d])
termination_by cs.length
decreasing_by all_goals exact step_region_length h

set_option linter.unusedVariables false in
/-- The spans of `cs`, a tail of `text` that is scanned after the tail `last?`. A tail that comes
back would be scanned for ever, so it is refused. -/
def scanAfter (text : String) (last? : Option (List Char)) (cs : List Char) : Scan :=
  if last? = some cs then ⟨[], some (.of (.stalledText text))⟩
  else match h : step cs with
    | .finished => ⟨[], none⟩
    | .literal cs => ⟨[.literal (String.ofList cs)], none⟩
    | .unbalanced => ⟨[], some (.of (.unbalancedBraces text))⟩
    | .region before inside rest =>
      if inside.isEmpty then (scanAfter text (some cs) rest).prepend (literals before)
      else match Directive.read (String.ofList inside) with
        | .error e => ⟨literals before, some e⟩
        | .ok d => (scanAfter text (some cs) rest).prepend (literals before ++ [.directive d])
termination_by cs.length
decreasing_by all_goals exact step_region_length h

def scan (text : String) : Scan :=
  scanAfter text none text.toList

/-- A step at a time, without the proof that the text gets shorter. -/
theorem scanFrom_eq (text : String) (cs : List Char) : scanFrom text cs =
    match step cs with
    | .finished => ⟨[], none⟩
    | .literal cs => ⟨[.literal (String.ofList cs)], none⟩
    | .unbalanced => ⟨[], some (.of (.unbalancedBraces text))⟩
    | .region before inside rest =>
      if inside.isEmpty then (scanFrom text rest).prepend (literals before)
      else match Directive.read (String.ofList inside) with
        | .error e => ⟨literals before, some e⟩
        | .ok d => (scanFrom text rest).prepend (literals before ++ [.directive d]) := by
  rw [scanFrom]
  split <;> rename_i hstep <;> rw [hstep]

/-- Every tail is shorter than the one before it, so none comes back. -/
theorem scanAfter_eq {text : String} {last? : Option (List Char)} {cs : List Char}
    (h : ∀ last ∈ last?, cs.length < last.length) : scanAfter text last? cs = scanFrom text cs := by
  have hnew : last? ≠ some cs := fun heq => Nat.lt_irrefl _ (h cs heq)
  rw [scanAfter, if_neg hnew, scanFrom]
  split
  · rfl
  · rfl
  · rfl
  · rename_i before inside rest hstep
    have hshorter := step_region_length hstep
    have hrest : scanAfter text (some cs) rest = scanFrom text rest :=
      scanAfter_eq (by simpa using hshorter)
    rw [hrest]
termination_by cs.length
decreasing_by exact hshorter

theorem scan_eq (text : String) : scan text = scanFrom text text.toList :=
  scanAfter_eq (by simp)

def dump : Span → Value
  | .literal s => .list [.text "literal", .text s]
  | .directive d => .list [.text "expression", d.dump]

end Span

end Stencil
