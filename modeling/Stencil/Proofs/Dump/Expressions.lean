import Stencil.Directive.Reading

/-!
# Expressions from their dumps

`Expr.ofDump?` and `Term.ofDump?` read a dump back. They look their parts up by name, so a dump may
have further fields; that is how a directive is told from an expression: its header stands beside
the parts of the expression.

The header of a value does not tell its words in their order, but its source does. So a directive
comes back from its dump if its words are those of its source, as they are in every directive that
is read.
-/

namespace Stencil

/-! ## Looking up parts -/

theorem Entries.get?_append {α : Type} (k : String) (es es' : Entries α) :
    get? k (es ++ es') = (get? k es).or (get? k es') := by
  induction es with
  | nil => simp
  | cons p es ih =>
    obtain ⟨k', v⟩ := p
    by_cases h : k' = k <;> simp [get?, h, ih]

theorem Entries.sizeOf_lt_of_get? {k : String} {fs : Entries Value} {v : Value}
    (h : get? k fs = some v) : sizeOf v < sizeOf fs := by
  induction fs with
  | nil => cases h
  | cons p fs ih =>
    obtain ⟨k', w⟩ := p
    rw [get?] at h
    split at h
    · cases h
      simp
      omega
    · have := ih h
      simp
      omega

namespace Value

theorem sizeOf_lt_of_field? {v w : Value} {k : String} (h : v.field? k = some w) :
    sizeOf w < sizeOf v := by
  cases v with
  | object fs =>
    have := Entries.sizeOf_lt_of_get? h
    simp
    omega
  | _ => cases h

/-- Reads the field of this name by a function that is told that the field is smaller. -/
def readAt {β : Type} (v : Value) (k : String) (f : ∀ w : Value, sizeOf w < sizeOf v → Option β) :
    Option β :=
  match h : v.field? k with
  | some w => f w (sizeOf_lt_of_field? h)
  | none => none

def readIf {β : Type} (f : Value → Option β) : Option Value → Option (Option β)
  | some w => (f w).map some
  | none => some none

/-- Reads the field of this name if there is one. -/
def readAt? {β : Type} (v : Value) (k : String)
    (f : ∀ w : Value, sizeOf w < sizeOf v → Option β) : Option (Option β) :=
  match h : v.field? k with
  | some w => (f w (sizeOf_lt_of_field? h)).map some
  | none => some none

@[simp]
theorem readAt_eq {β : Type} (v : Value) (k : String) (f : Value → Option β) :
    (v.readAt k fun w _ => f w) = (v.field? k).bind f := by
  rw [readAt]
  split <;> simp_all

@[simp]
theorem readAt?_eq {β : Type} (v : Value) (k : String) (f : Value → Option β) :
    (v.readAt? k fun w _ => f w) = readIf f (v.field? k) := by
  rw [readAt?]
  split <;> simp_all [readIf]

/-- What is left out is read as missing. -/
theorem readIf_map {α : Type} {f : Value → Option α} {g : α → Value} {o : Option α}
    (h : ∀ a ∈ o, f (g a) = some a) : readIf f (o.map g) = some o := by
  cases o with
  | none => rfl
  | some a => simp [readIf, h a rfl]

def extended (more : List (String × Value)) : Value → Value
  | .object fs => .object (fs ++ more)
  | v => v

def asText? : Value → Option String
  | .text s => some s
  | _ => none

def asTexts? : Value → Option (List String)
  | .list vs => vs.mapM asText?
  | _ => none

def textAt? (v : Value) (k : String) : Option String :=
  (v.field? k).bind asText?

def textsAt? (v : Value) (k : String) : Option (List String) :=
  (v.field? k).bind asTexts?

section

variable (k k' : String) (v : Value) (fs more : List (String × Value))

@[simp]
theorem extended_object : (object fs).extended more = .object (fs ++ more) := rfl

@[simp]
theorem extended_nil : v.extended [] = v := by
  cases v <;> simp [extended]

@[simp]
theorem field?_nil : (object []).field? k = none := rfl

@[simp]
theorem field?_cons :
    (object ((k', v) :: fs)).field? k = if k' = k then some v else (object fs).field? k := rfl

theorem field?_append :
    (object (fs ++ more)).field? k = ((object fs).field? k).or ((object more).field? k) :=
  Entries.get?_append k fs more

@[simp]
theorem textAt?_nil : (object []).textAt? k = none := rfl

@[simp]
theorem textAt?_cons :
    (object ((k', v) :: fs)).textAt? k = if k' = k then v.asText? else (object fs).textAt? k := by
  rw [textAt?, field?_cons]
  split <;> rfl

@[simp]
theorem textsAt?_cons :
    (object ((k', v) :: fs)).textsAt? k =
      if k' = k then v.asTexts? else (object fs).textsAt? k := by
  rw [textsAt?, field?_cons]
  split <;> rfl

end

@[simp]
theorem asText?_text (s : String) : (text s).asText? = some s := rfl

@[simp]
theorem asTexts?_texts (ss : List String) : (Expr.texts ss).asTexts? = some ss := by
  rw [Expr.texts, asTexts?]
  induction ss with
  | nil => rfl
  | cons s ss ih =>
    rw [List.map_cons, List.mapM_cons, ih]
    rfl

end Value

/-! ## Expressions -/

namespace Expr

def operator? (symbol : String) : Option Operator :=
  Operator.all.find? fun op => op.symbol == symbol

def membersOf? : List Expr → Option (List (String × Expr))
  | [] => some []
  | .literal (.text k) :: e :: es => (membersOf? es).map ((k, e) :: ·)
  | _ => none

/-- The expression that an operator makes of its operands. -/
def ofOperands? (name : String) (es : List Expr) : Option Expr :=
  if name = "[]" then some (.array es)
  else if name = "\x7b\x7d" then (membersOf? es).map .object
  else match es with
    | [e] => (operator? name).map fun op => .unary op e
    | [l, r] => (operator? name).map fun op => .binary op l r
    | [t, y, n] => if name = "?" then some (.choice t y n) else none
    | _ => none

mutual

def ofDump? (v : Value) : Option Expr :=
  match v.textAt? "type" with
  | some "LiteralExpression" => (v.field? "value").map .literal
  | some "PathExpression" => (v.textsAt? "segments").map .path
  | some "RelativePathExpression" => (v.textsAt? "segments").map .relative
  | some "AliasPathExpression" => do
    return .aliasPath (← v.textAt? "alias") (← v.textsAt? "segments")
  | some "AttributePathExpression" => do
    return .attributePath (← v.textAt? "attribute") (← v.textsAt? "segments")
  | some "BracketsExpression" => do
    let before ← v.readAt "before" fun w _ => ofDump? w
    let inside ← v.readAt "inside" fun w _ => ofDump? w
    return .brackets before inside (← v.textsAt? "after_segments")
  | some "FnExpression" => do
    let args ← v.readAt "args" fun w _ => itemsIn? w
    return .call (← v.textsAt? "segments") args (← v.textsAt? "after_segments")
  | some "OperatorExpression" => do
    let args ← v.readAt "args" fun w _ => itemsIn? w
    ofOperands? (← v.textAt? "name") args
  | some "SequenceExpression" => (v.readAt "args" fun w _ => itemsIn? w).map .sequence
  | _ => none
termination_by sizeOf v

def itemsIn? (v : Value) : Option (List Expr) :=
  match v with
  | .list vs => itemsOf? vs
  | _ => none
termination_by sizeOf v

def itemsOf? (vs : List Value) : Option (List Expr) :=
  match vs with
  | [] => some []
  | v :: vs => do return (← ofDump? v) :: (← itemsOf? vs)
termination_by sizeOf vs

end

theorem operator?_symbol (op : Operator) : operator? op.symbol = some op := by
  cases op <;> rfl

/-- No operator is spelled like an array or an object. -/
theorem symbol_ne (op : Operator) : op.symbol ≠ "[]" ∧ op.symbol ≠ "\x7b\x7d" := by
  cases op <;> decide

/-- The keys of a dumped object are read as constants. -/
def alternating : List (String × Expr) → List Expr
  | [] => []
  | (k, e) :: ms => .literal (.text k) :: e :: alternating ms

/-- Keys and values that were put in turn come apart again. -/
theorem membersOf?_alternating (ms : List (String × Expr)) :
    membersOf? (alternating ms) = some ms := by
  induction ms with
  | nil => rfl
  | cons m ms ih => simp [alternating, membersOf?, ih]

theorem itemsIn?_list (vs : List Value) : itemsIn? (.list vs) = itemsOf? vs := by
  rw [itemsIn?]

theorem itemsOf?_nil : itemsOf? [] = some [] := by
  rw [itemsOf?]

theorem itemsOf?_cons {v : Value} {vs : List Value} {e : Expr} {es : List Expr}
    (h : ofDump? v = some e) (hs : itemsOf? vs = some es) : itemsOf? (v :: vs) = some (e :: es) := by
  rw [itemsOf?, h, hs]
  rfl

theorem ofDump?_dumpKey (k : String) : ofDump? (dumpKey k) = some (.literal (.text k)) := by
  rw [ofDump?]
  simp [dumpKey]

mutual

/-- An expression comes back from its dump, whatever other fields the dump has. -/
theorem ofDump?_extended (e : Expr) (more : List (String × Value)) :
    ofDump? (e.dump.extended more) = some e := by
  rw [ofDump?]
  cases e with
  | literal | path | relative | aliasPath | attributePath => simp [dump]
  | brackets b i ss =>
    have hb := ofDump?_extended b []
    have hi := ofDump?_extended i []
    rw [Value.extended_nil] at hb hi
    simp [dump, hb, hi]
  | call f args ss => simp [dump, itemsIn?_list, itemsOf?_dumpItems args]
  | unary op e =>
    have he := ofDump?_extended e []
    rw [Value.extended_nil] at he
    simp [dump, dumpOperator, itemsIn?_list, itemsOf?_cons he itemsOf?_nil, ofOperands?,
      operator?_symbol, symbol_ne]
  | binary op l r =>
    have hl := ofDump?_extended l []
    have hr := ofDump?_extended r []
    rw [Value.extended_nil] at hl hr
    simp [dump, dumpOperator, itemsIn?_list, itemsOf?_cons hl (itemsOf?_cons hr itemsOf?_nil),
      ofOperands?, operator?_symbol, symbol_ne]
  | choice t y n =>
    have ht := ofDump?_extended t []
    have hy := ofDump?_extended y []
    have hn := ofDump?_extended n []
    rw [Value.extended_nil] at ht hy hn
    have hitems := itemsOf?_cons ht (itemsOf?_cons hy (itemsOf?_cons hn itemsOf?_nil))
    simp [dump, dumpOperator, itemsIn?_list, hitems, ofOperands?]
  | array es => simp [dump, dumpOperator, itemsIn?_list, itemsOf?_dumpItems es, ofOperands?]
  | object ms =>
    simp [dump, dumpOperator, itemsIn?_list, itemsOf?_dumpMembers ms, ofOperands?,
      membersOf?_alternating]
  | sequence es => simp [dump, itemsIn?_list, itemsOf?_dumpItems es]
termination_by structural e

/-- The items of a list come back in their order. -/
theorem itemsOf?_dumpItems (es : List Expr) : itemsOf? (dumpItems es) = some es := by
  cases es with
  | nil => exact itemsOf?_nil
  | cons e es =>
    have he := ofDump?_extended e []
    rw [Value.extended_nil] at he
    exact itemsOf?_cons he (itemsOf?_dumpItems es)
termination_by structural es

/-- So do the members of an object, keys among them. -/
theorem itemsOf?_dumpMembers (ms : List (String × Expr)) :
    itemsOf? (dumpMembers ms) = some (alternating ms) := by
  cases ms with
  | nil => exact itemsOf?_nil
  | cons m ms =>
    obtain ⟨k, e⟩ := m
    have he := ofDump?_extended e []
    rw [Value.extended_nil] at he
    exact itemsOf?_cons (ofDump?_dumpKey k) (itemsOf?_cons he (itemsOf?_dumpMembers ms))
termination_by structural ms

end

/-- Every expression comes back from its dump. -/
theorem ofDump?_dump (e : Expr) : ofDump? e.dump = some e := by
  simpa using ofDump?_extended e []

/-- The class of an expression is told by its dump, and that it has no header. -/
theorem fields_dump (e : Expr) (more : List (String × Value)) :
    (e.dump.extended more).textAt? "type" = some e.className ∧
      (e.dump.extended more).field? "meta" = (Value.object more).field? "meta" := by
  cases e <;> simp [dump, dumpOperator, className]

theorem className_ne (e : Expr) : e.className ≠ "Expression" ∧ e.className ≠ "TEMPLATE" := by
  cases e <;> simp [className]

end Expr

/-! ## Directives -/

def BlockWord.ofText? (word : String) : Option BlockWord :=
  [condition, negation, each, scope, unbound, bound].find? fun w => w.text == word

theorem BlockWord.ofText?_text (w : BlockWord) : ofText? w.text = some w := by
  cases w <;> rfl

/-- No word opens a block that continues one. -/
theorem BlockWord.text_ne (w : BlockWord) : w.text ≠ "else if" ∧ w.text ≠ "else" := by
  cases w <;> decide

namespace Directive

/-- The words in front of a value are those of the source. -/
def IsTold (d : Directive) : Prop :=
  ∀ ws, d.role = .shows ws → (valueWords d.source.toList).1 = ws

def roleOf? (header : Value) (source : String) : Option Role :=
  match header.textAt? "block_type" with
  | none => some (.shows (valueWords source.toList).1)
  | some word =>
    if (header.field? "is_end").isSome then some (.closes word)
    else if word = "else if" then some (.elseIf (header.textAt? "as_name"))
    else if word = "else" then some .otherwise
    else (BlockWord.ofText? word).map fun w => .opens w (header.textAt? "as_name")

def ofDump? (v : Value) : Option Directive := do
  let header ← v.field? "meta"
  let source ← header.textAt? "source"
  let role ← roleOf? header source
  if v.textAt? "type" = some "Expression" then some ⟨source, role, none⟩
  else (Expr.ofDump? v).map fun e => ⟨source, role, some e⟩

/-- A field that may be left out is there exactly if it has a value. -/
theorem field?_optional (k k' : String) (s : Option String) :
    (Value.object (optional k' s)).field? k = if k' = k then s.map .text else none := by
  cases s <;> simp [optional]

theorem field?_flag (k k' : String) (b : Bool) :
    (Value.object (flag k' b)).field? k = if k' = k ∧ b = true then some (.bool true) else none := by
  cases b <;> simp [flag]

section

variable (d : Directive)

theorem textAt?_header_source : d.header.textAt? "source" = some d.source := by
  simp [header]

/-- The header tells the word that opened the block. -/
theorem textAt?_header_block : d.header.textAt? "block_type" = d.role.blockWord? := by
  simp only [header, Value.textAt?, Value.field?_append, Value.field?_cons, field?_optional,
    field?_flag]
  cases d.role.blockWord? <;> simp

theorem textAt?_header_alias : d.header.textAt? "as_name" = d.role.alias? := by
  simp only [header, Value.textAt?, Value.field?_append, Value.field?_cons, field?_optional,
    field?_flag]
  cases d.role.alias? <;> simp

theorem isSome_header_end : (d.header.field? "is_end").isSome = d.role.isEnd := by
  simp only [header, Value.field?_append, Value.field?_cons, field?_optional, field?_flag]
  cases d.role.isEnd <;> simp

/-- A role comes back from the header, unless words in front of a value are not those of the source.
-/
theorem roleOf?_header (h : d.IsTold) : roleOf? d.header d.source = some d.role := by
  rw [roleOf?, textAt?_header_block, textAt?_header_alias, isSome_header_end]
  cases hrole : d.role with
  | opens w a => simp [Role.blockWord?, Role.alias?, Role.isEnd, BlockWord.text_ne,
      BlockWord.ofText?_text]
  | elseIf a => simp [Role.blockWord?, Role.alias?, Role.isEnd]
  | otherwise => simp [Role.blockWord?, Role.isEnd]
  | closes word => simp [Role.blockWord?, Role.isEnd]
  | shows ws => simp [Role.blockWord?, h ws hrole]

theorem dump_of_some {e : Expr} (h : d.expr? = some e) :
    d.dump = e.dump.extended [("meta", d.header)] := by
  rw [dump, h]
  cases e <;> rfl

/-- A directive comes back from its dump. -/
theorem ofDump?_dump (h : d.IsTold) : ofDump? d.dump = some d := by
  obtain ⟨source, role, expr?⟩ := d
  cases expr? with
  | none =>
    have hrole := roleOf?_header _ h
    have hsource := textAt?_header_source ⟨source, role, none⟩
    simp [ofDump?, dump, hsource, hrole]
  | some e =>
    have hrole := roleOf?_header _ h
    have hsource := textAt?_header_source ⟨source, role, some e⟩
    obtain ⟨htype, hmeta⟩ := e.fields_dump [("meta", header ⟨source, role, some e⟩)]
    rw [dump_of_some _ rfl]
    simp [ofDump?, htype, hmeta, hsource, hrole, e.className_ne, Expr.ofDump?_extended]

/-- The header of a directive is a field of its dump. -/
theorem field?_dump_meta : d.dump.field? "meta" = some d.header := by
  cases h : d.expr? with
  | none => simp [dump, h]
  | some e =>
    rw [d.dump_of_some h, (e.fields_dump _).2]
    simp

end

end Directive

/-! ## Terms -/

namespace Term

def IsTold : Term → Prop
  | .bare _ => True
  | .marked d => d.IsTold

/-- Reads a dumped term: one with a header is a directive. -/
def ofDump? (v : Value) : Option Term :=
  if (v.field? "meta").isSome then (Directive.ofDump? v).map .marked
  else (Expr.ofDump? v).map .bare

theorem ofDump?_dump {t : Term} (h : t.IsTold) : ofDump? t.dump = some t := by
  cases t with
  | bare e =>
    have hmeta := (e.fields_dump []).2
    rw [Value.extended_nil] at hmeta
    simp [ofDump?, dump, hmeta, Expr.ofDump?_dump]
  | marked d => simp [ofDump?, dump, d.field?_dump_meta, d.ofDump?_dump h]

/-- The dump of a term is not the one of a template. -/
theorem textAt?_dump_ne (t : Term) : t.dump.textAt? "type" ≠ some "TEMPLATE" := by
  cases t with
  | bare e =>
    have htype := (e.fields_dump []).1
    rw [Value.extended_nil] at htype
    rw [dump, htype]
    simpa using e.className_ne.2
  | marked d =>
    rw [dump]
    cases h : d.expr? with
    | none => simp [Directive.dump, h]
    | some e =>
      rw [d.dump_of_some h, (e.fields_dump _).1]
      simpa using e.className_ne.2

end Term

end Stencil
