import Stencil.Proofs.Directive.Values
import Stencil.Proofs.Expr.Arguments
import Stencil.Proofs.Expr.Braces
import Stencil.Proofs.Source.RoundTrip

/-!
# Views in a source

A view is asked for by an element or by a directive, each written from the name of the view and the
arguments. Both are read as they are written: the element as its tags, with a directive in the value
of every attribute but the name, and the directive with the object of the arguments.
-/

namespace Stencil

open Nesting

namespace Directive

/-! ## Plain values -/

/-- A text without words in front is its own expression. -/
theorem eq_of_classify {cs body : List Char} (h : classify cs = (.shows [], body)) : body = cs := by
  have hrole (word : String) (role : Option String → Role) (hmem : (word, role) ∈ headWords)
      (a : Option String) : role a ≠ .shows [] := by
    simp only [headWords, List.mem_cons, List.not_mem_nil, or_false, Prod.mk.injEq] at hmem
    obtain ⟨-, rfl⟩ | ⟨-, rfl⟩ | ⟨-, rfl⟩ | ⟨-, rfl⟩ | ⟨-, rfl⟩ := hmem <;> simp
  have hhead : head? cs = none := by
    rw [Option.eq_none_iff_forall_ne_some]
    rintro ⟨role, rest⟩ hhead
    have hclassify : (role, rest) = (.shows [], body) := by
      simpa only [classify, hhead] using h
    obtain ⟨⟨word, make⟩, hmem, hword⟩ := List.exists_of_findSome?_eq_some hhead
    dsimp only at hword
    split at hword
    · obtain ⟨rfl, -⟩ := Prod.mk.inj (Option.some.inj hword)
      exact hrole word make hmem _ (Prod.mk.inj hclassify).1
    · cases hword
  unfold classify at h
  rw [hhead] at h
  dsimp only at h
  split at h
  · cases h
  split at h
  · cases h
  split at h
  · cases h
  split at h
  · cases h
  · cases hword : valueWord? cs with
    | none =>
      rw [valueWords_of_none hword] at h
      exact (Prod.mk.inj h).2.symm
    | some found =>
      rw [valueWords_of_some hword] at h
      cases h

/-- A text that is read as a plain value is read as its expression. -/
theorem read_of_plain {s : String} {e : Expr} (h : Directive.read s = .ok ⟨s, .shows [], some e⟩) :
    s ≠ "" ∧ Expr.read s = .ok e := by
  simp only [Directive.read] at h
  generalize hclassify : classify (Text.trim s.toList) = parts at h
  obtain ⟨role, body⟩ := parts
  dsimp only at h
  split at h
  · rename_i e? hbody
    obtain ⟨hsource, rfl, rfl⟩ := Directive.mk.inj (Except.ok.inj h)
    obtain rfl := eq_of_classify hclassify
    rw [body?] at hbody
    split at hbody
    · cases hbody
    · rename_i hne
      rw [hsource] at hbody
      refine ⟨?_, ?_⟩
      · rintro rfl
        exact hne (by decide)
      · cases hread : Expr.read s with
        | error cause =>
          rw [hread] at hbody
          cases hbody
        | ok e' =>
          rw [hread] at hbody
          cases hbody
          rfl
  · cases h

/-- The word `view` in front of a name and what follows it. -/
theorem legible_view {body : String} {e : Expr} {cs : List Char} (hneat : Neat body.toList)
    (hquote : body.toList = '\'' :: cs) (hsolid : Piece.Solid body.toList)
    (hread : Expr.read body = .ok e) : Legible ⟨"view " ++ body, .shows [.view], some e⟩ := by
  have hne := hsolid.ne_nil
  have htrimmed := Text.trimmed_of_solid hsolid
  have hplain : valueWord? body.toList = none := by
    refine valueWord?_eq_none fun w c more _ => ?_
    rw [hquote]
    cases w <;> simp [ValueWord.text]
  have hsource : ("view " ++ body).toList = "view".toList ++ ([' '] ++ body.toList) := by simp
  have hfronted : Fronted body.toList [.view] ("view " ++ body).toList := by
    rw [hsource]
    exact .cons Text.areBlank_space (by simp) .nil
  have hword : Neat "view ".toList := neat_of_all (by decide)
  refine ⟨?_, ?_, ?_⟩
  · simpa using hword.append hneat
  · exact fun hempty => by simpa using congrArg String.toList hempty
  · have htrim : Text.trim ("view " ++ body).toList = ("view " ++ body).toList := by
      simpa using Text.trim_between (hfronted.trimmed hne htrimmed) Text.areBlank_nil
        Text.areBlank_nil
    have hclassify := classify_of_fronted hfronted (by simp) hne htrimmed hplain
    rw [← htrim] at hclassify
    have hread' : Expr.read (String.ofList body.toList) = .ok e := by rwa [String.ofList_toList]
    rw [read_of_ok hclassify hne hread', htrim, String.ofList_toList]

end Directive

/-- A printed expression is a plain value if it carries no keyword. -/
theorem Expr.Canonical.read_as_value {S : String → Prop} {e : Expr}
    (he : e.Canonical Token.Short S) (hword : e.hasKeyword = false) :
    Directive.read e.print = .ok ⟨e.print, .shows [], some e⟩ :=
  Directive.read_of_classify he.solid_print
    (Directive.classify_of_hasKeyword_eq_false he.solid_print hword) he

/-! ## Plain arguments -/

namespace Expr

theorem IsKey.isNameRest {name : String} (h : IsKey name) :
    ∀ c ∈ name.toList, Token.isNameRest c = true := by
  obtain h | ⟨n, -, h⟩ := h
  · exact isNameRest_of_isIdentifier h
  · rw [h]
    exact fun c hc => isNameRest_of_isDigit (Token.isDigit_toDigits n c hc)

theorem IsKey.ne_empty {name : String} (h : IsKey name) : name ≠ "" := by
  rintro rfl
  obtain h | ⟨n, -, h⟩ := h
  · cases h
  · exact Nat.toDigits_ne_nil h.symm

/-- The characters of a key can be written in the name of an attribute. -/
theorem IsKey.startsWrittenName {name : String} (h : IsKey name) :
    ∀ c ∈ name.toList, Markup.startsWrittenName c = true := by
  intro c hc
  have hname := h.isNameRest c hc
  have hascii := Token.toNat_lt_of_isNameRest hname
  revert hname
  refine Token.forall_ascii (P := fun c => Token.isNameRest c = true →
    Markup.startsWrittenName c = true) ?_ hascii
  decide +kernel

namespace Argument

def directive (a : Argument) : Directive :=
  ⟨a.text, .shows [], some a.expr⟩

/-- The text is a plain value, with none of the characters that mean something to markup and without
braces between quotes. -/
structure HasPlainValue (a : Argument) : Prop where
  read : Directive.read a.text = .ok a.directive
  single : ∀ es, a.expr ≠ .sequence es
  quiet : ∀ c ∈ a.text.toList, c ≠ '"' ∧ c ≠ '&' ∧ c ≠ '<'
  opener : '{' ∉ quoted a.text
  closer : '}' ∉ quoted a.text

/-- An argument that can be given in an attribute and in an object. -/
structure IsPlain (a : Argument) : Prop extends HasPlainValue a where
  key : IsKey a.name

variable {a : Argument}

theorem IsPlain.isRead (h : a.IsPlain) : a.IsRead :=
  ⟨h.key, (Directive.read_of_plain h.read).2, h.single⟩

theorem IsPlain.neat (h : a.IsPlain) : Neat a.text.toList where
  mild := mild_of_not_mem (fun hmem => (h.quiet _ hmem).2.2 rfl) fun hmem => (h.quiet _ hmem).2.1 rfl
  balanced := by
    obtain ⟨hexcess, hpeak⟩ := peak_of_read h.isRead.read h.opener h.closer
    exact balanced_of_peak hexcess hpeak
  quote := fun hmem => (h.quiet _ hmem).1 rfl

/-- The directive of a plain argument is read back from its source. -/
theorem IsPlain.legible (h : a.IsPlain) : a.directive.Legible :=
  ⟨h.neat, (Directive.read_of_plain h.read).1, h.read⟩

def given (a : Argument) : String × Value :=
  (a.name, .text ("\x7b\x7b" ++ a.text ++ "\x7d\x7d"))

theorem IsPlain.isAssigned (h : a.IsPlain) : Event.IsAssigned a.given := by
  refine ⟨⟨h.key.ne_empty, fun c hc => ?_⟩, _, rfl, ?_⟩
  · exact ⟨h.key.startsWrittenName c hc, (isQuiet_of_isNameRest (h.key.isNameRest c hc)).1⟩
  · simpa using h.neat.braced

theorem IsPlain.neat_entry (h : a.IsPlain) : Neat a.entry.toList := by
  have hcolon : Neat ": ".toList := neat_of_all (by decide)
  simpa [entry] using (neat_of_isNameRest h.key.isNameRest).append (hcolon.append h.neat)

/-- An object literal of plain arguments can stand in a directive. -/
theorem neat_object {as : List Argument} (has : ∀ a ∈ as, a.IsPlain) : Neat (object as).toList := by
  have hmembers : Neat (Text.join ", " (as.map entry)).toList := by
    induction as with
    | nil => exact neat_of_all (by decide)
    | cons a as ih =>
      obtain ⟨ha, has⟩ := List.forall_mem_cons.1 has
      cases as with
      | nil => simpa [Text.join] using ha.neat_entry
      | cons b bs =>
        have hcomma : Neat ", ".toList := neat_of_all (by decide)
        simpa [Text.join] using ha.neat_entry.append (hcomma.append (ih has))
  simpa [object] using hmembers.enclosed

end Argument

end Expr

/-! ## The two sources -/

section

open Stencil.Expr (Argument)

/-- The names of views that can be written in quotes of either kind. -/
def IsViewName (name : String) : Prop :=
  name ≠ "" ∧ ∀ c ∈ name.toList, isQuiet c = true ∧ c ≠ '"'

def viewElementSource (name : String) (as : List Argument) : String :=
  "<view name=\"" ++ name ++ "\"" ++
    String.join (as.map fun a => " " ++ a.name ++ "=\"\x7b\x7b" ++ a.text ++ "\x7d\x7d\"") ++
    "></view>"

/-- What the directive that asks for a view has behind its word: the name, and the object of the
arguments unless it is left out. -/
def viewParameters (name : String) : Option (List Argument) → String
  | none => (Expr.literal (.text name)).print
  | some as => (Expr.literal (.text name)).print ++ ", " ++ Argument.object as

def viewDirectiveSource (name : String) (as? : Option (List Argument)) : String :=
  "\x7b\x7bview " ++ viewParameters name as? ++ "\x7d\x7d"

def viewElementEvents (name : String) (as : List Argument) : List Event :=
  [.start "view" (("name", .text name) :: as.map Argument.given) false, .stop "view"]

def viewExpr (name : String) : Option (List Argument) → Expr
  | none => .literal (.text name)
  | some as => .sequence [.literal (.text name), .ofMembers (as.map Argument.member)]

def askingDirective (name : String) (as? : Option (List Argument)) : Directive :=
  ⟨"view " ++ viewParameters name as?, .shows [.view], some (viewExpr name as?)⟩

variable {name : String} {as : List Argument} {as? : Option (List Argument)}

theorem attributeChars_given (a : Argument) : Event.attributeChars a.given =
    (" " ++ a.name ++ "=\"\x7b\x7b" ++ a.text ++ "\x7d\x7d\"").toList := by
  simp [Event.attributeChars, Event.valueChars, Argument.given]

/-- The element that asks for a view is written by its events. -/
theorem viewElementSource_eq (name : String) (as : List Argument) :
    viewElementSource name as = String.ofList (sourceChars (viewElementEvents name as)) := by
  have hgiven : (as.map Argument.given).flatMap Event.attributeChars = (String.join (as.map
      fun a => " " ++ a.name ++ "=\"\x7b\x7b" ++ a.text ++ "\x7d\x7d\"")).toList := by
    rw [String.toList_join, List.flatMap_map, List.flatMap_map]
    simp only [attributeChars_given]
  have hopening : "<view name=\"".toList =
      '<' :: ("view".toList ++ ' ' :: ("name".toList ++ ['=', '"'])) := by decide
  have hquote : "\"".toList = ['"'] := by decide
  have hclosing : "></view>".toList = '>' :: '<' :: '/' :: ("view".toList ++ ['>']) := by decide
  rw [← String.toList_inj, String.toList_ofList, viewElementEvents, sourceChars,
    List.flatMap_cons, List.flatMap_singleton, Event.chars, Event.chars, List.flatMap_cons, hgiven]
  unfold viewElementSource
  simp only [String.toList_append, Event.attributeChars, Event.valueChars,
    hopening, hquote, hclosing, List.append_assoc, List.cons_append, List.nil_append,
    Bool.false_eq_true, if_false]

/-- The directive that asks for a view is written by its event. -/
theorem viewDirectiveSource_eq (name : String) (as? : Option (List Argument)) :
    viewDirectiveSource name as? =
      String.ofList (sourceChars [.directive (askingDirective name as?)]) := by
  rw [← String.toList_inj]
  simp [viewDirectiveSource, askingDirective, sourceChars, Event.chars]

theorem sound_viewElementEvents (hname : IsViewName name) (has : ∀ a ∈ as, a.IsPlain)
    (hnodup : (Text.lower "name".toList :: as.map fun a => Text.lower a.name.toList).Nodup) :
    ∀ e ∈ viewElementEvents name as, e.Sound := by
  have htag : IsTagName "view" :=
    ⟨⟨'v', ['i', 'e', 'w'], by decide, by decide, forall_mem_of_all (by decide)⟩,
      by decide +kernel, by decide, by decide⟩
  have hquiet : ∀ c ∈ name.toList, isQuiet c = true := fun c hc => (hname.2 c hc).1
  have hassigned : Event.IsAssigned ("name", .text name) := by
    have hletters : ∀ c ∈ "name".toList, Markup.startsWrittenName c = true ∧ isQuiet c = true :=
      forall_mem_of_all (by decide +kernel)
    refine ⟨⟨by simp, hletters⟩, name, rfl, ?_, mild_of_quiet hquiet, ?_⟩
    · exact fun hmem => (hname.2 _ hmem).2 rfl
    · exact laid_of_not_mem (not_mem_of_quiet hquiet).2.2.1
  have hstart : (Event.start "view" (("name", .text name) :: as.map Argument.given) false).Sound := by
    refine ⟨rfl, htag, by simpa [Argument.given, Function.comp_def] using hnodup, ?_⟩
    refine List.forall_mem_cons.2 ⟨hassigned, List.forall_mem_map.2 fun a ha => ?_⟩
    exact (has a ha).isAssigned
  exact List.forall_mem_cons.2 ⟨hstart, List.forall_mem_singleton.2 htag⟩

theorem neat_print_text (hname : ∀ c ∈ name.toList, isQuiet c = true ∧ c ≠ '"') :
    Neat (Expr.literal (.text name)).print.toList := by
  rw [Expr.toList_print_text]
  refine neat_of_quiet fun c hc => ?_
  simp only [List.mem_cons, List.mem_append, List.mem_flatMap, List.not_mem_nil,
    or_false] at hc
  obtain rfl | ⟨d, hd, hc⟩ | rfl := hc
  · decide
  · rw [Piece.escaped] at hc
    split at hc
    · obtain rfl | hc := List.mem_cons.1 hc
      · decide
      · exact List.mem_singleton.1 hc ▸ hname d hd
    · exact List.mem_singleton.1 hc ▸ hname d hd
  · decide

/-- The directive that asks for a view is read back from its source. -/
theorem legible_askingDirective (hname : IsViewName name) (has : ∀ a ∈ as?.getD [], a.IsPlain) :
    (askingDirective name as?).Legible := by
  have hcanonical : (Expr.literal (.text name)).Canonical Token.Short fun _ => True :=
    .literal (.text trivial)
  have hneat := neat_print_text hname.2
  have hquote := Expr.toList_print_text name
  have hsolid := hcanonical.solid_print
  cases as? with
  | none => exact Directive.legible_view hneat hquote hsolid hcanonical.read_print
  | some as =>
    have hobject := Argument.neat_object has
    have hbraces : Piece.Solid (Argument.object as).toList := by
      refine ⟨⟨'{', (Text.join ", " (as.map Argument.entry)).toList ++ ['}'], ?_, ?_⟩,
        ⟨'{' :: (Text.join ", " (as.map Argument.entry)).toList, '}', ?_, ?_⟩⟩
      · simp [Argument.object]
      · decide
      · simp [Argument.object]
      · decide
    have hcomma : Neat ", ".toList := neat_of_all (by decide)
    have htext : (viewParameters name (some as)).toList = (Expr.literal (.text name)).print.toList ++
        (", ".toList ++ (Argument.object as).toList) := by
      simp only [viewParameters, String.toList_append, List.append_assoc]
    have hstarts := htext
    rw [hquote, List.cons_append] at hstarts
    refine Directive.legible_view ?_ hstarts ?_
      (Expr.read_print_object name fun a ha => (has a ha).isRead)
    · rw [htext]
      exact hneat.append (hcomma.append hobject)
    · rw [htext]
      exact hsolid.between hbraces _

end

end Stencil
