import Stencil.Proofs.Building.Reached
import Stencil.Proofs.Nesting.Spans

/-!
# Attribute values and the blocks around them

The directives in the value of an attribute are taken on the stack of the whole template, in a
detached frame on top. They could close that frame and go on in the blocks below it. The builder
looks only at the end whether it is back in the frame. Still no value gets out: the attributes of a
tag are read exactly if each text among their values is balanced by itself, and then the builder is
as before.
-/

namespace Stencil

open Builder Nesting

/-- A text can be scanned, and its spans are balanced and make these nodes. -/
def Span.IsBalanced (scene : Scene) (s : String) (ns : List Node) : Prop :=
  (Span.scan s).failure? = none ∧ Spans.Balanced scene (Span.scan s).spans ns

theorem Span.IsBalanced.empty {scene : Scene} : IsBalanced scene "" [] := by
  rw [IsBalanced, scan_empty]
  exact ⟨rfl, .nil⟩

variable {scene : Scene} {b b' : Builder} {name : String} {v : Value} {a : Attribute}
  {given : List (String × Value)}

/-- A value is read from what its spans leave in a detached frame, on whatever stack. -/
theorem Attribute.Read.of_isBalanced {s : String} {ns : List Node} (hne : s ≠ "")
    (h : Span.IsBalanced scene s ns) (ha : Build.ofContent name s ns = .ok a) :
    Attribute.Read scene name (.text s) a := by
  refine .content hne h.1 (fun base => ?_) ha
  have hmoves := h.2.moves (base.opened .detached)
  rwa [addAll_opened] at hmoves

/-- A value with content makes an attribute. -/
theorem Build.exists_ofContent (name s : String) {ns : List Node} (hne : ns ≠ []) :
    ∃ a, Build.ofContent name s ns = .ok a := by
  cases h : Build.ofContent name s ns with
  | ok a => exact ⟨a, rfl⟩
  | error cause =>
    rw [Build.ofContent.eq_def] at h
    split at h
    · exact absurd rfl hne
    · cases h
    · split at h <;> cases h
    · cases h

/-- A text that is not empty can be read exactly if it is balanced and makes a node. -/
theorem Attribute.exists_read_text_iff {s : String} :
    (∃ a, Attribute.Read scene name (.text s) a) ↔
      ∃ ns, Span.IsBalanced scene s ns ∧ (s = "" ∨ ns ≠ []) := by
  constructor
  · rintro ⟨a, ⟨hv⟩ | ⟨hne, hscan, hmoves, ha⟩⟩
    · obtain rfl := hv s rfl
      exact ⟨[], .empty, .inl rfl⟩
    · refine ⟨_, ⟨hscan, Spans.balanced_iff_moves.2 (hmoves .empty)⟩, .inr ?_⟩
      rintro rfl
      cases ha
  · rintro ⟨ns, hbalanced, hs⟩
    by_cases hempty : s = ""
    · refine ⟨_, .literal fun s' hs' => ?_⟩
      rw [← Value.text.inj hs', hempty]
    · obtain ⟨a, ha⟩ := Build.exists_ofContent name s (hs.resolve_left hempty)
      exact ⟨a, .of_isBalanced hempty hbalanced ha⟩

/-- A value can be read exactly if its text, if it is one, is balanced by itself and is empty or has
content. -/
theorem Attribute.exists_read_iff :
    (∃ a, Attribute.Read scene name v a) ↔
      ∀ s, v = .text s → ∃ ns, Span.IsBalanced scene s ns ∧ (s = "" ∨ ns ≠ []) := by
  cases v with
  | text s => simp [exists_read_text_iff]
  | _ => exact iff_of_true ⟨_, .literal (by simp)⟩ (by simp)

/-- If each value can be read by itself, all attributes are read and the builder is left alone. -/
theorem Builder.run_attributesOf_of_read
    (h : ∀ g ∈ given, ∃ a, Attribute.Read scene g.1 g.2 a) (b : Builder) :
    ∃ as, b.run (Build.attributesOf scene given) = (.ok as, b) := by
  rw [Build.attributesOf]
  generalize ([] : Attributes) = earlier
  induction given generalizing earlier with
  | nil => exact ⟨earlier, rfl⟩
  | cons g given ih =>
    obtain ⟨⟨a, ha⟩, hrest⟩ := List.forall_mem_cons.1 h
    obtain ⟨as, has⟩ := ih hrest (Entries.set g.1 a earlier)
    refine ⟨as, ?_⟩
    rw [List.foldlM_cons, bind_assoc, run_bind_of_ok (ha.run b), pure_bind, has]

/-- The attributes of a tag can be read exactly if all texts among their values can. -/
theorem Builder.exists_run_attributesOf_iff (hb : Attached b.stack) :
    (∃ as b', b.run (Build.attributesOf scene given) = (.ok as, b')) ↔
      ∀ name s, (name, .text s) ∈ given →
        ∃ ns, Span.IsBalanced scene s ns ∧ (s = "" ∨ ns ≠ []) := by
  constructor
  · rintro ⟨as, b', h⟩ name s hmem
    exact Attribute.exists_read_text_iff.1 (exists_read_of_run_attributesOf hb h _ hmem)
  · intro h
    have hread : ∀ g ∈ given, ∃ a, Attribute.Read scene g.1 g.2 a := by
      rintro ⟨name, v⟩ hmem
      refine Attribute.exists_read_iff.2 fun s hv => ?_
      obtain rfl : v = .text s := hv
      exact h name s hmem
    obtain ⟨as, has⟩ := run_attributesOf_of_read hread b
    exact ⟨as, b, has⟩

/-- In every builder that is reached, the attributes of a tag are read exactly if each text among
their values is balanced by itself and, unless it is empty, makes a node. Nothing that is open is
changed by that. So a value is refused if one of its directives closes or continues a block that
was not opened in the value. -/
theorem attributes_isolated (h : Reached scene b) (given : List (String × Value)) :
    ((∃ as b', b.run (Build.attributesOf scene given) = (.ok as, b')) ↔
      ∀ name s, (name, .text s) ∈ given →
        ∃ ns, Span.IsBalanced scene s ns ∧ (s = "" ∨ ns ≠ [])) ∧
    (∀ as b', b.run (Build.attributesOf scene given) = (.ok as, b') → b' = b) ∧
    ∀ name s before span after, (name, .text s) ∈ given →
      (Span.scan s).spans = before ++ span :: after → span.NeedsBlock →
      Spans.level before ≤ 0 → ∃ e, (b.run (Build.attributesOf scene given)).1 = .error e := by
  have hread : (∃ as b', b.run (Build.attributesOf scene given) = (.ok as, b')) ↔ _ :=
    exists_run_attributesOf_iff h.attached
  refine ⟨hread, fun as b' has => (exists_of_run_attributesOf h.attached has).1, ?_⟩
  intro name s before span after hmem hspans hneeds hlevel
  cases hrun : (b.run (Build.attributesOf scene given)).1 with
  | error e => exact ⟨e, rfl⟩
  | ok as =>
    obtain ⟨ns, hbalanced, -⟩ := hread.1 ⟨as, _, Prod.ext hrun rfl⟩ name s hmem
    have hbefore := hbalanced.2
    rw [hspans] at hbefore
    exact absurd (hbefore.level_pos hneeds) (Int.not_lt.2 hlevel)

/-- Beside a condition that is complete, a value that has its own condition is read. A value cannot
end that condition and open another, and cannot give it a further branch. -/
theorem attributes_beside_condition :
    let scene := bareScene .empty
    let calls : List Call :=
      [.start "ul" [] false, .text "\x7b\x7bif x\x7d\x7da\x7b\x7b/if\x7d\x7d"]
    let b := ((Builder.start .default).run (calls.forM (Call.run scene))).2
    let own := "\x7b\x7bif y\x7d\x7don\x7b\x7belse\x7d\x7doff\x7b\x7b/if\x7d\x7d"
    Reached scene b ∧
      b.stack.depth = 1 ∧ b.stack.top.map Node.className = ["CONDITIONAL_BLOCK"] ∧
      (∃ as, b.run (Build.attributesOf scene [("class", .text own)]) = (.ok as, b)) ∧
      (∃ ns, Span.IsBalanced scene own ns) ∧
      ∀ value ∈ ["\x7b\x7b/if\x7d\x7d\x7b\x7bif y\x7d\x7d", "\x7b\x7belse\x7d\x7d",
          own ++ "\x7b\x7b/end\x7d\x7d\x7b\x7bif y\x7d\x7d"],
        ∃ e, (b.run (Build.attributesOf scene [("class", .text value)])).1 = .error e := by
  intro scene calls b own
  have hrun : ((Builder.start .default).run (calls.forM (Call.run scene))).1 = .ok () :=
    eq_ok_of_isSome (by decide +kernel)
  have hreached : Reached scene b := Reached.forM (.start rfl) (Prod.ext hrun rfl)
  have hrefused (value : String) (i : Nat) (h : ∃ span ∈ (Span.scan value).spans[i]?,
      span.NeedsBlock ∧ Spans.level ((Span.scan value).spans.take i) ≤ 0) :
      ∃ e, (b.run (Build.attributesOf scene [("class", .text value)])).1 = .error e := by
    obtain ⟨span, hspan, hneeds, hlevel⟩ := h
    obtain ⟨hi, rfl⟩ := List.getElem?_eq_some_iff.1 hspan
    have hspans := (List.take_append_drop i (Span.scan value).spans).symm
    rw [← List.getElem_cons_drop hi] at hspans
    exact (attributes_isolated hreached _).2.2 "class" value _ _ _ (by simp) hspans hneeds hlevel
  obtain ⟨hread, hkept, -⟩ := attributes_isolated hreached [("class", .text own)]
  have hkeys : (b.run (Build.attributesOf scene [("class", .text own)])).1.toOption.map
      Entries.keys = some ["class"] := by decide +kernel
  obtain ⟨as, has, -⟩ := exists_of_toOption_map hkeys
  obtain ⟨ns, hbalanced, -⟩ := hread.1 ⟨as, _, Prod.ext has rfl⟩ "class" own (by simp)
  refine ⟨hreached, by decide +kernel, by decide +kernel, ⟨as, ?_⟩, ⟨ns, hbalanced⟩, ?_⟩
  · exact Prod.ext has (hkept as _ (Prod.ext has rfl))
  · intro value hvalue
    simp only [List.mem_cons, List.not_mem_nil, or_false] at hvalue
    obtain rfl | rfl | rfl := hvalue
    · exact hrefused _ 0 (by decide +kernel)
    · exact hrefused _ 0 (by decide +kernel)
    · exact hrefused _ 5 (by decide +kernel)

end Stencil
