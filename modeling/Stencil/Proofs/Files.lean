import Mathlib.Data.List.Basic
import Stencil.Files.Changing

/-!
# Paths that lead to places

A path leads to a place by way of the directories that its names pass. Changes to files leave the
directories alone, so whatever a path led to before it leads to afterwards. The last name of a path
can be exchanged for another one that is not too long: both lead into the same directory.
-/

namespace Stencil

/-! ## Texts of paths -/

namespace Path

variable {p : Path} {name name' : String}

/-- A path with names is the child of its parent. -/
theorem child_parent_name (h : p.names ≠ []) : p.parent.child p.name = p := by
  obtain ⟨anchor, names⟩ := p
  simp only [child, parent, Path.name, List.getLast?_eq_getLast_of_ne_nil h, Option.getD_some,
    List.dropLast_append_getLast h]

theorem name_child (p : Path) (name : String) : (p.child name).name = name := by
  simp [Path.name, child]

theorem text_child (p : Path) (name : String) :
    (p.child name).text = p.anchor.text ++ Text.join "/" (p.names ++ [name]) := by
  have hne : p.child name ≠ here := by
    intro h
    have hnames : p.names ++ [name] = [] := congrArg Path.names h
    simp at hnames
  rw [text, if_neg hne]
  rfl

/-- A path with a shorter last name is no longer. -/
theorem utf8ByteSize_join_concat_le (names : List String)
    (h : name.utf8ByteSize ≤ name'.utf8ByteSize) :
    (Text.join "/" (names ++ [name])).utf8ByteSize ≤
      (Text.join "/" (names ++ [name'])).utf8ByteSize := by
  induction names with
  | nil => exact h
  | cons n names ih =>
    cases names with
    | nil => simpa [Text.join] using h
    | cons m names => simpa [Text.join] using ih

/-- A longer name makes a longer path. -/
theorem utf8ByteSize_text_child_le (p : Path) (h : name.utf8ByteSize ≤ name'.utf8ByteSize) :
    (p.child name).text.utf8ByteSize ≤ (p.child name').text.utf8ByteSize := by
  rw [text_child, text_child, String.utf8ByteSize_append, String.utf8ByteSize_append]
  exact Nat.add_le_add_left (utf8ByteSize_join_concat_le p.names h) _

theorem mem_join_concat {c : Char} (hc : c ≠ '/') (names : List String) :
    c ∈ (Text.join "/" (names ++ [name])).toList ↔
      (∃ n ∈ names, c ∈ n.toList) ∨ c ∈ name.toList := by
  induction names with
  | nil => simp [Text.join]
  | cons n names ih =>
    have hjoin : Text.join "/" (n :: names ++ [name]) =
        n ++ "/" ++ Text.join "/" (names ++ [name]) := by
      cases names <;> rfl
    rw [hjoin, String.toList_append, String.toList_append, List.mem_append, List.mem_append, ih]
    simp [hc, or_assoc]

/-- A character that is no slash is in the text of a path if it is in one of the names. -/
theorem mem_text_child {c : Char} (hc : c ≠ '/') (p : Path) (name : String) :
    c ∈ (p.child name).text.toList ↔ (∃ n ∈ p.names, c ∈ n.toList) ∨ c ∈ name.toList := by
  have hanchor : c ∉ p.anchor.text.toList := by
    cases p.anchor <;> simp [Anchor.text, hc]
  rw [text_child, String.toList_append, List.mem_append, mem_join_concat hc]
  simp [hanchor]

end Path

namespace Files

variable {fs fs' : Files} {d p : Place} {name : String}

/-! ## Directories that stay -/

/-- Every directory of `fs` is one of `fs'`. -/
def Keeps (fs fs' : Files) : Prop :=
  ∀ p, fs.at? p = some .directory → fs'.at? p = some .directory

/-- Writing a file leaves all directories where they are. -/
theorem keeps_put (h : fs.at? p ≠ some .directory) (c : Content) :
    fs.Keeps (fs.put p (.file c)) := by
  intro q hq
  have hne : q ≠ p := by
    rintro rfl
    exact h hq
  rwa [at?_put_of_ne hne]

/-- So does removing one. -/
theorem keeps_remove (h : fs.at? p ≠ some .directory) : fs.Keeps (fs.remove p) := by
  intro q hq
  have hne : q ≠ p := by
    rintro rfl
    exact h hq
  rwa [at?_remove_of_ne hne]

theorem at?_remove_self (h : p.names ≠ []) (fs : Files) : (fs.remove p).at? p = none := by
  have hfresh : ∀ e ∈ fs.entries.filter fun f => f.1 != p, (p != e.1) = true := by
    intro e he
    have hne : e.1 ≠ p := by simpa using (List.mem_filter.1 he).2
    exact bne_iff_ne.2 hne.symm
  have hlookup : (fs.entries.filter fun f => f.1 != p).lookup p = none :=
    List.lookup_eq_none_iff.2 hfresh
  simp [at?, remove, h, hlookup]

theorem enter_eq_ok_iff :
    fs.enter d name = .ok p ↔ step d name = .ok p ∧ fs.at? p = some .directory := by
  rw [enter]
  cases step d name with
  | error fault => simp [bind, Except.bind]
  | ok q =>
    simp only [bind, Except.bind, Except.ok.injEq]
    constructor
    · intro h
      split at h
      · rename_i hq
        obtain rfl : q = p := Except.ok.inj h
        exact ⟨rfl, hq⟩
      · cases h
      · cases h
    · rintro ⟨rfl, hq⟩
      rw [hq]
      rfl

/-- A way into a directory is there as long as the directory is. -/
theorem enter_of_keeps (hkeeps : fs.Keeps fs') (h : fs.enter d name = .ok p) :
    fs'.enter d name = .ok p := by
  obtain ⟨hstep, hp⟩ := enter_eq_ok_iff.1 h
  exact enter_eq_ok_iff.2 ⟨hstep, hkeeps p hp⟩

theorem foldlM_enter_of_keeps (hkeeps : fs.Keeps fs') {names : List String}
    (h : names.foldlM fs.enter d = .ok p) : names.foldlM fs'.enter d = .ok p := by
  induction names generalizing d with
  | nil => exact h
  | cons name names ih =>
    rw [List.foldlM_cons] at h ⊢
    cases henter : fs.enter d name with
    | error fault => simp [henter, bind, Except.bind] at h
    | ok q =>
      rw [henter] at h
      rw [enter_of_keeps hkeeps henter]
      exact ih h

/-! ## The last name of a path -/

/-- The last name of a walk need not be that of a directory. -/
theorem walk_concat (fs : Files) (d : Place) (names : List String) (name : String) :
    fs.walk d (names ++ [name]) = (names.foldlM fs.enter d).bind fun d' => step d' name := by
  induction names generalizing d with
  | nil => rfl
  | cons n names ih =>
    have hwalk : fs.walk d (n :: (names ++ [name])) =
        (fs.enter d n).bind fun d' => fs.walk d' (names ++ [name]) := by
      cases names <;> rfl
    rw [List.cons_append, hwalk, List.foldlM_cons]
    cases fs.enter d n with
    | error fault => rfl
    | ok q => exact ih q

/-- All directories that hold a place are there, and so is the place. -/
def IsGrounded (fs : Files) (d : Place) : Prop :=
  ∀ names, names <+: d.names → fs.at? ⟨d.base, names⟩ = some .directory

theorem isGrounded_of_names_eq_nil (fs : Files) (h : d.names = []) : fs.IsGrounded d := by
  intro names hnames
  rw [h, List.prefix_nil] at hnames
  simp [at?, hnames]

theorem IsGrounded.parent (h : fs.IsGrounded d) : fs.IsGrounded d.parent := by
  obtain ⟨base, names⟩ := d
  rw [Place.parent]
  split
  · exact isGrounded_of_names_eq_nil fs rfl
  · exact fun ns hns => h ns (hns.trans (List.dropLast_prefix names))

/-- A directory that is entered has all those that hold it. -/
theorem IsGrounded.enter (h : fs.IsGrounded d) (henter : fs.enter d name = .ok p) :
    fs.IsGrounded p := by
  obtain ⟨hstep, hp⟩ := enter_eq_ok_iff.1 henter
  rw [step] at hstep
  split at hstep
  · obtain rfl := Except.ok.inj hstep
    exact h.parent
  · split at hstep
    · cases hstep
    · obtain rfl := Except.ok.inj hstep
      intro names hnames
      obtain hall | hsome := List.prefix_concat_iff.1 hnames
      · rw [hall]
        exact hp
      · exact h names hsome

/-- A way through directories leads to one that has all those that hold it. -/
theorem isGrounded_of_foldlM_enter (h : fs.IsGrounded d) {names : List String}
    (hway : names.foldlM fs.enter d = .ok p) : fs.IsGrounded p := by
  induction names generalizing d with
  | nil =>
    obtain rfl := Except.ok.inj hway
    exact h
  | cons name names ih =>
    rw [List.foldlM_cons] at hway
    cases henter : fs.enter d name with
    | error fault =>
      rw [henter] at hway
      cases hway
    | ok q =>
      rw [henter] at hway
      exact ih (h.enter henter) hway

/-- Two dots lead to a directory. -/
theorem at?_parent_of_way {anchor : Anchor} {names : List String}
    (hway : names.foldlM fs.enter (.start anchor) = .ok d) : fs.at? d.parent = some .directory := by
  have hstart : fs.IsGrounded (.start anchor) := by
    apply isGrounded_of_names_eq_nil
    cases anchor <;> rfl
  exact (isGrounded_of_foldlM_enter hstart hway).parent d.parent.names (List.prefix_refl _)

/-- A path leads to a place in a directory under the place's own name. -/
structure Lodges (fs : Files) (p : Path) (d : Place) : Prop where
  named : p.names ≠ []
  clean : Char.ofNat 0 ∉ p.text.toList
  short : p.text.utf8ByteSize ≤ longestPath
  way : p.parent.names.foldlM fs.enter (.start p.anchor) = .ok d
  name_ne : p.name ≠ ".."
  name_short : p.name.utf8ByteSize ≤ longestName

namespace Lodges

variable {path : Path}

/-- Where a path leads depends on the directories alone. -/
theorem of_keeps (h : fs.Lodges path d) (hkeeps : fs.Keeps fs') : fs'.Lodges path d :=
  { h with way := foldlM_enter_of_keeps hkeeps h.way }

/-- Where a name in the directory leads to. -/
theorem locate_child (h : fs.Lodges path d) {name : String}
    (hclean : Char.ofNat 0 ∉ name.toList) (hne : name ≠ "..") :
    fs.locate (path.parent.child name) =
      if (path.parent.child name).text.utf8ByteSize ≤ longestPath ∧
        name.utf8ByteSize ≤ longestName then .ok (d.child name)
      else .error (.file .longName (path.parent.child name).text) := by
  have hnull : Char.ofNat 0 ∉ (path.parent.child name).text.toList := by
    have hpath := h.clean
    rw [← Path.child_parent_name h.named, Path.mem_text_child (by decide)] at hpath
    rw [Path.mem_text_child (by decide)]
    exact fun hmem => hmem.elim (fun hdir => hpath (.inl hdir)) hclean
  have hwalk : fs.walk (.start (path.parent.child name).anchor) (path.parent.child name).names =
      step d name := by
    have hway := h.way
    rw [Path.child, walk_concat]
    simp only [Path.parent] at hway ⊢
    rw [hway]
    rfl
  rw [locate, if_neg (by simpa using hnull), hwalk, step, if_neg hne]
  by_cases hlong : longestPath < (path.parent.child name).text.utf8ByteSize
  · rw [if_pos hlong, if_neg fun hand => Nat.not_le_of_lt hlong hand.1]
  · by_cases hname : longestName < name.utf8ByteSize
    · rw [if_neg hlong, if_pos hname, if_neg fun hand => Nat.not_le_of_lt hname hand.2]
      rfl
    · rw [if_neg hlong, if_neg hname, if_pos ⟨Nat.le_of_not_lt hlong, Nat.le_of_not_lt hname⟩]
      rfl

end Lodges

/-- A path that leads to no directory leads into one. -/
theorem exists_lodges {path : Path} (h : fs.locate path = .ok p)
    (hp : fs.at? p ≠ some .directory) :
    ∃ d, fs.Lodges path d ∧ p = d.child path.name := by
  rw [locate] at h
  split at h
  · cases h
  · rename_i hclean
    split at h
    · cases h
    · rename_i hshort
      have hnamed : path.names ≠ [] := by
        intro hnil
        rw [hnil] at h
        obtain rfl := Except.ok.inj h
        apply hp
        cases path.anchor <;> rfl
      have hwalk := walk_concat fs (.start path.anchor) path.parent.names path.name
      have hnames : path.parent.names ++ [path.name] = path.names :=
        congrArg Path.names (Path.child_parent_name hnamed)
      rw [hnames] at hwalk
      rw [hwalk] at h
      cases hway : path.parent.names.foldlM fs.enter (.start path.anchor) with
      | error fault =>
        rw [hway] at h
        cases h
      | ok d =>
        rw [hway] at h
        change (step d path.name).mapError _ = _ at h
        rw [step] at h
        split at h
        · obtain rfl := Except.ok.inj h
          exact absurd (at?_parent_of_way hway) hp
        · rename_i hdots
          split at h
          · cases h
          · rename_i hlong
            exact ⟨d, ⟨hnamed, by simpa using hclean, Nat.le_of_not_lt hshort, hway, hdots,
              Nat.le_of_not_lt hlong⟩, (Except.ok.inj h).symm⟩

end Files

end Stencil
