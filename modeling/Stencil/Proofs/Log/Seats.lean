import Mathlib.Logic.Function.Basic
import Stencil.Log.Handler
import Stencil.Proofs.Files

/-!
# Seats of a log and its backups

A log and its backups have seats in one directory: the log is seat 0, the backup `.i` is seat `i`.
Putting the log aside moves what stands in each seat to the next one and drops what stood in the
last. A change that fails leaves the seats alone: names that are too long belong to the last seats,
and those are moved first.
-/

namespace Stencil.Log.Rotation

variable {path : Path} {d : Place} {files files' : Files} {i j n : Nat}
  {g g' : Nat → Option String}

/-! ## Seats -/

/-- The name of the log, and those of its backups. -/
def seatName (path : Path) : Nat → String
  | 0 => path.name
  | i + 1 => path.stem ++ ("." ++ toString (i + 1))

def seatPath (path : Path) (i : Nat) : Path :=
  path.parent.child (seatName path i)

/-- Whether the path of a seat is short enough for the disk. -/
def Fits (path : Path) (i : Nat) : Prop :=
  (seatPath path i).text.utf8ByteSize ≤ Files.longestPath ∧
    (seatName path i).utf8ByteSize ≤ Files.longestName

instance (path : Path) (i : Nat) : Decidable (Fits path i) :=
  inferInstanceAs (Decidable (_ ∧ _))

theorem seatPath_zero (h : path.names ≠ []) : seatPath path 0 = path :=
  Path.child_parent_name h

/-- The backups have the names of the seats from 1 on. -/
theorem backup_succ (h : path.names ≠ []) (i : Nat) :
    backup path (i + 1) = .ok (seatPath path (i + 1)) := by
  rw [backup, Path.withExtension, if_neg (by simpa using h)]
  rfl

theorem mem_toString {c : Char} (h : c ∈ (toString i).toList) : c.isDigit = true := by
  rw [Nat.toString_eq_repr, Nat.repr_eq_ofList_toDigits, String.toList_ofList] at h
  exact Nat.isDigit_of_mem_toDigits (by decide) (by decide) h

/-- Different numbers have different texts. -/
theorem toString_injective (h : toString i = toString j) : i = j := by
  have hdigits : Nat.toDigits 10 i = Nat.toDigits 10 j := by
    simpa only [Nat.toString_eq_repr, Nat.repr_eq_ofList_toDigits, String.ofList_inj] using h
  rw [← Nat.ofDigitChars_ten_toDigits (n := i), hdigits, Nat.ofDigitChars_ten_toDigits]

/-- No seat is the directory above. -/
theorem seatName_ne_dots (h : path.name ≠ "..") (i : Nat) : seatName path i ≠ ".." := by
  cases i with
  | zero => exact h
  | succ i =>
    intro heq
    obtain ⟨c, hc⟩ : ∃ c, c ∈ (toString (i + 1)).toList := by
      apply List.exists_mem_of_ne_nil
      rw [Nat.toString_eq_repr, Nat.repr_eq_ofList_toDigits, String.toList_ofList]
      exact Nat.toDigits_ne_nil
    have hdot : c ∈ "..".toList := by
      rw [← heq, seatName, String.toList_append, String.toList_append]
      exact List.mem_append_right _ (List.mem_append_right _ hc)
    obtain rfl : c = '.' := by simpa using hdot
    exact absurd (mem_toString hc) (by decide)

theorem mem_splitName {c : Char} {name : List Char} (h : c ∈ (Path.splitName name).1) :
    c ∈ name := by
  rw [Path.splitName] at h
  split at h
  · exact h
  · exact List.mem_of_mem_take h

theorem clean_seatName (h : Char.ofNat 0 ∉ path.name.toList) (i : Nat) :
    Char.ofNat 0 ∉ (seatName path i).toList := by
  cases i with
  | zero => exact h
  | succ i =>
    intro hmem
    rw [seatName, String.toList_append, String.toList_append, List.mem_append,
      List.mem_append] at hmem
    obtain hstem | hdot | hdigit := hmem
    · rw [Path.stem, String.toList_ofList] at hstem
      exact h (mem_splitName hstem)
    · exact absurd hdot (by decide)
    · exact absurd (mem_toString hdigit) (by decide)

/-- A seat is found unless its path is too long. -/
theorem locate_seatPath (h : files.Lodges path d) (i : Nat) :
    files.locate (seatPath path i) =
      if Fits path i then .ok (d.child (seatName path i))
      else .error (.file .longName (seatPath path i).text) := by
  have hclean : Char.ofNat 0 ∉ path.name.toList := by
    have hpath := h.clean
    rw [← Path.child_parent_name h.named, Path.mem_text_child (by decide)] at hpath
    exact fun hmem => hpath (.inr hmem)
  exact h.locate_child (clean_seatName hclean i) (seatName_ne_dots h.name_ne i)

theorem fits_zero (h : files.Lodges path d) : Fits path 0 := by
  refine ⟨?_, h.name_short⟩
  rw [seatPath_zero h.named]
  exact h.short

theorem utf8ByteSize_toString (i : Nat) : (toString i).utf8ByteSize = (toString i).length := by
  have hdigits : ∀ cs : List Char, (∀ c ∈ cs, c.isDigit = true) →
      (String.ofList cs).utf8ByteSize = cs.length := by
    intro cs hcs
    induction cs with
    | nil => rfl
    | cons c cs ih =>
      rw [List.forall_mem_cons] at hcs
      have hc : c.utf8Size = 1 := by
        have hrange := hcs.1
        simp only [Char.isDigit, Bool.and_eq_true, decide_eq_true_eq] at hrange
        exact Char.utf8Size_eq_one_iff.2 (UInt32.le_trans hrange.2 (by decide))
      rw [String.ofList_cons, String.utf8ByteSize_append, String.utf8ByteSize_singleton, hc,
        ih hcs.2, List.length_cons, Nat.add_comm]
  have h := hdigits (toString i).toList fun c => mem_toString
  rwa [String.ofList_toList, String.length_toList] at h

/-- The names of the backups do not get shorter. -/
theorem utf8ByteSize_seatName_le (path : Path) (i : Nat) :
    (seatName path (i + 1)).utf8ByteSize ≤ (seatName path (i + 2)).utf8ByteSize := by
  have hlength : (toString (i + 1)).length ≤ (toString (i + 2)).length := by
    have hpos : 0 < (i + 2).repr.length := by
      rw [Nat.repr_eq_ofList_toDigits, String.length_ofList]
      exact Nat.length_toDigits_pos
    have hlt : i + 2 < 10 ^ (i + 2).repr.length := (Nat.length_repr_le_iff hpos).1 (Nat.le_refl _)
    exact (Nat.length_repr_le_iff hpos).2 (Nat.lt_trans (Nat.lt_succ_self _) hlt)
  simp only [seatName, String.utf8ByteSize_append, utf8ByteSize_toString]
  exact Nat.add_le_add_left (Nat.add_le_add_left hlength _) _

/-- A seat with a smaller number has no longer name, so it fits if the next one does. -/
theorem fits_of_succ (h : Fits path (i + 2)) : Fits path (i + 1) := by
  have hname := utf8ByteSize_seatName_le path i
  have htext := Path.utf8ByteSize_text_child_le path.parent hname
  exact ⟨Nat.le_trans htext h.1, Nat.le_trans hname h.2⟩

theorem fits_of_le (hj : Fits path j) (hi : 1 ≤ i) (hij : i ≤ j) : Fits path i := by
  induction hij with
  | refl => exact hj
  | @step j hij ih =>
    obtain ⟨k, rfl⟩ := Nat.exists_eq_add_of_le' (Nat.le_trans hi hij)
    exact ih (fits_of_succ hj)

/-- The seats up to `n` have different names. -/
def Distinct (path : Path) (n : Nat) : Prop :=
  ∀ i ≤ n, ∀ j ≤ n, seatName path i = seatName path j → i = j

/-- The seats have different names if no backup has the name of the log. -/
theorem distinct_of_ne (h : path.names ≠ [])
    (hne : ∀ i, 1 ≤ i → i ≤ n → backup path i ≠ .ok path) : Distinct path n := by
  have hlog : ∀ i, i + 1 ≤ n → path.name ≠ seatName path (i + 1) := by
    intro i hi heq
    apply hne (i + 1) (Nat.le_add_left 1 i) hi
    rw [backup_succ h, seatPath, ← heq, Path.child_parent_name h]
  intro i hi j hj heq
  cases i with
  | zero =>
    cases j with
    | zero => rfl
    | succ j => exact absurd heq (hlog j hj)
  | succ i =>
    cases j with
    | zero => exact absurd heq.symm (hlog i hi)
    | succ j =>
      rw [seatName, seatName, String.append_right_inj, String.append_right_inj] at heq
      exact toString_injective heq

/-! ## Moving texts from seat to seat -/

/-- The text of a seat moved to the next one. -/
def moved (i : Nat) (g : Nat → Option String) : Nat → Option String :=
  Function.update (Function.update g i none) (i + 1) (g i)

/-- The texts of the seats from 1 to `k` moved to the next ones. -/
def shifted (k : Nat) (g : Nat → Option String) : Nat → Option String
  | 0 => g 0
  | 1 => if k = 0 then g 1 else none
  | i + 2 => if i < k then g (i + 1) else g (i + 2)

/-- All texts moved to the next seats. -/
def rotated (g : Nat → Option String) : Nat → Option String
  | 0 => none
  | i + 1 => g i

theorem moved_of_ne (g : Nat → Option String) (hi : j ≠ i) (hnext : j ≠ i + 1) :
    moved i g j = g j := by
  rw [moved, Function.update_of_ne hnext, Function.update_of_ne hi]

theorem moved_self (i : Nat) (g : Nat → Option String) : moved i g i = none := by
  rw [moved, Function.update_of_ne (Nat.ne_of_lt (Nat.lt_succ_self i)), Function.update_self]

theorem moved_succ (i : Nat) (g : Nat → Option String) : moved i g (i + 1) = g i :=
  Function.update_self ..

theorem moved_of_none (h : g i = none) (hnext : g (i + 1) = none) : moved i g = g := by
  funext k
  by_cases hk : k = i + 1
  · rw [hk, moved, Function.update_self, h, hnext]
  · by_cases hki : k = i
    · rw [hki, moved_self, h]
    · exact moved_of_ne g hki hk

theorem shifted_zero (g : Nat → Option String) : shifted 0 g = g := by
  funext i
  obtain _ | _ | i := i <;> rfl

/-- Moving one more text first comes to moving all of them. -/
theorem shifted_moved (k : Nat) (g : Nat → Option String) :
    shifted k (moved (k + 1) g) = shifted (k + 1) g := by
  funext i
  obtain _ | _ | i := i
  · exact moved_of_ne g (by omega) (by omega)
  · cases k with
    | zero =>
      rw [shifted, if_pos rfl, shifted, if_neg (by omega), moved_self]
    | succ k => rfl
  · rw [shifted, shifted]
    by_cases hlt : i < k
    · rw [if_pos hlt, if_pos (Nat.lt_succ_of_lt hlt), moved_of_ne g (by omega) (by omega)]
    · by_cases heq : i = k
      · rw [if_neg hlt, heq, if_pos (Nat.lt_succ_self k), moved_succ]
      · rw [if_neg hlt, if_neg (by omega), moved_of_ne g (by omega) (by omega)]

/-! ## What stands in the seats -/

/-- The seats up to `n` hold these texts, and nothing else stands in them. -/
structure Stored (path : Path) (d : Place) (n : Nat) (files : Files) (g : Nat → Option String) :
    Prop where
  lodges : files.Lodges path d
  at? : ∀ i ≤ n, Fits path i →
    files.at? (d.child (seatName path i)) = (g i).map fun t => .file (.text t)
  fits : ∀ i ≤ n, g i ≠ none → Fits path i

namespace Stored

theorem congr (h : Stored path d n files g) (hg : ∀ i ≤ n, g i = g' i) :
    Stored path d n files g' where
  lodges := h.lodges
  at? i hi hfits := by rw [h.at? i hi hfits, hg i hi]
  fits i hi hsome := h.fits i hi (hg i hi ▸ hsome)

theorem locate (h : Stored path d n files g) (hfits : Fits path i) :
    files.locate (seatPath path i) = .ok (d.child (seatName path i)) := by
  rw [locate_seatPath h.lodges, if_pos hfits]

/-- What stands in a seat is its text. -/
theorem entry? (h : Stored path d n files g) (hi : i ≤ n) (hfits : Fits path i) :
    files.entry? (seatPath path i) = .ok ((g i).map fun t => .file (.text t)) := by
  rw [Files.entry?, h.locate hfits]
  exact congrArg Except.ok (h.at? i hi hfits)

/-- A seat whose path is too long fails to be asked for. -/
theorem entry?_of_not_fits (h : Stored path d n files g) (hfits : ¬ Fits path i) :
    files.entry? (seatPath path i) = .error (.file .longName (seatPath path i).text) := by
  rw [Files.entry?, locate_seatPath h.lodges, if_neg hfits]

theorem at?_ne_directory (h : Stored path d n files g) (hi : i ≤ n) (hfits : Fits path i) :
    files.at? (d.child (seatName path i)) ≠ some .directory := by
  rw [h.at? i hi hfits]
  cases g i <;> simp

theorem names_child_ne_nil (d : Place) (name : String) : (d.child name).names ≠ [] := by
  simp [Place.child]

/-- Different seats are different places. -/
theorem child_ne_child (hdistinct : Distinct path n) (hi : i ≤ n) (hj : j ≤ n) (hne : i ≠ j) :
    d.child (seatName path i) ≠ d.child (seatName path j) := by
  intro heq
  have hnames : d.names ++ [seatName path i] = d.names ++ [seatName path j] :=
    congrArg Place.names heq
  exact hne (hdistinct i hi j hj (by simpa using hnames))

/-- Only what stands in one seat is changed. -/
theorem change (h : Stored path d n files g) (hdistinct : Distinct path n) (hi : i ≤ n)
    (hfits : Fits path i) {t? : Option String} (hlodges : files'.Lodges path d)
    (hself : files'.at? (d.child (seatName path i)) = t?.map fun t => .file (.text t))
    (hother : ∀ place, place ≠ d.child (seatName path i) → files'.at? place = files.at? place) :
    Stored path d n files' (Function.update g i t?) where
  lodges := hlodges
  at? j hj hj' := by
    by_cases hji : j = i
    · subst hji
      rw [Function.update_self, hself]
    · rw [Function.update_of_ne hji, hother _ (child_ne_child hdistinct hj hi hji), h.at? j hj hj']
  fits j hj hsome := by
    by_cases hji : j = i
    · exact hji ▸ hfits
    · rw [Function.update_of_ne hji] at hsome
      exact h.fits j hj hsome

/-- A text is put into a seat. -/
theorem put (h : Stored path d n files g) (hdistinct : Distinct path n) (hi : i ≤ n)
    (hfits : Fits path i) (t : String) :
    Stored path d n (files.put (d.child (seatName path i)) (.file (.text t)))
      (Function.update g i (some t)) := by
  apply h.change hdistinct hi hfits
  · exact h.lodges.of_keeps (Files.keeps_put (h.at?_ne_directory hi hfits) _)
  · exact Files.at?_put_self (names_child_ne_nil d _) files _
  · exact fun place hne => Files.at?_put_of_ne hne files _

/-- A seat is emptied. -/
theorem remove (h : Stored path d n files g) (hdistinct : Distinct path n) (hi : i ≤ n)
    (hfits : Fits path i) :
    Stored path d n (files.remove (d.child (seatName path i))) (Function.update g i none) := by
  apply h.change hdistinct hi hfits
  · exact h.lodges.of_keeps (Files.keeps_remove (h.at?_ne_directory hi hfits))
  · exact Files.at?_remove_self (names_child_ne_nil d _) files
  · exact fun place hne => Files.at?_remove_of_ne hne files

theorem isNamed_seatPath (h : files.Lodges path d) (i : Nat) :
    Files.isNamed (seatPath path i) = true := by
  rw [Files.isNamed, seatPath, Path.name_child]
  simp [Path.child, seatName_ne_dots h.name_ne i]

/-- A seat's file is moved to another seat. -/
theorem rename (h : Stored path d n files g) (hdistinct : Distinct path n) (hi : i ≤ n)
    (hj : j ≤ n) (hne : i ≠ j) (hfits : Fits path j) {t : String} (ht : g i = some t) :
    ∃ files', files.rename (seatPath path i) (seatPath path j) = .ok files' ∧
      Stored path d n files' (Function.update (Function.update g i none) j (some t)) := by
  have hfitsi : Fits path i := h.fits i hi (by simp [ht])
  refine ⟨_, ?_, (h.remove hdistinct hi hfitsi).put hdistinct hj hfits t⟩
  have hsource : files.at? (d.child (seatName path i)) = some (.file (.text t)) := by
    rw [h.at? i hi hfitsi, ht]
    rfl
  have hreplace : files.replace (d.child (seatName path i)) (d.child (seatName path j))
      (.file (.text t)) = .ok ((files.remove (d.child (seatName path i))).put
        (d.child (seatName path j)) (.file (.text t))) := by
    unfold Files.replace
    rw [if_neg (child_ne_child hdistinct hi hj hne), h.at? j hj hfits]
    cases g j <;> rfl
  simp only [Files.rename, h.locate hfitsi, h.locate hfits, isNamed_seatPath h.lodges, hsource,
    bind, Except.bind, Bool.not_true, Bool.or_self, Bool.false_eq_true, if_false, hreplace]
  rfl

/-- A text is not moved to a seat whose path is too long. -/
theorem rename_of_not_fits (h : Stored path d n files g) (hfitsi : Fits path i)
    (hfits : ¬ Fits path j) :
    ∃ c, files.rename (seatPath path i) (seatPath path j) = .error c := by
  refine ⟨.file .longName (seatPath path j).text, ?_⟩
  simp only [Files.rename, h.locate hfitsi, locate_seatPath h.lodges j, if_neg hfits, bind,
    Except.bind]

/-- A seat is taken exactly if it has a text. -/
theorem has (h : Stored path d n files g) (hi : i ≤ n) (hfits : Fits path i) :
    files.has (seatPath path i) = .ok (g i).isSome := by
  rw [Files.has, h.entry? hi hfits]
  cases g i <;> rfl

/-! ## Putting the log aside -/

/-- A seat of a backup is moved, unless it is empty. -/
theorem shift (h : Stored path d n files g) (hdistinct : Distinct path n) (hi : i + 2 ≤ n)
    (hfits : Fits path (i + 1)) (hnext : Fits path (i + 2) ∨ g (i + 1) = none)
    (hcontiguous : g (i + 1) = none → g (i + 2) = none) :
    ∃ files', Rotation.shift path files (i + 1) = .ok files' ∧
      Stored path d n files' (moved (i + 1) g) := by
  have hle : i + 1 ≤ n := Nat.le_of_succ_le hi
  cases hg : g (i + 1) with
  | none =>
    refine ⟨files, ?_, ?_⟩
    · simp only [Rotation.shift, backup_succ h.lodges.named, h.has hle hfits, hg, bind, Except.bind]
      rfl
    · rw [moved_of_none hg (hcontiguous hg)]
      exact h
  | some t =>
    have hfits' : Fits path (i + 2) := hnext.resolve_right (by simp [hg])
    obtain ⟨files', hrename, hstored⟩ :=
      h.rename hdistinct hle hi (Nat.succ_ne_self (i + 1)).symm hfits' hg
    refine ⟨files', ?_, by rwa [moved, hg]⟩
    simp only [Rotation.shift, backup_succ h.lodges.named, h.has hle hfits, hg, bind, Except.bind]
    exact hrename

/-- All backups move up, from the last one to the first, as long as there is room. -/
theorem shiftAll {k : Nat} (h : Stored path d n files g) (hdistinct : Distinct path n)
    (hk : k + 1 ≤ n) (hfits : Fits path k) (hnext : Fits path (k + 1) ∨ g k = none)
    (hcontiguous : ∀ i, i + 1 ≤ k → g (i + 1) = none → g (i + 2) = none) :
    ∃ files', Rotation.shiftAll path k files = (files', none) ∧
      Stored path d n files' (shifted k g) := by
  induction k generalizing files g with
  | zero =>
    rw [shifted_zero]
    exact ⟨files, rfl, h⟩
  | succ k ih =>
    obtain ⟨files₁, hshift, hstored₁⟩ :=
      h.shift hdistinct hk hfits hnext (hcontiguous k (Nat.le_refl _))
    have hfitsk : Fits path k := by
      cases k with
      | zero => exact fits_zero h.lodges
      | succ k => exact fits_of_succ hfits
    obtain ⟨files', hall, hstored⟩ := ih hstored₁ (Nat.le_of_succ_le hk) hfitsk (.inl hfits)
      fun i hi hnone => by
        rw [moved_of_ne g (by omega) (by omega)] at hnone
        by_cases heq : i + 1 = k
        · subst heq
          exact moved_self (i + 2) g
        · rw [moved_of_ne g (by omega) (by omega)]
          exact hcontiguous i (by omega) hnone
    refine ⟨files', ?_, shifted_moved k g ▸ hstored⟩
    rw [Rotation.shiftAll, hshift]
    exact hall

/-- Puts the log aside, unless a name is too long for the move. -/
theorem rotate (h : Stored path d (n + 1) files g) (hdistinct : Distinct path (n + 1)) {t : String}
    (ht : g 0 = some t) (hfits : Fits path n) (hnext : Fits path (n + 1) ∨ g n = none)
    (hcontiguous : ∀ i, g (i + 1) = none → g (i + 2) = none) :
    ∃ files', Rotation.rotate path (n + 1) files = (files', none) ∧
      Stored path d (n + 1) files' (rotated g) := by
  obtain ⟨files₁, hall, hstored₁⟩ :=
    h.shiftAll hdistinct (Nat.le_refl _) hfits hnext fun i _ => hcontiguous i
  have hfits₁ : Fits path 1 := by
    cases n with
    | zero => exact hnext.resolve_right (by simp [ht])
    | succ n => exact fits_of_le hfits (Nat.le_refl 1) (Nat.le_add_left 1 n)
  obtain ⟨files', hrename, hstored⟩ := hstored₁.rename hdistinct (Nat.zero_le _)
    (Nat.le_add_left 1 n) Nat.zero_ne_one hfits₁ (ht : shifted n g 0 = some t)
  refine ⟨files', ?_, hstored.congr fun i hi => ?_⟩
  · rw [seatPath_zero h.lodges.named] at hrename
    rw [Rotation.rotate, Nat.add_sub_cancel, hall]
    simp only [backup_succ h.lodges.named, Except.bind, hrename, kept]
  · obtain _ | _ | i := i
    · rfl
    · exact ht.symm
    · rw [Function.update_of_ne (by omega), Function.update_of_ne (by omega), shifted,
        if_pos (by omega)]
      rfl

/-- If a name is too long for the move, then nothing has been moved before. -/
theorem rotate_of_not (h : Stored path d (n + 1) files g)
    (hnot : ¬ (Fits path n ∧ (Fits path (n + 1) ∨ g n = none))) :
    ∃ c, Rotation.rotate path (n + 1) files = (files, some c) := by
  rw [Rotation.rotate, Nat.add_sub_cancel]
  cases n with
  | zero =>
    have hfits : ¬ Fits path 1 := fun hfits => hnot ⟨fits_zero h.lodges, .inl hfits⟩
    obtain ⟨c, hrename⟩ := h.rename_of_not_fits (fits_zero h.lodges) hfits
    refine ⟨c, ?_⟩
    rw [seatPath_zero h.lodges.named] at hrename
    simp only [Rotation.shiftAll, backup_succ h.lodges.named, Except.bind, hrename, kept]
  | succ n =>
    obtain ⟨c, hshift⟩ : ∃ c, Rotation.shift path files (n + 1) = .error c := by
      by_cases hfits : Fits path (n + 1)
      · have hlast : ¬ Fits path (n + 2) := fun hlast => hnot ⟨hfits, .inl hlast⟩
        have hsome : (g (n + 1)).isSome := by
          rw [Option.isSome_iff_ne_none]
          exact fun hnone => hnot ⟨hfits, .inr hnone⟩
        obtain ⟨c, hrename⟩ := h.rename_of_not_fits hfits hlast
        refine ⟨c, ?_⟩
        simp only [Rotation.shift, backup_succ h.lodges.named, h.has (Nat.le_succ _) hfits, hsome,
          bind, Except.bind]
        exact hrename
      · refine ⟨.file .longName (seatPath path (n + 1)).text, ?_⟩
        simp only [Rotation.shift, backup_succ h.lodges.named, Files.has,
          h.entry?_of_not_fits hfits, bind, Except.bind, Except.map]
    exact ⟨c, by rw [Rotation.shiftAll, hshift]; rfl⟩

/-! ## Writing a line -/

/-- The log is due exactly if its text is longer than it may be. -/
theorem isDue (h : Stored path d n files g) (maxSize : Int) :
    Rotation.isDue path maxSize files =
      .ok ((g 0).any fun t => decide (maxSize < t.utf8ByteSize)) := by
  have hentry := h.entry? (Nat.zero_le n) (fits_zero h.lodges)
  rw [seatPath_zero h.lodges.named] at hentry
  rw [Rotation.isDue, hentry]
  cases g 0 <;> rfl

/-- Adds a text to the log. -/
theorem append (h : Stored path d n files g) (hdistinct : Distinct path n) (s : String) :
    ∃ files', files.append path s = .ok files' ∧
      Stored path d n files' (Function.update g 0 (some ((g 0).getD "" ++ s))) := by
  have hfits := fits_zero h.lodges
  have hplace := h.locate hfits
  rw [seatPath_zero h.lodges.named] at hplace
  refine ⟨_, ?_, h.put hdistinct (Nat.zero_le n) hfits _⟩
  rw [Files.append, hplace]
  simp only [bind, Except.bind, h.at? 0 (Nat.zero_le n) hfits]
  cases g 0 with
  | none => simp [pure, Except.pure]
  | some t => rfl

end Stored

end Stencil.Log.Rotation
