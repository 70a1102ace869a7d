import Stencil.Proofs.Log.Seats

/-!
# What rotation keeps

A course of lines that are written to a log, which is put aside when it has grown too long. The
backups, oldest first, and the log hold the lines that were written last, and all of them as long as
no backup has been dropped.
-/

namespace Stencil.Log.Rotation

variable {path : Path} {d : Place} {files files' : Files} {i n : Nat} {g : Nat → Option String}

/-! ## Lines -/

def written : List String → String
  | [] => ""
  | line :: lines => line ++ "\n" ++ written lines

theorem written_append (lines lines' : List String) :
    written (lines ++ lines') = written lines ++ written lines' := by
  induction lines with
  | nil => simp [written]
  | cons line lines ih => simp [written, ih, String.append_assoc]

/-- The texts of a log, if there is one, and of its backups, newest first. -/
def shelf (log : Option (List String)) (backups : List (List String)) : Nat → Option String
  | 0 => log.map written
  | i + 1 => backups[i]?.map written

/-- One more line changes the text of the log alone. -/
theorem update_shelf (log : Option (List String)) (backups : List (List String))
    (lines : List String) :
    Function.update (shelf log backups) 0
      (some (((shelf log backups 0).getD "") ++ written lines)) =
      shelf (some (log.getD [] ++ lines)) backups := by
  funext i
  cases i with
  | zero =>
    rw [Function.update_self, shelf, shelf, Option.map_some, written_append]
    cases log <;> rfl
  | succ i => rfl

/-- Putting the log aside moves every text to the next seat, and the last one falls off. -/
theorem rotated_shelf (lines : List String) (backups : List (List String)) (hi : i ≤ n) :
    rotated (shelf (some lines) backups) i = shelf none ((lines :: backups).take n) i := by
  cases i with
  | zero => rfl
  | succ i =>
    rw [rotated, shelf, List.getElem?_take_of_lt hi]
    cases i <;> rfl

/-- No backup is kept behind a seat that is empty. -/
theorem shelf_contiguous {log : Option (List String)} {backups : List (List String)}
    (h : shelf log backups (i + 1) = none) : shelf log backups (i + 2) = none := by
  simp only [shelf, Option.map_eq_none_iff, List.getElem?_eq_none_iff] at h ⊢
  exact Nat.le_succ_of_le h

/-! ## A course of lines -/

/-- How far a log has come: the files, the lines that were written and the times it was put
aside. -/
structure Course where
  files : Files
  emitted : List String
  rotations : Nat

/-- Whether the log is put aside before the next line. -/
def rotates (path : Path) (maxSize : Int) (n : Nat) (files : Files) : Bool :=
  match isDue path maxSize files with
  | .ok true => (rotate path n files).2.isNone
  | _ => false

namespace Course

variable {log : Option (List String)} {backups : List (List String)} {c : Course}

/-- The course after one more line, which may fail to be formatted or to be written. -/
def next (path : Path) (maxSize : Int) (n : Nat) (c : Course) (line : Except Cause String) :
    Course where
  files := (emit path maxSize n line c.files).1
  emitted :=
    if (emit path maxSize n line c.files).2.isNone then c.emitted ++ line.toOption.toList
    else c.emitted
  rotations := c.rotations + if rotates path maxSize n c.files then 1 else 0

def run (path : Path) (maxSize : Int) (n : Nat) (files : Files)
    (lines : List (Except Cause String)) : Course :=
  lines.foldl (next path maxSize n) ⟨files, [], 0⟩

/-- The log and its backups hold the last lines in the order in which they were written, and all
lines until a backup has been dropped. -/
structure Holds (path : Path) (d : Place) (n : Nat) (log : Option (List String))
    (backups : List (List String)) (c : Course) : Prop where
  stored : Stored path d n c.files (shelf log backups)
  length : backups.length = min c.rotations n
  kept : ∃ dropped, c.emitted = dropped ++ (backups.reverse.flatten ++ log.getD []) ∧
    (c.rotations ≤ n → dropped = [])

namespace Holds

/-- Putting the log aside drops the oldest backup if there are already `n`. With fewer rotations
than backups, all of these have a seat. -/
theorem aside {lines : List String} (h : Holds path d n (some lines) backups c)
    (hstored : Stored path d n files (rotated (shelf (some lines) backups))) :
    Holds path d n none ((lines :: backups).take n) ⟨files, c.emitted, c.rotations + 1⟩ := by
  obtain ⟨dropped, hemitted, hall⟩ := h.kept
  have hlength := h.length
  refine ⟨hstored.congr fun i => rotated_shelf lines backups, ?_, ?_⟩
  · rw [List.length_take, List.length_cons]
    dsimp only
    omega
  · obtain ⟨oldest, holdest⟩ := (List.take_prefix n (lines :: backups)).reverse
    have hlost : oldest.flatten ++ ((lines :: backups).take n).reverse.flatten =
        backups.reverse.flatten ++ lines := by
      rw [← List.flatten_append, holdest]
      simp
    refine ⟨dropped ++ oldest.flatten, ?_, fun hrotations => ?_⟩
    · rw [hemitted, List.append_assoc, Option.getD_none, List.append_nil, hlost]
      rfl
    · have hshort : (lines :: backups).length ≤ n := by
        rw [List.length_cons]
        dsimp only at hrotations
        omega
      rw [List.take_of_length_le hshort] at holdest
      have hnone : oldest = [] := by simpa using holdest
      rw [hnone, hall (Nat.le_of_succ_le hrotations)]
      rfl

/-- A line is added to the log, which has been put aside before if it had to be. -/
theorem emit {c₁ : Course} (h : Holds path d n log backups c₁) (hdistinct : Distinct path n)
    {maxSize : Int} (hrotated : rotateIfDue path maxSize n c.files = (c₁.files, none))
    (hemitted : c₁.emitted = c.emitted)
    (hrotations : c₁.rotations = c.rotations + if rotates path maxSize n c.files then 1 else 0)
    (line : Except Cause String) :
    Holds path d n (some (log.getD [] ++ line.toOption.toList)) backups
        (c.next path maxSize n line) ∧
      (c.next path maxSize n line).emitted = c.emitted ++ line.toOption.toList := by
  obtain ⟨opened, hopened, hstored₁⟩ := h.stored.append hdistinct ""
  have hopen := update_shelf log backups []
  rw [List.append_nil, written] at hopen
  rw [hopen] at hstored₁
  have hemit : Rotation.emit path maxSize n line c.files =
      Rotation.kept opened (line.bind fun s => opened.append path (s ++ "\n")) := by
    simp only [Rotation.emit, hrotated, hopened]
  obtain ⟨dropped, hkept, hall⟩ := h.kept
  cases line with
  | error cause =>
    have hnext : c.next path maxSize n (.error cause) = ⟨opened, c₁.emitted, c₁.rotations⟩ := by
      rw [Course.next, hemit, hemitted, hrotations]
      rfl
    rw [hnext, Except.toOption, Option.toList_none, List.append_nil, List.append_nil]
    exact ⟨⟨hstored₁, h.length, dropped, hkept, hall⟩, hemitted⟩
  | ok s =>
    obtain ⟨files', happend, hstored⟩ := hstored₁.append hdistinct (s ++ "\n")
    have hline : s ++ "\n" = written [s] := by simp [written]
    rw [hline, update_shelf, Option.getD_some] at hstored
    have hnext : c.next path maxSize n (.ok s) = ⟨files', c₁.emitted ++ [s], c₁.rotations⟩ := by
      simp only [Course.next, hemit, Except.bind, happend, Rotation.kept, hemitted, hrotations]
      rfl
    rw [hnext]
    refine ⟨⟨hstored, h.length, dropped, ?_, hall⟩, ?_⟩
    · simp [Except.toOption, hkept]
    · rw [hemitted]
      rfl

/-- What one line preserves. -/
theorem next (h : Holds path d (n + 1) log backups c) (hdistinct : Distinct path (n + 1))
    (maxSize : Int) (line : Except Cause String) :
    (∃ log' backups', Holds path d (n + 1) log' backups' (c.next path maxSize (n + 1) line)) ∧
      ((∀ i ≤ n + 1, Fits path i) →
        (c.next path maxSize (n + 1) line).emitted = c.emitted ++ line.toOption.toList) := by
  have hdue := h.stored.isDue maxSize
  cases hsize : (shelf log backups 0).any fun t => decide (maxSize < t.utf8ByteSize) with
  | false =>
    rw [hsize] at hdue
    have hrotated : rotateIfDue path maxSize (n + 1) c.files = (c.files, none) := by
      rw [rotateIfDue, hdue]
    have hrotates : rotates path maxSize (n + 1) c.files = false := by
      rw [rotates, hdue]
    obtain ⟨hholds, hemitted⟩ := h.emit hdistinct hrotated rfl (by rw [hrotates]; rfl) line
    exact ⟨⟨_, _, hholds⟩, fun _ => hemitted⟩
  | true =>
    rw [hsize] at hdue
    cases log with
    | none => cases hsize
    | some lines =>
      have hrotateIfDue : rotateIfDue path maxSize (n + 1) c.files =
          rotate path (n + 1) c.files := by
        rw [rotateIfDue, hdue]
      have hrotates : rotates path maxSize (n + 1) c.files =
          (rotate path (n + 1) c.files).2.isNone := by
        rw [rotates, hdue]
      by_cases hready : Fits path n ∧
          (Fits path (n + 1) ∨ shelf (some lines) backups n = none)
      · obtain ⟨files', hrotate, hstored⟩ := h.stored.rotate hdistinct rfl hready.1 hready.2
          fun i => shelf_contiguous
        rw [hrotate] at hrotateIfDue hrotates
        obtain ⟨hholds, hemitted⟩ := (h.aside hstored).emit hdistinct hrotateIfDue rfl
          (by rw [hrotates]; rfl) line
        exact ⟨⟨_, _, hholds⟩, fun _ => hemitted⟩
      · obtain ⟨cause, hrotate⟩ := h.stored.rotate_of_not hready
        rw [hrotate] at hrotateIfDue hrotates
        have hemit : Rotation.emit path maxSize (n + 1) line c.files = (c.files, some cause) := by
          simp only [Rotation.emit, hrotateIfDue]
        have hnext : c.next path maxSize (n + 1) line = c := by
          rw [Course.next, hemit, hrotates]
          rfl
        rw [hnext]
        refine ⟨⟨_, _, h⟩, fun hfits => ?_⟩
        exact absurd ⟨hfits n (Nat.le_succ n), .inl (hfits (n + 1) (Nat.le_refl _))⟩ hready

/-- What all lines preserve. -/
theorem run (h : Holds path d (n + 1) log backups c) (hdistinct : Distinct path (n + 1))
    (maxSize : Int) (lines : List (Except Cause String)) :
    (∃ log' backups', Holds path d (n + 1) log' backups'
        (lines.foldl (Course.next path maxSize (n + 1)) c)) ∧
      ((∀ i ≤ n + 1, Fits path i) →
        (lines.foldl (Course.next path maxSize (n + 1)) c).emitted =
          c.emitted ++ lines.filterMap Except.toOption) := by
  induction lines generalizing c log backups with
  | nil => exact ⟨⟨log, backups, h⟩, fun _ => (List.append_nil _).symm⟩
  | cons line lines ih =>
    obtain ⟨⟨log₁, backups₁, h₁⟩, hemitted₁⟩ := h.next hdistinct maxSize line
    obtain ⟨hholds, hemitted⟩ := ih h₁
    refine ⟨hholds, fun hfits => ?_⟩
    rw [List.foldl_cons, hemitted hfits, hemitted₁ hfits, List.append_assoc]
    cases line <;> rfl

end Holds

/-- A line for a path that leads nowhere changes nothing. -/
theorem next_of_locate_error {cause : Cause} (h : c.files.locate path = .error cause)
    (maxSize : Int) (n : Nat) (line : Except Cause String) : c.next path maxSize n line = c := by
  have hdue : isDue path maxSize c.files ≠ .ok true := by
    rw [isDue, Files.entry?, h]
    split
    · rename_i place hplace
      cases hplace
    · intro htrue
      cases htrue
    · intro htrue
      cases htrue
  have hemit : ∃ failure, Rotation.emit path maxSize n line c.files = (c.files, some failure) := by
    rw [Rotation.emit, rotateIfDue]
    cases hsize : isDue path maxSize c.files with
    | error failure => exact ⟨failure, rfl⟩
    | ok due =>
      cases due with
      | true => exact absurd hsize hdue
      | false => exact ⟨cause, by simp only [Files.append, h, bind, Except.bind]⟩
  have hrotates : rotates path maxSize n c.files = false := by
    rw [rotates]
    split
    · rename_i htrue
      exact absurd htrue hdue
    · rfl
  obtain ⟨failure, hfailure⟩ := hemit
  rw [Course.next, hfailure, hrotates]
  rfl

/-- Where the log has no place, nothing is ever written. -/
theorem run_of_locate_error {cause : Cause} (h : files.locate path = .error cause) (maxSize : Int)
    (n : Nat) (lines : List (Except Cause String)) :
    run path maxSize n files lines = ⟨files, [], 0⟩ := by
  rw [run]
  induction lines with
  | nil => rfl
  | cons line lines ih => rw [List.foldl_cons, next_of_locate_error h, ih]

end Course

/-- The handler of a file writes the records that pass it, one after the other. -/
theorem files_foldl_handle {h : Handler} {maxSize : Int} (hsink : h.sink = .file path maxSize n)
    (rs : List Record) (o : Outlets) :
    (rs.foldl (fun o r => h.handle r o) o).files =
      (Course.run path maxSize n o.files
        ((rs.filter fun r => r.level.passes h.level).map h.formatter.format)).files := by
  have hfold : ∀ (rs : List Record) (o : Outlets) (c : Course), o.files = c.files →
      (rs.foldl (fun o r => h.handle r o) o).files =
        (((rs.filter fun r => r.level.passes h.level).map h.formatter.format).foldl
          (Course.next path maxSize n) c).files := by
    intro rs
    induction rs with
    | nil => exact fun o c hfiles => hfiles
    | cons r rs ih =>
      intro o c hfiles
      rw [List.foldl_cons, List.filter_cons]
      cases hpasses : r.level.passes h.level with
      | false =>
        have hsame : h.handle r o = o := by simp [Handler.handle, hpasses]
        rw [hsame]
        exact ih o c hfiles
      | true =>
        have hnext : (h.handle r o).files =
            (c.next path maxSize n (h.formatter.format r)).files := by
          simp [Handler.handle, hpasses, hsink, Course.next, hfiles]
        exact ih _ _ hnext
  exact hfold rs o _ rfl

/-- A path shows a file with these lines, or nothing. -/
def Shows (files : Files) (p : Except Cause Path) : Option (List String) → Prop
  | some lines => ∃ q, p = .ok q ∧ files.read q = .ok (.text (written lines))
  | none => ∀ q e, p = .ok q → files.entry? q ≠ .ok (some e)

/-- A path leads to a place. -/
def Leads (files : Files) (p : Except Cause Path) : Prop :=
  ∃ q place, p = .ok q ∧ files.locate q = .ok place

/-- A seat shows the lines of its text. -/
theorem Stored.shows (h : Stored path d n files g) (hi : i ≤ n) {lines : Option (List String)}
    (hlines : g i = lines.map written) : Shows files (.ok (seatPath path i)) lines := by
  cases lines with
  | none =>
    intro q e hq
    obtain rfl := Except.ok.inj hq
    by_cases hfits : Fits path i
    · rw [h.entry? hi hfits, hlines]
      exact nofun
    · rw [h.entry?_of_not_fits hfits]
      exact nofun
  | some lines =>
    have hfits : Fits path i := h.fits i hi (by simp [hlines])
    refine ⟨_, rfl, ?_⟩
    rw [Files.read, h.locate hfits]
    simp only [bind, Except.bind, h.at? i hi hfits, hlines]
    rfl

/-- A path that leads to a place is short enough. -/
theorem fits_of_leads (h : files.Lodges path d) (hleads : Leads files (.ok (seatPath path i))) :
    Fits path i := by
  obtain ⟨q, place, hq, hplace⟩ := hleads
  obtain rfl := Except.ok.inj hq
  rw [locate_seatPath h] at hplace
  split at hplace
  · assumption
  · cases hplace

/-- Where nothing is shown the seats are empty. -/
theorem stored_of_shows (h : files.Lodges path d)
    (hempty : ∀ i ≤ n, Shows files (.ok (seatPath path i)) none) :
    Stored path d n files (shelf none []) where
  lodges := h
  at? i hi hfits := by
    have hnone : files.at? (d.child (seatName path i)) = none := by
      apply Option.eq_none_iff_forall_ne_some.2
      intro e he
      apply hempty i hi _ e rfl
      rw [Files.entry?, locate_seatPath h, if_pos hfits]
      exact congrArg Except.ok he
    cases i <;> exact hnone
  fits i hi hsome := by
    cases i <;> exact absurd rfl hsome

/-- At first there is neither a log nor a backup. -/
theorem holds_start (h : files.Lodges path d) (hlog : Shows files (.ok path) none)
    (hbackups : ∀ i, 1 ≤ i → i ≤ n → Shows files (backup path i) none) :
    Course.Holds path d n none [] ⟨files, [], 0⟩ := by
  have hempty : ∀ i ≤ n, Shows files (.ok (seatPath path i)) none := by
    intro i hi
    cases i with
    | zero =>
      rw [seatPath_zero h.named]
      exact hlog
    | succ i =>
      rw [← backup_succ h.named]
      exact hbackups (i + 1) (Nat.le_add_left 1 i) hi
  exact ⟨stored_of_shows h hempty, (Nat.zero_min n).symm, [], rfl, fun _ => rfl⟩

/-- A log with `n` backups, at first without any of these files. After any lines there are the
backups up to the number of times the log was put aside, and at most `n`. The backups, oldest first,
and the log together hold the lines that were written last, and all of them until the log has been
put aside `n + 1` times. Where the paths lead somewhere, every line that can be formatted is
written. -/
theorem shows_run {path : Path} {n : Nat} (hn : 1 ≤ n)
    (hdistinct : ∀ i, 1 ≤ i → i ≤ n → backup path i ≠ .ok path) {files : Files}
    (hlog : Shows files (.ok path) none)
    (hbackups : ∀ i, 1 ≤ i → i ≤ n → Shows files (backup path i) none) (maxSize : Int)
    (lines : List (Except Cause String)) :
    let c := Course.run path maxSize n files lines
    (∃ (log : Option (List String)) (backups : List (List String)),
      Shows c.files (.ok path) log ∧
      (∀ i, 1 ≤ i → i ≤ n → Shows c.files (backup path i) backups[i - 1]?) ∧
      backups.length = min c.rotations n ∧
      backups.reverse.flatten ++ log.getD [] <:+ c.emitted ∧
      (c.rotations ≤ n → backups.reverse.flatten ++ log.getD [] = c.emitted)) ∧
    (Leads files (.ok path) → (∀ i, 1 ≤ i → i ≤ n → Leads files (backup path i)) →
      c.emitted = lines.filterMap Except.toOption) := by
  intro c
  obtain ⟨m, rfl⟩ := Nat.exists_eq_add_of_le' hn
  cases hlocate : files.locate path with
  | error cause =>
    have hsame : c = ⟨files, [], 0⟩ := Course.run_of_locate_error hlocate maxSize (m + 1) lines
    rw [hsame]
    refine ⟨⟨none, [], hlog, fun i hi hin => ?_, rfl, List.suffix_refl _, fun _ => rfl⟩, ?_⟩
    · exact hbackups i hi hin
    · rintro ⟨q, place, hq, hplace⟩
      obtain rfl := Except.ok.inj hq
      rw [hlocate] at hplace
      cases hplace
  | ok place =>
    have hfree : files.at? place ≠ some .directory := by
      intro hdirectory
      apply hlog path .directory rfl
      rw [Files.entry?, hlocate]
      exact congrArg Except.ok hdirectory
    obtain ⟨d, hlodges, -⟩ := Files.exists_lodges hlocate hfree
    obtain ⟨⟨log, backups, hholds⟩, hemitted⟩ :=
      (holds_start hlodges hlog hbackups).run (distinct_of_ne hlodges.named hdistinct) maxSize lines
    obtain ⟨dropped, hkept, hall⟩ := hholds.kept
    refine ⟨⟨log, backups, ?_, fun i hi hin => ?_, hholds.length, ⟨dropped, hkept.symm⟩,
      fun hrotations => ?_⟩, fun hleads hleads' => hemitted fun i hi => ?_⟩
    · have hshows : Shows c.files (.ok (seatPath path 0)) log :=
        hholds.stored.shows (Nat.zero_le _) rfl
      rwa [seatPath_zero hlodges.named] at hshows
    · obtain ⟨k, rfl⟩ := Nat.exists_eq_add_of_le' hi
      rw [backup_succ hlodges.named]
      exact hholds.stored.shows hin rfl
    · rw [hall hrotations] at hkept
      exact hkept.symm
    · cases i with
      | zero => exact fits_zero hlodges
      | succ i =>
        apply fits_of_leads hlodges
        rw [← backup_succ hlodges.named]
        exact hleads' (i + 1) (Nat.le_add_left 1 i) hi

/-- Seven lines with two backups: the log is put aside three times, and the two oldest lines are
gone. -/
theorem shows_run_seven :
    let path : Path := ⟨.here, ["a.log"]⟩
    let lines := ["ab", "cd", "ef", "gh", "ij", "kl", "mn"]
    let c := Course.run path 3 2 .empty (lines.map .ok)
    c.emitted = lines ∧ c.rotations = 3 ∧
      ∃ (log : Option (List String)) (backups : List (List String)),
        Shows c.files (.ok path) log ∧
        (∀ i, 1 ≤ i → i ≤ 2 → Shows c.files (backup path i) backups[i - 1]?) ∧
        backups.length = 2 ∧ backups.reverse.flatten ++ log.getD [] <:+ lines := by
  intro path lines c
  have hfree : ∀ p, Files.empty.entry? p = .ok none → Shows .empty (.ok p) none := by
    intro p hp q e hq
    obtain rfl := Except.ok.inj hq
    rw [hp]
    exact nofun
  have hnames : path.names ≠ [] := List.cons_ne_nil _ _
  have hfirst : seatPath path 1 = ⟨.here, ["a.1"]⟩ := by decide +kernel
  have hsecond : seatPath path 2 = ⟨.here, ["a.2"]⟩ := by decide +kernel
  have hbackup : ∀ i, 1 ≤ i → i ≤ 2 → ∃ p place, backup path i = .ok p ∧ p ≠ path ∧
      Files.empty.entry? p = .ok none ∧ Files.empty.locate p = .ok place := by
    intro i hi hin
    obtain rfl | rfl : i = 1 ∨ i = 2 := by omega
    · exact ⟨⟨.here, ["a.1"]⟩, ⟨.above 0, ["a.1"]⟩, hfirst ▸ backup_succ hnames 0, by decide,
        rfl, rfl⟩
    · exact ⟨⟨.here, ["a.2"]⟩, ⟨.above 0, ["a.2"]⟩, hsecond ▸ backup_succ hnames 1, by decide,
        rfl, rfl⟩
  have hdistinct : ∀ i, 1 ≤ i → i ≤ 2 → backup path i ≠ .ok path := by
    intro i hi hin heq
    obtain ⟨p, -, hp, hne, -⟩ := hbackup i hi hin
    rw [hp] at heq
    exact hne (Except.ok.inj heq)
  have habsent : ∀ i, 1 ≤ i → i ≤ 2 → Shows .empty (backup path i) none := by
    intro i hi hin
    obtain ⟨p, -, hp, -, hnone, -⟩ := hbackup i hi hin
    rw [hp]
    exact hfree p hnone
  have hpath : Files.empty.entry? ⟨.here, ["a.log"]⟩ = .ok none := rfl
  have hplace : Files.empty.locate ⟨.here, ["a.log"]⟩ = .ok ⟨.above 0, ["a.log"]⟩ := rfl
  obtain ⟨⟨log, backups, hlog, hbackups, hlength, hkept, -⟩, hall⟩ :=
    shows_run (by decide) hdistinct (hfree path hpath) habsent 3 (lines.map .ok)
  have hrotations : c.rotations = 3 := by decide +kernel
  have hemitted : c.emitted = lines := by
    refine (hall ⟨path, _, rfl, hplace⟩ fun i hi hin => ?_).trans rfl
    obtain ⟨p, place, hp, -, -, hlocate⟩ := hbackup i hi hin
    exact ⟨p, place, hp, hlocate⟩
  refine ⟨hemitted, hrotations, log, backups, hlog, hbackups, ?_, hemitted ▸ hkept⟩
  exact hlength.trans (congrArg (min · 2) hrotations)

end Stencil.Log.Rotation
