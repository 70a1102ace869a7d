import Mathlib.Data.Nat.Find
import Mathlib.Order.Bounds.Defs
import Stencil.Proofs.Braces
import Stencil.Proofs.Text.Search

/-!
# Where braces balance

The end of a region can be searched without a look at the characters between the marks: `leap` goes
from mark to mark, whichever comes next, and counts there. It ends where the walk over all
characters ends. That is the least position up to which as many more marks are closed than opened
as were open before, so nothing behind it matters; and where there is no such position the search
finds nothing.
-/

namespace Stencil.Braces

variable {opener closer : Char}

/-! ## From mark to mark -/

/-- The position of the first `c` from position `i` on. -/
def next? (text : List Char) (c : Char) (i : Nat) : Option Nat :=
  (Text.splitAtFirst? [c] (text.drop i)).map fun (before, _) => i + before.length

section Next

variable {text : List Char} {c : Char} {i n : Nat}

/-- The next character from a position is found behind a stretch without it. -/
theorem next?_eq_some_iff :
    next? text c i = some n ↔
      ∃ before rest, text.drop i = before ++ c :: rest ∧ c ∉ before ∧ n = i + before.length := by
  constructor
  · intro h
    obtain ⟨⟨before, rest⟩, hsplit, heq⟩ := Option.map_eq_some_iff.1 h
    by_cases hmem : c ∈ text.drop i
    · obtain ⟨before', rest', hdrop, hbefore⟩ := List.eq_append_cons_of_mem hmem
      rw [hdrop, Text.splitAtFirst?_singleton hbefore] at hsplit
      cases hsplit
      exact ⟨_, _, hdrop, hbefore, heq.symm⟩
    · rw [Text.splitAtFirst?_eq_none hmem] at hsplit
      cases hsplit
  · rintro ⟨before, rest, hdrop, hbefore, rfl⟩
    rw [next?, hdrop, Text.splitAtFirst?_singleton hbefore]
    rfl

theorem next?_eq_none_iff : next? text c i = none ↔ c ∉ text.drop i := by
  constructor
  · intro h hmem
    obtain ⟨before, rest, hdrop, hbefore⟩ := List.eq_append_cons_of_mem hmem
    rw [next?_eq_some_iff.2 ⟨before, rest, hdrop, hbefore, rfl⟩] at h
    cases h
  · intro h
    rw [next?, Text.splitAtFirst?_eq_none h, Option.map_none]

theorem next?_lt (h : next? text c i = some n) : i ≤ n ∧ n < text.length := by
  obtain ⟨before, rest, hdrop, -, rfl⟩ := next?_eq_some_iff.1 h
  have hlength := congrArg List.length hdrop
  rw [List.length_drop, List.length_append, List.length_cons] at hlength
  omega

/-- Before the next `c` there is none. -/
theorem not_mem_of_next? {before rest : List Char} (hdrop : text.drop i = before ++ rest)
    (h : ∀ m ∈ next? text c i, i + before.length ≤ m) : c ∉ before := by
  intro hmem
  obtain ⟨front, back, rfl, hfront⟩ := List.eq_append_cons_of_mem hmem
  have hnext : next? text c i = some (i + front.length) :=
    next?_eq_some_iff.2 ⟨front, back ++ rest, by simpa using hdrop, hfront, rfl⟩
  have hle := h _ hnext
  rw [List.length_append, List.length_cons] at hle
  omega

end Next

/-- The end of a region in which this many marks are open at position `i`. The next mark is a
closing one if there is one before the next opening one. -/
def leap (opener closer : Char) (text : List Char) (depth i : Nat) : Option Nat :=
  match depth with
  | 0 => some i
  | depth + 1 =>
    match hclose : next? text closer i, hopen : next? text opener i with
    | some n, none => leap opener closer text depth (n + 1)
    | some n, some m =>
      if n < m then leap opener closer text depth (n + 1)
      else leap opener closer text (depth + 2) (m + 1)
    | none, some m => leap opener closer text (depth + 2) (m + 1)
    | none, none => none
termination_by text.length - i
decreasing_by
  · have := next?_lt hclose
    omega
  · have := next?_lt hclose
    omega
  · have := next?_lt hopen
    omega
  · have := next?_lt hopen
    omega

section Leap

variable {text : List Char} {c : Char} {depth i n : Nat}

/-- A stretch without marks is passed. -/
theorem closing_unmarked (hne : opener ≠ closer) {cs : List Char} (hopener : opener ∉ cs)
    (hcloser : closer ∉ cs) {d : Int} (hd : 0 < d) (rest : List Char) :
    closing [opener] [closer] d (cs ++ rest) =
      (closing [opener] [closer] d rest).map (cs.length + ·) := by
  have hskeleton := skeleton_of_not_mem hopener hcloser
  have hpeak : peak opener closer cs = 0 := by rw [← peak_skeleton, hskeleton, peak_nil]
  have hexcess : excess opener closer cs = 0 := by rw [← excess_skeleton, hskeleton, excess_nil]
  rw [closing_append hne (by omega), hexcess, Int.sub_zero]

/-- The search passes what stands before the next mark `c`, and the mark. -/
theorem closing_drop (hne : opener ≠ closer) (hc : next? text c i = some n)
    (hopener : ∀ m ∈ next? text opener i, n ≤ m) (hcloser : ∀ m ∈ next? text closer i, n ≤ m)
    {d : Int} (hd : 0 < d) :
    (closing [opener] [closer] d (text.drop i)).map (i + ·) =
      (closing [opener] [closer] (d - excess opener closer [c]) (text.drop (n + 1))).map
        (n + 1 + ·) := by
  obtain ⟨before, rest, hdrop, -, rfl⟩ := next?_eq_some_iff.1 hc
  have hrest : text.drop (i + before.length + 1) = rest := by
    rw [Nat.add_assoc, ← List.drop_drop, hdrop]
    simp
  rw [hrest, hdrop, closing_unmarked hne (not_mem_of_next? hdrop hopener)
    (not_mem_of_next? hdrop hcloser) hd, closing_cons hne (by omega), Option.map_map,
    Option.map_map]
  congr 1
  funext k
  simp only [Function.comp_apply]
  omega

/-- Going from mark to mark finds the same end as walking over all characters. -/
theorem leap_eq (hne : opener ≠ closer) (text : List Char) (depth i : Nat) :
    leap opener closer text depth i =
      (closing [opener] [closer] depth (text.drop i)).map (i + ·) := by
  fun_induction leap opener closer text depth i with
  | case1 i => simp [closing_zero]
  | case2 i depth n hclose hopen ih =>
    rw [ih, closing_drop hne hclose (by simp [hopen]) (by simp [hclose]) (by omega),
      excess_closer hne]
    simp
  | case3 i depth n m hclose hopen hlt ih =>
    rw [ih, closing_drop hne hclose (by simp [hopen, Nat.le_of_lt hlt]) (by simp [hclose])
      (by omega), excess_closer hne]
    simp
  | case4 i depth n m hclose hopen hle ih =>
    rw [ih, closing_drop hne hopen (by simp [hopen]) (by simpa [hclose] using hle) (by omega),
      excess_opener hne]
    simp [Int.add_assoc]
  | case5 i depth m hclose hopen ih =>
    rw [ih, closing_drop hne hopen (by simp [hopen]) (by simp [hclose]) (by omega),
      excess_opener hne]
    simp [Int.add_assoc]
  | case6 i depth hclose hopen =>
    have hnone := closing_unmarked hne (next?_eq_none_iff.1 hopen) (next?_eq_none_iff.1 hclose)
      (show (0 : Int) < (depth + 1 : Nat) by omega) []
    rw [List.append_nil] at hnone
    rw [hnone, closing, if_neg (by omega)]
    simp

end Leap

/-! ## The least end -/

def slice (text : List Char) (start stop : Nat) : List Char :=
  (text.take stop).drop start

/-- The positions up to which this many more marks are closed than opened since the start. -/
def ends (opener closer : Char) (text : List Char) (depth start : Nat) : Set Nat :=
  {n | start ≤ n ∧ excess opener closer (slice text start n) = depth}

section Ends

variable {text cs : List Char} {depth start m n : Nat}

/-- The excess grows by one at most, so it leaves out no number on its way. -/
theorem exists_excess_take_eq (hne : opener ≠ closer)
    (h : (depth : Int) ≤ excess opener closer (cs.take m)) :
    ∃ k ≤ m, excess opener closer (cs.take k) = depth := by
  induction m with
  | zero =>
    rw [List.take_zero, excess_nil] at h
    exact ⟨0, Nat.le_refl 0, by rw [List.take_zero, excess_nil]; omega⟩
  | succ m ih =>
    by_cases hearlier : (depth : Int) ≤ excess opener closer (cs.take m)
    · obtain ⟨k, hk, heq⟩ := ih hearlier
      exact ⟨k, Nat.le_succ_of_le hk, heq⟩
    · have hstep : excess opener closer (cs.take (m + 1)) ≤
          excess opener closer (cs.take m) + 1 := by
        rw [List.take_add_one, excess_append]
        cases cs[m]? with
        | none =>
          rw [Option.toList_none, excess_nil]
          omega
        | some c =>
          have := excess_singleton_cases hne c
          rw [Option.toList_some]
          omega
      exact ⟨m + 1, Nat.le_refl _, by omega⟩

/-- The end of a region is the least position of its excess. -/
theorem firstAt_iff_isLeast (hne : opener ≠ closer) :
    FirstAt opener closer cs depth n ↔
      IsLeast {m | excess opener closer (cs.take m) = depth} n := by
  constructor
  · rintro ⟨-, heq, hbefore⟩
    refine ⟨heq, fun m hm => Nat.le_of_not_lt fun hlt => ?_⟩
    exact absurd hm (Int.ne_of_lt (hbefore m hlt))
  · rintro ⟨heq, hleast⟩
    refine ⟨Nat.le_of_not_lt fun hlong => ?_, heq, fun m hm => Int.lt_of_not_ge fun hge => ?_⟩
    · have hwhole : excess opener closer (cs.take cs.length) = depth := by
        rwa [List.take_length, ← List.take_of_length_le (Nat.le_of_lt hlong)]
      exact absurd (hleast hwhole) (Nat.not_le_of_lt hlong)
    · obtain ⟨k, hk, hdepth⟩ := exists_excess_take_eq hne hge
      exact absurd (hleast hdepth) (Nat.not_le_of_lt (Nat.lt_of_le_of_lt hk hm))

theorem mem_ends_add : start + n ∈ ends opener closer text depth start ↔
    excess opener closer ((text.drop start).take n) = depth := by
  rw [List.take_drop]
  exact and_iff_right (Nat.le_add_right start n)

/-- Counting from a position comes to the same as counting in the rest of the text. -/
theorem isLeast_ends_add : IsLeast (ends opener closer text depth start) (start + n) ↔
    IsLeast {m | excess opener closer ((text.drop start).take m) = depth} n := by
  refine and_congr mem_ends_add ⟨fun h m hm => ?_, fun h m hm => ?_⟩
  · exact Nat.le_of_add_le_add_left (h (mem_ends_add.2 hm))
  · obtain ⟨k, rfl⟩ := Nat.exists_eq_add_of_le hm.1
    exact Nat.add_le_add_left (h (mem_ends_add.1 hm)) start

/-- The search that leaps from mark to mark finds the end that counting finds. -/
theorem leap_eq_some_iff (hne : opener ≠ closer) :
    leap opener closer text depth start = some n ↔
      IsLeast (ends opener closer text depth start) n := by
  rw [leap_eq hne, Option.map_eq_some_iff]
  simp only [closing_eq_some_iff hne (Int.natCast_nonneg depth), firstAt_iff_isLeast hne,
    ← isLeast_ends_add]
  constructor
  · rintro ⟨k, hk, rfl⟩
    exact hk
  · intro h
    obtain ⟨k, rfl⟩ := Nat.exists_eq_add_of_le h.1.1
    exact ⟨k, h, rfl⟩

/-- It finds nothing exactly if the count never comes down. -/
theorem leap_eq_none_iff (hne : opener ≠ closer) :
    leap opener closer text depth start = none ↔
      ∀ n, n ∉ ends opener closer text depth start := by
  classical
  rw [← not_exists, ← Option.not_isSome_iff_eq_none, Option.isSome_iff_exists]
  simp only [leap_eq_some_iff hne]
  refine not_congr ⟨fun ⟨n, hn⟩ => ⟨n, hn.1⟩, fun h => ⟨Nat.find h, Nat.find_spec h, ?_⟩⟩
  exact fun m hm => Nat.find_min' h hm

/-- The least balance point lies within the text: behind it the whole text would do as well. -/
theorem le_length_of_isLeast (hdepth : 1 ≤ depth)
    (h : IsLeast (ends opener closer text depth start) n) : n ≤ text.length := by
  refine Nat.le_of_not_lt fun hlong => ?_
  obtain ⟨hstart, hexcess⟩ := h.1
  have hwhole : slice text start n = text.drop start := by
    rw [slice, List.take_of_length_le (Nat.le_of_lt hlong)]
  rw [hwhole] at hexcess
  by_cases hle : start ≤ text.length
  · have hmem : text.length ∈ ends opener closer text depth start :=
      ⟨hle, by rw [slice, List.take_length, hexcess]⟩
    exact absurd (h.2 hmem) (Nat.not_le_of_lt hlong)
  · rw [List.drop_of_length_le (Nat.le_of_not_le hle), excess_nil] at hexcess
    omega

/-- What stands behind the end has no part in it. -/
theorem isLeast_ends_take (hdepth : 1 ≤ depth)
    (h : IsLeast (ends opener closer text depth start) n) (more : List Char) :
    IsLeast (ends opener closer (text.take n ++ more) depth start) n := by
  have hlength := le_length_of_isLeast hdepth h
  have hslice : ∀ m ≤ n, slice (text.take n ++ more) start m = slice text start m := by
    intro m hm
    rw [slice, slice, List.take_append_of_le_length (by simp; omega), List.take_take,
      Nat.min_eq_left hm]
  refine ⟨⟨h.1.1, by rw [hslice n (Nat.le_refl n), h.1.2]⟩, fun m hm => ?_⟩
  by_cases hle : m ≤ n
  · exact h.2 ⟨hm.1, by rw [← hslice m hle, hm.2]⟩
  · exact Nat.le_of_not_le hle

end Ends

/-- The search begins behind the marks at which the region does. -/
theorem regionEnd?_eq_leap (hne : opener ≠ closer) {depth : Nat} (hdepth : 1 ≤ depth)
    (text : List Char) (i : Nat) :
    regionEnd? text depth i [opener] [closer] =
      (leap opener closer text depth (i + depth)).map Int.ofNat := by
  have hstart : searchStart text.length ((i : Int) + depth) = ((i + depth : Nat) : Int) := by
    rw [searchStart, if_neg (by omega)]
    rfl
  rw [regionEnd?, if_neg (by omega), hstart, leap_eq hne]
  dsimp only
  split
  · rename_i hlong
    rw [List.drop_of_length_le (by omega), closing, if_neg (by omega)]
    simp
  · rw [Int.toNat_natCast]
    cases closing [opener] [closer] depth (text.drop (i + depth)) <;> rfl

/-- The end of a region is the least position behind its opening marks up to which as many more
marks are closed than opened; it does not depend on the text behind. Where there is no such
position, and only there, no end is found. -/
theorem regionEnd?_least (hne : opener ≠ closer) (text : List Char) {depth : Nat}
    (hdepth : 1 ≤ depth) (i : Nat) :
    regionEnd? text depth i [opener] [closer] =
        (leap opener closer text depth (i + depth)).map Int.ofNat ∧
      (∀ e : Int, regionEnd? text depth i [opener] [closer] = some e ↔
        ∃ n : Nat, e = n ∧ IsLeast (ends opener closer text depth (i + depth)) n) ∧
      (regionEnd? text depth i [opener] [closer] = none ↔
        ∀ n, n ∉ ends opener closer text depth (i + depth)) ∧
      ∀ (n : Nat) (more : List Char), regionEnd? text depth i [opener] [closer] = some (n : Int) →
        regionEnd? (text.take n ++ more) depth i [opener] [closer] = some (n : Int) := by
  have hleap (text : List Char) := regionEnd?_eq_leap hne hdepth text i
  have hfound (text : List Char) (e : Int) : regionEnd? text depth i [opener] [closer] = some e ↔
      ∃ n : Nat, e = n ∧ IsLeast (ends opener closer text depth (i + depth)) n := by
    rw [hleap, Option.map_eq_some_iff]
    refine exists_congr fun n => ?_
    rw [leap_eq_some_iff hne, and_comm, Int.ofNat_eq_natCast, eq_comm]
  refine ⟨hleap text, hfound text, ?_, fun n more h => ?_⟩
  · rw [hleap, Option.map_eq_none_iff, leap_eq_none_iff hne]
  · obtain ⟨m, heq, hleast⟩ := (hfound text n).1 h
    obtain rfl := Int.ofNat_inj.1 heq
    exact (hfound _ n).2 ⟨n, rfl, isLeast_ends_take hdepth hleast more⟩

/-- A region with regions inside and text around it, and one that is not closed. -/
theorem regionEnd?_least_nested :
    let text := "x\x7b\x7b \x7b\x7ba\x7d: b\x7d \x7d\x7dy\x7d".toList
    let short := "\x7b\x7ba\x7d".toList
    regionEnd? text 2 1 ['{'] ['}'] = some 15 ∧
      (∃ n : Nat, (15 : Int) = n ∧ IsLeast (ends '{' '}' text 2 3) n) ∧
      regionEnd? (text.take 15 ++ ['{']) 2 1 ['{'] ['}'] = some 15 ∧
      ∀ n, n ∉ ends '{' '}' short 2 2 := by
  intro text short
  have hend : regionEnd? text 2 1 ['{'] ['}'] = some 15 := by decide +kernel
  have hne : '{' ≠ '}' := by decide
  obtain ⟨-, hleast, -, hlocal⟩ := regionEnd?_least hne text (by decide : 1 ≤ 2) 1
  obtain ⟨-, -, hnone, -⟩ := regionEnd?_least hne short (by decide : 1 ≤ 2) 0
  exact ⟨hend, (hleast 15).1 hend, hlocal 15 ['{'] hend, hnone.1 (by decide +kernel)⟩

end Stencil.Braces
