import Stencil.Braces
import Stencil.Text.Blank

/-!
# Where a region ends

The excess of a text is the number of its closing marks less that of its opening ones. A region
that starts at some depth ends where the excess of what has been passed comes up to that depth for
the first time. Of a region between double braces this fixes the last brace, but not the character
before it: that is a brace exactly if the braces further inside are even.
-/

namespace Stencil.Braces

variable {opener closer : Char}

/-- How many more closing than opening marks a text has. -/
def excess (opener closer : Char) (cs : List Char) : Int :=
  cs.count closer - cs.count opener

@[simp]
theorem excess_nil : excess opener closer [] = 0 := rfl

theorem excess_cons (c : Char) (cs : List Char) :
    excess opener closer (c :: cs) = excess opener closer [c] + excess opener closer cs := by
  simp only [excess, List.count_cons, List.count_nil]
  omega

/-- The excess of a text is the sum of the excesses of its parts. -/
theorem excess_append (cs ds : List Char) :
    excess opener closer (cs ++ ds) = excess opener closer cs + excess opener closer ds := by
  simp only [excess, List.count_append]
  omega

@[simp]
theorem excess_reverse (cs : List Char) :
    excess opener closer cs.reverse = excess opener closer cs := by
  simp only [excess, List.count_reverse]

theorem excess_opener (hne : opener ≠ closer) : excess opener closer [opener] = -1 := by
  simp [excess, hne]

theorem excess_closer (hne : opener ≠ closer) : excess opener closer [closer] = 1 := by
  simp [excess, hne.symm]

theorem excess_other {c : Char} (hopener : c ≠ opener) (hcloser : c ≠ closer) :
    excess opener closer [c] = 0 := by
  simp [excess, hopener, hcloser]

theorem excess_cons_other {c : Char} (hopener : c ≠ opener) (hcloser : c ≠ closer)
    (cs : List Char) : excess opener closer (c :: cs) = excess opener closer cs := by
  rw [excess_cons, excess_other hopener hcloser, Int.zero_add]

/-- What stops at a mark drops none. -/
theorem excess_dropWhile {p : Char → Bool} (hopener : p opener = false) (hcloser : p closer = false)
    (cs : List Char) : excess opener closer (cs.dropWhile p) = excess opener closer cs := by
  induction cs with
  | nil => rfl
  | cons c cs ih =>
    rw [List.dropWhile_cons]
    split
    · rename_i hc
      have hopener' : c ≠ opener := ne_of_apply_ne p (by rw [hc, hopener]; decide)
      have hcloser' : c ≠ closer := ne_of_apply_ne p (by rw [hc, hcloser]; decide)
      rw [ih, excess_cons_other hopener' hcloser']
    · rfl

/-- A character opens, closes or does neither. -/
theorem excess_singleton_cases (hne : opener ≠ closer) (c : Char) :
    c = opener ∧ excess opener closer [c] = -1 ∨ c = closer ∧ excess opener closer [c] = 1 ∨
      c ≠ opener ∧ c ≠ closer ∧ excess opener closer [c] = 0 := by
  by_cases hopener : c = opener
  · subst hopener
    exact .inl ⟨rfl, excess_opener hne⟩
  · by_cases hcloser : c = closer
    · subst hcloser
      exact .inr (.inl ⟨rfl, excess_closer hne⟩)
    · exact .inr (.inr ⟨hopener, hcloser, excess_other hopener hcloser⟩)

/-- What is left to close after one more character. -/
theorem closing_cons (hne : opener ≠ closer) {depth : Int} (hdepth : depth ≠ 0) (c : Char)
    (cs : List Char) :
    closing [opener] [closer] depth (c :: cs) =
      (closing [opener] [closer] (depth - excess opener closer [c]) cs).map (· + 1) := by
  obtain ⟨rfl, hc⟩ | ⟨rfl, hc⟩ | ⟨hopener, hcloser, hc⟩ := excess_singleton_cases hne c
  · simp [closing, hdepth, hc]
  · simp [closing, hdepth, hne, hc]
  · simp [closing, hdepth, Ne.symm hopener, Ne.symm hcloser, hc]

/-! ## The marks alone -/

/-- The marks of a text without what stands between them. -/
def skeleton (opener closer : Char) (cs : List Char) : List Char :=
  cs.filter fun c => c == opener || c == closer

@[simp]
theorem skeleton_nil : skeleton opener closer [] = [] := rfl

@[simp]
theorem skeleton_append (cs ds : List Char) :
    skeleton opener closer (cs ++ ds) = skeleton opener closer cs ++ skeleton opener closer ds :=
  List.filter_append cs ds

theorem skeleton_cons (c : Char) (cs : List Char) :
    skeleton opener closer (c :: cs) = skeleton opener closer [c] ++ skeleton opener closer cs :=
  skeleton_append [c] cs

/-- There are no marks among characters of a kind that the marks are not of. -/
theorem skeleton_eq_nil {p : Char → Bool} (hopener : p opener = false) (hcloser : p closer = false)
    {cs : List Char} (h : ∀ c ∈ cs, p c = true) : skeleton opener closer cs = [] := by
  rw [skeleton, List.filter_eq_nil_iff]
  intro c hc hmark
  have hpc := h c hc
  simp only [Bool.or_eq_true, beq_iff_eq] at hmark
  obtain rfl | rfl := hmark <;> simp_all

theorem skeleton_of_not_mem {cs : List Char} (hopener : opener ∉ cs) (hcloser : closer ∉ cs) :
    skeleton opener closer cs = [] :=
  skeleton_eq_nil (p := fun c => c != opener && c != closer) (by simp) (by simp) fun c hc => by
    simpa using ⟨ne_of_mem_of_not_mem hc hopener, ne_of_mem_of_not_mem hc hcloser⟩

/-- Only the marks count. -/
theorem excess_skeleton (cs : List Char) :
    excess opener closer (skeleton opener closer cs) = excess opener closer cs := by
  simp [excess, skeleton, List.count_filter]

/-- How far the closing marks get ahead of the opening ones, somewhere in the text. -/
def peak (opener closer : Char) : List Char → Int
  | [] => 0
  | c :: cs => max 0 (excess opener closer [c] + peak opener closer cs)

@[simp]
theorem peak_nil : peak opener closer [] = 0 := rfl

theorem peak_nonneg (cs : List Char) : 0 ≤ peak opener closer cs := by
  cases cs with
  | nil => exact Int.le_refl 0
  | cons c cs => exact Int.le_max_left _ _

/-- The closing marks get ahead in the first text, or in the second after all of the first. -/
theorem peak_append (cs ds : List Char) : peak opener closer (cs ++ ds) =
    max (peak opener closer cs) (excess opener closer cs + peak opener closer ds) := by
  induction cs with
  | nil =>
    have hds : 0 ≤ peak opener closer ds := peak_nonneg ds
    simp only [List.nil_append, peak_nil, excess_nil]
    omega
  | cons c cs ih =>
    rw [List.cons_append, peak, peak, ih, excess_cons c cs]
    omega

theorem peak_skeleton (cs : List Char) :
    peak opener closer (skeleton opener closer cs) = peak opener closer cs := by
  induction cs with
  | nil => rfl
  | cons c cs ih =>
    have hcs : 0 ≤ peak opener closer cs := peak_nonneg cs
    by_cases hc : c = opener ∨ c = closer
    · have hkept : skeleton opener closer (c :: cs) = c :: skeleton opener closer cs :=
        List.filter_cons_of_pos (by simpa using hc)
      rw [hkept, peak, peak, ih]
    · have hgone : skeleton opener closer (c :: cs) = skeleton opener closer cs :=
        List.filter_cons_of_neg (by simpa using hc)
      rw [not_or] at hc
      rw [hgone, ih, peak, excess_other hc.1 hc.2]
      omega

/-- Where the marks of a text never get ahead of the depth, the search passes the text. -/
theorem closing_append (hne : opener ≠ closer) {cs : List Char} {depth : Int}
    (h : peak opener closer cs < depth) (rest : List Char) :
    closing [opener] [closer] depth (cs ++ rest) =
      (closing [opener] [closer] (depth - excess opener closer cs) rest).map (cs.length + ·) := by
  induction cs generalizing depth with
  | nil => simp
  | cons c cs ih =>
    have hcs : 0 ≤ peak opener closer cs := peak_nonneg cs
    rw [peak] at h
    rw [List.cons_append, closing_cons hne (by omega), ih (by omega), excess_cons c cs,
      Option.map_map, Int.sub_sub]
    simp [Function.comp_def, Nat.add_right_comm]

/-! ## Where a region ends -/

/-- The excess of the text up to `n` is `depth`, and it is less before. -/
def FirstAt (opener closer : Char) (cs : List Char) (depth : Int) (n : Nat) : Prop :=
  n ≤ cs.length ∧ excess opener closer (cs.take n) = depth ∧
    ∀ m < n, excess opener closer (cs.take m) < depth

theorem firstAt_zero_iff {cs : List Char} {n : Nat} : FirstAt opener closer cs 0 n ↔ n = 0 := by
  constructor
  · rintro ⟨-, -, hbefore⟩
    refine Nat.eq_zero_of_not_pos fun hn => ?_
    exact absurd (hbefore 0 hn) (by simp)
  · rintro rfl
    simp [FirstAt]

/-- The count over a text goes on behind its first character. -/
theorem firstAt_cons_succ_iff {c : Char} {cs : List Char} {depth : Int} {n : Nat}
    (hdepth : 0 < depth) :
    FirstAt opener closer (c :: cs) depth (n + 1) ↔
      FirstAt opener closer cs (depth - excess opener closer [c]) n := by
  have hexcess (m : Nat) : excess opener closer ((c :: cs).take (m + 1)) =
      excess opener closer [c] + excess opener closer (cs.take m) := by
    rw [List.take_succ_cons, excess_cons]
  constructor
  · rintro ⟨hle, heq, hbefore⟩
    rw [hexcess] at heq
    refine ⟨Nat.le_of_succ_le_succ hle, by omega, fun m hm => ?_⟩
    have hlt := hbefore (m + 1) (Nat.succ_lt_succ hm)
    rw [hexcess] at hlt
    omega
  · rintro ⟨hle, heq, hbefore⟩
    refine ⟨Nat.succ_le_succ hle, by rw [hexcess]; omega, fun m hm => ?_⟩
    cases m with
    | zero => simpa using hdepth
    | succ m =>
      have hlt := hbefore m (Nat.lt_of_succ_lt_succ hm)
      rw [hexcess]
      omega

/-- A region ends where the excess comes up to its depth for the first time. -/
theorem closing_eq_some_iff (hne : opener ≠ closer) {cs : List Char} {depth : Int} {n : Nat}
    (hdepth : 0 ≤ depth) :
    closing [opener] [closer] depth cs = some n ↔ FirstAt opener closer cs depth n := by
  induction cs generalizing depth n with
  | nil =>
    by_cases hzero : depth = 0
    · rw [hzero, closing_zero, firstAt_zero_iff, Option.some.injEq, eq_comm]
    · have hnone : ¬ FirstAt opener closer [] depth n := fun h => hzero (by simpa using h.2.1.symm)
      simp [closing, hzero, hnone]
  | cons c cs ih =>
    by_cases hzero : depth = 0
    · rw [hzero, closing_zero, firstAt_zero_iff, Option.some.injEq, eq_comm]
    · have hpos : 0 < depth := by omega
      have hnext : 0 ≤ depth - excess opener closer [c] := by
        have := excess_singleton_cases hne c
        omega
      rw [closing_cons hne hzero]
      cases n with
      | zero =>
        have hnone : ¬ FirstAt opener closer (c :: cs) depth 0 := fun h =>
          hzero (by simpa using h.2.1.symm)
        simp [hnone]
      | succ n =>
        rw [firstAt_cons_succ_iff hpos, ← ih hnext]
        simp

/-! ## Regions between double braces -/

theorem excess_skipBlanks (cs : List Char) :
    excess '{' '}' (Text.skipBlanks cs) = excess '{' '}' cs :=
  excess_dropWhile (by decide) (by decide) cs

theorem excess_cons_blank {c : Char} (h : Text.isBlank c = true) (cs : List Char) :
    excess '{' '}' (c :: cs) = excess '{' '}' cs := by
  have hskip : Text.skipBlanks (c :: cs) = Text.skipBlanks cs := List.dropWhile_cons_of_pos h
  rw [← excess_skipBlanks, hskip, excess_skipBlanks]

/-- Blanks are no marks, so trimming leaves the excess alone. -/
theorem excess_trim (cs : List Char) : excess '{' '}' (Text.trim cs) = excess '{' '}' cs := by
  rw [Text.trim, excess_reverse, excess_skipBlanks, excess_reverse, excess_skipBlanks]

/-- The character before the last brace of a region: a brace if those inside are even, and no brace
if one more is closed inside than is opened there. -/
def Marks (inside : List Char) (mark : Char) : Prop :=
  mark = '}' ∧ excess '{' '}' inside = 0 ∨ mark ≠ '{' ∧ mark ≠ '}' ∧ excess '{' '}' inside = 1

theorem excess_le_length (cs : List Char) : excess opener closer cs ≤ cs.length := by
  have := List.count_le_length (a := closer) (l := cs)
  simp only [excess]
  omega

/-- A text up to its end ends in a closing brace and the character before it. Only a closing brace
raises the excess, so the last character is one. -/
theorem marks_of_firstAt {cs : List Char} {n : Nat} (h : FirstAt '{' '}' cs 2 n) :
    ∃ inside mark, cs.take n = inside ++ [mark, '}'] ∧ Marks inside mark := by
  obtain ⟨hle, heq, hbefore⟩ := h
  have htwo : 2 ≤ n := by
    have hlength : excess '{' '}' (cs.take n) ≤ (cs.take n).length := excess_le_length _
    rw [heq, List.length_take] at hlength
    omega
  obtain ⟨m, rfl⟩ : ∃ m, n = m + 2 := ⟨n - 2, by omega⟩
  obtain ⟨mark, hmark⟩ : ∃ c, cs[m]? = some c := ⟨_, List.getElem?_eq_getElem (by omega)⟩
  obtain ⟨last, hlast⟩ : ∃ c, cs[m + 1]? = some c := ⟨_, List.getElem?_eq_getElem (by omega)⟩
  have hone : cs.take (m + 1) = cs.take m ++ [mark] := by
    rw [List.take_add_one, hmark, Option.toList_some]
  have htwo : cs.take (m + 2) = cs.take (m + 1) ++ [last] := by
    rw [List.take_add_one, hlast, Option.toList_some]
  have hlt := hbefore m (by omega)
  have hlt' := hbefore (m + 1) (by omega)
  rw [htwo, excess_append] at heq
  rw [hone, excess_append] at heq hlt'
  obtain ⟨-, hc⟩ | ⟨rfl, hc⟩ | ⟨-, -, hc⟩ := excess_singleton_cases (by decide : '{' ≠ '}') last
  · omega
  · refine ⟨cs.take m, mark, by rw [htwo, hone, List.append_assoc]; rfl, ?_⟩
    obtain ⟨-, hd⟩ | ⟨rfl, hd⟩ | ⟨hopener, hcloser, hd⟩ :=
      excess_singleton_cases (by decide : '{' ≠ '}') mark
    · omega
    · exact .inl ⟨rfl, by omega⟩
    · exact .inr ⟨hopener, hcloser, by omega⟩
  · omega

/-- A region that is split off ends in a closing brace and the character before it. -/
theorem exists_of_split? {cs region rest : List Char} (h : split? cs = some (region, rest)) :
    ∃ inside mark, region = inside ++ [mark, '}'] ∧ Marks inside mark := by
  obtain ⟨n, hn, he⟩ := Option.map_eq_some_iff.1 h
  obtain ⟨rfl, -⟩ := Prod.mk.inj he
  exact marks_of_firstAt ((closing_eq_some_iff (by decide) (by decide)).1 hn)

end Stencil.Braces
