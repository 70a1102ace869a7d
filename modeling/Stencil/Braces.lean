/-!
# Balanced braces

The end of a region is found by counting: every opening raises the depth, every closing lowers
it, and the region ends where the depth first comes back to zero. `closing` walks over the text
one character at a time; `regionEnd?` is the same search from a position of a text.
-/

namespace Stencil.Braces

/-- The number of characters up to and including the one at which the depth is zero again. Where
both marks could be read, the opening one is. -/
def closing (opener closer : List Char) (depth : Int) : List Char → Option Nat
  | [] =>
    if depth = 0 then some 0
    else if closer.isEmpty && !opener.isEmpty && depth == 1 then some 1
    else if opener.isEmpty && depth == -1 then some 1
    else none
  | c :: cs =>
    if depth = 0 then some 0
    else
      let next :=
        if opener.isPrefixOf (c :: cs) then depth + 1
        else if closer.isPrefixOf (c :: cs) then depth - 1
        else depth
      (closing opener closer next cs).map (· + 1)

/-- The position from which a search starts: one that is negative counts from the end. -/
def searchStart (length : Nat) (i : Int) : Int :=
  if i < 0 then max 0 (length + i) else i

/-- The position just past the end of the region that `depth` opening marks begin at `i`. -/
def regionEnd? (text : List Char) (depth i : Int) (opener closer : List Char) : Option Int :=
  if depth = 0 then some i
  else
    let start := searchStart text.length (i + depth)
    if (text.length : Int) < start then none
    else (closing opener closer depth (text.drop start.toNat)).map (start + ·)

/-- Splits a text that follows two opening braces at the end of their region. -/
def split? (cs : List Char) : Option (List Char × List Char) :=
  (closing ['{'] ['}'] 2 cs).map fun n => (cs.take n, cs.drop n)

/-! ## Where a region ends -/

theorem closing_zero (opener closer cs : List Char) : closing opener closer 0 cs = some 0 := by
  cases cs <;> simp [closing]

theorem closing_le {cs : List Char} {d : Int} {n : Nat}
    (h : closing ['{'] ['}'] d cs = some n) : n ≤ cs.length := by
  induction cs generalizing d n with
  | nil =>
    simp only [closing] at h
    split at h <;> simp_all
  | cons c cs ih =>
    simp only [closing] at h
    split at h
    · simp_all
      omega
    · obtain ⟨m, hm, rfl⟩ := Option.map_eq_some_iff.1 h
      simp [ih hm]

/-- Some character has to close a mark that is open. -/
theorem closing_pos {cs : List Char} {d : Int} {n : Nat} (hd : d ≠ 0)
    (h : closing ['{'] ['}'] d cs = some n) : 0 < n := by
  cases cs with
  | nil => simp [closing, hd] at h
  | cons c cs =>
    simp only [closing, hd, if_false] at h
    obtain ⟨m, _, rfl⟩ := Option.map_eq_some_iff.1 h
    omega

/-- Splitting loses nothing. -/
theorem split?_append {cs region rest : List Char} (h : split? cs = some (region, rest)) :
    region ++ rest = cs := by
  obtain ⟨n, _, he⟩ := Option.map_eq_some_iff.1 h
  simp only [Prod.mk.injEq] at he
  rw [← he.1, ← he.2, List.take_append_drop]

theorem split?_length {cs region rest : List Char} (h : split? cs = some (region, rest)) :
    rest.length < cs.length := by
  obtain ⟨n, hn, he⟩ := Option.map_eq_some_iff.1 h
  simp only [Prod.mk.injEq] at he
  have h₁ := closing_pos (by decide) hn
  have h₂ := closing_le hn
  rw [← he.2, List.length_drop]
  omega

end Stencil.Braces
