import Stencil.Decimal.Binary64

/-!
# Shortest decimals

The decimal of a binary number is the one with the fewest significant digits that reads back as
the same number; of several it is the nearest, and a tie goes to the even last digit.
-/

namespace Stencil.Binary64

/-- The exponent `k` with `10 ^ k ≤ num / den < 10 ^ (k + 1)`, for a positive ratio. -/
def leadingDigit (num den : Nat) : Int :=
  if den ≤ num then (digitCount (num / den) : Int) - 1
  else
    let j := digitCount (den / num) - 1
    if den ≤ num * tenTo j then -(j : Int) else -(j : Int) - 1

/-- `num / den` in units of `10 ^ k`, as a ratio. -/
def inUnits (num den : Nat) (k : Int) : Nat × Nat :=
  if 0 ≤ k then (num, den * tenTo k.toNat) else (num * tenTo (-k).toNat, den)

/-- Of the two neighbours of `m * 2 ^ e` on the grid of step `10 ^ k`, the one that reads back;
if both do, the nearer. -/
def onGrid? (m : Nat) (e k : Int) : Option Nat :=
  let (num, den) := ratio m e
  let (n, d) := inUnits num den k
  let low := n / d
  let back := fun (x : Nat) => ofDecimal false x k == .finite false m e
  match back low, back (low + 1) with
  | true, true =>
    let rest := n % d
    if 2 * rest < d then some low
    else if d < 2 * rest then some (low + 1)
    else some (low + low % 2)
  | true, false => some low
  | false, true => some (low + 1)
  | false, false => none

def dropZeros : Nat → Nat → Int → Nat × Int
  | 0, n, k => (n, k)
  | fuel + 1, n, k => if n % 10 = 0 then dropZeros fuel (n / 10) (k + 1) else (n, k)

/-- Digits and exponent of the shortest decimal of `m * 2 ^ e`, for a positive `m`. Seventeen
digits always suffice. -/
def shortest (m : Nat) (e : Int) : Nat × Int :=
  let (num, den) := ratio m e
  let top := leadingDigit num den
  let found := (List.range 17).findSome? fun (n : Nat) =>
    (onGrid? m e (top - n)).map fun x => (x, top - n)
  match found with
  | some (x, k) => dropZeros 20 x k
  | none => (m, e)

end Stencil.Binary64
