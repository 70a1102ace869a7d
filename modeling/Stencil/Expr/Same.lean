import Stencil.Expr.Basic

/-!
# Equality of expressions

Two expressions are the same if they have the same shape and the same names, and their constants
are the same values.
-/

namespace Stencil.Expr

mutual

def same : Expr → Expr → Bool
  | .literal v, .literal w => v.same w
  | .path ss, .path ts => ss == ts
  | .relative ss, .relative ts => ss == ts
  | .aliasPath a ss, .aliasPath b ts => a == b && ss == ts
  | .attributePath a ss, .attributePath b ts => a == b && ss == ts
  | .brackets b i ss, .brackets b' i' ts => same b b' && same i i' && ss == ts
  | .call f args ss, .call g brgs ts => f == g && sameItems args brgs && ss == ts
  | .unary op e, .unary op' e' => op == op' && same e e'
  | .binary op l r, .binary op' l' r' => op == op' && same l l' && same r r'
  | .choice t y n, .choice t' y' n' => same t t' && same y y' && same n n'
  | .array xs, .array ys => sameItems xs ys
  | .object ms, .object ns => sameMembers ms ns
  | .sequence xs, .sequence ys => sameItems xs ys
  | _, _ => false
termination_by structural e => e

def sameItems : List Expr → List Expr → Bool
  | [], [] => true
  | x :: xs, y :: ys => same x y && sameItems xs ys
  | _, _ => false
termination_by structural xs => xs

def sameMembers : List (String × Expr) → List (String × Expr) → Bool
  | [], [] => true
  | (k, x) :: ms, (k', y) :: ns => k == k' && same x y && sameMembers ms ns
  | _, _ => false
termination_by structural ms => ms

end

end Stencil.Expr
