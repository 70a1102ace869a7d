import Mathlib.Algebra.Group.Int.Defs
import Mathlib.Data.ENat.Basic
import Stencil.Json.Writing

/-!
# What can be written as JSON

A value fits if 64 bits hold each of its integers and it is not nested too deeply. How deep that is
depends on the library: for the strict one a value can be written exactly if it fits with a depth of
254.
-/

namespace Stencil

namespace Value

mutual

def ints : Value → List Int
  | .int n => [n]
  | .list vs => itemInts vs
  | .object fs => fieldInts fs
  | _ => []
termination_by structural v => v

def itemInts : List Value → List Int
  | [] => []
  | v :: vs => ints v ++ itemInts vs
termination_by structural vs => vs

def fieldInts : List (String × Value) → List Int
  | [] => []
  | (_, v) :: fs => ints v ++ fieldInts fs
termination_by structural fs => fs

end

mutual

/-- How many lists and objects stand inside one another. -/
def nesting : Value → Nat
  | .list vs => itemNesting vs + 1
  | .object fs => fieldNesting fs + 1
  | _ => 0
termination_by structural v => v

def itemNesting : List Value → Nat
  | [] => 0
  | v :: vs => max (nesting v) (itemNesting vs)
termination_by structural vs => vs

def fieldNesting : List (String × Value) → Nat
  | [] => 0
  | (_, v) :: fs => max (nesting v) (fieldNesting fs)
termination_by structural fs => fs

end

end Value

namespace Json

/-- Inside `depth` lists and objects there is room for integers and for a nesting. -/
def HasRoom (depth : Nat) (ints : List Int) (nesting : Nat) : Prop :=
  (∀ n ∈ ints, isHeld n = true) ∧ depth + nesting ≤ deepest

theorem hasRoom_append {depth : Nat} {ns ms : List Int} {a b : Nat} :
    HasRoom depth (ns ++ ms) (max a b) ↔ HasRoom depth ns a ∧ HasRoom depth ms b := by
  simp only [HasRoom, List.forall_mem_append]
  grind

/-- A list or object takes one level. -/
theorem hasRoom_succ {depth : Nat} {ns : List Int} {a : Nat} :
    HasRoom depth ns (a + 1) ↔ depth < deepest ∧ HasRoom (depth + 1) ns a := by
  simp only [HasRoom]
  grind

theorem hasRoom_nil {depth : Nat} (h : depth ≤ deepest) : HasRoom depth [] 0 :=
  ⟨List.forall_mem_nil _, h⟩

mutual

/-- A value can be written at a depth exactly if there is room for it. -/
theorem isWritable_iff_hasRoom {depth : Nat} (hdepth : depth ≤ deepest) (v : Value) :
    isWritable depth v = true ↔ HasRoom depth v.ints v.nesting := by
  cases v with
  | int n => simp [isWritable, Value.ints, Value.nesting, HasRoom, hdepth]
  | list vs =>
    rw [isWritable, Value.ints, Value.nesting, hasRoom_succ, Bool.and_eq_true, decide_eq_true_eq]
    exact and_congr_right fun h => areWritable_iff_hasRoom h vs
  | object fs =>
    rw [isWritable, Value.ints, Value.nesting, hasRoom_succ, Bool.and_eq_true, decide_eq_true_eq]
    exact and_congr_right fun h => fieldsWritable_iff_hasRoom h fs
  | _ => exact iff_of_true rfl (hasRoom_nil hdepth)

theorem areWritable_iff_hasRoom {depth : Nat} (hdepth : depth ≤ deepest) (vs : List Value) :
    areWritable depth vs = true ↔ HasRoom depth (Value.itemInts vs) (Value.itemNesting vs) := by
  cases vs with
  | nil => exact iff_of_true rfl (hasRoom_nil hdepth)
  | cons v vs =>
    rw [areWritable, Value.itemInts, Value.itemNesting, hasRoom_append, Bool.and_eq_true,
      isWritable_iff_hasRoom hdepth v, areWritable_iff_hasRoom hdepth vs]

theorem fieldsWritable_iff_hasRoom {depth : Nat} (hdepth : depth ≤ deepest)
    (fs : List (String × Value)) :
    fieldsWritable depth fs = true ↔
      HasRoom depth (Value.fieldInts fs) (Value.fieldNesting fs) := by
  cases fs with
  | nil => exact iff_of_true rfl (hasRoom_nil hdepth)
  | cons f fs =>
    rw [fieldsWritable, Value.fieldInts, Value.fieldNesting, hasRoom_append, Bool.and_eq_true,
      isWritable_iff_hasRoom hdepth f.2, fieldsWritable_iff_hasRoom hdepth fs]

end

/-- 64 bits hold every integer of the value, and it is nested at most so deep. -/
def Fits (depth : ℕ∞) (v : Value) : Prop :=
  (∀ n ∈ v.ints, -2 ^ 63 ≤ n ∧ n < 2 ^ 64) ∧ v.nesting ≤ depth

/-- The library writes the values that fit, and no others. -/
def Library.WritesFitting (json : Library) (depth : ℕ∞) : Prop :=
  ∀ l v, (json.write? l v).isSome ↔ Fits depth v

/-- An integer is held if it fits in 64 bits, signed or unsigned. -/
theorem isHeld_iff {n : Int} : isHeld n = true ↔ -2 ^ 63 ≤ n ∧ n < 2 ^ 64 := by
  simp only [isHeld, Bool.and_eq_true, decide_eq_true_eq]
  omega

theorem isWritable_iff (v : Value) : isWritable 0 v = true ↔ Fits deepest v := by
  rw [isWritable_iff_hasRoom (Nat.zero_le _), HasRoom, Fits, Nat.zero_add, Nat.cast_le]
  simp only [isHeld_iff]

/-- The strict library writes what fits at its depth, and refuses the rest. -/
theorem strict_writesFitting : strict.WritesFitting deepest := by
  intro l v
  have hwrite : strict.write? l v = if isWritable 0 v then some (written l 0 v) else none := rfl
  rw [← isWritable_iff, hwrite, Option.isSome_ite]

end Json

end Stencil
