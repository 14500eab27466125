import DialectSql.Ast.Operator
import Mathlib.Data.Nat.Basic
import Mathlib.Order.Lattice

namespace DialectSql

/-- The value of a condition on a row. -/
inductive Truth
  | true
  | false
  | unknown
deriving DecidableEq, Repr

namespace Truth

def ofBool (b : Bool) : Truth := if b then .true else .false

def not : Truth → Truth
  | .true => .false
  | .false => .true
  | .unknown => .unknown

def and : Truth → Truth → Truth
  | .false, _ => .false
  | _, .false => .false
  | .true, .true => .true
  | _, _ => .unknown

def or : Truth → Truth → Truth
  | .true, _ => .true
  | _, .true => .true
  | .false, .false => .false
  | _, _ => .unknown

def all (ts : List Truth) : Truth := ts.foldr and .true

def any (ts : List Truth) : Truth := ts.foldr or .false

@[simp] theorem true_and (a : Truth) : and .true a = a := by cases a <;> rfl

@[simp] theorem and_true (a : Truth) : a.and .true = a := by cases a <;> rfl

@[simp] theorem false_or (a : Truth) : or .false a = a := by cases a <;> rfl

@[simp] theorem or_false (a : Truth) : a.or .false = a := by cases a <;> rfl

theorem and_assoc (a b c : Truth) : (a.and b).and c = a.and (b.and c) := by
  cases a <;> cases b <;> cases c <;> rfl

theorem or_assoc (a b c : Truth) : (a.or b).or c = a.or (b.or c) := by
  cases a <;> cases b <;> cases c <;> rfl

theorem not_and (a b : Truth) : (a.and b).not = a.not.or b.not := by
  cases a <;> cases b <;> rfl

@[simp] theorem all_nil : all [] = .true := rfl

@[simp] theorem all_cons (t : Truth) (ts : List Truth) : all (t :: ts) = t.and (all ts) := rfl

@[simp] theorem any_nil : any [] = .false := rfl

@[simp] theorem any_cons (t : Truth) (ts : List Truth) : any (t :: ts) = t.or (any ts) := rfl

theorem all_append (ts us : List Truth) : all (ts ++ us) = (all ts).and (all us) := by
  induction ts with
  | nil => simp
  | cons t ts ih => simp only [List.cons_append, all_cons, ih, and_assoc]

theorem any_append (ts us : List Truth) : any (ts ++ us) = (any ts).or (any us) := by
  induction ts with
  | nil => simp
  | cons t ts ih => simp only [List.cons_append, any_cons, ih, or_assoc]

theorem not_all (ts : List Truth) : (all ts).not = any (ts.map not) := by
  induction ts with
  | nil => rfl
  | cons t ts ih => simp only [all_cons, not_and, ih, List.map_cons, any_cons]

end Truth

variable {α : Type*} [LinearOrder α]

namespace ComparisonOperator

/-- Whether the operator holds between values in the given order. -/
def accepts : ComparisonOperator → Ordering → Bool
  | equal, o | notDistinct, o => o == .eq
  | notEqual, o | distinct, o => o != .eq
  | lessThan, o => o == .lt
  | lessThanOrEqual, o => o != .gt
  | greaterThan, o => o == .gt
  | greaterThanOrEqual, o => o != .lt

/-- What an operator says where it may be open how the sides compare. -/
def verdict (op : ComparisonOperator) : Option Ordering → Truth
  | none => .unknown
  | some o => .ofBool (op.accepts o)

end ComparisonOperator

/-- How two values compare; a null compares with nothing. -/
def valueOrder : Option α → Option α → Option Ordering
  | some a, some b => some (cmp a b)
  | _, _ => none

/-- A comparison of two values. Distinctness takes two nulls for the same. -/
def ComparisonOperator.truth (op : ComparisonOperator) (a b : Option α) : Truth :=
  match op with
  | .distinct => .ofBool (a ≠ b)
  | .notDistinct => .ofBool (a = b)
  | op => op.verdict (valueOrder a b)

namespace Row

/-- Rows compare by the first pair of values that are not equal. A null that comes before such a
pair leaves it open how they compare. -/
def order : List (Option α) → List (Option α) → Option Ordering
  | x :: xs, y :: ys =>
    match valueOrder x y with
    | some .eq => order xs ys
    | o => o
  | _, _ => some .eq

/-- A comparison of two rows: equality is equality of all values, orderings go by the first values
that differ. -/
def truth (op : ComparisonOperator) (xs ys : List (Option α)) : Truth :=
  match op with
  | .equal => .all (List.zipWith (ComparisonOperator.truth .equal) xs ys)
  | .notEqual => (Truth.all (List.zipWith (ComparisonOperator.truth .equal) xs ys)).not
  | .notDistinct => .all (List.zipWith (ComparisonOperator.truth .notDistinct) xs ys)
  | .distinct => (Truth.all (List.zipWith (ComparisonOperator.truth .notDistinct) xs ys)).not
  | op => op.verdict (order xs ys)

def memberTruth (xs : List (Option α)) (rows : List (List (Option α))) (negated : Bool) : Truth :=
  let t := Truth.any (rows.map (truth .equal xs))
  if negated then t.not else t

def betweenTruth (xs low high : List (Option α)) (negated : Bool) : Truth :=
  let t := (truth .greaterThanOrEqual xs low).and (truth .lessThanOrEqual xs high)
  if negated then t.not else t

end Row

end DialectSql
