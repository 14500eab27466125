import DialectSql.Proofs.SortOrder.Reading

namespace DialectSql

/-- A row as an order sees it: the values of texts, and those of the select list by position. -/
structure OrderRow (α : Type*) where
  values : Valuation α
  selected : Nat → Option α

variable {α : Type*} [LinearOrder α]

/-- Compares two values, of which nulls are in the given place. -/
def OrderDirection.compare {β : Type*} [Ord β] (direction : OrderDirection) (nulls : NullOrdering) :
    Option β → Option β → Ordering
  | none, none => .eq
  | none, some _ => if nulls = .first then .lt else .gt
  | some _, none => if nulls = .first then .gt else .lt
  | some x, some y =>
    match direction with
    | .asc => Ord.compare x y
    | .desc => Ord.compare y x

/-- The result of the first comparison that tells two rows apart. -/
def lexicographic (os : List Ordering) : Ordering := os.foldr Ordering.then .eq

theorem lexicographic_append (os ps : List Ordering) :
    lexicographic (os ++ ps) = (lexicographic os).then (lexicographic ps) := by
  induction os with
  | nil => rfl
  | cons o os ih =>
      rw [List.cons_append, lexicographic, List.foldr_cons, ← lexicographic, ih,
        ← Ordering.then_assoc]
      rfl

namespace OrderTerm

def compare (t : OrderTerm) (direction : OrderDirection) (nulls : NullOrdering)
    (r s : OrderRow α) : Ordering :=
  match t with
  | column n => direction.compare nulls (r.selected n) (s.selected n)
  | expression text => direction.compare nulls (r.values.operand text) (s.values.operand text)
  | choice c m n =>
    let number (r : OrderRow α) : Nat := if c.truth r.values = .true then m else n
    direction.compare nulls (some (number r)) (some (number s))

end OrderTerm

/-- Compares two rows by one item. Nulls that it does not mention are where the database places
them. -/
def OrderItem.compare (placement : OrderDirection → NullOrdering) (i : OrderItem)
    (r s : OrderRow α) : Ordering :=
  i.term.compare i.direction (i.nulls.getD (placement i.direction)) r s

/-- Compares two rows by the value of a sort key. -/
def SortKey.compare (placement : OrderDirection → NullOrdering) (d : Dialect) (k : SortKey)
    (r s : OrderRow α) : Ordering :=
  k.direction.compare (k.nulls.getD (placement k.direction)) (r.values.operand (k.text d))
    (s.values.operand (k.text d))

namespace Output

/-- Compares two rows by the items of an `order by` clause. -/
def compareRows (placement : OrderDirection → NullOrdering) (o : Output) (r s : OrderRow α) :
    Ordering :=
  lexicographic (o.orderItems.map fun i => i.compare placement r s)

/-- A result that a sort of a table may give. Rows that compare as equal may be in any order. -/
def Sorts {ρ : Type*} (placement : OrderDirection → NullOrdering) (view : ρ → OrderRow α)
    (o : Output) (table result : List ρ) : Prop :=
  result.Perm table ∧
    result.Pairwise fun r s => o.compareRows placement (view r) (view s) ≠ .gt

end Output

/-- A number for nulls and one for other values, compared first, put nulls in their place, wherever
they would be otherwise. -/
theorem NullOrdering.numbers_then (nulls place p : NullOrdering) (direction : OrderDirection)
    (x y : Option α) :
    (OrderDirection.asc.compare p
      (some (if x.isNone then nulls.numbers.1 else nulls.numbers.2))
      (some (if y.isNone then nulls.numbers.1 else nulls.numbers.2))).then
        (direction.compare place x y) = direction.compare nulls x y := by
  cases x <;> cases y <;> cases nulls <;> rfl

theorem Condition.truth_nullTest (V : Valuation α) (text : List Lexeme) :
    ((Condition.nullTest text false).truth V = .true) = ((V.operand text).isNone = true) := by
  rw [truth]
  cases V.operand text <;> simp [Truth.ofBool]

namespace SortKey

variable (placement : OrderDirection → NullOrdering) (d : Dialect)

theorem lexicographic_items (k : SortKey) (r s : OrderRow α) :
    lexicographic ((k.items d).map fun i => i.compare placement r s) =
      k.compare placement d r s := by
  have hsingle (o : Ordering) : lexicographic [o] = o := Ordering.then_eq
  cases hnulls : k.nulls with
  | none => simp [items, hnulls, hsingle, OrderItem.compare, OrderTerm.compare, compare]
  | some nulls =>
      cases hrule : d.capabilities.nullPrecedence with
      | true =>
          simp [items, hnulls, hrule, hsingle, OrderItem.compare, OrderTerm.compare, compare]
      | false =>
          have hitems : k.items d =
              [⟨.choice (.nullTest (k.text d) false) nulls.numbers.1 nulls.numbers.2, .asc, none⟩,
                ⟨.expression (k.text d), k.direction, none⟩] := by simp [items, hnulls, hrule]
          have hnumbers := nulls.numbers_then (placement k.direction) (placement .asc) k.direction
            (r.values.operand (k.text d)) (s.values.operand (k.text d))
          simpa only [hitems, List.map_cons, List.map_nil, lexicographic, List.foldr_cons,
            List.foldr_nil, Ordering.then_eq, OrderItem.compare, OrderTerm.compare, compare, hnulls,
            Option.getD_none, Option.getD_some, Condition.truth_nullTest] using hnumbers

theorem lexicographic_flatMap (keys : List SortKey) (r s : OrderRow α) :
    lexicographic ((keys.flatMap (items d)).map fun i => i.compare placement r s) =
      lexicographic (keys.map fun k => k.compare placement d r s) := by
  induction keys with
  | nil => rfl
  | cons k ks ih =>
      rw [List.flatMap_cons, List.map_append, lexicographic_append, lexicographic_items, ih]
      rfl

end SortKey

namespace Render

/-- The items that are written for sort keys compare two rows by the values of the keys, the first
key that tells them apart first. -/
theorem compareRows_orderBy (placement : OrderDirection → NullOrdering) (d : Dialect)
    (keys : List SortKey) (hkeys : ∀ k ∈ keys, k.expr.isNumeral d = false)
    (hok : (orderBy (sortKeys d keys)).failure = none) (r s : OrderRow α) :
    (orderBy (sortKeys d keys)).compareRows placement r s =
      lexicographic (keys.map fun k => k.compare placement d r s) := by
  rw [Output.compareRows, orderItems_orderBy d keys hkeys hok, SortKey.lexicographic_flatMap]

/-- Two dialects, be it with null precedence or without, sort every table to the same results by
keys that are no numerals. They need to agree on the place of nulls only for the keys that do not
mention it. -/
theorem orderBy_sorts {ρ : Type*} (d d' : Dialect) (keys : List SortKey)
    (hkeys : ∀ k ∈ keys, k.expr.isNumeral d = false ∧ k.expr.isNumeral d' = false)
    (hok : (orderBy (sortKeys d keys)).failure = none)
    (hok' : (orderBy (sortKeys d' keys)).failure = none)
    (placement placement' : OrderDirection → NullOrdering)
    (hplacement : ∀ k ∈ keys, k.nulls = none → placement k.direction = placement' k.direction)
    (view view' : ρ → OrderRow α)
    (hview : ∀ k ∈ keys, ∀ r,
      (view r).values.operand (k.text d) = (view' r).values.operand (k.text d')) :
    (∀ r s, (orderBy (sortKeys d keys)).compareRows placement (view r) (view s) =
      (orderBy (sortKeys d' keys)).compareRows placement' (view' r) (view' s)) ∧
    ∀ table result, (orderBy (sortKeys d keys)).Sorts placement view table result ↔
      (orderBy (sortKeys d' keys)).Sorts placement' view' table result := by
  have hcompare (r s : ρ) : (orderBy (sortKeys d keys)).compareRows placement (view r) (view s) =
      (orderBy (sortKeys d' keys)).compareRows placement' (view' r) (view' s) := by
    rw [compareRows_orderBy placement d keys (fun k hk => (hkeys k hk).1) hok,
      compareRows_orderBy placement' d' keys (fun k hk => (hkeys k hk).2) hok']
    refine congrArg lexicographic (List.map_congr_left fun k hk => ?_)
    have hnulls : k.nulls.getD (placement k.direction) = k.nulls.getD (placement' k.direction) := by
      cases hnone : k.nulls with
      | none => exact hplacement k hk hnone
      | some nulls => rfl
    rw [SortKey.compare, SortKey.compare, hnulls, hview k hk, hview k hk]
  refine ⟨hcompare, fun table result => ?_⟩
  simp only [Output.Sorts, hcompare]

/-- Nulls go to the end in a descending order, though the first database has them at its front. -/
theorem orderBy_sorts_people :
    let keys : List SortKey :=
      [⟨.column none "name", .desc, some .last⟩, ⟨.column (some "p") "id", .asc, none⟩]
    let view (r : Option Nat × Nat) : OrderRow Nat :=
      ⟨⟨fun text => if text = [.unit (.name "name")] then r.1 else some r.2, fun _ => .unknown⟩,
        fun _ => none⟩
    (orderBy (sortKeys .timesten keys)).failure = none ∧
      (orderBy (sortKeys .generic keys)).failure = none ∧
      (orderBy (sortKeys .timesten keys)).Sorts
        (fun | .asc => .last | .desc => .first) view
        [(none, 3), (some 7, 2), (some 7, 1), (some 9, 4)]
        [(some 9, 4), (some 7, 1), (some 7, 2), (none, 3)] := by
  intro keys view
  have hok : (orderBy (sortKeys .timesten keys)).failure = none := by decide
  have hok' : (orderBy (sortKeys .generic keys)).failure = none := by decide
  have hsorts : (orderBy (sortKeys .generic keys)).Sorts (fun _ => .last) view
      [(none, 3), (some 7, 2), (some 7, 1), (some 9, 4)]
      [(some 9, 4), (some 7, 1), (some 7, 2), (none, 3)] := ⟨by decide, by decide⟩
  have htext : ∀ k ∈ keys, k.text .timesten = k.text .generic := by decide
  have halike := orderBy_sorts .timesten .generic keys (by decide) hok hok' (fun
    | .asc => .last
    | .desc => .first) (fun _ => .last) (by decide) view view fun k hk r => by rw [htext k hk]
  exact ⟨hok, hok', (halike.2 _ _).2 hsorts⟩

/-- A boolean that is written as a numeral and a column that is named like one are positions in the
select list. Without null precedence, a row with a null there is not where the native key puts
it. -/
theorem compareRows_numeral :
    let keys (e : Expr) : List SortKey := [⟨e, .asc, some .first⟩]
    let row (first : Option Nat) : OrderRow Nat :=
      ⟨⟨fun _ => some 1, fun _ => .unknown⟩, fun _ => first⟩
    let compared (d : Dialect) (e : Expr) : Ordering :=
      (orderBy (sortKeys d (keys e))).compareRows (fun _ => .last) (row none) (row (some 1))
    Dialect.timesten.capabilities.nullPrecedence = false ∧
      Dialect.generic.capabilities.nullPrecedence = true ∧
      compared .timesten (.literal (.bool true)) = .gt ∧
      compared .generic (.literal (.bool true)) = .eq ∧
      compared .timesten (.column none "1") = .gt ∧ compared .generic (.column none "1") = .lt := by
  decide

end Render

end DialectSql
