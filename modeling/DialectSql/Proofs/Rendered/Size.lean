import DialectSql.Proofs.Rendered.Node

namespace DialectSql

open Node

noncomputable def Node.size : Node → Nat
  | expr e => sizeOf e
  | predicate p => sizeOf p
  | query _ q => sizeOf q

variable {m : Node}

theorem Node.size_exprs {es : List Expr} (h : m ∈ exprs es) : m.size < sizeOf es := by
  obtain ⟨e, he, rfl⟩ := List.mem_map.1 h
  exact List.sizeOf_lt_of_mem he

theorem Node.size_items {es : List Expr} (h : m ∈ items es) : m.size < sizeOf es := by
  obtain ⟨e, he, rfl⟩ := List.mem_map.1 h
  exact List.sizeOf_lt_of_mem (List.mem_filter.1 he).1

theorem Node.size_sortKeys {ks : List SortKey} (h : m ∈ Node.sortKeys ks) :
    m.size < sizeOf ks := by
  obtain ⟨e, he, rfl⟩ := List.mem_map.1 h
  obtain ⟨k, hk, rfl⟩ := List.mem_map.1 he
  have hkey := List.sizeOf_lt_of_mem hk
  cases k
  simp only [size, SortKey.mk.sizeOf_spec] at hkey ⊢
  omega

theorem Node.size_given {p : Option Predicate} (h : m ∈ given p) : m.size < sizeOf p := by
  cases p with
  | none => cases h
  | some p =>
      rw [given] at h
      split at h
      · cases h
      · rw [List.mem_singleton.1 h]
        simp [size]

theorem Expr.sizeOf_pos (e : Expr) : 0 < sizeOf e :=
  Nat.pos_of_ne_zero (by cases e <;> simp)

theorem Expr.sizeOf_elements {e x : Expr} (h : x ∈ e.elements) : sizeOf x ≤ sizeOf e := by
  cases e with
  | tuple es =>
      have hx := List.sizeOf_lt_of_mem (show x ∈ es from h)
      simp only [tuple.sizeOf_spec]
      omega
  | _ => exact le_of_eq (congrArg sizeOf (List.mem_singleton.1 h))

theorem Expr.sizeOf_elements_lt {e x : Expr} (he : e.isTuple = true) (h : x ∈ e.elements) :
    sizeOf x < sizeOf e := by
  cases e with
  | tuple es =>
      have hx := List.sizeOf_lt_of_mem (show x ∈ es from h)
      simp only [tuple.sizeOf_spec]
      omega
  | _ => cases he

theorem ComparisonOperator.sizeOf_eq (op : ComparisonOperator) : sizeOf op = 1 := by
  cases op <;> rfl

/-- The parts of two rows are made of an element of each. -/
theorem Node.size_rows {ls rs : List Expr} {op : ComparisonOperator} (h : m ∈ rows ls op rs) :
    ∃ l ∈ ls, ∃ r ∈ rs, m.size ≤ sizeOf l + sizeOf r + 2 := by
  rw [rows] at h
  obtain ⟨⟨l, r⟩, hmem, h⟩ := List.mem_flatMap.1 h
  refine ⟨l, (List.of_mem_zip hmem).1, r, (List.of_mem_zip hmem).2, ?_⟩
  have hop := op.sizeOf_eq
  dsimp only at h
  split at h
  · rw [List.mem_singleton.1 h]
    simp only [size, Predicate.comparison.sizeOf_spec]
    omega
  · simp only [List.mem_cons, List.not_mem_nil, or_false] at h
    rcases h with rfl | rfl <;> simp only [size] <;> omega

theorem TableReference.size_parts {t : TableReference} (h : m ∈ t.parts) : m.size < sizeOf t := by
  cases t with
  | named t => cases h
  | derived q columns =>
      obtain rfl : m = .query none q := List.mem_singleton.1 h
      simp only [size, derived.sizeOf_spec]
      omega

theorem TableJoin.size_parts {js : List TableJoin} (h : m ∈ TableJoin.parts js) :
    m.size < sizeOf js := by
  match js with
  | [] => simp [TableJoin.parts] at h
  | ⟨type, ⟨reference, label, joins⟩, p, lateral⟩ :: js =>
      simp only [TableJoin.parts, List.mem_append] at h
      simp only [List.cons.sizeOf_spec, TableJoin.mk.sizeOf_spec, TableGroup.mk.sizeOf_spec]
      rcases h with ((h | h) | h) | h
      · have := TableReference.size_parts h
        omega
      · split at h
        · cases h
        · have := size_given h
          omega
      · have := size_parts h
        omega
      · have := size_parts h
        omega

theorem TableGroup.size_parts {g : TableGroup} (h : m ∈ g.parts) : m.size < sizeOf g := by
  obtain ⟨reference, label, joins⟩ := g
  rw [mk.sizeOf_spec]
  rcases List.mem_append.1 h with h | h
  · have hreference : m.size < sizeOf reference := TableReference.size_parts h
    omega
  · have hjoins : m.size < sizeOf joins := TableJoin.size_parts h
    omega

theorem QuerySpec.size_tables {s : QuerySpec} (h : m ∈ s.tables) : m.size < sizeOf s.roots := by
  obtain ⟨g, hg, h⟩ := List.mem_flatMap.1 h
  have := TableGroup.size_parts h
  have := List.sizeOf_lt_of_mem hg
  omega

theorem QuerySpec.size_columns {s : QuerySpec} {c : Expr} (h : c ∈ s.columns) :
    sizeOf c < sizeOf s.selections := by
  obtain ⟨x, hx, rfl⟩ := List.mem_map.1 h
  have := List.sizeOf_lt_of_mem hx
  cases x
  simp only [Selection.mk.sizeOf_spec] at this ⊢
  omega

theorem Node.size_range {d : Dialect} {offset fetch : Option Expr} (h : m ∈ range d offset fetch) :
    m.size < sizeOf offset + sizeOf fetch := by
  cases fetch with
  | none => cases h
  | some f =>
      cases offset with
      | none =>
          rw [List.mem_singleton.1 h]
          simp only [size, Option.some.sizeOf_spec]
          omega
      | some o =>
          simp only [range, List.mem_ite_nil_right, List.mem_cons, List.not_mem_nil, or_false] at h
          rcases h.2 with rfl | rfl <;> simp only [size, Option.some.sizeOf_spec] <;> omega

theorem Node.size_bounds {offset fetch : Option Expr}
    (h : m ∈ exprs (offset.toList ++ fetch.toList)) : m.size < sizeOf offset + sizeOf fetch := by
  simp only [exprs, List.map_append, List.mem_append, List.mem_map, Option.mem_toList] at h
  rcases h with ⟨e, rfl, rfl⟩ | ⟨e, rfl, rfl⟩ <;> simp only [size, Option.some.sizeOf_spec] <;> omega

theorem Node.size_limits {d : Dialect} {offset fetch : Option Expr}
    (h : m ∈ limits d offset fetch) : m.size < sizeOf offset + sizeOf fetch := by
  rw [limits, List.mem_ite_nil_right] at h
  exact size_bounds h.2

theorem QuerySpec.size_parts {d : Dialect} {s : QuerySpec} (h : m ∈ s.parts d) :
    m.size < sizeOf s := by
  obtain ⟨distinct, items, roots, restriction, groupBy, having, keys, offset, fetch, kind⟩ := s
  rw [mk.sizeOf_spec]
  simp only [parts, List.mem_append, List.mem_ite_nil_right] at h
  rcases h with ((((((h | h) | h) | h) | h) | h) | h) | h
  · obtain ⟨c, hc, rfl⟩ := List.mem_map.1 h
    have hcolumn := size_columns hc
    dsimp only [size] at hcolumn ⊢
    omega
  · have hlimit := size_range h.2
    omega
  · have htable := size_tables h
    dsimp only at htable
    omega
  · have hrestriction := size_given h
    omega
  · have hitem := size_items h
    omega
  · have hhaving := size_given h
    omega
  · have hkey := size_sortKeys h
    omega
  · have hlimit := size_limits h
    omega

theorem QueryGroup.size_parts {d : Dialect} {lock : Option LockScope} {g : QueryGroup}
    (h : m ∈ g.parts d lock) : m.size < sizeOf g := by
  obtain ⟨operator, members, keys, offset, fetch, kind⟩ := g
  rw [mk.sizeOf_spec]
  simp only [parts, List.mem_append, List.mem_map] at h
  rcases h with (⟨q, hq, rfl⟩ | h) | h
  · have hmember := List.sizeOf_lt_of_mem hq
    simp only [size]
    omega
  · have hkey := size_sortKeys h
    omega
  · split at h
    · have hlimit := size_range h
      omega
    · have hlimit := size_limits h
      omega

theorem Query.size_parts {d : Dialect} {lock : Option LockScope} {q : Query}
    (h : m ∈ q.parts d lock) : m.size < sizeOf q := by
  cases q with
  | spec s =>
      have hs : m.size < sizeOf s := s.size_parts h
      rw [spec.sizeOf_spec]
      omega
  | group g =>
      have hg : m.size < sizeOf g := g.size_parts h
      rw [group.sizeOf_spec]
      omega

theorem Expr.size_parts {e : Expr} (h : m ∈ e.parts) : m.size < sizeOf e := by
  cases e with
  | column | literal | parameter | star => cases h
  | tuple es | summarization _ es =>
      have hes : m.size < sizeOf es := size_exprs h
      simp only [tuple.sizeOf_spec, summarization.sizeOf_spec]
      omega
  | function f es distinct =>
      have hes : m.size < sizeOf es := size_exprs h
      simp only [function.sizeOf_spec]
      omega
  | binary left op right =>
      simp only [parts, List.mem_cons, List.not_mem_nil, or_false] at h
      rcases h with rfl | rfl <;> simp only [size, binary.sizeOf_spec] <;> omega
  | negate e | cast e type =>
      obtain rfl : m = .expr e := List.mem_singleton.1 h
      simp only [size, negate.sizeOf_spec, cast.sizeOf_spec]
      omega
  | «case» branches otherwise =>
      simp only [parts, List.mem_append, List.mem_flatMap, exprs, List.mem_map, Option.mem_toList,
        List.mem_cons, List.not_mem_nil, or_false] at h
      rw [case.sizeOf_spec]
      rcases h with ⟨b, hb, h⟩ | ⟨e, rfl, rfl⟩
      · have hbranch := List.sizeOf_lt_of_mem hb
        obtain ⟨condition, result⟩ := b
        rw [WhenClause.mk.sizeOf_spec] at hbranch
        rcases h with rfl | rfl <;> simp only [size] <;> omega
      · simp only [size, Option.some.sizeOf_spec]
        omega
  | subquery q | quantified _ q =>
      obtain rfl : m = .query none q := List.mem_singleton.1 h
      simp only [size, subquery.sizeOf_spec, quantified.sizeOf_spec]
      omega
  | windowed f partitionBy keys frame =>
      simp only [parts, List.mem_cons, List.mem_append] at h
      rw [windowed.sizeOf_spec]
      rcases h with rfl | h | h
      · simp only [size]
        omega
      · have hitem := size_items h
        omega
      · have hkey := size_sortKeys h
        omega

namespace Comparison

variable {d : Dialect} {op : ComparisonOperator}

theorem size_selectTupleParts {ss ls : List Expr} (h : m ∈ selectTupleParts d ss op ls) :
    (∃ c ∈ ss, m.size ≤ sizeOf c) ∨ ∃ l ∈ ls, m.size ≤ sizeOf l ∨
      ∃ c ∈ ss, m.size ≤ sizeOf c + sizeOf l + 2 := by
  rw [selectTupleParts] at h
  split at h
  · obtain ⟨e, he, rfl⟩ := List.mem_map.1 h
    rcases List.mem_append.1 he with he | he
    · exact .inl ⟨e, he, le_rfl⟩
    · exact .inr ⟨e, he, .inl le_rfl⟩
  · obtain ⟨c, hc, l, hl, hsize⟩ := size_rows h
    exact .inr ⟨l, hl, .inr ⟨c, hc, hsize⟩⟩

theorem size_subqueryParts {ls : List Expr} {q : Query} (h : m ∈ subqueryParts d ls op q) :
    m.size < sizeOf q ∨ ∃ l ∈ ls, m.size ≤ sizeOf l + sizeOf q := by
  cases q with
  | group g => cases h
  | spec s =>
      obtain ⟨distinct, selections, roots, restriction, groupBy, having, keys, offset, fetch, kind⟩ := s
      rw [Query.spec.sizeOf_spec, QuerySpec.mk.sizeOf_spec]
      simp only [subqueryParts, List.mem_append] at h
      rcases h with (h | h) | h
      · have htable := QuerySpec.size_tables h
        dsimp only at htable
        omega
      · have hrestriction := size_given h
        omega
      · rcases size_selectTupleParts h with ⟨c, hc, hsize⟩ | ⟨l, hl, hsize | ⟨c, hc, hsize⟩⟩
        · have hcolumn := QuerySpec.size_columns hc
          dsimp only at hcolumn
          omega
        · exact .inr ⟨l, hl, by omega⟩
        · have hcolumn := QuerySpec.size_columns hc
          dsimp only at hcolumn
          exact .inr ⟨l, hl, by omega⟩

theorem size_pair {lhs rhs : Expr} (h : m ∈ [expr lhs, expr rhs]) :
    m.size ≤ sizeOf lhs + sizeOf rhs := by
  simp only [List.mem_cons, List.not_mem_nil, or_false] at h
  rcases h with rfl | rfl <;> simp only [size] <;> omega

/-- What a tuple and a query are rendered from, each for itself or the one in the other. -/
theorem size_against {lhs rhs : Expr} {q : Query} {native : Bool} (hq : sizeOf q ≤ sizeOf rhs)
    (h : m ∈ if lhs.isTuple && !native then subqueryParts d lhs.elements op q
      else [expr lhs, expr rhs]) : m.size ≤ sizeOf lhs + sizeOf rhs := by
  split at h
  · rcases size_subqueryParts h with hsize | ⟨l, hl, hsize⟩
    · omega
    · have hl := Expr.sizeOf_elements hl
      omega
  · exact size_pair h

/-- Two elements are smaller than the tuples that they come from. -/
theorem size_tuples {lhs rhs : Expr} (hl : lhs.isTuple = true) (hr : rhs.isTuple = true)
    (h : m ∈ rows lhs.elements op rhs.elements) : m.size ≤ sizeOf lhs + sizeOf rhs := by
  obtain ⟨l, hlmem, r, hrmem, hsize⟩ := size_rows h
  have hleft := Expr.sizeOf_elements_lt hl hlmem
  have hright := Expr.sizeOf_elements_lt hr hrmem
  omega

theorem size_standardParts {lhs rhs : Expr} (h : m ∈ standardParts d lhs op rhs) :
    m.size ≤ sizeOf lhs + sizeOf rhs := by
  rw [standardParts.eq_def] at h
  split at h
  · exact size_against (by simp only [Expr.quantified.sizeOf_spec]; omega) h
  · exact size_against (by simp only [Expr.subquery.sizeOf_spec]; omega) h
  · split at h
    · rename_i hrule
      exact size_tuples (Bool.and_eq_true_iff.1 hrule).1 rfl h
    · exact size_pair h
  · exact size_pair h

theorem size_parts {lhs rhs : Expr} (h : m ∈ parts d lhs op rhs) :
    m.size ≤ sizeOf lhs + sizeOf rhs := by
  rw [parts] at h
  split at h
  · exact size_standardParts h
  · split at h
    · obtain ⟨e, he, rfl⟩ := List.mem_map.1 h
      rcases List.mem_append.1 he with he | he <;>
        have hsize := Expr.sizeOf_elements he <;> simp only [size] <;> omega
    · exact size_standardParts h
  · split at h
    · rename_i hboth
      obtain ⟨hl, hr⟩ := Bool.and_eq_true_iff.1 hboth
      exact size_tuples hl hr h
    · exact size_standardParts h

end Comparison

theorem Predicate.size_parts {d : Dialect} {p : Predicate} (h : m ∈ p.parts d) :
    m.size < sizeOf p := by
  cases p with
  | comparison lhs op rhs =>
      have hsize : m.size ≤ sizeOf lhs + sizeOf rhs := Comparison.size_parts h
      rw [comparison.sizeOf_spec]
      omega
  | junction nature members =>
      obtain ⟨p, hp, rfl⟩ := List.mem_map.1 h
      have hmember := List.sizeOf_lt_of_mem hp
      simp only [size, junction.sizeOf_spec]
      omega
  | negated p =>
      obtain rfl : m = .predicate p := List.mem_singleton.1 h
      simp only [size, negated.sizeOf_spec]
      omega
  | nullCheck e negated =>
      rw [parts] at h
      rw [nullCheck.sizeOf_spec]
      split at h
      · obtain ⟨x, hx, rfl⟩ := List.mem_map.1 h
        have hsize := Expr.sizeOf_elements hx
        simp only [size]
        omega
      · obtain rfl : m = .expr e := List.mem_singleton.1 h
        simp only [size]
        omega
  | inList e list negated =>
      rw [parts] at h
      rw [inList.sizeOf_spec]
      split at h
      · cases h
      split at h
      · obtain ⟨i, hi, h⟩ := List.mem_flatMap.1 h
        obtain ⟨l, hl, r, hr, hsize⟩ := size_rows h
        have hleft := Expr.sizeOf_elements hl
        have hright := Expr.sizeOf_elements hr
        have hitem := List.sizeOf_lt_of_mem hi
        have hnegated : sizeOf negated = 1 := by cases negated <;> rfl
        omega
      · have hsize := size_exprs h
        simp only [List.cons.sizeOf_spec] at hsize
        omega
  | inSubquery e q negated =>
      rw [parts] at h
      rw [inSubquery.sizeOf_spec]
      split at h
      · rcases Comparison.size_subqueryParts h with hsize | ⟨l, hl, hsize⟩
        · omega
        · have hleft := Expr.sizeOf_elements hl
          omega
      · simp only [List.mem_cons, List.not_mem_nil, or_false] at h
        rcases h with rfl | rfl <;> simp only [size] <;> omega
  | «exists» q negated =>
      obtain rfl : m = .query none q := List.mem_singleton.1 h
      simp only [size, exists.sizeOf_spec]
      omega
  | between e low high negated =>
      rw [parts] at h
      rw [between.sizeOf_spec]
      split at h
      · have hnegated : sizeOf negated = 1 := by cases negated <;> rfl
        have hlow := low.sizeOf_pos
        have hhigh := high.sizeOf_pos
        rcases List.mem_append.1 h with h | h
        all_goals
          obtain ⟨l, hl, r, hr, hsize⟩ := size_rows h
          have hleft := Expr.sizeOf_elements hl
          have hright := Expr.sizeOf_elements hr
          omega
      · simp only [exprs, List.map_cons, List.map_nil, List.mem_cons, List.not_mem_nil, or_false] at h
        rcases h with rfl | rfl | rfl <;> simp only [size] <;> omega
  | like e pattern escape negated =>
      simp only [parts, exprs, List.map_cons, List.map_nil, List.mem_cons, List.not_mem_nil,
        or_false] at h
      rcases h with rfl | rfl <;> simp only [size, like.sizeOf_spec] <;> omega
  | boolean e =>
      obtain rfl : m = .expr e := List.mem_singleton.1 h
      simp only [size, boolean.sizeOf_spec]
      omega

/-- What a node is rendered from is smaller. -/
theorem Node.size_parts {d : Dialect} {n : Node} (h : m ∈ n.parts d) : m.size < n.size := by
  cases n with
  | expr e => exact e.size_parts h
  | predicate p => exact p.size_parts h
  | query lock q => exact q.size_parts h

end DialectSql
