import DialectSql.Proofs.Layer.Query
import DialectSql.Proofs.Scope.Reference

namespace DialectSql

open Node

variable {catalog : Catalog} {i : FromItem} {m : Node} {level : Option NameScope}

theorem joinItems_size {js : List TableJoin} (h : i ∈ (joinItems catalog js).flatten) :
    sizeOf i.source < sizeOf js ∧ sizeOf i.condition < sizeOf js := by
  match js with
  | [] => simp [joinItems] at h
  | ⟨type, ⟨reference, label, joins⟩, p, lateral⟩ :: js =>
      simp only [List.cons.sizeOf_spec, TableJoin.mk.sizeOf_spec, TableGroup.mk.sizeOf_spec]
      rw [joinItems] at h
      rcases Output.Layers.mem_mergeLevels.1 h with h | h
      · rw [List.flatten_cons, List.singleton_append] at h
        rcases List.mem_cons.1 h with rfl | h
        · dsimp only
          have hnone : sizeOf (none : Option Predicate) = 1 := rfl
          split <;> omega
        · have hjoins := joinItems_size h
          omega
      · have hjoins := joinItems_size h
        omega

theorem rootItems_size {gs : List TableGroup} (h : i ∈ rootItems catalog gs) :
    sizeOf i.source < sizeOf gs ∧ sizeOf i.condition < sizeOf gs := by
  induction gs with
  | nil => simp [rootItems] at h
  | cons g gs ih =>
      obtain ⟨reference, label, joins⟩ := g
      simp only [List.cons.sizeOf_spec, TableGroup.mk.sizeOf_spec]
      rw [rootItems] at h
      rcases List.mem_cons.1 h with rfl | h
      · have hnone : sizeOf (none : Option Predicate) = 1 := rfl
        dsimp only
        omega
      rcases List.mem_append.1 h with h | h
      · have hjoins := joinItems_size h
        omega
      · have hrest := ih h
        omega

theorem FromItem.size_contents {scope before : NameScope} {is : List FromItem}
    (h : (level, m) ∈ contents scope before is) :
    ∃ i ∈ is, m.size < sizeOf i.source ∨ m.size < sizeOf i.condition := by
  induction is generalizing before with
  | nil => cases h
  | cons i is ih =>
      simp only [contents, List.mem_append, List.mem_map, Prod.mk.injEq] at h
      rcases h with (⟨n, hn, -, rfl⟩ | ⟨n, hn, -, rfl⟩) | h
      · exact ⟨i, by simp, .inl (TableReference.size_parts hn)⟩
      · exact ⟨i, by simp, .inr (size_given hn)⟩
      · obtain ⟨j, hj, hsize⟩ := ih h
        exact ⟨j, List.mem_cons_of_mem _ hj, hsize⟩

theorem QuerySpec.size_contents {s : QuerySpec} (h : (level, m) ∈ s.contents catalog) :
    m.size < sizeOf s := by
  obtain ⟨distinct, items, roots, restriction, groupBy, having, keys, offset, fetch, kind⟩ := s
  rw [mk.sizeOf_spec]
  simp only [contents, List.mem_append, List.mem_map, Prod.mk.injEq, existsAndEq, and_true] at h
  rcases h with (h | ⟨(((h | h) | h) | h) | h, -⟩) | ⟨h, -⟩
  · obtain ⟨i, hi, hsize⟩ := FromItem.size_contents h
    have hroots : sizeOf i.source < sizeOf roots ∧ sizeOf i.condition < sizeOf roots :=
      rootItems_size hi
    omega
  · obtain ⟨c, hc, rfl⟩ := List.mem_map.1 h
    have hcolumn := size_columns hc
    dsimp only [size] at hcolumn ⊢
    omega
  · have hrestriction := size_given h
    omega
  · have hitem := size_exprs h
    omega
  · have hhaving := size_given h
    omega
  · have hlimit := size_bounds h
    omega
  · have hkey := size_sortKeys h
    omega

theorem QueryGroup.size_contents {g : QueryGroup} (h : (level, m) ∈ g.contents catalog) :
    m.size < sizeOf g := by
  obtain ⟨operator, members, keys, offset, fetch, kind⟩ := g
  rw [mk.sizeOf_spec]
  simp only [contents, List.mem_append, List.mem_map, Prod.mk.injEq, existsAndEq, and_true] at h
  rcases h with ⟨q, hq, -, rfl⟩ | ⟨h | h, -⟩
  · have hmember := List.sizeOf_lt_of_mem hq
    simp only [size]
    omega
  · have hkey := size_sortKeys h
    omega
  · have hlimit := size_bounds h
    omega

theorem Predicate.size_operands {p : Predicate} (h : m ∈ p.operands) : m.size < sizeOf p := by
  cases p with
  | junction nature members =>
      obtain ⟨p, hp, rfl⟩ := List.mem_map.1 h
      have hmember := List.sizeOf_lt_of_mem hp
      simp only [size, junction.sizeOf_spec]
      omega
  | inList e list negated =>
      have hsize : m.size < sizeOf (e :: list) := size_exprs h
      simp only [List.cons.sizeOf_spec, inList.sizeOf_spec] at hsize ⊢
      omega
  | negated | nullCheck | «exists» | boolean =>
      obtain rfl := List.mem_singleton.1 h
      simp only [size, negated.sizeOf_spec, nullCheck.sizeOf_spec, exists.sizeOf_spec,
        boolean.sizeOf_spec]
      omega
  | comparison | inSubquery | like =>
      simp only [operands, exprs, List.map_cons, List.map_nil, List.mem_cons, List.not_mem_nil,
        or_false] at h
      rcases h with rfl | rfl <;> simp [size] <;> omega
  | between =>
      simp only [operands, exprs, List.map_cons, List.map_nil, List.mem_cons, List.not_mem_nil,
        or_false] at h
      rcases h with rfl | rfl | rfl <;> simp [size] <;> omega

/-- What stands in a node is smaller. -/
theorem Node.size_contents {n : Node} (h : (level, m) ∈ n.contents catalog) : m.size < n.size := by
  cases n with
  | expr e =>
      simp only [contents, List.mem_map, Prod.mk.injEq, existsAndEq, and_true] at h
      exact e.size_parts h.1
  | predicate p =>
      simp only [contents, List.mem_map, Prod.mk.injEq, existsAndEq, and_true] at h
      exact p.size_operands h.1
  | query lock q =>
      cases q with
      | spec s =>
          have hs : m.size < sizeOf s := s.size_contents h
          rw [size, Query.spec.sizeOf_spec]
          omega
      | group g =>
          have hg : m.size < sizeOf g := g.size_contents h
          rw [size, Query.group.sizeOf_spec]
          omega

end DialectSql
