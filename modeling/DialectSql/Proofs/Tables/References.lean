import DialectSql.Render.Session

namespace DialectSql

mutual

/-- The tables that are named in an expression, in its queries at any depth. An empty list has no
members, whatever is looked for in it. -/
def Expr.references : Expr → List NamedTable
  | .column .. | .literal _ | .parameter _ | .star _ => []
  | .tuple es | .summarization _ es | .function _ es _ => Expr.listReferences es
  | .binary left _ right => left.references ++ right.references
  | .negate e | .cast e _ => e.references
  | .case branches otherwise =>
      WhenClause.listReferences branches ++ Expr.optionReferences otherwise
  | .subquery q | .quantified _ q => q.references
  | .windowed function items keys _ =>
      function.references ++ Expr.listReferences items ++ SortKey.listReferences keys

def Expr.listReferences : List Expr → List NamedTable
  | [] => []
  | e :: es => e.references ++ Expr.listReferences es

def Expr.optionReferences : Option Expr → List NamedTable
  | none => []
  | some e => e.references

def WhenClause.listReferences : List WhenClause → List NamedTable
  | [] => []
  | ⟨condition, result⟩ :: bs =>
      condition.references ++ result.references ++ WhenClause.listReferences bs

def SortKey.listReferences : List SortKey → List NamedTable
  | [] => []
  | ⟨e, _, _⟩ :: ks => e.references ++ SortKey.listReferences ks

def Predicate.references : Predicate → List NamedTable
  | .comparison lhs _ rhs => lhs.references ++ rhs.references
  | .junction _ members => Predicate.listReferences members
  | .negated p => p.references
  | .nullCheck e _ | .boolean e => e.references
  | .inList _ [] _ => []
  | .inList e (i :: items) _ => e.references ++ (i.references ++ Expr.listReferences items)
  | .inSubquery e q _ => e.references ++ q.references
  | .exists q _ => q.references
  | .between e low high _ => e.references ++ low.references ++ high.references
  | .like e pattern _ _ => e.references ++ pattern.references

def Predicate.listReferences : List Predicate → List NamedTable
  | [] => []
  | p :: ps => p.references ++ Predicate.listReferences ps

def Predicate.optionReferences : Option Predicate → List NamedTable
  | none => []
  | some p => p.references

def Selection.listReferences : List Selection → List NamedTable
  | [] => []
  | ⟨e, _⟩ :: ss => e.references ++ Selection.listReferences ss

def TableReference.references : TableReference → List NamedTable
  | .named t => [t]
  | .derived q _ => q.references

def TableGroup.references : TableGroup → List NamedTable
  | ⟨reference, _, joins⟩ => reference.references ++ TableJoin.listReferences joins

def TableGroup.listReferences : List TableGroup → List NamedTable
  | [] => []
  | g :: gs => g.references ++ TableGroup.listReferences gs

def TableJoin.listReferences : List TableJoin → List NamedTable
  | [] => []
  | ⟨_, joined, p, _⟩ :: js =>
      joined.references ++ Predicate.optionReferences p ++ TableJoin.listReferences js

def Query.references : Query → List NamedTable
  | .spec s => s.references
  | .group g => g.references

def QuerySpec.references : QuerySpec → List NamedTable
  | ⟨_, items, roots, restriction, groupBy, having, keys, offset, fetch, _⟩ =>
      Selection.listReferences items ++ TableGroup.listReferences roots ++
        Predicate.optionReferences restriction ++ Expr.listReferences groupBy ++
        Predicate.optionReferences having ++ SortKey.listReferences keys ++
        Expr.optionReferences offset ++ Expr.optionReferences fetch

def QueryGroup.references : QueryGroup → List NamedTable
  | ⟨_, members, keys, offset, fetch, _⟩ =>
      Query.listReferences members ++ SortKey.listReferences keys ++ Expr.optionReferences offset ++
        Expr.optionReferences fetch

def Query.listReferences : List Query → List NamedTable
  | [] => []
  | q :: qs => q.references ++ Query.listReferences qs

end

def TableJoin.references (j : TableJoin) : List NamedTable :=
  j.joined.references ++ Predicate.optionReferences j.predicate

section

variable {t : NamedTable}

theorem Expr.mem_listReferences {es : List Expr} :
    t ∈ listReferences es ↔ ∃ e ∈ es, t ∈ e.references := by
  induction es with
  | nil => simp [listReferences]
  | cons e es ih => simp [listReferences, ih]

theorem Expr.mem_optionReferences {e : Option Expr} :
    t ∈ optionReferences e ↔ ∃ x ∈ e, t ∈ x.references := by
  cases e <;> simp [optionReferences]

theorem WhenClause.mem_listReferences {bs : List WhenClause} :
    t ∈ listReferences bs ↔ ∃ b ∈ bs, t ∈ b.condition.references ∨ t ∈ b.result.references := by
  induction bs with
  | nil => simp [listReferences]
  | cons b bs ih =>
      obtain ⟨condition, result⟩ := b
      simp [listReferences, ih, or_assoc]

theorem SortKey.mem_listReferences {ks : List SortKey} :
    t ∈ listReferences ks ↔ ∃ k ∈ ks, t ∈ k.expr.references := by
  induction ks with
  | nil => simp [listReferences]
  | cons k ks ih =>
      obtain ⟨e, direction, nulls⟩ := k
      simp [listReferences, ih]

theorem Predicate.mem_listReferences {ps : List Predicate} :
    t ∈ listReferences ps ↔ ∃ p ∈ ps, t ∈ p.references := by
  induction ps with
  | nil => simp [listReferences]
  | cons p ps ih => simp [listReferences, ih]

theorem Predicate.mem_optionReferences {p : Option Predicate} :
    t ∈ optionReferences p ↔ ∃ x ∈ p, t ∈ x.references := by
  cases p <;> simp [optionReferences]

theorem Selection.mem_listReferences {ss : List Selection} :
    t ∈ listReferences ss ↔ ∃ s ∈ ss, t ∈ s.expr.references := by
  induction ss with
  | nil => simp [listReferences]
  | cons s ss ih =>
      obtain ⟨e, label⟩ := s
      simp [listReferences, ih]

theorem TableGroup.mem_listReferences {gs : List TableGroup} :
    t ∈ listReferences gs ↔ ∃ g ∈ gs, t ∈ g.references := by
  induction gs with
  | nil => simp [listReferences]
  | cons g gs ih => simp [listReferences, ih]

theorem TableJoin.mem_listReferences {js : List TableJoin} :
    t ∈ listReferences js ↔ ∃ j ∈ js, t ∈ j.references := by
  induction js with
  | nil => simp [listReferences]
  | cons j js ih =>
      obtain ⟨type, joined, p, lateral⟩ := j
      simp [listReferences, TableJoin.references, ih, or_assoc]

theorem Query.mem_listReferences {qs : List Query} :
    t ∈ listReferences qs ↔ ∃ q ∈ qs, t ∈ q.references := by
  induction qs with
  | nil => simp [listReferences]
  | cons q qs ih => simp [listReferences, ih]

end

/-- A predicate that has no members has no tables. -/
theorem Predicate.references_of_isEmpty {p : Predicate} (h : p.isEmpty = true) :
    p.references = [] := by
  cases p with
  | junction nature members => rw [references, List.isEmpty_iff.1 h, listReferences]
  | _ => cases h

@[simp] theorem Expr.listReferences_elements (e : Expr) :
    listReferences e.elements = e.references := by
  cases e with
  | tuple es => rfl
  | _ => simp [elements, listReferences]

theorem Expr.mem_references_elements {e : Expr} {t : NamedTable} :
    t ∈ e.references ↔ ∃ x ∈ e.elements, t ∈ x.references := by
  rw [← listReferences_elements, mem_listReferences]

end DialectSql
