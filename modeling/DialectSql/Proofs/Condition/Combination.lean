import DialectSql.Ast.Builder
import DialectSql.Proofs.Condition.Formula

namespace DialectSql

namespace JunctionNature

def connectTruths : JunctionNature → Truth → Truth → Truth
  | conjunction => .and
  | disjunction => .or

theorem truth_append (nature : JunctionNature) (ts us : List Truth) :
    nature.truth (ts ++ us) = nature.connectTruths (nature.truth ts) (nature.truth us) := by
  cases nature with
  | conjunction => exact Truth.all_append ts us
  | disjunction => exact Truth.any_append ts us

theorem truth_singleton (nature : JunctionNature) (t : Truth) : nature.truth [t] = t := by
  cases nature with
  | conjunction => exact Truth.and_true t
  | disjunction => exact Truth.or_false t

end JunctionNature

theorem allUnder_eq_map (assigned : Predicate → Truth) (ps : List Predicate) :
    allUnder assigned ps = ps.map (Predicate.under assigned) := by
  induction ps with
  | nil => rfl
  | cons p ps ih => rw [allUnder, List.map_cons, ih]

namespace Predicate

variable (nature : JunctionNature) (p q r : Predicate)

/-- The members that a predicate brings to a junction have together the value of the predicate. -/
theorem truth_membersFor (assigned : Predicate → Truth) :
    nature.truth ((p.membersFor nature).map (under assigned)) = p.under assigned := by
  cases p with
  | junction inner members =>
      rw [membersFor]
      split
      · next h => rw [h, under, allUnder_eq_map]
      · exact nature.truth_singleton _
  | _ => exact nature.truth_singleton _

theorem under_combine (assigned : Predicate → Truth) :
    (p.combine nature q).under assigned =
      nature.connectTruths (p.under assigned) (q.under assigned) := by
  rw [combine, under, allUnder_eq_map, List.map_append, nature.truth_append,
    p.truth_membersFor nature, q.truth_membersFor nature]

theorem membersFor_combine :
    (p.combine nature q).membersFor nature = p.membersFor nature ++ q.membersFor nature := by
  rw [combine, membersFor, if_pos rfl]

theorem combine_assoc :
    (p.combine nature q).combine nature r = p.combine nature (q.combine nature r) := by
  rw [combine, membersFor_combine, List.append_assoc, ← membersFor_combine nature q r]
  rfl

/-- A restriction that has the value of the conjunction of some predicates, and is missing only if
there are none. -/
def Conjoins (ps : List Predicate) : Option Predicate → Prop
  | none => ps = []
  | some p => ps ≠ [] ∧ ∀ assigned, p.under assigned = .all (ps.map (under assigned))

theorem conjoins_toList (existing : Option Predicate) : Conjoins existing.toList existing := by
  cases existing with
  | none => rfl
  | some p => exact ⟨by simp, fun assigned => by simp⟩

variable {p} {ps : List Predicate} {existing : Option Predicate}

theorem Conjoins.restrict (h : Conjoins ps existing) (p : Predicate) :
    Conjoins (ps ++ [p]) (Predicate.restrict existing p) := by
  cases existing with
  | none =>
      obtain rfl : ps = [] := h
      exact ⟨by simp, fun assigned => by simp⟩
  | some q =>
      refine ⟨by simp, fun assigned => ?_⟩
      calc (q.and p).under assigned = (q.under assigned).and (p.under assigned) :=
            under_combine .conjunction q p assigned
        _ = (Truth.all (ps.map (under assigned))).and (Truth.all [p.under assigned]) := by
            rw [h.2, Truth.all_cons, Truth.all_nil, Truth.and_true]
        _ = .all ((ps ++ [p]).map (under assigned)) := by
            rw [List.map_append, Truth.all_append, List.map_singleton]

theorem Conjoins.foldl (h : Conjoins ps existing) (qs : List Predicate) :
    Conjoins (ps ++ qs) (qs.foldl Predicate.restrict existing) := by
  induction qs generalizing ps existing with
  | nil => simpa using h
  | cons q qs ih => simpa using ih (h.restrict q)

/-- What a statement holds besides its restriction stays while it is restricted. -/
theorem conjoins_statement {σ : Type} (restrict : σ → Predicate → σ) (put : Option Predicate → σ)
    (hput : ∀ r p, restrict (put r) p = put (Predicate.restrict r p)) (existing : Option Predicate)
    (ps : List Predicate) : ∃ restriction, ps.foldl restrict (put existing) = put restriction ∧
      Conjoins (existing.toList ++ ps) restriction :=
  ⟨ps.foldl Predicate.restrict existing, List.foldl_hom put hput,
    (conjoins_toList existing).foldl ps⟩

/-- Predicates combine to the conjunction or the disjunction of their values, and how they are
grouped does not matter to the tree. The restriction of a query, an update or a delete is therefore
the conjunction of all that it was restricted by, and the rest of the statement stays. -/
theorem combination_truth :
    (∀ (p q : Predicate) (assigned : Predicate → Truth),
      (p.and q).under assigned = (p.under assigned).and (q.under assigned) ∧
        (p.or q).under assigned = (p.under assigned).or (q.under assigned)) ∧
    (∀ p q r : Predicate, (p.and q).and r = p.and (q.and r) ∧ (p.or q).or r = p.or (q.or r)) ∧
    (∀ (s : QuerySpec) (ps : List Predicate), ∃ restriction,
      ps.foldl QuerySpec.restrict s = { s with restriction } ∧
        Conjoins (s.restriction.toList ++ ps) restriction) ∧
    (∀ (s : UpdateStatement) (ps : List Predicate), ∃ restriction,
      ps.foldl UpdateStatement.restrict s = { s with restriction } ∧
        Conjoins (s.restriction.toList ++ ps) restriction) ∧
    ∀ (s : DeleteStatement) (ps : List Predicate), ∃ restriction,
      ps.foldl DeleteStatement.restrict s = { s with restriction } ∧
        Conjoins (s.restriction.toList ++ ps) restriction := by
  refine ⟨fun p q assigned => ?_, fun p q r => ?_, fun s ps => ?_, fun s ps => ?_, fun s ps => ?_⟩
  · exact ⟨under_combine .conjunction p q assigned, under_combine .disjunction p q assigned⟩
  · exact ⟨combine_assoc .conjunction p q r, combine_assoc .disjunction p q r⟩
  · obtain ⟨distinct, selections, roots, existing, groups, having, order, offset, fetch, kind⟩ := s
    exact conjoins_statement QuerySpec.restrict
      (fun restriction =>
        ⟨distinct, selections, roots, restriction, groups, having, order, offset, fetch, kind⟩)
      (fun _ _ => rfl) existing ps
  · obtain ⟨target, assignments, existing⟩ := s
    exact conjoins_statement UpdateStatement.restrict
      (fun restriction => ⟨target, assignments, restriction⟩) (fun _ _ => rfl) existing ps
  · obtain ⟨target, existing⟩ := s
    exact conjoins_statement DeleteStatement.restrict (fun restriction => ⟨target, restriction⟩)
      (fun _ _ => rfl) existing ps

end Predicate

end DialectSql
