import DialectSql.Proofs.Condition.Formula

namespace DialectSql

variable {α : Type*} [LinearOrder α]

/-- The value of a rendered condition, if it was rendered to its end. -/
def Output.value? (V : Valuation α) (o : Output) : Option Truth :=
  if o.failure = none then o.truth? V else none

theorem Output.value?_eq (V : Valuation α) {allowed : Lexeme → Bool} {o : Output}
    (h : o.Within allowed) (hok : o.failure = none) :
    o.value? V = some (Condition.partsTruth V o.parts) := by
  rw [value?, if_pos hok, truth?_eq V h hok]

mutual

/-- The value of a predicate. Junctions and negations are evaluated by their members, down to
predicates that are neither and have the value that their own text has. -/
def Predicate.truth (V : Valuation α) (d : Dialect) : Predicate → Truth
  | .junction nature members => nature.truth (truths V d members)
  | .negated p => (p.truth V d).not
  | p => ((Render.predicate d p).value? V).getD .unknown

def truths (V : Valuation α) (d : Dialect) : List Predicate → List Truth
  | [] => []
  | p :: ps => p.truth V d :: truths V d ps

end

theorem Predicate.truth_condition (V : Valuation α) {d : Dialect} {p : Predicate}
    (hok : (Render.predicate d p).failure = none) :
    (p.condition d).truth V = ((Render.predicate d p).value? V).getD .unknown := by
  rw [Output.value?_eq V (Render.predicate_within d p) hok, Option.getD_some,
    ← Condition.truth_ofParts, ← Predicate.condition_eq hok]

mutual

/-- The values of the texts of its atoms, assigned to the atoms, give a predicate its value. -/
theorem Predicate.under_condition (V : Valuation α) (d : Dialect) (p : Predicate)
    (hatoms : ∀ a ∈ p.atoms, (Render.predicate d a).failure = none) :
    p.under (fun a => (a.condition d).truth V) = p.truth V d := by
  match p with
  | .junction nature members =>
      rw [Predicate.under, Predicate.truth, allUnder_condition V d members hatoms]
  | .negated p => rw [Predicate.under, Predicate.truth, p.under_condition V d hatoms]
  | .comparison .. | .nullCheck .. | .inList .. | .inSubquery .. | .exists .. | .between .. |
    .like .. | .boolean .. =>
      exact Predicate.truth_condition V (hatoms _ (List.mem_singleton_self _))

theorem allUnder_condition (V : Valuation α) (d : Dialect) (ps : List Predicate)
    (hatoms : ∀ a ∈ atomsOf ps, (Render.predicate d a).failure = none) :
    allUnder (fun a => (a.condition d).truth V) ps = truths V d ps := by
  match ps with
  | [] => rfl
  | p :: ps =>
      rw [atomsOf, List.forall_mem_append] at hatoms
      rw [allUnder, truths, p.under_condition V d hatoms.1, allUnder_condition V d ps hatoms.2]

end

namespace Render

theorem partsTruth_emptySql (V : Valuation α) (nature : JunctionNature) :
    Condition.partsTruth V (Output.word nature.emptySql).parts = nature.truth [] := by
  cases nature <;> rfl

/-- The text of a predicate has the value of the predicate. -/
theorem partsTruth_predicate (d : Dialect) (V : Valuation α) (p : Predicate)
    (hok : (predicate d p).failure = none) :
    Condition.partsTruth V (predicate d p).parts = p.truth V d := by
  rw [← Condition.truth_ofParts, ofParts_predicate d p hok, Formula.truth_condition,
    p.truth_formula, p.under_condition V d ((failure_predicate d p).1 hok)]

end Render

end DialectSql
