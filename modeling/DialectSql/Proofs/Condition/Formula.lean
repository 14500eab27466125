import DialectSql.Proofs.Condition.Value
import DialectSql.Proofs.Layer.Query

namespace DialectSql

/-- A formula of propositional logic over atoms. -/
inductive Formula (α : Type*)
  | atom (a : α)
  | constant (value : Bool)
  | not (f : Formula α)
  | and (f g : Formula α)
  | or (f g : Formula α)
deriving DecidableEq, Repr

namespace Formula

variable {α : Type*}

/-- The value of a formula where values are assigned to its atoms. -/
def truth (assigned : α → Truth) : Formula α → Truth
  | atom a => assigned a
  | constant value => .ofBool value
  | not f => (f.truth assigned).not
  | and f g => (f.truth assigned).and (g.truth assigned)
  | or f g => (f.truth assigned).or (g.truth assigned)

/-- The condition that has the formula's connectives and a condition for each atom. A constant is a
comparison of two numbers. -/
def condition (own : α → Condition) : Formula α → Condition
  | atom a => own a
  | constant value => .comparison [.number 1] .equal [.number (if value then 1 else 0)]
  | not f => .not (f.condition own)
  | and f g => .and (f.condition own) (g.condition own)
  | or f g => .or (f.condition own) (g.condition own)

theorem truth_condition {β : Type*} [LinearOrder β] (V : Valuation β) (own : α → Condition)
    (f : Formula α) : (f.condition own).truth V = f.truth fun a => (own a).truth V := by
  induction f with
  | atom a => rfl
  | constant value => cases value <;> rfl
  | not f ih => rw [condition, Condition.truth, ih]; rfl
  | and f g hf hg => rw [condition, Condition.truth, hf, hg]; rfl
  | or f g hf hg => rw [condition, Condition.truth, hf, hg]; rfl

end Formula

namespace JunctionNature

def truth : JunctionNature → List Truth → Truth
  | conjunction => .all
  | disjunction => .any

/-- The word that a junction is written with. -/
def word : JunctionNature → String
  | conjunction => "and"
  | disjunction => "or"

def connect {α : Type*} : JunctionNature → Formula α → Formula α → Formula α
  | conjunction => .and
  | disjunction => .or

/-- The formulas of the members, connected. Without members it is a constant. -/
def formula {α : Type*} (nature : JunctionNature) : List (Formula α) → Formula α
  | [] => .constant (nature = conjunction)
  | [f] => f
  | f :: g :: fs => nature.connect f (formula nature (g :: fs))

def connectConditions : JunctionNature → Condition → Condition → Condition
  | conjunction => .and
  | disjunction => .or

variable {α : Type*} (nature : JunctionNature)

theorem condition_formula (own : α → Condition) {fs : List (Formula α)} (h : fs ≠ []) :
    (nature.formula fs).condition own =
      Condition.joinWith nature.connectConditions (fs.map (Formula.condition own)) := by
  fun_induction formula nature fs with
  | case1 => exact absurd rfl h
  | case2 f => rfl
  | case3 f g fs ih =>
      rw [List.map_cons, List.map_cons, Condition.joinWith, ← List.map_cons, ← ih (by simp)]
      · cases nature <;> rfl
      · simp

theorem truth_formula (assigned : α → Truth) (fs : List (Formula α)) :
    (nature.formula fs).truth assigned = nature.truth (fs.map (Formula.truth assigned)) := by
  fun_induction formula nature fs with
  | case1 => cases nature <;> rfl
  | case2 f => cases nature <;> simp [truth]
  | case3 f g fs ih => cases nature <;> simp [connect, Formula.truth, truth, ih]

end JunctionNature

mutual

/-- The formula that a predicate stands for. Its atoms are the predicates that are neither junctions
nor negations. -/
def Predicate.formula : Predicate → Formula Predicate
  | .junction nature members => nature.formula (formulas members)
  | .negated p => .not p.formula
  | p => .atom p

def formulas : List Predicate → List (Formula Predicate)
  | [] => []
  | p :: ps => p.formula :: formulas ps

end

mutual

def Predicate.atoms : Predicate → List Predicate
  | .junction _ members => atomsOf members
  | .negated p => p.atoms
  | p => [p]

def atomsOf : List Predicate → List Predicate
  | [] => []
  | p :: ps => p.atoms ++ atomsOf ps

end

mutual

/-- The value of a predicate where values are assigned to its atoms. A conjunction without members is
true, and a disjunction without members is false. -/
def Predicate.under (assigned : Predicate → Truth) : Predicate → Truth
  | .junction nature members => nature.truth (allUnder assigned members)
  | .negated p => (p.under assigned).not
  | p => assigned p

def allUnder (assigned : Predicate → Truth) : List Predicate → List Truth
  | [] => []
  | p :: ps => p.under assigned :: allUnder assigned ps

end

mutual

theorem Predicate.truth_formula (assigned : Predicate → Truth) (p : Predicate) :
    p.formula.truth assigned = p.under assigned := by
  match p with
  | .junction nature members =>
      rw [Predicate.formula, Predicate.under, JunctionNature.truth_formula,
        truth_formulas assigned members]
  | .negated p => rw [Predicate.formula, Predicate.under, Formula.truth, p.truth_formula assigned]
  | .comparison .. | .nullCheck .. | .inList .. | .inSubquery .. | .exists .. | .between .. |
    .like .. | .boolean .. => rfl

theorem truth_formulas (assigned : Predicate → Truth) (ps : List Predicate) :
    (formulas ps).map (Formula.truth assigned) = allUnder assigned ps := by
  match ps with
  | [] => rfl
  | p :: ps =>
      rw [formulas, allUnder, List.map_cons, p.truth_formula assigned, truth_formulas assigned ps]

end

namespace Condition

theorem splitOr_joinParts {pss : List (List Part)} (hne : pss ≠ [])
    (h : ∀ ps ∈ pss, IsFactor ps) : splitOr [] (joinParts "or" pss) = pss := by
  induction pss with
  | nil => exact absurd rfl hne
  | cons ps pss ih =>
      have hps := (h ps (by simp)).noOr
      cases pss with
      | nil => rw [joinParts, splitOr_of_none [] hps, List.nil_append]
      | cons qs qss =>
          have hrest := ih (by simp) fun rs hrs => h rs (List.mem_cons_of_mem ps hrs)
          rw [joinParts, splitOr_append, splitOr_of_none [] hps, hrest]
          · rfl
          · simp

theorem splitAnd_joinParts {pss : List (List Part)} (hne : pss ≠ [])
    (h : ∀ ps ∈ pss, IsFactor ps) : splitAnd false [] (joinParts "and" pss) = pss := by
  induction pss with
  | nil => exact absurd rfl hne
  | cons ps pss ih =>
      have hps := h ps (by simp)
      cases pss with
      | nil => exact hps.splitAnd_eq
      | cons qs qss =>
          have hrest := ih (by simp) fun rs hrs => h rs (List.mem_cons_of_mem ps hrs)
          rw [joinParts, hps.together, List.nil_append]
          · exact congrArg (ps :: ·) hrest
          · simp

theorem ofParts_joinParts (nature : JunctionNature) {pss : List (List Part)} (hne : pss ≠ [])
    (h : ∀ ps ∈ pss, IsFactor ps) :
    ofParts (joinParts nature.word pss) = joinWith nature.connectConditions (pss.map ofParts) := by
  have hfactors : pss.map ofParts = pss.map readFactor :=
    List.map_congr_left fun ps hps => (h ps hps).ofParts_eq
  cases nature with
  | conjunction =>
      have hterm := splitOr_of_none [] (noOr_joinParts_and h)
      rw [JunctionNature.word, ofParts, hterm, List.nil_append, List.map_singleton,
        splitAnd_joinParts hne h, hfactors]
      rfl
  | disjunction =>
      rw [JunctionNature.word, ofParts, splitOr_joinParts hne h]
      refine congrArg _ (List.map_congr_left fun ps hps => ?_)
      rw [(h ps hps).splitAnd_eq, (h ps hps).ofParts_eq]
      rfl

end Condition

namespace Output

/-- The condition that a text is read as; none if its brackets do not match. -/
def condition? (o : Output) : Option Condition := (Part.ofPieces? o.pieces).map Condition.ofParts

theorem Within.condition?_eq {allowed : Lexeme → Bool} {o : Output} (h : o.Within allowed)
    (hok : o.failure = none) : o.condition? = some (Condition.ofParts o.parts) := by
  rw [condition?, Part.ofPieces?, (h.reads hok).parts, Option.map_some]

end Output

namespace Render

open Output.Layers (reading)

variable (d : Dialect)

theorem predicate_within (p : Predicate) : (predicate d p).Within Lexeme.ofCondition :=
  reading.predicateHolds d p

theorem isFactor_between {e low high : Output} (negated : Bool)
    (he : e.Within Lexeme.ofTest) (hl : low.Within Lexeme.ofTest) (hh : high.Within Lexeme.ofTest)
    (hok : (e ++ .word (if negated then " not between " else " between ") ++ low ++
      .word " and " ++ high).failure = none) :
    Condition.IsFactor (e ++ .word (if negated then " not between " else " between ") ++ low ++
      .word " and " ++ high).parts := by
  obtain ⟨before, hword, hbefore⟩ : ∃ before,
      Lexeme.ofWord (if negated then " not between " else " between ") = before ++ [.word "between"] ∧
        before.all Lexeme.ofTest = true := by
    cases negated
    · exact ⟨[], by decide, rfl⟩
    · exact ⟨[.word "not"], by decide, by decide⟩
  have hflat : (Lexeme.ofWord (if negated then " not between " else " between ")).all
      Lexeme.ofQuery = true := by cases negated <;> decide
  have heq := reading.query_of_test he
  have hlq := reading.query_of_test hl
  have hwq := reading.ofQuery.word hflat
  obtain ⟨hlowok, hhighok⟩ := Output.failure_append_eq_none.1 hok
  obtain ⟨hlowok, -⟩ := Output.failure_append_eq_none.1 hlowok
  obtain ⟨hheadok, hlok⟩ := Output.failure_append_eq_none.1 hlowok
  obtain ⟨heok, -⟩ := Output.failure_append_eq_none.1 hheadok
  have hparts : (e ++ .word (if negated then " not between " else " between ") ++ low ++
      .word " and " ++ high).parts = (e.parts ++ before.map .leaf) ++
        .word "between" :: (low.parts ++ .word "and" :: high.parts) := by
    rw [Output.parts_separated (w := "and") (by decide) ((heq.append hwq).append hlq)
      (reading.query_of_test hh) hok, Output.parts_append (heq.append hwq) hlq hlowok,
      Output.parts_append heq hwq hheadok, Output.parts_word hflat, hword]
    simp [Part.word]
  -- the `and` in the middle belongs to `between`, and so does not separate factors
  rw [hparts]
  apply Condition.isFactor_range
  · intro p hp
    rcases List.mem_append.1 hp with hp | hp
    · exact he.parts_allowed heok p hp
    · obtain ⟨l, hl, rfl⟩ := List.mem_map.1 hp
      exact List.all_eq_true.1 hbefore l hl
  · exact hl.parts_allowed hlok
  · exact hh.parts_allowed hhighok

theorem isFactor_predicate (p : Predicate) (hp : ∀ nature members, p ≠ .junction nature members)
    (hok : (predicate d p).failure = none) : Condition.IsFactor (predicate d p).parts := by
  have hoperand := reading.operandHolds d
  have hoperands := reading.operandsHolds d
  have hquery := reading.queryHolds d
  have hexpression (e : Expr) : (operand d e).output.Within Lexeme.ofTest :=
    reading.test_of_expression (reading.operand (hoperand e))
  cases p with
  | comparison lhs op rhs =>
      exact Output.Within.isFactor (reading.comparison d _ op _ (hoperand lhs) (hoperand rhs)) hok
  | junction nature members => exact absurd rfl (hp nature members)
  | negated p => exact Output.Within.isFactor (reading.negated (predicate_within d p)) hok
  | nullCheck e negated => exact Output.Within.isFactor (reading.nullCheck (hoperand e) negated) hok
  | inList e list negated =>
      exact Output.Within.isFactor (reading.inList d negated (hoperand e) (hoperands list)) hok
  | inSubquery e q negated =>
      exact Output.Within.isFactor (reading.inSubquery d negated (hoperand e) (hquery q)) hok
  | «exists» q negated => exact Output.Within.isFactor (reading.existence negated (hquery q)) hok
  | between e low high negated =>
      rw [predicate, between] at hok ⊢
      split at hok
      · rename_i hrows
        rw [if_pos hrows]
        exact Output.Within.isFactor (reading.betweenRows d negated (hoperand e).elements
          (hoperand low).elements (hoperand high).elements) hok
      · rename_i hrows
        rw [if_neg hrows]
        exact isFactor_between negated (hexpression e) (hexpression low) (hexpression high) hok
  | like e pattern escape negated =>
      exact Output.Within.isFactor (reading.like escape negated (reading.operand (hoperand e))
        (reading.operand (hoperand pattern))) hok
  | boolean e => exact (hexpression e).isFactor hok

theorem failure_wrap (compound : Bool) (o : Output) : (wrap compound o).failure = o.failure := by
  cases compound with
  | false => rfl
  | true => exact Output.failure_parenthesized o

theorem failure_junction (nature : JunctionNature) (members : List (Bool × Output)) :
    (junction nature members).failure = none ↔ ∀ m ∈ members, m.2.failure = none := by
  match members with
  | [] => simp [junction]
  | [m] => simp [junction]
  | m :: n :: ms =>
      change (Output.joined nature.separator
        ((m :: n :: ms).map fun k => wrap k.1 k.2)).failure = none ↔ _
      rw [Output.failure_joined_eq_none, List.forall_mem_map]
      simp only [failure_wrap]

theorem isFactor_wrap {compound : Bool} {o : Output} (h : o.Within Lexeme.ofCondition)
    (hok : o.failure = none) (hsingle : compound = false → Condition.IsFactor o.parts) :
    Condition.IsFactor (wrap compound o).parts := by
  cases compound with
  | false => exact hsingle rfl
  | true => exact Output.isFactor_parenthesized h hok

/-- A predicate that needs no parentheses beside others is one factor. -/
theorem isFactor_simple (p : Predicate) (hsimple : isCompound p = false)
    (hok : (predicate d p).failure = none) : Condition.IsFactor (predicate d p).parts := by
  match p with
  | .junction nature [] =>
      exact Output.Within.isFactor (reading.ofTest.word (by cases nature <;> decide)) hok
  | .junction nature [p] => exact isFactor_simple p hsimple hok
  | .junction nature (_ :: _ :: _) => simp [isCompound, isCompoundList] at hsimple
  | .negated .. | .comparison .. | .nullCheck .. | .inList .. | .inSubquery .. | .exists .. |
    .between .. | .like .. | .boolean .. => exact isFactor_predicate d _ (by simp) hok

theorem ofParts_wrap (compound : Bool) {o : Output} (h : o.Within Lexeme.ofCondition)
    (hok : o.failure = none) :
    Condition.ofParts (wrap compound o).parts = Condition.ofParts o.parts := by
  cases compound with
  | false => rfl
  | true => exact Output.ofParts_parenthesized h hok

theorem ofParts_emptySql (own : Predicate → Condition) (nature : JunctionNature) :
    Condition.ofParts (Output.word nature.emptySql).parts = (nature.formula []).condition own := by
  cases nature <;> rfl

theorem ofParts_junction (nature : JunctionNature) {members : List (Bool × Output)}
    (hne : members ≠ []) (hwithin : ∀ m ∈ members, m.2.Within Lexeme.ofCondition)
    (hok : ∀ m ∈ members, m.2.failure = none)
    (hfactor : ∀ m ∈ members, m.1 = false → Condition.IsFactor m.2.parts) :
    Condition.ofParts (junction nature members).parts =
      Condition.joinWith nature.connectConditions
        (members.map fun m => Condition.ofParts m.2.parts) := by
  match members with
  | [] => exact absurd rfl hne
  | [m] => rfl
  | m :: n :: ms =>
      have hall := (failure_junction nature (m :: n :: ms)).2 hok
      have hword : Lexeme.ofWord nature.separator = [.word nature.word] := by cases nature <;> decide
      have hwrapped : ∀ o ∈ (m :: n :: ms).map fun k => wrap k.1 k.2,
          o.Within Lexeme.ofCondition ∧ Condition.IsFactor o.parts := by
        intro o ho
        obtain ⟨k, hk, rfl⟩ := List.mem_map.1 ho
        exact ⟨reading.wrapCondition k.1 (hwithin k hk),
          isFactor_wrap (hwithin k hk) (hok k hk) (hfactor k hk)⟩
      have hparts := Output.parts_joined hword
        (fun o ho => reading.query_of_condition (hwrapped o ho).1) hall
      change Condition.ofParts (Output.joined nature.separator _).parts = _
      rw [hparts, Condition.ofParts_joinParts nature (by simp)
        (List.forall_mem_map.2 fun o ho => (hwrapped o ho).2), List.map_map, List.map_map]
      refine congrArg _ (List.map_congr_left fun k hk => ?_)
      exact ofParts_wrap k.1 (hwithin k hk) (hok k hk)

end Render

/-- The condition that the text of a predicate is read as. -/
def Predicate.condition (d : Dialect) (p : Predicate) : Condition :=
  (Render.predicate d p).condition?.getD (.test [])

theorem Predicate.condition_eq {d : Dialect} {p : Predicate}
    (hok : (Render.predicate d p).failure = none) :
    p.condition d = Condition.ofParts (Render.predicate d p).parts := by
  rw [condition, (Render.predicate_within d p).condition?_eq hok, Option.getD_some]

namespace Render

open Output.Layers (reading)

variable (d : Dialect)

theorem isFactor_predicates {ps : List Predicate} (hok : ∀ m ∈ predicates d ps, m.2.failure = none) :
    ∀ m ∈ predicates d ps, m.1 = false → Condition.IsFactor m.2.parts := by
  induction ps with
  | nil => nofun
  | cons p ps ih =>
      simp only [predicates, List.forall_mem_cons] at hok ⊢
      exact ⟨fun hsimple => isFactor_simple d p hsimple hok.1, ih hok.2⟩

mutual

/-- The text of a predicate is read as its formula, with what the texts of its atoms are read as. -/
theorem ofParts_predicate (p : Predicate) (hok : (predicate d p).failure = none) :
    Condition.ofParts (predicate d p).parts = p.formula.condition (Predicate.condition d) := by
  match p with
  | .junction nature [] => exact ofParts_emptySql _ nature
  | .junction nature (p :: ps) =>
      have hmembers := (failure_junction nature (predicates d (p :: ps))).1 hok
      have hread := ofParts_predicates (p :: ps) hmembers
      have hne : predicates d (p :: ps) ≠ [] := by simp [predicates]
      have hjunction := ofParts_junction nature hne (reading.predicatesHold d (p :: ps)) hmembers
        (isFactor_predicates d hmembers)
      rw [Predicate.formula, JunctionNature.condition_formula nature _ (by simp [formulas]), ← hread]
      exact hjunction
  | .negated p =>
      have hinner : (predicate d p).failure = none := by simpa [predicate] using hok
      have hwithin := predicate_within d p
      have hgroup : (predicate d p).parenthesized.Within Lexeme.ofTest :=
        reading.ofTest.parenthesized (reading.query_of_condition hwithin)
      have hgroupok : (predicate d p).parenthesized.failure = none := by simpa using hinner
      have hword : Lexeme.ofWord "not " = [.word "not"] := by decide
      have hparts : (predicate d (.negated p)).parts =
          .word "not" :: (predicate d p).parenthesized.parts := by
        rw [predicate, Output.parts_append (reading.ofTest.fixed "not " rfl) hgroup hok,
          Output.parts_word (by rw [hword]; rfl), hword]
        rfl
      have hfactor := isFactor_predicate d (.negated p) (by simp) hok
      rw [hfactor.ofParts_eq, hparts, Condition.readFactor_not, ← (hgroup.isFactor hgroupok).ofParts_eq,
        Output.ofParts_parenthesized hwithin hinner, ofParts_predicate p hinner]
      rfl
  | .comparison .. | .nullCheck .. | .inList .. | .inSubquery .. | .exists .. | .between .. |
    .like .. | .boolean .. => exact (Predicate.condition_eq hok).symm

theorem ofParts_predicates (ps : List Predicate)
    (hok : ∀ m ∈ predicates d ps, m.2.failure = none) :
    (predicates d ps).map (fun m => Condition.ofParts m.2.parts) =
      (formulas ps).map (Formula.condition (Predicate.condition d)) := by
  match ps with
  | [] => rfl
  | p :: ps =>
      simp only [predicates, List.forall_mem_cons] at hok
      rw [predicates, formulas, List.map_cons, List.map_cons, ofParts_predicate p hok.1,
        ofParts_predicates ps hok.2]

end

mutual

theorem failure_predicate (p : Predicate) :
    (predicate d p).failure = none ↔ ∀ a ∈ p.atoms, (predicate d a).failure = none := by
  match p with
  | .junction nature members =>
      rw [predicate, failure_junction, failure_predicates members, Predicate.atoms]
  | .negated p =>
      rw [Predicate.atoms, ← failure_predicate p]
      simp [predicate]
  | .comparison .. | .nullCheck .. | .inList .. | .inSubquery .. | .exists .. | .between .. |
    .like .. | .boolean .. => simp [Predicate.atoms]

theorem failure_predicates (ps : List Predicate) :
    (∀ m ∈ predicates d ps, m.2.failure = none) ↔
      ∀ a ∈ atomsOf ps, (predicate d a).failure = none := by
  match ps with
  | [] => simp [predicates, atomsOf]
  | p :: ps =>
      rw [predicates, atomsOf, List.forall_mem_cons, List.forall_mem_append, failure_predicate p,
        failure_predicates ps]

end

/-- A predicate of junctions and negations is rendered where its atoms are. Its text is read, by the
precedence of the connectives, as the predicate's formula over what the texts of its atoms are read
as, and the formula has the value of the predicate, whatever values the atoms have. -/
theorem formula_read (p : Predicate) (hatoms : ∀ a ∈ p.atoms, (predicate d a).failure = none) :
    (predicate d p).failure = none ∧
      (predicate d p).condition? = some (p.formula.condition (Predicate.condition d)) ∧
      ∀ assigned : Predicate → Truth, p.formula.truth assigned = p.under assigned := by
  have hok := (failure_predicate d p).2 hatoms
  refine ⟨hok, ?_, fun assigned => p.truth_formula assigned⟩
  rw [(predicate_within d p).condition?_eq hok, ofParts_predicate d p hok]

theorem formula_read_nested :
    let equals (name : String) (n : Int64) : Predicate :=
      .comparison (.column none name) .equal (.literal (.int n))
    let p : Predicate := .junction .conjunction
      [.junction .disjunction [.junction .disjunction [equals "a" 1, equals "b" 2]], equals "c" 3]
    (predicate .generic p).condition? = some (.and
      (.or ((equals "a" 1).condition .generic) ((equals "b" 2).condition .generic))
      ((equals "c" 3).condition .generic)) := by
  intro equals p
  have hatom (name : String) (n : Int64) : (predicate .generic (equals name n)).failure = none := by
    simp [equals, predicate, operand, qualified, Comparison.render, Comparison.standard,
      Comparison.plain, Operand.output, ComparisonOperator.isDistinctness, Dialect.generic,
      literal]
  exact (formula_read .generic p (by simp [p, Predicate.atoms, atomsOf, equals, hatom])).2.1

end Render

end DialectSql
