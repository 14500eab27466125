import DialectSql.Render.Statement

namespace DialectSql

/-- A join with the joins that hang off its table. -/
inductive JoinTree (α : Type)
  | node (value : α) (children : List (JoinTree α))

namespace JoinTree

variable {α : Type}

def value : JoinTree α → α
  | .node a _ => a

def children : JoinTree α → List (JoinTree α)
  | .node _ ts => ts

/-- The number of joins in a list of trees. -/
def count : List (JoinTree α) → Nat
  | [] => 0
  | .node _ children :: ts => 1 + count children + count ts

theorem count_append (ts us : List (JoinTree α)) : count (ts ++ us) = count ts + count us := by
  induction ts with
  | nil => simp [count]
  | cons t ts ih =>
      cases t
      simp only [List.cons_append, count, ih]
      omega

/-- The joins in the order in which a queue hands them out: each join that is taken from the front
puts its own joins at the end. -/
def breadthFirst : List (JoinTree α) → List α
  | [] => []
  | .node a children :: queue => a :: breadthFirst (queue ++ children)
termination_by queue => count queue
decreasing_by
  simp only [count, count_append]
  omega

/-- The joins of each depth. -/
def levels : List (JoinTree α) → List (List α)
  | [] => []
  | .node a children :: ts => Render.mergeLevels ([a] :: levels children) (levels ts)

theorem mergeLevels_nil (as : List (List α)) : Render.mergeLevels as [] = as := by
  cases as <;> rfl

theorem mergeLevels_assoc (as bs cs : List (List α)) :
    Render.mergeLevels (Render.mergeLevels as bs) cs =
      Render.mergeLevels as (Render.mergeLevels bs cs) := by
  induction as generalizing bs cs with
  | nil => rfl
  | cons a as ih =>
      cases bs with
      | nil => rfl
      | cons b bs =>
          cases cs with
          | nil => rfl
          | cons c cs => simp only [Render.mergeLevels, List.append_assoc, ih]

theorem levels_append (ts us : List (JoinTree α)) :
    levels (ts ++ us) = Render.mergeLevels (levels ts) (levels us) := by
  induction ts with
  | nil => rw [List.nil_append, levels, Render.mergeLevels]
  | cons t ts ih =>
      cases t
      simp only [List.cons_append, levels, ih, mergeLevels_assoc]

theorem levels_cons (t : JoinTree α) (ts : List (JoinTree α)) :
    levels (t :: ts) = (t :: ts).map value :: levels ((t :: ts).flatMap children) := by
  induction ts generalizing t with
  | nil =>
      cases t
      simp [levels, mergeLevels_nil, value, children]
  | cons u ts ih =>
      cases t with
      | node a children' =>
          rw [levels, ih u, Render.mergeLevels, ← levels_append]
          rfl

theorem count_flatMap_children (ts : List (JoinTree α)) :
    count (ts.flatMap children) + ts.length = count ts := by
  induction ts with
  | nil => rfl
  | cons t ts ih =>
      cases t
      simp only [List.flatMap_cons, count_append, List.length_cons, count, children]
      omega

/-- A queue hands out what is in it before what is put into it meanwhile. -/
theorem breadthFirst_append (ts us : List (JoinTree α)) :
    breadthFirst (ts ++ us) = ts.map value ++ breadthFirst (us ++ ts.flatMap children) := by
  induction ts generalizing us with
  | nil => simp
  | cons t ts ih =>
      cases t with
      | node a children' =>
          rw [List.cons_append, breadthFirst, List.append_assoc, ih]
          simp [value, children]

/-- The queue goes through the joins depth by depth. -/
theorem breadthFirst_eq_flatten_levels (ts : List (JoinTree α)) :
    breadthFirst ts = (levels ts).flatten := by
  cases ts with
  | nil => rw [breadthFirst, levels, List.flatten_nil]
  | cons t ts =>
      have hcount := count_flatMap_children (t :: ts)
      have hqueue := breadthFirst_append (t :: ts) []
      rw [List.append_nil, List.nil_append,
        breadthFirst_eq_flatten_levels ((t :: ts).flatMap children)] at hqueue
      rw [hqueue, levels_cons, List.flatten_cons]
termination_by count ts
decreasing_by
  simp only [List.length_cons] at hcount
  omega

end JoinTree

mutual

/-- What is bound to the parameters of an expression, in the order in which its parts are named.
An empty list has no members, whatever is looked for in it. -/
def Expr.slots : Expr → List BindSlot
  | .column .. | .literal _ | .star _ => []
  | .parameter slot => [slot]
  | .tuple es | .summarization _ es | .function _ es _ => Expr.listSlots es
  | .binary left _ right => left.slots ++ right.slots
  | .negate e | .cast e _ => e.slots
  | .case branches otherwise => WhenClause.listSlots branches ++ Expr.optionSlots otherwise
  | .subquery q | .quantified _ q => q.slots
  | .windowed function items keys _ =>
      function.slots ++ Expr.listSlots items ++ SortKey.listSlots keys

def Expr.listSlots : List Expr → List BindSlot
  | [] => []
  | e :: es => e.slots ++ Expr.listSlots es

def Expr.optionSlots : Option Expr → List BindSlot
  | none => []
  | some e => e.slots

def WhenClause.listSlots : List WhenClause → List BindSlot
  | [] => []
  | ⟨condition, result⟩ :: bs => condition.slots ++ result.slots ++ WhenClause.listSlots bs

def SortKey.listSlots : List SortKey → List BindSlot
  | [] => []
  | ⟨e, _, _⟩ :: ks => e.slots ++ SortKey.listSlots ks

def Predicate.slots : Predicate → List BindSlot
  | .comparison lhs _ rhs => lhs.slots ++ rhs.slots
  | .junction _ members => Predicate.listSlots members
  | .negated p => p.slots
  | .nullCheck e _ | .boolean e => e.slots
  | .inList _ [] _ => []
  | .inList e (i :: items) _ => e.slots ++ (i.slots ++ Expr.listSlots items)
  | .inSubquery e q _ => e.slots ++ q.slots
  | .exists q _ => q.slots
  | .between e low high _ => e.slots ++ low.slots ++ high.slots
  | .like e pattern _ _ => e.slots ++ pattern.slots

def Predicate.listSlots : List Predicate → List BindSlot
  | [] => []
  | p :: ps => p.slots ++ Predicate.listSlots ps

def Predicate.optionSlots : Option Predicate → List BindSlot
  | none => []
  | some p => p.slots

def Selection.listSlots : List Selection → List BindSlot
  | [] => []
  | ⟨e, _⟩ :: ss => e.slots ++ Selection.listSlots ss

def TableReference.slots : TableReference → List BindSlot
  | .named _ => []
  | .derived q _ => q.slots

/-- The table of a group comes first, its joins follow as a queue hands them out. -/
def TableGroup.slots : TableGroup → List BindSlot
  | ⟨reference, _, joins⟩ =>
      reference.slots ++ (JoinTree.breadthFirst (TableJoin.trees joins)).flatten

def TableGroup.listSlots : List TableGroup → List BindSlot
  | [] => []
  | g :: gs => g.slots ++ TableGroup.listSlots gs

/-- Joins with the parameters of each, those of the joined table before those of the condition. -/
def TableJoin.trees : List TableJoin → List (JoinTree (List BindSlot))
  | [] => []
  | ⟨_, ⟨reference, _, joins⟩, p, _⟩ :: js =>
      .node (reference.slots ++ Predicate.optionSlots p) (TableJoin.trees joins) ::
        TableJoin.trees js

def Query.slots : Query → List BindSlot
  | .spec s => s.slots
  | .group g => g.slots

def QuerySpec.slots : QuerySpec → List BindSlot
  | ⟨_, items, roots, restriction, groupBy, having, keys, offset, fetch, _⟩ =>
      Selection.listSlots items ++ TableGroup.listSlots roots ++
        Predicate.optionSlots restriction ++ Expr.listSlots groupBy ++
        Predicate.optionSlots having ++ SortKey.listSlots keys ++ Expr.optionSlots offset ++
        Expr.optionSlots fetch

def QueryGroup.slots : QueryGroup → List BindSlot
  | ⟨_, members, keys, offset, fetch, _⟩ =>
      Query.listSlots members ++ SortKey.listSlots keys ++ Expr.optionSlots offset ++
        Expr.optionSlots fetch

def Query.listSlots : List Query → List BindSlot
  | [] => []
  | q :: qs => q.slots ++ Query.listSlots qs

end

def SelectStatement.slots (s : SelectStatement) : List BindSlot :=
  s.ctes.flatMap (·.query.slots) ++ s.query.slots

def InsertSource.slots : InsertSource → List BindSlot
  | .values rows => rows.flatMap Expr.listSlots
  | .query s => s.slots
  | .defaultValues => []

def Statement.slots : Statement → List BindSlot
  | .select s => s.slots
  | .insert s => s.source.slots
  | .update s => s.assignments.flatMap (·.value.slots) ++ Predicate.optionSlots s.restriction
  | .delete s => Predicate.optionSlots s.restriction

end DialectSql
