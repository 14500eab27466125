import DialectSql.Proofs.Alike.Statement

namespace DialectSql

/-- Nothing may differ. -/
def Likeness.same : Likeness := ⟨fun _ => True, Eq, Eq⟩

theorem optionalName_same (n : Option String) : Likeness.same.optionalName n := fun _ _ => trivial

theorem names_same (ns : List String) : Likeness.same.names ns := fun _ _ => trivial

theorem NamedTable.named_same (t : NamedTable) : t.Named .same := ⟨optionalName_same _, trivial⟩

theorem DataType.named_same (t : DataType) : t.Named .same := by
  cases t <;> trivial

mutual

theorem Expr.alike_self : (e : Expr) → e.Alike .same e
  | .column _ _ => .column (optionalName_same _) trivial
  | .literal _ => .literal rfl
  | .parameter s => .parameter s
  | .tuple es => .tuple (Expr.allAlike_self es)
  | .summarization kind es => .summarization kind (Expr.allAlike_self es)
  | .binary l op r => .binary op l.alike_self r.alike_self
  | .negate e => .negate e.alike_self
  | .function _ es distinct => .function distinct trivial (Expr.allAlike_self es)
  | .case bs none => .case (WhenClause.allAlike_self bs) .none
  | .case bs (some e) => .case (WhenClause.allAlike_self bs) (.some e.alike_self)
  | .cast e t => .cast e.alike_self t.named_same
  | .subquery q => .subquery q.alike_self
  | .quantified k q => .quantified k q.alike_self
  | .windowed f es ks frame =>
      .windowed frame f.alike_self (Expr.allAlike_self es) (SortKey.allAlike_self ks)
  | .star _ => .star (optionalName_same _)

theorem Expr.allAlike_self : (es : List Expr) → Expr.AllAlike .same es es
  | [] => .nil
  | e :: es => .cons e.alike_self (Expr.allAlike_self es)

theorem WhenClause.allAlike_self : (bs : List WhenClause) → WhenClause.AllAlike .same bs bs
  | [] => .nil
  | ⟨p, e⟩ :: bs => .cons p.alike_self e.alike_self (WhenClause.allAlike_self bs)

theorem SortKey.allAlike_self : (ks : List SortKey) → SortKey.AllAlike .same ks ks
  | [] => .nil
  | ⟨e, direction, nulls⟩ :: ks =>
      .cons direction nulls e.alike_self (SortKey.allAlike_self ks)

theorem Predicate.alike_self : (p : Predicate) → p.Alike .same p
  | .comparison l op r => .comparison op l.alike_self r.alike_self
  | .junction nature ps => .junction nature (Predicate.allAlike_self ps)
  | .negated p => .negated p.alike_self
  | .nullCheck e negated => .nullCheck negated e.alike_self
  | .inList e es negated => .inList negated e.alike_self (Expr.allAlike_self es)
  | .inSubquery e q negated => .inSubquery negated e.alike_self q.alike_self
  | .exists q negated => .exists negated q.alike_self
  | .between e l r negated => .between negated e.alike_self l.alike_self r.alike_self
  | .like e p none negated => .like negated e.alike_self p.alike_self
  | .like e p (some _) negated => .likeEscape negated e.alike_self p.alike_self rfl
  | .boolean e => .boolean e.alike_self

theorem Predicate.allAlike_self : (ps : List Predicate) → Predicate.AllAlike .same ps ps
  | [] => .nil
  | p :: ps => .cons p.alike_self (Predicate.allAlike_self ps)

theorem Predicate.optionAlike_self : (p : Option Predicate) → Predicate.OptionAlike .same p p
  | none => .none
  | some p => .some p.alike_self

theorem Expr.optionAlike_self : (e : Option Expr) → Expr.OptionAlike .same e e
  | none => .none
  | some e => .some e.alike_self

theorem Selection.allAlike_self : (ss : List Selection) → Selection.AllAlike .same ss ss
  | [] => .nil
  | ⟨e, _⟩ :: ss => .cons e.alike_self (optionalName_same _) (Selection.allAlike_self ss)

theorem TableGroup.allAlike_self : (gs : List TableGroup) → TableGroup.AllAlike .same gs gs
  | [] => .nil
  | ⟨.named t, _, js⟩ :: gs =>
      .cons (.named t.named_same) (optionalName_same _) (TableJoin.allAlike_self js)
        (TableGroup.allAlike_self gs)
  | ⟨.derived q columns, _, js⟩ :: gs =>
      .cons (.derived q.alike_self (names_same columns)) (optionalName_same _)
        (TableJoin.allAlike_self js) (TableGroup.allAlike_self gs)

theorem TableJoin.allAlike_self : (js : List TableJoin) → TableJoin.AllAlike .same js js
  | [] => .nil
  | ⟨type, ⟨.named t, _, ks⟩, p, lateral⟩ :: js =>
      .cons type lateral (.named t.named_same) (optionalName_same _) (TableJoin.allAlike_self ks)
        (Predicate.optionAlike_self p) (TableJoin.allAlike_self js)
  | ⟨type, ⟨.derived q columns, _, ks⟩, p, lateral⟩ :: js =>
      .cons type lateral (.derived q.alike_self (names_same columns)) (optionalName_same _)
        (TableJoin.allAlike_self ks) (Predicate.optionAlike_self p) (TableJoin.allAlike_self js)

theorem QuerySpec.alike_self : (s : QuerySpec) → s.Alike .same s
  | ⟨distinct, items, roots, restriction, groupBy, having, keys, offset, fetch, kind⟩ =>
      .mk distinct kind (Selection.allAlike_self items) (TableGroup.allAlike_self roots)
        (Predicate.optionAlike_self restriction) (Expr.allAlike_self groupBy)
        (Predicate.optionAlike_self having) (SortKey.allAlike_self keys)
        (Expr.optionAlike_self offset) (Expr.optionAlike_self fetch)

theorem QueryGroup.alike_self : (g : QueryGroup) → g.Alike .same g
  | ⟨operator, qs, keys, offset, fetch, kind⟩ =>
      .mk operator kind (Query.allAlike_self qs) (SortKey.allAlike_self keys)
        (Expr.optionAlike_self offset) (Expr.optionAlike_self fetch)

theorem Query.alike_self : (q : Query) → q.Alike .same q
  | .spec s => .spec s.alike_self
  | .group g => .group g.alike_self

theorem Query.allAlike_self : (qs : List Query) → Query.AllAlike .same qs qs
  | [] => .nil
  | q :: qs => .cons q.alike_self (Query.allAlike_self qs)

end

theorem CycleClause.alike_self (c : CycleClause) : c.Alike .same c :=
  ⟨rfl, rfl, rfl, ⟨names_same _, trivial, optionalName_same _⟩, rfl, rfl⟩

theorem Cte.alike_self (c : Cte) : c.Alike .same c where
  name := rfl
  columns := rfl
  recursive := rfl
  search := rfl
  materialization := rfl
  named := ⟨trivial, names_same _, fun _ _ => ⟨fun _ _ => trivial, trivial⟩⟩
  query := c.query.alike_self
  cycle := by
    cases c.cycle with
    | none => exact .none
    | some c => exact .some c.alike_self

theorem SelectStatement.alike_self (s : SelectStatement) : s.Alike .same s :=
  ⟨List.forall₂_same.2 fun c _ => c.alike_self, s.query.alike_self⟩

theorem InsertSource.alike_self : (s : InsertSource) → s.Alike .same s
  | .values _ => .values (List.forall₂_same.2 fun es _ => Expr.allAlike_self es)
  | .query s => .query s.alike_self
  | .defaultValues => .defaultValues

theorem Assignment.alike_self (a : Assignment) : a.Alike .same a :=
  ⟨rfl, trivial, a.value.alike_self⟩

theorem Statement.alike_self : (s : Statement) → s.Alike .same s
  | .select s => .select s.alike_self
  | .insert s => .insert s.target.named_same (names_same _) s.source.alike_self
  | .update s => .update s.target.named_same (List.forall₂_same.2 fun a _ => a.alike_self)
      (Predicate.optionAlike_self s.restriction)
  | .delete s => .delete s.target.named_same (Predicate.optionAlike_self s.restriction)

end DialectSql
