import DialectSql.Proofs.Document.Query

namespace DialectSql

open Json

section

variable (P : SqlValue → Prop)

def CycleClause.Each (c : CycleClause) : Prop := P c.cycleValue ∧ P c.nonCycleValue

def Cte.Each (c : Cte) : Prop := c.query.Each P ∧ ∀ cycle ∈ c.cycle, cycle.Each P

def SelectStatement.Each (s : SelectStatement) : Prop := (∀ c ∈ s.ctes, c.Each P) ∧ s.query.Each P

def InsertSource.Each : InsertSource → Prop
  | .values rows => ∀ row ∈ rows, Expr.AllEach P row
  | .query s => s.Each P
  | .defaultValues => True

/-- The property holds of every value that stands in the statement. -/
def Statement.Each : Statement → Prop
  | .select s => s.Each P
  | .insert s => s.source.Each P
  | .update s =>
      (∀ a ∈ s.assignments, a.value.Each P) ∧ Predicate.OptionEach P s.restriction
  | .delete s => Predicate.OptionEach P s.restriction

end

theorem SearchItem.carries (i : SearchItem) : Carries SearchItem.ofJson? i.toJson i := by
  have hdirection := carries_constant OrderDirection.all OrderDirection.name i.direction
    (by cases i.direction <;> rfl)
  refine .object ⟨trivial, hdirection.plain, trivial⟩ fun l m hm => ?_
  simp [SearchItem.ofJson?, record?, (carries_string i.column).field l "column" hm rfl,
    hdirection.field l "direction" hm rfl]

theorem SearchClause.carries (c : SearchClause) : Carries SearchClause.ofJson? c.toJson c := by
  have hkind := carries_constant SearchKind.all SearchKind.name c.kind (by cases c.kind <;> rfl)
  have hitems := carries_list (carries_map c.items fun i _ => i.carries)
  refine .object ⟨hkind.plain, hitems.plain, trivial, trivial⟩ fun l m hm => ?_
  simp [SearchClause.ofJson?, record?, hkind.field l "kind" hm rfl, hitems.field l "by" hm rfl,
    (carries_string c.sequenceColumn).field l "sequence_column" hm rfl]

theorem CycleClause.carries {c : CycleClause} (h : c.Each SqlValue.IsExact) :
    Carries CycleClause.ofJson? c.toJson c := by
  have hcolumns := carries_strings c.columns
  have hpath := carriesOption_string c.pathColumn
  have hcycle := SqlValue.carries h.1
  have hnonCycle := SqlValue.carries h.2
  refine .object ⟨hcolumns.plain, trivial, hpath.plain, hcycle.plain, hnonCycle.plain, trivial⟩
    fun l m hm => ?_
  simp [CycleClause.ofJson?, record?, hcolumns.field l "columns" hm rfl,
    (carries_string c.markColumn).field l "mark_column" hm rfl,
    hpath.optional l "path_column" hm rfl, hcycle.field l "cycle_value" hm rfl,
    hnonCycle.field l "non_cycle_value" hm rfl]

theorem Cte.carries {c : Cte} (h : c.Each SqlValue.IsExact) : Carries Cte.ofJson? c.toJson c := by
  have hcolumns := carries_strings c.columns
  have hquery := c.query.carries h.1
  have hsearch : CarriesOption SearchClause.ofJson? _ c.search :=
    carriesOption_ofOption fun s _ => s.carries
  have hcycle : CarriesOption CycleClause.ofJson? _ c.cycle :=
    carriesOption_ofOption fun cycle hcycle => CycleClause.carries (h.2 cycle hcycle)
  have hmaterialization := carries_constant CteMaterialization.all CteMaterialization.name
    c.materialization (by cases c.materialization <;> rfl)
  refine .object ⟨trivial, hcolumns.plain, hquery.plain, trivial, hsearch.plain, hcycle.plain,
    hmaterialization.plain, trivial⟩ fun l m hm => ?_
  simp [Cte.ofJson?, record?, (carries_string c.name).field l "name" hm rfl,
    hcolumns.field l "column_names" hm rfl, hquery.field l "query" hm rfl,
    (carries_bool c.recursive).field l "recursive" hm rfl, hsearch.optional l "search" hm rfl,
    hcycle.optional l "cycle" hm rfl, hmaterialization.field l "materialization" hm rfl]

theorem SelectStatement.carries {s : SelectStatement} (h : s.Each SqlValue.IsExact) :
    Carries SelectStatement.ofJson? s.toJson s := by
  have hctes := carries_list (carries_map s.ctes fun c hc => Cte.carries (h.1 c hc))
  have hquery := s.query.carries h.2
  refine .object ⟨hctes.plain, hquery.plain, trivial⟩ fun l m hm => ?_
  simp [SelectStatement.ofJson?, record?, hctes.field l "ctes" hm rfl,
    hquery.field l "query_part" hm rfl]

theorem InsertSource.carries {s : InsertSource} (h : s.Each SqlValue.IsExact) :
    Carries InsertSource.ofJson? s.toJson s := by
  cases s with
  | values rows =>
      have hrow (row : List Expr) (hrow : row ∈ rows) :
          Carries exprsOfJson? (.array (exprsToJson row)) row :=
        carries_items (fun _ _ _ => rfl) (Expr.carries_all row (h row hrow))
      have hrows := carries_list (carries_map rows hrow)
      refine .tagged hrows.plain fun l m hm => ?_
      simp [variant, InsertSource.ofJson?, hrows.reads l m hm]
  | query s =>
      have hs := SelectStatement.carries h
      refine .tagged hs.plain fun l m hm => ?_
      simp [variant, InsertSource.ofJson?, hs.reads l m hm]
  | defaultValues => exact ⟨trivial, nofun, fun _ n _ => by cases n <;> rfl⟩

theorem InsertStatement.carries {s : InsertStatement} (h : s.source.Each SqlValue.IsExact) :
    Carries InsertStatement.ofJson? s.toJson s := by
  have hcolumns := carries_strings s.columns
  have hsource := InsertSource.carries h
  refine .object ⟨s.target.carries.plain, hcolumns.plain, hsource.plain, trivial⟩ fun l m hm => ?_
  simp [InsertStatement.ofJson?, record?, s.target.carries.field l "target" hm rfl,
    hcolumns.field l "columns" hm rfl, hsource.field l "source" hm rfl]

theorem Assignment.carries {a : Assignment} (h : a.value.Each SqlValue.IsExact) :
    Carries Assignment.ofJson? a.toJson a := by
  have hvalue := a.value.carries h
  refine .object ⟨trivial, hvalue.plain, trivial⟩ fun l m hm => ?_
  simp [Assignment.ofJson?, record?, (carries_string a.column).field l "column" hm rfl,
    hvalue.field l "value" hm rfl]

theorem UpdateStatement.carries {s : UpdateStatement}
    (ha : ∀ a ∈ s.assignments, a.value.Each SqlValue.IsExact)
    (h : Predicate.OptionEach SqlValue.IsExact s.restriction) :
    Carries UpdateStatement.ofJson? s.toJson s := by
  have hassignments := carries_list
    (carries_map s.assignments fun a hmem => Assignment.carries (ha a hmem))
  have hrestriction := Predicate.carries_option s.restriction h
  refine .object ⟨s.target.carries.plain, hassignments.plain, hrestriction.plain, trivial⟩
    fun l m hm => ?_
  simp [UpdateStatement.ofJson?, record?, s.target.carries.field l "target" hm rfl,
    hassignments.field l "assignments" hm rfl, hrestriction.optional l "restriction" hm rfl]

theorem DeleteStatement.carries {s : DeleteStatement}
    (h : Predicate.OptionEach SqlValue.IsExact s.restriction) :
    Carries DeleteStatement.ofJson? s.toJson s := by
  have hrestriction := Predicate.carries_option s.restriction h
  refine .object ⟨s.target.carries.plain, hrestriction.plain, trivial⟩ fun l m hm => ?_
  simp [DeleteStatement.ofJson?, record?, s.target.carries.field l "target" hm rfl,
    hrestriction.optional l "restriction" hm rfl]

/-- A statement of exact values is carried by its document. -/
theorem Statement.carries {s : Statement} (h : s.Each SqlValue.IsExact) :
    Carries Statement.ofJson? s.toJson s := by
  cases s with
  | select s =>
      have hs := SelectStatement.carries h
      refine .tagged hs.plain fun l m hm => ?_
      simp [variant, Statement.ofJson?, hs.reads l m hm]
  | insert s =>
      have hs := InsertStatement.carries h
      refine .tagged hs.plain fun l m hm => ?_
      simp [variant, Statement.ofJson?, hs.reads l m hm]
  | update s =>
      have hs := UpdateStatement.carries h.1 h.2
      refine .tagged hs.plain fun l m hm => ?_
      simp [variant, Statement.ofJson?, hs.reads l m hm]
  | delete s =>
      have hs := DeleteStatement.carries h
      refine .tagged hs.plain fun l m hm => ?_
      simp [variant, Statement.ofJson?, hs.reads l m hm]

end DialectSql
