import DialectSql.Proofs.Condition.Junction
import DialectSql.Proofs.QuerySpec
import DialectSql.Render.Session

namespace DialectSql

def Part.startsClause (p : Part) : Bool := Lexeme.clauseWords.any fun w => p.isKey w

namespace Condition

/-- What stands behind a keyword outside brackets, up to the next clause. -/
def clause? (keyword : String) : List Part → Option (List Part)
  | [] => none
  | p :: ps =>
    if p.isKey keyword then some (ps.takeWhile fun q => !q.startsClause) else clause? keyword ps

theorem clause?_of_none {keyword : String} {ps : List Part}
    (h : ∀ p ∈ ps, p.isKey keyword = false) : clause? keyword ps = none := by
  induction ps with
  | nil => rfl
  | cons p ps ih =>
      rw [clause?, h p (by simp), if_neg (by simp)]
      exact ih fun q hq => h q (List.mem_cons_of_mem p hq)

theorem clause?_behind {keyword : String} {ps : List Part}
    (h : ∀ p ∈ ps, p.isKey keyword = false) (qs : List Part) :
    clause? keyword (ps ++ .word keyword :: qs) = some (qs.takeWhile fun q => !q.startsClause) := by
  induction ps with
  | nil => simp [clause?, Part.isKey, Part.key?, Part.word]
  | cons p ps ih =>
      rw [List.cons_append, clause?, h p (by simp), if_neg (by simp)]
      exact ih fun q hq => h q (List.mem_cons_of_mem p hq)

end Condition

namespace Output

variable {α : Type*} [LinearOrder α] (V : Valuation α)

/-- Whether a statement keeps a row. Without the clause it keeps every row, and with it the rows on
which the condition of the clause is true. -/
def keeps (keyword : String) (o : Output) : Bool :=
  match Part.ofPieces? o.pieces with
  | none => false
  | some ps =>
    match Condition.clause? keyword ps with
    | none => true
    | some qs => (Condition.ofParts qs).truth V == .true

/-- A text that is empty or begins with one of the words. -/
def Begins (words : List String) (o : Output) : Prop :=
  o.Within Lexeme.ofQuery ∧
    (o.failure = none → ∀ p ∈ o.parts.head?, words.any (fun w => p.isKey w) = true)

/-- What follows a condition: nothing, or a clause with its keyword in front. -/
abbrev Follows (o : Output) : Prop := o.Begins Lexeme.clauseWords

namespace Begins

variable {words : List String} {o : Output}

theorem empty : Begins words .empty := ⟨Layers.reading.ofQuery.empty, fun _ => nofun⟩

theorem fail (e : TranslateError) : Begins words (.fail e) :=
  ⟨Layers.reading.ofQuery.fail e, fun h => absurd h (by simp)⟩

theorem mono {more : List String} (hsub : words ⊆ more) (h : Begins words o) : Begins more o := by
  refine ⟨h.1, fun hok p hp => ?_⟩
  obtain ⟨w, hw, hkey⟩ := List.any_eq_true.1 (h.2 hok p hp)
  exact List.any_eq_true.2 ⟨w, hsub hw, hkey⟩

theorem append {a b : Output} (ha : Begins words a) (hb : Begins words b) :
    Begins words (a ++ b) := by
  refine ⟨ha.1.append hb.1, fun hok p hp => ?_⟩
  obtain ⟨haok, hbok⟩ := failure_append_eq_none.1 hok
  rw [parts_append ha.1 hb.1 hok, List.head?_append] at hp
  cases hfirst : a.parts.head? with
  | some q =>
      rw [hfirst] at hp
      exact ha.2 haok p (by simpa [hfirst] using hp)
  | none =>
      rw [hfirst] at hp
      exact hb.2 hbok p (by simpa using hp)

theorem clause (keyword : String) (rest : List Lexeme) {w : String}
    (hw : Lexeme.ofWord w = .word keyword :: rest) (hk : keyword ∈ words)
    (hrest : rest.all Lexeme.ofQuery = true) (ho : o.Within Lexeme.ofQuery) :
    Begins words (.word w ++ o) := by
  have hflat : (Lexeme.ofWord w).all Lexeme.ofQuery = true := by
    rw [hw, List.all_cons, hrest]
    rfl
  have hword := Layers.reading.ofQuery.word hflat
  refine ⟨hword.append ho, fun hok p hp => ?_⟩
  rw [parts_append hword ho hok, parts_word hflat, hw] at hp
  obtain rfl : .leaf (.word keyword) = p := by simpa using hp
  exact List.any_eq_true.2 ⟨keyword, hk, by simp [Part.isKey, Part.key?]⟩

theorem word (keyword : String) (rest : List Lexeme) {w : String}
    (hw : Lexeme.ofWord w = .word keyword :: rest) (hk : keyword ∈ words)
    (hrest : rest.all Lexeme.ofQuery = true) : Begins words (.word w) := by
  simpa using clause keyword rest hw hk hrest Layers.reading.ofQuery.empty

theorem require (condition : Bool) (e : TranslateError) : Begins words (.require condition e) := by
  refine ⟨Layers.reading.ofQuery.require condition e, fun hok p hp => ?_⟩
  rw [(failure_require_eq_none condition e).1 hok] at hp
  cases hp

theorem when (condition : Bool) (h : Begins words o) : Begins words (.when condition o) := by
  cases condition
  · exact .empty
  · exact h

end Begins

theorem keeps_without {keyword : String} {o : Output}
    (h : o.Within (Lexeme.avoids [keyword])) (hok : o.failure = none) : o.keeps V keyword = true := by
  have hnone : ∀ p ∈ o.parts, p.isKey keyword = false := fun p hp =>
    Condition.isKey_of_avoids (h.parts_allowed hok p hp) (List.mem_singleton_self _)
  simp [keeps, Part.ofPieces?, (h.reads hok).parts, Condition.clause?_of_none hnone]

theorem takeWhile_condition {c b : Output} (hc : c.Within Lexeme.ofCondition)
    (hcok : c.failure = none) (hb : Follows b) (hbok : b.failure = none) :
    (c.parts ++ b.parts).takeWhile (fun q => !q.startsClause) = c.parts := by
  have hwords : Lexeme.clauseWords ⊆ Lexeme.outsideWords ++ Lexeme.listingWords := by decide
  have hinside : ∀ p ∈ c.parts, (!p.startsClause) = true := by
    intro p hp
    rw [Bool.not_eq_true', Part.startsClause, List.any_eq_false]
    intro v hv
    rw [Condition.isKey_of_avoids (hc.parts_allowed hcok p hp) (hwords hv)]
    simp
  have hbehind : b.parts.takeWhile (fun q => !q.startsClause) = [] := by
    cases hparts : b.parts with
    | nil => rfl
    | cons p ps =>
        have hstart : p.startsClause = true := hb.2 hbok p (by simp [hparts])
        simp [hstart]
  rw [List.takeWhile_append_of_pos hinside, hbehind, List.append_nil]

theorem keeps_clause {w keyword : String} {a c b : Output} (hw : Lexeme.ofWord w = [.word keyword])
    (ha : a.Within (Lexeme.avoids [keyword])) (hc : c.Within Lexeme.ofCondition) (hb : Follows b)
    (hok : (a ++ (word w ++ c) ++ b).failure = none) :
    (a ++ (word w ++ c) ++ b).keeps V keyword = (Condition.partsTruth V c.parts == .true) := by
  have haq := ha.mono fun _ h => Lexeme.ofQuery_of_avoids h
  have hcq := Layers.reading.query_of_condition hc
  have hflat : (Lexeme.ofWord w).all Lexeme.ofQuery = true := by rw [hw]; rfl
  have hwq := Layers.reading.ofQuery.word hflat
  obtain ⟨hacok, hbok⟩ := failure_append_eq_none.1 hok
  obtain ⟨haok, hwcok⟩ := failure_append_eq_none.1 hacok
  have hcok : c.failure = none := (failure_append_eq_none.1 hwcok).2
  have hparts : (a ++ (word w ++ c) ++ b).parts =
      a.parts ++ .word keyword :: (c.parts ++ b.parts) := by
    rw [parts_append (haq.append (hwq.append hcq)) hb.1 hok,
      parts_append haq (hwq.append hcq) hacok, parts_append hwq hcq hwcok, parts_word hflat, hw]
    simp [Part.word]
  have hall := (haq.append (hwq.append hcq)).append hb.1
  have hnone : ∀ p ∈ a.parts, p.isKey keyword = false := fun p hp =>
    Condition.isKey_of_avoids (ha.parts_allowed haok p hp) (List.mem_singleton_self _)
  have hclause := takeWhile_condition hc hcok hb hbok
  simp only [keeps, Part.ofPieces?, (hall.reads hok).parts, hparts, Condition.clause?_behind hnone,
    hclause, Condition.truth_ofParts]

end Output

namespace Render

open Output.Layers (reading)

variable (d : Dialect)

theorem selected_within (s : QuerySpec) : (selected d s).Within Lexeme.ofClause :=
  reading.selected d s.distinct s.fetchKind (reading.selectionsHold d s.selections).2
    (reading.fromClause d (reading.tableGroupsHold d s.roots)) (reading.limitHolds d s.offset)
    (reading.limitHolds d s.fetch)

/-- No word that cannot stand in a condition begins in its clause, unless it is the clause's own. -/
theorem conditionClause_within {keyword : String} {words : List String}
    (hkeyword : (Lexeme.ofWord keyword).all (Lexeme.avoids words) = true)
    (hwords : words ⊆ Lexeme.outsideWords ++ Lexeme.listingWords) (p : Option Predicate) :
    (condition keyword p (optionalPredicate d p)).Within (Lexeme.avoids words) := by
  refine reading.condition_of_given (Output.closed_within (fun _ => Lexeme.ofQuery_of_avoids)
    fun _ => rfl) _ hkeyword p fun c hc => ?_
  have hcondition : c.Within Lexeme.ofCondition := reading.optionalPredicateHolds d p c hc
  exact hcondition.avoiding hwords

theorem restrictionClause_within (p : Option Predicate) :
    (restrictionClause d p).Within (Lexeme.avoids ["having"]) :=
  conditionClause_within d rfl (by decide) p

theorem groupCondition_within (p : Option Predicate) :
    (groupCondition d p).Within (Lexeme.avoids ["where"]) :=
  conditionClause_within d rfl (by decide) p

theorem grouping_within (s : QuerySpec) : (grouping d s).Within Lexeme.ofClause :=
  reading.groupBy s.groupBy (reading.partitionHolds d s.groupBy)

/-- The parts of a lock clause behind its first word. -/
theorem lockDetails_within (locking : LockingCapabilities) (c : ForUpdateClause) :
    (.when (!c.aliases.isEmpty && locking.ofAliases) (.word " of " ++ .nameList c.aliases) ++
      Locking.timeoutOutput locking c.timeout : Output).Within Lexeme.ofClause := by
  have hnames : (Output.nameList c.aliases).Within Lexeme.ofClause := by
    apply reading.ofClause.joined rfl
    intro o ho
    obtain ⟨n, -, rfl⟩ := List.mem_map.1 ho
    exact reading.ofClause.name n
  refine reading.ofClause.append (reading.ofClause.when _
    (reading.ofClause.append (reading.ofClause.fixed _ rfl) hnames)) ?_
  rw [Locking.timeoutOutput.eq_def]
  split
  · exact reading.ofClause.empty
  · exact reading.ofClause.when _ (reading.ofClause.fixed _ rfl)
  · exact reading.ofClause.when _ (reading.ofClause.fixed _ rfl)
  · exact reading.ofClause.when _ (reading.ofClause.append
      (reading.ofClause.fixed _ rfl) (reading.ofClause.unit rfl rfl))

theorem mark_within {p : Piece} (hp : Lexeme.ofPieces [p] = []) :
    (Output.ofPieces [p]).Within Lexeme.ofClause :=
  Output.within_flat (by rw [hp]; rfl) fun _ => Lexeme.ofQuery_of_avoids

theorem mark_begins {words : List String} {p : Piece} (hp : Lexeme.ofPieces [p] = []) :
    (Output.ofPieces [p]).Begins words := by
  refine ⟨(mark_within hp).mono fun _ => Lexeme.ofQuery_of_avoids, fun _ q hq => ?_⟩
  rw [Output.parts, Part.ofPieces?, Output.pieces_ofPieces, hp] at hq
  cases hq

theorem lock_within (lock : Option LockScope) (s : QuerySpec) :
    (lockOf d lock s).Within Lexeme.ofClause ∧ (lockOf d lock s).Begins ["for"] := by
  rw [lockOf.eq_def]
  split
  · rename_i scope
    rw [Locking.render]
    split
    · exact ⟨reading.ofClause.empty, .empty⟩
    · split
      · exact ⟨mark_within rfl, mark_begins rfl⟩
      · split
        · exact ⟨reading.ofClause.fail _, .fail _⟩
        · exact ⟨mark_within rfl, mark_begins rfl⟩
        · have hdetails := lockDetails_within d.capabilities.locking scope.options.clause
          rw [Locking.forUpdate, Output.append_assoc]
          split
          · exact ⟨reading.ofClause.append (reading.ofClause.fixed _ rfl) hdetails,
              .clause "for" [.word "share"] rfl (by decide) rfl (reading.query_of_clause hdetails)⟩
          · exact ⟨reading.ofClause.append (reading.ofClause.fixed _ rfl) hdetails,
              .clause "for" [.word "update"] rfl (by decide) rfl (reading.query_of_clause hdetails)⟩
  · exact ⟨reading.ofClause.empty, .empty⟩

theorem ending_within (lock : Option LockScope) (s : QuerySpec) :
    (ending d lock s).Within Lexeme.ofClause :=
  (reading.orderBy (reading.sortKeysHold d s.orderBy) : Output.Within _ _).append
    (Output.Within.append (reading.rowLimit d s.fetchKind (reading.limitHolds d s.offset)
      (reading.limitHolds d s.fetch)) (lock_within d lock s).1)

theorem grouping_follows (s : QuerySpec) : (grouping d s).Follows := by
  rw [grouping]
  split
  · exact .empty
  · exact .clause "group" [.word "by"] rfl (by decide) rfl
      (reading.query_of_source (reading.list (reading.partitionHolds d s.groupBy)))

theorem groupCondition_follows (p : Option Predicate) : (groupCondition d p).Follows := by
  rw [groupCondition, condition.eq_def]
  split
  · split
    · exact .empty
    · exact .clause "having" [] rfl (by decide) rfl
        (reading.query_of_condition (predicate_within d _))
  · exact .empty

theorem rowLimit_begins {offset fetch : Option Limit} (kind : FetchKind)
    (ho : Limit.Holds reading offset) (hf : Limit.Holds reading fetch) :
    (RowLimit.clause d offset fetch kind).Begins Lexeme.limitWords := by
  have hoffset {o : Limit} (h : offset = some o) : o.output.Within Lexeme.ofQuery :=
    reading.query_of_expression (ho o h)
  have hfetch {f : Limit} (h : fetch = some f) : f.output.Within Lexeme.ofQuery :=
    reading.query_of_expression (hf f h)
  rw [RowLimit.clause]
  split
  · rw [RowLimit.trailing.eq_def]
    dsimp only
    split
    · apply Output.Begins.append
      · split
        · rw [Output.append_assoc]
          exact .clause "offset" [] rfl (by decide) rfl
            ((hoffset rfl).append (reading.ofQuery.fixed _ rfl))
        · exact .empty
      · split
        · rw [Output.append_assoc, Output.append_assoc]
          refine .append (.require _ _) ?_
          refine .clause "fetch" [.word "first"] rfl (by decide) rfl ((hfetch rfl).append ?_)
          split <;> exact reading.ofQuery.fixed _ rfl
        · exact .empty
    · refine .append (.append (.require _ _) ?_) ?_
      · split
        · exact .clause "limit" [] rfl (by decide) rfl
            (hfetch rfl)
        · exact .when _ (.word "limit" [.mark "-", .number 1] rfl (by decide) rfl)
        · exact .empty
      · split
        · exact .clause "offset" [] rfl (by decide) rfl
            (hoffset rfl)
        · exact .empty
    · exact .empty
  · exact .empty

theorem orderBy_begins (keys : List SortKey) : (orderBy (sortKeys d keys)).Begins ["order"] := by
  rw [orderBy]
  split
  · exact .empty
  · exact .clause "order" [.word "by"] rfl (by decide) rfl
      (reading.query_of_source (reading.list (reading.sortKeysHold d keys)))

theorem ending_follows (lock : Option LockScope) (s : QuerySpec) : (ending d lock s).Follows :=
  ((orderBy_begins d s.orderBy).mono (by decide)).append
    (((rowLimit_begins d s.fetchKind (reading.limitHolds d s.offset)
      (reading.limitHolds d s.fetch)).mono (by decide)).append
      ((lock_within d lock s).2.mono (by decide)))

variable {d} {α : Type*} [LinearOrder α] (V : Valuation α)

/-- A clause that a predicate without members leaves out keeps every row. -/
theorem keeps_condition {w keyword : String} (hw : Lexeme.ofWord w = [.word keyword])
    {p : Predicate} {a b : Output} (ha : a.Within (Lexeme.avoids [keyword]))
    (hb : b.Within (Lexeme.avoids [keyword])) (hfollows : b.Follows)
    (hok : (a ++ condition w (some p) (some (predicate d p)) ++ b).failure = none) :
    (a ++ condition w (some p) (some (predicate d p)) ++ b).keeps V keyword =
      (p.isEmpty || p.truth V d == .true) := by
  cases hempty : p.isEmpty with
  | true =>
      simp only [condition, hempty, if_true, Output.append_empty] at hok ⊢
      rw [Output.keeps_without V (ha.append hb) hok]
      rfl
  | false =>
      simp only [condition, hempty, Bool.false_eq_true, if_false, Output.clause] at hok ⊢
      have hpok : (predicate d p).failure = none := by
        obtain ⟨hfirst, -⟩ := Output.failure_append_eq_none.1 hok
        exact (Output.failure_append_eq_none.1 (Output.failure_append_eq_none.1 hfirst).2).2
      rw [Output.keeps_clause V hw ha (predicate_within d p) hfollows hok,
        partsTruth_predicate d V p hpok]
      rfl

end Render

/-- The places of a statement where rows are selected by a predicate, each with the word that the
predicate stands behind and the text of the place. -/
inductive Placement (d : Dialect) : String → Predicate → Output → Prop
  | restriction (lock : Option LockScope) (s : QuerySpec) {p : Predicate}
      (h : s.restriction = some p) : Placement d "where" p (Render.querySpec d lock s).output
  | groupCondition (lock : Option LockScope) (s : QuerySpec) {p : Predicate}
      (h : s.having = some p) : Placement d "having" p (Render.querySpec d lock s).output
  | join (j : TableJoin) {p : Predicate} (hrule : d.strategies.join = .standard)
      (htype : j.type ≠ .cross) (h : j.predicate = some p) :
      Placement d "on" p (Session.joinOutput d j)
  | update (s : UpdateStatement) {p : Predicate} (h : s.restriction = some p) :
      Placement d "where" p (Render.update d s)
  | delete (s : DeleteStatement) {p : Predicate} (h : s.restriction = some p) :
      Placement d "where" p (Render.delete d s)

namespace Placement

open Output.Layers (reading)

variable {d : Dialect} {keyword : String} {p : Predicate} {o : Output}
variable {α : Type*} [LinearOrder α] (V : Valuation α)

theorem keeps_restriction (lock : Option LockScope) (s : QuerySpec) (h : s.restriction = some p)
    (hok : (Render.querySpec d lock s).output.failure = none) :
    (Render.querySpec d lock s).output.keeps V "where" = (p.isEmpty || p.truth V d == .true) := by
  have hselected : (Render.selected d s).Within (Lexeme.avoids ["where"]) :=
    (Render.selected_within d s).avoiding (by decide)
  have hgrouping : (Render.grouping d s).Within (Lexeme.avoids ["where"]) :=
    (Render.grouping_within d s).avoiding (by decide)
  have hending : (Render.ending d lock s).Within (Lexeme.avoids ["where"]) :=
    (Render.ending_within d lock s).avoiding (by decide)
  have hfollows := (Render.grouping_follows d s).append
    ((Render.groupCondition_follows d s.having).append (Render.ending_follows d lock s))
  have hshape : (Render.querySpec d lock s).output = Render.selected d s ++
      Render.condition " where " (some p) (some (Render.predicate d p)) ++
      (Render.grouping d s ++ (Render.groupCondition d s.having ++ Render.ending d lock s)) := by
    rw [Render.output_querySpec, h, Output.append_assoc, Output.append_assoc]
    rfl
  rw [hshape] at hok ⊢
  exact Render.keeps_condition V (by decide) hselected
    (hgrouping.append ((Render.groupCondition_within d s.having).append hending)) hfollows hok

theorem keeps_groupCondition (lock : Option LockScope) (s : QuerySpec) (h : s.having = some p)
    (hok : (Render.querySpec d lock s).output.failure = none) :
    (Render.querySpec d lock s).output.keeps V "having" = (p.isEmpty || p.truth V d == .true) := by
  have hselected : (Render.selected d s).Within (Lexeme.avoids ["having"]) :=
    (Render.selected_within d s).avoiding (by decide)
  have hgrouping : (Render.grouping d s).Within (Lexeme.avoids ["having"]) :=
    (Render.grouping_within d s).avoiding (by decide)
  have hending : (Render.ending d lock s).Within (Lexeme.avoids ["having"]) :=
    (Render.ending_within d lock s).avoiding (by decide)
  have hshape : (Render.querySpec d lock s).output = (Render.selected d s ++
      Render.restrictionClause d s.restriction ++ Render.grouping d s) ++
      Render.condition " having " (some p) (some (Render.predicate d p)) ++
      Render.ending d lock s := by
    rw [Render.output_querySpec, h]
    rfl
  rw [hshape] at hok ⊢
  exact Render.keeps_condition V (by decide)
    ((hselected.append (Render.restrictionClause_within d s.restriction)).append hgrouping) hending
    (Render.ending_follows d lock s) hok

theorem keeps_last {w : String} (hw : Lexeme.ofWord w = [.word keyword]) {a : Output}
    (ha : a.Within (Lexeme.avoids [keyword]))
    (hok : (a ++ Render.condition w (some p) (some (Render.predicate d p))).failure = none) :
    (a ++ Render.condition w (some p) (some (Render.predicate d p))).keeps V keyword =
      (p.isEmpty || p.truth V d == .true) := by
  have hlast := Render.keeps_condition V hw ha
    (Output.within_flat rfl fun _ => Lexeme.ofQuery_of_avoids) .empty (b := .empty)
    (by simpa using hok)
  rwa [Output.append_empty] at hlast

theorem joinHead_within (hrule : d.strategies.join = .standard) (j : TableJoin) :
    (Render.joinHead d j.type j.predicate j.lateral).Within Lexeme.ofExpression := by
  have htype : (Output.word j.type.sql).Within Lexeme.ofExpression := by
    cases j.type <;> exact reading.ofExpression.fixed _ rfl
  rw [Render.joinHead, hrule]
  exact reading.ofExpression.append (reading.ofExpression.append (reading.ofExpression.append
    (reading.ofExpression.append (reading.ofExpression.fixed _ rfl) htype)
    (reading.ofExpression.fixed _ rfl)) (reading.ofExpression.when _
      (reading.ofExpression.append (reading.ofExpression.require _ _)
        (reading.ofExpression.fixed _ rfl)))) (reading.ofExpression.when _
          (reading.ofExpression.require _ _))

/-- A join needs a condition, so that one without members becomes a true one. -/
theorem keeps_join (j : TableJoin) (hrule : d.strategies.join = .standard) (htype : j.type ≠ .cross)
    (h : j.predicate = some p) (hok : (Session.joinOutput d j).failure = none) :
    (Session.joinOutput d j).keeps V "on" = (p.isEmpty || p.truth V d == .true) := by
  have htable : (Render.tableReference d j.joined.label j.joined.reference).Within
      Lexeme.ofExpression := reading.tableReferenceHolds d _ _
  have hjoined : (Render.joinHead d j.type j.predicate j.lateral ++
      Render.tableReference d j.joined.label j.joined.reference).Within (Lexeme.avoids ["on"]) :=
    ((joinHead_within hrule j).append htable).avoids_of_expression (by decide)
  have hcondition : Render.joinCondition d j.type j.predicate j.lateral
      (Render.optionalPredicate d j.predicate) = if p.isEmpty then .word " on " ++ .word "1=1"
        else .word " on " ++ Render.predicate d p := by
    rw [Render.joinCondition.eq_def, h, if_neg htype]
    cases hempty : p.isEmpty <;> simp [hrule, Render.optionalPredicate, Output.clause, hempty]
    rfl
  rw [Session.joinOutput, hcondition] at hok ⊢
  cases hempty : p.isEmpty with
  | true =>
      rw [hempty, if_pos rfl, ← Output.append_empty (_ ++ _)] at hok
      rw [if_pos rfl, ← Output.append_empty (_ ++ _),
        Output.keeps_clause V (w := " on ") (by decide) hjoined
          (reading.ofCondition.fixed _ rfl) .empty hok]
      exact congrArg (· == Truth.true) (Render.partsTruth_emptySql V .conjunction)
  | false =>
      rw [hempty, if_neg (by simp), ← Output.append_empty (_ ++ _)] at hok
      have hpok : (Render.predicate d p).failure = none := by
        obtain ⟨hfirst, -⟩ := Output.failure_append_eq_none.1 hok
        exact (Output.failure_append_eq_none.1 (Output.failure_append_eq_none.1 hfirst).2).2
      rw [if_neg (by simp), ← Output.append_empty (_ ++ _),
        Output.keeps_clause V (w := " on ") (by decide) hjoined (Render.predicate_within d p) .empty
          hok, Render.partsTruth_predicate d V p hpok]
      rfl

theorem keeps_update (s : UpdateStatement) (h : s.restriction = some p)
    (hok : (Render.update d s).failure = none) :
    (Render.update d s).keeps V "where" = (p.isEmpty || p.truth V d == .true) := by
  have hassignments : ∀ o ∈ s.assignments.map (Render.assignment d), o.Within Lexeme.ofSource := by
    intro o ho
    obtain ⟨a, -, rfl⟩ := List.mem_map.1 ho
    exact reading.ofSource.append (reading.ofSource.append (reading.ofSource.name _)
      (reading.ofSource.fixed _ rfl))
      (reading.source_of_expression (reading.operand (reading.operandHolds d a.value)))
  have hhead : (.require (!s.assignments.isEmpty) (.invalid .updateWithoutAssignments) ++
      .word "update " ++ Render.namedTable s.target ++ .word " set " ++
      .list (s.assignments.map (Render.assignment d)) : Output).Within Lexeme.ofSource :=
    reading.ofSource.append (reading.ofSource.append (reading.ofSource.append
      (reading.ofSource.append (reading.ofSource.require _ _) (reading.ofSource.fixed _ rfl))
      (reading.source_of_expression (reading.namedTable _))) (reading.ofSource.fixed _ rfl))
      (reading.list hassignments)
  rw [Render.update, Render.whereClause, h] at hok ⊢
  exact keeps_last V (by decide) (hhead.avoiding (by decide)) hok

theorem keeps_delete (s : DeleteStatement) (h : s.restriction = some p)
    (hok : (Render.delete d s).failure = none) :
    (Render.delete d s).keeps V "where" = (p.isEmpty || p.truth V d == .true) := by
  have hhead : (.word "delete from " ++ Render.namedTable s.target : Output).Within
      Lexeme.ofSource :=
    reading.ofSource.append (reading.ofSource.fixed _ rfl)
      (reading.source_of_expression (reading.namedTable _))
  rw [Render.delete, Render.whereClause, h] at hok ⊢
  exact keeps_last V (by decide) (hhead.avoiding (by decide)) hok

/-- Rows are selected by a predicate unless it has no members. -/
theorem keeps_eq (h : Placement d keyword p o) (hok : o.failure = none) :
    o.keeps V keyword = (p.isEmpty || p.truth V d == .true) := by
  cases h with
  | restriction lock s h => exact keeps_restriction V lock s h hok
  | groupCondition lock s h => exact keeps_groupCondition V lock s h hok
  | join j hrule htype h => exact keeps_join V j hrule htype h hok
  | update s h => exact keeps_update V s h hok
  | delete s h => exact keeps_delete V s h hok

end Placement

/-- The rows that a place keeps are those on which its predicate is true, unless the predicate is a
disjunction without members, which is true on no row and yet keeps every row. -/
theorem placement_keeps_iff {α : Type*} [LinearOrder α] (V : Valuation α) {d : Dialect}
    {keyword : String} {p : Predicate} {o : Output} (h : Placement d keyword p o)
    (hok : o.failure = none) :
    (o.keeps V keyword = true ↔ p.truth V d = .true) ↔ p ≠ .junction .disjunction [] := by
  rw [h.keeps_eq V hok]
  cases p with
  | junction nature members =>
      cases members with
      | nil => cases nature <;> simp [Predicate.isEmpty, Predicate.truth, truths, JunctionNature.truth]
      | cons q qs => simp [Predicate.isEmpty]
  | _ => simp [Predicate.isEmpty]

theorem placement_keeps_iff_delete :
    let V : Valuation Nat := ⟨fun _ => none, fun _ => .false⟩
    let active := Predicate.boolean (.column none "active")
    ((Render.delete .generic ⟨⟨none, "person"⟩, some active⟩).keeps V "where" = true ↔
        active.truth V .generic = .true) ∧
      ¬ ((Render.delete .generic ⟨⟨none, "person"⟩, some (.junction .disjunction [])⟩).keeps V
          "where" = true ↔ (Predicate.junction .disjunction []).truth V .generic = .true) := by
  refine ⟨(placement_keeps_iff _ (.delete _ rfl) (by decide)).2 nofun, ?_⟩
  rw [placement_keeps_iff _ (.delete _ rfl) (by decide)]
  simp

end DialectSql
