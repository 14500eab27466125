import DialectSql.Proofs.Layer.Statement
import DialectSql.Proofs.Live.Translator
import DialectSql.Proofs.Locking.Translation
import DialectSql.Proofs.Rendered.Traversal

namespace DialectSql

namespace Output

/-- The gaps that are noted where an output is rendered to its end. -/
def Notes (o : Output) (noted : CapabilityGap → Prop) : Prop :=
  o.failure = none → ∀ g, .gap g ∈ o.pieces ↔ noted g

variable {a b o : Output} {P Q : CapabilityGap → Prop}

theorem Noteless.notes (h : o.Noteless) : o.Notes fun _ => False := by
  intro _ g
  refine ⟨fun hg => ?_, False.elim⟩
  have hnote := h _ hg
  cases hnote

theorem Noteless.filterMap_withoutNote (h : o.Noteless) :
    o.pieces.filterMap Translation.withoutNote = o.pieces := by
  have hkept : ∀ p ∈ o.pieces, Translation.withoutNote p = some p := fun p hp => by
    rw [Translation.withoutNote, h p hp]
    rfl
  exact (List.filterMap_congr hkept).trans (List.filterMap_some)

namespace Notes

theorem congr (h : o.Notes P) (hiff : ∀ g, P g ↔ Q g) : o.Notes Q :=
  fun hok g => (h hok g).trans (hiff g)

theorem append (ha : a.Notes P) (hb : b.Notes Q) : (a ++ b).Notes fun g => P g ∨ Q g := by
  intro hok g
  obtain ⟨haok, hbok⟩ := failure_append_eq_none.1 hok
  rw [pieces_append haok, List.mem_append, ha haok, hb hbok]

theorem behind (ha : a.Noteless) (hb : b.Notes P) : (a ++ b).Notes P :=
  (ha.notes.append hb).congr fun _ => by simp

theorem before (ha : a.Notes P) (hb : b.Noteless) : (a ++ b).Notes P :=
  (ha.append hb.notes).congr fun _ => by simp

theorem list {α : Type} {f : α → Output} {noted : α → CapabilityGap → Prop} {l : List α}
    (h : ∀ x ∈ l, (f x).Notes (noted x)) :
    (Output.list (l.map f)).Notes fun g => ∃ x ∈ l, noted x g := by
  induction l with
  | nil => exact (closed_noteless Lexeme.ofQuery).empty.notes.congr fun g => by simp
  | cons x l ih =>
      rw [List.forall_mem_cons] at h
      cases l with
      | nil => exact h.1.congr fun g => by simp
      | cons y l =>
          have hseparator := (closed_noteless Lexeme.ofQuery).word (w := ", ") rfl
          refine ((h.1.before hseparator).append (ih h.2)).congr fun g => ?_
          simp only [List.mem_cons, exists_eq_or_imp]

end Notes

end Output

open Output

theorem Translation.nodup_gaps (ps : List Piece) : (gaps ps).Nodup := by
  have hfold (gs seen : List CapabilityGap) (h : seen.Nodup) : (gs.foldl addGap seen).Nodup := by
    induction gs generalizing seen with
    | nil => exact h
    | cons g gs ih => exact ih _ (nodup_addGap h g)
  exact hfold _ [] List.nodup_nil

/-- The text of a cycle clause. -/
def CycleClause.text (c : CycleClause) : Output :=
  .word " cycle " ++ .nameList c.columns ++ .word " set " ++ .name c.markColumn ++
    .word " to " ++ .ofPieces c.cycleValue.pieces ++
    .word " default " ++ .ofPieces c.nonCycleValue.pieces ++
    .clause " using " (c.pathColumn.map .name)

def Cte.withoutCycle (c : Cte) : Cte := { c with cycle := none }

namespace Output.Layers

variable (L : Layers)

theorem cycleText (c : CycleClause) : L.query c.text := by
  have hvalue (v : SqlValue) : L.query (.ofPieces v.pieces) := L.query_of_expression (L.value v)
  have hpath : L.query (.clause " using " (c.pathColumn.map .name)) :=
    L.ofQuery.clause _ rfl fun o ho => by
      obtain ⟨n, -, rfl⟩ := Option.map_eq_some_iff.1 ho
      exact L.ofQuery.name n
  have hcolumns := L.ofQuery.append (L.ofQuery.fixed " cycle " rfl) (L.nameList c.columns)
  have hmark := L.ofQuery.append (L.ofQuery.append hcolumns (L.ofQuery.fixed " set " rfl))
    (L.ofQuery.name c.markColumn)
  have hto := L.ofQuery.append (L.ofQuery.append hmark (L.ofQuery.fixed " to " rfl))
    (hvalue c.cycleValue)
  have hdefault := L.ofQuery.append (L.ofQuery.append hto (L.ofQuery.fixed " default " rfl))
    (hvalue c.nonCycleValue)
  exact L.ofQuery.append hdefault hpath

theorem cte_withoutCycle (d : Dialect) (c : Cte) : L.query (Render.cte d c.withoutCycle) := by
  have hnone : Render.cycleClause d d.strategies.cycle c.name none = .empty := by
    cases d.strategies.cycle <;> rfl
  have has := L.ofQuery.append (L.ofQuery.append (L.ofQuery.name c.name) (L.columnList c.columns))
    (L.ofQuery.fixed " as " rfl)
  have hquery := L.ofQuery.append (L.ofQuery.append has (L.materialization d c.materialization))
    (L.ofQuery.parenthesized (L.queryHolds d c.query).output)
  rw [Render.cte, Cte.withoutCycle, hnone, append_empty]
  exact L.ofQuery.append hquery (L.searchClause d _ _)

end Output.Layers

theorem CycleClause.pieces_text_ne_nil (c : CycleClause) : c.text.pieces ≠ [] := by
  rw [text]
  simp only [append_assoc]
  rw [pieces_append (failure_word _)]
  exact List.cons_ne_nil _ _

/-- Cycle clauses are written in the dialect. -/
def Dialect.WritesCycles (d : Dialect) : Prop :=
  d.strategies.cycle = .standard ∧ d.capabilities.cycleClause ≠ .unsupported

namespace Cte

variable {d : Dialect} {c : Cte}

/-- The text of a common table expression ends in its cycle clause. -/
def CycleWritten (d : Dialect) (c : Cte) : Prop :=
  ∃ cycle, c.cycle = some cycle ∧ cycle.text.pieces <:+ (Render.cte d c).pieces

theorem render_eq (d : Dialect) (c : Cte) : Render.cte d c =
    Render.cte d c.withoutCycle ++ Render.cycleClause d d.strategies.cycle c.name c.cycle := by
  have hnone : Render.cycleClause d d.strategies.cycle c.name none = .empty := by
    cases d.strategies.cycle <;> rfl
  rw [Render.cte, Render.cte, withoutCycle, hnone, append_empty]

theorem render_written (h : d.WritesCycles) {cycle : CycleClause} (hcycle : c.cycle = some cycle) :
    Render.cte d c = Render.cte d c.withoutCycle ++ cycle.text := by
  rw [render_eq, hcycle, h.1, Render.cycleClause, Render.cycleStandard, if_neg h.2]
  rfl

theorem render_gap (h : ¬ d.WritesCycles) (hcycle : c.cycle.isSome = true) :
    Render.cte d c = Render.cte d c.withoutCycle ++ .ofPieces [.gap (.cycleClause c.name)] := by
  obtain ⟨cycle, hcycle⟩ := Option.isSome_iff_exists.1 hcycle
  rw [render_eq, hcycle]
  cases hrule : d.strategies.cycle with
  | gap => rfl
  | standard =>
      have hunsupported : d.capabilities.cycleClause = .unsupported :=
        Decidable.byContradiction fun hne => h ⟨hrule, hne⟩
      rw [Render.cycleClause, Render.cycleStandard, if_pos hunsupported]

theorem notes_cte (d : Dialect) (c : Cte) : (Render.cte d c).Notes fun g =>
    g = .cycleClause c.name ∧ c.cycle.isSome = true ∧ ¬ d.WritesCycles := by
  have htext : (Render.cte d c.withoutCycle).Noteless := Layers.noteless.cte_withoutCycle d c
  cases hcycle : c.cycle with
  | none =>
      have hself : c.withoutCycle = c := by
        rw [withoutCycle, ← hcycle]
      rw [← hself]
      exact htext.notes.congr fun _ => by simp
  | some cycle =>
      by_cases hwrites : d.WritesCycles
      · have hcycleText : cycle.text.Noteless := Layers.noteless.cycleText cycle
        rw [render_written hwrites hcycle]
        exact (htext.append hcycleText).notes.congr fun _ => by simp [hwrites]
      · rw [render_gap hwrites (by rw [hcycle]; rfl)]
        refine .behind htext fun _ g => ?_
        simp [hwrites]

/-- In a dialect that writes cycle clauses every one is written, and in any other dialect none is. -/
theorem cycleWritten_iff (hok : (Render.cte d c).failure = none) :
    c.CycleWritten d ↔ c.cycle.isSome = true ∧ d.WritesCycles := by
  constructor
  · rintro ⟨cycle, hcycle, hsuffix⟩
    have hsome : c.cycle.isSome = true := by rw [hcycle]; rfl
    refine ⟨hsome, Classical.byContradiction fun hwrites => ?_⟩
    -- the gap would be the last piece of the clause, which notes none
    rw [render_gap hwrites hsome] at hok hsuffix
    rw [pieces_append (failure_append_eq_none.1 hok).1] at hsuffix
    have hcycleText : cycle.text.Noteless := Layers.noteless.cycleText cycle
    have hlast := hsuffix.getLast cycle.pieces_text_ne_nil
    have hnote := hcycleText _ (List.getLast_mem cycle.pieces_text_ne_nil)
    rw [hlast] at hnote
    simp [Piece.isNote] at hnote
  · rintro ⟨hsome, hwrites⟩
    obtain ⟨cycle, hcycle⟩ := Option.isSome_iff_exists.1 hsome
    refine ⟨cycle, hcycle, ?_⟩
    rw [render_written hwrites hcycle] at hok ⊢
    rw [pieces_append (failure_append_eq_none.1 hok).1]
    exact List.suffix_append _ _

/-- Without its cycle clause the text of a common table expression is left as it is. -/
theorem text_of_not_written (hok : (Render.cte d c).failure = none) (h : ¬ c.CycleWritten d) :
    (Render.cte d c).pieces.filterMap Translation.withoutNote =
      (Render.cte d c.withoutCycle).pieces := by
  have htext : (Render.cte d c.withoutCycle).Noteless := Layers.noteless.cte_withoutCycle d c
  have hkept := htext.filterMap_withoutNote
  rw [cycleWritten_iff hok, not_and] at h
  cases hcycle : c.cycle with
  | none =>
      have hself : c.withoutCycle = c := by
        rw [withoutCycle, ← hcycle]
      rwa [hself] at hkept ⊢
  | some cycle =>
      have hsome : c.cycle.isSome = true := by rw [hcycle]; rfl
      rw [render_gap (h hsome) hsome] at hok ⊢
      rw [pieces_append (failure_append_eq_none.1 hok).1, List.filterMap_append, hkept]
      exact List.append_nil _

end Cte

theorem Chunk.failure_of_joined {mark : QuerySpec → Output} {separator : Output} {cs : List Chunk}
    {css : List (List Chunk)} (h : (fill mark (joined separator (cs :: css))).failure = none) :
    (fill mark cs).failure = none := by
  cases css with
  | nil => exact h
  | cons ds dss =>
      have hjoined : joined separator (cs :: ds :: dss) =
        cs ++ text separator :: joined separator (ds :: dss) := rfl
      rw [hjoined, fill_append] at h
      exact (failure_append_eq_none.1 h).1

/-- Every query has a root leaf, where it is rendered to its end. -/
theorem Query.rootLeaves_ne_nil {d : Dialect} {mark : QuerySpec → Output} (q : Query)
    (h : (Chunk.fill mark (q.chunks d)).failure = none) : q.rootLeaves ≠ [] := by
  match q with
  | .spec s => exact List.cons_ne_nil _ _
  | .group ⟨operator, members, keys, offset, fetch, kind⟩ =>
      rw [chunks, Chunk.fill_append, Chunk.fill_text] at h
      obtain ⟨hstart, hmembers⟩ := failure_append_eq_none.1 (failure_append_eq_none.1 h).1
      rw [Render.operationStart] at hstart
      have hrequired := (failure_append_eq_none.1 (failure_append_eq_none.1 hstart).1).1
      have htwo : 2 ≤ members.length :=
        of_decide_eq_true ((failure_require_eq_none _ _).1 hrequired)
      cases members with
      | nil => cases htwo
      | cons q qs =>
          have hfirst := Chunk.failure_of_joined hmembers
          rw [Chunk.fill_append, Chunk.fill_text] at hfirst
          have hquery := (failure_append_eq_none.1 (failure_append_eq_none.1 hfirst).1).2
          intro hnil
          exact q.rootLeaves_ne_nil hquery (List.append_eq_nil_iff.1 hnil).1

namespace Locking

variable {d : Dialect} {l : LockOptions}

theorem notes_render (d : Dialect) (scope : LockScope) (aggregating : Bool) :
    (render d scope aggregating).Notes fun g => g = .rowLocking ∧
      scope.options.isLocking = true ∧ d.capabilities.locking.forUpdate = false := by
  intro hok g
  cases hlocking : scope.options.isLocking with
  | false => simp [render, hlocking]
  | true =>
      cases hforUpdate : d.capabilities.locking.forUpdate with
      | false => simp [render, hlocking, hforUpdate]
      | true =>
          have htext := isText_forUpdate d.capabilities.locking scope.options.clause
          cases hstrategy : strategyFor d.strategies.locking d.capabilities.locking
              scope.underSetOperation aggregating scope.options.followOnLocking with
          | error e => simp [render, hlocking, hforUpdate, hstrategy] at hok
          | ok strategy =>
              cases strategy with
              | followOn => simp [render, hlocking, hforUpdate, hstrategy]
              | clause =>
                  simp only [render, hlocking, hforUpdate, hstrategy]
                  refine ⟨fun hg => ?_, fun h => absurd h.2.2 (by decide)⟩
                  cases (htext.2 _ hg).1

/-- The lock of a select is noted once for each root leaf. -/
theorem notes_leaves (st : SelectStatement) :
    (Chunk.fill (leafMark d l st) (st.query.chunks d)).Notes fun g => g = .rowLocking ∧
      l.isLocking = true ∧ d.capabilities.locking.forUpdate = false := by
  intro hok g
  have hquery := (Layers.noteless.queryHolds d st.query).output
  rw [Render.output_query_unlocked] at hquery
  obtain ⟨htext, hmarks⟩ := (Chunk.failure_fill_eq_none _ _).1 hok
  rw [Query.leaves_chunks] at hmarks
  have hleaf {s : QuerySpec} (hs : s ∈ st.query.rootLeaves) := notes_render d
    (Render.leafLock l st.query) s.isAggregating (hmarks s hs) g
  rw [Chunk.pieces_fill hok, List.mem_flatMap]
  constructor
  · rintro ⟨chunk, hchunk, hg⟩
    cases chunk with
    | text o =>
        have hmem : Piece.gap g ∈ (Chunk.fill (fun _ => .empty) (st.query.chunks d)).pieces := by
          rw [Chunk.pieces_fill htext]
          exact List.mem_flatMap.2 ⟨_, hchunk, hg⟩
        cases hquery _ hmem
    | leafEnd s =>
        have hs : s ∈ st.query.rootLeaves := by
          rw [← Query.leaves_chunks d]
          exact List.mem_filterMap.2 ⟨_, hchunk, rfl⟩
        exact (hleaf hs).1 hg
  · intro hg
    obtain ⟨s, hs⟩ := List.exists_mem_of_ne_nil _ (st.query.rootLeaves_ne_nil hok)
    exact ⟨.leafEnd s, leafEnd_mem_chunks hs, (hleaf hs).2 hg⟩

end Locking

/-- The common table expressions of a statement, or of the query that an insert takes its rows
from. -/
def Statement.ctes : Statement → List Cte
  | .select s => s.ctes
  | .insert ⟨_, _, .query s⟩ => s.ctes
  | _ => []

namespace Render

variable (d : Dialect)

theorem notes_withClause (ctes : List Cte) : (withClause d ctes).Notes fun g =>
    ∃ c ∈ ctes, g = .cycleClause c.name ∧ c.cycle.isSome = true ∧ ¬ d.WritesCycles := by
  have L := Layers.noteless.ofQuery
  cases ctes with
  | nil => exact L.empty.notes.congr fun _ => by simp
  | cons c cs =>
      have hrecursive : (if (c :: cs).any (·.recursive) then
          Output.require d.capabilities.recursiveCte (.unsupported .recursiveCte) ++
            .when d.capabilities.recursiveKeyword (.word "recursive ")
          else .empty).Noteless := by
        split
        · exact (L.require _ _).append (L.when _ (L.fixed _ rfl))
        · exact L.empty
      have hstart := ((L.require d.capabilities.cte (.unsupported .cte)).append
        (L.fixed "with " rfl)).append hrecursive
      exact ((Notes.list fun c _ => Cte.notes_cte d c).behind hstart).before (L.fixed " " rfl)

/-- The gaps of a statement are those of the cycle clauses that the dialect lacks and of a lock that
it lacks. -/
theorem notes_statement (l : LockOptions) (s : Statement) : (statement d l s).Notes fun g =>
    (∃ c ∈ s.ctes, g = .cycleClause c.name ∧ c.cycle.isSome = true ∧ ¬ d.WritesCycles) ∨
      g = .rowLocking ∧ (∃ st, s = .select st) ∧ l.isLocking = true ∧
        d.capabilities.locking.forUpdate = false := by
  cases s with
  | select st =>
      rw [Locking.statement_select]
      exact ((notes_withClause d st.ctes).append (Locking.notes_leaves st)).congr fun g => by
        simp [Statement.ctes]
  | insert s =>
      obtain ⟨target, columns, source⟩ := s
      have htarget : (.word "insert into " ++ namedTable target : Output).Noteless :=
        Layers.noteless.insertTarget target
      cases source with
      | query st =>
          have hquery : (query d none st.query).output.Noteless :=
            (Layers.noteless.queryHolds d st.query).output
          have hcolumns : (columnList columns ++ .word " ").Noteless :=
            Layers.noteless.ofQuery.append (Layers.noteless.columnList columns)
              (Layers.noteless.ofQuery.fixed " " rfl)
          have hsource := ((notes_withClause d st.ctes).before hquery).behind hcolumns
          exact (hsource.behind htarget).congr fun g => by simp [Statement.ctes]
      | values rows =>
          have hvalues : (insertSource d columns (.values rows)).Noteless :=
            Layers.noteless.insertValues d columns rows
          exact (hvalues.notes.behind htarget).congr fun g => by simp [Statement.ctes]
      | defaultValues =>
          have hvalues : (insertSource d columns .defaultValues).Noteless :=
            Layers.noteless.insertDefaultValues d columns
          exact (hvalues.notes.behind htarget).congr fun g => by simp [Statement.ctes]
  | update s =>
      have htext : (update d s).Noteless := Layers.noteless.update d s
      exact htext.notes.congr fun g => by simp [Statement.ctes]
  | delete s =>
      have htext : (delete d s).Noteless := Layers.noteless.delete d s
      exact htext.notes.congr fun g => by simp [Statement.ctes]

theorem cte_inside_statement (l : LockOptions) {s : Statement} {c : Cte} (hc : c ∈ s.ctes) :
    (cte d c).Inside (statement d l s) := by
  have hwith {ctes : List Cte} (hc : c ∈ ctes) : (cte d c).Inside (withClause d ctes) := by
    have hlist := (Composed.list (ctes.map (cte d))).inside _ (List.mem_map_of_mem hc)
    cases ctes with
    | nil => cases hc
    | cons c cs => exact (hlist.right _).left _
  cases s with
  | select st => exact (hwith hc).left _
  | insert s =>
      obtain ⟨target, columns, source⟩ := s
      cases source with
      | query st => exact (((hwith hc).left _).right _).right _
      | values | defaultValues => cases hc
  | update | delete => cases hc

end Render

/-- The gaps of a translation are the cycle clauses that were left out and a lock that the dialect
cannot take, each once. -/
theorem gaps_exact (d : Dialect) (l : LockOptions) (s : Statement) {t : TranslatedSql}
    (ht : translateWithLock d s l = .ok t) :
    t.gaps.Nodup ∧
      (∀ name, .cycleClause name ∈ t.gaps ↔
        ∃ c ∈ s.ctes, c.name = name ∧ c.cycle.isSome = true ∧ ¬ c.CycleWritten d) ∧
      (.rowLocking ∈ t.gaps ↔
        (∃ st, s = .select st) ∧ l.mode ≠ .none ∧ d.capabilities.locking.forUpdate = false) ∧
      ∀ c ∈ s.ctes, (Render.cte d c).pieces <:+: (Render.statement d l s).pieces ∧
        (c.CycleWritten d → .cycleClause c.name ∉ t.gaps) ∧
        (¬ c.CycleWritten d → (Render.cte d c).pieces.filterMap Translation.withoutNote =
          (Render.cte d c.withoutCycle).pieces) := by
  obtain ⟨hok, rfl⟩ := Locking.translate_ok.1 ht
  have hmem (g : CapabilityGap) := (Translation.mem_gaps g _).trans
    (Render.notes_statement d l s hok g)
  have hinside {c : Cte} (hc : c ∈ s.ctes) := Render.cte_inside_statement d l hc
  have hwritten {c : Cte} (hc : c ∈ s.ctes) := Cte.cycleWritten_iff ((hinside hc).failure hok)
  refine ⟨Translation.nodup_gaps _, fun name => (hmem _).trans ?_, (hmem _).trans ?_,
    fun c hc => ⟨(hinside hc).pieces hok, fun hc' hgap => ?_, fun hc' => ?_⟩⟩
  · simp only [reduceCtorEq, false_and, or_false, CapabilityGap.cycleClause.injEq]
    refine exists_congr fun c => and_congr_right fun hc => ?_
    rw [hwritten hc, not_and, eq_comm]
    exact and_congr_right fun _ => and_congr_right fun hcycle => (imp_iff_right hcycle).symm
  · simp [LockOptions.isLocking]
  · obtain ⟨-, hwrites⟩ := (hwritten hc).1 hc'
    obtain ⟨-, -, -, -, hlacks⟩ | ⟨h, -⟩ := (hmem _).1 hgap
    · exact hlacks hwrites
    · cases h
  · exact Cte.text_of_not_written ((hinside hc).failure hok) hc'

/-- A locked search of a tree, whose cycle clause SQLite lacks as it lacks row locks. -/
theorem gaps_exact_tree :
    let nodes := (QuerySpec.empty.select (.column none "id") none).addRoot (.table "node")
    let tree : Cte := ⟨"tree", ["id"], .spec nodes, false, none,
      some ⟨["id"], "is_cycle", none, .text "Y", .text "N"⟩, .undefined⟩
    let s := Statement.select ⟨[tree],
      .spec ((QuerySpec.empty.select (.column none "id") none).addRoot (.table "tree"))⟩
    let write := LockOptions.ofMode .pessimisticWrite
    ∃ t, translateWithLock .sqlite s write = .ok t ∧
      t.sql = "with tree (id) as (select id from node) select id from tree" ∧
      t.gaps = [.cycleClause "tree", .rowLocking] ∧
      ¬ tree.CycleWritten .sqlite ∧ tree.CycleWritten .generic := by
  intro nodes tree s write
  have ht : translateWithLock .sqlite s write = .ok _ := Locking.translate_ok.2 ⟨by decide, rfl⟩
  obtain ⟨-, hcycles, -, -⟩ := gaps_exact .sqlite write s ht
  obtain ⟨c, hc, -, -, hwritten⟩ := (hcycles "tree").1 (by decide)
  obtain rfl : c = tree := List.mem_singleton.1 hc
  exact ⟨_, ht, by decide, by decide, hwritten,
    (Cte.cycleWritten_iff (by decide)).2 ⟨rfl, rfl, by decide⟩⟩

end DialectSql
