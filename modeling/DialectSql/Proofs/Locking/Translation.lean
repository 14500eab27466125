import DialectSql.Proofs.Layer.Query
import DialectSql.Proofs.Locking.Chunks
import DialectSql.Render.Translation

namespace DialectSql

namespace Output

/-- What is rendered without a lock notes nothing beside the text. -/
def Noteless (o : Output) : Prop := ∀ p ∈ o.pieces, p.isNote = false

theorem noteless_ofPieces {ps : List Piece} (h : ∀ p ∈ ps, p.isNote = false) :
    (ofPieces ps).Noteless := h

theorem Noteless.append {a b : Output} (ha : a.Noteless) (hb : b.Noteless) : (a ++ b).Noteless := by
  intro p hp
  cases hfailure : a.failure with
  | some e => rw [append_of_failure hfailure] at hp; exact ha p hp
  | none =>
      rw [pieces_append hfailure] at hp
      exact (List.mem_append.1 hp).elim (ha p) (hb p)

theorem closed_noteless (allowed : Lexeme → Bool) : Closed allowed Noteless Noteless where
  empty := noteless_ofPieces nofun
  fail e := noteless_ofPieces nofun
  append := .append
  word {w} _ := noteless_ofPieces (by simp [Piece.isNote])
  pair {w b} _ := noteless_ofPieces (by simp [Piece.isNote])
  unit {p} _ hp := noteless_ofPieces (by simpa using hp)
  group {w v b o} _ _ ho :=
    .append (.append (noteless_ofPieces (by simp [Piece.isNote])) ho)
      (noteless_ofPieces (by simp [Piece.isNote]))

def Layers.noteless : Layers where
  expression := Noteless
  test := Noteless
  condition := Noteless
  source := Noteless
  clause := Noteless
  query := Noteless
  ofExpression := closed_noteless _
  ofTest := closed_noteless _
  ofCondition := closed_noteless _
  ofSource := closed_noteless _
  ofClause := closed_noteless _
  ofQuery := closed_noteless _
  test_of_expression := id
  condition_of_test := id
  source_of_condition := id
  clause_of_source := id
  query_of_clause := id

end Output

namespace Locking

variable {d : Dialect} {scope : LockScope} {aggregating : Bool}

/-- Whether a query takes the lock itself. -/
def takesClause (d : Dialect) (scope : LockScope) (aggregating : Bool) : Bool :=
  d.capabilities.locking.forUpdate &&
    match strategyFor d.strategies.locking d.capabilities.locking scope.underSetOperation aggregating
      scope.options.followOnLocking with
    | .ok .clause => true
    | _ => false

theorem render_unlocked (h : scope.options.isLocking = false) :
    render d scope aggregating = .empty := by
  simp [render, h]

/-- A lock is ruled out only where it may not be left to a following statement. -/
theorem strategyFor_error {rule : LockingRule} {locking : LockingCapabilities} {under : Bool}
    {followOn : Option Bool} {e : TranslateError}
    (h : strategyFor rule locking under aggregating followOn = .error e) :
    (∃ cause, e = .illegalLock cause) ∧ followOn = some false := by
  by_cases hfollowOn : followOn = some false
  · refine ⟨?_, hfollowOn⟩
    cases rule with
    | standard =>
        simp only [strategyFor, hfollowOn, if_true] at h
        split at h
        · exact ⟨_, (Except.error.inj h).symm⟩
        · split at h
          · exact ⟨_, (Except.error.inj h).symm⟩
          · split at h <;> cases h
    | unlessSetOperation =>
        simp only [strategyFor, hfollowOn, if_true] at h
        split at h
        · exact ⟨_, (Except.error.inj h).symm⟩
        · cases h
  · cases rule <;> simp only [strategyFor, if_neg hfollowOn] at h <;> split at h <;>
      first
      | cases h
      | (split at h <;> first | cases h | (split at h <;> cases h))

/-- A lock is a clause, or a mark that it is missing or left to a following statement, or ruled
out. -/
theorem render_cases (scope : LockScope) (h : scope.options.isLocking = true) :
    (takesClause d scope aggregating = true ∧
        render d scope aggregating = forUpdate d.capabilities.locking scope.options.clause) ∨
      takesClause d scope aggregating = false ∧
        (render d scope aggregating = .ofPieces [.gap .rowLocking] ∨
          render d scope aggregating = .ofPieces [.followOnLock scope.options.clause] ∨
          ∃ cause, render d scope aggregating = .fail (.illegalLock cause) ∧
            scope.options.followOnLocking = some false) := by
  cases hforUpdate : d.capabilities.locking.forUpdate with
  | false => exact .inr (by simp [takesClause, render, h, hforUpdate])
  | true =>
      cases hstrategy : strategyFor d.strategies.locking d.capabilities.locking
          scope.underSetOperation aggregating scope.options.followOnLocking with
      | error e =>
          obtain ⟨⟨cause, rfl⟩, hfollowOn⟩ := strategyFor_error hstrategy
          have hrender : render d scope aggregating = .fail (.illegalLock cause) := by
            simp [render, h, hforUpdate, hstrategy]
          exact .inr ⟨by simp [takesClause, hforUpdate, hstrategy],
            .inr (.inr ⟨cause, hrender, hfollowOn⟩)⟩
      | ok strategy =>
          cases strategy with
          | clause => exact .inl (by simp [takesClause, render, h, hforUpdate, hstrategy])
          | followOn => exact .inr (by simp [takesClause, render, h, hforUpdate, hstrategy])

/-- Text that is neither bound nor counted. -/
def IsText (o : Output) : Prop :=
  o.failure = none ∧ ∀ p ∈ o.pieces,
    p.isNote = false ∧ p.slot? = none ∧ p.table? = none ∧ p.followOnLock? = none

theorem isText_empty : IsText .empty := ⟨rfl, nofun⟩

theorem isText_word (w : String) : IsText (.word w) := ⟨rfl, by simp [Piece.isNote, Piece.slot?,
  Piece.table?, Piece.followOnLock?]⟩

theorem isText_name (n : String) : IsText (.name n) := ⟨rfl, by simp [Piece.isNote, Piece.slot?,
  Piece.table?, Piece.followOnLock?]⟩

theorem IsText.append {a b : Output} (ha : IsText a) (hb : IsText b) : IsText (a ++ b) := by
  refine ⟨Output.failure_append_eq_none.2 ⟨ha.1, hb.1⟩, fun p hp => ?_⟩
  rw [Output.pieces_append ha.1] at hp
  exact (List.mem_append.1 hp).elim (ha.2 p) (hb.2 p)

theorem IsText.when (condition : Bool) {o : Output} (h : IsText o) : IsText (.when condition o) := by
  cases condition
  · exact isText_empty
  · exact h

theorem isText_nameList (names : List String) : IsText (.nameList names) := by
  induction names with
  | nil => exact isText_empty
  | cons n ns ih =>
      cases ns with
      | nil => exact isText_name n
      | cons m ms => exact ((isText_name n).append (isText_word ", ")).append ih

theorem isText_forUpdate (locking : LockingCapabilities) (c : ForUpdateClause) :
    IsText (forUpdate locking c) := by
  refine ((isText_word _).append (((isText_word _).append (isText_nameList _)).when _)).append ?_
  rw [timeoutOutput.eq_def]
  split
  · exact isText_empty
  · exact (isText_word _).when _
  · exact (isText_word _).when _
  · refine ((isText_word _).append ⟨rfl, ?_⟩).when _
    simp [Piece.isNote, Piece.slot?, Piece.table?, Piece.followOnLock?]

end Locking

namespace Translation

variable (style : PlaceholderStyle)

def withoutNote (p : Piece) : Option Piece := if p.isNote then none else some p

/-- Notes have no text. -/
theorem join_texts (slots aliases : Nat) (ps : List Piece) :
    String.join (texts style slots aliases ps) =
      String.join (texts style slots aliases (ps.filterMap withoutNote)) := by
  induction ps generalizing slots aliases with
  | nil => rfl
  | cons p ps ih =>
      cases p with
      | gap | followOnLock => simpa [texts, withoutNote, Piece.isNote, Piece.text] using ih slots aliases
      | slot s => simp [texts, withoutNote, Piece.isNote, ih (slots + 1) aliases, Piece.text]
      | derivedAlias => simp [texts, withoutNote, Piece.isNote, ih slots (aliases + 1), Piece.text]
      | word | name | plain | quoted | table =>
          simp [texts, withoutNote, Piece.isNote, ih slots aliases, Piece.text]

theorem mem_gaps (g : CapabilityGap) (ps : List Piece) : g ∈ gaps ps ↔ .gap g ∈ ps := by
  have hfold (gs seen : List CapabilityGap) : g ∈ gs.foldl addGap seen ↔ g ∈ seen ∨ g ∈ gs := by
    induction gs generalizing seen with
    | nil => simp
    | cons h hs ih =>
        rw [List.foldl_cons, ih, addGap]
        by_cases hmem : h ∈ seen
        · simp only [hmem, if_true, List.mem_cons]
          constructor
          · rintro (hg | hg)
            · exact .inl hg
            · exact .inr (.inr hg)
          · rintro (hg | rfl | hg)
            · exact .inl hg
            · exact .inl hmem
            · exact .inr hg
        · simp [hmem, or_assoc]
  rw [gaps, hfold]
  simp only [List.not_mem_nil, false_or, List.mem_filterMap]
  constructor
  · rintro ⟨p, hp, hg⟩
    cases p <;> simp [Piece.gap?] at hg
    rwa [← hg]
  · exact fun h => ⟨.gap g, h, rfl⟩

end Translation

namespace Locking

variable (d : Dialect) (l : LockOptions) (st : SelectStatement)

/-- What stands at the end of a root leaf of the statement. -/
def leafMark (s : QuerySpec) : Output := Render.lockOf d (some (Render.leafLock l st.query)) s

def carries (s : QuerySpec) : Bool := takesClause d (Render.leafLock l st.query) s.isAggregating

/-- The text of a select statement, with something at the ends of its root leaves. -/
def filled (mark : QuerySpec → Output) : Output :=
  Render.withClause d st.ctes ++ Chunk.fill mark (st.query.chunks d)

theorem statement_select :
    Render.statement d l (.select st) = filled d st (leafMark d l st) := by
  rw [Render.statement, Render.select, Render.output_query_locked]
  rfl

variable {d l st}

theorem leafMark_unlocked (h : l.isLocking = false) : leafMark d l st = fun _ => .empty :=
  funext fun _ => render_unlocked h

theorem leafMark_cases (st : SelectStatement) (h : l.isLocking = true) (s : QuerySpec) :
    (carries d l st s = true ∧
        leafMark d l st s = forUpdate d.capabilities.locking l.clause) ∨
      carries d l st s = false ∧
        (leafMark d l st s = .ofPieces [.gap .rowLocking] ∨
          leafMark d l st s = .ofPieces [.followOnLock l.clause] ∨
          ∃ cause, leafMark d l st s = .fail (.illegalLock cause) ∧
            l.followOnLocking = some false) :=
  render_cases (Render.leafLock l st.query) h

def clauseMark (d : Dialect) (l : LockOptions) (st : SelectStatement) (s : QuerySpec) : Output :=
  .when (carries d l st s) (forUpdate d.capabilities.locking l.clause)

theorem isText_clauseMark (s : QuerySpec) : IsText (clauseMark d l st s) :=
  (isText_forUpdate _ _).when _

theorem IsText.filterMap {o : Output} (h : IsText o) {β : Type} {f : Piece → Option β}
    (hf : ∀ p : Piece, p.isNote = false ∧ p.slot? = none ∧ p.table? = none ∧ p.followOnLock? = none →
      f p = none) : o.pieces.filterMap f = [] :=
  List.filterMap_eq_nil_iff.2 fun p hp => hf p (h.2 p hp)

/-- A mark that was rendered to its end binds nothing and names no table, and its text is that of
the clause where it is carried. -/
theorem leafMark_pieces (h : l.isLocking = true) {s : QuerySpec}
    (hok : (leafMark d l st s).failure = none) :
    (leafMark d l st s).pieces.filterMap Piece.slot? = [] ∧
      (leafMark d l st s).pieces.filterMap Piece.table? = [] ∧
      (leafMark d l st s).pieces.filterMap Translation.withoutNote =
        (clauseMark d l st s).pieces.filterMap Translation.withoutNote ∧
      ∀ c ∈ (leafMark d l st s).pieces.filterMap Piece.followOnLock?, c = l.clause := by
  have htext := isText_forUpdate d.capabilities.locking l.clause
  rcases leafMark_cases st h s with ⟨hcarries, hmark⟩ | ⟨hcarries, hmark | hmark | ⟨c, hmark, -⟩⟩
  · have hclause : clauseMark d l st s = forUpdate d.capabilities.locking l.clause := by
      rw [clauseMark, hcarries]
      rfl
    rw [hmark, hclause, htext.filterMap fun p hp => hp.2.1, htext.filterMap fun p hp => hp.2.2.1,
      htext.filterMap fun p hp => hp.2.2.2]
    exact ⟨rfl, rfl, rfl, nofun⟩
  · rw [hmark, clauseMark, hcarries]
    exact ⟨rfl, rfl, rfl, nofun⟩
  · rw [hmark, clauseMark, hcarries]
    exact ⟨rfl, rfl, rfl, by simp [Piece.followOnLock?]⟩
  · rw [hmark] at hok
    cases hok

theorem translate_ok {s : Statement} {t : TranslatedSql} :
    translateWithLock d s l = .ok t ↔ (Render.statement d l s).failure = none ∧
      t = Translation.ofPieces d.capabilities.placeholder (Render.statement d l s).pieces := by
  rw [translateWithLock, Translation.ofOutput]
  cases hfailure : (Render.statement d l s).failure with
  | some e => simp
  | none => simp [eq_comm]

theorem translate_error {s : Statement} {e : TranslateError} :
    translateWithLock d s l = .error e ↔ (Render.statement d l s).failure = some e := by
  rw [translateWithLock, Translation.ofOutput]
  cases hfailure : (Render.statement d l s).failure with
  | some f => simp
  | none => simp

theorem statement_unlocked :
    Render.statement d .unlocked (.select st) = filled d st fun _ => .empty := by
  rw [statement_select, leafMark_unlocked rfl]

theorem filled_ok {mark : QuerySpec → Output} (h : (filled d st mark).failure = none) :
    (filled d st fun _ => .empty).failure = none ∧
      (∀ s ∈ st.query.rootLeaves, (mark s).failure = none) ∧
      (filled d st mark).pieces = (Render.withClause d st.ctes).pieces ++
        (st.query.chunks d).flatMap (Chunk.pieces mark) := by
  obtain ⟨hctes, hquery⟩ := Output.failure_append_eq_none.1 h
  obtain ⟨htext, hmarks⟩ := (Chunk.failure_fill_eq_none _ _).1 hquery
  rw [Query.leaves_chunks] at hmarks
  refine ⟨Output.failure_append_eq_none.2 ⟨hctes, htext⟩, hmarks, ?_⟩
  rw [filled, Output.pieces_append hctes, Chunk.pieces_fill hquery]

theorem leafEnd_mem_chunks {s : QuerySpec} (hs : s ∈ st.query.rootLeaves) :
    Chunk.leafEnd s ∈ st.query.chunks d := by
  rw [← Query.leaves_chunks d] at hs
  obtain ⟨chunk, hchunk, hcs⟩ := List.mem_filterMap.1 hs
  cases chunk with
  | text o => cases hcs
  | leafEnd t => rwa [← Option.some.inj hcs]

theorem unlocked_followOnLock (d : Dialect) (st : SelectStatement) : (Chunk.fill (fun _ => .empty) (st.query.chunks d)).pieces.filterMap
    Piece.followOnLock? = [] := by
  have hquery := (Output.Layers.noteless.queryHolds d st.query).output
  rw [Render.output_query_unlocked] at hquery
  refine List.filterMap_eq_nil_iff.2 fun p hp => ?_
  have hnote := hquery p hp
  cases p with
  | followOnLock c => simp [Piece.isNote] at hnote
  | _ => rfl

theorem eq_clause_of_followOnLock (h : l.isLocking = true)
    (hok : (filled d st (leafMark d l st)).failure = none) {c : ForUpdateClause}
    (hc : c ∈ ((st.query.chunks d).flatMap (Chunk.pieces (leafMark d l st))).filterMap
      Piece.followOnLock?) : c = l.clause := by
  obtain ⟨p, hp, hpc⟩ := List.mem_filterMap.1 hc
  obtain ⟨chunk, hchunk, hp⟩ := List.mem_flatMap.1 hp
  cases chunk with
  | text o =>
      have hquery := (Output.failure_append_eq_none.1 hok).2
      have htext := (Chunk.failure_fill_eq_none _ _).1 hquery
      have hmem : p ∈ (Chunk.fill (fun _ => .empty) (st.query.chunks d)).pieces := by
        rw [Chunk.pieces_fill htext.1]
        exact List.mem_flatMap.2 ⟨_, hchunk, hp⟩
      have hnone := List.filterMap_eq_nil_iff.1 (unlocked_followOnLock d st) p hmem
      rw [hnone] at hpc
      cases hpc
  | leafEnd s =>
      have hleaf : s ∈ st.query.rootLeaves := by
        rw [← Query.leaves_chunks d]
        exact List.mem_filterMap.2 ⟨_, hchunk, rfl⟩
      have hmark := (filled_ok hok).2.1 s hleaf
      exact (leafMark_pieces h hmark).2.2.2 c (List.mem_filterMap.2 ⟨p, hp, hpc⟩)

/-- A lock that one leaf leaves to a following statement is the lock of the translation. -/
theorem followOnLock_filled (h : l.isLocking = true)
    (hok : (filled d st (leafMark d l st)).failure = none) {s : QuerySpec}
    (hs : s ∈ st.query.rootLeaves) (hmark : leafMark d l st s = .ofPieces [.followOnLock l.clause]) :
    Translation.followOnLock (filled d st (leafMark d l st)).pieces = some l.clause := by
  obtain ⟨-, -, hpieces⟩ := filled_ok hok
  have hmem : l.clause ∈ ((st.query.chunks d).flatMap
      (Chunk.pieces (leafMark d l st))).filterMap Piece.followOnLock? := by
    refine List.mem_filterMap.2 ⟨.followOnLock l.clause, List.mem_flatMap.2
      ⟨_, leafEnd_mem_chunks hs, ?_⟩, rfl⟩
    rw [Chunk.pieces, hmark]
    exact List.mem_singleton_self _
  -- the last such lock is the translation's, and all of them are the same
  rw [Translation.followOnLock, hpieces, List.filterMap_append,
    List.getLast?_append_of_ne_nil _ (List.ne_nil_of_mem hmem),
    List.getLast?_eq_some_getLast (List.ne_nil_of_mem hmem)]
  exact congrArg some (eq_clause_of_followOnLock h hok (List.getLast_mem _))

/-- A locked select is the unlocked one with the clause at the end of some root leaves. -/
theorem select_ok (h : l.isLocking = true) {locked : TranslatedSql}
    (hlocked : translateWithLock d (.select st) l = .ok locked) :
    ∃ unlocked, translate d (.select st) = .ok unlocked ∧
      locked.parameters = unlocked.parameters ∧
      locked.affectedTables = unlocked.affectedTables ∧
      unlocked.sql = Translation.sql d.capabilities.placeholder (filled d st fun _ => .empty).pieces ∧
      locked.sql = Translation.sql d.capabilities.placeholder (filled d st (clauseMark d l st)).pieces ∧
      ∀ s ∈ st.query.rootLeaves, carries d l st s = true ∨
        locked.followOnLock = some l.clause ∨ .rowLocking ∈ locked.gaps := by
  obtain ⟨hok, rfl⟩ := translate_ok.1 hlocked
  rw [statement_select] at hok ⊢
  obtain ⟨htext, hmarks, hpieces⟩ := filled_ok hok
  obtain ⟨hctes, htextok⟩ := Output.failure_append_eq_none.1 htext
  have hclauseok : (filled d st (clauseMark d l st)).failure = none :=
    Output.failure_append_eq_none.2 ⟨hctes, (Chunk.failure_fill_eq_none _ _).2
      ⟨htextok, fun s _ => (isText_clauseMark s).1⟩⟩
  have hleaf : ∀ s ∈ (st.query.chunks d).filterMap Chunk.leaf?, (leafMark d l st s).failure = none := by
    rwa [Query.leaves_chunks]
  refine ⟨_, translate_ok.2 ⟨?_, rfl⟩, ?_, ?_, ?_, ?_, ?_⟩
  · rw [statement_unlocked]
    exact htext
  · rw [statement_unlocked]
    have hslots := Chunk.filterMap_pieces Piece.slot? (fun _ => .empty)
      fun s hs => (leafMark_pieces h (hleaf s hs)).1
    simp only [Translation.ofPieces, Translation.parameters, hpieces, (filled_ok htext).2.2,
      List.filterMap_append, hslots]
  · rw [statement_unlocked]
    have htables := Chunk.filterMap_pieces Piece.table? (fun _ => .empty)
      fun s hs => (leafMark_pieces h (hleaf s hs)).2.1
    simp only [Translation.ofPieces, Translation.affectedTables, hpieces, (filled_ok htext).2.2,
      List.filterMap_append, htables]
  · rw [statement_unlocked]
    rfl
  · change Translation.sql _ _ = _
    rw [Translation.sql, Translation.sql, Translation.join_texts, hpieces,
      Translation.join_texts _ _ _ (filled d st (clauseMark d l st)).pieces,
      (filled_ok hclauseok).2.2, List.filterMap_append, List.filterMap_append,
      Chunk.filterMap_pieces Translation.withoutNote (clauseMark d l st)
        fun s hs => (leafMark_pieces h (hleaf s hs)).2.2.1]
  · intro s hs
    rcases leafMark_cases st h s with ⟨hcarries, -⟩ | ⟨-, hmark | hmark | ⟨c, hmark, -⟩⟩
    · exact .inl hcarries
    · refine .inr (.inr ((Translation.mem_gaps _ _).2 ?_))
      rw [hpieces]
      refine List.mem_append_right _ (List.mem_flatMap.2 ⟨_, leafEnd_mem_chunks hs, ?_⟩)
      rw [Chunk.pieces, hmark]
      exact List.mem_singleton_self _
    · exact .inr (.inl (followOnLock_filled h hok hs hmark))
    -- a lock that is ruled out would have failed
    · have hfailure := hmarks s hs
      rw [hmark] at hfailure
      cases hfailure

/-- What a lock rules out is a lock that may not be left to a following statement. -/
theorem select_error (h : l.isLocking = true) {unlocked : TranslatedSql} {e : TranslateError}
    (hunlocked : translate d (.select st) = .ok unlocked)
    (hlocked : translateWithLock d (.select st) l = .error e) :
    (∃ cause, e = .illegalLock cause) ∧ l.followOnLocking = some false := by
  have htext := (translate_ok.1 hunlocked).1
  rw [statement_unlocked] at htext
  have hfailure := translate_error.1 hlocked
  obtain ⟨hctes, hquery⟩ := Output.failure_append_eq_none.1 htext
  rw [statement_select, filled, Output.failure_append, hctes, Option.none_or] at hfailure
  obtain ⟨s, -, hs⟩ := Chunk.failure_of_mark hquery hfailure
  rcases leafMark_cases st h s with ⟨-, hmark⟩ | ⟨-, hmark | hmark | ⟨cause, hmark, hfollowOn⟩⟩
  · rw [hmark, (isText_forUpdate _ _).1] at hs
    cases hs
  · rw [hmark] at hs
    cases hs
  · rw [hmark] at hs
    cases hs
  · rw [hmark] at hs
    exact ⟨⟨cause, (Option.some.inj hs).symm⟩, hfollowOn⟩

end Locking

/-- A lock adds nothing but the lock clause at the end of root leaves, and each root leaf that does
not carry the clause is accounted for. -/
theorem lock_accounted (d : Dialect) (l : LockOptions) (s : Statement) :
    ((∀ st, s ≠ .select st) ∨ l.mode = .none → translateWithLock d s l = translate d s) ∧
      ∀ st, s = .select st → l.mode ≠ .none →
        (∀ locked, translateWithLock d s l = .ok locked →
          ∃ unlocked, translate d s = .ok unlocked ∧
            locked.parameters = unlocked.parameters ∧
            locked.affectedTables = unlocked.affectedTables ∧
            unlocked.sql = Translation.sql d.capabilities.placeholder
              (Locking.filled d st fun _ => .empty).pieces ∧
            locked.sql = Translation.sql d.capabilities.placeholder
              (Locking.filled d st (Locking.clauseMark d l st)).pieces ∧
            ∀ leaf ∈ st.query.rootLeaves, Locking.carries d l st leaf = true ∨
              locked.followOnLock = some l.clause ∨ .rowLocking ∈ locked.gaps) ∧
        ∀ unlocked e, translate d s = .ok unlocked → translateWithLock d s l = .error e →
          (∃ cause, e = .illegalLock cause) ∧ l.followOnLocking = some false := by
  constructor
  · intro h
    by_cases hselect : ∃ st, s = .select st
    · obtain ⟨st, rfl⟩ := hselect
      have hmode : l.mode = .none := h.resolve_left fun hne => hne st rfl
      have hlocking : l.isLocking = false := by simp [LockOptions.isLocking, hmode]
      have hstatement : Render.statement d l (.select st) =
          Render.statement d .unlocked (.select st) := by
        rw [Locking.statement_select, Locking.leafMark_unlocked hlocking, Locking.statement_unlocked]
      rw [translate, translateWithLock, translateWithLock, hstatement]
    · cases s with
      | select st => exact absurd ⟨st, rfl⟩ hselect
      | insert | update | delete => rfl
  · intro st hs hmode
    subst hs
    have hlocking : l.isLocking = true := by simp [LockOptions.isLocking, hmode]
    constructor
    · intro locked hlocked
      exact Locking.select_ok hlocking hlocked
    · intro unlocked e hunlocked hlocked
      exact Locking.select_error hlocking hunlocked hlocked

open Locking in
theorem lock_accounted_names :
    let names : QuerySpec := (QuerySpec.empty.select (.column none "name") none).addRoot
      ⟨.named ⟨none, "person"⟩, none, []⟩
    let write := LockOptions.ofMode .pessimisticWrite
    let refusing := { write with followOnLocking := some false }
    let plain : SelectStatement := ⟨[], .spec names⟩
    let distinct : SelectStatement := ⟨[], .spec names.asDistinct⟩
    (∃ locked, translateWithLock .generic (.select plain) write = .ok locked ∧
      ∃ unlocked, translate .generic (.select plain) = .ok unlocked ∧
        locked.parameters = unlocked.parameters ∧
        (carries .generic write plain names = true ∨ locked.followOnLock = some write.clause ∨
          .rowLocking ∈ locked.gaps)) ∧
      (translate .generic (.delete ⟨⟨none, "person"⟩, none⟩) =
        translateWithLock .generic (.delete ⟨⟨none, "person"⟩, none⟩) write) ∧
      ∃ unlocked e, translate .generic (.select distinct) = .ok unlocked ∧
        translateWithLock .generic (.select distinct) refusing = .error e ∧
        ∃ cause, e = .illegalLock cause := by
  intro names write refusing plain distinct
  have hplain : translateWithLock .generic (.select plain) write = .ok _ :=
    translate_ok.2 ⟨by decide, rfl⟩
  have hdistinct : translate .generic (.select distinct) = .ok _ :=
    translate_ok.2 ⟨by decide, rfl⟩
  have hrefused : translateWithLock .generic (.select distinct) refusing =
      .error (.illegalLock .aggregates) := translate_error.2 (by decide)
  refine ⟨?_, ?_, ?_⟩
  · obtain ⟨unlocked, hunlocked, hparameters, -, -, -, hleaves⟩ :=
      ((lock_accounted .generic write (.select plain)).2 plain rfl (by decide)).1 _ hplain
    exact ⟨_, hplain, unlocked, hunlocked, hparameters, hleaves names (List.mem_singleton_self _)⟩
  · exact ((lock_accounted .generic write _).1 (.inl fun _ h => by cases h)).symm
  · exact ⟨_, _, hdistinct, hrefused,
      (((lock_accounted .generic refusing (.select distinct)).2 distinct rfl (by decide)).2 _ _
        hdistinct hrefused).1⟩

end DialectSql
