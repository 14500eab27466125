import DialectSql.Proofs.Locking.Chunks
import DialectSql.Proofs.SetOperation.Layout

namespace DialectSql

namespace Render

open Output.Layers (reading)
open QueryText

variable (d : Dialect)

/-- How a query specification is read: what its text is up to its order, with the order and the limit
of the rows behind it. -/
def specPlan (s : QuerySpec) : QueryPlan :=
  (term (core d s).blocks).1.arrange (orderBy (sortKeys d s.orderBy)).lexemes
    ((term (core d s).blocks).2 ++
      (RowLimit.clause d (limit d s.offset) (limit d s.fetch) s.fetchKind).lexemes)

/-- Whether a limited set operation is a table that a query with a row range selects from. -/
def isWrapped (offset fetch : Option Limit) : Bool :=
  d.capabilities.rowLimit == .rowsTo && (offset.isSome || fetch.isSome)

/-- The text that limits the rows of a set operation. -/
def groupLimit (offset fetch : Option Limit) (kind : FetchKind) : Output :=
  if isWrapped d offset fetch then RowLimit.rowsTo d offset fetch kind
  else RowLimit.clause d offset fetch kind

end Render

mutual

/-- What a query stands for. A group combines its members from left to right, each with its own order
and limit, and its own order and limit apply to the whole of them. -/
def Query.plan (d : Dialect) : Query → QueryPlan
  | .spec s => Render.specPlan d s
  | .group ⟨operator, members, keys, offset, fetch, kind⟩ =>
      (QueryPlan.fold operator (plans d members)).arrange
        (Render.orderBy (Render.sortKeys d keys)).lexemes
        (Render.groupLimit d (Render.limit d offset) (Render.limit d fetch) kind).lexemes

def plans (d : Dialect) : List Query → List QueryPlan
  | [] => []
  | q :: qs => q.plan d :: plans d qs

end

namespace Render

open Output.Layers (reading)
open QueryText

variable {d : Dialect}

theorem ofBlocks_querySpec {s : QuerySpec} (hok : (querySpec d none s).output.failure = none) :
    QueryPlan.ofBlocks (querySpec d none s).output.blocks = specPlan d s := by
  have hnone : lockOf d none s = .empty := rfl
  rw [output_core, ending, hnone] at hok ⊢
  obtain ⟨hblocks, hlaid⟩ := laid d s.orderBy s.offset s.fetch s.fetchKind
    ((core_within d s).avoiding (by decide)) .empty hok
  obtain ⟨hcoreok, hrest⟩ := Output.failure_append_eq_none.1 hok
  obtain ⟨horderok, hrest⟩ := Output.failure_append_eq_none.1 hrest
  have hlimitok := (Output.failure_append_eq_none.1 hrest).1
  rw [hblocks, QueryPlan.ofBlocks_single hlaid
    ((core_within d s).blocks_isOneOf hcoreok (by decide)), specPlan,
    (orderBy_within d s.orderBy).text_blocks horderok,
    (rowLimit_within d s.offset s.fetch s.fetchKind).text_blocks hlimitok]

/-- A text that can stand between the operators of a set operation. -/
structure IsMember (o : Output) : Prop where
  within : o.Within (Lexeme.avoids Lexeme.memberWords)
  head : o.failure = none → ∀ b ∈ o.blocks.head?, b.isKey "all" = false

theorem IsMember.of_begins {o : Output} (h : o.Within (Lexeme.avoids Lexeme.memberWords))
    (hselect : o.Begins ["select"]) : IsMember o := by
  refine ⟨h, fun hok b hb => ?_⟩
  have hkey := hselect.blocks hok b hb
  simp_all [Block.isOneOf, Block.isKey, Part.isKey]

theorem isMember_parenthesized {o : Output} (h : o.Within Lexeme.ofQuery) :
    IsMember o.parenthesized := by
  refine ⟨(Output.closed_avoids _).parenthesized h, fun hok b hb => ?_⟩
  rw [Output.blocks_parenthesized h (by simpa using hok)] at hb
  obtain rfl : _ = b := by simpa using hb
  rfl

/-- A query in parentheses, or as the table of a query that selects all of it. -/
def apart (d : Dialect) (o : Output) : Output :=
  if d.capabilities.simpleQueryGrouping then o.parenthesized
  else .word "select * from " ++ o.parenthesized ++ .word " " ++ .ofPieces [.derivedAlias]

theorem failure_apart (o : Output) : (apart d o).failure = o.failure := by
  rw [apart]
  split <;> simp

theorem isMember_apart {o : Output} (h : o.Within Lexeme.ofQuery) : IsMember (apart d o) := by
  rw [apart]
  split
  · exact isMember_parenthesized h
  · have hgroup := (Output.closed_avoids Lexeme.memberWords).parenthesized h
    have hrest : (o.parenthesized ++ (.word " " ++ .ofPieces [.derivedAlias])).Within
        (Lexeme.avoids Lexeme.memberWords) :=
      hgroup.append (((Output.closed_avoids _).fixed _ rfl).append
        ((Output.closed_avoids _).unit rfl rfl))
    rw [Output.append_assoc, Output.append_assoc]
    exact .of_begins (((Output.closed_avoids _).fixed _ rfl).append hrest)
      (.clause "select" [.mark "*", .word "from"] rfl (by decide) rfl
        hrest.flat)

theorem blocks_derived {head o : Output} (hhead : head.Within Lexeme.ofQuery)
    (h : o.Within Lexeme.ofQuery)
    (hok : (head ++ o.parenthesized ++ .word " " ++ .ofPieces [.derivedAlias]).failure = none) :
    (head ++ o.parenthesized ++ .word " " ++ .ofPieces [.derivedAlias]).blocks = head.blocks ++
      [⟨.enclose .paren o.parts, some (.ofBlocks o.blocks)⟩,
        ⟨.leaf (.unit .derivedAlias), none⟩] := by
  have hgroup := reading.ofQuery.parenthesized h
  have hblank := reading.ofQuery.fixed " " rfl
  have hlabel := reading.ofQuery.unit (p := .derivedAlias) rfl rfl
  have hword : (Output.ofPieces [.derivedAlias]).blocks = [⟨.leaf (.unit .derivedAlias), none⟩] := by
    have hreads : Reads (Lexeme.ofPieces [.derivedAlias]) [.leaf (.unit .derivedAlias)] := .leaf rfl
    rw [Output.blocks, Output.parts_of_reads hreads]
    rfl
  have hok₁ := (Output.failure_append_eq_none.1 hok).1
  have hok₂ := (Output.failure_append_eq_none.1 hok₁).1
  have hook : o.failure = none := by simpa using (Output.failure_append_eq_none.1 hok₂).2
  rw [Output.blocks_append ((hhead.append hgroup).append hblank) hlabel hok,
    Output.blocks_append (hhead.append hgroup) hblank hok₁, Output.blocks_append hhead hgroup hok₂,
    Output.blocks_parenthesized h hook, Output.blocks_word (by decide), hword,
    show Lexeme.ofWord " " = [] by decide]
  simp

theorem ranged_apart {o : Output} (h : o.Within Lexeme.ofQuery) (hok : o.failure = none) :
    ranged (apart d o).blocks = .ofBlocks o.blocks := by
  rw [apart]
  split
  · rw [Output.blocks_parenthesized h hok]
    rfl
  · have hwords : Lexeme.ofWord "select * from " = [.word "select", .mark "*", .word "from"] := by
      decide
    rw [blocks_derived (reading.ofQuery.fixed _ rfl) h (by simpa using hok),
      Output.blocks_word (by decide), hwords, ranged]
    have hterm := @term_wrapping [] rfl (.enclose .paren o.parts) (.ofBlocks o.blocks)
    simp only [wrapping, List.map_cons, List.map_nil, List.cons_append, List.nil_append] at hterm ⊢
    rw [← Part.word, ← Part.word, hterm]
    rfl

theorem clause_none (kind : FetchKind) : RowLimit.clause d none none kind = .empty := by
  rw [RowLimit.clause]
  split
  · rw [RowLimit.trailing.eq_def]
    dsimp only
    split <;> rfl
  · rfl

theorem output_bare {s : QuerySpec} (hkeys : s.orderBy = []) (hoffset : s.offset = none)
    (hfetch : s.fetch = none) : (querySpec d none s).output = core d s := by
  rw [output_core, ending, hkeys, hoffset, hfetch, limit, clause_none]
  exact Output.append_empty _

theorem ranged_bare {s : QuerySpec} (hkeys : s.orderBy = []) (hoffset : s.offset = none)
    (hfetch : s.fetch = none) : ranged (core d s).blocks = specPlan d s := by
  rw [specPlan, hkeys, hoffset, hfetch, limit, clause_none, ranged]
  exact congrArg _ (List.append_nil _).symm

theorem failure_member (q : Query) (o : Output) : (member d q o).failure = o.failure := by
  have hmember : member d q o = if isApart q then apart d o else o := rfl
  rw [hmember]
  split
  · exact failure_apart o
  · rfl

/-- A member is read as the query it is, with its own order and limit. -/
theorem member_read {q : Query} (hok : (query d none q).output.failure = none)
    (hread : QueryPlan.ofBlocks (query d none q).output.blocks = q.plan d) :
    let o := member d q (query d none q).output
    o.failure = none ∧ IsMember o ∧ ranged o.blocks = q.plan d := by
  have hwithin : (query d none q).output.Within Lexeme.ofQuery := (reading.queryHolds d q).output
  have hmember : member d q (query d none q).output =
      if isApart q then apart d (query d none q).output else (query d none q).output := rfl
  dsimp only
  rw [hmember]
  split
  · exact ⟨(failure_apart _).trans hok, isMember_apart hwithin, (ranged_apart hwithin hok).trans hread⟩
  · rename_i hbare
    cases q with
    | group g => exact absurd rfl hbare
    | spec s =>
        obtain ⟨⟨hkeys, hoffset⟩, hfetch⟩ : (s.orderBy = [] ∧ s.offset = none) ∧ s.fetch = none := by
          simpa [isApart, Query.hasRowLimit, Query.offset, Query.fetch, and_assoc] using hbare
        have hcore := output_bare (d := d) hkeys hoffset hfetch
        rw [query, hcore] at hok ⊢
        exact ⟨hok, .of_begins (core_within_unlimited d hoffset hfetch) (core_begins d s),
          ranged_bare hkeys hoffset hfetch⟩

theorem setOperatorText_eq (d : Dialect) (op : SetOperator) :
    ∃ w v base, setOperatorText d op = .word w ∧
      Lexeme.ofWord w = .word v :: (if op.isAll then [.word "all"] else []) ∧
      (Lexeme.ofWord w).all (Lexeme.avoids ("rows" :: Lexeme.tailWords)) = true ∧
      Block.operator? ⟨.word v, none⟩ = some base ∧ op = if op.isAll then base.withAll else base := by
  cases op with
  | union => exact ⟨"union", "union", .union, rfl, by decide, by decide, by decide, rfl⟩
  | unionAll => exact ⟨"union all", "union", .union, rfl, by decide, by decide, by decide, rfl⟩
  | intersect =>
      exact ⟨"intersect", "intersect", .intersect, rfl, by decide, by decide, by decide, rfl⟩
  | intersectAll =>
      exact ⟨"intersect all", "intersect", .intersect, rfl, by decide, by decide, by decide, rfl⟩
  | except =>
      rw [setOperatorText]
      cases d.capabilities.minusForExcept
      · exact ⟨"except", "except", .except, rfl, by decide, by decide, by decide, rfl⟩
      · exact ⟨"minus", "minus", .except, rfl, by decide, by decide, by decide, rfl⟩
  | exceptAll =>
      rw [setOperatorText]
      cases d.capabilities.minusForExcept
      · exact ⟨"except all", "except", .except, rfl, by decide, by decide, by decide, rfl⟩
      · exact ⟨"minus all", "minus", .except, rfl, by decide, by decide, by decide, rfl⟩

theorem setOperatorText_read (d : Dialect) (op : SetOperator) :
    (setOperatorText d op).Within (Lexeme.avoids ("rows" :: Lexeme.tailWords)) ∧
      ∀ bs, (∀ b ∈ (QueryText.operands bs).1.head?, b.isKey "all" = false) →
        QueryText.operands ((setOperatorText d op).blocks ++ bs) =
          ([], (op, (QueryText.operands bs).1) :: (QueryText.operands bs).2) := by
  obtain ⟨w, v, base, htext, hw, hfree, hbase, hop⟩ := setOperatorText_eq d op
  have hflat : (Lexeme.ofWord w).all Lexeme.ofQuery = true :=
    List.all_eq_true.2 fun l hl => Lexeme.ofQuery_of_avoids (List.all_eq_true.1 hfree l hl)
  have hblocks : (setOperatorText d op).blocks =
      ⟨.word v, none⟩ :: if op.isAll then [⟨.word "all", none⟩] else [] := by
    rw [htext, Output.blocks_word hflat, hw]
    cases op.isAll <;> rfl
  constructor
  · rw [htext]
    exact (Output.closed_avoids _).word hfree
  · intro bs hbs
    rw [hblocks, operands_operator hbase hbs, ← hop]

theorem failure_membersJoined {operator : Output} {os : List Output}
    (hok : (membersJoined operator os).failure = none) : ∀ o ∈ os, o.failure = none := by
  induction os with
  | nil => nofun
  | cons o os ih =>
      cases os with
      | nil => simpa [membersJoined] using hok
      | cons p ps =>
          obtain ⟨hfirst, hrest⟩ := Output.failure_append_eq_none.1 hok
          have ho : o.failure = none := by
            simp only [Output.failure_append_eq_none] at hfirst
            exact hfirst.1.1.1
          exact List.forall_mem_cons.2 ⟨ho, ih hrest⟩

/-- The members of a set operation are its operands. -/
theorem operands_members (op : SetOperator) {o : Output} {os : List Output}
    (hmember : ∀ p ∈ o :: os, IsMember p)
    (hok : (membersJoined (setOperatorText d op) (o :: os)).failure = none) :
    (membersJoined (setOperatorText d op) (o :: os)).Within
      (Lexeme.avoids ("rows" :: Lexeme.tailWords)) ∧
    QueryText.operands (membersJoined (setOperatorText d op) (o :: os)).blocks =
      (o.blocks, os.map fun p => (op, p.blocks)) := by
  induction os generalizing o with
  | nil =>
      have ho := (hmember o (by simp)).within
      exact ⟨ho.avoiding (by decide), operands_of_free (ho.blocks_isOneOf hok (by decide))⟩
  | cons p ps ih =>
      have ho := hmember o (by simp)
      have hps : ∀ q ∈ p :: ps, IsMember q := fun q hq => hmember q (List.mem_cons_of_mem o hq)
      have hjoin : membersJoined (setOperatorText d op) (o :: p :: ps) =
          o ++ (.word " " ++ (setOperatorText d op ++ (.word " " ++
            membersJoined (setOperatorText d op) (p :: ps)))) := by
        simp only [← Output.append_assoc]
        rfl
      rw [hjoin] at hok ⊢
      have hblank {words : List String} {o : Output} (h : o.Within (Lexeme.avoids words)) :
          (.word " " ++ o : Output).Within (Lexeme.avoids words) :=
        ((Output.closed_avoids words).fixed " " rfl).append h
      obtain ⟨hopWithin, hopRead⟩ := setOperatorText_read d op
      obtain ⟨hook, hok₁⟩ := Output.failure_append_eq_none.1 hok
      have hok₂ := (Output.failure_append_eq_none.1 hok₁).2
      have hok₃ := (Output.failure_append_eq_none.1 hok₂).2
      have hok₄ := (Output.failure_append_eq_none.1 hok₃).2
      obtain ⟨hrest, hoperands⟩ := ih hps hok₄
      have hpok := failure_membersJoined hok₄ p (by simp)
      have hbehind := hblank (hopWithin.append (hblank hrest))
      refine ⟨(ho.within.avoiding (by decide)).append hbehind, ?_⟩
      rw [Output.blocks_append ho.within hbehind hok,
        Output.blocks_blank (hopWithin.append (hblank hrest)) hok₁,
        Output.blocks_append hopWithin (hblank hrest) hok₂, Output.blocks_blank hrest hok₃,
        operands_append (ho.within.blocks_isOneOf hook (by decide)),
        hopRead _ (by rw [hoperands]; exact (hmember p (by simp)).head hpok), hoperands]
      simp

/-- Members in a chain are folded, and what stands behind the chain applies to the whole of it. -/
theorem ofBlocks_members {op : SetOperator} {o p : Output} {os : List Output}
    (hmember : ∀ q ∈ o :: p :: os, IsMember q)
    (hok : (membersJoined (setOperatorText d op) (o :: p :: os)).failure = none)
    {order limit lock : List Block}
    (hlaid : Laid (membersJoined (setOperatorText d op) (o :: p :: os)).blocks order limit lock) :
    QueryPlan.ofBlocks ((membersJoined (setOperatorText d op) (o :: p :: os)).blocks ++
        (order ++ (limit ++ lock))) =
      (QueryPlan.fold op ((o :: p :: os).map fun q => ranged q.blocks)).arrange (Block.text order)
        (Block.text limit) := by
  have hoperands : QueryText.operands (membersJoined (setOperatorText d op) (o :: p :: os)).blocks =
      (o.blocks, (p.blocks :: os.map Output.blocks).map (op, ·)) := by
    rw [(operands_members op hmember hok).2]
    simp
  rw [QueryPlan.ofBlocks_fold hlaid hoperands]
  simp [Function.comp_def]

/-- The text of a set operation that is rendered to its end. -/
theorem setOperation_ok {op : SetOperator} {members sorts : List Output} {offset fetch : Option Limit}
    {kind : FetchKind} (hok : (setOperation d op members sorts offset fetch kind).failure = none) :
    2 ≤ members.length ∧ setOperation d op members sorts offset fetch kind =
      if isWrapped d offset fetch then
        .word "select " ++ RowLimit.rowsTo d offset fetch kind ++ .word "* from " ++
          (membersJoined (setOperatorText d op) members).parenthesized ++ .word " " ++
          .ofPieces [.derivedAlias] ++ orderBy sorts
      else membersJoined (setOperatorText d op) members ++ orderBy sorts ++
        RowLimit.clause d offset fetch kind := by
  obtain ⟨hchecks, -⟩ := Output.failure_append_eq_none.1 hok
  obtain ⟨hlength, hoperator⟩ := Output.failure_append_eq_none.1 hchecks
  have hlength := (Output.failure_require_eq_none _ _).1 hlength
  have hoperator := (Output.failure_require_eq_none _ _).1 hoperator
  refine ⟨by simpa using hlength, ?_⟩
  rw [setOperation, checkSetOperator, hlength, hoperator, Output.require_true, Output.require_true,
    Output.empty_append, Output.empty_append]
  rfl

theorem laid_unlimited {o : Output} (keys : List SortKey)
    (ho : o.Within (Lexeme.avoids Lexeme.tailWords))
    (hok : (o ++ orderBy (sortKeys d keys)).failure = none) :
    (o ++ orderBy (sortKeys d keys)).blocks =
        o.blocks ++ ((orderBy (sortKeys d keys)).blocks ++ ([] ++ [])) ∧
      Laid o.blocks (orderBy (sortKeys d keys)).blocks [] [] := by
  have h := @laid d o .empty keys none none .rowsOnly ho .empty
  rw [limit, clause_none, Output.append_empty, Output.append_empty] at h
  exact h hok

/-- A wrapped set operation is one operand, with the order behind it. -/
theorem blocks_wrapped {body : Output} (keys : List SortKey) {offset fetch : Option Expr}
    {kind : FetchKind} (hbody : body.Within Lexeme.ofQuery)
    (hok : (.word "select " ++ RowLimit.rowsTo d (limit d offset) (limit d fetch) kind ++
      .word "* from " ++ body.parenthesized ++ .word " " ++ .ofPieces [.derivedAlias] ++
      orderBy (sortKeys d keys) : Output).failure = none) :
    let core := wrapping (RowLimit.rowsTo d (limit d offset) (limit d fetch) kind).blocks
      (.enclose .paren body.parts) (.ofBlocks body.blocks)
    (.word "select " ++ RowLimit.rowsTo d (limit d offset) (limit d fetch) kind ++
        .word "* from " ++ body.parenthesized ++ .word " " ++ .ofPieces [.derivedAlias] ++
        orderBy (sortKeys d keys) : Output).blocks =
      core ++ ((orderBy (sortKeys d keys)).blocks ++ ([] ++ [])) ∧
    Laid core (orderBy (sortKeys d keys)).blocks [] [] ∧
    ∀ b ∈ core, b.isOneOf Lexeme.setWords = false := by
  have hrange := RowLimit.rowsTo_within (d := d) kind (reading.limitHolds d offset)
    (reading.limitHolds d fetch)
  have hclosed := Output.closed_avoids Lexeme.outerWords
  have hselect := hclosed.fixed "select " rfl
  have hstar := hclosed.fixed "* from " rfl
  have hhead := (hselect.append hrange).append hstar
  have hwithin := ((hhead.append (hclosed.parenthesized hbody)).append (hclosed.fixed " " rfl)).append
    (hclosed.unit (p := .derivedAlias) rfl rfl)
  have hcoreok := (Output.failure_append_eq_none.1 hok).1
  have hheadok : (.word "select " ++ RowLimit.rowsTo d (limit d offset) (limit d fetch) kind ++
      .word "* from " : Output).failure = none := by
    simp only [Output.failure_append_eq_none] at hcoreok
    simpa using hcoreok.1.1.1.1.2
  have hcore : (.word "select " ++ RowLimit.rowsTo d (limit d offset) (limit d fetch) kind ++
      .word "* from " ++ body.parenthesized ++ .word " " ++ .ofPieces [.derivedAlias] :
        Output).blocks = wrapping (RowLimit.rowsTo d (limit d offset) (limit d fetch) kind).blocks
          (.enclose .paren body.parts) (.ofBlocks body.blocks) := by
    have hstarWords : Lexeme.ofWord "* from " = [.mark "*", .word "from"] := by decide
    have hselectWords : Lexeme.ofWord "select " = [.word "select"] := by decide
    rw [blocks_derived hhead.flat hbody hcoreok,
      Output.blocks_append (hselect.append hrange) hstar hheadok,
      Output.blocks_append hselect hrange (Output.failure_append_eq_none.1 hheadok).1,
      Output.blocks_word (by decide), Output.blocks_word (by decide), hstarWords, hselectWords]
    simp [wrapping, Part.word]
  dsimp only
  rw [← hcore]
  obtain ⟨hblocks, hlaid⟩ := laid_unlimited keys (hwithin.avoiding (by decide)) hok
  exact ⟨hblocks, hlaid, hwithin.blocks_isOneOf hcoreok (by decide)⟩

theorem failure_members {op : SetOperator} {members sorts : List Output} {offset fetch : Option Limit}
    {kind : FetchKind} (hok : (setOperation d op members sorts offset fetch kind).failure = none) :
    (membersJoined (setOperatorText d op) members).failure = none := by
  rw [(setOperation_ok hok).2] at hok
  split at hok
  · simp only [Output.failure_append_eq_none, Output.failure_parenthesized] at hok
    exact hok.1.1.1.2
  · simp only [Output.failure_append_eq_none] at hok
    exact hok.1.1

/-- The blocks of a set operation that is rendered to its end. Its limit stands behind its members, or
in the select list of a query around them. -/
theorem blocks_setOperation {op : SetOperator} {members : List Output} {keys : List SortKey}
    {offset fetch : Option Expr} {kind : FetchKind} (hmember : ∀ o ∈ members, IsMember o)
    (hok : (setOperation d op members (sortKeys d keys) (limit d offset) (limit d fetch)
      kind).failure = none) :
    let joined := membersJoined (setOperatorText d op) members
    let order := orderBy (sortKeys d keys)
    let rows := groupLimit d (limit d offset) (limit d fetch) kind
    let core := wrapping rows.blocks (.enclose .paren joined.parts) (.ofBlocks joined.blocks)
    let bs := (setOperation d op members (sortKeys d keys) (limit d offset) (limit d fetch)
      kind).blocks
    joined.Within (Lexeme.avoids ("rows" :: Lexeme.tailWords)) ∧ joined.failure = none ∧
    order.failure = none ∧ rows.failure = none ∧
    ((isWrapped d (limit d offset) (limit d fetch) = true ∧
        bs = core ++ (order.blocks ++ ([] ++ [])) ∧ Laid core order.blocks [] [] ∧
        ∀ b ∈ core, b.isOneOf Lexeme.setWords = false) ∨
      (isWrapped d (limit d offset) (limit d fetch) = false ∧
        bs = joined.blocks ++ (order.blocks ++ (rows.blocks ++ [])) ∧
        Laid joined.blocks order.blocks rows.blocks [])) := by
  obtain ⟨hlength, htext⟩ := setOperation_ok hok
  have hjoined := failure_members hok
  obtain ⟨first, rest, rfl⟩ : ∃ first rest, members = first :: rest := by
    cases members with
    | nil => simp at hlength
    | cons o os => exact ⟨o, os, rfl⟩
  have hwithin := (operands_members op hmember hjoined).1
  dsimp only
  refine ⟨hwithin, hjoined, ?_⟩
  rw [htext] at hok ⊢
  rw [groupLimit]
  cases hwrapped : isWrapped d (limit d offset) (limit d fetch) with
  | true =>
      simp only [hwrapped, if_true] at hok ⊢
      obtain ⟨hheadok, horderok⟩ := Output.failure_append_eq_none.1 hok
      simp only [Output.failure_append_eq_none, Output.failure_parenthesized] at hheadok
      exact ⟨horderok, hheadok.1.1.1.1.2, .inl ⟨trivial,
        blocks_wrapped keys hwithin.flat hok⟩⟩
  | false =>
      simp only [hwrapped, Bool.false_eq_true, if_false] at hok ⊢
      obtain ⟨hbody, hlimitok⟩ := Output.failure_append_eq_none.1 hok
      have horderok := (Output.failure_append_eq_none.1 hbody).2
      have hassoc : membersJoined (setOperatorText d op) (first :: rest) ++
          orderBy (sortKeys d keys) ++ RowLimit.clause d (limit d offset) (limit d fetch) kind =
          membersJoined (setOperatorText d op) (first :: rest) ++ (orderBy (sortKeys d keys) ++
            (RowLimit.clause d (limit d offset) (limit d fetch) kind ++ .empty)) := by
        rw [Output.append_empty, Output.append_assoc]
      rw [hassoc] at hok ⊢
      exact ⟨horderok, hlimitok, .inr ⟨trivial,
        laid d keys offset fetch kind (hwithin.avoiding (by decide)) .empty hok⟩⟩

theorem ofBlocks_setOperation {op : SetOperator} {o p : Output} {os : List Output}
    {keys : List SortKey} {offset fetch : Option Expr} {kind : FetchKind}
    (hmember : ∀ q ∈ o :: p :: os, IsMember q)
    (hok : (setOperation d op (o :: p :: os) (sortKeys d keys) (limit d offset) (limit d fetch)
      kind).failure = none) :
    QueryPlan.ofBlocks (setOperation d op (o :: p :: os) (sortKeys d keys) (limit d offset)
        (limit d fetch) kind).blocks =
      (QueryPlan.fold op ((o :: p :: os).map fun q => ranged q.blocks)).arrange
        (orderBy (sortKeys d keys)).lexemes
        (groupLimit d (limit d offset) (limit d fetch) kind).lexemes := by
  obtain ⟨hwithin, hjoined, horderok, hlimitok, hplaces⟩ := blocks_setOperation hmember hok
  rw [← (orderBy_within d keys).text_blocks horderok]
  obtain ⟨hwrapped, hblocks, hlaid, hfree⟩ | ⟨hwrapped, hblocks, hlaid⟩ := hplaces
  · have hrows : groupLimit d (limit d offset) (limit d fetch) kind =
        RowLimit.rowsTo d (limit d offset) (limit d fetch) kind := if_pos hwrapped
    have hgiven : ((limit d offset).isNone && (limit d fetch).isNone) = false := by
      simp only [isWrapped, Bool.and_eq_true] at hwrapped
      cases hoffset : limit d offset <;> cases hfetch : limit d fetch <;> simp_all
    have hbegins := RowLimit.rowsTo_begins (d := d) kind (reading.limitHolds d offset)
      (reading.limitHolds d fetch)
    have hends := RowLimit.rowsTo_ends (d := d) kind hgiven (fun _ => .limit d) fun _ => .limit d
    have hinner := ofBlocks_members hmember hjoined
      (.alone (hwithin.blocks_isOneOf hjoined (by decide)))
    rw [List.append_nil, List.append_nil, List.append_nil] at hinner
    rw [hrows] at hblocks hlaid hfree hlimitok ⊢
    rw [hblocks, QueryPlan.ofBlocks_single hlaid hfree,
      term_wrapping (isRange_blocks hbegins hends hlimitok), hinner, hbegins.1.text_blocks hlimitok]
    exact congrArg _ (List.append_nil _)
  · have hrows : groupLimit d (limit d offset) (limit d fetch) kind =
        RowLimit.clause d (limit d offset) (limit d fetch) kind := if_neg (by simp [hwrapped])
    rw [hrows] at hblocks hlaid hlimitok ⊢
    rw [hblocks, ofBlocks_members hmember hjoined hlaid,
      (rowLimit_within d offset fetch kind).text_blocks hlimitok]

mutual

theorem query_read (q : Query) (hok : (query d none q).output.failure = none) :
    QueryPlan.ofBlocks (query d none q).output.blocks = q.plan d := by
  match q with
  | .spec s => exact ofBlocks_querySpec hok
  | .group ⟨operator, members, keys, offset, fetch, kind⟩ =>
      have hok : (setOperation d operator (groupMembers d none members) (sortKeys d keys)
        (limit d offset) (limit d fetch) kind).failure = none := hok
      obtain ⟨hmembers, hplans⟩ := members_read members (failure_membersJoined (failure_members hok))
      obtain ⟨o, p, os, hcons⟩ : ∃ o p os, groupMembers d none members = o :: p :: os := by
        have hlength := (setOperation_ok hok).1
        match h : groupMembers d none members with
        | [] | [_] => simp [h] at hlength
        | o :: p :: os => exact ⟨o, p, os, rfl⟩
      rw [hcons] at hmembers hplans hok
      have hread := ofBlocks_setOperation hmembers hok
      rw [hplans, ← hcons] at hread
      rw [Query.plan, ← hread]
      rfl

theorem members_read (qs : List Query) (hok : ∀ o ∈ groupMembers d none qs, o.failure = none) :
    (∀ o ∈ groupMembers d none qs, IsMember o) ∧
      (groupMembers d none qs).map (fun o => ranged o.blocks) = plans d qs := by
  match qs with
  | [] => exact ⟨nofun, rfl⟩
  | q :: qs =>
      simp only [groupMembers, List.forall_mem_cons, failure_member] at hok
      obtain ⟨-, hmember, hranged⟩ := member_read hok.1 (query_read q hok.1)
      obtain ⟨hmembers, hplans⟩ := members_read qs hok.2
      rw [groupMembers, plans, List.map_cons, hranged, hplans]
      exact ⟨List.forall_mem_cons.2 ⟨hmember, hmembers⟩, rfl⟩

end

end Render

/-- A query that takes no lock is read as what it stands for: each set operation as the fold of its
operator over its members, every order and limit with the query it was given to. -/
theorem query_grouped (d : Dialect) {l : LockOptions} (hlock : l.isLocking = false) (q : Query)
    (hok : (Render.query d (some ⟨l, false⟩) q).output.failure = none) :
    (Render.query d (some ⟨l, false⟩) q).output.plan? = some (q.plan d) := by
  have hnone : Render.lockOf d (some (Render.leafLock l q)) = fun _ => .empty := by
    funext s
    simp [Render.lockOf, Render.leafLock, Locking.render, hlock]
  have hunlocked : (Render.query d (some ⟨l, false⟩) q).output = (Render.query d none q).output := by
    rw [Render.output_query_locked, hnone, Render.output_query_unlocked]
  rw [hunlocked] at hok ⊢
  have hwithin : (Render.query d none q).output.Within Lexeme.ofQuery :=
    (Output.Layers.reading.queryHolds d q).output
  rw [hwithin.plan?_eq hok, Render.query_read q hok]

theorem query_grouped_limited :
    let select (table : String) (fetch : Option Expr) : Query :=
      .spec ⟨false, [], [⟨.named ⟨none, table⟩, none, []⟩], none, [], none, [], none, fetch, .rowsOnly⟩
    let limited (n : Int64) : Option Expr := some (.literal (.int n))
    let q : Query := .group ⟨.union, [select "a" none, .group ⟨.intersect,
      [select "b" none, select "c" (limited 5)], [], none, none, .rowsOnly⟩], [], none, limited 3,
      .rowsOnly⟩
    let plan (table : String) : QueryPlan := .select [.word "select", .mark "*", .word "from",
      .unit (.table table)]
    (Render.query .sqlite (some ⟨.unlocked, false⟩) q).output.plan? =
      some (.arranged (.combined .union (plan "a") (.combined .intersect (plan "b")
        (.arranged (plan "c") [] [.word "limit", .unit (.plain "5")])))
        [] [.word "limit", .unit (.plain "3")]) := by
  intro select limited q plan
  exact query_grouped .sqlite rfl q (by decide)

end DialectSql
