import DialectSql.Proofs.RowWindow.Bounds
import DialectSql.Proofs.SetOperation.Grouping

namespace DialectSql

namespace QueryText

variable {core order limit lock : List Block}

/-- The row range in the select list of a query and the limit behind its order. A text with the word
of a range elsewhere outside brackets has none. -/
def limits? (bs : List Block) : Option (List Lexeme) :=
  let (front, rest) := range (body bs).tail
  if (rest ++ QueryText.order bs).any (·.isKey "rows") then none
  else some (Block.text front ++ Block.text (QueryText.limit bs))

theorem range_of_free {bs : List Block} (h : ∀ b ∈ bs, b.isKey "rows" = false) :
    range bs = ([], bs) := by
  unfold range
  split
  · rw [h _ (by simp)]
    rfl
  · rfl

theorem range_numbers {first last : Lexeme} {i j : Int} (hfirst : first.integer? = some i)
    (hlast : last.integer? = some j) (bs : List Block) :
    range (([.word "rows", first, .word "to", last].map fun l => ⟨.leaf l, none⟩) ++ bs) =
      ([.word "rows", first, .word "to", last].map fun l => ⟨.leaf l, none⟩, bs) := by
  have hrows : Block.isKey "rows" ⟨.leaf (.word "rows"), none⟩ = true := by decide
  have hto : Block.isKey "to" ⟨.leaf (.word "to"), none⟩ = true := by decide
  simp [range, hrows, hto, (Lexeme.isNumber_of_integer hfirst).2,
    (Lexeme.isNumber_of_integer hlast).2]

theorem limits?_eq (h : Laid core order limit lock) {front rest : List Block}
    (hrange : range core.tail = (front, rest))
    (hrest : ∀ b ∈ rest, b.isKey "rows" = false) (horder : ∀ b ∈ order, b.isKey "rows" = false) :
    limits? (core ++ (order ++ (limit ++ lock))) = some (Block.text front ++ Block.text limit) := by
  have hfree : (rest ++ order).any (·.isKey "rows") = false := by
    rw [List.any_append, List.any_eq_false.2 (by simpa using hrest),
      List.any_eq_false.2 (by simpa using horder)]
    rfl
  rw [limits?, h.span.1, h.order_eq.1, h.order_eq.2, hrange]
  dsimp only
  rw [hfree]
  rfl

end QueryText

namespace Output

variable {o : Output}

def limits? (o : Output) : Option (List Lexeme) :=
  (Part.ofPieces? o.pieces).bind fun ps => QueryText.limits? (ps.map Part.block)

/-- The window of rows that a query keeps: what is read in the places for limits, which have to hold
no more than one. -/
def window? (o : Output) : Option RowWindow := o.limits?.bind RowWindow.ofText?

theorem Within.limits?_eq {allowed : Lexeme → Bool} (h : o.Within allowed) (hok : o.failure = none) :
    o.limits? = QueryText.limits? o.blocks := by
  rw [limits?, Part.ofPieces?, (h.reads hok).parts]
  rfl

theorem limits?_congr {a b : Output} (h : a.lexemes = b.lexemes) : a.limits? = b.limits? := by
  have hparts : Part.ofPieces? a.pieces = Part.ofPieces? b.pieces :=
    congrArg (Part.collect · [] []) h
  rw [limits?, limits?, hparts]

end Output

theorem Dialect.eq_of_known {d : Dialect} (h : d ∈ known) :
    d = generic ∨ d = sqlite ∨ d = timesten := by
  simpa [known] using h

namespace Render

open Output.Layers (reading)
open QueryText RowLimit

variable {d : Dialect} {m n : Option Int64} {offset fetch : Option Limit}

theorem groupLimit_timesten (kind : FetchKind) :
    groupLimit .timesten offset fetch kind = rowsTo .timesten offset fetch kind := by
  cases offset <;> cases fetch <;> rfl

/-- On each dialect the limit of a query is a window that agrees with what is asked for. -/
theorem window_groupLimit (hd : d ∈ Dialect.known) (ho : Option.Rel Limit.Denotes offset m)
    (hf : Option.Rel Limit.Denotes fetch n)
    (hok : (groupLimit d offset fetch .rowsOnly).failure = none) :
    ∃ w, RowWindow.ofText? (groupLimit d offset fetch .rowsOnly).lexemes = some w ∧
      w.Agrees (.asked m n) := by
  rcases Dialect.eq_of_known hd with rfl | rfl | rfl
  · exact ⟨_, RowWindow.ofText?_generic ho hf, RowWindow.agrees_refl _⟩
  · exact ⟨_, RowWindow.ofText?_sqlite ho hf, RowWindow.agrees_refl _⟩
  · rw [groupLimit_timesten] at hok ⊢
    exact RowWindow.ofText?_timesten ho hf hok

theorem range_rowsTo (ho : Option.Rel Limit.Denotes offset m) (hf : Option.Rel Limit.Denotes fetch n)
    (hok : (rowsTo .timesten offset fetch .rowsOnly).failure = none) {bs : List Block}
    (hbs : ∀ b ∈ bs, b.isKey "rows" = false) :
    range ((rowsTo .timesten offset fetch .rowsOnly).blocks ++ bs) =
      ((rowsTo .timesten offset fetch .rowsOnly).blocks, bs) := by
  obtain ⟨hempty, -, -⟩ | ⟨-, -, first, last, htext, hfirst, hlast⟩ | ⟨-, hfails⟩ :=
    rowsTo_cases ho hf
  · rw [hempty]
    exact range_of_free hbs
  · have hflat : (rowsTo .timesten offset fetch .rowsOnly).lexemes.all Lexeme.ofQuery = true := by
      rw [htext]
      simp only [List.all_cons, List.all_nil, (Lexeme.isNumber_of_integer hfirst).1,
        (Lexeme.isNumber_of_integer hlast).1]
      rfl
    rw [Output.blocks_flat hflat, htext]
    exact range_numbers hfirst hlast bs
  · simp [hfails] at hok

theorem range_selectRange (hd : d ∈ Dialect.known) {s : QuerySpec}
    (ho : Option.Rel Limit.Denotes (limit d s.offset) m)
    (hf : Option.Rel Limit.Denotes (limit d s.fetch) n) (hkind : s.fetchKind = .rowsOnly)
    (hok : (selectRange d s).failure = none) {bs : List Block}
    (hbs : ∀ b ∈ bs, b.isKey "rows" = false) :
    range ((selectRange d s).blocks ++ bs) = ((selectRange d s).blocks, bs) := by
  rcases Dialect.eq_of_known hd with rfl | rfl | rfl
  · exact range_of_free hbs
  · exact range_of_free hbs
  · have hrange : selectRange .timesten s =
        rowsTo .timesten (limit .timesten s.offset) (limit .timesten s.fetch) s.fetchKind := rfl
    rw [hrange, hkind] at hok ⊢
    exact range_rowsTo ho hf hok hbs

/-- The limit of a query stands in its select list or at its end. -/
theorem lexemes_groupLimit (hd : d ∈ Dialect.known) {s : QuerySpec}
    (hrange : (selectRange d s).failure = none)
    (hclause : (clause d (limit d s.offset) (limit d s.fetch) s.fetchKind).failure = none) :
    (groupLimit d (limit d s.offset) (limit d s.fetch) s.fetchKind).failure = none ∧
      (groupLimit d (limit d s.offset) (limit d s.fetch) s.fetchKind).lexemes =
        (selectRange d s).lexemes ++
          (clause d (limit d s.offset) (limit d s.fetch) s.fetchKind).lexemes := by
  rcases Dialect.eq_of_known hd with rfl | rfl | rfl
  · exact ⟨hclause, rfl⟩
  · exact ⟨hclause, rfl⟩
  · rw [groupLimit_timesten]
    exact ⟨hrange, (List.append_nil _).symm⟩

theorem limits?_querySpec (hd : d ∈ Dialect.known) (lock : Option LockScope) {s : QuerySpec}
    (ho : Option.Rel Limit.Denotes (limit d s.offset) m)
    (hf : Option.Rel Limit.Denotes (limit d s.fetch) n) (hkind : s.fetchKind = .rowsOnly)
    (hok : (querySpec d lock s).output.failure = none) :
    (querySpec d lock s).output.limits? =
        some (groupLimit d (limit d s.offset) (limit d s.fetch) .rowsOnly).lexemes ∧
      (groupLimit d (limit d s.offset) (limit d s.fetch) .rowsOnly).failure = none := by
  rw [output_core, ending] at hok ⊢
  have hlimitWithin := rowLimit_within d s.offset s.fetch s.fetchKind
  obtain ⟨hcoreok, hrestok⟩ := Output.failure_append_eq_none.1 hok
  obtain ⟨horderok, htailok⟩ := Output.failure_append_eq_none.1 hrestok
  obtain ⟨hclauseok, hlockok⟩ := Output.failure_append_eq_none.1 htailok
  obtain ⟨-, hselectok⟩ := Output.failure_append_eq_none.1 hcoreok
  obtain ⟨hrangeok, hitemsok⟩ := Output.failure_append_eq_none.1 hselectok
  obtain ⟨hblocks, hlaid⟩ := laid d s.orderBy s.offset s.fetch s.fetchKind
    ((core_within d s).avoiding (by decide)) (lock_within d lock s).2 hok
  have hwithin : (core d s ++ (orderBy (sortKeys d s.orderBy) ++
      (RowLimit.clause d (limit d s.offset) (limit d s.fetch) s.fetchKind ++
        lockOf d lock s))).Within Lexeme.ofQuery :=
    (core_within d s).flat.append (ending_within d lock s).flat
  have hrangeWithin := selectRange_within d s
  have hitemsWithin := items_within d s
  have hselect : (core d s).blocks = ⟨.word "select", none⟩ ::
      ((selectRange d s).blocks ++ (items d s).blocks) := by
    have hword : Lexeme.ofWord "select " = [.word "select"] := by decide
    rw [core, Output.blocks_append (reading.ofQuery.fixed _ rfl)
      (hrangeWithin.flat.append hitemsWithin.flat) hcoreok, Output.blocks_word (by decide), hword,
      Output.blocks_append hrangeWithin hitemsWithin hselectok]
    rfl
  have hfree := hitemsWithin.blocks_isKey hitemsok (w := "rows") (by decide)
  have hrange : range (core d s).blocks.tail = ((selectRange d s).blocks, (items d s).blocks) := by
    rw [hselect]
    exact range_selectRange hd ho hf hkind hrangeok hfree
  obtain ⟨hlimitok, htext⟩ := lexemes_groupLimit hd hrangeok hclauseok
  rw [hwithin.limits?_eq hok, hblocks, limits?_eq hlaid hrange hfree
    ((orderBy_within d s.orderBy).blocks_isKey horderok (by decide)),
    hrangeWithin.text_blocks hrangeok, hlimitWithin.text_blocks hclauseok, ← hkind, htext]
  exact ⟨rfl, hlimitok⟩

/-- The limit of a set operation is read in the select list of the query around it, or behind it. -/
theorem limits?_setOperation (hd : d ∈ Dialect.known) {op : SetOperator} {members : List Output}
    {keys : List SortKey} {offset fetch : Option Expr} {kind : FetchKind}
    (ho : Option.Rel Limit.Denotes (limit d offset) m)
    (hf : Option.Rel Limit.Denotes (limit d fetch) n) (hkind : kind = .rowsOnly)
    (hmember : ∀ o ∈ members, IsMember o)
    (hok : (setOperation d op members (sortKeys d keys) (limit d offset) (limit d fetch)
      kind).failure = none) :
    QueryText.limits? (setOperation d op members (sortKeys d keys) (limit d offset) (limit d fetch)
        kind).blocks = some (groupLimit d (limit d offset) (limit d fetch) .rowsOnly).lexemes ∧
      (groupLimit d (limit d offset) (limit d fetch) .rowsOnly).failure = none := by
  subst hkind
  obtain ⟨hwithin, hjoined, horderok, hlimitok, hplaces⟩ := blocks_setOperation hmember hok
  have horder := (orderBy_within d keys).blocks_isKey horderok (w := "rows") (by decide)
  refine ⟨?_, hlimitok⟩
  obtain ⟨hwrapped, hblocks, hlaid, -⟩ | ⟨hwrapped, hblocks, hlaid⟩ := hplaces
  · obtain rfl : d = .timesten := by
      rcases Dialect.eq_of_known hd with rfl | rfl | rfl
      · cases hwrapped
      · cases hwrapped
      · rfl
    rw [groupLimit_timesten] at hblocks hlaid hlimitok ⊢
    have hrest : ∀ b ∈ ([⟨.leaf (.mark "*"), none⟩, ⟨.word "from", none⟩,
        ⟨.enclose .paren (membersJoined (setOperatorText .timesten op) members).parts,
          some (.ofBlocks (membersJoined (setOperatorText .timesten op) members).blocks)⟩,
        ⟨.leaf (.unit .derivedAlias), none⟩] : List Block), b.isKey "rows" = false := by
      simp [Block.isKey, Part.isKey, Part.key?, Part.word, Part.enclose]
    have hrange := range_rowsTo ho hf hlimitok hrest
    rw [hblocks, limits?_eq hlaid hrange hrest horder,
      (RowLimit.rowsTo_within .rowsOnly (reading.limitHolds .timesten offset)
        (reading.limitHolds .timesten fetch)).text_blocks hlimitok]
    exact congrArg some (List.append_nil _)
  · have hrows : groupLimit d (limit d offset) (limit d fetch) .rowsOnly =
        clause d (limit d offset) (limit d fetch) .rowsOnly := if_neg (by simp [hwrapped])
    rw [hrows] at hblocks hlaid hlimitok ⊢
    have hfree : ∀ b ∈ (membersJoined (setOperatorText d op) members).blocks.tail,
        b.isKey "rows" = false := fun b hb =>
      hwithin.blocks_isKey hjoined (by decide) b (List.mem_of_mem_tail hb)
    rw [hblocks, limits?_eq hlaid (range_of_free hfree) hfree horder,
      (rowLimit_within d offset fetch .rowsOnly).text_blocks hlimitok]
    rfl

theorem strategyFor_below {locking : LockingCapabilities} (h : locking.withSetOperators = false)
    (rule : LockingRule) (aggregating : Bool) (followOn : Option Bool) :
    Locking.strategyFor rule locking true aggregating followOn ≠ .ok .clause := by
  cases rule <;> simp only [Locking.strategyFor, h, Bool.not_false, Bool.and_self, if_true] <;>
    split <;> nofun

/-- Below a set operation a lock adds no text: it is left to a following statement or refused. -/
theorem lexemes_lock_below (hd : d ∈ Dialect.known) (lock : Option LockScope) {s : QuerySpec}
    (hok : (lockOf d (below lock) s).failure = none) : (lockOf d (below lock) s).lexemes = [] := by
  cases lock with
  | none => rfl
  | some scope =>
      simp only [lockOf, below, Option.map_some, Locking.render] at hok ⊢
      split
      · rfl
      · split
        · rfl
        · split
          · rfl
          · rfl
          · rename_i hstrategy
            have hset : ∀ d ∈ Dialect.known, d.capabilities.locking.withSetOperators = false := by
              decide
            exact absurd hstrategy (strategyFor_below (hset d hd) _ _ _)

theorem lexemes_fill {mark : QuerySpec → Output} {cs : List Chunk}
    (hmark : ∀ s, (mark s).failure = none → (mark s).lexemes = [])
    (hok : (Chunk.fill mark cs).failure = none) :
    (Chunk.fill mark cs).lexemes = (Chunk.fill (fun _ => .empty) cs).lexemes := by
  induction cs with
  | nil => rfl
  | cons c cs ih =>
      cases c with
      | text o =>
          rw [Chunk.fill_text] at hok ⊢
          obtain ⟨hook, hrest⟩ := Output.failure_append_eq_none.1 hok
          rw [Chunk.fill_text, Output.lexemes_append hook, Output.lexemes_append hook, ih hrest]
      | leafEnd s =>
          rw [Chunk.fill_leafEnd] at hok ⊢
          obtain ⟨hsok, hrest⟩ := Output.failure_append_eq_none.1 hok
          rw [Chunk.fill_leafEnd, Output.lexemes_append hsok, hmark s hsok, ih hrest,
            Output.empty_append, List.nil_append]

theorem limits?_query (hd : d ∈ Dialect.known) (lock : Option LockScope) {q : Query}
    (ho : Option.Rel Limit.Denotes (limit d q.offset) m)
    (hf : Option.Rel Limit.Denotes (limit d q.fetch) n) (hkind : q.fetchKind = .rowsOnly)
    (hok : (query d lock q).output.failure = none) :
    (query d lock q).output.limits? =
        some (groupLimit d (limit d q.offset) (limit d q.fetch) .rowsOnly).lexemes ∧
      (groupLimit d (limit d q.offset) (limit d q.fetch) .rowsOnly).failure = none := by
  cases q with
  | spec s => exact limits?_querySpec hd lock ho hf hkind hok
  | group g =>
      have hwithin : (query d none (.group g)).output.Within Lexeme.ofQuery :=
        (reading.queryHolds d (.group g)).output
      rw [output_group] at hok
      -- the locks at the ends of the leaves have no text, so that the unlocked query is read instead
      have hunlocked := ((Chunk.failure_fill_eq_none _ _).1 hok).1
      have htext := lexemes_fill (fun s => lexemes_lock_below hd lock) hok
      rw [← output_query_unlocked] at hunlocked htext
      rw [← output_group] at htext
      rw [Output.limits?_congr htext, hwithin.limits?_eq hunlocked]
      obtain ⟨operator, members, keys, offset, fetch, kind⟩ := g
      have hmembers := failure_membersJoined (failure_members hunlocked)
      exact limits?_setOperation hd ho hf hkind (members_read members hmembers).1 hunlocked

end Render

/-- A query without its limits. -/
def Query.unlimited : Query → Query
  | .spec s => .spec { s with offset := none, fetch := none }
  | .group g => .group { g with offset := none, fetch := none }

namespace Render

variable {offset fetch : Option Limit}

theorem failure_setOperation_timesten {op : SetOperator} {members sorts : List Output}
    {kind : FetchKind}
    (hok : (setOperation .timesten op members sorts none none kind).failure = none) :
    (setOperation .timesten op members sorts offset fetch kind).failure =
      (RowLimit.rowsTo .timesten offset fetch kind).failure := by
  obtain ⟨hchecks, hbody⟩ := Output.failure_append_eq_none.1 hok
  obtain ⟨hjoined, -⟩ := Output.failure_append_eq_none.1 hbody
  obtain ⟨hmembers, hsorts⟩ := Output.failure_append_eq_none.1 hjoined
  rw [setOperation, Output.failure_append, hchecks, Option.none_or]
  cases hgiven : offset.isSome || fetch.isSome with
  | true =>
      have hderived : (Dialect.timesten.capabilities.rowLimit == .rowsTo && true) = true := rfl
      rw [if_pos hderived]
      simp [hmembers, hsorts]
  | false =>
      obtain ⟨rfl, rfl⟩ : offset = none ∧ fetch = none := by simpa using hgiven
      exact hbody

theorem failure_query_timesten (lock : Option LockScope) {q : Query}
    (hok : (query .timesten lock q.unlimited).output.failure = none) :
    (query .timesten lock q).output.failure = (RowLimit.rowsTo .timesten (limit .timesten q.offset)
      (limit .timesten q.fetch) q.fetchKind).failure := by
  cases q with
  | spec s =>
      have hunlimited :
          (query .timesten lock (.spec { s with offset := none, fetch := none })).output =
            .word "select " ++ (.empty ++ items .timesten s) ++
              (orderBy (sortKeys .timesten s.orderBy) ++ (.empty ++ lockOf .timesten lock s)) :=
        output_core _ _ _
      have hlimited : (query .timesten lock (.spec s)).output =
          .word "select " ++ (RowLimit.rowsTo .timesten (limit .timesten s.offset)
            (limit .timesten s.fetch) s.fetchKind ++ items .timesten s) ++
            (orderBy (sortKeys .timesten s.orderBy) ++ (.empty ++ lockOf .timesten lock s)) :=
        output_core _ _ _
      rw [Query.unlimited, hunlimited] at hok
      rw [hlimited]
      simp only [Output.failure_append_eq_none] at hok
      obtain ⟨⟨-, -, hitems⟩, horder, -, hlock⟩ := hok
      change _ = (RowLimit.rowsTo .timesten (limit .timesten s.offset) (limit .timesten s.fetch)
        s.fetchKind).failure
      simp [hitems, horder, hlock]
  | group g =>
      obtain ⟨operator, members, keys, offset, fetch, kind⟩ := g
      have hoperation (offset fetch : Option Expr) :
          (query .timesten lock (.group ⟨operator, members, keys, offset, fetch, kind⟩)).output =
            setOperation .timesten operator (groupMembers .timesten (below lock) members)
              (sortKeys .timesten keys) (limit .timesten offset) (limit .timesten fetch) kind := rfl
      rw [Query.unlimited, hoperation] at hok
      rw [hoperation]
      exact failure_setOperation_timesten hok

end Render

/-- Row windows agree on the known dialects. A query that is rendered to its end limits its rows in one
place, and the window that is read there holds the rows asked for. On TimesTen the only limits that
are refused are those with a bound that is too large for a number. The lock is all that a query takes
from what it stands in, so that this holds of a query inside of others, too. -/
theorem rowWindow_agrees {d : Dialect} (hd : d ∈ Dialect.known) (lock : Option LockScope) {q : Query}
    {offset fetch : Option Int64} (hoffset : q.offset.map Expr.integer? = offset.map some)
    (hfetch : q.fetch.map Expr.integer? = fetch.map some) (hkind : q.fetchKind = .rowsOnly)
    (hoffsetSign : ∀ n ∈ offset, 0 ≤ n) (hfetchSign : ∀ n ∈ fetch, 0 ≤ n) :
    ((Render.query d lock q).output.failure = none →
      ∃ w, (Render.query d lock q).output.window? = some w ∧ w.Agrees (.asked offset fetch)) ∧
    (d = .timesten → (Render.query d lock q.unlimited).output.failure = none →
      (Render.query d lock q).output.failure =
        if RowLimit.overflows offset fetch then some (.invalid .rowLimitOverflow) else none) := by
  have ho := RowLimit.denotes_limit d hoffset hoffsetSign
  have hf := RowLimit.denotes_limit d hfetch hfetchSign
  constructor
  · intro hok
    obtain ⟨htext, hlimitok⟩ := Render.limits?_query hd lock ho hf hkind hok
    rw [Output.window?, htext, Option.bind_some]
    exact Render.window_groupLimit hd ho hf hlimitok
  · rintro rfl hok
    rw [Render.failure_query_timesten lock hok, hkind, RowLimit.failure_rowsTo ho hf]

theorem rowWindow_agrees_timesten :
    let q : Query := .spec ⟨false, [], [⟨.named ⟨none, "a"⟩, none, []⟩], none, [], none, [],
      some (.parameter (.value (.int 2))), some (.literal (.int 3)), .rowsOnly⟩
    ∃ w, (Render.query .timesten none q).output.window? = some w ∧ w.Agrees ⟨2, some 5⟩ := by
  intro q
  obtain ⟨hwindow, hfailure⟩ := @rowWindow_agrees .timesten (by decide) none q (some 2) (some 3)
    rfl rfl rfl (by rintro _ ⟨⟩; decide) (by rintro _ ⟨⟩; decide)
  exact hwindow (hfailure rfl (by decide))

end DialectSql
