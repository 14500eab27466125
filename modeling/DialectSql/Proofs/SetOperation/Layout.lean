import DialectSql.Proofs.SetOperation.Reading

namespace DialectSql

namespace Lexeme

/-- A unit that can be the last one of an expression. -/
def ends : Lexeme → Bool
  | closing _ | unit _ | number _ => true
  | mark m => m == "*"
  | word _ | opening _ => false

/-- The words that do not stand in a query specification up to its order. -/
def outerWords : List String := tailWords ++ setWords

/-- The words that do not stand in a member of a set operation. -/
def memberWords : List String := "rows" :: outerWords

end Lexeme

namespace Output

/-- The last unit of a text can end an expression. -/
def Ends (o : Output) : Prop := o.failure = none → o.lexemes.getLast?.any Lexeme.ends = true

namespace Ends

variable {o : Output}

theorem fail (e : TranslateError) : Ends (.fail e) := fun h => by simp at h

theorem append (a : Output) (ho : o.Ends) : (a ++ o).Ends := by
  intro hok
  obtain ⟨haok, hook⟩ := failure_append_eq_none.1 hok
  have hlast := ho hook
  rw [lexemes_append haok, List.getLast?_append]
  cases h : o.lexemes.getLast? with
  | none => simp [h] at hlast
  | some l => simpa [h] using hlast

theorem unit {p : Piece} (h : Lexeme.ofPiece p = [.unit p]) : Ends (.ofPieces [p]) := by
  intro _
  simp [lexemes, Lexeme.ofPieces, h, Lexeme.ends]

theorem word {w : String} (h : (Lexeme.ofWord w).getLast?.any Lexeme.ends = true) :
    Ends (.word w) := fun _ => by rwa [lexemes_word]

theorem parenthesized (o : Output) : o.parenthesized.Ends := append _ (word (by decide))

theorem blank (ho : o.Ends) : (o ++ .word " ").Ends := by
  intro hok
  have hook := (failure_append_eq_none.1 hok).1
  have hblank : Lexeme.ofWord " " = [] := by decide
  rw [lexemes_append hook, lexemes_word, hblank, List.append_nil]
  exact ho hook

theorem value (v : SqlValue) : Ends (.ofPieces v.pieces) := by
  cases v with
  | blob bytes => exact append (.word "X") (unit rfl)
  | timestamp t => exact append (.word "timestamp ") (unit rfl)
  | null | bool | int | float | text => exact unit rfl

theorem literal (d : Dialect) (v : SqlValue) : (Render.literal d v).Ends := by
  rw [Render.literal.eq_def]
  split
  · exact unit rfl
  · exact value _

theorem qualified (qualifier : Option String) (ho : o.Ends) : (Render.qualified qualifier o).Ends := by
  cases qualifier with
  | none => exact ho
  | some q => exact append _ ho

theorem wrap (condition : Bool) (ho : o.Ends) : (Render.wrap condition o).Ends := by
  cases condition with
  | false => exact ho
  | true => exact parenthesized o

theorem operand (d : Dialect) (e : Expr) : (Render.operand d e).output.Ends := by
  match e with
  | .column qualifier name => exact qualified qualifier (unit rfl)
  | .literal v => exact literal d v
  | .parameter slot => exact unit rfl
  | .tuple es => exact parenthesized _
  | .summarization kind groupings =>
      rw [Render.operand, Operand.output, Render.summarization]
      split
      · exact fail _
      · exact append _ (parenthesized _)
  | .binary left op right => exact append _ (wrap _ (operand d right))
  | .negate e => exact append _ (wrap _ (operand d e))
  | .function name args distinct => exact append _ (word (by decide))
  | .case branches otherwise =>
      have hcase (bs : List Output) (o : Option Output) : (Render.caseOf bs o).Ends := by
        rw [Render.caseOf]
        split
        · exact fail _
        · exact append _ (word (by decide))
      cases otherwise <;> exact hcase _ _
  | .cast e type => exact append _ (word (by decide))
  | .subquery q => exact parenthesized _
  | .quantified quantifier q => exact append _ (parenthesized _)
  | .windowed function partitionBy keys frame => exact append _ (parenthesized _)
  | .star qualifier => exact qualified qualifier (word (by decide))

theorem limit (d : Dialect) {e : Option Expr} {l : Limit} (h : Render.limit d e = some l) :
    l.output.Ends := by
  cases e with
  | none => cases h
  | some e =>
      obtain rfl := Option.some_inj.1 h
      have he := operand d e
      rw [Limit.ofExpr.eq_def]
      split <;> exact he

theorem integerSum (terms : List Limit) (extra : Int64) : (RowLimit.integerSum terms extra).Ends := by
  have hgo (total : Int) (isParameter : Bool) :
      (RowLimit.integerSum.go terms total isParameter).Ends := by
    induction terms generalizing total isParameter with
    | nil =>
        rw [RowLimit.integerSum.go]
        split <;> exact unit rfl
    | cons t ts ih =>
        rw [RowLimit.integerSum.go]
        split
        · exact fail _
        · dsimp only
          split
          · exact ih _ _
          · exact fail _
  exact hgo _ _

theorem upperBound (rule : UpperBoundRule) {fetch o : Limit}
    (ho : o.output.Ends) : (RowLimit.upperBound rule fetch (some o) 0).Ends := by
  cases rule with
  | singleParameter => exact integerSum _ _
  | standard =>
      have hzero : Output.when ((0 : Int64) != 0)
          (.word " + " ++ .ofPieces [.plain (toString (0 : Int64).toInt)]) = .empty := rfl
      rw [RowLimit.upperBound, RowLimit.upperBoundStandard, hzero, append_empty]
      exact append _ (append _ ho)

end Ends

theorem closed_avoids (words : List String) : Closed (Lexeme.avoids words) (Within Lexeme.ofQuery)
    (Within (Lexeme.avoids words)) :=
  closed_within (fun _ => Lexeme.ofQuery_of_avoids) fun _ => rfl

end Output

namespace RowLimit

/-- The first row of a range. -/
def low (offset : Option Limit) : Output :=
  match offset with
  | some o => integerSum [o] 1
  | none => .word "1"

/-- The last row of a range. -/
def high (d : Dialect) (offset fetch : Option Limit) : Output :=
  match fetch, offset with
  | some f, some o => upperBound d.strategies.upperBound f (some o) 0
  | some f, none => f.output
  | none, _ => .ofPieces [.plain (toString unbounded)]

theorem rowsTo_eq (d : Dialect) (offset fetch : Option Limit) (kind : FetchKind) :
    rowsTo d offset fetch kind =
      if offset.isNone && fetch.isNone then .empty
      else if fetch.isSome && kind == .withTies then .fail (.unsupported .fetchWithTies)
      else .word "rows " ++ (low offset ++ (.word " to " ++ (high d offset fetch ++ .word " "))) := by
  simp only [← Output.append_assoc]
  rfl

open Output.Layers (reading)

variable {d : Dialect} {offset fetch : Option Limit}

theorem low_within : (low offset).Within Lexeme.ofSource := by
  rw [low.eq_def]
  split
  · exact reading.source_of_expression (reading.integerSum _ _)
  · exact reading.ofSource.fixed _ rfl

theorem high_within (ho : Limit.Holds reading offset) (hf : Limit.Holds reading fetch) :
    (high d offset fetch).Within Lexeme.ofSource := by
  rw [high.eq_def]
  split
  · exact reading.source_of_expression (reading.upperBound _ _ (hf _ rfl) ho)
  · exact reading.source_of_expression (hf _ rfl)
  · exact reading.ofSource.unit rfl rfl

theorem high_ends (ho : ∀ o, offset = some o → o.output.Ends)
    (hf : ∀ f, fetch = some f → f.output.Ends) : (high d offset fetch).Ends := by
  rw [high.eq_def]
  split
  · exact .upperBound _ (ho _ rfl)
  · exact hf _ rfl
  · exact .unit rfl

theorem rowsTo_within (kind : FetchKind) (ho : Limit.Holds reading offset)
    (hf : Limit.Holds reading fetch) :
    (rowsTo d offset fetch kind).Within (Lexeme.avoids Lexeme.outerWords) := by
  have hclosed := Output.closed_avoids Lexeme.outerWords
  have hlow : (low offset).Within (Lexeme.avoids Lexeme.outerWords) := low_within.avoiding (by decide)
  have hhigh : (high d offset fetch).Within (Lexeme.avoids Lexeme.outerWords) :=
    (high_within ho hf).avoiding (by decide)
  rw [rowsTo_eq]
  split
  · exact hclosed.empty
  · split
    · exact hclosed.fail _
    · exact (hclosed.fixed _ rfl).append
        (hlow.append ((hclosed.fixed _ rfl).append (hhigh.append (hclosed.fixed _ rfl))))

theorem rowsTo_begins (kind : FetchKind) (ho : Limit.Holds reading offset)
    (hf : Limit.Holds reading fetch) : (rowsTo d offset fetch kind).Begins ["rows"] := by
  have hrest : (low offset ++ (.word " to " ++ (high d offset fetch ++ .word " "))).Within
      Lexeme.ofSource :=
    reading.ofSource.append low_within (reading.ofSource.append (reading.ofSource.fixed _ rfl)
      (reading.ofSource.append (high_within ho hf) (reading.ofSource.fixed _ rfl)))
  rw [rowsTo_eq]
  split
  · exact .empty
  · split
    · exact .fail _
    · exact .clause "rows" [] rfl (by decide) rfl (reading.query_of_source hrest)

theorem rowsTo_ends (kind : FetchKind) (hgiven : (offset.isNone && fetch.isNone) = false)
    (ho : ∀ o, offset = some o → o.output.Ends) (hf : ∀ f, fetch = some f → f.output.Ends) :
    (rowsTo d offset fetch kind).Ends := by
  rw [rowsTo_eq, if_neg (by simp [hgiven])]
  split
  · exact .fail _
  · exact .append _ (.append _ (.append _ (.blank (high_ends ho hf))))

end RowLimit

namespace QueryText

theorem isOneOf_of_ends {bs : List Block} (h : (Block.text bs).getLast?.any Lexeme.ends = true) :
    bs.getLast?.any (·.isOneOf [",", ".", "distinct"]) = false := by
  cases hlast : bs.getLast? with
  | none => rfl
  | some b =>
      obtain ⟨init, rfl⟩ := List.getLast?_eq_some_iff.1 hlast
      rcases b with ⟨⟨l⟩ | ⟨text, c⟩, q⟩
      · have hends : l.ends = true := by simpa [Block.text, Part.text] using h
        cases l <;> simp_all [Lexeme.ends, Block.isOneOf, Block.isKey, Part.isKey, Part.key?]
      · rfl

theorem isRange_blocks {o : Output} (hbegins : o.Begins ["rows"]) (hends : o.Ends)
    (hok : o.failure = none) : isRange o.blocks = true := by
  have htext : (Block.text o.blocks).getLast?.any Lexeme.ends = true := by
    rw [hbegins.1.text_blocks hok]
    exact hends hok
  have hlast := isOneOf_of_ends htext
  have hhead := hbegins.blocks hok
  rw [isRange, hlast]
  cases hblocks : o.blocks with
  | nil => rfl
  | cons b bs =>
      rw [hblocks] at hhead
      simpa [Block.isOneOf] using hhead b rfl

end QueryText

namespace Render

open Output.Layers (reading)

variable (d : Dialect)

/-- The row range in front of the select list of a query. -/
def selectRange (s : QuerySpec) : Output :=
  match d.strategies.selectList with
  | .standard => .empty
  | .rowsTo => RowLimit.rowsTo d (limit d s.offset) (limit d s.fetch) s.fetchKind

/-- A query from its select list up to its order. -/
def items (s : QuerySpec) : Output :=
  selectList s.distinct ((selections d s.selections).map fun (o, a) => o.output ++ a) ++
    (fromClause d (tableGroups d s.roots) ++ (restrictionClause d s.restriction ++
      (grouping d s ++ groupCondition d s.having)))

/-- A query specification up to its order. -/
def core (s : QuerySpec) : Output := .word "select " ++ (selectRange d s ++ items d s)

theorem output_core (lock : Option LockScope) (s : QuerySpec) :
    (querySpec d lock s).output = core d s ++ ending d lock s := by
  have hlist (list : Output) : selectListOf d (limit d s.offset) (limit d s.fetch) s.fetchKind list =
      selectRange d s ++ list := by
    rw [selectListOf.eq_def, selectRange]
    cases d.strategies.selectList with
    | standard => exact (Output.empty_append list).symm
    | rowsTo => rfl
  rw [output_querySpec, core, selected, hlist]
  simp only [items, Output.append_assoc]

theorem selectRange_within (s : QuerySpec) :
    (selectRange d s).Within (Lexeme.avoids Lexeme.outerWords) := by
  rw [selectRange]
  split
  · exact (Output.closed_avoids _).empty
  · exact RowLimit.rowsTo_within _ (reading.limitHolds d s.offset) (reading.limitHolds d s.fetch)

theorem items_within (s : QuerySpec) : (items d s).Within (Lexeme.avoids Lexeme.memberWords) := by
  have hcondition (keyword : String)
      (hk : (Lexeme.ofWord keyword).all (Lexeme.avoids Lexeme.memberWords) = true)
      (p : Option Predicate) :
      (condition keyword p (optionalPredicate d p)).Within (Lexeme.avoids Lexeme.memberWords) := by
    refine reading.condition_of_given (Output.closed_avoids _) keyword hk p fun c hc => ?_
    have hc : c.Within Lexeme.ofCondition := reading.optionalPredicateHolds d p c hc
    exact hc.avoiding (by decide)
  have hgrouping : (grouping d s).Within (Lexeme.avoids Lexeme.memberWords) := by
    rw [grouping]
    split
    · exact (Output.closed_avoids _).empty
    · have hlist : (Output.list (partition d s.groupBy)).Within Lexeme.ofSource :=
        reading.list (reading.partitionHolds d s.groupBy)
      exact ((Output.closed_avoids _).fixed _ rfl).append (hlist.avoiding (by decide))
  have hlist : Output.Within Lexeme.ofSource (selectList s.distinct _) :=
    reading.selectList s.distinct (reading.selectionsHold d s.selections).2
  have hfrom : (fromClause d (tableGroups d s.roots)).Within Lexeme.ofSource :=
    reading.fromClause d (reading.tableGroupsHold d s.roots)
  exact (hlist.avoiding (by decide)).append ((hfrom.avoiding (by decide)).append
    ((hcondition _ rfl _).append (hgrouping.append (hcondition _ rfl _))))

theorem core_within (s : QuerySpec) : (core d s).Within (Lexeme.avoids Lexeme.outerWords) :=
  ((Output.closed_avoids _).fixed _ rfl).append
    ((selectRange_within d s).append ((items_within d s).avoiding (by decide)))

theorem core_within_unlimited {s : QuerySpec} (hoffset : s.offset = none) (hfetch : s.fetch = none) :
    (core d s).Within (Lexeme.avoids Lexeme.memberWords) := by
  have hrange : selectRange d s = .empty := by
    rw [selectRange, hoffset, hfetch]
    split <;> rfl
  rw [core, hrange, Output.empty_append]
  exact ((Output.closed_avoids _).fixed _ rfl).append (items_within d s)

theorem core_begins (s : QuerySpec) : (core d s).Begins ["select"] := by
  have hrest : (selectRange d s ++ items d s).Within Lexeme.ofQuery :=
    (selectRange_within d s).flat.append (items_within d s).flat
  exact .clause "select" [] rfl (by decide) rfl hrest

theorem orderBy_within (keys : List SortKey) :
    (orderBy (sortKeys d keys)).Within (Lexeme.avoids ("rows" :: "for" :: Lexeme.limitWords)) := by
  rw [orderBy]
  split
  · exact (Output.closed_avoids _).empty
  · have hlist : (Output.list (sortKeys d keys)).Within Lexeme.ofSource :=
      reading.list (reading.sortKeysHold d keys)
    exact ((Output.closed_avoids _).fixed _ rfl).append (hlist.avoiding (by decide))

theorem rowLimit_within (offset fetch : Option Expr) (kind : FetchKind) :
    (RowLimit.clause d (limit d offset) (limit d fetch) kind).Within (Lexeme.avoids ["for"]) := by
  refine reading.rowLimit_of_words (Output.closed_avoids _) (by decide) (fun he => ?_) d kind
    (reading.limitHolds d offset) (reading.limitHolds d fetch)
  have htest : Output.Within _ _ := reading.test_of_expression he
  exact htest.avoiding (by decide)

/-- What stands behind a query and its set operations, in its places. -/
theorem laid {o lock : Output} (keys : List SortKey) (offset fetch : Option Expr) (kind : FetchKind)
    (ho : o.Within (Lexeme.avoids Lexeme.tailWords)) (hlock : lock.Begins ["for"])
    (hok : (o ++ (orderBy (sortKeys d keys) ++
      (RowLimit.clause d (limit d offset) (limit d fetch) kind ++ lock))).failure = none) :
    (o ++ (orderBy (sortKeys d keys) ++
      (RowLimit.clause d (limit d offset) (limit d fetch) kind ++ lock))).blocks =
      o.blocks ++ ((orderBy (sortKeys d keys)).blocks ++
        ((RowLimit.clause d (limit d offset) (limit d fetch) kind).blocks ++ lock.blocks)) ∧
    QueryText.Laid o.blocks (orderBy (sortKeys d keys)).blocks
      (RowLimit.clause d (limit d offset) (limit d fetch) kind).blocks lock.blocks := by
  have horder := orderBy_within d keys
  have hlimit := rowLimit_within d offset fetch kind
  obtain ⟨hook, hrestok⟩ := Output.failure_append_eq_none.1 hok
  obtain ⟨horderok, htailok⟩ := Output.failure_append_eq_none.1 hrestok
  obtain ⟨hlimitok, hlockok⟩ := Output.failure_append_eq_none.1 htailok
  have htail := hlimit.flat.append hlock.1
  constructor
  · rw [Output.blocks_append ho (horder.flat.append htail) hok,
      Output.blocks_append horder htail hrestok, Output.blocks_append hlimit hlock.1 htailok]
  · exact {
      coreFree := ho.blocks_isOneOf hook (List.Subset.refl _)
      orderFree := horder.blocks_isOneOf horderok (by decide)
      limitFree := hlimit.blocks_isOneOf hlimitok (List.Subset.refl _)
      orderHead := (orderBy_begins d keys).blocks horderok
      limitHead := (rowLimit_begins d kind (reading.limitHolds d offset)
        (reading.limitHolds d fetch)).blocks hlimitok
      lockHead := hlock.blocks hlockok }

end Render

end DialectSql
