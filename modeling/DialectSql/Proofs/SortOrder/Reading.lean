import DialectSql.Proofs.Condition.Comparison
import DialectSql.Proofs.Rendered.Query
import DialectSql.Proofs.SortOrder.Term

namespace DialectSql

/-- One item of an `order by` clause. -/
structure OrderItem where
  term : OrderTerm
  direction : OrderDirection
  nulls : Option NullOrdering
deriving DecidableEq, Repr

namespace OrderItem

/-- The place of nulls that a text ends with, read backwards. -/
def endingNulls : List Part → Option NullOrdering × List Part
  | .leaf (.word "first") :: .leaf (.word "nulls") :: ps => (some .first, ps)
  | .leaf (.word "last") :: .leaf (.word "nulls") :: ps => (some .last, ps)
  | ps => (none, ps)

/-- The direction that a text ends with, read backwards. -/
def endingDirection : List Part → OrderDirection × List Part
  | .leaf (.word "desc") :: ps => (.desc, ps)
  | .leaf (.word "asc") :: ps => (.asc, ps)
  | ps => (.asc, ps)

def ofParts (ps : List Part) : OrderItem :=
  let (nulls, keyed) := endingNulls ps.reverse
  let (direction, term) := endingDirection keyed
  ⟨.ofParts term.reverse, direction, nulls⟩

/-- What stands behind the expression of an item. -/
def ending (direction : OrderDirection) (nulls : Option NullOrdering) : List Part :=
  (match direction with
    | .asc => []
    | .desc => [.word "desc"]) ++
  match nulls with
  | none => []
  | some .first => [.word "nulls", .word "first"]
  | some .last => [.word "nulls", .word "last"]

theorem endingNulls_ending {p : Part} (hp : p.isValue = true) (ps : List Part)
    (direction : OrderDirection) (nulls : Option NullOrdering) :
    endingNulls ((ending direction nulls).reverse ++ p :: ps) =
      (nulls, (ending direction none).reverse ++ p :: ps) := by
  have hvalue : endingNulls (p :: ps) = (none, p :: ps) := by
    cases p with
    | group => rfl
    | leaf l =>
        cases l with
        | word | number => cases hp
        | mark | opening | closing | unit => rfl
  obtain _ | _ | _ := nulls <;> cases direction <;> first | rfl | exact hvalue

theorem endingDirection_ending {p : Part} (hp : p.isValue = true) (ps : List Part)
    (direction : OrderDirection) :
    endingDirection ((ending direction none).reverse ++ p :: ps) = (direction, p :: ps) := by
  cases direction with
  | asc =>
      cases p with
      | group => rfl
      | leaf l =>
          cases l with
          | word | number => cases hp
          | mark | opening | closing | unit => rfl
  | desc => rfl

theorem ofParts_ending {ps : List Part} {p : Part} (hlast : ps.getLast? = some p)
    (hp : p.isValue = true) (direction : OrderDirection) (nulls : Option NullOrdering) :
    ofParts (ps ++ ending direction nulls) = ⟨.ofParts ps, direction, nulls⟩ := by
  obtain ⟨qs, rfl⟩ := List.getLast?_eq_some_iff.1 hlast
  simp [ofParts, endingNulls_ending hp, endingDirection_ending hp]

end OrderItem

/-- The inside of a `case` that tells the nulls of an operand apart by two numbers. -/
def OrderTerm.nullBranch (operand : List Part) (m n : Nat) : List Part :=
  .word "when" :: (operand ++ [.word "is", .word "null", .word "then", .leaf (.number m),
    .word "else", .leaf (.number n)])

namespace NullOrdering

/-- The numbers that sort nulls and other values to their places. -/
def numbers : NullOrdering → Nat × Nat
  | first => (0, 1)
  | last => (1, 0)

end NullOrdering

namespace SortKey

/-- The text of the expression of a key. -/
def text (d : Dialect) (k : SortKey) : List Lexeme :=
  Lexeme.ofPieces (Render.operand d k.expr).output.pieces

/-- The items that a key is written as. -/
def items (d : Dialect) (k : SortKey) : List OrderItem :=
  match k.nulls with
  | none => [⟨.expression (k.text d), k.direction, none⟩]
  | some nulls =>
    if d.capabilities.nullPrecedence then [⟨.expression (k.text d), k.direction, some nulls⟩]
    else
      [⟨.choice (.nullTest (k.text d) false) nulls.numbers.1 nulls.numbers.2, .asc, none⟩,
        ⟨.expression (k.text d), k.direction, none⟩]

end SortKey

namespace Output

/-- The items of an `order by` clause, as its text is read. -/
def orderItems (o : Output) : List OrderItem :=
  if o.parts.isEmpty then [] else ((o.parts.drop 2).splitOn Part.comma).map .ofParts

end Output

namespace Render

open Output (Within)
open Output.Layers (reading)

variable (d : Dialect)

theorem parts_ending (direction : OrderDirection) :
    (Output.when (direction == .desc) (.word " desc")).parts = OrderItem.ending direction none := by
  cases direction <;> rfl

theorem parts_nullEnding (direction : OrderDirection) (nulls : NullOrdering) :
    (Output.when (direction == .desc) (.word " desc") ++ (.word " " ++ .word nulls.sql)).parts =
      OrderItem.ending direction (some nulls) := by
  cases direction <;> cases nulls <;> rfl

/-- An item is read as its expression, its direction and its place of nulls. -/
theorem ofParts_item {k : SortKey} (hk : k.expr.isNumeral d = false)
    (hok : (operand d k.expr).output.failure = none) (nulls : Option NullOrdering) :
    OrderItem.ofParts ((operand d k.expr).output.parts ++ OrderItem.ending k.direction nulls) =
      ⟨.expression (k.text d), k.direction, nulls⟩ := by
  obtain ⟨p, hlast, hp⟩ := Output.EndsValue.operand d k.expr hok
  rw [OrderItem.ofParts_ending hlast hp, isOrderExpression_operand d hk hok,
    ((operand_within d k.expr).reads hok).text, SortKey.text]

theorem choice?_nullBranch {o : Output} (ho : o.Within Lexeme.ofExpression) (hok : o.failure = none)
    (m n : Nat) : OrderTerm.choice? (OrderTerm.nullBranch o.parts m n) =
      some (.choice (.nullTest (Lexeme.ofPieces o.pieces) false) m n) := by
  have hbefore : ∀ p ∈ o.parts, (!p.isKey "is") = true := fun p hp => by
    rw [Condition.isKey_of_expression (ho.parts_allowed hok p hp) (by decide)]
    rfl
  have htest : o.Within Lexeme.ofTest := reading.test_of_expression ho
  have hfactor : Condition.IsFactor (o.parts ++ [.word "is", .word "null"]) :=
    Condition.isFactor_of_allowed
      (List.forall_mem_append.2 ⟨htest.parts_allowed hok, by decide⟩)
  have hread : Condition.ofParts (o.parts ++ [.word "is", .word "null"]) =
      .nullTest (Lexeme.ofPieces o.pieces) false := by
    rw [hfactor.ofParts_eq, Part.word,
      Condition.readFactor_continued (ho.parts_allowed hok) rfl rfl, (ho.reads hok).text]
  have his : (!Part.isKey "is" (.word "is")) = false := by decide
  rw [OrderTerm.nullBranch, Part.word, OrderTerm.choice?, List.dropWhile_append_of_pos hbefore,
    List.takeWhile_append_of_pos hbefore, List.dropWhile_cons, List.takeWhile_cons, his]
  simpa [Part.word] using hread

/-- A `case` that tells nulls apart. -/
theorem ofParts_nullBranch {o : Output} (ho : o.Within Lexeme.ofExpression) (hok : o.failure = none)
    (m n : Nat) : OrderItem.ofParts [Part.enclose .case (OrderTerm.nullBranch o.parts m n)] =
      ⟨.choice (.nullTest (Lexeme.ofPieces o.pieces) false) m n, .asc, none⟩ := by
  have hflat : [Lexeme.word "is", .word "null", .word "then", .number m, .word "else",
      .number n].all Lexeme.ofQuery = true := rfl
  have hreads := (Reads.leaf (l := .word "when") rfl).append ((ho.reads hok).append (.flat hflat))
  refine (OrderItem.ofParts_ending List.getLast?_singleton rfl .asc none).trans ?_
  have hterm := OrderTerm.ofParts_case hreads
  change OrderTerm.ofParts [Part.enclose .case (OrderTerm.nullBranch o.parts m n)] =
    (OrderTerm.choice? (OrderTerm.nullBranch o.parts m n)).getD _ at hterm
  rw [hterm, choice?_nullBranch ho hok]
  rfl

theorem descending_within (direction : OrderDirection) :
    (Output.when (direction == .desc) (.word " desc")).Within Lexeme.ofQuery :=
  reading.ofQuery.when _ (reading.ofQuery.fixed _ rfl)

theorem failure_descending (direction : OrderDirection) :
    (Output.when (direction == .desc) (.word " desc")).failure = none := by
  cases direction <;> rfl

theorem parts_nullKey {o test : Output} (ho : o.Within Lexeme.ofExpression)
    (hok : o.failure = none) (htest : test.Within Lexeme.ofQuery) (htestok : test.failure = none)
    {m n : Nat} (hparts : test.parts = [.word "is", .word "null", .word "then", .leaf (.number m),
      .word "else", .leaf (.number n)]) (direction : OrderDirection) :
    (.word "case when " ++ (o ++ test) ++ .word " end, " ++
      (o ++ .when (direction == .desc) (.word " desc"))).parts =
      Part.enclose .case (OrderTerm.nullBranch o.parts m n) ::
        Part.comma :: (o.parts ++ OrderItem.ending direction none) := by
  have hq := reading.query_of_expression ho
  have hdesc := descending_within direction
  have hdescok := failure_descending direction
  have hinsideok : (o ++ test).failure = none := by simp [hok, htestok]
  have hinside := reading.ofQuery.append hq htest
  have hcase : (.word "case when " ++ (o ++ test) ++ .word " end, " : Output).Within
      Lexeme.ofQuery := reading.ofQuery.bracketed .case _ _ rfl rfl hinside
  have hgroup := Output.parts_bracketed (w := "case when ") (v := " end, ") .case [.word "when"]
    [.mark ","] (by decide) rfl (by decide) rfl hinside hinsideok
  rw [Output.parts_append hcase (reading.ofQuery.append hq hdesc) (by simp [hok, htestok, hdescok]),
    hgroup, Output.parts_append hq htest hinsideok, hparts,
    Output.parts_append hq hdesc (by simp [hok, hdescok]), parts_ending]
  rfl

/-- Without null precedence, a key that tells nulls apart stands in front of the key itself. -/
theorem parts_emulatedKey {o : Output} (ho : o.Within Lexeme.ofExpression) (hok : o.failure = none)
    (direction : OrderDirection) (nulls : NullOrdering)
    (hrule : d.capabilities.nullPrecedence = false) :
    (sortKey d direction (some nulls) o).parts =
      Part.enclose .case (OrderTerm.nullBranch o.parts nulls.numbers.1 nulls.numbers.2) ::
        Part.comma :: (o.parts ++ OrderItem.ending direction none) := by
  have htest {m n : String} (hm : (Lexeme.ofWord m).all Lexeme.ofQuery = true)
      (hn : (Lexeme.ofWord n).all Lexeme.ofQuery = true) :=
    reading.ofQuery.append (reading.ofQuery.fixed " is null then " rfl) (reading.ofQuery.append
      (reading.ofQuery.fixed m hm) (reading.ofQuery.append (reading.ofQuery.fixed " else " rfl)
        (reading.ofQuery.fixed n hn)))
  rw [sortKey.eq_def]
  dsimp only
  rw [if_neg (by simp [hrule])]
  cases nulls with
  | first =>
      have hparts := parts_nullKey ho hok (htest (m := "0") (n := "1") rfl rfl) rfl (m := 0)
        (n := 1) rfl direction
      simp only [Output.append_assoc] at hparts ⊢
      exact hparts
  | last =>
      have hparts := parts_nullKey ho hok (htest (m := "1") (n := "0") rfl rfl) rfl (m := 1)
        (n := 0) rfl direction
      simp only [Output.append_assoc] at hparts ⊢
      exact hparts

theorem parts_nativeKey {o : Output} (ho : o.Within Lexeme.ofExpression) (hok : o.failure = none)
    (direction : OrderDirection) (nulls : Option NullOrdering)
    (hrule : nulls = none ∨ d.capabilities.nullPrecedence = true) :
    (sortKey d direction nulls o).parts = o.parts ++ OrderItem.ending direction nulls := by
  have hq := reading.query_of_expression ho
  have hdesc := descending_within direction
  have hdescok := failure_descending direction
  cases nulls with
  | none => rw [sortKey, Output.parts_append hq hdesc (by simp [hok, hdescok]), parts_ending]
  | some nulls =>
      have hnulls : (Output.word " " ++ .word nulls.sql).Within Lexeme.ofQuery := by
        cases nulls <;> exact reading.ofQuery.append (reading.ofQuery.fixed _ rfl)
          (reading.ofQuery.fixed _ rfl)
      rw [sortKey.eq_def]
      dsimp only
      rw [if_pos (by simpa using hrule), Output.append_assoc, Output.append_assoc,
        Output.parts_append hq (reading.ofQuery.append hdesc hnulls) (by simp [hok, hdescok]),
        parts_nullEnding]

theorem comma_notMem_item {o : Output} (ho : o.Within Lexeme.ofExpression) (hok : o.failure = none)
    (direction : OrderDirection) (nulls : Option NullOrdering) :
    Part.comma ∉ o.parts ++ OrderItem.ending direction nulls := by
  have havoids : o.Within (Lexeme.avoids [","]) := ho.avoids_of_expression (by decide)
  refine List.mem_append.not.2 (not_or.2 ⟨havoids.comma_notMem (by simp) hok, ?_⟩)
  obtain _ | _ | _ := nulls <;> cases direction <;> decide

/-- A sort key is read as its items. -/
theorem items_sortKey {k : SortKey} (hk : k.expr.isNumeral d = false)
    (hok : (operand d k.expr).output.failure = none) :
    ((sortKey d k.direction k.nulls (operand d k.expr).output).parts.splitOn Part.comma).map
      OrderItem.ofParts = k.items d := by
  have hwithin := operand_within d k.expr
  have hitem (nulls : Option NullOrdering) :
      (((operand d k.expr).output.parts ++ OrderItem.ending k.direction nulls).splitOn
        Part.comma).map OrderItem.ofParts =
      [⟨.expression (k.text d), k.direction, nulls⟩] := by
    rw [List.splitOn_eq_singleton (comma_notMem_item hwithin hok _ _), List.map_singleton,
      ofParts_item d hk hok]
  rw [SortKey.items]
  cases hnulls : k.nulls with
  | none => rw [parts_nativeKey d hwithin hok _ _ (.inl rfl), hitem]
  | some nulls =>
      cases hrule : d.capabilities.nullPrecedence with
      | true =>
          rw [parts_nativeKey d hwithin hok _ _ (.inr hrule), hitem]
          rfl
      | false =>
          rw [parts_emulatedKey d hwithin hok _ _ hrule, ← List.singleton_append,
            List.splitOn_append_cons_self, List.map_append, hitem,
            List.splitOn_eq_singleton (by simp [Part.comma, Part.enclose]), List.map_singleton,
            ofParts_nullBranch hwithin hok]
          rfl

theorem failure_sortKey {direction : OrderDirection} {nulls : Option NullOrdering} {o : Output}
    (hok : (sortKey d direction nulls o).failure = none) : o.failure = none := by
  rw [sortKey.eq_def] at hok
  dsimp only at hok
  split at hok
  · exact (Output.failure_append_eq_none.1 hok).1
  · split at hok
    · simp_all
    · simp_all

theorem failure_orderBy {keys : List SortKey} (hok : (orderBy (sortKeys d keys)).failure = none) :
    ∀ k ∈ keys, (operand d k.expr).output.failure = none := by
  intro k hk
  have hmem : sortKey d k.direction k.nulls (operand d k.expr).output ∈ sortKeys d keys := by
    rw [sortKeys_eq_map]
    exact List.mem_map_of_mem hk
  rw [orderBy, if_neg (by simpa using List.ne_nil_of_mem hmem)] at hok
  have hlist := (Output.failure_append_eq_none.1 hok).2
  exact failure_sortKey d ((Output.failure_joined_eq_none _ _).1 hlist _ hmem)

/-- The items of an `order by` clause are those of its sort keys. -/
theorem orderItems_orderBy (keys : List SortKey) (hkeys : ∀ k ∈ keys, k.expr.isNumeral d = false)
    (hok : (orderBy (sortKeys d keys)).failure = none) :
    (orderBy (sortKeys d keys)).orderItems = keys.flatMap (SortKey.items d) := by
  have hoperands := failure_orderBy d hok
  by_cases hempty : sortKeys d keys = []
  · have hnil : keys = [] := by simpa [sortKeys_eq_map] using hempty
    rw [hnil]
    rfl
  · have hwithin : ∀ o ∈ sortKeys d keys, o.Within Lexeme.ofQuery := fun o ho =>
      reading.query_of_source (reading.sortKeysHold d keys o ho)
    have hlist : (Output.list (sortKeys d keys)).Within Lexeme.ofQuery :=
      reading.ofQuery.joined rfl hwithin
    rw [orderBy, if_neg (by simpa using hempty)] at hok ⊢
    have hparts : (.word " order by " ++ .list (sortKeys d keys) : Output).parts =
        .word "order" :: .word "by" :: (Output.list (sortKeys d keys)).parts := by
      rw [Output.parts_append (reading.ofQuery.fixed _ rfl) hlist hok,
        Output.parts_word (by decide)]
      rfl
    rw [Output.orderItems, hparts, if_neg (by simp), List.drop_succ_cons, List.drop_succ_cons,
      List.drop_zero,
      Output.splitOn_parts_list hempty hwithin (Output.failure_append_eq_none.1 hok).2,
      sortKeys_eq_map, List.flatMap_map, List.map_flatMap]
    exact List.flatMap_congr fun k hk => items_sortKey d (hkeys k hk) (hoperands k hk)

end Render

end DialectSql
