import DialectSql.Proofs.Listing
import DialectSql.Proofs.Restriction
import DialectSql.Proofs.RowValue

namespace DialectSql

namespace Part

/-- What stands in the brackets of a group. -/
def content? : Part → Option (List Part)
  | .group (.opening .paren :: text) _ => collect text.dropLast [] []
  | _ => none

/-- The items that commas separate; `seen` is the part of the first one read before. -/
def splitItems (seen : List Part) : List Part → List (List Part)
  | [] => [seen]
  | p :: ps => if p.isKey "," then seen :: splitItems [] ps else splitItems (seen ++ [p]) ps

/-- The texts of the values of a row in brackets. A query in brackets is no row. -/
def row? (p : Part) : Option (List (List Lexeme)) :=
  p.content?.bind fun ps =>
    if ps.any (·.isKey "select") then none else some ((splitItems [] ps).map partsText)

end Part

namespace Condition

def rowOperator? (ps : List Part) : Option ComparisonOperator :=
  match ps.map Part.key? with
  | [some "is", some "distinct", some "from"] => some .distinct
  | [some "is", some "not", some "distinct", some "from"] => some .notDistinct
  | [some m] => operator? m
  | _ => none

/-- A comparison of two rows in brackets. -/
def rowTest? : List Part → Option (List (List Lexeme) × ComparisonOperator × List (List Lexeme))
  | [] => none
  | p :: ps =>
    match p.row?, rowOperator? ps.dropLast, ps.getLast?.bind Part.row? with
    | some ls, some op, some rs => some (ls, op, rs)
    | _, _, _ => none

end Condition

namespace Valuation

variable {α : Type*} [LinearOrder α] (V : Valuation α)

/-- The value of a factor, a comparison of two rows among them. -/
def factorTruth : List Part → Truth
  | [] => Condition.factorTruth V []
  | p :: ps =>
    if p.isKey "not" then (factorTruth ps).not
    else match Condition.rowTest? (p :: ps) with
      | some (ls, op, rs) => Row.truth op (ls.map V.operand) (rs.map V.operand)
      | none => Condition.factorTruth V (p :: ps)

def conditionTruth (ps : List Part) : Truth :=
  .any ((Condition.splitOr [] ps).map fun qs =>
    .all ((Condition.splitAnd false [] qs).map V.factorTruth))

end Valuation

/-- The rows that the text of the tables of a query stands for, for one row of the query around it.
Each row gives the values of the texts inside the query. -/
abbrev Tables (α : Type*) := List Lexeme → List (Valuation α)

namespace Tables

variable {α : Type*} [LinearOrder α] (T : Tables α)

/-- Whether a query `select 1 ...` has a row. -/
def someRow? : List Part → Option Bool
  | .leaf (.word "select") :: .leaf (.number 1) :: ps =>
    some ((T (partsText (ps.takeWhile fun p => !p.startsClause))).any fun V =>
      match Condition.clause? "where" ps with
      | none => true
      | some qs => V.conditionTruth qs == .true)
  | _ => none

/-- The value of `exists (...)`, behind any number of `not`. -/
def existence? : List Part → Option Bool
  | .leaf (.word "not") :: ps => (existence? ps).map (!·)
  | [.leaf (.word "exists"), g] => g.content?.bind T.someRow?
  | _ => none

end Tables

def Output.existence? {α : Type*} [LinearOrder α] (T : Tables α) (o : Output) : Option Bool :=
  (Part.ofPieces? o.pieces).bind T.existence?

theorem Reads.content?_enclose {ls : List Lexeme} {ps : List Part} (h : Reads ls ps) :
    (Part.enclose .paren ps).content? = some ps := by
  simp only [Part.enclose, Part.content?, List.cons_append, List.dropLast_concat]
  rw [h.text]
  exact h.parts

namespace Part

theorem splitItems_append (seen : List Part) {ps : List Part}
    (h : ∀ p ∈ ps, p.isKey "," = false) (qs : List Part) :
    splitItems seen (ps ++ .comma :: qs) = (seen ++ ps) :: splitItems [] qs := by
  induction ps generalizing seen with
  | nil => simp [splitItems, isKey, key?, comma]
  | cons p ps ih =>
      have hp := h p (by simp)
      have hps := ih (seen ++ [p]) fun q hq => h q (List.mem_cons_of_mem p hq)
      simp [splitItems, hp, hps]

theorem splitItems_of_none (seen : List Part) {ps : List Part}
    (h : ∀ p ∈ ps, p.isKey "," = false) : splitItems seen ps = [seen ++ ps] := by
  induction ps generalizing seen with
  | nil => simp [splitItems]
  | cons p ps ih =>
      have hp := h p (by simp)
      have hps := ih (seen ++ [p]) fun q hq => h q (List.mem_cons_of_mem p hq)
      simp [splitItems, hp, hps]

end Part

namespace Output

open Layers (reading)

variable {a b o : Output}

theorem Within.without_listing (h : o.Within Lexeme.ofExpression) :
    o.Within (Lexeme.avoids Lexeme.listingWords) :=
  h.mono fun _ hl => Lexeme.avoids_of_subset (List.subset_append_right _ _)
    (Lexeme.avoids_of_append (Lexeme.ofTest_of_ofExpression hl))

/-- A list of expressions is read as its items. -/
theorem splitItems_list {os : List Output} (hne : os ≠ [])
    (h : ∀ o ∈ os, o.Within Lexeme.ofExpression) (hok : (list os).failure = none) :
    Part.splitItems [] (list os).parts = os.map parts := by
  induction os with
  | nil => exact absurd rfl hne
  | cons o os ih =>
      have ho := h o (by simp)
      have hcomma (hook : o.failure = none) : ∀ p ∈ o.parts, p.isKey "," = false :=
        fun p hp => Condition.isKey_of_avoids (ho.without_listing.parts_allowed hook p hp) (by decide)
      cases os with
      | nil => exact Part.splitItems_of_none [] (hcomma hok)
      | cons p os =>
          have hrest : ∀ q ∈ p :: os, q.Within Lexeme.ofExpression := fun q hq =>
            h q (List.mem_cons_of_mem o hq)
          have hlist : (list (p :: os)).Within Lexeme.ofQuery := reading.expressionList hrest
          have hitems : list (o :: p :: os) = o ++ word ", " ++ list (p :: os) := rfl
          rw [hitems] at hok ⊢
          obtain ⟨hhead, htail⟩ := failure_append_eq_none.1 hok
          rw [parts_comma (reading.query_of_expression ho) hlist hok,
            Part.splitItems_append [] (hcomma (failure_append_eq_none.1 hhead).1),
            ih (by simp) hrest htail]
          rfl

theorem list_without_select {os : List Output} (h : ∀ o ∈ os, o.Within Lexeme.ofExpression)
    (hok : (list os).failure = none) : (list os).parts.any (·.isKey "select") = false := by
  have hclosed : Closed (Lexeme.avoids ["select"]) (Within Lexeme.ofQuery)
      (Within (Lexeme.avoids ["select"])) :=
    closed_within (fun _ => Lexeme.ofQuery_of_avoids) fun _ => rfl
  have hlist : (list os).Within (Lexeme.avoids ["select"]) :=
    hclosed.joined rfl fun o ho => (h o ho).without_listing.avoiding (by decide)
  refine List.any_eq_false.2 fun p hp => ?_
  rw [Condition.isKey_of_avoids (hlist.parts_allowed hok p hp) (List.mem_singleton_self _)]
  simp

/-- A list of expressions in brackets is read as the row of their texts. -/
theorem row?_list {os : List Output} (hne : os ≠ [])
    (h : ∀ o ∈ os, o.Within Lexeme.ofExpression) (hok : (list os).failure = none) :
    (Part.enclose .paren (list os).parts).row? =
      some (os.map fun o => Lexeme.ofPieces o.pieces) := by
  have hlist : (list os).Within Lexeme.ofQuery := reading.expressionList h
  rw [Part.row?, (hlist.reads hok).content?_enclose, Option.bind_some,
    list_without_select h hok, if_neg (by simp), splitItems_list hne h hok, List.map_map]
  refine congrArg some (List.map_congr_left fun o ho => ?_)
  exact ((h o ho).reads ((failure_joined_eq_none _ _).1 hok o ho)).text

end Output

namespace Condition

theorem IsFactor.splitAnd_and {ps : List Part} (h : IsFactor ps) (qs : List Part) :
    splitAnd false [] (ps ++ .word "and" :: qs) = ps :: splitAnd false [] qs := by
  rw [h.together]
  rfl

end Condition

namespace Valuation

variable {α : Type*} [LinearOrder α] (V : Valuation α) {ps qs : List Part}

theorem conditionTruth_factor (h : Condition.IsFactor ps) :
    V.conditionTruth ps = V.factorTruth ps := by
  simp [conditionTruth, Condition.splitOr_of_none [] h.noOr, h.splitAnd_eq]

theorem conditionTruth_and (hp : Condition.IsFactor ps) (hq : Condition.IsFactor qs) :
    V.conditionTruth (ps ++ .word "and" :: qs) = (V.factorTruth ps).and (V.factorTruth qs) := by
  simp [conditionTruth, Condition.splitOr_of_none [] (Condition.noOr_and hp.noOr hq.noOr),
    hp.splitAnd_and, hq.splitAnd_eq]

theorem factorTruth_not (ps : List Part) :
    V.factorTruth (.word "not" :: ps) = (V.factorTruth ps).not := rfl

theorem factorTruth_single {p : Part} (h : p.isKey "not" = false) :
    V.factorTruth [p] = Condition.factorTruth V [p] := by
  have hnone : Condition.rowTest? [p] = none := by
    rw [Condition.rowTest?]
    split <;> simp_all
  simp [factorTruth, h, hnone]

/-- A group by itself is no comparison of rows. -/
theorem factorTruth_parenthesized {allowed : Lexeme → Bool} {o : Output} (h : o.Within allowed)
    (hok : o.failure = none) :
    V.factorTruth o.parenthesized.parts = Condition.factorTruth V o.parenthesized.parts := by
  rw [Output.parts_parenthesized h hok]
  exact factorTruth_single V rfl

theorem factorTruth_group {o : Output} (h : o.Within Lexeme.ofCondition) (hok : o.failure = none) :
    V.factorTruth o.parenthesized.parts = Condition.partsTruth V o.parts := by
  rw [V.factorTruth_parenthesized h hok,
    ← Condition.partsTruth_factor V (Output.isFactor_parenthesized h hok),
    Output.partsTruth_parenthesized V h hok]

end Valuation

namespace Output

open Layers (reading)

/-- A query with the given tables and condition has a row. -/
def existing (source condition : Output) : Output :=
  .word "exists (select 1" ++ (source ++ .word " where " ++ condition) ++ .word ")"

variable {source condition : Output}

theorem existing_within (hs : source.Within Lexeme.ofSource)
    (hc : condition.Within Lexeme.ofCondition) :
    (existing source condition).Within Lexeme.ofTest :=
  reading.ofTest.bracketed .paren _ _ rfl rfl
    ((Within.append (reading.query_of_source hs) (reading.ofQuery.fixed _ rfl)).append
      (reading.query_of_condition hc))

theorem failure_existing (source condition : Output) :
    (existing source condition).failure = none ↔
      source.failure = none ∧ condition.failure = none := by
  simp [existing]

theorem takeWhile_source (h : source.Within Lexeme.ofSource) (hok : source.failure = none)
    (ps : List Part) :
    (source.parts ++ .word "where" :: ps).takeWhile (fun p => !p.startsClause) = source.parts := by
  have hwords : Lexeme.clauseWords ⊆ Lexeme.outsideWords := by decide
  have hinside : ∀ p ∈ source.parts, (!p.startsClause) = true := by
    intro p hp
    rw [Bool.not_eq_true', Part.startsClause, List.any_eq_false]
    intro w hw
    rw [Condition.isKey_of_avoids (h.parts_allowed hok p hp) (hwords hw)]
    simp
  have hwhere : (Part.word "where").startsClause = true := by decide
  rw [List.takeWhile_append_of_pos hinside, List.takeWhile_cons_of_neg (by simp [hwhere]),
    List.append_nil]

theorem clause?_source (h : source.Within Lexeme.ofSource) (hok : source.failure = none)
    (hc : condition.Within Lexeme.ofCondition) (hcok : condition.failure = none) :
    Condition.clause? "where" (source.parts ++ .word "where" :: condition.parts) =
      some condition.parts := by
  have hnone : ∀ p ∈ source.parts, p.isKey "where" = false := fun p hp =>
    Condition.isKey_of_avoids (h.parts_allowed hok p hp) (by decide)
  have hempty : Output.empty.parts = [] := rfl
  have hall := takeWhile_condition hc hcok .empty rfl
  rw [hempty, List.append_nil] at hall
  rw [Condition.clause?_behind hnone, hall]

theorem reads_existing (hs : source.Within Lexeme.ofSource)
    (hc : condition.Within Lexeme.ofCondition) (hok : (existing source condition).failure = none) :
    ∃ ls, Reads ls (.word "select" :: .leaf (.number 1) ::
        (source.parts ++ .word "where" :: condition.parts)) ∧
      (existing source condition).parts = [.word "exists", Part.enclose .paren
        (.word "select" :: .leaf (.number 1) ::
          (source.parts ++ .word "where" :: condition.parts))] := by
  obtain ⟨hsok, hcok⟩ := (failure_existing source condition).1 hok
  have hbody : (source ++ .word " where " ++ condition).failure = none := by simp [hsok, hcok]
  have hopen : Lexeme.ofWord "exists (select 1" =
      [.word "exists", .opening .paren, .word "select", .number 1] := by decide
  have hwhere : Lexeme.ofWord " where " = [.word "where"] := by decide
  have hclose : Lexeme.ofWord ")" = [.closing .paren] := by decide
  have hbodyReads : Reads (Lexeme.ofPieces (source ++ .word " where " ++ condition).pieces)
      (source.parts ++ .word "where" :: condition.parts) := by
    have hsourceq := reading.query_of_source hs
    have hconditionq := reading.query_of_condition hc
    rw [← parts_separated hwhere hsourceq hconditionq hbody]
    exact ((hsourceq.append (reading.ofQuery.fixed _ rfl)).append hconditionq).reads hbody
  have hinner := (Reads.leaf (l := .word "select") rfl).append
    ((Reads.leaf (l := .number 1) rfl).append hbodyReads)
  refine ⟨_, hinner, parts_of_reads ?_⟩
  have hall := (Reads.leaf (l := .word "exists") rfl).append (hinner.enclose .paren)
  have hheadok : (word "exists (select 1" ++ (source ++ word " where " ++ condition)).failure =
      none := by simp [hsok, hcok]
  rw [existing, pieces_append hheadok, pieces_append rfl, Lexeme.ofPieces_append,
    Lexeme.ofPieces_append, pieces_word, pieces_word, Lexeme.ofPieces_word, Lexeme.ofPieces_word,
    hopen, hclose]
  simpa [Part.word] using hall

section

variable {α : Type*} [LinearOrder α] (T : Tables α)

theorem existence?_eq {allowed : Lexeme → Bool} {o : Output} (h : o.Within allowed)
    (hok : o.failure = none) : o.existence? T = T.existence? o.parts := by
  rw [existence?, Part.ofPieces?, (h.reads hok).parts, Option.bind_some]

/-- Some row of the tables makes the condition true. -/
theorem existence?_existing (hs : source.Within Lexeme.ofSource)
    (hc : condition.Within Lexeme.ofCondition) (hok : (existing source condition).failure = none) :
    (existing source condition).existence? T =
      some ((T (Lexeme.ofPieces source.pieces)).any fun V =>
        V.conditionTruth condition.parts == .true) := by
  obtain ⟨hsok, hcok⟩ := (failure_existing source condition).1 hok
  obtain ⟨ls, hreads, hparts⟩ := reads_existing hs hc hok
  have hrow : T.existence? (existing source condition).parts =
      T.someRow? (.word "select" :: .leaf (.number 1) ::
        (source.parts ++ .word "where" :: condition.parts)) := by
    rw [hparts, Part.word, Tables.existence?, hreads.content?_enclose, Option.bind_some]
  rw [existence?_eq T (existing_within hs hc) hok, hrow, Part.word, Tables.someRow?,
    takeWhile_source hs hsok, clause?_source hs hsok hc hcok, (hs.reads hsok).text]

theorem existence?_not {o : Output} (h : o.Within Lexeme.ofTest) (hok : o.failure = none) :
    (word "not " ++ o).existence? T = (o.existence? T).map (!·) := by
  have hnot := reading.ofTest.fixed "not " rfl
  have hall : (word "not " ++ o).failure = none := by simpa using hok
  rw [existence?_eq T (Within.append hnot h) hall, existence?_eq T h hok, parts_not h hok]
  rfl

theorem existence?_when (negated : Bool) {o : Output} (h : o.Within Lexeme.ofTest)
    (hok : o.failure = none) :
    (when negated (word "not ") ++ o).existence? T = (o.existence? T).map (negated ^^ ·) := by
  cases negated with
  | false => simp [when]
  | true => simpa [when] using existence?_not T h hok

end

end Output

end DialectSql
