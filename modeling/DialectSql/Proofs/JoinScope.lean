import DialectSql.Proofs.JoinOrder
import DialectSql.Proofs.Listing
import DialectSql.Proofs.SetOperation.Layout
import Mathlib.Data.List.SplitBy

namespace DialectSql

namespace Output

/-- The items of a `from` clause, as its text is read: a comma binds weaker than a join. -/
def fromItems (o : Output) : List (List Part) := o.parts.tail.splitOn Part.comma

end Output

/-- A join without the comma that may stand in front of it. -/
def TableJoin.output (d : Dialect) (j : TableJoin) : Output :=
  if d.strategies.join = .commaForCross ∧ j.type = .cross then
    .when j.lateral (.word "lateral ") ++ Render.tableReference d j.joined.label j.joined.reference
  else Session.joinOutput d j

namespace TableGroup

/-- The positions of the tables in the order of their text. The table that all joins hang off is at
the empty position. -/
def positions (g : TableGroup) : List (List Nat) := [] :: g.levelOrder.map Prod.fst

/-- Whether a comma stands in front of the table at a position. -/
def startsItem (d : Dialect) (g : TableGroup) (p : List Nat) : Bool :=
  d.strategies.join == .commaForCross && (TableJoin.at? g.joins p).any (·.type == .cross)

def items (d : Dialect) (g : TableGroup) : List (List (List Nat)) :=
  g.positions.splitBy fun _ p => !g.startsItem d p

def tableText (d : Dialect) (g : TableGroup) (p : List Nat) : List Part :=
  match TableJoin.at? g.joins p with
  | none => (Render.tableReference d g.label g.reference).parts
  | some j => (j.output d).parts

end TableGroup

section Splitting

variable {α β : Type*} [BEq β] [LawfulBEq β] (starts : α → Bool) {text : α → List β} {sep : β}

/-- A text that has a separator in front of some of its entries is cut where these entries start. -/
theorem splitOn_flatMap (run rest : List α) (htext : ∀ a ∈ run ++ rest, sep ∉ text a)
    (hne : run ≠ []) (hrun : run.IsChain fun _ b => (!starts b) = true) :
    (run.flatMap text ++ rest.flatMap fun a => (if starts a then [sep] else []) ++ text a).splitOn
        sep = ((run ++ rest).splitBy fun _ b => !starts b).map (·.flatMap text) := by
  -- `run` is what was read of the entry at hand
  induction rest generalizing run with
  | nil =>
      have hfree : sep ∉ run.flatMap text := by simpa [List.mem_flatMap] using htext
      simp [List.splitBy_of_isChain hne hrun, List.splitOn_eq_singleton hfree]
  | cons b rest ih =>
      have hfree : sep ∉ run.flatMap text := by
        simpa [List.mem_flatMap] using fun a ha => htext a (List.mem_append_left _ ha)
      rw [List.flatMap_cons]
      cases hb : starts b with
      | true =>
          have hrest := ih [b] (fun a ha => htext a (List.mem_append_right run ha))
            (by simp) (List.isChain_singleton b)
          rw [List.splitBy_append_cons rest (by simp [hb]), List.splitBy_of_isChain hne hrun,
            List.map_append, List.map_singleton, if_pos rfl]
          rw [List.flatMap_singleton, List.singleton_append] at hrest
          rw [← hrest, List.singleton_append, List.cons_append, List.splitOn_append_cons_self,
            List.splitOn_eq_singleton hfree]
      | false =>
          have hlonger := ih (run ++ [b]) (by simpa using htext) (by simp)
            (List.isChain_append.2 ⟨hrun, List.isChain_singleton b, by simp [hb]⟩)
          simpa using hlonger

end Splitting

namespace Output

theorem failure_concat_eq_none (os : List Output) :
    (concat os).failure = none ↔ ∀ o ∈ os, o.failure = none := by
  induction os with
  | nil => simp [concat]
  | cons o os ih =>
      change (o ++ concat os).failure = none ↔ _
      simp [ih]

theorem parts_concat {os : List Output} (hos : ∀ o ∈ os, o.Within Lexeme.ofQuery)
    (hok : (concat os).failure = none) : (concat os).parts = os.flatMap parts := by
  induction os with
  | nil => rfl
  | cons o os ih =>
      have hrest : ∀ q ∈ os, q.Within Lexeme.ofQuery := fun q hq =>
        hos q (List.mem_cons_of_mem o hq)
      change (o ++ concat os).failure = none at hok
      change (o ++ concat os).parts = _
      rw [parts_append (hos o (by simp)) (Layers.reading.ofQuery.concat hrest) hok,
        ih hrest (failure_append_eq_none.1 hok).2, List.flatMap_cons]

end Output

namespace TableJoin

open Output (Within)
open Output.Layers (reading)

variable {d : Dialect} {j : TableJoin}

theorem output_within (d : Dialect) (j : TableJoin) :
    (j.output d).Within (Lexeme.avoids [","]) := by
  have hclosed := Output.closed_avoids [","]
  have hword (w : String) (hw : (Lexeme.ofWord w).all (Lexeme.avoids [","]) = true) :
      (Output.word w).Within (Lexeme.avoids [","]) := hclosed.fixed w hw
  have htable : (Render.tableReference d j.joined.label j.joined.reference).Within
      (Lexeme.avoids [","]) :=
    (reading.tableReferenceHolds d _ _ : Within _ _).avoids_of_expression (by decide)
  have hcondition : (Render.joinCondition d j.type j.predicate j.lateral
      (Render.optionalPredicate d j.predicate)).Within (Lexeme.avoids [","]) := by
    rw [Render.joinCondition.eq_def]
    dsimp only
    split_ifs
    · exact hclosed.empty
    · exact hclosed.clause " on " rfl fun c hc =>
        (reading.optionalPredicateHolds d j.predicate c hc : Within _ _).avoiding (by decide)
    · exact (hword _ rfl).append (hword _ rfl)
    · exact hclosed.empty
  have hkeywords : (Output.word " " ++ .word j.type.sql ++ .word " join ").Within
      (Lexeme.avoids [","]) := by
    refine ((hword _ rfl).append ?_).append (hword _ rfl)
    cases j.type <;> exact hword _ rfl
  rw [output]
  split_ifs with hcomma
  · exact (hclosed.when _ (hword _ rfl)).append htable
  · refine Within.append (Within.append ?_ htable) hcondition
    rw [Render.joinHead.eq_def]
    split
    · exact (hkeywords.append (hclosed.when _ ((hclosed.require _ _).append (hword _ rfl)))).append
        (hclosed.when _ (hclosed.require _ _))
    · next hrule =>
        rw [if_neg fun htype => hcomma ⟨hrule, htype⟩]
        exact hkeywords.append (hclosed.when _ (hword _ rfl))

theorem joinOutput_within (d : Dialect) (j : TableJoin) :
    (Session.joinOutput d j).Within Lexeme.ofQuery :=
  reading.query_of_source (reading.ofSource.append (reading.ofSource.append
    (reading.joinHead d _ _ _) (reading.source_of_expression (reading.tableReferenceHolds d _ _)))
    (reading.joinCondition d _ _ _ (reading.optionalPredicateHolds d _)))

theorem failure_output (hok : (Session.joinOutput d j).failure = none) :
    (j.output d).failure = none := by
  rw [output]
  split_ifs
  · rw [Session.joinOutput] at hok
    have htable := (Output.failure_append_eq_none.1 (Output.failure_append_eq_none.1 hok).1).2
    cases j.lateral <;> simp [Output.when, htable]
  · exact hok

theorem parts_joinOutput (hok : (Session.joinOutput d j).failure = none) :
    (Session.joinOutput d j).parts =
      (if d.strategies.join = .commaForCross ∧ j.type = .cross then [Part.comma] else []) ++
        (j.output d).parts := by
  split_ifs with hcomma
  · obtain ⟨hrule, htype⟩ := hcomma
    have hout := (output_within d j).flat
    have hshape : Session.joinOutput d j =
        Render.checkCrossJoin j.predicate ++ .word ", " ++ j.output d := by
      rw [output, if_pos ⟨hrule, htype⟩, Session.joinOutput, Render.joinHead, hrule,
        Render.joinCondition.eq_def]
      simp only [htype, if_true, Output.append_empty, Output.append_assoc]
    rw [hshape] at hok ⊢
    have hcheck : Render.checkCrossJoin j.predicate = .empty := by
      have hfirst := (Output.failure_append_eq_none.1 (Output.failure_append_eq_none.1 hok).1).1
      rw [Render.checkCrossJoin.eq_def, Output.failure_require_eq_none] at hfirst
      rw [Render.checkCrossJoin.eq_def, hfirst, Output.require_true]
    rw [hcheck] at hok ⊢
    exact Output.parts_comma reading.ofQuery.empty hout hok
  · rw [output, if_neg hcomma, List.nil_append]

end TableJoin

namespace TableGroup

open Output.Layers (reading)

variable {d : Dialect} {g : TableGroup}

theorem tableReference_within (d : Dialect) (g : TableGroup) :
    (Render.tableReference d g.label g.reference).Within Lexeme.ofExpression :=
  reading.tableReferenceHolds d g.label g.reference

theorem mem_positions {p : List Nat} :
    p ∈ g.positions ↔ p = [] ∨ ∃ j, TableJoin.at? g.joins p = some j := by
  simp [positions, g.levelOrder_spec.mem_iff]

theorem failure_tableGroup (hok : (Render.tableGroup d g).failure = none) :
    (Render.tableReference d g.label g.reference).failure = none ∧
      ∀ p j, TableJoin.at? g.joins p = some j → (Session.joinOutput d j).failure = none := by
  rw [tableGroup_eq, Output.failure_append_eq_none, queue_eq, List.map_map,
    Output.failure_concat_eq_none] at hok
  refine ⟨hok.1, fun p j hat => ?_⟩
  exact hok.2 _ (List.mem_map.2 ⟨(p, j), (g.levelOrder_spec.mem_iff p j).2 hat, rfl⟩)

theorem parts_tableGroup (hok : (Render.tableGroup d g).failure = none) :
    (Render.tableGroup d g).parts = g.tableText d [] ++
      (g.levelOrder.map Prod.fst).flatMap fun p =>
        (if g.startsItem d p then [Part.comma] else []) ++ g.tableText d p := by
  have hjoins : ∀ o ∈ g.queue.map (Session.joinOutput d), o.Within Lexeme.ofQuery :=
    List.forall_mem_map.2 fun j _ => TableJoin.joinOutput_within d j
  have howns := (failure_tableGroup hok).2
  rw [tableGroup_eq] at hok ⊢
  rw [Output.parts_append (tableReference_within d g) (reading.ofQuery.concat hjoins) hok,
    Output.parts_concat hjoins (Output.failure_append_eq_none.1 hok).2, queue_eq, List.map_map,
    List.flatMap_map, List.flatMap_map]
  congr 1
  refine List.flatMap_congr fun x hx => ?_
  have hat := (g.levelOrder_spec.mem_iff x.1 x.2).1 hx
  rw [Function.comp_apply, TableJoin.parts_joinOutput (howns _ _ hat), startsItem, tableText, hat]
  simp

theorem comma_notMem_tableText (hok : (Render.tableGroup d g).failure = none) (p : List Nat) :
    Part.comma ∉ g.tableText d p := by
  obtain ⟨howner, howns⟩ := failure_tableGroup hok
  rw [tableText]
  split
  · exact ((tableReference_within d g).avoids_of_expression (by decide)).comma_notMem
      (List.mem_singleton_self _) howner
  · next j hat =>
      exact (TableJoin.output_within d j).comma_notMem (by simp)
        (TableJoin.failure_output (howns p j hat))

theorem splitOn_parts_tableGroup (hok : (Render.tableGroup d g).failure = none) :
    (Render.tableGroup d g).parts.splitOn Part.comma =
      (g.items d).map (·.flatMap (g.tableText d)) := by
  have hsplit := splitOn_flatMap (g.startsItem d) [[]] (g.levelOrder.map Prod.fst)
    (fun p _ => comma_notMem_tableText hok p) (by simp) (List.isChain_singleton _)
  rwa [List.flatMap_singleton, ← parts_tableGroup hok] at hsplit

theorem positions_sorted (g : TableGroup) : g.positions.Pairwise (List.Shortlex (· < ·)) := by
  refine List.pairwise_cons.2 ⟨fun p hp => ?_, List.pairwise_map.2 g.levelOrder_spec.sorted⟩
  obtain ⟨⟨p, j⟩, hmem, rfl⟩ := List.mem_map.1 hp
  have hat := (g.levelOrder_spec.mem_iff p j).1 hmem
  refine (List.shortlex_nil_or_eq_nil p).resolve_right ?_
  rintro rfl
  simp [TableJoin.at?] at hat

theorem startsItem_mem {p : List Nat} (h : g.startsItem d p = true) : p ∈ g.positions := by
  rw [startsItem, Bool.and_eq_true, Option.any_eq_true] at h
  obtain ⟨-, j, hat, -⟩ := h
  exact mem_positions.2 (.inr ⟨j, hat⟩)

theorem parent_mem_positions {p : List Nat} {k : Nat} (h : p ++ [k] ∈ g.positions) :
    p ∈ g.positions := by
  obtain hnil | ⟨j, hat⟩ := mem_positions.1 h
  · simp at hnil
  by_cases hp : p = []
  · exact mem_positions.2 (.inl hp)
  · obtain ⟨parent, hparent, -⟩ := TableJoin.at?_append hp hat
    exact mem_positions.2 (.inr ⟨parent, hparent⟩)

/-- An item begins with the first table of all or with one that starts an item, and goes on with
tables that start none. -/
theorem items_spec {item : List (List Nat)} (h : item ∈ g.items d) :
    ∃ before first rest after, item = first :: rest ∧
      g.positions = before ++ (first :: rest) ++ after ∧
      (before ≠ [] → g.startsItem d first = true) ∧ ∀ p ∈ rest, g.startsItem d p = false := by
  obtain ⟨before, after, hitems⟩ := List.append_of_mem h
  have hflatten := List.flatten_splitBy (fun _ p => !g.startsItem d p) g.positions
  have hheads := List.isChain_getLast_head_splitBy (fun _ p => !g.startsItem d p) g.positions
  rw [← items, hitems] at hflatten hheads
  cases item with
  | nil => exact absurd h (List.nil_notMem_splitBy _ _)
  | cons first rest =>
      refine ⟨before.flatten, first, rest, after.flatten, rfl, by simp [← hflatten], ?_, ?_⟩
      · intro hne
        have hbefore : before ≠ [] := by
          rintro rfl
          exact hne rfl
        obtain ⟨_, _, hstarts⟩ := (List.isChain_append.1 hheads).2.2 _
          (List.getLast_mem_getLast? hbefore) _ rfl
        simpa using hstarts
      · have hchain := List.isChain_of_mem_splitBy h
        clear * - hchain
        induction rest generalizing first with
        | nil => nofun
        | cons next rest ih =>
            rw [List.isChain_cons_cons] at hchain
            exact List.forall_mem_cons.2 ⟨by simpa using hchain.1, ih next hchain.2⟩

/-- A join stands in the item of the table that it hangs off unless an item starts behind that table
and not behind the join. -/
theorem mem_item_iff {item : List (List Nat)} (hitem : item ∈ g.items d) {p : List Nat} {k : Nat}
    (hjoin : p ++ [k] ∈ item) : p ∈ item ↔ ∀ q, g.startsItem d q = true →
      List.Shortlex (· < ·) p q → List.Shortlex (· < ·) (p ++ [k]) q := by
  obtain ⟨before, first, rest, after, rfl, hpositions, hfirst, hrest⟩ := items_spec hitem
  have hsorted := hpositions ▸ g.positions_sorted
  obtain ⟨hleft, -, hafter⟩ := List.pairwise_append.1 hsorted
  obtain ⟨-, hown, hbefore⟩ := List.pairwise_append.1 hleft
  have hhead : ∀ q ∈ rest, List.Shortlex (· < ·) first q := fun q => List.rel_of_pairwise_cons hown
  constructor
  · intro hp q hstarts hless
    have hq := hpositions ▸ startsItem_mem hstarts
    rcases List.mem_append.1 hq with hq | hq
    · rcases List.mem_append.1 hq with hq | hq
      · exact absurd hless (asymm (hbefore q hq p hp))
      · rcases List.mem_cons.1 hq with rfl | hq
        · rcases List.mem_cons.1 hp with rfl | hp
          · exact absurd hless (irrefl _)
          · exact absurd hless (asymm (hhead p hp))
        · exact absurd hstarts (by simp [hrest q hq])
    · exact hafter _ (List.mem_append_right before hjoin) q hq
  · intro hlaws
    have hp : p ∈ g.positions := parent_mem_positions
      (hpositions ▸ List.mem_append_left after (List.mem_append_right before hjoin))
    rw [hpositions] at hp
    rcases List.mem_append.1 hp with hp | hp
    · rcases List.mem_append.1 hp with hp | hp
      · -- the item starts behind the table
        have hless := hlaws first (hfirst (List.ne_nil_of_mem hp)) (hbefore p hp first (by simp))
        rcases List.mem_cons.1 hjoin with hjoin | hjoin
        · exact absurd (hjoin ▸ hless) (irrefl _)
        · exact absurd hless (asymm (hhead _ hjoin))
      · exact hp
    · have hless := hafter _ (List.mem_append_right before hjoin) p hp
      simp only [List.shortlex_def, List.length_append, List.length_singleton] at hless
      omega

end TableGroup

namespace Render

open Output.Layers (reading)

/-- The tables of a `from` clause are read root by root and, within a root, in their level order,
where an item starts with each cross join that a comma is written for. A join stands in the item of
the table that it hangs off unless such a cross join stands behind that table and not behind the
join. -/
theorem fromClause_items (d : Dialect) (roots : List TableGroup) (hne : roots ≠ [])
    (hok : (fromClause d (tableGroups d roots)).failure = none) :
    (fromClause d (tableGroups d roots)).fromItems =
      roots.flatMap (fun g => (g.items d).map fun item => item.flatMap (g.tableText d)) ∧
    ∀ g ∈ roots, (g.items d).flatten = [] :: g.levelOrder.map Prod.fst ∧
      ∀ item ∈ g.items d, ∀ p k, p ++ [k] ∈ item →
        (p ∈ item ↔ ∀ q, g.startsItem d q = true →
          List.Shortlex (· < ·) p q → List.Shortlex (· < ·) (p ++ [k]) q) := by
  refine ⟨?_, fun g _ => ⟨List.flatten_splitBy _ _, fun item hitem p k =>
    TableGroup.mem_item_iff hitem⟩⟩
  have hgroups : ∀ o ∈ tableGroups d roots, o.Within Lexeme.ofQuery := fun o ho =>
    reading.query_of_source (reading.tableGroupsHold d roots o ho)
  have hnonempty : tableGroups d roots ≠ [] := by simpa [tableGroups_eq_map] using hne
  have hfrom : fromClause d (tableGroups d roots) = .word " from " ++ .list (tableGroups d roots) :=
    if_neg (by simpa using hnonempty)
  rw [hfrom] at hok
  have hlist := (Output.failure_append_eq_none.1 hok).2
  have hwithin : (Output.list (tableGroups d roots)).Within Lexeme.ofQuery :=
    reading.ofQuery.joined rfl hgroups
  have htail : (Output.word " from " ++ .list (tableGroups d roots)).parts.tail =
      (Output.list (tableGroups d roots)).parts := by
    rw [Output.parts_append (reading.ofQuery.fixed " from " rfl) hwithin hok,
      Output.parts_word (by decide)]
    rfl
  rw [hfrom, Output.fromItems, htail, Output.splitOn_parts_list hnonempty hgroups hlist,
    tableGroups_eq_map, List.flatMap_map]
  refine List.flatMap_congr fun g hg => TableGroup.splitOn_parts_tableGroup ?_
  rw [tableGroups_eq_map] at hlist
  exact (Output.failure_joined_eq_none _ _).1 hlist _ (List.mem_map_of_mem hg)

/-- The condition of `c` refers to `a`, and `a` is in another item. -/
theorem fromClause_items_cross :
    let table (name : String) (joins : List TableJoin) : TableGroup :=
      ⟨.named ⟨none, name⟩, none, joins⟩
    let b : TableJoin := ⟨.cross, table "b" [], none, false⟩
    let c : TableJoin := ⟨.inner, table "c" [],
      some (.comparison (.column (some "c") "a_id") .equal (.column (some "a") "id")), false⟩
    let a := table "a" [b, c]
    (fromClause .timesten (tableGroups .timesten [a])).failure = none ∧
      (fromClause .timesten (tableGroups .timesten [a])).fromItems =
        [a.tableText .timesten [], a.tableText .timesten [0] ++ a.tableText .timesten [1]] ∧
      ∃ item ∈ a.items .timesten, [] ++ [1] ∈ item ∧ [] ∉ item := by
  intro table b c a
  have hok : (fromClause .timesten (tableGroups .timesten [a])).failure = none := by cbv
  have horder : a.levelOrder = [([0], b), ([1], c)] := by
    simp [TableGroup.levelOrder, TableJoin.placed, mergeLevels, table, a, b, c]
  have hitems : a.items .timesten = [[[]], [[0], [1]]] := by
    rw [TableGroup.items, TableGroup.positions, horder]
    rfl
  obtain ⟨hread, hscope⟩ := fromClause_items .timesten [a] (by simp) hok
  refine ⟨hok, by simp [hread, hitems], [[0], [1]], by simp [hitems], by simp, fun hmem => ?_⟩
  have hlater := ((hscope a (by simp)).2 [[0], [1]] (by simp [hitems]) [] 1 (by simp)).1 hmem [0]
    rfl (by simp [List.shortlex_def])
  simp [List.shortlex_def] at hlater

end Render

end DialectSql
