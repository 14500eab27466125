import DialectSql.Proofs.Live.Query
import Mathlib.Data.List.Shortlex

namespace DialectSql

/-- A join with its position in a join tree: its place among its siblings, behind the position of the
join that its siblings hang off. -/
abbrev PlacedJoin := List Nat × TableJoin

namespace TableJoin

/-- The join at a position. -/
def at? : List TableJoin → List Nat → Option TableJoin
  | _, [] => none
  | js, k :: p => js[k]?.bind fun j => if p = [] then some j else at? j.joined.joins p

/-- The joins of each depth with their positions, where the first of the list has place `i`. -/
def placed (i : Nat) : List TableJoin → List (List PlacedJoin)
  | [] => []
  | j@⟨_, ⟨_, _, joins⟩, _, _⟩ :: js =>
      Render.mergeLevels ([([i], j)] :: (placed 0 joins).map (List.map (Prod.map (i :: ·) id)))
        (placed (i + 1) js)

variable {i : Nat} {js : List TableJoin}

theorem forest_cons (j : TableJoin) (js : List TableJoin) :
    forest (j :: js) = .node j (forest j.joined.joins) :: forest js := by
  obtain ⟨type, ⟨reference, label, joins⟩, p, lateral⟩ := j
  rw [forest]

theorem forest_append (js ks : List TableJoin) : forest (js ++ ks) = forest js ++ forest ks := by
  induction js with
  | nil => rw [List.nil_append, forest, List.nil_append]
  | cons j js ih => rw [List.cons_append, forest_cons, forest_cons, ih, List.cons_append]

theorem map_placed (i : Nat) (js : List TableJoin) :
    (placed i js).map (List.map Prod.snd) = JoinTree.levels (forest js) := by
  fun_induction placed i js with
  | case1 i => rw [forest, JoinTree.levels, List.map_nil]
  | case2 i type reference label joins p lateral js ihjoins ihrest =>
      rw [forest, JoinTree.levels, Render.map_mergeLevels, ihrest, ← ihjoins, List.map_cons,
        List.map_map]
      simp [Function.comp_def]

theorem at?_cons (j : TableJoin) (js : List TableJoin) (k : Nat) (p : List Nat) :
    at? (j :: js) (k :: p) = match k with
      | 0 => if p = [] then some j else at? j.joined.joins p
      | k + 1 => at? js (k :: p) := by
  cases k <;> simp [at?]

theorem mem_placed (i : Nat) (js : List TableJoin) (p : List Nat) (j : TableJoin) :
    (p, j) ∈ (placed i js).flatten ↔ ∃ k q, p = (i + k) :: q ∧ at? js (k :: q) = some j := by
  fun_induction placed i js generalizing p j with
  | case1 i => simp [at?]
  | case2 i type reference label joins c lateral js hown hrest =>
      simp only [Nat.zero_add] at hown
      rw [Output.Layers.mem_mergeLevels, hrest, List.flatten_cons, ← List.map_flatten]
      simp only [List.singleton_append, List.mem_cons, Prod.mk.injEq, List.mem_map, Prod.exists,
        Prod.map_apply, id_eq, hown, at?_cons]
      constructor
      · rintro ((⟨rfl, rfl⟩ | ⟨q, j, ⟨k, r, rfl, h⟩, rfl, rfl⟩) | ⟨k, q, rfl, h⟩)
        · exact ⟨0, [], rfl, by simp⟩
        · exact ⟨0, k :: r, rfl, by simpa using h⟩
        · exact ⟨k + 1, q, by rw [Nat.add_assoc, Nat.add_comm 1], h⟩
      · rintro ⟨k, q, rfl, h⟩
        cases k with
        | zero =>
            cases q with
            | nil => exact .inl (.inl ⟨rfl, by simpa [eq_comm] using h⟩)
            | cons k r => exact .inl (.inr ⟨k :: r, j, ⟨k, r, rfl, by simpa using h⟩, rfl, rfl⟩)
        | succ k => exact .inr ⟨k, q, by rw [Nat.add_assoc, Nat.add_comm 1], h⟩

/-- Levels whose positions have the lengths `n`, `n + 1` and so on, each in the order of its
positions. -/
inductive Graded : Nat → List (List PlacedJoin) → Prop
  | nil (n : Nat) : Graded n []
  | cons {n : Nat} {level : List PlacedJoin} {levels : List (List PlacedJoin)}
      (length : ∀ x ∈ level, x.1.length = n)
      (sorted : level.Pairwise fun x y => List.Lex (· < ·) x.1 y.1) (rest : Graded (n + 1) levels) :
      Graded n (level :: levels)

namespace Graded

theorem le_length {n : Nat} {levels : List (List PlacedJoin)} (h : Graded n levels) :
    ∀ x ∈ levels.flatten, n ≤ x.1.length := by
  induction h with
  | nil => nofun
  | cons hlength _ _ ih =>
      intro x hx
      rcases List.mem_append.1 hx with hx | hx
      · exact (hlength x hx).ge
      · exact Nat.le_of_succ_le (ih x hx)

/-- One level after another, positions are in the order by length and then by place. -/
theorem pairwise {n : Nat} {levels : List (List PlacedJoin)} (h : Graded n levels) :
    levels.flatten.Pairwise fun x y => List.Shortlex (· < ·) x.1 y.1 := by
  induction h with
  | nil => exact .nil
  | cons hlength hsorted hrest ih =>
      refine List.pairwise_append.2 ⟨?_, ih, fun x hx y hy => ?_⟩
      · exact hsorted.imp_of_mem fun hx hy hlex =>
          .of_lex ((hlength _ hx).trans (hlength _ hy).symm) hlex
      · exact .of_length_lt (Nat.lt_of_lt_of_le (Nat.lt_succ_of_le (hlength x hx).le)
          (hrest.le_length y hy))

theorem beneath {n : Nat} {levels : List (List PlacedJoin)} (h : Graded n levels) (i : Nat) :
    Graded (n + 1) (levels.map (List.map (Prod.map (i :: ·) id))) := by
  induction h with
  | nil => exact .nil _
  | cons hlength hsorted _ ih =>
      refine .cons ?_ ?_ ih
      · rintro x hx
        obtain ⟨y, hy, rfl⟩ := List.mem_map.1 hx
        exact congrArg (· + 1) (hlength y hy)
      · exact List.pairwise_map.2 (hsorted.imp fun hlex => .cons hlex)

theorem mergeLevels {n : Nat} {as bs : List (List PlacedJoin)} (ha : Graded n as) (hb : Graded n bs)
    (hlex : ∀ x ∈ as.flatten, ∀ y ∈ bs.flatten, List.Lex (· < ·) x.1 y.1) :
    Graded n (Render.mergeLevels as bs) := by
  induction ha generalizing bs with
  | nil => rwa [Render.mergeLevels]
  | cons hlength hsorted hrest ih =>
      cases hb with
      | nil => exact .cons hlength hsorted hrest
      | cons hlength' hsorted' hrest' =>
          simp only [List.flatten_cons, List.forall_mem_append] at hlex
          refine .cons (List.forall_mem_append.2 ⟨hlength, hlength'⟩)
            (List.pairwise_append.2 ⟨hsorted, hsorted', fun x hx y hy => (hlex.1 x hx).1 y hy⟩) ?_
          exact ih hrest' fun x hx y hy => (hlex.2 x hx).2 y hy

end Graded

theorem graded_placed (i : Nat) (js : List TableJoin) : Graded 1 (placed i js) := by
  fun_induction placed i js with
  | case1 i => exact .nil 1
  | case2 i type reference label joins p lateral js ihjoins ihrest =>
      refine Graded.mergeLevels (.cons (by simp) (List.pairwise_singleton ..) (ihjoins.beneath i))
        ihrest fun x hx y hy => ?_
      -- all positions on the left begin with `i`, and all on the right with a greater number
      obtain ⟨q, hq⟩ : ∃ q, x.1 = i :: q := by
        rw [List.flatten_cons, ← List.map_flatten, List.mem_append, List.mem_singleton,
          List.mem_map] at hx
        obtain rfl | ⟨z, -, rfl⟩ := hx
        · exact ⟨[], rfl⟩
        · exact ⟨z.1, rfl⟩
      obtain ⟨k, r, hr, -⟩ := (mem_placed (i + 1) js y.1 y.2).1 hy
      rw [hq, hr]
      exact .rel (by omega)

theorem at?_append {p : List Nat} (hp : p ≠ []) {k : Nat} {j : TableJoin} {js : List TableJoin}
    (h : at? js (p ++ [k]) = some j) :
    ∃ parent, at? js p = some parent ∧ parent.joined.joins[k]? = some j := by
  induction p generalizing js with
  | nil => exact absurd rfl hp
  | cons i p ih =>
      rw [List.cons_append, at?, Option.bind_eq_some_iff] at h
      obtain ⟨own, hown, h⟩ := h
      rw [if_neg (by simp)] at h
      rw [at?, hown, Option.bind_some]
      by_cases hp : p = []
      · subst hp
        exact ⟨own, rfl, by simpa [at?, Option.bind_eq_some_iff] using h⟩
      · rw [if_neg hp]
        exact ih hp h

end TableJoin

/-- The joins of a table in an order in which each stands once, those of lesser depth before those of
greater depth, and those of one depth in the order of their positions. -/
structure LevelOrder (g : TableGroup) (order : List PlacedJoin) : Prop where
  mem_iff : ∀ p j, (p, j) ∈ order ↔ TableJoin.at? g.joins p = some j
  sorted : order.Pairwise fun x y => List.Shortlex (· < ·) x.1 y.1

/-- A join stands behind the join that it hangs off. -/
theorem LevelOrder.parent_mem {g : TableGroup} {before after : List PlacedJoin} {p : List Nat}
    {k : Nat} {j : TableJoin} (h : LevelOrder g (before ++ (p ++ [k], j) :: after)) (hp : p ≠ []) :
    ∃ parent, (p, parent) ∈ before ∧ parent.joined.joins[k]? = some j := by
  obtain ⟨parent, hat, hjoin⟩ := TableJoin.at?_append hp ((h.mem_iff (p ++ [k]) j).1 (by simp))
  refine ⟨parent, ?_, hjoin⟩
  rcases List.mem_append.1 ((h.mem_iff p parent).2 hat) with hmem | hmem
  · exact hmem
  · -- what does not stand in front of the join has a position that is at least as long
    rcases List.mem_cons.1 hmem with hmem | hmem
    · simp at hmem
    · have hless := List.rel_of_pairwise_cons (List.pairwise_append.1 h.sorted).2.1 hmem
      simp only [List.shortlex_def, List.length_append, List.length_singleton] at hless
      omega

def TableGroup.levelOrder (g : TableGroup) : List PlacedJoin := (TableJoin.placed 0 g.joins).flatten

namespace TableGroup

variable (g : TableGroup)

theorem levelOrder_spec : LevelOrder g g.levelOrder where
  mem_iff p j := by
    rw [levelOrder, TableJoin.mem_placed]
    simp only [Nat.zero_add]
    constructor
    · rintro ⟨k, q, rfl, h⟩
      exact h
    · intro h
      cases p with
      | nil => simp [TableJoin.at?] at h
      | cons k q => exact ⟨k, q, rfl, h⟩
  sorted := (TableJoin.graded_placed 0 g.joins).pairwise

/-- The queue hands the joins out in their level order. -/
theorem queue_eq : g.queue = g.levelOrder.map Prod.snd := by
  rw [queue, JoinTree.breadthFirst_eq_flatten_levels, ← TableJoin.map_placed 0, levelOrder,
    List.map_flatten]

theorem tableGroup_eq (d : Dialect) : Render.tableGroup d g =
    Render.tableReference d g.label g.reference ++
      .concat (g.queue.map (Session.joinOutput d)) := by
  rw [queue, JoinTree.breadthFirst_eq_flatten_levels, List.map_flatten, levels_forest]
  cases g
  rw [Render.tableGroup]

end TableGroup

/-- The joins of one table while they are rendered: those collected so far, how many of them were
taken, and the text. -/
structure JoinLoop where
  collected : List TableJoin
  next : Nat
  output : Output

namespace JoinLoop

variable (d : Dialect)

def start (g : TableGroup) : JoinLoop :=
  ⟨(Session.pendingJoins (.tableGroup g)).getD [], 0, Render.tableReference d g.label g.reference⟩

/-- Takes the next join and collects the joins that hang off its table. There is no step when all
that were collected are taken, or after an error. -/
def step? (l : JoinLoop) : Option JoinLoop :=
  if l.output.failure.isSome then none
  else l.collected[l.next]?.map fun j =>
    ⟨l.collected ++ (Session.pendingJoins (.join j)).getD [], l.next + 1,
      l.output ++ Session.joinOutput d j⟩

def run? : Nat → JoinLoop → Option JoinLoop
  | 0, l => some l
  | n + 1, l => (l.step? d).bind (run? n)

/-- The loop ends with the given joins rendered, one in each step, unless an error stops it. -/
def Renders (l : JoinLoop) (joins : List TableJoin) : Prop :=
  ∃ n ≤ joins.length, ∃ last, run? d n l = some last ∧ last.step? d = none ∧
    last.output = l.output ++ .concat (joins.map (Session.joinOutput d)) ∧
    (last.output.failure = none →
      n = joins.length ∧ last.collected = l.collected.take l.next ++ joins)

variable {d}

theorem renders_nil {l : JoinLoop} (h : l.collected.length = l.next) : l.Renders d [] := by
  refine ⟨0, Nat.zero_le _, l, rfl, ?_, by simp [Output.concat], fun _ => ⟨rfl, ?_⟩⟩
  · simp [step?, h]
  · rw [← h, List.take_length, List.append_nil]

theorem renders_of_failure {l : JoinLoop} (joins : List TableJoin)
    (h : l.output.failure.isSome = true) : l.Renders d joins := by
  obtain ⟨e, he⟩ := Option.isSome_iff_exists.1 h
  refine ⟨0, Nat.zero_le _, l, rfl, by simp [step?, he], (Output.append_of_failure he _).symm, ?_⟩
  simp [he]

theorem Renders.step {l : JoinLoop} {j : TableJoin} {joins : List TableJoin}
    (hj : l.collected[l.next]? = some j)
    (h : Renders d ⟨l.collected ++ j.joined.joins, l.next + 1, l.output ++ Session.joinOutput d j⟩
      joins) : l.Renders d (j :: joins) := by
  by_cases hfailure : l.output.failure.isSome = true
  · exact renders_of_failure _ hfailure
  obtain ⟨n, hn, last, hrun, hlast, houtput, hend⟩ := h
  have hstep : l.step? d =
      some ⟨l.collected ++ j.joined.joins, l.next + 1, l.output ++ Session.joinOutput d j⟩ := by
    rw [step?, if_neg hfailure, hj]
    rfl
  have htake : (l.collected ++ j.joined.joins).take (l.next + 1) = l.collected.take l.next ++ [j] := by
    obtain ⟨hlt, -⟩ := List.getElem?_eq_some_iff.1 hj
    rw [List.take_append_of_le_length hlt, List.take_add_one, hj, Option.toList_some]
  refine ⟨n + 1, Nat.succ_le_succ hn, last, ?_, hlast, ?_, fun hok => ?_⟩
  · rw [run?, hstep, Option.bind_some, hrun]
  · rw [houtput, Output.append_assoc]
    rfl
  · obtain ⟨rfl, hcollected⟩ := hend hok
    exact ⟨rfl, by rw [hcollected, htake, List.append_assoc, List.singleton_append]⟩

/-- What was collected and not taken yet is a queue. -/
theorem renders_queue (done rest : List TableJoin) (o : Output) :
    Renders d ⟨done ++ rest, done.length, o⟩ (JoinTree.breadthFirst (TableJoin.forest rest)) := by
  -- the loop takes joins from a list, and the search that it follows takes trees from a queue
  induction h : TableJoin.forest rest using JoinTree.breadthFirst.induct
    generalizing done rest o with
  | case1 =>
      cases rest with
      | nil =>
          rw [JoinTree.breadthFirst]
          exact renders_nil (by simp)
      | cons j rest => simp [TableJoin.forest_cons] at h
  | case2 j children queue ih =>
      cases rest with
      | nil => simp [TableJoin.forest] at h
      | cons k rest =>
          rw [TableJoin.forest_cons] at h
          obtain ⟨⟨rfl, rfl⟩, rfl⟩ : (k = j ∧ TableJoin.forest k.joined.joins = children) ∧
              TableJoin.forest rest = queue := by simpa using h
          rw [JoinTree.breadthFirst]
          refine Renders.step (by simp) ?_
          have hrest := ih (done ++ [k]) (rest ++ k.joined.joins) (o ++ Session.joinOutput d k)
            (TableJoin.forest_append rest k.joined.joins)
          simpa using hrest

theorem renders_tableGroup (g : TableGroup) : (start d g).Renders d g.queue :=
  renders_queue [] g.joins _

end JoinLoop

namespace Render

/-- The tables of a `from` clause are rendered root by root. The joins of a root follow it in their
level order, each once. The loop that renders them ends after one step for each join, or at the
first error. -/
theorem fromClause_levelOrder (d : Dialect) (roots : List TableGroup) :
    fromClause d (tableGroups d roots) = fromClause d (roots.map fun g =>
      tableReference d g.label g.reference ++
        .concat (g.levelOrder.map fun x => Session.joinOutput d x.2)) ∧
    ∀ g ∈ roots, LevelOrder g g.levelOrder ∧
      (∀ before p k j after, g.levelOrder = before ++ (p ++ [k], j) :: after → p ≠ [] →
        ∃ parent, (p, parent) ∈ before ∧ parent.joined.joins[k]? = some j) ∧
      ∃ n ≤ g.levelOrder.length, ∃ last,
        JoinLoop.run? d n (.start d g) = some last ∧ last.step? d = none ∧
          last.output = tableGroup d g ∧
          ((tableGroup d g).failure = none →
            n = g.levelOrder.length ∧ last.collected = g.levelOrder.map Prod.snd) := by
  refine ⟨?_, fun g _ => ⟨g.levelOrder_spec, ?_, ?_⟩⟩
  · rw [tableGroups_eq_map]
    refine congrArg _ (List.map_congr_left fun g _ => ?_)
    rw [g.tableGroup_eq, g.queue_eq, List.map_map]
    rfl
  · intro before p k j after heq hp
    exact (heq ▸ g.levelOrder_spec).parent_mem hp
  · obtain ⟨n, hn, last, hrun, hlast, houtput, hend⟩ := JoinLoop.renders_tableGroup (d := d) g
    rw [g.queue_eq, List.length_map] at hn hend
    have htext : last.output = tableGroup d g := by rw [houtput, g.tableGroup_eq]; rfl
    refine ⟨n, hn, last, hrun, hlast, htext, fun hok => ?_⟩
    obtain ⟨hsteps, hcollected⟩ := hend (htext ▸ hok)
    exact ⟨hsteps, by simpa [JoinLoop.start] using hcollected⟩

theorem fromClause_levelOrder_nested :
    let table (name : String) (joins : List TableJoin) : TableGroup :=
      ⟨.named ⟨none, name⟩, none, joins⟩
    let c : TableJoin := ⟨.cross, table "c" [], none, false⟩
    let b : TableJoin := ⟨.cross, table "b" [c], none, false⟩
    let e : TableJoin := ⟨.cross, table "e" [], none, false⟩
    (table "a" [b, e]).levelOrder = [([0], b), ([1], e), ([0, 0], c)] ∧
      fromClause .timesten (tableGroups .timesten [table "a" [b, e]]) =
        fromClause .timesten [tableReference .timesten none (.named ⟨none, "a"⟩) ++
          .concat ([b, e, c].map (Session.joinOutput .timesten))] := by
  intro table c b e
  have horder : (table "a" [b, e]).levelOrder = [([0], b), ([1], e), ([0, 0], c)] := by
    simp [TableGroup.levelOrder, TableJoin.placed, mergeLevels, table, b, c, e]
  refine ⟨horder, (fromClause_levelOrder .timesten [table "a" [b, e]]).1.trans ?_⟩
  rw [List.map_singleton, horder]
  rfl

end Render

end DialectSql
