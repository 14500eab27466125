import DialectSql.Proofs.Live.Execution
import DialectSql.Proofs.Rendered.Size

namespace DialectSql

/-- The size of a list of expressions, that of the list itself left out. -/
noncomputable def Expr.total : List Expr → Nat
  | [] => 0
  | e :: es => sizeOf e + total es

namespace Expr

theorem total_cons (e : Expr) (es : List Expr) : total (e :: es) = sizeOf e + total es := rfl

theorem sizeOf_le_total {e : Expr} {es : List Expr} (h : e ∈ es) : sizeOf e ≤ total es := by
  induction es with
  | nil => cases h
  | cons x xs ih =>
      rw [total_cons]
      obtain rfl | h := List.mem_cons.1 h
      · omega
      · have hxs := ih h
        omega

theorem total_le_sizeOf (es : List Expr) : total es < sizeOf es := by
  induction es with
  | nil => simp [total]
  | cons e es ih =>
      rw [total_cons, List.cons.sizeOf_spec]
      omega

theorem total_elements (e : Expr) : total e.elements ≤ sizeOf e := by
  cases e with
  | tuple es =>
      have hes := total_le_sizeOf es
      simp only [elements, tuple.sizeOf_spec]
      omega
  | _ => exact le_of_eq (Nat.add_zero _)

theorem total_elements_lt {e : Expr} (h : e.isTuple = true) : total e.elements < sizeOf e := by
  obtain ⟨es, rfl⟩ := eq_tuple h
  have hes := total_le_sizeOf es
  simp only [elements, tuple.sizeOf_spec]
  omega

theorem total_columns (ss : List Selection) : total (ss.map (·.expr)) < sizeOf ss := by
  induction ss with
  | nil => simp [total]
  | cons s ss ih =>
      obtain ⟨e, label⟩ := s
      simp only [List.map_cons, total_cons, List.cons.sizeOf_spec, Selection.mk.sizeOf_spec]
      omega

end Expr

open DialectSql.Expr (total)

namespace RenderCall

/-- The size of what a call renders. -/
noncomputable def size (s : Session) : RenderCall → Nat
  | expression e | partitionItem _ e => sizeOf e
  | predicate p => sizeOf p
  | expressions es | summarization _ es => total es
  | sortKeys keys => sizeOf keys
  | rowsTo offset fetch _ => sizeOf offset + sizeOf fetch
  | query q | nestedQuery q => sizeOf q
  | selections c viaDialect =>
    sizeOf c.selections +
      if viaDialect then
        s.currentSpec.elim 0 fun spec => sizeOf spec.offset + sizeOf spec.fetch
      else 0
  | rowLimit q _ => sizeOf q.offset + sizeOf q.fetch
  | upperBound _ fetch offset _ => sizeOf fetch + sizeOf offset
  | comparison _ l _ r => sizeOf l + sizeOf r
  | tuples ls rs _ _ => total ls + total rs
  | subqueryTuple ls q _ _ _ => total ls + sizeOf q
  | selectTuple _ ss ls _ => total (ss.map (·.expr)) + total ls
  | tableGroup g => sizeOf g
  | tableGroupOn g p => sizeOf g + sizeOf p
  | joinedGroup j p => sizeOf j.joined + sizeOf p
  | join j => sizeOf j
  | _ => 0

/-- Calls of one size, those that are made of others above those they are made of. -/
def rank : RenderCall → Nat
  | expressions _ | tuples .. | partitionItem .. | join _ => 1
  | selections _ viaDialect => if viaDialect then 1 else 0
  | summarization .. | selectTuple .. => 2
  | _ => 0

noncomputable def weight (s : Session) (c : RenderCall) : Nat := 3 * c.size s + c.rank

end RenderCall

namespace Action

mutual

/-- The calls of an action, each where it is made. -/
def Calls (P : Session → RenderCall → Prop) : Session → Action → Prop
  | _, .emit _ => True
  | s, .call c => P s c
  | s, .within q root actions => AllCalls P (s.push q root) actions

def AllCalls (P : Session → RenderCall → Prop) : Session → List Action → Prop
  | _, [] => True
  | s, a :: as => a.Calls P s ∧ AllCalls P s as

end

section

variable {P : Session → RenderCall → Prop} {s : Session}

@[simp] theorem calls_emit (o : Output) : (emit o).Calls P s = True := rfl

@[simp] theorem calls_text (w : String) : (text w).Calls P s = True := rfl

@[simp] theorem calls_fail (e : TranslateError) : (fail e).Calls P s = True := rfl

@[simp] theorem calls_call (c : RenderCall) : (call c).Calls P s = P s c := rfl

@[simp] theorem calls_expression (e : Expr) : (expression e).Calls P s = P s (.expression e) := rfl

@[simp] theorem calls_predicate (p : Predicate) : (predicate p).Calls P s = P s (.predicate p) := rfl

@[simp] theorem calls_within (q : Query) (root : Bool) (as : List Action) :
    (within q root as).Calls P s = AllCalls P (s.push q root) as := rfl

@[simp] theorem allCalls_nil : AllCalls P s [] := trivial

@[simp] theorem allCalls_cons (a : Action) (as : List Action) :
    AllCalls P s (a :: as) ↔ a.Calls P s ∧ AllCalls P s as := Iff.rfl

theorem allCalls_iff (as : List Action) : AllCalls P s as ↔ ∀ a ∈ as, a.Calls P s := by
  induction as with
  | nil => simp
  | cons a as ih => rw [allCalls_cons, ih, List.forall_mem_cons]

@[simp] theorem allCalls_append (as bs : List Action) :
    AllCalls P s (as ++ bs) ↔ AllCalls P s as ∧ AllCalls P s bs := by
  simp only [allCalls_iff, List.forall_mem_append]

@[simp] theorem allCalls_flatMap {α : Type} (l : List α) (f : α → List Action) :
    AllCalls P s (l.flatMap f) ↔ ∀ x ∈ l, AllCalls P s (f x) := by
  induction l with
  | nil => simp
  | cons x l ih => rw [List.flatMap_cons, allCalls_append, ih, List.forall_mem_cons]

@[simp] theorem allCalls_map {α : Type} (l : List α) (f : α → Action) :
    AllCalls P s (l.map f) ↔ ∀ x ∈ l, (f x).Calls P s := by
  simp only [allCalls_iff, List.forall_mem_map]

@[simp] theorem allCalls_when (condition : Bool) (as : List Action) :
    AllCalls P s (when condition as) ↔ (condition = true → AllCalls P s as) := by
  cases condition <;> simp [when]

@[simp] theorem allCalls_parenthesized (as : List Action) :
    AllCalls P s (parenthesized as) ↔ AllCalls P s as := by
  simp [parenthesized]

@[simp] theorem allCalls_wrap (condition : Bool) (as : List Action) :
    AllCalls P s (wrap condition as) ↔ AllCalls P s as := by
  cases condition <;> simp [wrap]

@[simp] theorem allCalls_separated (separator : String) (rows : List (List Action)) :
    AllCalls P s (separated separator rows) ↔ ∀ as ∈ rows, AllCalls P s as := by
  fun_induction separated separator rows with
  | case1 => simp
  | case2 as => simp
  | case3 as bs rest ih => simp only [allCalls_append, allCalls_cons, calls_text, true_and, ih,
      List.forall_mem_cons]

@[simp] theorem allCalls_nested (q : Query) :
    AllCalls P s (nested q) ↔ P s (.nestedQuery q) := by
  simp [nested]

@[simp] theorem allCalls_plain (l : Expr) (op : ComparisonOperator) (r : Expr) :
    AllCalls P s (plain l op r) ↔ P s (.expression l) ∧ P s (.expression r) := by
  simp [plain]

@[simp] theorem allCalls_nullTest (e : Expr) (negated : Bool) :
    AllCalls P s (nullTest e negated) ↔ P s (.expression e) := by
  simp [nullTest]

theorem allCalls_distinctByNullTests {l r : Expr} (op : ComparisonOperator)
    (hl : P s (.expression l)) (hr : P s (.expression r)) :
    AllCalls P s (distinctByNullTests l op r) := by
  by_cases hop : op = .distinct <;> simp [distinctByNullTests, hop, hl, hr]

theorem allCalls_lexicographic (op : ComparisonOperator) {ls rs : List Expr}
    (hl : ∀ l ∈ ls, P s (.expression l)) (hr : ∀ r ∈ rs, P s (.expression r)) :
    AllCalls P s (lexicographic op ls rs) := by
  fun_induction lexicographic op ls rs with
  | case1 l r rs => simp_all
  | case2 l ls r rs hne ih => simp_all
  | case3 => simp

/-- The two forms of an ordering make the same calls. -/
theorem allCalls_leadingBound (op : ComparisonOperator) (ls rs : List Expr) :
    AllCalls P s (leadingBound op ls rs) ↔ AllCalls P s (lexicographic op ls rs) := by
  fun_induction leadingBound op ls rs with
  | case1 l r rs => rw [lexicographic]
  | case2 l ls r rs hne ih =>
      rw [lexicographic]
      · simp [ih]
      · exact hne
  | case3 ls rs hsingle hmore =>
      rw [lexicographic]
      · exact hsingle
      · exact hmore

end

/-- All calls weigh less than the bound. -/
abbrev Below (n : Nat) (s : Session) (as : List Action) : Prop :=
  AllCalls (fun s c => c.weight s < n) s as

section

variable {n : Nat} {s : Session}

open RenderCall (weight size rank)

theorem below_pair {l r : Expr} (h : 3 * (sizeOf l + sizeOf r) ≤ n) :
    weight s (.expression l) < n ∧ weight s (.expression r) < n := by
  have hl := l.sizeOf_pos
  have hr := r.sizeOf_pos
  simp only [weight, size, rank]
  omega

theorem below_intersection (d : Dialect) {l r : Expr} (op : ComparisonOperator)
    (h : 3 * (sizeOf l + sizeOf r) ≤ n) : Below n s (intersection d l.elements op r.elements) := by
  have hl := l.sizeOf_pos
  have hr := r.sizeOf_pos
  have hls := l.total_elements
  have hrs := r.total_elements
  rw [intersection]
  cases d.capabilities.dualTable with
  | none => simp
  | some dual =>
      simp [weight, size, rank]
      omega

theorem below_subqueryTuple {l r : Expr} {q : Query} (hq : sizeOf q < sizeOf r)
    (h : 3 * (sizeOf l + sizeOf r) ≤ n) (op : ComparisonOperator) (quantifier : Quantifier)
    (negated : Bool) :
    weight s (.subqueryTuple l.elements q op quantifier negated) < n := by
  have hls := l.total_elements
  simp only [weight, size, rank]
  omega

theorem below_standard (d : Dialect) {l r : Expr} (op : ComparisonOperator)
    (h : 3 * (sizeOf l + sizeOf r) ≤ n) : Below n s (standard d l op r) := by
  have hplain : Below n s (plain l op r) := (allCalls_plain l op r).2 (below_pair h)
  by_cases hscalar : r.isScalar = true
  · rw [standard_scalar d l op hscalar]
    split
    · simp
    split
    · exact allCalls_distinctByNullTests op (below_pair h).1 (below_pair h).2
    · exact hplain
  · cases r with
    | tuple rs =>
        rw [standard]
        split
        · rename_i hl
          refine ⟨trivial, ?_⟩
          split
          · exact hplain
          · refine ⟨?_, trivial⟩
            have hls := Expr.total_elements_lt hl
            have hrs := Expr.total_le_sizeOf rs
            rw [Expr.tuple.sizeOf_spec] at h
            simp only [calls_call, weight, size, rank]
            omega
        · simp
    | subquery q =>
        rw [standard]
        split
        · exact ⟨below_subqueryTuple (by simp) h op .any false, trivial⟩
        · exact hplain
    | quantified quantifier q =>
        rw [standard]
        split
        · exact ⟨below_subqueryTuple (by simp) h op quantifier false, trivial⟩
        · exact hplain
    | _ => exact absurd rfl hscalar

theorem below_comparison (d : Dialect) (rule : ComparisonRule) {l r : Expr}
    (op : ComparisonOperator) (h : 3 * (sizeOf l + sizeOf r) ≤ n) :
    Below n s (comparison d rule l op r) := by
  cases rule with
  | standard => exact below_standard d op h
  | intersect =>
      rw [comparison]
      split
      · exact below_intersection d op h
      · exact below_standard d op h
  | lexicographic =>
      rw [comparison]
      split
      · rename_i htuples
        obtain ⟨hl, hr⟩ := Bool.and_eq_true_iff.1 htuples
        have hls := Expr.total_elements_lt hl
        have hrs := Expr.total_elements_lt hr
        refine ⟨?_, trivial⟩
        simp only [calls_call, weight, size, rank]
        omega
      · exact below_standard d op h

theorem below_tuples {ls rs : List Expr} (op : ComparisonOperator) (bounded : Bool)
    (h : 3 * (total ls + total rs) < n) : Below n s (tuples ls rs op bounded) := by
  have hl (l : Expr) (hmem : l ∈ ls) : weight s (.expression l) < n := by
    have hsize := Expr.sizeOf_le_total hmem
    simp only [weight, size, rank]
    omega
  have hr (r : Expr) (hmem : r ∈ rs) : weight s (.expression r) < n := by
    have hsize := Expr.sizeOf_le_total hmem
    simp only [weight, size, rank]
    omega
  have hpairs (p : Expr × Expr) (hmem : p ∈ ls.zip rs) :
      weight s (.comparison none p.1 op p.2) < n := by
    have hleft := Expr.sizeOf_le_total (List.of_mem_zip hmem).1
    have hright := Expr.sizeOf_le_total (List.of_mem_zip hmem).2
    simp only [weight, size, rank]
    omega
  have hplains : ∀ as ∈ (ls.zip rs).map fun p => plain p.1 op p.2, Below n s as := by
    simp only [List.forall_mem_map, allCalls_plain]
    exact fun p hmem => ⟨hl _ (List.of_mem_zip hmem).1, hr _ (List.of_mem_zip hmem).2⟩
  have hcomparisons : ∀ as ∈ (ls.zip rs).map fun p => [call (.comparison none p.1 op p.2)],
      Below n s as := by
    simp only [List.forall_mem_map]
    exact fun p hmem => ⟨hpairs p hmem, trivial⟩
  refine ⟨trivial, ?_⟩
  split
  · simp
  rw [allCalls_parenthesized]
  cases op with
  | equal | notEqual => exact (allCalls_separated _ _).2 hplains
  | distinct | notDistinct => exact (allCalls_separated _ _).2 hcomparisons
  | _ =>
      cases bounded with
      | true => exact (allCalls_leadingBound ..).2 (allCalls_lexicographic _ hl hr)
      | false => exact allCalls_lexicographic _ hl hr

theorem below_selectTuple (d : Dialect) (rule : SelectTupleRule) {columns tuple : List Expr}
    (op : ComparisonOperator) (h : 3 * (total columns + total tuple) + 1 < n) :
    Below n s (selectTuple d rule columns tuple op) := by
  have htuples (bounded : Bool) : Below n s [call (.tuples columns tuple op bounded)] := ⟨h, trivial⟩
  cases rule with
  | standard =>
      rw [selectTuple]
      split
      · simp only [allCalls_cons, allCalls_append, allCalls_parenthesized, calls_emit, calls_text,
          calls_call, allCalls_nil, and_true, true_and, weight, size, rank]
        omega
      · exact htuples true
  | emulate => exact htuples true
  | lexicographic => exact htuples false

theorem below_branches {branches : List WhenClause} (h : 3 * sizeOf branches ≤ n) :
    Below n s (branches.flatMap fun b =>
      [text " when ", predicate b.condition, text " then ", expression b.result]) := by
  refine (allCalls_flatMap _ _).2 fun b hb => ?_
  have hsize := List.sizeOf_lt_of_mem hb
  obtain ⟨p, e⟩ := b
  rw [WhenClause.mk.sizeOf_spec] at hsize
  simp only [allCalls_cons, calls_text, calls_predicate, calls_expression, allCalls_nil, true_and,
    and_true, weight, size, rank]
  omega

theorem below_items {items : List Expr} (h : 3 * sizeOf items ≤ n) :
    ∀ as ∈ items.map fun e => [call (.partitionItem none e)], Below n s as := by
  simp only [List.forall_mem_map]
  intro e he
  have hsize := List.sizeOf_lt_of_mem he
  refine ⟨?_, trivial⟩
  simp only [calls_call, weight, size, rank]
  omega

theorem below_case (d : Dialect) {branches : List WhenClause} {otherwise : Option Expr}
    (h : 3 * (sizeOf branches + sizeOf otherwise) ≤ n) :
    Below n s (ofExpr d (.case branches otherwise)) := by
  have hsize : 3 * sizeOf branches ≤ n := by omega
  have hbranches := below_branches (s := s) hsize
  rw [ofExpr]
  split
  · simp
  · simp only [allCalls_append, allCalls_cons, calls_text, hbranches, true_and, allCalls_nil,
      and_true]
    cases otherwise with
    | none => simp
    | some e =>
        rw [Option.some.sizeOf_spec] at h
        simp [weight, size, rank]
        omega

theorem below_windowed (d : Dialect) {f : Expr} {items : List Expr} {keys : List SortKey}
    (frame : Option WindowFrame) (h : 3 * (sizeOf f + sizeOf items + sizeOf keys) < n) :
    Below n s (ofExpr d (.windowed f items keys frame)) := by
  have hf : weight s (.expression f) < n := by
    simp only [weight, size, rank]
    omega
  have hkeys : weight s (.sortKeys keys) < n := by
    simp only [weight, size, rank]
    omega
  rw [ofExpr]
  simp only [allCalls_append, allCalls_cons, calls_text, calls_expression, hf, true_and,
    allCalls_nil, and_true, allCalls_parenthesized, allCalls_separated, List.forall_mem_append]
  refine ⟨⟨?_, ?_⟩, by simp⟩
  · split
    · simp
    · rw [List.forall_mem_singleton]
      exact ⟨trivial, (allCalls_separated _ _).2 (below_items (by omega))⟩
  · split <;> simp [hkeys]

theorem below_ofExpr (d : Dialect) {e : Expr} (h : 3 * sizeOf e ≤ n) :
    Below n s (ofExpr d e) := by
  cases e with
  | column | literal | parameter | star => exact ⟨trivial, trivial⟩
  | tuple es | function f es distinct | summarization kind es =>
      have hes := Expr.total_le_sizeOf es
      simp at h
      simp [ofExpr, weight, size, rank]
      omega
  | binary left op right =>
      simp at h
      simp [ofExpr, weight, size, rank]
      omega
  | negate e | subquery q | quantified quantifier q | cast e type =>
      simp at h
      simp [ofExpr, weight, size, rank]
      omega
  | «case» branches otherwise =>
      simp only [Expr.case.sizeOf_spec] at h
      exact below_case d (by omega)
  | windowed f items keys frame =>
      simp only [Expr.windowed.sizeOf_spec] at h
      exact below_windowed d frame (by omega)

theorem below_junction (d : Dialect) (nature : JunctionNature) {members : List Predicate}
    (h : 3 * sizeOf members ≤ n) : Below n s (ofPredicate d (.junction nature members)) := by
  have hmember (p : Predicate) (hp : p ∈ members) : weight s (.predicate p) < n := by
    have hsize := List.sizeOf_lt_of_mem hp
    simp only [weight, size, rank]
    omega
  rcases members with _ | ⟨p, _ | ⟨q, ps⟩⟩
  · exact ⟨trivial, trivial⟩
  · exact ⟨hmember p (by simp), trivial⟩
  · rw [ofPredicate]
    · refine (allCalls_separated _ _).2 (List.forall_mem_map.2 fun r hr => ?_)
      exact (allCalls_wrap _ _).2 ⟨hmember r hr, trivial⟩
    all_goals simp

theorem below_nullCheck (d : Dialect) {e : Expr} (negated : Bool) (h : 3 * sizeOf e < n) :
    Below n s (ofPredicate d (.nullCheck e negated)) := by
  rw [ofPredicate]
  split
  · refine (allCalls_parenthesized _).2 ((allCalls_separated _ _).2 (List.forall_mem_map.2 ?_))
    intro x hx
    have hsize := Expr.sizeOf_elements hx
    simp only [allCalls_nullTest, weight, size, rank]
    omega
  · simpa [weight, size, rank] using h

theorem below_inList (d : Dialect) {e : Expr} {items : List Expr} (negated : Bool)
    (h : 3 * (sizeOf e + sizeOf items) + 1 < n) :
    Below n s (ofPredicate d (.inList e items negated)) := by
  have hes := e.total_elements
  have hitems := Expr.total_le_sizeOf items
  rw [ofPredicate]
  split
  · exact ⟨trivial, trivial⟩
  refine (allCalls_append _ _).2 ⟨by simp, ?_⟩
  split
  · simp only [allCalls_append, allCalls_when, allCalls_cons, calls_text, allCalls_nil, and_true,
      implies_true, true_and, allCalls_parenthesized, allCalls_separated, List.forall_mem_map]
    intro i hi
    have hmember := List.sizeOf_lt_of_mem hi
    have his := i.total_elements
    simp only [calls_call, weight, size, rank]
    omega
  · simp only [allCalls_cons, calls_expression, calls_text, calls_call, allCalls_nil, and_true,
      true_and, weight, size, rank]
    omega

theorem below_inSubquery (d : Dialect) {e : Expr} {q : Query} (negated : Bool)
    (h : 3 * (sizeOf e + sizeOf q) < n) :
    Below n s (ofPredicate d (.inSubquery e q negated)) := by
  have hes := e.total_elements
  rw [ofPredicate]
  split <;>
    simp only [allCalls_cons, calls_expression, calls_text, calls_call, allCalls_nil, and_true,
      true_and, weight, size, rank] <;>
    omega

theorem below_between (d : Dialect) {e low high : Expr} (negated : Bool)
    (h : 3 * (sizeOf e + sizeOf low + sizeOf high) + 1 < n) :
    Below n s (ofPredicate d (.between e low high negated)) := by
  have hes := e.total_elements
  have hlow := low.total_elements
  have hhigh := high.total_elements
  rw [ofPredicate]
  split
  · simp only [allCalls_append, allCalls_when, allCalls_parenthesized, allCalls_cons, calls_emit,
      calls_text, calls_call, allCalls_nil, and_true, true_and, implies_true, weight, size, rank]
    omega
  · simp only [allCalls_cons, calls_expression, calls_text, allCalls_nil, and_true, true_and,
      weight, size, rank]
    omega

theorem below_ofPredicate (d : Dialect) {p : Predicate} (h : 3 * sizeOf p ≤ n) :
    Below n s (ofPredicate d p) := by
  cases p with
  | comparison l op r =>
      rw [Predicate.comparison.sizeOf_spec] at h
      simp only [ofPredicate, allCalls_cons, calls_call, allCalls_nil, and_true, weight, size, rank]
      omega
  | junction nature members =>
      rw [Predicate.junction.sizeOf_spec] at h
      exact below_junction d nature (by omega)
  | negated p | «exists» q negated | boolean e =>
      simp at h
      simp [ofPredicate, weight, size, rank]
      omega
  | nullCheck e negated =>
      rw [Predicate.nullCheck.sizeOf_spec] at h
      exact below_nullCheck d negated (by omega)
  | inList e items negated =>
      rw [Predicate.inList.sizeOf_spec] at h
      exact below_inList d negated (by omega)
  | inSubquery e q negated =>
      rw [Predicate.inSubquery.sizeOf_spec] at h
      exact below_inSubquery d negated (by omega)
  | between e low high negated =>
      rw [Predicate.between.sizeOf_spec] at h
      exact below_between d negated (by omega)
  | like e pattern escape negated =>
      rw [Predicate.like.sizeOf_spec] at h
      cases escape <;> simp [ofPredicate, weight, size, rank] <;> omega

theorem below_sortKey (d : Dialect) {k : SortKey} (h : 3 * sizeOf k ≤ n) :
    Below n s (sortKey d k) := by
  obtain ⟨e, direction, nulls⟩ := k
  rw [SortKey.mk.sizeOf_spec] at h
  have he : weight s (.expression e) < n := by
    simp only [weight, size, rank]
    omega
  cases nulls with
  | none => simp [sortKey, he]
  | some nulls => cases hnative : d.capabilities.nullPrecedence <;> simp [sortKey, hnative, he]

theorem below_orderBy {keys : List SortKey} (h : 3 * sizeOf keys < n) :
    Below n s (orderBy keys) := by
  rw [orderBy]
  split
  · trivial
  · simpa [weight, size, rank] using h

theorem below_partitionItem (rule : PartitionRule) {e : Expr} (h : 3 * sizeOf e < n) :
    Below n s (partitionItem rule e) := by
  have he : weight s (.expression e) < n := h
  rw [partitionItem.eq_def]
  split <;> simp [he]

theorem below_rowsTo {offset fetch : Option Expr} (kind : FetchKind)
    (h : 3 * (sizeOf offset + sizeOf fetch) ≤ n) : Below n s (rowsTo offset fetch kind) := by
  have hpositive : 0 < sizeOf offset + sizeOf fetch := by cases offset <;> simp
  rw [rowsTo.eq_def]
  split
  · trivial
  split
  · exact ⟨trivial, trivial⟩
  cases offset <;> cases fetch <;> simp at h <;> simp [weight, size, rank] <;> omega

theorem below_trailing (d : Dialect) {offset fetch : Option Expr} (kind : FetchKind)
    (h : 3 * (sizeOf offset + sizeOf fetch) ≤ n) : Below n s (trailing d offset fetch kind) := by
  rw [trailing.eq_def]
  cases d.capabilities.rowLimit <;> cases offset <;> cases fetch <;> simp at h <;>
    simp [weight, size, rank] <;> omega

theorem below_upperBound (rule : UpperBoundRule) {fetch : Expr} {offset : Option Expr}
    (extra : Int64) (h : 3 * (sizeOf fetch + sizeOf offset) ≤ n) :
    Below n s (upperBound rule fetch offset extra) := by
  cases rule <;> cases offset <;> simp at h <;> simp [upperBound, weight, size, rank] <;> omega

theorem below_tableReference (label : Option String) {t : TableReference}
    (h : 3 * sizeOf t ≤ n) : Below n s (tableReference label t) := by
  cases t with
  | named t => exact ⟨trivial, trivial⟩
  | derived q columns =>
      rw [TableReference.derived.sizeOf_spec] at h
      simp [tableReference, weight, size, rank]
      omega

end

end Action

theorem TableJoin.sizeOf_levels {j : TableJoin} {js : List TableJoin}
    (h : j ∈ (JoinTree.levels (forest js)).flatten) : sizeOf j < sizeOf js := by
  match js with
  | [] => simp [forest, JoinTree.levels] at h
  | ⟨type, ⟨reference, label, joins⟩, p, lateral⟩ :: js =>
      rw [forest, JoinTree.levels, Output.Layers.mem_mergeLevels, List.flatten_cons,
        List.mem_append, List.mem_singleton] at h
      simp only [List.cons.sizeOf_spec, mk.sizeOf_spec, TableGroup.mk.sizeOf_spec]
      rcases h with (rfl | h) | h
      · simp only [mk.sizeOf_spec, TableGroup.mk.sizeOf_spec]
        omega
      · have hjoins := sizeOf_levels h
        omega
      · have hrest := sizeOf_levels h
        omega

theorem TableGroup.sizeOf_queue {g : TableGroup} {j : TableJoin} (h : j ∈ g.queue) :
    sizeOf j < sizeOf g := by
  rw [queue, JoinTree.breadthFirst_eq_flatten_levels] at h
  have hjoins := TableJoin.sizeOf_levels h
  obtain ⟨reference, label, joins⟩ := g
  rw [mk.sizeOf_spec]
  dsimp only at hjoins
  omega

/-- The condition that a join is given where it has none is no larger than the join. -/
theorem TableJoin.sizeOf_condition (d : Dialect) (j : TableJoin) :
    sizeOf j.joined + sizeOf (j.condition d) ≤ sizeOf j := by
  obtain ⟨type, joined, p, lateral⟩ := j
  have htype : sizeOf type = 1 := by cases type <;> rfl
  have hlateral : sizeOf lateral = 1 := by cases lateral <;> rfl
  have hgiven : sizeOf (if d.strategies.join = .standard ∨ lateral then
      some Predicate.alwaysTrue else none) ≤ 4 := by
    split <;> simp [Predicate.alwaysTrue, Predicate.conjunction]
  rw [condition, mk.sizeOf_spec]
  split
  · simp
    omega
  cases p with
  | none =>
      dsimp only [Option.filter]
      simp only [Option.none.sizeOf_spec]
      omega
  | some p =>
      cases hp : p.isEmpty with
      | false =>
          simp [Option.filter, hp]
          omega
      | true =>
          simp only [Option.filter, hp]
          simp
          omega

namespace Action

section

variable {n : Nat} {s : Session}

open RenderCall (weight size rank)

theorem below_join (d : Dialect) {j : TableJoin} (h : 3 * sizeOf j < n) :
    Below n s (join d j) := by
  have hcondition := j.sizeOf_condition d
  simp only [join, allCalls_cons, calls_emit, calls_call, allCalls_nil, and_true, true_and, weight,
    size, rank]
  omega

theorem below_tables (d : Dialect) {roots : List TableGroup} (h : 3 * sizeOf roots ≤ n) :
    Below n s (tables d roots) := by
  rw [tables]
  split
  · exact ⟨trivial, trivial⟩
  refine ⟨trivial, (allCalls_separated _ _).2 (List.forall_mem_map.2 fun g hg => ?_)⟩
  have hroot := List.sizeOf_lt_of_mem hg
  refine ⟨?_, (allCalls_map _ _).2 fun j hj => ?_⟩
  · simp only [calls_call, weight, size, rank]
    omega
  · have hjoin := g.sizeOf_queue hj
    simp only [calls_call, weight, size, rank]
    omega

theorem below_condition (keyword : String) {p : Option Predicate} (h : 3 * sizeOf p ≤ n) :
    Below n s (condition keyword p) := by
  cases p with
  | none => trivial
  | some p =>
      rw [Option.some.sizeOf_spec] at h
      rw [condition]
      split
      · trivial
      · simp only [allCalls_cons, calls_text, calls_predicate, allCalls_nil, and_true, true_and,
          weight, size, rank]
        omega

theorem below_grouping {items : List Expr} (h : 3 * sizeOf items ≤ n) :
    Below n s (grouping items) := by
  rw [grouping]
  split
  · trivial
  · exact ⟨trivial, (allCalls_separated _ _).2 (below_items h)⟩

theorem below_querySpec (spec : QuerySpec) (root : Bool) (h : 3 * sizeOf spec < n) :
    Below n (s.push (.spec spec) root) (querySpec (s.push (.spec spec) root) spec) := by
  obtain ⟨distinct, items, roots, restriction, groupBy, having, keys, offset, fetch, kind⟩ := spec
  rw [QuerySpec.mk.sizeOf_spec] at h
  simp only [querySpec, allCalls_append, allCalls_cons, calls_text, calls_call, calls_emit,
    allCalls_nil, and_true, true_and]
  refine ⟨⟨⟨⟨⟨⟨?_, ?_⟩, ?_⟩, ?_⟩, ?_⟩, ?_⟩, ?_⟩
  · simp only [weight, size, rank, Session.currentSpec, Session.push, if_true, Option.elim]
    omega
  · exact below_tables _ (by omega)
  · exact below_condition _ (by omega)
  · exact below_grouping (by omega)
  · exact below_condition _ (by omega)
  · exact below_orderBy (by omega)
  · simp only [weight, size, rank, Query.offset, Query.fetch]
    omega

theorem below_member (d : Dialect) {q : Query} (h : 3 * sizeOf q < n) :
    Below n s (member d q) := by
  have hq : weight s (.query q) < n := h
  rw [member]
  split
  · split <;> simp [hq]
  · exact ⟨hq, trivial⟩

theorem allCalls_membersJoined {P : Session → RenderCall → Prop} (operator : Output)
    {rows : List (List Action)} (h : ∀ as ∈ rows, AllCalls P s as) :
    AllCalls P s (membersJoined operator rows) := by
  fun_induction membersJoined operator rows with
  | case1 => trivial
  | case2 as => exact h as (by simp)
  | case3 as bs rest ih =>
      obtain ⟨has, hrest⟩ := List.forall_mem_cons.1 h
      exact (allCalls_append _ _).2
        ⟨(allCalls_append _ _).2 ⟨has, trivial, trivial, trivial, trivial⟩, ih hrest⟩

theorem below_queryGroup (d : Dialect) (g : QueryGroup) (h : 3 * sizeOf g < n) :
    Below n s (queryGroup d g) := by
  obtain ⟨operator, members, keys, offset, fetch, kind⟩ := g
  rw [QueryGroup.mk.sizeOf_spec] at h
  have hbody : Below n s
      (membersJoined (Render.setOperatorText d operator) (members.map (member d))) := by
    refine allCalls_membersJoined _ (List.forall_mem_map.2 fun q hq => below_member d ?_)
    have hmember := List.sizeOf_lt_of_mem hq
    omega
  have hkeys : Below n s (orderBy keys) := below_orderBy (by omega)
  refine ⟨trivial, ?_⟩
  split
  · simp only [allCalls_append, allCalls_cons, calls_text, calls_call, calls_emit, allCalls_nil,
      allCalls_parenthesized, hbody, hkeys, and_true, true_and]
    simp only [weight, size, rank]
    omega
  · simp only [allCalls_append, allCalls_cons, calls_call, allCalls_nil, hbody, hkeys, and_true,
      true_and]
    simp only [weight, size, rank, Query.offset, Query.fetch]
    omega

theorem below_query (root : Bool) (q : Query) (h : 3 * sizeOf q ≤ n) :
    Below n s (query s root q) := by
  cases q with
  | spec spec =>
      rw [Query.spec.sizeOf_spec] at h
      exact ⟨below_querySpec spec root (by omega), trivial⟩
  | group g =>
      rw [Query.group.sizeOf_spec] at h
      exact ⟨trivial, below_queryGroup _ g (by omega), trivial⟩

theorem below_moved {p : Option Predicate} (h : 3 * sizeOf p ≤ n) : Below n s (moved p) := by
  cases p with
  | none => trivial
  | some p =>
      rw [Option.some.sizeOf_spec] at h
      rw [moved]
      split
      · trivial
      · simp only [allCalls_append, allCalls_parenthesized, allCalls_cons, calls_text,
          calls_predicate, allCalls_nil, and_true, weight, size, rank]
        omega

theorem below_subqueryTupleOf (d : Dialect) {ls : List Expr} {q : Query} (op : ComparisonOperator)
    (quantifier : Quantifier) (negated : Bool) (h : 3 * (total ls + sizeOf q) ≤ n) :
    Below n s (subqueryTuple d ls q op quantifier negated) := by
  cases q with
  | group g => exact ⟨trivial, trivial⟩
  | spec spec =>
      rw [subqueryTuple]
      split
      · exact ⟨trivial, trivial⟩
      obtain ⟨distinct, items, roots, restriction, groupBy, having, keys, offset, fetch, kind⟩ := spec
      rw [Query.spec.sizeOf_spec, QuerySpec.mk.sizeOf_spec] at h
      have hcolumns := Expr.total_columns items
      simp only [List.cons_append, allCalls_append, allCalls_cons, allCalls_when, calls_text,
        calls_emit, calls_within, calls_call, allCalls_nil, and_true, true_and, implies_true]
      refine ⟨⟨below_tables _ (by omega), below_moved (by omega)⟩, ?_⟩
      simp only [weight, size, rank]
      omega

theorem below_selections (s : Session) (c : SelectClause) (viaDialect : Bool) :
    Below (weight s (.selections c viaDialect)) s (selections s c viaDialect) := by
  cases viaDialect with
  | false =>
      simp only [selections, Bool.false_eq_true, if_false, allCalls_append, allCalls_when,
        allCalls_cons, calls_text, allCalls_nil, and_true, implies_true, true_and]
      split
      · exact ⟨trivial, trivial⟩
      refine (allCalls_separated _ _).2 (List.forall_mem_map.2 fun x hx => ?_)
      have hsize := List.sizeOf_lt_of_mem hx
      obtain ⟨e, label⟩ := x
      rw [Selection.mk.sizeOf_spec] at hsize
      refine ⟨?_, trivial, trivial⟩
      simp only [calls_expression, weight, size, rank, Bool.false_eq_true, if_false]
      omega
  | true =>
      have hpositive : 0 < sizeOf c.selections := by cases c.selections <;> simp
      rw [selections.eq_def, if_pos rfl]
      refine (allCalls_append _ _).2 ⟨?_, ?_, trivial⟩
      · split
        · rename_i spec hrule hspec
          refine ⟨?_, trivial⟩
          simp only [calls_call, weight, size, rank, hspec, if_true, Option.elim]
          omega
        · trivial
      · simp only [calls_call, weight, size, rank, Bool.false_eq_true, if_false, if_true]
        omega

theorem below_expressions {es : List Expr} (h : 3 * total es < n) :
    ∀ as ∈ es.map fun e => [expression e], Below n s as := by
  refine List.forall_mem_map.2 fun e he => ?_
  have hsize := Expr.sizeOf_le_total he
  refine ⟨?_, trivial⟩
  simp only [calls_expression, weight, size, rank]
  omega

/-- What is done for a call makes smaller calls only. -/
theorem below_ofCall (s : Session) (c : RenderCall) : Below (weight s c) s (ofCall s c) := by
  cases c with
  | text | parameter | gap | integerSum | lockStrategy | searchClause | cycleClause | arity
    | crossJoin => exact ⟨trivial, trivial⟩
  | expression e => exact below_ofExpr _ le_rfl
  | predicate p => exact below_ofPredicate _ le_rfl
  | expressions es => exact (allCalls_separated _ _).2 (below_expressions (Nat.lt_succ_self _))
  | summarization kind groupings =>
      change Below _ s (if s.dialect.capabilities.summarization = .unsupported then _ else _)
      split
      · exact ⟨trivial, trivial⟩
      · simp [weight, size, rank]
  | sortKeys keys =>
      refine (allCalls_separated _ _).2 (List.forall_mem_map.2 fun k hk => below_sortKey _ ?_)
      have hsize := List.sizeOf_lt_of_mem hk
      simp only [weight, size, rank]
      omega
  | rowsTo offset fetch kind => exact below_rowsTo kind le_rfl
  | query q => exact below_query _ q le_rfl
  | nestedQuery q => exact below_query _ q le_rfl
  | selections c viaDialect => exact below_selections s c viaDialect
  | rowLimit q viaDialect =>
      change Below _ s (if viaDialect && s.dialect.strategies.rowLimit == .skip then [] else _)
      split
      · trivial
      · exact below_trailing _ _ le_rfl
  | upperBound rule fetch offset extra => exact below_upperBound _ extra le_rfl
  | comparison rule l op r =>
      match rule with
      | some .standard => exact below_standard _ op le_rfl
      | some .intersect => exact below_comparison _ .intersect op le_rfl
      | some .lexicographic | none => exact below_comparison _ _ op le_rfl
  | tuples ls rs op bounded => exact below_tuples op bounded (Nat.lt_succ_self _)
  | subqueryTuple ls q op quantifier negated =>
      exact below_subqueryTupleOf _ op quantifier negated le_rfl
  | selectTuple rule ss ls op =>
      match rule with
      | some .standard => exact below_selectTuple s.dialect .standard op (Nat.lt_succ_self _)
      | some .emulate => exact below_selectTuple s.dialect .emulate op (Nat.lt_succ_self _)
      | some .lexicographic | none =>
          exact below_selectTuple s.dialect _ op (Nat.lt_succ_self _)
  | tableGroup g =>
      obtain ⟨reference, label, joins⟩ := g
      refine below_tableReference _ ?_
      simp only [weight, size, rank, TableGroup.mk.sizeOf_spec]
      omega
  | tableGroupOn g p =>
      obtain ⟨reference, label, joins⟩ := g
      refine (allCalls_append _ _).2 ⟨below_tableReference _ ?_, trivial, ?_, trivial⟩ <;>
        simp only [calls_predicate, weight, size, rank, TableGroup.mk.sizeOf_spec] <;>
        omega
  | joinedGroup j p =>
      cases p <;> refine ⟨?_, trivial⟩ <;> simp [weight, size, rank]
  | join j => exact below_join _ (Nat.lt_succ_self _)
  | partitionItem rule e => exact below_partitionItem _ (Nat.lt_succ_self _)

end

end Action

namespace Translator

mutual

/-- An action comes to an end where the calls below the bound do. -/
theorem exists_executes {n : Nat}
    (h : ∀ (u : Translator) (c : RenderCall), c.weight u.view < n → ∃ v e, Executes u (.call c) v e)
    {a : Action} {t : Translator} (ha : a.Calls (fun s c => c.weight s < n) t.view) :
    ∃ u e, Executes t a u e := by
  match a with
  | .emit o => exact ⟨_, _, .emit t o⟩
  | .call c => exact h t c ha
  | .within q root as =>
      obtain ⟨u, e, hall⟩ := exists_executesAll h (t := t.push q root) ha
      exact ⟨_, _, .within hall⟩

theorem exists_executesAll {n : Nat}
    (h : ∀ (u : Translator) (c : RenderCall), c.weight u.view < n → ∃ v e, Executes u (.call c) v e)
    {as : List Action} {t : Translator} (has : Action.Below n t.view as) :
    ∃ u e, ExecutesAll t as u e := by
  match as with
  | [] => exact ⟨t, none, .nil t⟩
  | a :: as =>
      obtain ⟨u, e, ha⟩ := exists_executes h has.1
      match e with
      | some e => exact ⟨u, some e, .stop ha⟩
      | none =>
          have hrest : Action.Below n u.view as := by
            rw [ha.extends.view_eq]
            exact has.2
          obtain ⟨v, e, hall⟩ := exists_executesAll h hrest
          exact ⟨v, e, .cons ha hall⟩

end

/-- Every call comes to an end, since the calls that it is made of are smaller. -/
theorem exists_executes_call (t : Translator) (c : RenderCall) :
    ∃ u e, Executes t (.call c) u e := by
  induction hn : c.weight t.view using Nat.strong_induction_on generalizing t c with
  | h n ih =>
      obtain ⟨u, e, hall⟩ := exists_executesAll (fun u b hb => ih _ hb u b rfl)
        (hn ▸ Action.below_ofCall t.view c)
      exact ⟨u, e, .call hall⟩

/-- A call comes to one end, with an error or without: what the session renders for it stands behind
what there was. -/
theorem executes_call_iff {t u : Translator} {c : RenderCall} {e : Option TranslateError} :
    Executes t (.call c) u e ↔ u = t.append (t.view.output c) ∧ e = (t.view.output c).failure := by
  refine ⟨Executes.eq_output, ?_⟩
  rintro ⟨rfl, rfl⟩
  obtain ⟨v, f, h⟩ := exists_executes_call t c
  obtain ⟨rfl, rfl⟩ := h.eq_output
  exact h

/-- What is rendered for a call does not depend on what was rendered before. -/
theorem output_view_translator (s : Session) (c : RenderCall) :
    s.translator.view.output c = s.output c := by
  rw [s.view_translator]
  cases c <;> rfl

/-- Every call on every translator comes to one end, with an error or without, at the place where it
began and with all that there was before. What the session runs is the same. -/
theorem call_extends (c : RenderCall) :
    (∀ t, ∃ u e, (∀ v f, Executes t (.call c) v f ↔ v = u ∧ f = e) ∧ Extends t u) ∧
      ∀ s : Session, Executes s.translator (.call c) (s.run c).1.translator (s.run c).2 := by
  refine ⟨fun t => ?_, fun s => ?_⟩
  · obtain ⟨u, e, h⟩ := exists_executes_call t c
    obtain ⟨rfl, rfl⟩ := executes_call_iff.1 h
    exact ⟨_, _, fun v f => executes_call_iff, h.extends⟩
  · rw [executes_call_iff, output_view_translator]
    exact ⟨s.translator_emit (s.output c), rfl⟩

end Translator

end DialectSql
