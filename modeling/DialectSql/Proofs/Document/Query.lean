import DialectSql.Proofs.Document.Values

namespace DialectSql

open Json

section

variable (P : SqlValue → Prop)

mutual

/-- The property holds of every literal and of every value that is bound. -/
def Expr.Each : Expr → Prop
  | .column .. | .star _ => True
  | .literal v => P v
  | .parameter slot => slot.Each P
  | .tuple es | .summarization _ es | .function _ es _ => Expr.AllEach es
  | .binary left _ right => left.Each ∧ right.Each
  | .negate e | .cast e _ => e.Each
  | .case branches otherwise => WhenClause.AllEach branches ∧ Expr.OptionEach otherwise
  | .subquery q | .quantified _ q => q.Each
  | .windowed function items keys _ =>
      function.Each ∧ Expr.AllEach items ∧ SortKey.AllEach keys

def Expr.AllEach : List Expr → Prop
  | [] => True
  | e :: es => e.Each ∧ Expr.AllEach es

def Expr.OptionEach : Option Expr → Prop
  | none => True
  | some e => e.Each

def WhenClause.AllEach : List WhenClause → Prop
  | [] => True
  | ⟨condition, result⟩ :: bs => condition.Each ∧ result.Each ∧ WhenClause.AllEach bs

def SortKey.AllEach : List SortKey → Prop
  | [] => True
  | k :: ks => k.Each ∧ SortKey.AllEach ks

def SortKey.Each : SortKey → Prop
  | ⟨e, _, _⟩ => e.Each

def Predicate.Each : Predicate → Prop
  | .comparison lhs _ rhs => lhs.Each ∧ rhs.Each
  | .junction _ members => Predicate.AllEach members
  | .negated p => p.Each
  | .nullCheck e _ | .boolean e => e.Each
  | .inList e items _ => e.Each ∧ Expr.AllEach items
  | .inSubquery e q _ => e.Each ∧ q.Each
  | .exists q _ => q.Each
  | .between e low high _ => e.Each ∧ low.Each ∧ high.Each
  | .like e pattern _ _ => e.Each ∧ pattern.Each

def Predicate.AllEach : List Predicate → Prop
  | [] => True
  | p :: ps => p.Each ∧ Predicate.AllEach ps

def Predicate.OptionEach : Option Predicate → Prop
  | none => True
  | some p => p.Each

def Selection.AllEach : List Selection → Prop
  | [] => True
  | s :: ss => s.Each ∧ Selection.AllEach ss

def Selection.Each : Selection → Prop
  | ⟨e, _⟩ => e.Each

def TableReference.Each : TableReference → Prop
  | .named _ => True
  | .derived q _ => q.Each

def TableGroup.Each : TableGroup → Prop
  | ⟨reference, _, joins⟩ => reference.Each ∧ TableJoin.AllEach joins

def TableGroup.AllEach : List TableGroup → Prop
  | [] => True
  | g :: gs => g.Each ∧ TableGroup.AllEach gs

def TableJoin.Each : TableJoin → Prop
  | ⟨_, joined, predicate, _⟩ => joined.Each ∧ Predicate.OptionEach predicate

def TableJoin.AllEach : List TableJoin → Prop
  | [] => True
  | j :: js => j.Each ∧ TableJoin.AllEach js

def QuerySpec.Each : QuerySpec → Prop
  | ⟨_, items, roots, restriction, groupBy, having, keys, offset, fetch, _⟩ =>
      Selection.AllEach items ∧ TableGroup.AllEach roots ∧ Predicate.OptionEach restriction ∧
        Expr.AllEach groupBy ∧ Predicate.OptionEach having ∧ SortKey.AllEach keys ∧
        Expr.OptionEach offset ∧ Expr.OptionEach fetch

def QueryGroup.Each : QueryGroup → Prop
  | ⟨_, members, keys, offset, fetch, _⟩ =>
      Query.AllEach members ∧ SortKey.AllEach keys ∧ Expr.OptionEach offset ∧
        Expr.OptionEach fetch

def Query.Each : Query → Prop
  | .spec s => s.Each
  | .group g => g.Each

def Query.AllEach : List Query → Prop
  | [] => True
  | q :: qs => q.Each ∧ Query.AllEach qs

end

end

theorem carries_selectClause (distinct : Bool) {js : List Json} {selections : List Selection}
    (h : List.Forall₂ (Carries Selection.ofJson?) js selections) :
    Carries selectClauseOfJson?
      (.object [("distinct", .bool distinct), ("selections", .array js)])
      (distinct, selections) := by
  have hitems : Carries selectionsOfJson? _ selections := carries_items (fun _ _ _ => rfl) h
  refine .object ⟨trivial, hitems.plain, trivial⟩ fun l m hm => ?_
  simp [selectClauseOfJson?, record?, (carries_bool distinct).field l "distinct" hm rfl,
    hitems.field l "selections" hm rfl]

theorem carries_fromClause {js : List Json} {roots : List TableGroup}
    (h : List.Forall₂ (Carries TableGroup.ofJson?) js roots) :
    Carries fromClauseOfJson? (.object [("roots", .array js)]) roots := by
  have hroots : Carries tableGroupsOfJson? _ roots := carries_items (fun _ _ _ => rfl) h
  refine .object ⟨hroots.plain, trivial⟩ fun l m hm => ?_
  simp [fromClauseOfJson?, record?, hroots.field l "roots" hm rfl]

mutual

theorem Expr.carries : (e : Expr) → e.Each SqlValue.IsExact → Carries Expr.ofJson? e.toJson e
  | .column qualifier name, _ => by
      have hqualifier := carriesOption_string qualifier
      refine .variant ⟨hqualifier.plain, trivial, trivial⟩ fun l m hm => ?_
      simp [variant, Expr.ofJson?, fields?, hqualifier.optional l "qualifier" hm rfl,
        (carries_string name).field l "name" hm rfl]
  | .literal v, h => by
      have hv := SqlValue.carries h
      refine .tagged hv.plain fun l m hm => ?_
      simp [variant, Expr.ofJson?, hv.reads l m hm]
  | .parameter slot, h => by
      have hslot := BindSlot.carries h
      refine .tagged hslot.plain fun l m hm => ?_
      simp [variant, Expr.ofJson?, hslot.reads l m hm]
  | .tuple es, h => by
      have hes := Expr.carries_all es h
      refine .listed (plain_of_carries hes) fun l m hm => ?_
      simp [variant, Expr.ofJson?, list?, mapM_of_carries hes hm]
  | .summarization kind groupings, h => by
      have hkind := carries_constant SummarizationKind.all SummarizationKind.name kind
        (by cases kind <;> rfl)
      have hes : Carries exprsOfJson? _ groupings :=
        carries_items (fun _ _ _ => rfl) (Expr.carries_all groupings h)
      refine .variant ⟨hkind.plain, hes.plain, trivial⟩ fun l m hm => ?_
      simp [variant, Expr.ofJson?, fields?, hkind.field l "kind" hm rfl,
        hes.field l "groupings" hm rfl]
  | .binary left op right, h => by
      have hleft := left.carries h.1
      have hop := carries_constant BinaryOp.all BinaryOp.name op (by cases op <;> rfl)
      have hright := right.carries h.2
      refine .variant ⟨hleft.plain, hop.plain, hright.plain, trivial⟩ fun l m hm => ?_
      simp [variant, Expr.ofJson?, fields?, hleft.field l "left" hm rfl, hop.field l "op" hm rfl,
        hright.field l "right" hm rfl]
  | .negate e, h => by
      have hop := carries_constant [()] (fun _ => "Neg") () rfl
      have he := e.carries h
      refine .variant ⟨hop.plain, he.plain, trivial⟩ fun l m hm => ?_
      simp [variant, Expr.ofJson?, fields?, hop.field l "op" hm rfl, he.field l "operand" hm rfl]
  | .function name args distinct, h => by
      have hargs : Carries exprsOfJson? _ args :=
        carries_items (fun _ _ _ => rfl) (Expr.carries_all args h)
      refine .variant ⟨trivial, hargs.plain, trivial, trivial⟩ fun l m hm => ?_
      simp [variant, Expr.ofJson?, record?, (carries_string name).field l "name" hm rfl,
        hargs.field l "args" hm rfl, (carries_bool distinct).field l "distinct" hm rfl]
  | .case branches otherwise, h => by
      have hbranches : Carries whenClausesOfJson? _ branches :=
        carries_items (fun _ _ _ => rfl) (WhenClause.carries_all branches h.1)
      have hotherwise := Expr.carries_option otherwise h.2
      refine .variant ⟨hbranches.plain, hotherwise.plain, trivial⟩ fun l m hm => ?_
      simp [variant, Expr.ofJson?, fields?, hbranches.field l "when_clauses" hm rfl,
        hotherwise.optional l "else_clause" hm rfl]
  | .cast e type, h => by
      have he := e.carries h
      refine .variant ⟨he.plain, type.carries.plain, trivial⟩ fun l m hm => ?_
      simp [variant, Expr.ofJson?, fields?, he.field l "expr" hm rfl,
        type.carries.field l "data_type" hm rfl]
  | .subquery q, h => by
      have hq := q.carries h
      refine .tagged hq.plain fun l m hm => ?_
      simp [variant, Expr.ofJson?, hq.reads l m hm]
  | .quantified quantifier q, h => by
      have hquantifier := carries_constant Quantifier.values Quantifier.name quantifier
        (by cases quantifier <;> rfl)
      have hq := q.carries h
      refine .variant ⟨hquantifier.plain, hq.plain, trivial⟩ fun l m hm => ?_
      simp [variant, Expr.ofJson?, fields?, hquantifier.field l "quantifier" hm rfl,
        hq.field l "query" hm rfl]
  | .windowed function partitionBy orderBy frame, h => by
      have hfunction := function.carries h.1
      have hpartition : Carries exprsOfJson? _ partitionBy :=
        carries_items (fun _ _ _ => rfl) (Expr.carries_all partitionBy h.2.1)
      have horder : Carries sortKeysOfJson? _ orderBy :=
        carries_items (fun _ _ _ => rfl) (SortKey.carries_all orderBy h.2.2)
      have hframe : CarriesOption WindowFrame.ofJson? _ frame :=
        carriesOption_ofOption fun f _ => f.carries
      refine .variant ⟨hfunction.plain, hpartition.plain, horder.plain, hframe.plain, trivial⟩
        fun l m hm => ?_
      simp [variant, Expr.ofJson?, record?, hfunction.field l "function" hm rfl,
        hpartition.field l "partition_by" hm rfl, horder.field l "order_by" hm rfl,
        hframe.optional l "frame" hm rfl]
  | .star qualifier, _ => by
      have hqualifier := carriesOption_string qualifier
      refine .variant ⟨hqualifier.plain, trivial⟩ fun l m hm => ?_
      simp [variant, Expr.ofJson?, fields?, hqualifier.optional l "qualifier" hm rfl]

theorem Expr.carries_all : (es : List Expr) → Expr.AllEach SqlValue.IsExact es →
    List.Forall₂ (Carries Expr.ofJson?) (exprsToJson es) es
  | [], _ => .nil
  | e :: es, h => .cons (e.carries h.1) (Expr.carries_all es h.2)

theorem Expr.carries_option : (e : Option Expr) → Expr.OptionEach SqlValue.IsExact e →
    CarriesOption Expr.ofJson? (optionalExprToJson e) e
  | none, _ => rfl
  | some e, h => e.carries h

theorem WhenClause.carries_all : (bs : List WhenClause) →
    WhenClause.AllEach SqlValue.IsExact bs →
    List.Forall₂ (Carries whenClauseOfJson?) (whenClausesToJson bs) bs
  | [], _ => .nil
  | ⟨condition, result⟩ :: bs, h => by
      have hcondition := condition.carries h.1
      have hresult := result.carries h.2.1
      refine .cons (.array ⟨hcondition.plain, hresult.plain, trivial⟩ fun l m hm => ?_)
        (WhenClause.carries_all bs h.2.2)
      simp only [List.forall_mem_cons] at hm
      simp [whenClauseOfJson?, hcondition.reads l m hm.1, hresult.reads l m hm.2.1]

theorem SortKey.carries_all : (ks : List SortKey) → SortKey.AllEach SqlValue.IsExact ks →
    List.Forall₂ (Carries SortKey.ofJson?) (sortKeysToJson ks) ks
  | [], _ => .nil
  | k :: ks, h => .cons (k.carries h.1) (SortKey.carries_all ks h.2)

theorem SortKey.carries : (k : SortKey) → k.Each SqlValue.IsExact →
    Carries SortKey.ofJson? k.toJson k
  | ⟨e, direction, nulls⟩, h => by
      have he := e.carries h
      have hdirection := carries_constant OrderDirection.all OrderDirection.name direction
        (by cases direction <;> rfl)
      have hnulls : CarriesOption (constant? NullOrdering.all NullOrdering.name) _ nulls :=
        carriesOption_ofOption fun n _ => carries_constant _ _ n (by cases n <;> rfl)
      refine .object ⟨he.plain, hdirection.plain, hnulls.plain, trivial⟩ fun l m hm => ?_
      simp [SortKey.ofJson?, record?, he.field l "expr" hm rfl,
        hdirection.field l "direction" hm rfl, hnulls.optional l "nulls" hm rfl]

theorem Predicate.carries : (p : Predicate) → p.Each SqlValue.IsExact →
    Carries Predicate.ofJson? p.toJson p
  | .comparison lhs op rhs, h => by
      have hlhs := lhs.carries h.1
      have hop := carries_constant ComparisonOperator.all ComparisonOperator.name op
        (by cases op <;> rfl)
      have hrhs := rhs.carries h.2
      refine .variant ⟨hlhs.plain, hop.plain, hrhs.plain, trivial⟩ fun l m hm => ?_
      simp [variant, Predicate.ofJson?, fields?, hlhs.field l "lhs" hm rfl,
        hop.field l "operator" hm rfl, hrhs.field l "rhs" hm rfl]
  | .junction nature members, h => by
      have hnature := carries_constant JunctionNature.all JunctionNature.name nature
        (by cases nature <;> rfl)
      have hmembers : Carries predicatesOfJson? _ members :=
        carries_items (fun _ _ _ => rfl) (Predicate.carries_all members h)
      refine .variant ⟨hnature.plain, hmembers.plain, trivial⟩ fun l m hm => ?_
      simp [variant, Predicate.ofJson?, fields?, hnature.field l "nature" hm rfl,
        hmembers.field l "predicates" hm rfl]
  | .negated p, h => by
      have hp := p.carries h
      refine .tagged hp.plain fun l m hm => ?_
      simp [variant, Predicate.ofJson?, hp.reads l m hm]
  | .nullCheck e negated, h => by
      have he := e.carries h
      refine .variant ⟨he.plain, trivial, trivial⟩ fun l m hm => ?_
      simp [variant, Predicate.ofJson?, fields?, he.field l "expr" hm rfl,
        (carries_bool negated).field l "negated" hm rfl]
  | .inList e list negated, h => by
      have he := e.carries h.1
      have hlist : Carries exprsOfJson? _ list :=
        carries_items (fun _ _ _ => rfl) (Expr.carries_all list h.2)
      refine .variant ⟨he.plain, hlist.plain, trivial, trivial⟩ fun l m hm => ?_
      simp [variant, Predicate.ofJson?, fields?, he.field l "expr" hm rfl,
        hlist.field l "list" hm rfl, (carries_bool negated).field l "negated" hm rfl]
  | .inSubquery e q negated, h => by
      have he := e.carries h.1
      have hq := q.carries h.2
      refine .variant ⟨he.plain, hq.plain, trivial, trivial⟩ fun l m hm => ?_
      simp [variant, Predicate.ofJson?, fields?, he.field l "expr" hm rfl,
        hq.field l "query" hm rfl, (carries_bool negated).field l "negated" hm rfl]
  | .exists q negated, h => by
      have hq := q.carries h
      refine .variant ⟨hq.plain, trivial, trivial⟩ fun l m hm => ?_
      simp [variant, Predicate.ofJson?, fields?, hq.field l "query" hm rfl,
        (carries_bool negated).field l "negated" hm rfl]
  | .between e low high negated, h => by
      have he := e.carries h.1
      have hlow := low.carries h.2.1
      have hhigh := high.carries h.2.2
      refine .variant ⟨he.plain, hlow.plain, hhigh.plain, trivial, trivial⟩ fun l m hm => ?_
      simp [variant, Predicate.ofJson?, fields?, he.field l "expr" hm rfl,
        hlow.field l "low" hm rfl, hhigh.field l "high" hm rfl,
        (carries_bool negated).field l "negated" hm rfl]
  | .like e pattern escape negated, h => by
      have he := e.carries h.1
      have hpattern := pattern.carries h.2
      have hescape : CarriesOption (fun _ _ => char?) _ escape :=
        carriesOption_ofOption fun c _ => carries_char c
      refine .variant ⟨he.plain, hpattern.plain, hescape.plain, trivial, trivial⟩ fun l m hm => ?_
      simp [variant, Predicate.ofJson?, fields?, -Char.toString_eq_singleton,
        he.field l "expr" hm rfl, hpattern.field l "pattern" hm rfl,
        hescape.optional l "escape" hm rfl, (carries_bool negated).field l "negated" hm rfl]
  | .boolean e, h => by
      have he := e.carries h
      refine .tagged he.plain fun l m hm => ?_
      simp [variant, Predicate.ofJson?, he.reads l m hm]

theorem Predicate.carries_all : (ps : List Predicate) → Predicate.AllEach SqlValue.IsExact ps →
    List.Forall₂ (Carries Predicate.ofJson?) (predicatesToJson ps) ps
  | [], _ => .nil
  | p :: ps, h => .cons (p.carries h.1) (Predicate.carries_all ps h.2)

theorem Predicate.carries_option : (p : Option Predicate) →
    Predicate.OptionEach SqlValue.IsExact p →
    CarriesOption Predicate.ofJson? (optionalPredicateToJson p) p
  | none, _ => rfl
  | some p, h => p.carries h

theorem Selection.carries_all : (ss : List Selection) → Selection.AllEach SqlValue.IsExact ss →
    List.Forall₂ (Carries Selection.ofJson?) (selectionsToJson ss) ss
  | [], _ => .nil
  | s :: ss, h => .cons (s.carries h.1) (Selection.carries_all ss h.2)

theorem Selection.carries : (s : Selection) → s.Each SqlValue.IsExact →
    Carries Selection.ofJson? s.toJson s
  | ⟨e, label⟩, h => by
      have he := e.carries h
      have hlabel := carriesOption_string label
      refine .object ⟨he.plain, hlabel.plain, trivial⟩ fun l m hm => ?_
      simp [Selection.ofJson?, record?, he.field l "expr" hm rfl,
        hlabel.optional l "alias" hm rfl]

theorem TableReference.carries : (t : TableReference) → t.Each SqlValue.IsExact →
    Carries TableReference.ofJson? t.toJson t
  | .named t, _ => by
      refine .tagged t.carries.plain fun l m hm => ?_
      simp [variant, TableReference.ofJson?, t.carries.reads l m hm]
  | .derived q columns, h => by
      have hq := q.carries h
      have hcolumns := carries_strings columns
      refine .variant ⟨hq.plain, hcolumns.plain, trivial⟩ fun l m hm => ?_
      simp [variant, TableReference.ofJson?, fields?, hq.field l "query" hm rfl,
        hcolumns.field l "column_names" hm rfl]

theorem TableGroup.carries : (g : TableGroup) → g.Each SqlValue.IsExact →
    Carries TableGroup.ofJson? g.toJson g
  | ⟨reference, label, joins⟩, h => by
      have hreference := reference.carries h.1
      have hlabel := carriesOption_string label
      have hjoins : Carries joinsOfJson? _ joins :=
        carries_items (fun _ _ _ => rfl) (TableJoin.carries_all joins h.2)
      refine .object ⟨hreference.plain, hlabel.plain, hjoins.plain, trivial⟩ fun l m hm => ?_
      simp [TableGroup.ofJson?, record?, hreference.field l "reference" hm rfl,
        hlabel.optional l "alias" hm rfl, hjoins.field l "joins" hm rfl]

theorem TableGroup.carries_all : (gs : List TableGroup) → TableGroup.AllEach SqlValue.IsExact gs →
    List.Forall₂ (Carries TableGroup.ofJson?) (tableGroupsToJson gs) gs
  | [], _ => .nil
  | g :: gs, h => .cons (g.carries h.1) (TableGroup.carries_all gs h.2)

theorem TableJoin.carries : (j : TableJoin) → j.Each SqlValue.IsExact →
    Carries TableJoin.ofJson? j.toJson j
  | ⟨type, joined, predicate, lateral⟩, h => by
      have htype := carries_constant JoinType.all JoinType.name type (by cases type <;> rfl)
      have hjoined := joined.carries h.1
      have hpredicate := Predicate.carries_option predicate h.2
      refine .object ⟨htype.plain, hjoined.plain, hpredicate.plain, trivial, trivial⟩
        fun l m hm => ?_
      simp [TableJoin.ofJson?, record?, htype.field l "join_type" hm rfl,
        hjoined.field l "joined_group" hm rfl, hpredicate.optional l "predicate" hm rfl,
        (carries_bool lateral).field l "lateral" hm rfl]

theorem TableJoin.carries_all : (js : List TableJoin) → TableJoin.AllEach SqlValue.IsExact js →
    List.Forall₂ (Carries TableJoin.ofJson?) (joinsToJson js) js
  | [], _ => .nil
  | j :: js, h => .cons (j.carries h.1) (TableJoin.carries_all js h.2)

theorem QuerySpec.carries : (s : QuerySpec) → s.Each SqlValue.IsExact →
    Carries QuerySpec.ofJson? s.toJson s
  | ⟨distinct, selections, roots, restriction, groupBy, having, orderBy, offset, fetch, kind⟩,
    ⟨hselections, hroots, hrestriction, hgroupBy, hhaving, horderBy, hoffset, hfetch⟩ => by
      have hselect := carries_selectClause distinct (Selection.carries_all selections hselections)
      have hfrom := carries_fromClause (TableGroup.carries_all roots hroots)
      have hwhere := Predicate.carries_option restriction hrestriction
      have hgroup : Carries exprsOfJson? _ groupBy :=
        carries_items (fun _ _ _ => rfl) (Expr.carries_all groupBy hgroupBy)
      have hgroups := Predicate.carries_option having hhaving
      have horder : Carries sortKeysOfJson? _ orderBy :=
        carries_items (fun _ _ _ => rfl) (SortKey.carries_all orderBy horderBy)
      have hskip := Expr.carries_option offset hoffset
      have htake := Expr.carries_option fetch hfetch
      have hkind := carries_constant FetchKind.all FetchKind.name kind (by cases kind <;> rfl)
      refine .object ⟨hselect.plain, hfrom.plain, hwhere.plain, hgroup.plain, hgroups.plain,
        horder.plain, hskip.plain, htake.plain, hkind.plain, trivial⟩ fun l m hm => ?_
      simp [QuerySpec.ofJson?, record?, hselect.field l "select_clause" hm rfl,
        hfrom.field l "from_clause" hm rfl, hwhere.optional l "where_clause" hm rfl,
        hgroup.field l "group_by" hm rfl, hgroups.optional l "having" hm rfl,
        horder.field l "sort_specifications" hm rfl, hskip.optional l "offset" hm rfl,
        htake.optional l "fetch" hm rfl, hkind.field l "fetch_kind" hm rfl]

theorem QueryGroup.carries : (g : QueryGroup) → g.Each SqlValue.IsExact →
    Carries QueryGroup.ofJson? g.toJson g
  | ⟨operator, members, orderBy, offset, fetch, kind⟩, ⟨hmembers, horderBy, hoffset, hfetch⟩ => by
      have hoperator := carries_constant SetOperator.all SetOperator.name operator
        (by cases operator <;> rfl)
      have hparts : Carries queriesOfJson? _ members :=
        carries_items (fun _ _ _ => rfl) (Query.carries_all members hmembers)
      have horder : Carries sortKeysOfJson? _ orderBy :=
        carries_items (fun _ _ _ => rfl) (SortKey.carries_all orderBy horderBy)
      have hskip := Expr.carries_option offset hoffset
      have htake := Expr.carries_option fetch hfetch
      have hkind := carries_constant FetchKind.all FetchKind.name kind (by cases kind <;> rfl)
      refine .object ⟨hoperator.plain, hparts.plain, horder.plain, hskip.plain, htake.plain,
        hkind.plain, trivial⟩ fun l m hm => ?_
      simp [QueryGroup.ofJson?, record?, hoperator.field l "set_operator" hm rfl,
        hparts.field l "parts" hm rfl, horder.field l "sort_specifications" hm rfl,
        hskip.optional l "offset" hm rfl, htake.optional l "fetch" hm rfl,
        hkind.field l "fetch_kind" hm rfl]

theorem Query.carries : (q : Query) → q.Each SqlValue.IsExact → Carries Query.ofJson? q.toJson q
  | .spec s, h => by
      have hs := s.carries h
      refine .tagged hs.plain fun l m hm => ?_
      simp [variant, Query.ofJson?, hs.reads l m hm]
  | .group g, h => by
      have hg := g.carries h
      refine .tagged hg.plain fun l m hm => ?_
      simp [variant, Query.ofJson?, hg.reads l m hm]

theorem Query.carries_all : (qs : List Query) → Query.AllEach SqlValue.IsExact qs →
    List.Forall₂ (Carries Query.ofJson?) (queriesToJson qs) qs
  | [], _ => .nil
  | q :: qs, h => .cons (q.carries h.1) (Query.carries_all qs h.2)

end

end DialectSql
