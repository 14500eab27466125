import DialectSql.Dialect.Document
import DialectSql.Proofs.Document.Values
import DialectSql.Render.Document
import Mathlib.Data.List.Induction
import Mathlib.Data.String.Basic

namespace DialectSql

open Json

theorem LockTimeout.carries (t : LockTimeout) : Carries LockTimeout.ofJson? t.toJson t := by
  cases t with
  | seconds n =>
      refine .tagged (carries_uint32 n).plain fun l m hm => ?_
      simp [variant, LockTimeout.ofJson?, (carries_uint32 n).value]
  | _ => exact carries_constantName (fun l n s => by cases n <;> rfl) rfl

theorem LockOptions.carries (o : LockOptions) : Carries LockOptions.ofJson? o.toJson o := by
  have hmode := carries_constant LockMode.all LockMode.name o.mode (by cases o.mode <;> rfl)
  have htimeout := o.timeout.carries
  have haliases := carries_strings o.aliases
  have hfollowOn : CarriesOption (fun _ _ => bool?) _ o.followOnLocking :=
    carriesOption_ofOption fun b _ => carries_bool b
  refine .object ⟨hmode.plain, htimeout.plain, haliases.plain, hfollowOn.plain, trivial⟩
    fun l m hm => ?_
  simp [LockOptions.ofJson?, record?, hmode.field l "mode" hm rfl,
    htimeout.field l "timeout" hm rfl, haliases.field l "aliases" hm rfl,
    hfollowOn.optional l "follow_on_locking" hm rfl]

theorem ForUpdateClause.carries (c : ForUpdateClause) :
    Carries ForUpdateClause.ofJson? c.toJson c := by
  have hmode := carries_constant LockMode.all LockMode.name c.mode (by cases c.mode <;> rfl)
  have htimeout := c.timeout.carries
  have haliases := carries_strings c.aliases
  refine .object ⟨hmode.plain, htimeout.plain, haliases.plain, trivial⟩ fun l m hm => ?_
  simp [ForUpdateClause.ofJson?, record?, hmode.field l "mode" hm rfl,
    htimeout.field l "timeout" hm rfl, haliases.field l "aliases" hm rfl]

theorem CapabilityGap.carries (g : CapabilityGap) : Carries CapabilityGap.ofJson? g.toJson g := by
  cases g with
  | cycleClause cte =>
      refine .variant ⟨trivial, trivial⟩ fun l m hm => ?_
      simp [variant, CapabilityGap.ofJson?, fields?, (carries_string cte).field l "cte" hm rfl]
  | rowLocking => exact ⟨trivial, nofun, fun _ n _ => by rcases n with _ | _ | n <;> rfl⟩

theorem LockingCapabilities.carries (c : LockingCapabilities) :
    Carries LockingCapabilities.ofJson? c.toJson c := by
  refine .object ⟨trivial, trivial, trivial, trivial, trivial, trivial, trivial, trivial, trivial⟩
    fun l m hm => ?_
  simp [LockingCapabilities.ofJson?, record?,
    (carries_bool c.forUpdate).field l "for_update" hm rfl,
    (carries_bool c.forShare).field l "for_share" hm rfl,
    (carries_bool c.ofAliases).field l "of_aliases" hm rfl,
    (carries_bool c.noWait).field l "no_wait" hm rfl,
    (carries_bool c.skipLocked).field l "skip_locked" hm rfl,
    (carries_bool c.waitSeconds).field l "wait_seconds" hm rfl,
    (carries_bool c.withSetOperators).field l "with_set_operators" hm rfl,
    (carries_bool c.withAggregates).field l "with_aggregates" hm rfl]

theorem ClauseSupport.carries (c : ClauseSupport) :
    Carries (constant? ClauseSupport.all ClauseSupport.name) (.string c.name) c :=
  carries_constant _ _ c (by cases c <;> rfl)

theorem Capabilities.carries (c : Capabilities) : Carries Capabilities.ofJson? c.toJson c := by
  have hrowLimit := carries_constant RowLimitStyle.all RowLimitStyle.name c.rowLimit
    (by cases c.rowLimit <;> rfl)
  have hplaceholder := carries_constant PlaceholderStyle.all PlaceholderStyle.name c.placeholder
    (by cases c.placeholder <;> rfl)
  have hliterals := carries_constant BooleanLiteralStyle.all BooleanLiteralStyle.name
    c.booleanLiterals (by cases c.booleanLiterals <;> rfl)
  have hdistinct := carries_constant DistinctFromSupport.all DistinctFromSupport.name
    c.distinctFrom (by cases c.distinctFrom <;> rfl)
  have hdual := carriesOption_string c.dualTable
  refine .object ⟨trivial, trivial, trivial, hrowLimit.plain, trivial, trivial, hplaceholder.plain,
    hliterals.plain, hdistinct.plain, trivial, trivial, trivial, trivial, trivial, trivial, trivial,
    trivial, trivial, hdual.plain, trivial, trivial, trivial, trivial, trivial,
    c.locking.carries.plain, trivial⟩ fun l m hm => ?_
  rw [Capabilities.ofJson?, record?, Option.bind_eq_bind, Option.bind_some,
    (carries_bool c.rowValueConstructor).field l "row_value_constructor" hm rfl,
    (carries_bool c.rowValueInList).field l "row_value_in_list" hm rfl,
    (carries_bool c.rowValueInQuantified).field l "row_value_in_quantified" hm rfl,
    hrowLimit.field l "row_limit" hm rfl,
    (carries_bool c.offsetRequiresLimit).field l "offset_requires_limit" hm rfl,
    (carries_bool c.fetchWithTies).field l "fetch_with_ties" hm rfl,
    hplaceholder.field l "placeholder" hm rfl, hliterals.field l "boolean_literals" hm rfl,
    hdistinct.field l "distinct_from" hm rfl,
    c.summarization.carries.field l "summarization" hm rfl,
    (carries_bool c.nullPrecedence).field l "null_precedence" hm rfl,
    (carries_bool c.lateral).field l "lateral" hm rfl, (carries_bool c.cte).field l "cte" hm rfl,
    (carries_bool c.recursiveCte).field l "recursive_cte" hm rfl,
    (carries_bool c.recursiveKeyword).field l "recursive_keyword" hm rfl,
    (carries_bool c.cteMaterialization).field l "cte_materialization" hm rfl,
    c.searchClause.carries.field l "search_clause" hm rfl,
    c.cycleClause.carries.field l "cycle_clause" hm rfl, hdual.optional l "dual_table" hm rfl,
    (carries_bool c.selectRequiresFrom).field l "select_requires_from" hm rfl,
    (carries_bool c.minusForExcept).field l "minus_for_except" hm rfl,
    (carries_bool c.simpleQueryGrouping).field l "simple_query_grouping" hm rfl,
    (carries_bool c.intersectExceptAll).field l "intersect_except_all" hm rfl,
    (carries_bool c.insertDefaultValues).field l "insert_default_values" hm rfl,
    c.locking.carries.field l "locking" hm rfl]
  rfl

namespace Translation

theorem insertName_of_forall_lt {name : String} {names : List String} (h : ∀ n ∈ names, n < name) :
    insertName name names = names ++ [name] := by
  induction names with
  | nil => rfl
  | cons n names ih =>
      rw [List.forall_mem_cons] at h
      rw [insertName, if_neg (not_lt_of_gt h.1), if_neg (ne_of_gt h.1), ih h.2]
      rfl

/-- Names that are sorted and occur once stay as they are. -/
theorem sortNames_of_pairwise {names : List String} (h : names.Pairwise (· < ·)) :
    sortNames names = names := by
  induction names using List.reverseRecOn with
  | nil => rfl
  | append_singleton names name ih =>
      rw [List.pairwise_append] at h
      rw [sortNames, List.foldl_concat]
      exact (congrArg (insertName name) (ih h.1)).trans
        (insertName_of_forall_lt fun n hn => h.2.2 n hn name List.mem_cons_self)

end Translation

theorem TranslatedSql.carries {t : TranslatedSql}
    (hp : ∀ s ∈ t.parameters, s.Each SqlValue.IsExact) (ht : t.affectedTables.Pairwise (· < ·)) :
    Carries TranslatedSql.ofJson? t.toJson t := by
  have hparameters := carries_list (carries_map t.parameters fun s hs => BindSlot.carries (hp s hs))
  have hlock : CarriesOption ForUpdateClause.ofJson? _ t.followOnLock :=
    carriesOption_ofOption fun c _ => c.carries
  have hgaps := carries_list (carries_map t.gaps fun g _ => g.carries)
  have htables := carries_strings t.affectedTables
  refine .object ⟨trivial, hparameters.plain, hlock.plain, hgaps.plain, htables.plain, trivial⟩
    fun l m hm => ?_
  simp [TranslatedSql.ofJson?, record?, (carries_string t.sql).field l "sql" hm rfl,
    hparameters.field l "parameters" hm rfl, hlock.optional l "follow_on_lock" hm rfl,
    hgaps.field l "capability_gaps" hm rfl, htables.field l "affected_tables" hm rfl,
    Translation.sortNames_of_pairwise ht]

end DialectSql
