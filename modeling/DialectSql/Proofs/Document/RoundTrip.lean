import DialectSql.CommandLine.Run
import DialectSql.Proofs.Document.Statement
import DialectSql.Proofs.Document.Translation

namespace DialectSql

open Json

namespace Json

/-- The value is read from the document and from both of its texts, with any latitude and any way
to round numbers, by every reader that goes down to the levels of the document. -/
structure ReadsBack {α : Type} (read : Reading α) (j : Json) (a : α) : Prop where
  document : ∀ l n, j.depth ≤ n → read l n j = some a
  line : ∀ round l n, j.depth ≤ n → (parseWith? round j.compress >>= read l n) = some a
  lines : ∀ round l n, j.depth ≤ n → (parseWith? round j.pretty >>= read l n) = some a

theorem Carries.readsBack {α : Type} {read : Reading α} {j : Json} {a : α}
    (h : Carries read j a) : ReadsBack read j a where
  document := h.reads
  line round l n hn := by
    rw [parseWith?_compress round h.plain]
    exact h.reads l n hn
  lines round l n hn := by
    rw [parseWith?_pretty round h.plain]
    exact h.reads l n hn

theorem depth_object_le {ms : Record} {n : Nat} (h : ∀ m ∈ ms, m.2.depth ≤ n) :
    (Json.object ms).depth ≤ n + 1 := Nat.succ_le_succ (membersDepth_le.2 h)

theorem depth_map_le {α : Type} {f : α → Json} {n : Nat} (as : List α)
    (h : ∀ a, (f a).depth ≤ n) : (Json.array (as.map f)).depth ≤ n + 1 :=
  Nat.succ_le_succ (itemsDepth_le.2 (by simpa using fun a _ => h a))

theorem depth_ofOption_le {α : Type} {f : α → Json} {n : Nat} (a : Option α)
    (h : ∀ a, (f a).depth ≤ n) : (ofOption f a).depth ≤ n := by
  cases a with
  | none => exact Nat.zero_le n
  | some a => exact h a

theorem depth_variant_le {tag : String} {body : Json} {n : Nat} (h : body.depth ≤ n) :
    (variant tag body).depth ≤ n + 1 := depth_object_le (by simpa using h)

theorem depth_strings_le (ss : List String) : (strings ss).depth ≤ 1 :=
  depth_map_le ss fun _ => Nat.le_refl 0

end Json

theorem SqlValue.depth_le (v : SqlValue) : v.toJson.depth ≤ 2 := by
  cases v with
  | null => exact Nat.zero_le 2
  | blob bytes => exact depth_variant_le (depth_map_le bytes fun _ => Nat.le_refl 0)
  | _ => exact depth_variant_le (Nat.zero_le 1)

theorem BindSlot.depth_le (s : BindSlot) : s.toJson.depth ≤ 3 := by
  cases s with
  | value v => exact depth_variant_le v.depth_le
  | column => exact depth_variant_le (depth_object_le (by simp [depth]))

theorem LockTimeout.depth_le (t : LockTimeout) : t.toJson.depth ≤ 1 := by
  cases t with
  | seconds => exact depth_variant_le (Nat.le_refl 0)
  | _ => exact Nat.zero_le 1

theorem LockOptions.depth_le (o : LockOptions) : o.toJson.depth ≤ 2 := by
  have hfollowOn : (ofOption .bool o.followOnLocking).depth ≤ 1 :=
    depth_ofOption_le _ fun _ => Nat.zero_le 1
  exact depth_object_le
    (by simp [depth, o.timeout.depth_le, depth_strings_le o.aliases, hfollowOn])

theorem ForUpdateClause.depth_le (c : ForUpdateClause) : c.toJson.depth ≤ 2 :=
  depth_object_le (by simp [depth, c.timeout.depth_le, depth_strings_le c.aliases])

theorem CapabilityGap.depth_le (g : CapabilityGap) : g.toJson.depth ≤ 2 := by
  cases g with
  | cycleClause => exact depth_variant_le (depth_object_le (by simp [depth]))
  | rowLocking => exact Nat.zero_le 2

theorem LockingCapabilities.depth_le (c : LockingCapabilities) : c.toJson.depth ≤ 1 :=
  depth_object_le (by simp [depth])

theorem Capabilities.depth_le (c : Capabilities) : c.toJson.depth ≤ 2 := by
  have hdual : (ofOption .string c.dualTable).depth ≤ 1 :=
    depth_ofOption_le _ fun _ => Nat.zero_le 1
  exact depth_object_le (by simp [depth, hdual, c.locking.depth_le])

theorem TranslatedSql.depth_le (t : TranslatedSql) : t.toJson.depth ≤ 5 := by
  have hparameters := depth_map_le t.parameters BindSlot.depth_le
  have hlock := depth_ofOption_le t.followOnLock ForUpdateClause.depth_le
  have hgaps := depth_map_le t.gaps CapabilityGap.depth_le
  have htables := depth_strings_le t.affectedTables
  refine depth_object_le ?_
  simp only [TranslatedSql.fields, List.forall_mem_cons, List.not_mem_nil, false_imp_iff,
    implies_true, and_true]
  exact ⟨Nat.zero_le 4, hparameters, by omega, by omega, by omega⟩

namespace CommandLine

/-- A statement of exact values whose document is not too deep is read from its texts. -/
theorem readStatement_of_readsBack {s : Statement}
    (h : ReadsBack Statement.ofJson? s.toJson s) (hdepth : s.toJson.depth ≤ statementLevels)
    {text : String} (htext : text = s.toJson.compress ∨ text = s.toJson.pretty) :
    readStatement text = .ok s := by
  obtain rfl | rfl := htext
  · rw [readStatement, h.line _ _ _ hdepth]
  · rw [readStatement, h.lines _ _ _ hdepth]

end CommandLine

/-- Documents are read back: those of statements and translations with exact values, capabilities
and lock options. Only a statement can be too deep for its texts to be read; one that is not is
translated as before. -/
theorem documents_read_back :
    (∀ s : Statement, s.Each SqlValue.IsExact →
      ReadsBack Statement.ofJson? s.toJson s ∧
      (s.toJson.depth ≤ CommandLine.statementLevels →
        ∀ text, text = s.toJson.compress ∨ text = s.toJson.pretty →
          CommandLine.readStatement text = .ok s ∧
          ∀ d lock, (CommandLine.readStatement text).map (translateWithLock d · lock) =
            .ok (translateWithLock d s lock))) ∧
    (∀ c : Capabilities, ReadsBack Capabilities.ofJson? c.toJson c ∧
      c.toJson.depth ≤ CommandLine.statementLevels) ∧
    (∀ o : LockOptions, ReadsBack LockOptions.ofJson? o.toJson o ∧
      o.toJson.depth ≤ CommandLine.statementLevels) ∧
    (∀ t : TranslatedSql, (∀ s ∈ t.parameters, s.Each SqlValue.IsExact) →
      t.affectedTables.Pairwise (· < ·) →
      ReadsBack TranslatedSql.ofJson? t.toJson t ∧
      t.toJson.depth ≤ CommandLine.statementLevels) := by
  refine ⟨fun s hs => ?_, fun c => ⟨c.carries.readsBack, c.depth_le.trans (by decide)⟩,
    fun o => ⟨o.carries.readsBack, o.depth_le.trans (by decide)⟩, fun t hp ht =>
    ⟨(TranslatedSql.carries hp ht).readsBack, t.depth_le.trans (by decide)⟩⟩
  have hback := (Statement.carries hs).readsBack
  refine ⟨hback, fun hdepth text htext => ?_⟩
  have hread := CommandLine.readStatement_of_readsBack hback hdepth htext
  exact ⟨hread, fun d lock => by rw [hread]; rfl⟩

/-- A year before the first and a leap second are kept. -/
theorem documents_read_back_leapSecond :
    let t : Timestamp := ⟨-5, 2, 28, 23, 59, 59, 1500000000⟩
    let s : Statement := .delete ⟨⟨none, "t"⟩,
      some (.comparison (.column none "a") .lessThan (.literal (.timestamp t)))⟩
    let r : TranslatedSql := ⟨"", [.value (.timestamp t)], none, [], ["a", "b"]⟩
    s.Each SqlValue.IsExact ∧ s.toJson.depth ≤ CommandLine.statementLevels ∧
      CommandLine.readStatement s.toJson.pretty = .ok s ∧
      (∀ p ∈ r.parameters, p.Each SqlValue.IsExact) ∧ r.affectedTables.Pairwise (· < ·) ∧
      ReadsBack TranslatedSql.ofJson? r.toJson r := by
  intro t s r
  have ht : t.IsExpressible := Timestamp.isExpressible_iff.2 (by decide)
  have hs : s.Each SqlValue.IsExact := ⟨trivial, ht⟩
  have hdepth : s.toJson.depth ≤ CommandLine.statementLevels := by decide
  have hp : ∀ p ∈ r.parameters, p.Each SqlValue.IsExact := List.forall_mem_singleton.2 ht
  have htables : r.affectedTables.Pairwise (· < ·) := by decide
  exact ⟨hs, hdepth, ((documents_read_back.1 s hs).2 hdepth _ (.inr rfl)).1, hp, htables,
    (documents_read_back.2.2.2 r hp htables).1⟩

def Predicate.negations : Nat → Predicate
  | 0 => .boolean (.literal (.bool true))
  | n + 1 => .negated (negations n)

theorem Predicate.each_negations (n : Nat) : (negations n).Each SqlValue.IsExact := by
  induction n with
  | zero => trivial
  | succ n ih => exact ih

/-- As many negations as there are levels are too deep. -/
theorem Predicate.ofJson?_negations (l : Latitude) {n k : Nat} (h : n ≤ k) :
    Predicate.ofJson? l n (negations k).toJson = none := by
  induction n generalizing k with
  | zero => rw [Predicate.ofJson?.eq_def]
  | succ n ih =>
      cases k with
      | zero => exact absurd h (Nat.not_succ_le_zero n)
      | succ k =>
          have hbody := ih (Nat.le_of_succ_le_succ h)
          simp [negations, Predicate.toJson, variant, Predicate.ofJson?, hbody]

theorem DeleteStatement.ofJson?_negations (l : Latitude) (target : NamedTable) {n k : Nat}
    (h : n ≤ k) : DeleteStatement.ofJson? l (n + 1)
      (DeleteStatement.toJson ⟨target, some (Predicate.negations k)⟩) = none := by
  have hnone := Predicate.ofJson?_negations l h
  have hnamed : Record.optional [("target", target.toJson),
      ("restriction", (Predicate.negations k).toJson)] "restriction" (Predicate.ofJson? l n) =
      none := by
    rw [optional_of_named rfl]
    cases k <;> exact congrArg (Option.map some) hnone
  simp only [DeleteStatement.ofJson?, DeleteStatement.toJson, record?, optionalPredicateToJson,
    Option.bind_eq_bind, Option.bind_some, hnamed, Option.bind_none, Option.bind_fun_none]

/-- A statement is not read from its text where it has as many negations as there are levels. -/
theorem CommandLine.readStatement_negations (target : NamedTable) {k : Nat}
    (h : statementLevels ≤ k) :
    readStatement (Statement.delete ⟨target, some (Predicate.negations k)⟩).toJson.compress =
      .error .invalidStatement := by
  have hplain := (Statement.carries (s := .delete ⟨target, some (Predicate.negations k)⟩)
    (Predicate.each_negations k)).plain
  have hnone : Statement.ofJson? .listed statementLevels
      (Statement.delete ⟨target, some (Predicate.negations k)⟩).toJson = none :=
    congrArg (Option.map Statement.delete) (DeleteStatement.ofJson?_negations .listed target
      (n := 125) ((by decide : 125 ≤ statementLevels).trans h))
  rw [readStatement, parseWith?_compress _ hplain, Option.bind_eq_bind, Option.bind_some, hnone]

/-- The text of a statement with exact values is not read where it has 130 negations. -/
theorem document_unread_negations :
    (Statement.delete ⟨⟨none, "t"⟩, some (Predicate.negations 130)⟩).Each SqlValue.IsExact ∧
      CommandLine.readStatement
          (Statement.delete ⟨⟨none, "t"⟩, some (Predicate.negations 130)⟩).toJson.compress =
        .error .invalidStatement :=
  ⟨Predicate.each_negations 130, CommandLine.readStatement_negations _ (by decide)⟩

end DialectSql
