import DialectSql.Proofs.Condition.Value

namespace DialectSql

/-- The comma between two items of a list. -/
def Part.comma : Part := .leaf (.mark ",")

namespace Output

variable {o : Output} {words : List String}

theorem Within.comma_notMem (h : o.Within (Lexeme.avoids words)) (hword : "," ∈ words)
    (hok : o.failure = none) : Part.comma ∉ o.parts := by
  intro hmem
  have hallowed := h.parts_allowed hok _ hmem
  simp [Part.comma, Part.isAllowed, Lexeme.avoids, Lexeme.key?, hword] at hallowed

theorem parts_comma {a b : Output} (ha : a.Within Lexeme.ofQuery) (hb : b.Within Lexeme.ofQuery)
    (hok : (a ++ word ", " ++ b).failure = none) :
    (a ++ word ", " ++ b).parts = a.parts ++ Part.comma :: b.parts :=
  parts_delimited (by decide) rfl ha hb hok

/-- The items of a list are those of its members. -/
theorem splitOn_parts_list {os : List Output} (hne : os ≠ [])
    (hos : ∀ o ∈ os, o.Within Lexeme.ofQuery) (hok : (list os).failure = none) :
    (list os).parts.splitOn Part.comma = os.flatMap (·.parts.splitOn Part.comma) := by
  induction os with
  | nil => exact absurd rfl hne
  | cons o os ih =>
      cases os with
      | nil => simp [list, joined]
      | cons p os =>
          have hrest : ∀ q ∈ p :: os, q.Within Lexeme.ofQuery := fun q hq =>
            hos q (List.mem_cons_of_mem o hq)
          have hlist : (list (p :: os)).Within Lexeme.ofQuery :=
            Layers.reading.ofQuery.joined rfl hrest
          change (o ++ word ", " ++ list (p :: os)).failure = none at hok
          change (o ++ word ", " ++ list (p :: os)).parts.splitOn Part.comma = _
          rw [parts_comma (hos o (by simp)) hlist hok, List.splitOn_append_cons_self,
            ih (by simp) hrest (failure_append_eq_none.1 hok).2]
          rfl

end Output

end DialectSql
