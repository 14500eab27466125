import DialectSql.Proofs.Quoting.Simple

namespace DialectSql

/-- No single quote occurs in the text. -/
def Unquoted (s : String) : Prop := '\'' ∉ s.toList

instance (s : String) : Decidable (Unquoted s) := inferInstanceAs (Decidable (_ ∉ _))

theorem IsSimple.unquoted {s : String} (h : IsSimple s) : Unquoted s :=
  fun hquote => absurd (h _ hquote) (by decide)

namespace Unquoted

variable {a b : String}

theorem append (ha : Unquoted a) (hb : Unquoted b) : Unquoted (a ++ b) := by
  rw [Unquoted, String.toList_append, List.mem_append, not_or]
  exact ⟨ha, hb⟩

theorem ite {p : Prop} [Decidable p] (ha : Unquoted a) (hb : Unquoted b) :
    Unquoted (if p then a else b) := by
  split
  · exact ha
  · exact hb

theorem nat (n : Nat) : Unquoted (toString n) := (IsSimple.nat n).unquoted

theorem int (n : Int) : Unquoted (toString n) := (IsSimple.int n).unquoted

end Unquoted

theorem Binary64.unquoted_statementText (x : Binary64) : Unquoted x.statementText :=
  x.isSimple_statementText.unquoted

end DialectSql
