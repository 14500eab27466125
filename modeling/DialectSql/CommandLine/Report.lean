import DialectSql.Render.Diagnostic

namespace DialectSql.TranslatedSql

/-- The note of a bind slot: what it is bound to. -/
def slotNote (position : Nat) (slot : BindSlot) : String :=
  "?" ++ toString position ++ ": " ++
    match slot with
    | .value v => v.literalText
    | .column table column usage => table ++ "." ++ column ++ " (" ++ usage.sql ++ ")"

def slotNotes : Nat → List BindSlot → List String
  | _, [] => []
  | position, slot :: slots => slotNote position slot :: slotNotes (position + 1) slots

/-- What there is to say about a statement besides its text: its slots, the lock that is left to a
following statement, and what was not rendered. -/
def notes (t : TranslatedSql) : List String :=
  slotNotes 1 t.parameters ++
    (t.followOnLock.toList.map fun lock => "follow-on lock: " ++ lock.mode.name) ++
    t.gaps.map fun gap => "not rendered: " ++ gap.diagnostic

def report (t : TranslatedSql) : String :=
  t.sql ++ "\n" ++ String.join (t.notes.map fun note => "-- " ++ note ++ "\n")

end DialectSql.TranslatedSql
