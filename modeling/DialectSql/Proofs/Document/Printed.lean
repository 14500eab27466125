import DialectSql.Proofs.Document.Spelling
import Mathlib.Data.List.Forall2

namespace DialectSql.Json

mutual

/-- No float stands in the document, nothing void, and no integer beyond 64 bits. -/
def Plain : Json → Prop
  | .int n => Fits n
  | .float _ => False
  | .void => False
  | .array items => ItemsPlain items
  | .object members => MembersPlain members
  | _ => True

def ItemsPlain : List Json → Prop
  | [] => True
  | j :: js => j.Plain ∧ ItemsPlain js

def MembersPlain : List (String × Json) → Prop
  | [] => True
  | (_, j) :: ms => j.Plain ∧ MembersPlain ms

end

/-- The item as it stands in a list, blanks before it. -/
def SpellsItem (j : Json) (text : String) : Prop :=
  ∃ b cs, Blank b ∧ Spells j cs ∧ text.toList = b ++ cs

/-- The member as it stands in an object, blanks before its name and its value. -/
def SpellsMember (m : String × Json) (text : String) : Prop :=
  ∃ b f cs, Blank b ∧ Blank f ∧ Spells m.2 cs ∧
    text.toList = b ++ (quote m.1).toList ++ ':' :: (f ++ cs)

theorem blank_nil : Blank [] := by simp [Blank]

theorem spellsItems_intercalate {js : List Json} {texts : List String} {e : List Char}
    (h : List.Forall₂ SpellsItem js texts) (he : Blank e) :
    SpellsItems js ((",".intercalate texts).toList ++ e) := by
  induction h with
  | nil => exact .nil he
  | cons hj hjs ih =>
      obtain ⟨b, cs, hb, hcs, htext⟩ := hj
      cases hjs with
      | nil =>
          rw [String.intercalate_singleton, htext]
          exact .single hb hcs he
      | cons =>
          rw [String.intercalate_cons_cons, String.toList_append, String.toList_append, htext]
          simpa using SpellsItems.cons hb hcs blank_nil ih

theorem spellsMembers_intercalate {ms : List (String × Json)} {texts : List String}
    {e : List Char} (h : List.Forall₂ SpellsMember ms texts) (he : Blank e) :
    SpellsMembers ms ((",".intercalate texts).toList ++ e) := by
  induction h with
  | nil => exact .nil he
  | cons hm hms ih =>
      obtain ⟨b, f, cs, hb, hf, hcs, htext⟩ := hm
      cases hms with
      | nil =>
          rw [String.intercalate_singleton, htext]
          simpa using SpellsMembers.single hb blank_nil hf hcs he
      | cons =>
          rw [String.intercalate_cons_cons, String.toList_append, String.toList_append, htext]
          simpa using SpellsMembers.cons hb blank_nil hf hcs blank_nil ih

theorem spells_array {js : List Json} {texts : List String} (closing : String)
    (h : List.Forall₂ SpellsItem js texts) (hclosing : Blank closing.toList) :
    Spells (.array js) ("[" ++ ",".intercalate texts ++ closing ++ "]").toList := by
  simpa using Spells.array (spellsItems_intercalate h hclosing)

theorem spells_object {ms : List (String × Json)} {texts : List String} (closing : String)
    (h : List.Forall₂ SpellsMember ms texts) (hclosing : Blank closing.toList) :
    Spells (.object ms) ("\x7b" ++ ",".intercalate texts ++ closing ++ "\x7d").toList := by
  simpa using Spells.object (spellsMembers_intercalate h hclosing)

theorem blank_indentation (level : Nat) : Blank (indentation level).toList := by
  intro c hc
  simp only [indentation, String.toList_append, String.toList_ofList, List.mem_append,
    List.mem_replicate] at hc
  obtain hc | ⟨-, rfl⟩ := hc
  · rw [show "\n".toList = ['\n'] from rfl, List.mem_singleton] at hc
    subst hc
    rfl
  · rfl

theorem spells_bool (b : Bool) : Spells (.bool b) (if b then "true" else "false").toList := by
  cases b
  · exact .false
  · exact .true

mutual

/-- The line of a document is a text of it. -/
theorem spells_compress {j : Json} (h : j.Plain) : Spells j j.compress.toList := by
  cases j with
  | null => exact .null
  | bool b => exact spells_bool b
  | int n => exact .int h
  | float | void => exact h.elim
  | string s => exact .string s
  | array js =>
      simpa [compress] using spells_array "" (spells_compressItems h) blank_nil
  | object ms =>
      simpa [compress] using spells_object "" (spells_compressMembers h) blank_nil

theorem spells_compressItems {js : List Json} (h : ItemsPlain js) :
    List.Forall₂ SpellsItem js (compressItems js) := by
  cases js with
  | nil => exact .nil
  | cons j js =>
      exact .cons ⟨[], _, blank_nil, spells_compress h.1, rfl⟩ (spells_compressItems h.2)

theorem spells_compressMembers {ms : List (String × Json)} (h : MembersPlain ms) :
    List.Forall₂ SpellsMember ms (compressMembers ms) := by
  cases ms with
  | nil => exact .nil
  | cons m ms =>
      exact .cons ⟨[], [], _, blank_nil, blank_nil, spells_compress h.1, by simp⟩
        (spells_compressMembers h.2)

end

mutual

/-- The indented lines of a document are a text of it. -/
theorem spells_prettyAt (level : Nat) {j : Json} (h : j.Plain) :
    Spells j (j.prettyAt level).toList := by
  cases j with
  | null =>
      rw [prettyAt]
      exact .null
  | bool b =>
      rw [prettyAt]
      exact spells_bool b
  | int n =>
      rw [prettyAt]
      exact .int h
  | float | void => exact h.elim
  | string s =>
      rw [prettyAt]
      exact .string s
  | array js =>
      cases js with
      | nil =>
          rw [prettyAt]
          exact .array (.nil blank_nil)
      | cons j js =>
          simp only [prettyAt]
          exact spells_array _ (spells_prettyItems (level + 1) h) (blank_indentation level)
  | object ms =>
      cases ms with
      | nil =>
          rw [prettyAt]
          exact .object (.nil blank_nil)
      | cons m ms =>
          simp only [prettyAt]
          exact spells_object _ (spells_prettyMembers (level + 1) h) (blank_indentation level)

theorem spells_prettyItems (level : Nat) {js : List Json} (h : ItemsPlain js) :
    List.Forall₂ SpellsItem js (prettyItems level js) := by
  cases js with
  | nil => exact .nil
  | cons j js =>
      exact .cons ⟨_, _, blank_indentation level, spells_prettyAt level h.1, by simp⟩
        (spells_prettyItems level h.2)

theorem spells_prettyMembers (level : Nat) {ms : List (String × Json)} (h : MembersPlain ms) :
    List.Forall₂ SpellsMember ms (prettyMembers level ms) := by
  cases ms with
  | nil => exact .nil
  | cons m ms =>
      exact .cons ⟨_, [' '], _, blank_indentation level, by simp [Blank, Reader.isBlank],
        spells_prettyAt level h.1, by simp⟩ (spells_prettyMembers level h.2)

end

section

variable (round : Reader.Numeral → Option Binary64) {j : Json} (h : j.Plain)
include h

/-- A plain document is what is read from its line. -/
theorem parseWith?_compress : parseWith? round j.compress = some j :=
  parseWith?_spells round (List.append_nil _).symm (spells_compress h) blank_nil

/-- A plain document is what is read from its indented lines. -/
theorem parseWith?_pretty : parseWith? round j.pretty = some j :=
  parseWith?_spells round (List.append_nil _).symm (spells_prettyAt 0 h) blank_nil

end

end DialectSql.Json
