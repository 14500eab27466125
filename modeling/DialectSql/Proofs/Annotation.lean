import DialectSql.CommandLine.Report
import DialectSql.Proofs.Quoting.Simple
import Mathlib.Data.List.Forall2

namespace DialectSql

/-- No line break occurs in the text. -/
def IsOneLine (s : String) : Prop := '\n' ∉ s.toList

instance (s : String) : Decidable (IsOneLine s) := inferInstanceAs (Decidable (_ ∉ _))

theorem isOneLine_append {a b : String} : IsOneLine (a ++ b) ↔ IsOneLine a ∧ IsOneLine b := by
  rw [IsOneLine, String.toList_append, List.mem_append, not_or]
  rfl

theorem isOneLine_join {ss : List String} :
    IsOneLine (String.join ss) ↔ ∀ s ∈ ss, IsOneLine s := by
  induction ss with
  | nil => simp [IsOneLine]
  | cons s ss ih => rw [String.join_cons, isOneLine_append, ih, List.forall_mem_cons]

theorem IsSimple.isOneLine {s : String} (h : IsSimple s) : IsOneLine s :=
  fun hbreak => absurd (h _ hbreak) (by decide)

theorem mem_quoteChars {d : Char} {cs : List Char} : d ∈ quoteChars cs ↔ d ∈ cs := by
  induction cs with
  | nil => rfl
  | cons c cs ih =>
      rw [quoteChars]
      split
      · next hc => simp [hc, ih]
      · simp [ih]

theorem quoteChars_append (cs ds : List Char) :
    quoteChars (cs ++ ds) = quoteChars cs ++ quoteChars ds := by
  induction cs with
  | nil => rfl
  | cons c cs ih =>
      rw [List.cons_append, quoteChars, quoteChars, ih]
      split <;> rfl

theorem isOneLine_quoted (s : String) : IsOneLine (quoted s) ↔ IsOneLine s := by
  simp [IsOneLine, quoted, mem_quoteChars]

/-- Only a text can have line breaks. -/
def SqlValue.IsOneLine : SqlValue → Prop
  | .text s => DialectSql.IsOneLine s
  | _ => True

theorem SqlValue.isOneLine_literalText (v : SqlValue) :
    DialectSql.IsOneLine v.literalText ↔ v.IsOneLine := by
  cases v with
  | text s => exact isOneLine_quoted s
  | null => exact iff_of_true (by decide) trivial
  | bool b => exact iff_of_true (by cases b <;> decide) trivial
  | int n => exact iff_of_true (IsSimple.int _).isOneLine trivial
  | float x => exact iff_of_true x.isSimple_statementText.isOneLine trivial
  | blob bytes =>
      have hhex := (isOneLine_quoted _).2 (isSimple_hexBytes bytes).isOneLine
      exact iff_of_true (isOneLine_append.2 ⟨by decide, hhex⟩) trivial
  | timestamp t =>
      have htime := (isOneLine_quoted _).2 t.isSimple_sqlText.isOneLine
      exact iff_of_true (isOneLine_append.2 ⟨by decide, htime⟩) trivial

/-- Neither the value nor the names have line breaks. -/
def BindSlot.IsOneLine : BindSlot → Prop
  | .value v => v.IsOneLine
  | .column table name _ => DialectSql.IsOneLine table ∧ DialectSql.IsOneLine name

namespace Diagnostic

theorem isOneLine_numbered (c : Char) : IsOneLine (numbered c) := by
  have hdigits : IsSimple (String.ofList (Nat.toDigits 16 c.toNat)) :=
    .ofList (IsSimple.digits (by decide) (by decide) _)
  exact isOneLine_append.2 ⟨isOneLine_append.2 ⟨by decide, hdigits.isOneLine⟩, by decide⟩

/-- A line break is written as an escape. -/
theorem isOneLine_escape (c : Char) : IsOneLine (escape c) := by
  rw [escape]
  split_ifs with _ _ _ _ hbreak
  iterate 6 decide
  · exact isOneLine_numbered c
  · simpa [IsOneLine] using Ne.symm hbreak

theorem isOneLine_text (s : String) : IsOneLine (text s) := by
  have hescaped : IsOneLine (String.join (s.toList.map escape)) := by
    rw [isOneLine_join, List.forall_mem_map]
    exact fun c _ => isOneLine_escape c
  exact isOneLine_append.2 ⟨isOneLine_append.2 ⟨by decide, hescaped⟩, by decide⟩

end Diagnostic

theorem CapabilityGap.isOneLine_diagnostic (g : CapabilityGap) : IsOneLine g.diagnostic := by
  cases g with
  | rowLocking => decide
  | cycleClause cte =>
      have hfield : IsOneLine ("cte" ++ ": " ++ Diagnostic.text cte) :=
        isOneLine_append.2 ⟨by decide, Diagnostic.isOneLine_text cte⟩
      exact isOneLine_append.2 ⟨isOneLine_append.2 ⟨by decide, hfield⟩, by decide⟩

namespace TranslatedSql

theorem isOneLine_slotNote (position : Nat) (slot : BindSlot) :
    IsOneLine (slotNote position slot) ↔ slot.IsOneLine := by
  have hposition : IsOneLine ("?" ++ toString position) :=
    isOneLine_append.2 ⟨by decide, (IsSimple.nat position).isOneLine⟩
  have hlabel : IsOneLine ("?" ++ toString position ++ ": ") :=
    isOneLine_append.2 ⟨hposition, by decide⟩
  rw [slotNote.eq_def, isOneLine_append, and_iff_right hlabel]
  cases slot with
  | value v => exact v.isOneLine_literalText
  | column table column usage =>
      have hpoint : IsOneLine "." := by decide
      have hopening : IsOneLine " (" := by decide
      have husage : IsOneLine usage.sql := by cases usage <;> decide
      have hclosing : IsOneLine ")" := by decide
      simp only [isOneLine_append, hpoint, hopening, husage, hclosing, and_true, BindSlot.IsOneLine]

theorem slotNote_mem {slots : List BindSlot} {slot : BindSlot} (h : slot ∈ slots) (position : Nat) :
    ∃ n, slotNote n slot ∈ slotNotes position slots := by
  induction slots generalizing position with
  | nil => cases h
  | cons first slots ih =>
      rw [slotNotes]
      rcases List.mem_cons.1 h with rfl | h
      · exact ⟨position, List.mem_cons_self ..⟩
      · obtain ⟨n, hn⟩ := ih h (position + 1)
        exact ⟨n, List.mem_cons_of_mem _ hn⟩

theorem isOneLine_slotNotes (position : Nat) (slots : List BindSlot) :
    (∀ note ∈ slotNotes position slots, IsOneLine note) ↔ ∀ slot ∈ slots, slot.IsOneLine := by
  induction slots generalizing position with
  | nil => simp [slotNotes]
  | cons slot slots ih =>
      rw [slotNotes, List.forall_mem_cons, List.forall_mem_cons, isOneLine_slotNote, ih]

variable (t : TranslatedSql)

/-- What is said about the lock and the gaps has no line breaks, whatever their names are. -/
theorem isOneLine_notes :
    (∀ note ∈ t.notes, IsOneLine note) ↔ ∀ slot ∈ t.parameters, slot.IsOneLine := by
  have hlock : ∀ note ∈ t.followOnLock.toList.map fun lock => "follow-on lock: " ++ lock.mode.name,
      IsOneLine note := by
    rw [List.forall_mem_map]
    intro lock _
    exact isOneLine_append.2 ⟨by decide, by cases lock.mode <;> decide⟩
  have hgaps : ∀ note ∈ t.gaps.map fun gap => "not rendered: " ++ gap.diagnostic,
      IsOneLine note := by
    rw [List.forall_mem_map]
    exact fun g _ => isOneLine_append.2 ⟨by decide, g.isOneLine_diagnostic⟩
  rw [notes, List.forall_mem_append, List.forall_mem_append, isOneLine_slotNotes]
  exact ⟨fun h => h.1.1, fun h => ⟨⟨h, hlock⟩, hgaps⟩⟩

/-- What the notes begin with: the position of a slot for each slot in order, then what is said of a
lock, if there is one, and of each gap. -/
def labels : List String :=
  (List.range' 1 t.parameters.length).map (fun position => "?" ++ toString position ++ ": ") ++
    (t.followOnLock.toList.map fun _ => "follow-on lock: ") ++ t.gaps.map fun _ => "not rendered: "

theorem slotNotes_labels (position : Nat) (slots : List BindSlot) :
    List.Forall₂ (fun label note => ∃ text, note = label ++ text)
      ((List.range' position slots.length).map fun n => "?" ++ toString n ++ ": ")
      (slotNotes position slots) := by
  induction slots generalizing position with
  | nil => exact .nil
  | cons slot slots ih =>
      rw [List.length_cons, List.range'_succ, List.map_cons, slotNotes]
      exact .cons ⟨_, slotNote.eq_def ..⟩ (ih (position + 1))

theorem notes_labels :
    List.Forall₂ (fun label note => ∃ text, note = label ++ text) t.labels t.notes := by
  refine List.rel_append (List.rel_append (slotNotes_labels 1 t.parameters) ?_) ?_
  · rw [List.forall₂_map_left_iff, List.forall₂_map_right_iff, List.forall₂_same]
    exact fun lock _ => ⟨lock.mode.name, rfl⟩
  · rw [List.forall₂_map_left_iff, List.forall₂_map_right_iff, List.forall₂_same]
    exact fun g _ => ⟨g.diagnostic, rfl⟩

end TranslatedSql

/-- The text of some lines, each with a line break behind it. -/
def linesText (lines : List String) : String := String.join (lines.map (· ++ "\n"))

theorem linesText_cons (line : String) (lines : List String) :
    linesText (line :: lines) = line ++ "\n" ++ linesText lines := by
  rw [linesText, List.map_cons, String.join_cons]
  rfl

theorem linesText_append (lines more : List String) :
    linesText (lines ++ more) = linesText lines ++ linesText more := by
  rw [linesText, List.map_append, String.join_append]
  rfl

def lineBreaks (s : String) : Nat := s.toList.count '\n'

theorem isOneLine_iff {s : String} : IsOneLine s ↔ lineBreaks s = 0 := List.count_eq_zero.symm

theorem lineBreaks_append (a b : String) : lineBreaks (a ++ b) = lineBreaks a + lineBreaks b := by
  rw [lineBreaks, String.toList_append, List.count_append]
  rfl

theorem lineBreaks_linesText_cons (line : String) (lines : List String) :
    lineBreaks (linesText (line :: lines)) = lineBreaks line + 1 + lineBreaks (linesText lines) := by
  rw [linesText_cons, lineBreaks_append, lineBreaks_append]
  rfl

theorem length_le_lineBreaks (lines : List String) :
    lines.length ≤ lineBreaks (linesText lines) := by
  induction lines with
  | nil => exact Nat.zero_le _
  | cons line lines ih =>
      rw [lineBreaks_linesText_cons, List.length_cons]
      omega

/-- A text has the line breaks behind its lines only, unless a line has one itself. -/
theorem lineBreaks_linesText {lines : List String} :
    lineBreaks (linesText lines) = lines.length ↔ ∀ line ∈ lines, IsOneLine line := by
  induction lines with
  | nil => exact iff_of_true rfl nofun
  | cons line lines ih =>
      have hlength := length_le_lineBreaks lines
      rw [lineBreaks_linesText_cons, List.length_cons, List.forall_mem_cons, ← ih, isOneLine_iff]
      omega

/-- Lines that make up the same text as equally many others have line breaks only if those have. -/
theorem isOneLine_of_linesText {lines notes : List String} (h : linesText lines = linesText notes)
    (hlength : lines.length = notes.length) (hlines : ∀ line ∈ lines, IsOneLine line) :
    ∀ note ∈ notes, IsOneLine note := by
  rw [← lineBreaks_linesText, ← h, ← hlength]
  exact lineBreaks_linesText.2 hlines

namespace TranslatedSql

/-- A comment line that begins with a label. -/
def IsAnnotation (label line : String) : Prop :=
  IsOneLine line ∧ ∃ text, line = "-- " ++ label ++ text

variable (t : TranslatedSql)

theorem report_eq : t.report = t.sql ++ "\n" ++ linesText (t.notes.map ("-- " ++ ·)) := by
  rw [report, linesText, List.map_map]
  rfl

theorem report_of_mem {note : String} (h : note ∈ t.notes) :
    ∃ before behind, t.report = before ++ note ++ behind := by
  obtain ⟨before, behind, hnotes⟩ := List.append_of_mem h
  refine ⟨t.sql ++ "\n" ++ linesText (before.map ("-- " ++ ·)) ++ "-- ",
    "\n" ++ linesText (behind.map ("-- " ++ ·)), ?_⟩
  rw [report_eq, hnotes, List.map_append, List.map_cons, linesText_append, linesText_cons]
  simp only [String.append_assoc]

/-- What stands behind a line break of a bound text begins a line, with its quotes doubled. -/
theorem report_lineBreak {a b : String} (h : .value (.text (a ++ "\n" ++ b)) ∈ t.parameters) :
    ∃ before behind,
      t.report = before ++ "\n" ++ String.ofList (quoteChars b.toList) ++ behind := by
  obtain ⟨n, hn⟩ := slotNote_mem h 1
  have hmem : slotNote n _ ∈ t.notes := List.mem_append_left _ (List.mem_append_left _ hn)
  obtain ⟨before, behind, hreport⟩ := t.report_of_mem hmem
  have hquoted : quoted (a ++ "\n" ++ b) = "'" ++ String.ofList (quoteChars a.toList) ++ "\n" ++
      String.ofList (quoteChars b.toList) ++ "'" := by
    apply String.toList_injective
    simp [quoted, quoteChars_append, quoteChars]
  have hnote : slotNote n (.value (.text (a ++ "\n" ++ b))) =
      "?" ++ toString n ++ ": " ++ quoted (a ++ "\n" ++ b) := rfl
  refine ⟨before ++ ("?" ++ toString n ++ ": " ++ ("'" ++ String.ofList (quoteChars a.toList))),
    "'" ++ behind, ?_⟩
  rw [hreport, hnote, hquoted]
  simp only [String.append_assoc]

/-- Behind the text of a statement its report consists of comment lines, one for each slot, the lock
and each gap, exactly if no bound text and no name of a bound column has a line break. What stands
behind a line break of a bound text begins a line without a sign of a comment in front of it. -/
theorem report_annotated :
    ((∃ lines, t.report = t.sql ++ "\n" ++ linesText lines ∧
      List.Forall₂ IsAnnotation t.labels lines) ↔ ∀ slot ∈ t.parameters, slot.IsOneLine) ∧
    ∀ a b : String, .value (.text (a ++ "\n" ++ b)) ∈ t.parameters → ∃ before behind,
      t.report = before ++ "\n" ++ String.ofList (quoteChars b.toList) ++ behind := by
  refine ⟨?_, fun a b => t.report_lineBreak⟩
  have hcomment : IsOneLine "-- " := by decide
  rw [← t.isOneLine_notes]
  constructor
  · rintro ⟨lines, hreport, hlines⟩
    have htext : linesText lines = linesText (t.notes.map ("-- " ++ ·)) := by
      rw [t.report_eq] at hreport
      exact (String.append_right_inj _).1 hreport.symm
    have hlength : lines.length = (t.notes.map ("-- " ++ ·)).length := by
      rw [List.length_map, ← hlines.length_eq, t.notes_labels.length_eq]
    have honeLine : ∀ line ∈ lines, IsOneLine line :=
      ((List.forall₂_and_left lines t.labels).1 hlines.flip).1
    have hnotes := isOneLine_of_linesText htext hlength honeLine
    rw [List.forall_mem_map] at hnotes
    exact fun note hnote => (isOneLine_append.1 (hnotes note hnote)).2
  · intro hnotes
    refine ⟨t.notes.map ("-- " ++ ·), t.report_eq, ?_⟩
    rw [List.forall₂_map_right_iff]
    have hboth := ((List.forall₂_and_left t.notes t.labels).2 ⟨hnotes, t.notes_labels.flip⟩).flip
    refine hboth.imp fun label note ⟨honeLine, text, hnote⟩ => ?_
    exact ⟨isOneLine_append.2 ⟨hcomment, honeLine⟩, text, by rw [hnote, String.append_assoc]⟩

/-- A name is kept in its comment, and a statement behind a line break is not. -/
theorem report_annotated_statement :
    let t (name : String) : TranslatedSql :=
      ⟨"select id from person where name=?", [.value (.text name)], none, [], ["person"]⟩
    let annotated (t : TranslatedSql) := ∃ lines, t.report = t.sql ++ "\n" ++ linesText lines ∧
      List.Forall₂ IsAnnotation t.labels lines
    annotated (t "Ada") ∧ ¬ annotated (t ("Ada" ++ "\n" ++ "drop table person")) ∧
      ∃ before behind, (t ("Ada" ++ "\n" ++ "drop table person")).report =
        before ++ "\n" ++ "drop table person" ++ behind := by
  intro t annotated
  refine ⟨(report_annotated (t "Ada")).1.2 ?_, fun h => ?_, ?_⟩
  · simp only [t, List.forall_mem_singleton]
    exact (by decide : DialectSql.IsOneLine "Ada")
  · have honeLine : DialectSql.IsOneLine ("Ada" ++ "\n" ++ "drop table person") :=
      (report_annotated _).1.1 h _ (List.mem_singleton_self _)
    exact absurd honeLine (by decide)
  · exact (report_annotated (t _)).2 "Ada" "drop table person" (List.mem_singleton_self _)

end TranslatedSql

end DialectSql
