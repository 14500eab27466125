import DialectSql.Proofs.Placeholder.Rendering
import DialectSql.Render.Translation

namespace DialectSql

namespace PlaceholderStyle

/-- Fragments with placeholders between them, numbered from `first` on. -/
def numbered (style : PlaceholderStyle) : Nat → List String → String
  | _, [] => ""
  | _, [f] => f
  | first, f :: g :: fs => f ++ style.render first ++ numbered style (first + 1) (g :: fs)

variable (style : PlaceholderStyle)

theorem numbered_cons (first : Nat) (f : String) {fs : List String} (h : fs ≠ []) :
    numbered style first (f :: fs) = f ++ style.render first ++ numbered style (first + 1) fs := by
  cases fs with
  | nil => exact absurd rfl h
  | cons g fs => rfl

theorem numbered_modifyHead (first : Nat) (s : String) {fs : List String} (h : fs ≠ []) :
    numbered style first (fs.modifyHead (s ++ ·)) = s ++ numbered style first fs := by
  cases fs with
  | nil => exact absurd rfl h
  | cons f fs =>
      cases fs with
      | nil => rfl
      | cons g fs => simp [numbered, String.append_assoc]

end PlaceholderStyle

namespace Translation

/-- The texts between the placeholders, with the fresh aliases numbered from `aliases` on. -/
def fragments : Nat → List Piece → List String
  | _, [] => [""]
  | aliases, .slot _ :: ps => "" :: fragments aliases ps
  | aliases, .derivedAlias :: ps =>
      (fragments (aliases + 1) ps).modifyHead (Piece.derivedAlias.text .question 0 aliases ++ ·)
  | aliases, p :: ps => (fragments aliases ps).modifyHead (p.text .question 0 aliases ++ ·)

theorem parameters_cons (p : Piece) (ps : List Piece) :
    parameters (p :: ps) = p.slot?.toList ++ parameters ps := by
  cases p <;> rfl

theorem length_fragments (aliases : Nat) (ps : List Piece) :
    (fragments aliases ps).length = (parameters ps).length + 1 := by
  induction ps generalizing aliases with
  | nil => rfl
  | cons p ps ih => cases p <;> simp [fragments, parameters_cons, Piece.slot?, ih]

theorem fragments_ne_nil (aliases : Nat) (ps : List Piece) : fragments aliases ps ≠ [] :=
  List.ne_nil_of_length_eq_add_one (length_fragments aliases ps)

variable (style : PlaceholderStyle)

theorem join_texts_numbered (slots aliases : Nat) (ps : List Piece) :
    String.join (texts style slots aliases ps) =
      style.numbered (slots + 1) (fragments aliases ps) := by
  induction ps generalizing slots aliases with
  | nil => rfl
  | cons p ps ih =>
      cases p with
      | slot s =>
          rw [fragments, style.numbered_cons _ _ (fragments_ne_nil aliases ps), ← ih]
          simp [texts, Piece.text]
      | derivedAlias =>
          rw [fragments, style.numbered_modifyHead _ _ (fragments_ne_nil _ ps), ← ih]
          simp [texts, Piece.text]
      | word | name | plain | quoted | table | gap | followOnLock =>
          rw [fragments, style.numbered_modifyHead _ _ (fragments_ne_nil _ ps), ← ih]
          · simp [texts, Piece.text]
          all_goals nofun

theorem sql_eq_numbered (ps : List Piece) :
    sql style ps = style.numbered 1 (fragments 0 ps) := join_texts_numbered style 0 0 ps

theorem exists_join_texts_append (slots aliases : Nat) (ps qs : List Piece) :
    ∃ aliases', String.join (texts style slots aliases (ps ++ qs)) =
      String.join (texts style slots aliases ps) ++
        String.join (texts style (slots + (parameters ps).length) aliases' qs) := by
  induction ps generalizing slots aliases with
  | nil => exact ⟨aliases, by simp [texts, parameters]⟩
  | cons p ps ih =>
      cases p with
      | slot s =>
          obtain ⟨aliases', h⟩ := ih (slots + 1) aliases
          refine ⟨aliases', ?_⟩
          have hslots : slots + 1 + (parameters ps).length =
              slots + (parameters (.slot s :: ps)).length := by
            simp [parameters_cons, Piece.slot?]
            omega
          simp [texts, h, hslots, String.append_assoc]
      | derivedAlias =>
          obtain ⟨aliases', h⟩ := ih slots (aliases + 1)
          exact ⟨aliases', by
            simp [texts, h, String.append_assoc, parameters_cons, Piece.slot?]⟩
      | word | name | plain | quoted | table | gap | followOnLock =>
          obtain ⟨aliases', h⟩ := ih slots aliases
          exact ⟨aliases', by
            simp [texts, h, String.append_assoc, parameters_cons, Piece.slot?]⟩

/-- The placeholder of a slot has the number of its parameter. -/
theorem sql_slot (before after : List Piece) (b : BindSlot) :
    (∃ rest, sql style (before ++ .slot b :: after) =
      sql style before ++ style.render ((parameters before).length + 1) ++ rest) ∧
    (parameters (before ++ .slot b :: after))[(parameters before).length]? = some b := by
  constructor
  · obtain ⟨aliases, h⟩ := exists_join_texts_append style 0 0 before (.slot b :: after)
    refine ⟨String.join (texts style ((parameters before).length + 1) aliases after), ?_⟩
    rw [sql, h, Nat.zero_add]
    simp [texts, Piece.text, sql, String.append_assoc]
  · simp [parameters, Piece.slot?]

theorem ofOutput_of_failure {o : Output} {e : TranslateError} (h : o.failure = some e) :
    ofOutput style o = .error e := by
  rw [ofOutput, h]

theorem ofOutput_of_complete {o : Output} (h : o.failure = none) :
    ofOutput style o = .ok (ofPieces style o.pieces) := by
  rw [ofOutput, h]

end Translation

theorem translateWithLock_withPlaceholder (d : Dialect) (style : PlaceholderStyle) (s : Statement)
    (l : LockOptions) :
    translateWithLock (d.withPlaceholder style) s l =
      Translation.ofOutput style (Render.statement d l s) := by
  rw [translateWithLock, Render.statement_withPlaceholder]
  rfl

/-- Placeholders and parameters are aligned: in each style the text is the same fragments with the
placeholders between them, numbered from the left, and each slot has the placeholder with the number
of its parameter. -/
theorem placeholders_aligned (d : Dialect) (l : LockOptions) (s : Statement) :
    (∃ e, ∀ style, translateWithLock (d.withPlaceholder style) s l = .error e) ∨
      ∃ (t : TranslatedSql) (fragments : List String),
        fragments.length = t.parameters.length + 1 ∧
        (∀ style, translateWithLock (d.withPlaceholder style) s l =
          .ok { t with sql := style.numbered 1 fragments }) ∧
        ∀ before b after, (Render.statement d l s).pieces = before ++ .slot b :: after →
          (∀ style, ∃ rest, style.numbered 1 fragments = Translation.sql style before ++
            style.render ((Translation.parameters before).length + 1) ++ rest) ∧
          t.parameters[(Translation.parameters before).length]? = some b := by
  cases h : (Render.statement d l s).failure with
  | some e =>
      left
      refine ⟨e, fun style => ?_⟩
      rw [translateWithLock_withPlaceholder, Translation.ofOutput_of_failure style h]
  | none =>
      right
      let ps := (Render.statement d l s).pieces
      refine ⟨Translation.ofPieces .question ps, Translation.fragments 0 ps,
        Translation.length_fragments 0 ps, fun style => ?_, fun before b after hps => ?_⟩
      · rw [translateWithLock_withPlaceholder, Translation.ofOutput_of_complete style h,
          ← Translation.sql_eq_numbered]
        rfl
      · have hslot (style : PlaceholderStyle) := Translation.sql_slot style before after b
        rw [← hps] at hslot
        exact ⟨fun style => Translation.sql_eq_numbered style ps ▸ (hslot style).1,
          (hslot .question).2⟩

end DialectSql
