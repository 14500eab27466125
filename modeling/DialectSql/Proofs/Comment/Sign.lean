import DialectSql.Proofs.Comment.Outside
import DialectSql.Proofs.Rendered.Traversal

namespace DialectSql

open Translation

/-- No quote and no sign of a comment occurs in the name. -/
def IsBare (n : String) : Prop := ∀ c ∈ n.toList, c ∉ ['-', '/', '*', '\'']

instance (n : String) : Decidable (IsBare n) := List.decidableBAll _ _

/-- A name, if the piece is one, is bare. -/
def Piece.IsBare : Piece → Prop
  | .name n | .table n => DialectSql.IsBare n
  | _ => True

namespace Output

def IsBare (o : Output) : Prop := ∀ p ∈ o.pieces, p.IsBare

/-- The text begins with a minus. -/
def LeadsMinus (o : Output) : Prop :=
  ∀ style slots aliases, (outsideText style slots aliases o.pieces).head? = some '-'

/-- The text does not begin with a minus. -/
def AvoidsMinus (o : Output) : Prop :=
  o.IsBare → ∀ style slots aliases, (outsideText style slots aliases o.pieces).head? ≠ some '-'

def HasText (o : Output) : Prop :=
  o.failure = none → ∀ style slots aliases, outsideText style slots aliases o.pieces ≠ []

variable {a b : Output} {w : String}

theorem pieces_append_subset (a b : Output) : a.pieces ⊆ (a ++ b).pieces := by
  cases h : a.failure with
  | some e => rw [append_of_failure h]; exact List.Subset.refl _
  | none => rw [pieces_append h]; exact List.subset_append_left ..

theorem IsBare.left (h : (a ++ b).IsBare) : a.IsBare := fun p hp => h p (pieces_append_subset a b hp)

theorem IsBare.right (h : (a ++ b).IsBare) (ha : a.failure = none) : b.IsBare := by
  rw [IsBare, pieces_append ha] at h
  exact fun p hp => h p (List.mem_append_right _ hp)

theorem outsideText_word (style : PlaceholderStyle) (slots aliases : Nat) (w : String) :
    outsideText style slots aliases (Output.word w).pieces = w.toList :=
  outsideText_singleton style slots aliases (.word w)

namespace LeadsMinus

theorem append (ha : a.LeadsMinus) (b : Output) : (a ++ b).LeadsMinus := by
  intro style slots aliases
  cases h : a.failure with
  | some e => rw [append_of_failure h]; exact ha style slots aliases
  | none =>
      obtain ⟨slots', aliases', hsplit⟩ :=
        exists_outsideText_append style slots aliases a.pieces b.pieces
      rw [pieces_append h, hsplit, List.head?_append, ha]
      rfl

theorem piece {p : Piece} (h : ∀ style slots aliases,
    (p.blanked.text style slots aliases).toList.head? = some '-') : (ofPieces [p]).LeadsMinus := by
  intro style slots aliases
  rw [pieces_ofPieces, outsideText_singleton]
  exact h style slots aliases

theorem minus : (Output.word "-").LeadsMinus := by
  intro style slots aliases
  rw [outsideText_word]
  decide

/-- Two signs are read as the beginning of a comment. -/
theorem behind_minus (h : a.LeadsMinus) (style : PlaceholderStyle) (slots aliases : Nat) :
    ∃ cs, outsideText style slots aliases (.word "-" ++ a : Output).pieces = ['-', '-'] ++ cs := by
  obtain ⟨slots', aliases', hsplit⟩ := exists_outsideText_append style slots aliases
    (Output.word "-").pieces a.pieces
  obtain ⟨cs, hcs⟩ := List.head?_eq_some_iff.1 (h style slots' aliases')
  refine ⟨cs, ?_⟩
  rw [pieces_append rfl, hsplit, outsideText_word, hcs]
  rfl

theorem windowed (h : a.LeadsMinus) (items keys : List Output) (frame : Option WindowFrame) :
    (Render.windowed a items keys frame).LeadsMinus := (h.append _).append _

theorem binary {l : Expr} {op : BinaryOp} (hl : Render.needsParens op false l = false)
    (h : a.LeadsMinus) (r : Expr) (b : Output) : (Render.binary l op r a b).LeadsMinus := by
  rw [Render.binary, hl]
  exact (((h.append _).append _).append _).append _

end LeadsMinus

namespace AvoidsMinus

theorem head_append {cs ds : List Char} {c : Char} (hc : cs.head? ≠ some c)
    (hd : cs = [] → ds.head? ≠ some c) : (cs ++ ds).head? ≠ some c := by
  cases cs with
  | nil => exact hd rfl
  | cons => exact hc

theorem append (ha : a.AvoidsMinus) (hb : b.AvoidsMinus) : (a ++ b).AvoidsMinus := by
  intro hbare style slots aliases
  cases h : a.failure with
  | some e =>
      rw [append_of_failure h] at hbare ⊢
      exact ha hbare style slots aliases
  | none =>
      obtain ⟨slots', aliases', hsplit⟩ :=
        exists_outsideText_append style slots aliases a.pieces b.pieces
      rw [pieces_append h, hsplit]
      exact head_append (ha hbare.left style slots aliases)
        fun _ => hb (hbare.right h) style slots' aliases'

theorem piece {p : Piece} (h : ∀ style slots aliases,
    (p.blanked.text style slots aliases).toList.head? ≠ some '-') : (ofPieces [p]).AvoidsMinus := by
  intro _ style slots aliases
  rw [pieces_ofPieces, outsideText_singleton]
  exact h style slots aliases

theorem word (h : w.toList.head? ≠ some '-') : (Output.word w).AvoidsMinus :=
  piece (p := .word w) fun _ _ _ => h

theorem plain {text : String} (h : text.toList.head? ≠ some '-') :
    (ofPieces [.plain text]).AvoidsMinus :=
  piece (p := .plain text) fun _ _ _ => h

theorem quoted (content : String) : (ofPieces [.quoted content]).AvoidsMinus :=
  piece (p := .quoted content) fun _ _ _ => show "'".toList.head? ≠ some '-' by decide

/-- What stands behind a word does not count. -/
theorem behind_word (hw : w.toList ≠ []) (h : w.toList.head? ≠ some '-') (o : Output) :
    (.word w ++ o : Output).AvoidsMinus := by
  intro _ style slots aliases
  obtain ⟨slots', aliases', hsplit⟩ := exists_outsideText_append style slots aliases
    (Output.word w).pieces o.pieces
  rw [pieces_append rfl, hsplit, outsideText_word]
  exact head_append h fun htext => absurd htext hw

theorem name (n : String) : (Output.name n).AvoidsMinus := by
  intro hbare style slots aliases hhead
  rw [show outsideText style slots aliases (Output.name n).pieces = n.toList from
    outsideText_singleton style slots aliases (.name n)] at hhead
  exact hbare (.name n) (List.mem_singleton_self _) '-' (List.mem_of_mem_head? hhead) (by decide)

theorem fail (e : TranslateError) : (Output.fail e).AvoidsMinus := by
  intro _ style slots aliases
  simp [outsideText, texts]

theorem parenthesized (o : Output) : o.parenthesized.AvoidsMinus := by
  rw [Output.parenthesized, append_assoc]
  exact behind_word (by decide) (by decide) _

theorem wrap {condition : Bool} (h : condition = false → a.AvoidsMinus) :
    (Render.wrap condition a).AvoidsMinus := by
  cases condition with
  | false => exact h rfl
  | true => exact parenthesized a

theorem qualified (qualifier : Option String) (h : a.AvoidsMinus) :
    (Render.qualified qualifier a).AvoidsMinus := by
  cases qualifier with
  | none => exact h
  | some q => exact ((name q).append (word (by decide))).append h

theorem caseOf (branches : List Output) (otherwise : Option Output) :
    (Render.caseOf branches otherwise).AvoidsMinus := by
  rw [Render.caseOf]
  split
  · exact fail _
  · rw [append_assoc, append_assoc]
    exact behind_word (by decide) (by decide) _

theorem windowed (h : a.AvoidsMinus) (items keys : List Output) (frame : Option WindowFrame) :
    (Render.windowed a items keys frame).AvoidsMinus := by
  rw [Render.windowed, append_assoc]
  exact h.append (behind_word (by decide) (by decide) _)

end AvoidsMinus

namespace HasText

theorem left (h : a.HasText) (b : Output) : (a ++ b).HasText := by
  intro hok style slots aliases
  have ha := (failure_append_eq_none.1 hok).1
  obtain ⟨slots', aliases', hsplit⟩ :=
    exists_outsideText_append style slots aliases a.pieces b.pieces
  rw [pieces_append ha, hsplit]
  exact List.append_ne_nil_of_left_ne_nil (h ha style slots aliases) _

theorem right (a : Output) (h : b.HasText) : (a ++ b).HasText := by
  intro hok style slots aliases
  obtain ⟨ha, hb⟩ := failure_append_eq_none.1 hok
  obtain ⟨slots', aliases', hsplit⟩ :=
    exists_outsideText_append style slots aliases a.pieces b.pieces
  rw [pieces_append ha, hsplit]
  exact List.append_ne_nil_of_right_ne_nil _ (h hb style slots' aliases')

theorem word (h : w.toList ≠ []) : (Output.word w).HasText := by
  intro _ style slots aliases
  rw [outsideText_word]
  exact h

theorem fail (e : TranslateError) : (Output.fail e).HasText := by
  intro hok
  cases hok

theorem parenthesized (o : Output) : o.parenthesized.HasText := right _ (word (by decide))

theorem piece {p : Piece} (h : ∀ style slots aliases,
    (p.blanked.text style slots aliases).toList ≠ []) : (ofPieces [p]).HasText := by
  intro _ style slots aliases
  rw [pieces_ofPieces, outsideText_singleton]
  exact h style slots aliases

theorem plain {text : String} (h : text.toList ≠ []) : (ofPieces [.plain text]).HasText :=
  piece (p := .plain text) fun _ _ _ => h

theorem quoted (content : String) : (ofPieces [.quoted content]).HasText :=
  piece (p := .quoted content) fun _ _ _ => show "'".toList ≠ [] by decide

theorem qualified {qualifier : Option String} (h : qualifier = none → a.HasText) :
    (Render.qualified qualifier a).HasText := by
  cases qualifier with
  | none => exact h rfl
  | some q => exact (right (.name q) (word (w := ".") (by decide))).left a

theorem literal (d : Dialect) (v : SqlValue) : (Render.literal d v).HasText := by
  cases v with
  | null => exact plain (by decide)
  | bool b =>
      rw [Render.literal.eq_def]
      cases d.capabilities.booleanLiterals <;> cases b <;> exact plain (by decide)
  | int n => exact plain (toList_int_ne_nil _)
  | float x => exact plain x.toList_statementText_ne_nil
  | text s => exact quoted s
  | blob bytes => exact left (word (w := "X") (by decide)) (.ofPieces [.quoted _])
  | timestamp t => exact left (word (w := "timestamp ") (by decide)) (.ofPieces [.quoted _])

theorem caseOf (branches : List Output) (otherwise : Option Output) :
    (Render.caseOf branches otherwise).HasText := by
  rw [Render.caseOf]
  split
  · exact fail _
  · exact right _ (word (by decide))

theorem summarization (d : Dialect) (kind : SummarizationKind) (groupings : List Output) :
    (Render.summarization d kind groupings).HasText := by
  rw [Render.summarization]
  split
  · exact fail _
  · exact right _ (parenthesized _)

end HasText

end Output

namespace Expr

/-- The text begins with a minus. -/
def beginsWithMinus : Expr → Bool
  | .literal (.int n) => n.toInt < 0
  | .literal (.float x) => x.isNegative && !x.isNaN
  | .negate _ => true
  | .binary l op _ => !Render.needsParens op false l && l.beginsWithMinus
  | .windowed f .. => f.beginsWithMinus
  | _ => false

/-- The sign of its negation stands directly in front of a minus. -/
def doublesMinus : Expr → Bool
  | .binary .. | .negate _ => false
  | e => e.beginsWithMinus

variable {d : Dialect}

open Output

theorem leadsMinus (d : Dialect) (e : Expr) (h : e.beginsWithMinus = true) :
    (Render.expression d e).LeadsMinus := by
  match e with
  | .literal (.int n) =>
      exact .piece (p := .plain (toString n.toInt)) fun _ _ _ => (head_int _).2 (of_decide_eq_true h)
  | .literal (.float x) =>
      exact .piece (p := .plain x.statementText) fun _ _ _ => x.head_statementText.2 h
  | .negate e => exact LeadsMinus.minus.append _
  | .binary l op r =>
      rw [beginsWithMinus, Bool.and_eq_true, Bool.not_eq_true'] at h
      exact .binary h.1 (leadsMinus d l h.2) r _
  | .windowed f es ks frame => exact .windowed (leadsMinus d f h) _ _ frame
  | .literal .null | .literal (.bool _) | .literal (.text _) | .literal (.blob _)
  | .literal (.timestamp _) | .column .. | .parameter _ | .tuple _ | .summarization .. | .function ..
  | .case .. | .cast .. | .subquery _ | .quantified .. | .star _ => cases h

theorem avoidsMinus_literal (d : Dialect) {v : SqlValue} (h : (literal v).beginsWithMinus = false) :
    (Render.literal d v).AvoidsMinus := by
  cases v with
  | null => exact .plain (by decide)
  | bool b =>
      rw [Render.literal.eq_def]
      cases d.capabilities.booleanLiterals <;> cases b <;> exact .plain (by decide)
  | int n =>
      have hn : ¬n.toInt < 0 := of_decide_eq_false h
      exact .plain fun hhead => hn ((head_int _).1 hhead)
  | float x =>
      exact .plain fun hhead => Bool.false_ne_true (h.symm.trans (x.head_statementText.1 hhead))
  | text s => exact .quoted s
  | blob bytes => exact .behind_word (w := "X") (by decide) (by decide) (.ofPieces [.quoted _])
  | timestamp t =>
      exact .behind_word (w := "timestamp ") (by decide) (by decide) (.ofPieces [.quoted _])

theorem avoidsMinus (d : Dialect) (e : Expr) (h : e.beginsWithMinus = false) :
    (Render.expression d e).AvoidsMinus := by
  match e with
  | .column qualifier name => exact .qualified qualifier (.name name)
  | .literal v => exact avoidsMinus_literal d h
  | .parameter slot =>
      refine .piece (p := .slot slot) fun style slots _ => ?_
      cases style <;> simp [Piece.blanked, Piece.text, PlaceholderStyle.render]
  | .tuple es => exact .parenthesized _
  | .summarization kind es =>
      rw [Render.expression, Render.operand, Operand.output, Render.summarization]
      split
      · exact .fail _
      · cases kind <;> exact .behind_word (by decide) (by decide) _
  | .binary l op r =>
      have hleft : (Render.wrap (Render.needsParens op false l) (Render.expression d l)).AvoidsMinus :=
        .wrap fun hneeded => avoidsMinus d l (by simpa [beginsWithMinus, hneeded] using h)
      have hblank := AvoidsMinus.behind_word (w := " ") (by decide) (by decide) (.word op.sql ++
        (.word " " ++ Render.wrap (Render.needsParens op true r) (Render.expression d r)))
      simpa only [Render.expression, Render.operand, Operand.output, Render.binary,
        Output.append_assoc] using hleft.append hblank
  | .negate e => cases h
  | .function n es distinct =>
      have hargs := AvoidsMinus.behind_word (w := "(") (by decide) (by decide)
        (.when distinct (.word "distinct ") ++ (.list (operandOutputs (Render.operands d es)) ++
          .word ")"))
      simpa only [Render.expression, Render.operand, Operand.output, Render.call,
        Output.append_assoc] using (AvoidsMinus.name n).append hargs
  | .case bs none | .case bs (some e) => exact .caseOf _ _
  | .cast e t =>
      rw [Render.expression, Render.operand, Operand.output]
      simp only [Output.append_assoc]
      exact .behind_word (by decide) (by decide) _
  | .subquery q => exact .parenthesized _
  | .quantified k q =>
      rw [Render.expression, Render.operand, Operand.output, Output.append_assoc]
      cases k <;> exact .behind_word (by decide) (by decide) _
  | .windowed f es ks frame => exact .windowed (avoidsMinus d f h) _ _ frame
  | .star qualifier => exact .qualified qualifier (.word (by decide))

/-- Only a column without any name has no text. -/
theorem hasText (d : Dialect) {e : Expr} (h : e ≠ .column none "") :
    (Render.expression d e).HasText := by
  cases e with
  | column qualifier name =>
      refine .qualified fun hq => .piece (p := .name name) fun _ _ _ htext => ?_
      have hname : name = "" := String.toList_eq_nil_iff.1 htext
      exact h (by rw [hq, hname])
  | literal v => exact .literal d v
  | parameter slot =>
      refine .piece (p := .slot slot) fun style slots _ => ?_
      cases style <;> simp [Piece.blanked, Piece.text, PlaceholderStyle.render]
  | tuple es => exact .parenthesized _
  | summarization kind es => exact .summarization d kind _
  | binary l op r => exact HasText.left (.right _ (.word (by decide))) _
  | negate e => exact HasText.left (.word (by decide)) _
  | function n es distinct => exact HasText.right _ (.word (by decide))
  | «case» bs e => cases e <;> exact .caseOf _ _
  | cast e t => exact HasText.right _ (.word (by decide))
  | subquery q => exact .parenthesized _
  | quantified k q => exact HasText.right _ (.parenthesized _)
  | windowed f es ks frame => exact HasText.right _ (.parenthesized _)
  | star qualifier => exact .qualified fun _ => .word (by decide)

end Expr

end DialectSql
