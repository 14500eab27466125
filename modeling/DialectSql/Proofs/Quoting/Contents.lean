import DialectSql.Proofs.Alike.Rendering
import DialectSql.Proofs.Placeholder.Numbering
import DialectSql.Proofs.Quoting.Pieces

namespace DialectSql

/-- The values are the same but for what a text or bytes contain. -/
inductive SqlValue.SameForm : SqlValue → SqlValue → Prop
  | text (s s' : String) : SqlValue.SameForm (.text s) (.text s')
  | blob (b b' : List UInt8) : SqlValue.SameForm (.blob b) (.blob b')
  | same (v : SqlValue) : SqlValue.SameForm v v

/-- Only the contents of literals and the escape characters differ, and they are related. No name
has a quote. -/
def Likeness.contents (R : SqlValue → SqlValue → Prop) (E : Char → Char → Prop) : Likeness where
  name := Unquoted
  literal v v' := v.SameForm v' ∧ R v v'
  escape := E

theorem DataType.unquoted_sql {R : SqlValue → SqlValue → Prop} {E : Char → Char → Prop}
    {t : DataType} (h : t.Named (.contents R E)) : Unquoted t.sql :=
  name_sql Unquoted.append Unquoted.nat (show ∀ w ∈ fixedTexts, Unquoted w by decide +kernel) h

variable {R : SqlValue → SqlValue → Prop} {E : Char → Char → Prop}

namespace Output

/-- Both outputs fail alike, and their pieces differ in regions from the same places only. -/
structure SameOutside (R : SqlValue → SqlValue → Prop) (E : Char → Char → Prop) (o o' : Output) :
    Prop where
  failure : o.failure = o'.failure
  pieces : Piece.AllAlike R E o.pieces o'.pieces
  spaced : Piece.Spaced o.pieces

structure SameOutsideLed (R : SqlValue → SqlValue → Prop) (E : Char → Char → Prop)
    (o o' : Output) : Prop extends o.SameOutside R E o' where
  led : Piece.Led o.pieces

variable {a a' b b' : Output}

theorem SameOutside.append (ha : a.SameOutside R E a') (hb : b.SameOutsideLed R E b') :
    (a ++ b).SameOutside R E (a' ++ b') := by
  cases hfailure : a.failure with
  | some e =>
      rwa [append_of_failure hfailure, append_of_failure (ha.failure ▸ hfailure)]
  | none =>
      refine ⟨?_, ?_, ?_⟩
      · rw [failure_append, failure_append, ha.failure, hb.failure]
      · rw [pieces_append hfailure, pieces_append (ha.failure ▸ hfailure)]
        exact List.rel_append ha.pieces hb.pieces
      · rw [pieces_append hfailure]
        exact ha.spaced.append hb.led hb.spaced

theorem SameOutsideLed.append (ha : a.SameOutsideLed R E a') (hb : b.SameOutsideLed R E b') :
    (a ++ b).SameOutsideLed R E (a' ++ b') where
  toSameOutside := ha.toSameOutside.append hb
  led := by
    cases hfailure : a.failure with
    | some e =>
        rw [append_of_failure hfailure]
        exact ha.led
    | none =>
        rw [pieces_append hfailure]
        exact ha.led.append hb.led

theorem SameOutside.behind_word {w : String} (hw : IsSeparator w) (ha : a.SameOutside R E a') :
    (.word w ++ a : Output).SameOutsideLed R E (.word w ++ a') where
  failure := by rw [failure_append, failure_append, ha.failure]
  pieces := .cons (.same hw.2) ha.pieces
  spaced := ha.spaced
  led := .of_text (p := .word w) hw.2 (beq_false_of_ne hw.1) _

theorem SameOutsideLed.of_piece {p : Piece} (h : p.Unquoted) :
    (ofPieces [p]).SameOutsideLed R E (ofPieces [p]) :=
  ⟨⟨rfl, .cons (.same h) .nil, .cons h trivial⟩, .cons h trivial⟩

theorem SameOutsideLed.of_failure (e : TranslateError) :
    (fail e).SameOutsideLed R E (fail e) := ⟨⟨rfl, .nil, trivial⟩, trivial⟩

theorem SameOutside.of_region {s s' : String} (h : RegionAlike R E s.toList s'.toList) :
    (ofPieces [.quoted s]).SameOutside R E (ofPieces [.quoted s']) :=
  ⟨rfl, .cons (.quoted h) .nil, trivial, trivial⟩

theorem SameOutside.of_literal {v v' : SqlValue} (h : v.SameForm v') (hr : R v v') :
    (ofPieces v.pieces).SameOutside R E (ofPieces v'.pieces) := by
  cases h with
  | text s s' => exact .of_region (.text hr)
  | blob b b' =>
      exact SameOutside.behind_word (w := "X") (by decide)
        (.of_region (.blob hr (readHex_hexBytes b) (readHex_hexBytes b'))) |>.toSameOutside
  | same v =>
      have hplain {v : SqlValue} (hv : Unquoted v.literalText) :=
        (SameOutsideLed.of_piece (R := R) (E := E) (p := .plain v.literalText) hv).toSameOutside
      cases v with
      | null => exact hplain (v := .null) (by decide)
      | bool b => cases b <;> exact hplain (by decide)
      | int n => exact hplain (v := .int n) (.int _)
      | float x => exact hplain (v := .float x) x.unquoted_statementText
      | text s => exact .of_region (.text hr)
      | blob b =>
          exact SameOutside.behind_word (w := "X") (by decide)
            (.of_region (.blob hr (readHex_hexBytes b) (readHex_hexBytes b))) |>.toSameOutside
      | timestamp t =>
          exact SameOutside.behind_word (w := "timestamp ") (by decide)
            (.of_region (.timestamp hr)) |>.toSameOutside

/-- A boolean is the same in both statements, so its style does not matter. -/
theorem SameOutside.literal (d : Dialect) {v v' : SqlValue} (h : v.SameForm v') (hr : R v v') :
    (Render.literal d v).SameOutside R E (Render.literal d v') := by
  have hvalues := SameOutside.of_literal (E := E) h hr
  cases h with
  | text | blob => exact hvalues
  | same v =>
      cases v with
      | bool b =>
          rw [Render.literal.eq_def]
          cases d.capabilities.booleanLiterals with
          | keyword => exact hvalues
          | integer =>
              exact (SameOutsideLed.of_piece (p := .plain (if b then "1" else "0"))
                (Unquoted.ite (by decide) (by decide))).toSameOutside
      | _ => exact hvalues

/-- Outputs of statements that differ in contents of literals only. -/
def quoting {d : Dialect} (hd : ∀ n ∈ d.capabilities.dualTable, Unquoted n) :
    Pairing (.contents R E) d where
  whole := SameOutside R E
  led := SameOutsideLed R E
  gate := Eq
  dual := hd
  whole_of_led h := h.toSameOutside
  empty := ⟨⟨rfl, .nil, trivial⟩, trivial⟩
  fail := .of_failure
  word hw := .of_piece hw.2
  unit h _ := .of_piece h
  name hn := .of_piece hn
  table hn := .of_piece hn
  type ht := .of_piece (DataType.unquoted_sql ht)
  require {b b'} cause h := by
    cases h
    cases b
    · exact .of_failure _
    · exact ⟨⟨rfl, .nil, trivial⟩, trivial⟩
  gate_self _ := rfl
  literal h := .literal d h.1 h.2
  pieces h := .of_literal h.1 h.2
  int? h := by
    cases h.1 <;> rfl
  escape {c c'} h := by
    have hlist (c : Char) : c.toString.toList = [c] := by simp
    refine .of_region ?_
    rw [hlist, hlist]
    exact .escape h
  zero := .of_region .zero
  whole_append := .append
  led_append := .append
  word_append hw h := h.behind_word hw

end Output

/-- What is recorded beside the text does not depend on the regions. -/
theorem translation_of_alike (style : PlaceholderStyle) {ps ps' : List Piece}
    (h : Piece.AllAlike R E ps ps') : Translation.ofPieces style ps' =
      { Translation.ofPieces style ps with sql := Translation.sql style ps' } := by
  have hrecorded {α : Type} (f : Piece → Option α) (hf : ∀ s, f (.quoted s) = none) :
      ps.filterMap f = ps'.filterMap f := by
    induction h with
    | nil => rfl
    | cons hp _ ih =>
        cases hp with
        | same => rw [List.filterMap_cons, List.filterMap_cons, ih]
        | quoted => rw [List.filterMap_cons_none (hf _), List.filterMap_cons_none (hf _), ih]
  simp only [Translation.ofPieces, Translation.parameters, Translation.followOnLock,
    Translation.gaps, Translation.affectedTables, hrecorded Piece.slot? fun _ => rfl,
    hrecorded Piece.gap? fun _ => rfl, hrecorded Piece.table? fun _ => rfl,
    hrecorded Piece.followOnLock? fun _ => rfl]

/-- The contents of literals do not influence a statement: statements that differ in nothing else
fail alike, or they have the same translation but for what is said in quotes. Their texts outside
of quotes are the same, and the regions in quotes read back to literals that are related. A relation
that holds of one pair of literals only tells which literal a region stems from. -/
theorem contents_isolated (R : SqlValue → SqlValue → Prop) (E : Char → Char → Prop) (d : Dialect)
    (hd : ∀ n ∈ d.capabilities.dualTable, Unquoted n) (l : LockOptions)
    (hl : ∀ n ∈ l.aliases, Unquoted n) (s s' : Statement) (h : s.Alike (.contents R E) s') :
    (∃ e, translateWithLock d s l = .error e ∧ translateWithLock d s' l = .error e) ∨
      ∃ t t', translateWithLock d s l = .ok t ∧ translateWithLock d s' l = .ok t' ∧
        t' = { t with sql := t'.sql } ∧
        ∃ q q', QuotedText.ofString? t.sql = some q ∧ QuotedText.ofString? t'.sql = some q' ∧
          q.outside = q'.outside ∧ List.Forall₂ (RegionAlike R E) q.regions q'.regions := by
  have hgates : (Output.quoting (R := R) (E := E) hd).Opens d.capabilities.gates := by
    constructor <;> rfl
  have hpaired : (Render.statement d l s).SameOutside R E (Render.statement d l s') :=
    (Render.paired_statement hgates hl h).toSameOutside
  cases hfailure : (Render.statement d l s).failure with
  | some e =>
      left
      exact ⟨e, Translation.ofOutput_of_failure _ hfailure,
        Translation.ofOutput_of_failure _ (hpaired.failure ▸ hfailure)⟩
  | none =>
      right
      obtain ⟨q, q', hq, hq', halike⟩ := Translation.read_texts d.capabilities.placeholder
        hpaired.pieces hpaired.spaced 0 0
      refine ⟨_, _, Translation.ofOutput_of_complete _ hfailure,
        Translation.ofOutput_of_complete _ (hpaired.failure ▸ hfailure), ?_, q, q', hq, hq',
        halike.outside, halike.regions⟩
      rw [translation_of_alike d.capabilities.placeholder hpaired.pieces]

/-- A quote in a literal is doubled, and reads back as the quote it is. -/
theorem contents_isolated_quote :
    let s (content : String) := Statement.select
      (.ofQuery (.spec (QuerySpec.empty.select (.string content) none)))
    let R (v v' : SqlValue) : Prop := v = .text "it's" ∧ v' = .text ""
    ∃ t t', translateWithLock .generic (s "it's") .unlocked = .ok t ∧
      translateWithLock .generic (s "") .unlocked = .ok t' ∧ t' = { t with sql := t'.sql } ∧
      ∃ q q', QuotedText.ofString? t.sql = some q ∧ QuotedText.ofString? t'.sql = some q' ∧
        q.outside = q'.outside ∧
        List.Forall₂ (RegionAlike R fun _ _ => False) q.regions q'.regions := by
  intro s R
  have halike : (s "it's").Alike (.contents R fun _ _ => False) (s "") :=
    .select ⟨.nil, .spec (.mk false .rowsOnly
      (.cons (.literal ⟨.text _ _, rfl, rfl⟩) nofun .nil) .nil .none .nil .none .nil .none .none)⟩
  refine (contents_isolated R (fun _ _ => False) .generic nofun .unlocked nofun _ _
    halike).resolve_left ?_
  rintro ⟨e, he, -⟩
  have hok : translateWithLock .generic (s "it's") .unlocked = .ok _ :=
    Translation.ofOutput_of_complete _ (by decide)
  rw [hok] at he
  cases he

/-- With a quote in the name of the dual table a literal can end up outside of quotes. -/
theorem contents_leak_quotedDual :
    let d := { Dialect.generic with
      capabilities := { Capabilities.standard with
        dualTable := some "d'ual", selectRequiresFrom := true } }
    let row (content : String) := Query.spec (QuerySpec.empty.select (.string content) none)
    let s (content : String) := Statement.select
      (.ofQuery (.group (.ofMembers .union [row content, row content])))
    let outside (content : String) := ["select ", " from d", content, "ual"].map String.toList
    (s "x").Alike (.contents (fun _ _ => True) fun _ _ => True) (s "y") ∧
      ∃ t t', translateWithLock d (s "x") .unlocked = .ok t ∧
        translateWithLock d (s "y") .unlocked = .ok t' ∧
        (QuotedText.ofString? t.sql).map (·.outside) = some (outside "x") ∧
        (QuotedText.ofString? t'.sql).map (·.outside) = some (outside "y") ∧
        outside "x" ≠ outside "y" := by
  intro d row s outside
  have hrow : (row "x").Alike (.contents (fun _ _ => True) fun _ _ => True) (row "y") :=
    .spec (.mk false .rowsOnly (.cons (.literal ⟨.text _ _, trivial⟩) nofun .nil) .nil .none .nil
      .none .nil .none .none)
  have halike : (s "x").Alike (.contents (fun _ _ => True) fun _ _ => True) (s "y") :=
    .select ⟨.nil, .group (.mk .union .rowsOnly (.cons hrow (.cons hrow .nil)) .nil .none .none)⟩
  exact ⟨halike, _, _, Translation.ofOutput_of_complete _ (by decide),
    Translation.ofOutput_of_complete _ (by decide), by decide, by decide, by decide⟩

end DialectSql
