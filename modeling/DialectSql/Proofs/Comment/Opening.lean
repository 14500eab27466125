import DialectSql.Proofs.Alike.Rendering
import DialectSql.Proofs.Comment.Sign
import DialectSql.Proofs.Quoting.Contents

namespace DialectSql

open Output Translation

/-- Nothing may differ, and all names are allowed ones. -/
def Likeness.named (allowed : String → Prop) : Likeness := ⟨allowed, Eq, Eq⟩

/-- All names in the statement, those of functions and types included, are allowed ones. -/
def Statement.HasNames (allowed : String → Prop) (s : Statement) : Prop := s.Alike (.named allowed) s

theorem IsBare.unquoted {n : String} (h : IsBare n) : Unquoted n :=
  fun hq => h '\'' hq (by decide)

theorem IsBare.notMem {n : String} (h : IsBare n) {a : Char} (ha : a = '-' ∨ a = '/') :
    a ∉ n.toList := by
  intro hmem
  obtain rfl | rfl := ha <;> exact h _ hmem (by decide)

namespace IsBare

theorem append {a b : String} (ha : IsBare a) (hb : IsBare b) : IsBare (a ++ b) := by
  intro c hc
  rw [String.toList_append, List.mem_append] at hc
  exact hc.elim (ha c) (hb c)

theorem nat (n : Nat) : IsBare (toString n) := by
  intro c hc
  have hdigit := isDigit_nat hc
  intro hsign
  simp only [List.mem_cons, List.not_mem_nil, or_false] at hsign
  rcases hsign with rfl | rfl | rfl | rfl <;> exact absurd hdigit (by decide)

end IsBare

/-- The name of a type is bare if that of a custom type is. -/
theorem DataType.isBare_sql {t : DataType} (h : t.Named (.named IsBare)) : IsBare t.sql :=
  name_sql IsBare.append IsBare.nat (show ∀ w ∈ fixedTexts, IsBare w by decide +kernel) h

namespace Output

/-- The outputs read back with their regions, and their names are bare. -/
structure SameBare (o o' : Output) : Prop where
  outside : o.SameOutside Eq Eq o'
  bare : o.IsBare

structure SameBareLed (o o' : Output) : Prop where
  outside : o.SameOutsideLed Eq Eq o'
  bare : o.IsBare

variable {a a' b b' : Output}

theorem IsBare.append (ha : a.IsBare) (hb : b.IsBare) : (a ++ b).IsBare := by
  cases h : a.failure with
  | some e => rwa [append_of_failure h]
  | none =>
      rw [IsBare, pieces_append h]
      exact fun p hp => (List.mem_append.1 hp).elim (ha p) (hb p)

theorem IsBare.of_nameless {ps : List Piece} (h : ∀ p ∈ ps, p.isName = false) :
    (ofPieces ps).IsBare := by
  intro p hp
  have hname := h p hp
  cases p <;> trivial

theorem IsBare.of_piece {p : Piece} (h : p.isName = false) : (ofPieces [p]).IsBare :=
  .of_nameless (List.forall_mem_singleton.2 h)

theorem IsBare.value (v : SqlValue) : (ofPieces v.pieces).IsBare :=
  .of_nameless (by cases v <;> simp [SqlValue.pieces, Piece.isName])

theorem IsBare.literal (d : Dialect) (v : SqlValue) : (Render.literal d v).IsBare := by
  rw [Render.literal.eq_def]
  split
  · exact .of_piece rfl
  · exact .value _

/-- A statement with bare names has bare names in its text, which reads back with its regions. -/
def bare {d : Dialect} (hd : ∀ n ∈ d.capabilities.dualTable, DialectSql.IsBare n) :
    Pairing (.named DialectSql.IsBare) d where
  whole := SameBare
  led := SameBareLed
  gate := Eq
  dual := hd
  whole_of_led h := ⟨h.outside.toSameOutside, h.bare⟩
  empty := ⟨⟨⟨rfl, .nil, trivial⟩, trivial⟩, nofun⟩
  fail e := ⟨.of_failure e, nofun⟩
  word hw := ⟨.of_piece hw.2, .of_piece rfl⟩
  unit h hn := ⟨.of_piece h, .of_piece hn⟩
  name hn := ⟨.of_piece hn.unquoted, List.forall_mem_singleton.2 hn⟩
  table hn := ⟨.of_piece hn.unquoted, List.forall_mem_singleton.2 hn⟩
  type ht := ⟨.of_piece (DataType.isBare_sql ht).unquoted,
    List.forall_mem_singleton.2 (DataType.isBare_sql ht)⟩
  require {b b'} cause h := by
    cases h
    cases b
    · exact ⟨.of_failure _, nofun⟩
    · exact ⟨⟨⟨rfl, .nil, trivial⟩, trivial⟩, nofun⟩
  gate_self _ := rfl
  literal {v v'} h := by
    cases h
    exact ⟨.literal d (.same v) rfl, .literal d v⟩
  pieces {v v'} h := by
    cases h
    exact ⟨.of_literal (.same v) rfl, .value v⟩
  int? h := by rw [h]
  escape {c c'} h := by
    cases h
    exact ⟨(quoting (R := Eq) (E := Eq) fun n hn => (hd n hn).unquoted).escape rfl, .of_piece rfl⟩
  zero := ⟨.of_region .zero, .of_piece rfl⟩
  whole_append ha hb := ⟨ha.outside.append hb.outside, ha.bare.append hb.bare⟩
  led_append ha hb := ⟨ha.outside.append hb.outside, ha.bare.append hb.bare⟩
  word_append hw h := ⟨h.outside.behind_word hw, IsBare.append (.of_piece rfl) h.bare⟩

/-- In the text, outside of quotes, the first character is never followed by the second one, if no
name is at fault. -/
def KeepsApart (a b : Char) (o : Output) : Prop :=
  o.failure = none → o.IsBare → ∀ style slots aliases,
    keepsApart a b (outsideText style slots aliases o.pieces) = true

namespace KeepsApart

variable {a b : Char} {o p : Output}

theorem append (ho : o.KeepsApart a b) (hp : p.KeepsApart a b) : (o ++ p).KeepsApart a b := by
  intro hok hbare style slots aliases
  obtain ⟨hleft, hright⟩ := failure_append_eq_none.1 hok
  obtain ⟨slots', aliases', hsplit⟩ :=
    exists_outsideText_append style slots aliases o.pieces p.pieces
  rw [pieces_append hleft, hsplit]
  exact keepsApart_append (ho hleft hbare.left style slots aliases)
    (hp hright (hbare.right hleft) style slots' aliases')

theorem piece {q : Piece} (h : q.IsBare → ∀ style slots aliases,
    keepsApart a b (q.blanked.text style slots aliases).toList = true) :
    (ofPieces [q]).KeepsApart a b := by
  intro _ hbare style slots aliases
  rw [pieces_ofPieces, outsideText_singleton]
  exact h (hbare q (List.mem_singleton_self q)) style slots aliases

theorem word {w : String} (h : keepsApart a b w.toList = true) : (Output.word w).KeepsApart a b :=
  piece (q := .word w) fun _ _ _ _ => h

theorem behind_minus (ho : o.KeepsApart '-' '-') (hhead : o.AvoidsMinus) (htext : o.HasText) :
    (.word "-" ++ o : Output).KeepsApart '-' '-' := by
  intro hok hbare style slots aliases
  have hfailure := (failure_append_eq_none.1 hok).2
  obtain ⟨slots', aliases', hsplit⟩ :=
    exists_outsideText_append style slots aliases (Output.word "-").pieces o.pieces
  rw [pieces_append rfl, hsplit, outsideText_word]
  exact keepsApart_behind (ho hfailure (hbare.right rfl) style slots' aliases')
    (htext hfailure style slots' aliases') (hhead (hbare.right rfl) style slots' aliases')

end KeepsApart

end Output

/-- Two characters with which a comment begins. -/
def OpensComment (a b : Char) : Prop := a = '-' ∧ b = '-' ∨ a = '/' ∧ b = '*'

namespace OpensComment

variable {a b : Char} {cs : List Char}

theorem keepsApart (h : OpensComment a b) (hcs : isTidy cs = true) :
    DialectSql.keepsApart a b cs = true := by
  rw [isTidy, Bool.and_eq_true] at hcs
  obtain ⟨rfl, rfl⟩ | ⟨rfl, rfl⟩ := h
  · exact hcs.1
  · exact hcs.2

theorem keepsApart_name (h : OpensComment a b) {n : String} (hn : IsBare n) :
    DialectSql.keepsApart a b n.toList = true :=
  h.keepsApart (isTidy_of_notMem (hn.notMem (.inl rfl)) (hn.notMem (.inr rfl)))

theorem keepsApart_slot (h : OpensComment a b) (style : PlaceholderStyle) (n : Nat) :
    DialectSql.keepsApart a b (style.render n).toList = true := by
  cases style with
  | question => exact show DialectSql.keepsApart a b "?".toList = true from h.keepsApart (by decide)
  | dollar | colon =>
      rw [PlaceholderStyle.render, String.toList_append]
      exact h.keepsApart (isTidy_append (by decide) (isTidy_nat n))

theorem keepsApart_alias (h : OpensComment a b) (n : Nat) :
    DialectSql.keepsApart a b ("grp_" ++ toString n ++ "_").toList = true := by
  rw [String.toList_append, String.toList_append]
  exact h.keepsApart (isTidy_append (isTidy_append (by decide) (isTidy_nat n)) (by decide))

/-- No comment begins where texts are put together that begin none. -/
theorem additive (h : OpensComment a b) : Additive (KeepsApart a b) where
  empty _ _ _ _ _ := rfl
  fail _ hok := nomatch hok
  append := .append
  word hw := .word (h.keepsApart (Bool.and_eq_true_iff.1 hw).2)
  unit {p} hunit := .piece fun hbare style slots aliases => by
    cases p with
    | word => cases hunit
    | name n | table n => exact h.keepsApart_name hbare
    | plain text => exact h.keepsApart hunit
    | quoted content =>
        exact show DialectSql.keepsApart a b "'".toList = true from h.keepsApart (by decide)
    | slot slot => exact h.keepsApart_slot style _
    | derivedAlias => exact h.keepsApart_alias aliases
    | gap | followOnLock => rfl

end OpensComment

namespace Expr

variable {d : Dialect} {a b : Char}

/-- The sign of a negation keeps apart from its operand, if that is in parentheses, or has a text that
does not begin with a minus. -/
theorem keepsApart_negate {e : Expr} (he : e.doublesMinus = false) (hne : e ≠ .column none "")
    (ho : (Render.expression d e).KeepsApart '-' '-') :
    (Render.expression d (.negate e)).KeepsApart '-' '-' := by
  have hwrapped : (Render.expression d e).parenthesized.KeepsApart '-' '-' :=
    (Composed.part _).parenthesized.holds (OpensComment.additive (.inl ⟨rfl, rfl⟩))
      (List.forall_mem_singleton.2 ho)
  cases e with
  | binary | negate => exact hwrapped.behind_minus (.parenthesized _) (.parenthesized _)
  | _ => exact ho.behind_minus (avoidsMinus d _ he) (hasText d hne)

theorem keepsApart_operator (h : OpensComment a b) (op : BinaryOp) :
    (.word " " ++ .word op.sql ++ .word " " : Output).KeepsApart a b := by
  intro _ _ style slots aliases
  have htext : outsideText style slots aliases
      (.word " " ++ .word op.sql ++ .word " " : Output).pieces = ' ' :: (op.sql.toList ++ [' ']) := by
    change (String.join [" ", op.sql, " "]).toList = _
    simp [String.join_cons]
  rw [htext]
  obtain ⟨rfl, rfl⟩ | ⟨rfl, rfl⟩ := h <;> cases op <;> decide

end Expr

/-- A predicate writes nothing itself but an operator of distinctness. -/
theorem Predicate.mem_written {d : Dialect} {p : Predicate} {o : Output} (h : o ∈ p.written d) :
    ∃ op : ComparisonOperator, op.isDistinctness = true ∧ o = .word op.sql := by
  cases p with
  | comparison lhs op rhs =>
      rw [written, ComparisonOperator.written] at h
      split at h
      · split at h
        · rename_i hop
          exact ⟨op, hop, List.mem_singleton.1 h⟩
        · cases h
      · cases h
  | _ => cases h

/-- Nothing a node writes itself begins a comment, the sign of a negation apart. -/
theorem Node.keepsApart_written {d : Dialect} {a b : Char} (h : OpensComment a b) {k : Node}
    (hsign : ∀ e, k = .expr (.negate e) → (Render.expression d e).KeepsApart a b →
      (Render.expression d (.negate e)).KeepsApart a b)
    (hparts : ∀ m ∈ k.parts d, (m.output d).KeepsApart a b) :
    ∀ o ∈ k.written d, o.KeepsApart a b := by
  intro o ho
  match k with
  | .expr (.binary l op r) =>
      rw [List.mem_singleton.1 ho]
      exact Expr.keepsApart_operator h op
  | .expr (.negate e) =>
      rw [List.mem_singleton.1 ho]
      exact hsign e rfl (hparts (.expr e) (List.mem_singleton_self _))
  | .predicate p =>
      obtain ⟨op, hop, rfl⟩ := Predicate.mem_written ho
      cases op with
      | distinct | notDistinct => exact .word (h.keepsApart (by decide))
      | _ => cases hop
  | .query .. => cases ho
  | .expr (.column ..) | .expr (.literal _) | .expr (.parameter _) | .expr (.tuple _)
  | .expr (.summarization ..) | .expr (.function ..) | .expr (.case ..) | .expr (.cast ..)
  | .expr (.subquery _) | .expr (.quantified ..) | .expr (.windowed ..) | .expr (.star _) => cases ho

namespace Statement

variable {d : Dialect} {lock : LockOptions} {s : Statement}

theorem keepsApart_slash (d : Dialect) (lock : LockOptions) (s : Statement) :
    (Render.statement d lock s).KeepsApart '/' '*' := by
  have h : OpensComment '/' '*' := .inr ⟨rfl, rfl⟩
  refine holds h.additive fun k _ hparts => Node.keepsApart_written h (fun e _ he => ?_) hparts
  have hwrapped (condition : Bool) :
      (Render.wrap condition (Render.expression d e)).KeepsApart '/' '*' :=
    ((Composed.part _).wrap condition).holds h.additive (List.forall_mem_singleton.2 he)
  exact .append (.word rfl) (hwrapped _)

/-- Without a sign that is written in front of another one, or of a column without a name, no two of
them follow each other. -/
theorem keepsApart_minus (h : ∀ e, s.Renders d lock (.expr (.negate e)) →
    e.doublesMinus = false ∧ e ≠ .column none "") :
    (Render.statement d lock s).KeepsApart '-' '-' := by
  have hopens : OpensComment '-' '-' := .inl ⟨rfl, rfl⟩
  refine holds hopens.additive fun k hk hparts =>
    Node.keepsApart_written hopens (fun e he hoperand => ?_) hparts
  obtain ⟨hsign, hname⟩ := h e (he ▸ hk)
  exact Expr.keepsApart_negate hsign hname hoperand

/-- A sign in front of another one stands in the text as it is. -/
theorem infix_doubled {e : Expr} (h : s.Renders d lock (.expr (.negate e)))
    (he : e.doublesMinus = true) (hok : (Render.statement d lock s).failure = none)
    (style : PlaceholderStyle) :
    ['-', '-'] <:+: outsideText style 0 0 (Render.statement d lock s).pieces := by
  have hnegation : (Render.expression d (.negate e)) = .word "-" ++ Render.expression d e := by
    cases e <;> first | rfl | cases he
  have hlead : e.beginsWithMinus = true := by
    cases e <;> first | exact he | cases he
  obtain ⟨slots, aliases, hinfix⟩ := outsideText_infix style 0 0 (h.inside.pieces hok)
  obtain ⟨cs, hcs⟩ := Output.LeadsMinus.behind_minus (e.leadsMinus d hlead) style slots aliases
  refine List.IsInfix.trans ?_ hinfix
  rw [show Node.output d (.expr (.negate e)) = _ from hnegation, hcs]
  exact (List.prefix_append ['-', '-'] cs).isInfix

end Statement

/-- The characters stand in the text outside of its quoted regions. -/
def QuotedText.Shows (q : QuotedText) (cs : List Char) : Prop := ∃ ds ∈ q.outside, cs <:+: ds

/-- No comment begins in the text of a statement with bare names but between two signs. They follow
each other where an operand that is written without parentheses begins with a sign and is negated, and
nowhere else, unless it is a column without a name that is negated. -/
theorem comments_opened {d : Dialect} (hd : ∀ n ∈ d.capabilities.dualTable, IsBare n)
    {lock : LockOptions} (hlock : ∀ n ∈ lock.aliases, IsBare n) {s : Statement}
    (hs : s.HasNames IsBare) {t : TranslatedSql} (ht : translateWithLock d s lock = .ok t) :
    ∃ q, QuotedText.ofString? t.sql = some q ∧ ¬q.Shows ['/', '*'] ∧
      (∀ e, s.Renders d lock (.expr (.negate e)) → e.doublesMinus = true → q.Shows ['-', '-']) ∧
      (q.Shows ['-', '-'] → ∃ e, s.Renders d lock (.expr (.negate e)) ∧
        (e.doublesMinus = true ∨ e = .column none "")) := by
  have hgates : (Output.bare hd).Opens d.capabilities.gates := by constructor <;> rfl
  have hpaired : (Render.statement d lock s).SameBare (Render.statement d lock s) :=
    (Output.bare hd).whole_of_led (Render.paired_statement hgates hlock hs)
  have hok := translateWithLock_isOk.1 ⟨t, ht⟩
  obtain ⟨q, hq, hblanked⟩ := read_outside d.capabilities.placeholder hpaired.outside.pieces
    hpaired.outside.spaced 0 0
  have hshows {cs : List Char} (hcs : '\'' ∉ cs) : q.Shows cs ↔
      cs <:+: outsideText d.capabilities.placeholder 0 0 (Render.statement d lock s).pieces := by
    rw [← hblanked]
    exact (QuotedText.infix_blanked hcs q).symm
  have hsql : t.sql = sql d.capabilities.placeholder (Render.statement d lock s).pieces := by
    have h := Translation.ofOutput_of_complete d.capabilities.placeholder hok
    rw [translateWithLock, h] at ht
    exact congrArg TranslatedSql.sql (Except.ok.inj ht).symm
  refine ⟨q, hsql ▸ hq, fun h => ?_, fun e he hsign => ?_, fun h => ?_⟩
  · exact not_infix_of_keepsApart (Statement.keepsApart_slash d lock s hok hpaired.bare _ 0 0)
      ((hshows (by decide)).1 h)
  · exact (hshows (by decide)).2 (Statement.infix_doubled he hsign hok _)
  · by_contra hnone
    refine not_infix_of_keepsApart (Statement.keepsApart_minus (fun e he => ?_) hok hpaired.bare _ 0 0)
      ((hshows (by decide)).1 h)
    exact ⟨Bool.eq_false_iff.2 fun hsign => hnone ⟨e, he, .inl hsign⟩,
      fun hname => hnone ⟨e, he, .inr hname⟩⟩

/-- The negation of a negative number is sent as a comment. -/
theorem comments_opened_negative :
    let e : Expr := .literal (.int (-5))
    let s : Statement := .select (.ofQuery (.spec
      ((QuerySpec.empty.select (.negate e) none).addRoot (.table "t"))))
    s.HasNames IsBare ∧ ∃ t, translateWithLock .generic s .unlocked = .ok t ∧
      t.sql = "select --5 from t" ∧
      ∃ q, QuotedText.ofString? t.sql = some q ∧ q.Shows ['-', '-'] := by
  intro e s
  have htable : IsBare "t" := by decide
  have hnames : s.HasNames IsBare := .select ⟨.nil, .spec (.mk false .rowsOnly
    (.cons (.negate (.literal rfl)) nofun .nil) (.cons (.named ⟨nofun, htable⟩) nofun .nil .nil)
    .none .nil .none .nil .none .none)⟩
  have ht : translateWithLock .generic s .unlocked = .ok _ :=
    Translation.ofOutput_of_complete _ (by decide)
  have hrendered : s.Renders .generic .unlocked (.expr (.negate e)) :=
    ⟨_, List.mem_singleton_self _, .through List.mem_cons_self .here⟩
  obtain ⟨q, hq, -, hopened, -⟩ := comments_opened (by decide) (by decide) hnames ht
  exact ⟨hnames, _, ht, by decide, q, hq, hopened e hrendered (by decide)⟩

end DialectSql
