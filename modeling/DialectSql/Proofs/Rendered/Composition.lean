import DialectSql.Proofs.Comment.Tidy
import DialectSql.Proofs.Condition.Parts
import DialectSql.Proofs.Layer.Frame

namespace DialectSql

namespace Lexeme

/-- Each `is` begins a null test, so none begins a test of distinctness. -/
def testsNullsOnly : List Lexeme → Bool
  | [] => true
  | l :: ls =>
    (l != .word "is" || ls.head? == some (.word "null") ||
      ls.take 2 == [.word "not", .word "null"]) && testsNullsOnly ls

theorem testsNullsOnly_append {ls ms : List Lexeme} (hl : testsNullsOnly ls = true)
    (hm : testsNullsOnly ms = true) : testsNullsOnly (ls ++ ms) = true := by
  induction ls with
  | nil => exact hm
  | cons l ls ih =>
      simp only [testsNullsOnly, Bool.and_eq_true, Bool.or_eq_true, List.cons_append] at hl ⊢
      refine ⟨hl.1.imp (.imp id fun h => ?_) fun h => ?_, ih hl.2⟩
      · cases ls with
        | nil => simp at h
        | cons => exact h
      · match ls, h with
        | [], h | [_], h => simp at h
        | _ :: _ :: _, h => exact h

theorem testsNullsOnly_behind {ls ms : List Lexeme} (h : testsNullsOnly (ls ++ ms) = true) :
    testsNullsOnly ms = true := by
  induction ls with
  | nil => exact h
  | cons l ls ih => exact ih (Bool.and_eq_true_iff.1 h).2

theorem testsNullsOnly_of_avoids {ls : List Lexeme} (h : ls.all (avoids operatorWords) = true) :
    testsNullsOnly ls = true := by
  induction ls with
  | nil => rfl
  | cons l ls ih =>
      simp only [List.all_cons, Bool.and_eq_true] at h
      have hl : (l != .word "is") = true := by
        rw [bne_iff_ne]
        rintro rfl
        exact absurd h.1 (by decide)
      simp [testsNullsOnly, hl, ih h.2]

/-- A word that stands between the parts of a statement. It tests no distinctness, and no comment
begins in it or with its end. -/
def isFixed (w : String) : Bool := testsNullsOnly (ofWord w) && isTidy w.toList

theorem isFixed_of_avoids {w : String} (h : (ofWord w).all (avoids operatorWords) = true)
    (htidy : isTidy w.toList = true) : isFixed w = true := by
  rw [isFixed, testsNullsOnly_of_avoids h, htidy]
  rfl

end Lexeme

/-- A piece that is no word. No comment begins in a number. -/
def Piece.isUnit : Piece → Bool
  | .word _ => false
  | .plain text => isTidy text.toList
  | _ => true

namespace Output

/-- A rendered part stands in the output, up to where an error stops the rendering. -/
def Inside (m o : Output) : Prop := ∃ a b, o = a ++ m ++ b

namespace Inside

variable {m o a b : Output}

theorem refl (m : Output) : m.Inside m := ⟨.empty, .empty, by simp⟩

theorem trans (h : m.Inside a) (k : a.Inside o) : m.Inside o := by
  obtain ⟨b, c, rfl⟩ := h
  obtain ⟨e, f, rfl⟩ := k
  exact ⟨e ++ b, c ++ f, by simp only [append_assoc]⟩

theorem left (h : m.Inside a) (b : Output) : m.Inside (a ++ b) :=
  h.trans ⟨.empty, b, by simp⟩

theorem right (a : Output) (h : m.Inside b) : m.Inside (a ++ b) :=
  h.trans ⟨a, .empty, by simp⟩

/-- Behind an error nothing is rendered, so anything may stand there. -/
theorem of_failure {e : TranslateError} (h : o.failure = some e) (m : Output) : m.Inside o :=
  ⟨o, .empty, by rw [append_empty, append_of_failure h]⟩

theorem failure (h : m.Inside o) (hok : o.failure = none) : m.failure = none := by
  obtain ⟨a, b, rfl⟩ := h
  simp only [failure_append_eq_none] at hok
  exact hok.1.2

theorem pieces (h : m.Inside o) (hok : o.failure = none) : m.pieces <:+: o.pieces := by
  obtain ⟨a, b, rfl⟩ := h
  have hleft := (failure_append_eq_none.1 hok).1
  rw [pieces_append hleft, pieces_append (failure_append_eq_none.1 hleft).1]
  exact ⟨a.pieces, b.pieces, rfl⟩

/-- Where a part fails at its first piece, the whole fails there at the latest. -/
theorem fail {e : TranslateError} (h : (Output.fail e).Inside o) : ∃ a, o = a ++ .fail e := by
  obtain ⟨a, b, rfl⟩ := h
  have hfail : .fail e ++ b = Output.fail e := append_of_failure rfl b
  exact ⟨a, by rw [append_assoc, hfail]⟩

end Inside

/-- A property of outputs that is kept when they are put together, with any fixed words between
them. -/
structure Additive (P : Output → Prop) : Prop where
  empty : P .empty
  fail : ∀ e, P (.fail e)
  append : ∀ {a b}, P a → P b → P (a ++ b)
  word : ∀ {w}, Lexeme.isFixed w = true → P (.word w)
  unit : ∀ {p : Piece}, p.isUnit = true → P (.ofPieces [p])

/-- The output consists of the given ones, of units and of fixed words. -/
structure Composed (ms : List Output) (o : Output) : Prop where
  inside : ∀ m ∈ ms, m.Inside o
  holds : ∀ {P : Output → Prop}, Additive P → (∀ m ∈ ms, P m) → P o

namespace Composed

variable {ms ns : List Output} {a b o : Output}

theorem congr (h : Composed ms o) (hiff : ∀ m, m ∈ ms ↔ m ∈ ns) : Composed ns o where
  inside m hm := h.inside m ((hiff m).2 hm)
  holds hP hns := h.holds hP fun m hm => hns m ((hiff m).1 hm)

theorem empty : Composed [] .empty := ⟨nofun, fun hP _ => hP.empty⟩

theorem part (o : Output) : Composed [o] o where
  inside m hm := by rw [List.mem_singleton.1 hm]; exact .refl o
  holds _ h := h o (by simp)

theorem fail (ms : List Output) (e : TranslateError) : Composed ms (.fail e) where
  inside m _ := .of_failure rfl m
  holds hP _ := hP.fail e

theorem word {w : String} (h : Lexeme.isFixed w = true) : Composed [] (.word w) :=
  ⟨nofun, fun hP _ => hP.word h⟩

theorem unit {p : Piece} (h : p.isUnit = true) : Composed [] (.ofPieces [p]) :=
  ⟨nofun, fun hP _ => hP.unit h⟩

theorem name (n : String) : Composed [] (.name n) := unit rfl

theorem append (ha : Composed ms a) (hb : Composed ns b) : Composed (ms ++ ns) (a ++ b) where
  inside m hm := (List.mem_append.1 hm).elim (fun h => (ha.inside m h).left b)
    fun h => (hb.inside m h).right a
  holds hP h := hP.append (ha.holds hP fun m hm => h m (List.mem_append_left ns hm))
    (hb.holds hP fun m hm => h m (List.mem_append_right ms hm))

/-- What stands before the only part of interest. -/
theorem behind (ha : Composed [] a) (hb : Composed ms b) : Composed ms (a ++ b) := ha.append hb

theorem before (ha : Composed ms a) (hb : Composed [] b) : Composed ms (a ++ b) := by
  simpa using ha.append hb

theorem require (condition : Bool) (e : TranslateError) : Composed [] (.require condition e) := by
  cases condition
  · exact fail [] e
  · exact empty

theorem checkArity (m n : Nat) : Composed [] (DialectSql.checkArity m n) := require _ _

theorem when (condition : Bool) (h : Composed [] o) : Composed [] (.when condition o) := by
  cases condition
  · exact empty
  · exact h

/-- Behind a check only the case in which it passes counts. -/
theorem checked {m n : Nat} (h : m = n → Composed ms o) :
    Composed ms (DialectSql.checkArity m n ++ o) := by
  by_cases hmn : m = n
  · rw [hmn, checkArity_self, empty_append]
    exact h hmn
  · have hfail : DialectSql.checkArity m n = .fail (.tupleArity m n) := by
      simp [DialectSql.checkArity, Output.require, hmn]
    have hall : DialectSql.checkArity m n ++ o = .fail (.tupleArity m n) := by
      rw [hfail]
      exact append_of_failure rfl o
    rw [hall]
    exact fail ms _

theorem parenthesized (h : Composed ms o) : Composed ms o.parenthesized :=
  ((word rfl).behind h).before (word rfl)

theorem joined {w : String} (hw : Lexeme.isFixed w = true)
    (os : List Output) : Composed os (.joined w os) := by
  induction os with
  | nil => exact empty
  | cons o os ih =>
      cases os with
      | nil => exact part o
      | cons p os => exact ((part o).before (word hw)).append ih

theorem list (os : List Output) : Composed os (.list os) := joined rfl os

theorem concat (os : List Output) : Composed os (.concat os) := by
  induction os with
  | nil => exact empty
  | cons o os ih => exact (part o).append ih

theorem label (l : Option String) : Composed [] (.label l) := by
  cases l with
  | none => exact empty
  | some a => exact (word rfl).behind (name a)

end Composed

/-- The outputs together consist of the given ones. -/
structure AllComposed (ms os : List Output) : Prop where
  inside : ∀ m ∈ ms, ∃ o ∈ os, m.Inside o
  holds : ∀ {P : Output → Prop}, Additive P → (∀ m ∈ ms, P m) → ∀ o ∈ os, P o

namespace AllComposed

variable {ms ns os ps : List Output} {o : Output}

theorem nil : AllComposed [] [] := ⟨nofun, fun _ _ => nofun⟩

theorem refl (ms : List Output) : AllComposed ms ms :=
  ⟨fun m hm => ⟨m, hm, .refl m⟩, fun _ h => h⟩

theorem singleton (h : Composed ms o) : AllComposed ms [o] where
  inside m hm := ⟨o, by simp, h.inside m hm⟩
  holds hP hms := by simpa using h.holds hP hms

/-- The order of the outputs does not count. -/
theorem union (h : AllComposed ms os) (k : AllComposed ns ps) {qs : List Output}
    (hiff : ∀ o, o ∈ qs ↔ o ∈ os ∨ o ∈ ps) : AllComposed (ms ++ ns) qs where
  inside m hm := by
    rcases List.mem_append.1 hm with hm | hm
    · obtain ⟨o, ho, hin⟩ := h.inside m hm
      exact ⟨o, (hiff o).2 (.inl ho), hin⟩
    · obtain ⟨o, ho, hin⟩ := k.inside m hm
      exact ⟨o, (hiff o).2 (.inr ho), hin⟩
  holds hP hms o ho := by
    rcases (hiff o).1 ho with ho | ho
    · exact h.holds hP (fun m hm => hms m (List.mem_append_left ns hm)) o ho
    · exact k.holds hP (fun m hm => hms m (List.mem_append_right ms hm)) o ho

theorem append (h : AllComposed ms os) (k : AllComposed ns ps) :
    AllComposed (ms ++ ns) (os ++ ps) :=
  h.union k fun _ => List.mem_append

theorem map {α : Type} {f : α → Output} {p : α → List Output} {l : List α}
    (h : ∀ a ∈ l, Composed (p a) (f a)) : AllComposed (l.flatMap p) (l.map f) := by
  induction l with
  | nil => exact nil
  | cons a l ih =>
      exact (singleton (h a (by simp))).append (ih fun b hb => h b (List.mem_cons_of_mem a hb))

theorem each {α : Type} {f g : α → Output} {l : List α} (h : ∀ a ∈ l, Composed [g a] (f a)) :
    AllComposed (l.map g) (l.map f) := by
  rw [List.map_eq_flatMap (f := g)]
  exact map h

/-- Parts are themselves composed of parts. -/
theorem composed (h : AllComposed ms os) (ho : Composed os o) : Composed ms o where
  inside m hm := by
    obtain ⟨p, hp, hin⟩ := h.inside m hm
    exact hin.trans (ho.inside p hp)
  holds hP hms := ho.holds hP (h.holds hP hms)

end AllComposed

theorem Composed.nameList (names : List String) : Composed [] (.nameList names) := by
  have h := AllComposed.map (f := Output.name) (p := fun _ => []) (l := names)
    fun n _ => Composed.name n
  rw [List.flatMap_eq_nil_iff.2 fun _ _ => rfl] at h
  exact h.composed (Composed.list _)

end Output

end DialectSql
