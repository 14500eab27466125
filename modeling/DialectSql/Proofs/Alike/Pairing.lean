import DialectSql.Proofs.Alike.Statement
import DialectSql.Proofs.Output
import DialectSql.Proofs.Quoting.Unquoted
import DialectSql.Render.Statement

namespace DialectSql

/-- The capabilities that only let a construct pass and have no say in how it is written. -/
structure Gates where
  cte : Bool
  recursiveCte : Bool
  lateral : Bool
  intersectExceptAll : Bool
  fetchWithTies : Bool
  insertDefaultValues : Bool
  summarization : ClauseSupport
deriving DecidableEq, Repr

namespace Capabilities

def gates (c : Capabilities) : Gates :=
  ⟨c.cte, c.recursiveCte, c.lateral, c.intersectExceptAll, c.fetchWithTies, c.insertDefaultValues,
    c.summarization⟩

def withGates (c : Capabilities) (g : Gates) : Capabilities :=
  { c with
    cte := g.cte
    recursiveCte := g.recursiveCte
    lateral := g.lateral
    intersectExceptAll := g.intersectExceptAll
    fetchWithTies := g.fetchWithTies
    insertDefaultValues := g.insertDefaultValues
    summarization := g.summarization }

end Capabilities

def Dialect.withGates (d : Dialect) (g : Gates) : Dialect :=
  { d with capabilities := d.capabilities.withGates g }

/-- The gates agree up to a relation of their flags. -/
structure Gates.Related (r : Bool → Bool → Prop) (g g' : Gates) : Prop where
  cte : r g.cte g'.cte
  recursiveCte : r g.recursiveCte g'.recursiveCte
  lateral : r g.lateral g'.lateral
  intersectExceptAll : r g.intersectExceptAll g'.intersectExceptAll
  fetchWithTies : r g.fetchWithTies g'.fetchWithTies
  insertDefaultValues : r g.insertDefaultValues g'.insertDefaultValues
  summarization : r (g.summarization == .native) (g'.summarization == .native)

/-- A text that is written between others: it is not empty and has no quotes. -/
def IsSeparator (w : String) : Prop := w ≠ "" ∧ Unquoted w

instance (w : String) : Decidable (IsSeparator w) := inferInstanceAs (Decidable (_ ∧ _))

theorem IsSeparator.ite {p : Prop} [Decidable p] {w v : String} (hw : IsSeparator w)
    (hv : IsSeparator v) : IsSeparator (if p then w else v) := by
  split
  · exact hw
  · exact hv

/-- The piece has no quotes in its text. -/
def Piece.Unquoted : Piece → Prop
  | .word s | .name s | .plain s | .table s => DialectSql.Unquoted s
  | .slot _ | .derivedAlias | .gap _ | .followOnLock _ => True
  | .quoted _ => False

/-- The piece is written as a name of the statement. -/
def Piece.isName : Piece → Bool
  | .name _ | .table _ => true
  | _ => false

namespace Output

theorem pieces_checkArity (m n : Nat) : (checkArity m n).pieces = [] := by
  rw [checkArity, require]
  split <;> rfl

/-- How the outputs of two renderings belong together. The outputs that are `led` do not begin with
a quoted region, so they may stand directly behind any other. -/
structure Pairing (L : Likeness) (d : Dialect) where
  whole : Output → Output → Prop
  led : Output → Output → Prop
  gate : Bool → Bool → Prop
  dual : L.optionalName d.capabilities.dualTable
  whole_of_led : ∀ {a b}, led a b → whole a b
  empty : led .empty .empty
  fail : ∀ e, led (.fail e) (.fail e)
  word : ∀ {w}, IsSeparator w → led (.word w) (.word w)
  unit : ∀ {p : Piece}, p.Unquoted → p.isName = false → led (.ofPieces [p]) (.ofPieces [p])
  name : ∀ {n}, L.name n → led (.name n) (.name n)
  table : ∀ {n}, L.name n → led (.ofPieces [.table n]) (.ofPieces [.table n])
  type : ∀ {t : DataType}, t.Named L → led (.name t.sql) (.name t.sql)
  require : ∀ {b b'} (cause : Unsupported), gate b b' →
    led (.require b (.unsupported cause)) (.require b' (.unsupported cause))
  gate_self : ∀ b, gate b b
  literal : ∀ {v v'}, L.literal v v' → whole (Render.literal d v) (Render.literal d v')
  pieces : ∀ {v v' : SqlValue}, L.literal v v' → whole (.ofPieces v.pieces) (.ofPieces v'.pieces)
  int? : ∀ {v v' : SqlValue}, L.literal v v' → v.int? = v'.int?
  escape : ∀ {c c' : Char}, L.escape c c' →
    whole (.ofPieces [.quoted c.toString]) (.ofPieces [.quoted c'.toString])
  zero : whole (.ofPieces [.quoted "0"]) (.ofPieces [.quoted "0"])
  whole_append : ∀ {a a' b b'}, whole a a' → led b b' → whole (a ++ b) (a' ++ b')
  led_append : ∀ {a a' b b'}, led a a' → led b b' → led (a ++ b) (a' ++ b')
  word_append : ∀ {w a a'}, IsSeparator w → whole a a' → led (.word w ++ a) (.word w ++ a')

namespace Pairing

variable {L : Likeness} {d : Dialect} (P : Pairing L d) {a a' b b' : Output} {w v : String}

/-- Lists of outputs that belong together one by one. -/
abbrev AllWhole (os os' : List Output) : Prop := List.Forall₂ P.whole os os'

abbrev AllLed (os os' : List Output) : Prop := List.Forall₂ P.led os os'

variable {P} {os os' : List Output}

theorem AllLed.allWhole (h : P.AllLed os os') : P.AllWhole os os' := h.imp fun _ _ => P.whole_of_led

variable (P)

theorem between (hw : IsSeparator w) (ha : P.whole a a') (hb : P.whole b b') :
    P.whole (a ++ .word w ++ b) (a' ++ .word w ++ b') := by
  rw [append_assoc, append_assoc]
  exact P.whole_append ha (P.word_append hw hb)

theorem led_between (hw : IsSeparator w) (ha : P.led a a') (hb : P.whole b b') :
    P.led (a ++ .word w ++ b) (a' ++ .word w ++ b') := by
  rw [append_assoc, append_assoc]
  exact P.led_append ha (P.word_append hw hb)

theorem enclosed (hw : IsSeparator w) (hv : IsSeparator v) (ha : P.whole a a') :
    P.led (.word w ++ a ++ .word v) (.word w ++ a' ++ .word v) :=
  P.led_append (P.word_append hw ha) (P.word hv)

theorem parenthesized (ha : P.whole a a') : P.led a.parenthesized a'.parenthesized :=
  P.enclosed (by decide) (by decide) ha

theorem whole_ite {p : Prop} [Decidable p] (ha : P.whole a a') (hb : P.whole b b') :
    P.whole (if p then a else b) (if p then a' else b') := by
  split
  · exact ha
  · exact hb

theorem led_ite {p : Prop} [Decidable p] (ha : P.led a a') (hb : P.led b b') :
    P.led (if p then a else b) (if p then a' else b') := by
  split
  · exact ha
  · exact hb

theorem require_self (condition : Bool) (e : TranslateError) :
    P.led (.require condition e) (.require condition e) := by
  cases condition
  · exact P.fail e
  · exact P.empty

/-- The gates of the dialect and those put in their place let through what the pairing allows. -/
abbrev Opens (g : Gates) : Prop := Gates.Related P.gate d.capabilities.gates g

theorem require_or {b b' : Bool} (condition : Bool) (cause : Unsupported) (h : P.gate b b') :
    P.led (.require (condition || b) (.unsupported cause))
      (.require (condition || b') (.unsupported cause)) := by
  cases condition
  · exact P.require cause h
  · exact P.empty

theorem integer (n : Int) : P.led (.ofPieces [.plain (toString n)])
    (.ofPieces [.plain (toString n)]) := P.unit (.int n) rfl

theorem checkArity (m n : Nat) : P.led (DialectSql.checkArity m n) (DialectSql.checkArity m n) :=
  P.require_self _ _

/-- Behind a check, which renders nothing, comes what is checked, or nothing. -/
theorem checked {o : Output} (ho : o.pieces = []) (ha : P.whole a a') :
    P.whole (o ++ a) (o ++ a') := by
  obtain ⟨pieces, failure⟩ := o
  subst ho
  cases failure with
  | none => exact (empty_append a).symm ▸ (empty_append a').symm ▸ ha
  | some e =>
      rw [append_of_failure rfl, append_of_failure rfl]
      exact P.whole_of_led (P.fail e)

theorem arityChecked (m n : Nat) (ha : P.whole a a') :
    P.whole (DialectSql.checkArity m n ++ a) (DialectSql.checkArity m n ++ a') :=
  P.checked (pieces_checkArity m n) ha

theorem when (condition : Bool) (ha : P.led a a') :
    P.led (.when condition a) (.when condition a') := by
  cases condition
  · exact P.empty
  · exact ha

theorem when_append (condition : Bool) (hw : IsSeparator w) (ha : P.whole a a') :
    P.whole (.when condition (.word w) ++ a) (.when condition (.word w) ++ a') := by
  cases condition
  · rwa [Output.when, if_neg Bool.false_ne_true, empty_append, empty_append]
  · exact P.whole_of_led (P.word_append hw ha)

theorem concat (h : P.AllLed os os') : P.led (.concat os) (.concat os') := by
  induction h with
  | nil => exact P.empty
  | cons ho _ ih => exact P.led_append ho ih

theorem joined (hw : IsSeparator w) (h : P.AllWhole os os') :
    P.whole (.joined w os) (.joined w os') := by
  induction h with
  | nil => exact P.whole_of_led P.empty
  | cons ho hs ih =>
      cases hs with
      | nil => exact ho
      | cons hp hs => exact P.between hw ho ih

theorem led_joined (hw : IsSeparator w) (h : P.AllLed os os') :
    P.led (.joined w os) (.joined w os') := by
  induction h with
  | nil => exact P.empty
  | cons ho hs ih =>
      cases hs with
      | nil => exact ho
      | cons hp hs => exact P.led_between hw ho (P.whole_of_led ih)

theorem list (h : P.AllWhole os os') : P.whole (.list os) (.list os') := P.joined (by decide) h

theorem led_list (h : P.AllLed os os') : P.led (.list os) (.list os') := P.led_joined (by decide) h

theorem allLed_map {α : Type} {f : α → Output} {l : List α} (h : ∀ a ∈ l, P.led (f a) (f a)) :
    P.AllLed (l.map f) (l.map f) := by
  rw [AllLed, List.forall₂_map_left_iff, List.forall₂_map_right_iff, List.forall₂_same]
  exact h

theorem nameList {ns : List String} (h : L.names ns) : P.led (.nameList ns) (.nameList ns) :=
  P.led_list (P.allLed_map fun n hn => P.name (h n hn))

theorem clause_none (w : String) : P.led (.clause w none) (.clause w none) := P.empty

theorem clause_some (hw : IsSeparator w) (ha : P.whole a a') :
    P.led (.clause w (some a)) (.clause w (some a')) := P.word_append hw ha

theorem label {l : Option String} (h : L.optionalName l) : P.led (.label l) (.label l) := by
  cases l with
  | none => exact P.empty
  | some n => exact P.word_append (by decide) (P.whole_of_led (P.name (h n rfl)))

theorem allWhole_map {α β : Type} {R : α → β → Prop} {f : α → Output} {g : β → Output}
    {l : List α} {m : List β} (h : List.Forall₂ R l m) (hfg : ∀ {a b}, R a b → P.whole (f a) (g b)) :
    P.AllWhole (l.map f) (m.map g) := by
  rw [AllWhole, List.forall₂_map_left_iff, List.forall₂_map_right_iff]
  exact h.imp fun _ _ => hfg

end Pairing

end Output

end DialectSql
