import DialectSql.Proofs.Output
import DialectSql.Render.Session
import Mathlib.Data.List.Induction
import Mathlib.Data.String.Basic

namespace DialectSql

namespace Translation

theorem mem_insertName {name n : String} {names : List String} :
    n ∈ insertName name names ↔ n = name ∨ n ∈ names := by
  induction names with
  | nil => simp [insertName]
  | cons m names ih =>
      rw [insertName]
      split
      · simp
      split
      · simp [*]
      · simp [ih, or_left_comm]

theorem pairwise_insertName (name : String) {names : List String} (h : names.Pairwise (· < ·)) :
    (insertName name names).Pairwise (· < ·) := by
  induction names with
  | nil => simp [insertName]
  | cons m names ih =>
      rw [List.pairwise_cons] at h
      rw [insertName]
      by_cases hlt : name < m
      · rw [if_pos hlt]
        refine .cons (fun n hn => ?_) (List.pairwise_cons.2 h)
        obtain rfl | hn := List.mem_cons.1 hn
        · exact hlt
        · exact hlt.trans (h.1 n hn)
      by_cases heq : name = m
      · rw [if_neg hlt, if_pos heq]
        exact List.pairwise_cons.2 h
      · rw [if_neg hlt, if_neg heq]
        refine .cons (fun n hn => ?_) (ih h.2)
        obtain rfl | hn := mem_insertName.1 hn
        · exact lt_of_le_of_ne (le_of_not_gt hlt) (Ne.symm heq)
        · exact h.1 n hn

theorem prefix_addGap (gaps : List CapabilityGap) (g : CapabilityGap) : gaps <+: addGap gaps g := by
  rw [addGap]
  split
  · exact List.prefix_rfl
  · exact List.prefix_append _ _

theorem nodup_addGap {gaps : List CapabilityGap} (h : gaps.Nodup) (g : CapabilityGap) :
    (addGap gaps g).Nodup := by
  rw [addGap]
  split
  · exact h
  · rename_i hg
    refine List.nodup_append.2 ⟨h, by simp, fun a ha b hb => ?_⟩
    rw [List.mem_singleton.1 hb]
    exact fun hag => hg (hag ▸ ha)

end Translation

open Translation (addGap insertName mem_insertName pairwise_insertName prefix_addGap nodup_addGap)

/-- What a rendering in progress has written and met, and the queries around the place it has
reached, the innermost first. -/
structure Translator where
  dialect : Dialect
  lock : LockOptions
  sql : String
  parameters : List BindSlot
  frames : List Frame
  followOnLock : Option ForUpdateClause
  gaps : List CapabilityGap
  affectedTables : List String
  sorted : affectedTables.Pairwise (· < ·)
  aliases : Nat

namespace Translator

def start (d : Dialect) (lock : LockOptions) : Translator :=
  ⟨d, lock, "", [], [], none, [], [], .nil, 0⟩

/-- What the rendering of a call can see of the translator. -/
def view (t : Translator) : Session := ⟨t.dialect, t.lock, [], t.frames⟩

def push (t : Translator) (q : Query) (root : Bool) : Translator :=
  { t with frames := ⟨q, root⟩ :: t.frames }

def pop (t : Translator) : Translator := { t with frames := t.frames.tail }

def write (t : Translator) (text : String) : Translator := { t with sql := t.sql ++ text }

def emit (t : Translator) : Piece → Translator
  | .word s | .name s | .plain s => t.write s
  | .quoted s => t.write (quoted s)
  | .slot slot =>
    { t.write (t.dialect.capabilities.placeholder.render (t.parameters.length + 1)) with
      parameters := t.parameters ++ [slot] }
  | .derivedAlias =>
      { t.write ("grp_" ++ toString t.aliases ++ "_") with aliases := t.aliases + 1 }
  | .table name =>
    { t.write name with
      affectedTables := insertName name t.affectedTables
      sorted := pairwise_insertName name t.sorted }
  | .gap g => { t with gaps := addGap t.gaps g }
  | .followOnLock clause => { t with followOnLock := some clause }

def emitAll (t : Translator) (ps : List Piece) : Translator := ps.foldl emit t

/-- Emits what was rendered before an error, if there is one. -/
def append (t : Translator) (o : Output) : Translator := t.emitAll o.pieces

/-- All that was there before is still there, and the place reached is the same. -/
structure Extends (t u : Translator) : Prop where
  dialect : u.dialect = t.dialect
  lock : u.lock = t.lock
  frames : u.frames = t.frames
  sql : ∃ text, u.sql = t.sql ++ text
  parameters : t.parameters <+: u.parameters
  gaps : t.gaps <+: u.gaps
  distinct : t.gaps.Nodup → u.gaps.Nodup
  affectedTables : t.affectedTables ⊆ u.affectedTables

variable {t u v : Translator}

@[simp] theorem view_push (t : Translator) (q : Query) (root : Bool) :
    (t.push q root).view = t.view.push q root := rfl

@[simp] theorem pop_push (t : Translator) (q : Query) (root : Bool) : (t.push q root).pop = t := rfl

namespace Extends

theorem refl (t : Translator) : Extends t t :=
  ⟨rfl, rfl, rfl, ⟨"", by simp⟩, List.prefix_rfl, List.prefix_rfl, id, fun _ => id⟩

theorem trans (h : Extends t u) (g : Extends u v) : Extends t v where
  dialect := g.dialect.trans h.dialect
  lock := g.lock.trans h.lock
  frames := g.frames.trans h.frames
  sql := by
    obtain ⟨first, hfirst⟩ := h.sql
    obtain ⟨second, hsecond⟩ := g.sql
    exact ⟨first ++ second, by rw [hsecond, hfirst, String.append_assoc]⟩
  parameters := h.parameters.trans g.parameters
  gaps := h.gaps.trans g.gaps
  distinct := g.distinct ∘ h.distinct
  affectedTables := List.Subset.trans h.affectedTables g.affectedTables

theorem view_eq (h : Extends t u) : u.view = t.view := by
  rw [view, view, h.dialect, h.lock, h.frames]

/-- What is rendered inside a query leaves the frame of the query on top, so that it is the one
that is taken off. -/
theorem of_push {q : Query} {root : Bool} (h : Extends (t.push q root) u) : Extends t u.pop :=
  { h with frames := congrArg List.tail h.frames }

theorem write (t : Translator) (text : String) : Extends t (t.write text) :=
  { refl t with sql := ⟨text, rfl⟩ }

theorem emit (t : Translator) (p : Piece) : Extends t (t.emit p) := by
  cases p with
  | word s | name s | plain s | quoted s => exact write t _
  | slot slot => exact { write t _ with parameters := List.prefix_append _ _ }
  | derivedAlias => exact { write t _ with }
  | table name =>
      exact { write t name with affectedTables := fun _ hn => mem_insertName.2 (.inr hn) }
  | gap g =>
      exact { refl t with gaps := prefix_addGap t.gaps g, distinct := fun h => nodup_addGap h g }
  | followOnLock clause => exact { refl t with }

theorem emitAll (t : Translator) (ps : List Piece) : Extends t (t.emitAll ps) := by
  induction ps generalizing t with
  | nil => exact refl t
  | cons p ps ih => exact (emit t p).trans (ih (t.emit p))

theorem append (t : Translator) (o : Output) : Extends t (t.append o) := emitAll t o.pieces

end Extends

@[simp] theorem append_empty (t : Translator) : t.append .empty = t := rfl

theorem emitAll_append (t : Translator) (ps qs : List Piece) :
    t.emitAll (ps ++ qs) = (t.emitAll ps).emitAll qs := List.foldl_append

theorem append_append {o : Output} (h : o.failure = none) (t : Translator) (p : Output) :
    t.append (o ++ p) = (t.append o).append p := by
  rw [append, Output.pieces_append h, emitAll_append]
  rfl

@[simp] theorem view_append (t : Translator) (o : Output) : (t.append o).view = t.view :=
  (Extends.append t o).view_eq

theorem emit_push (t : Translator) (q : Query) (root : Bool) (p : Piece) :
    (t.push q root).emit p = (t.emit p).push q root := by
  cases p <;> rfl

/-- What is emitted does not depend on the queries around the place. -/
theorem append_push (t : Translator) (q : Query) (root : Bool) (o : Output) :
    (t.push q root).append o = (t.append o).push q root := by
  rw [append, append]
  generalize o.pieces = ps
  induction ps generalizing t with
  | nil => rfl
  | cons p ps ih => exact (congrArg (fun u => emitAll u ps) (emit_push t q root p)).trans (ih _)

section

variable (ps : List Piece)

theorem sql_emitAll (t : Translator) : (t.emitAll ps).sql =
    t.sql ++ String.join
      (Translation.texts t.dialect.capabilities.placeholder t.parameters.length t.aliases ps) := by
  induction ps generalizing t with
  | nil => simp [emitAll, Translation.texts]
  | cons p ps ih =>
      refine (ih (t.emit p)).trans ?_
      cases p <;>
        simp [emit, write, Translation.texts, Piece.text, String.append_assoc]

theorem parameters_emitAll (t : Translator) :
    (t.emitAll ps).parameters = t.parameters ++ Translation.parameters ps := by
  induction ps generalizing t with
  | nil => simp [emitAll, Translation.parameters]
  | cons p ps ih =>
      refine (ih (t.emit p)).trans ?_
      cases p <;> simp [emit, write, Translation.parameters, List.filterMap_cons, Piece.slot?]

theorem gaps_emitAll (t : Translator) :
    (t.emitAll ps).gaps = (ps.filterMap Piece.gap?).foldl addGap t.gaps := by
  induction ps generalizing t with
  | nil => rfl
  | cons p ps ih =>
      refine (ih (t.emit p)).trans ?_
      cases p <;> rfl

theorem affectedTables_emitAll (t : Translator) : (t.emitAll ps).affectedTables =
    (ps.filterMap Piece.table?).foldl (fun ns n => insertName n ns) t.affectedTables := by
  induction ps generalizing t with
  | nil => rfl
  | cons p ps ih =>
      refine (ih (t.emit p)).trans ?_
      cases p <;> rfl

theorem followOnLock_emitAll (t : Translator) :
    (t.emitAll ps).followOnLock = (Translation.followOnLock ps).or t.followOnLock := by
  induction ps using List.reverseRecOn with
  | nil => rfl
  | append_singleton ps p ih =>
      rw [emitAll_append]
      cases p <;>
        simp [emitAll, emit, write, Translation.followOnLock, Piece.followOnLock?] at ih ⊢ <;>
        exact ih

end

/-- What the translator has to hand out. -/
def finish (t : Translator) : TranslatedSql :=
  ⟨t.sql, t.parameters, t.followOnLock, t.gaps, t.affectedTables⟩

end Translator

namespace Session

/-- The translator that has rendered what the session has. -/
def translator (s : Session) : Translator :=
  ({ Translator.start s.dialect s.lock with frames := s.frames }).emitAll s.pieces

theorem finish_translator (s : Session) :
    s.translator.finish =
      Translation.ofPieces s.dialect.capabilities.placeholder s.pieces := by
  rw [Translator.finish, translator, Translator.sql_emitAll, Translator.parameters_emitAll,
    Translator.gaps_emitAll, Translator.affectedTables_emitAll, Translator.followOnLock_emitAll]
  simp [Translator.start, Translation.ofPieces, Translation.sql, Translation.gaps,
    Translation.affectedTables, Translation.sortNames]

theorem view_translator (s : Session) : s.translator.view = { s with pieces := [] } :=
  (Translator.Extends.emitAll _ s.pieces).view_eq

theorem translator_emit (s : Session) (o : Output) :
    (s.emit o).1.translator = s.translator.append o := Translator.emitAll_append _ s.pieces o.pieces

end Session

end DialectSql
