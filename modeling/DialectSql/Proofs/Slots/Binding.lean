import DialectSql.Proofs.Locking.Translation
import DialectSql.Proofs.Slots.Traversal

namespace DialectSql

namespace Output

/-- The slots of an output that was rendered to its end. -/
def Binds (o : Output) (slots : List BindSlot) : Prop :=
  o.failure = none → Translation.parameters o.pieces = slots

/-- Outputs one behind the other, and the slots of all of them. -/
inductive BindsEach : List Output → List BindSlot → Prop
  | nil : BindsEach [] []
  | cons {o : Output} {os : List Output} {xs ys : List BindSlot} :
      o.Binds xs → BindsEach os ys → BindsEach (o :: os) (xs ++ ys)

namespace Binds

variable {a b o : Output} {xs ys : List BindSlot}

theorem append (ha : a.Binds xs) (hb : b.Binds ys) : (a ++ b).Binds (xs ++ ys) := by
  intro h
  obtain ⟨hfa, hfb⟩ := failure_append_eq_none.1 h
  rw [pieces_append hfa, Translation.parameters, List.filterMap_append, ← ha hfa, ← hb hfb]
  rfl

theorem append_text (ha : a.Binds xs) (hb : b.Binds []) : (a ++ b).Binds xs := by
  simpa using ha.append hb

theorem text_append (ha : a.Binds []) (hb : b.Binds ys) : (a ++ b).Binds ys := ha.append hb

theorem of_failure {e : TranslateError} (h : o.failure = some e) : o.Binds xs := by
  intro hok
  rw [h] at hok
  cases hok

theorem fail (e : TranslateError) : (Output.fail e).Binds xs := of_failure rfl

theorem empty : Output.empty.Binds [] := fun _ => rfl

theorem word (w : String) : (Output.word w).Binds [] := fun _ => rfl

theorem name (n : String) : (Output.name n).Binds [] := fun _ => rfl

theorem require (condition : Bool) (e : TranslateError) : (Output.require condition e).Binds [] := by
  cases condition
  · exact fail e
  · exact empty

theorem checkArity (m n : Nat) : (checkArity m n).Binds [] := require _ _

theorem when (condition : Bool) (h : o.Binds []) : (Output.when condition o).Binds [] := by
  cases condition
  · exact empty
  · exact h

theorem parenthesized (h : o.Binds xs) : o.parenthesized.Binds xs :=
  ((word "(").text_append h).append_text (word ")")

theorem wrap (condition : Bool) (h : o.Binds xs) : (Render.wrap condition o).Binds xs := by
  cases condition
  · exact h
  · exact h.parenthesized

theorem label (label : Option String) : (Output.label label).Binds [] := by
  cases label with
  | none => exact empty
  | some n => exact (word " ").text_append (name n)

end Binds

namespace BindsEach

variable {os : List Output} {xs : List BindSlot}

theorem append {ps : List Output} {ys : List BindSlot} (ho : BindsEach os xs)
    (hp : BindsEach ps ys) : BindsEach (os ++ ps) (xs ++ ys) := by
  induction ho with
  | nil => exact hp
  | cons ho _ ih =>
      rw [List.cons_append, List.append_assoc]
      exact .cons ho ih

theorem map {β : Type} {f : β → Output} {g : β → List BindSlot} (l : List β)
    (h : ∀ b ∈ l, (f b).Binds (g b)) : BindsEach (l.map f) (l.flatMap g) := by
  induction l with
  | nil => exact .nil
  | cons b l ih => exact .cons (h b (by simp)) (ih fun c hc => h c (by simp [hc]))

theorem texts (h : ∀ o ∈ os, o.Binds []) : BindsEach os [] := by
  induction os with
  | nil => exact .nil
  | cons o os ih => exact .cons (h o (by simp)) (ih fun p hp => h p (by simp [hp]))

theorem concat (h : BindsEach os xs) : (Output.concat os).Binds xs := by
  induction h with
  | nil => exact .empty
  | cons ho _ ih => exact ho.append ih

/-- A separator binds nothing, whatever stands around it. -/
theorem joined (separator : String) (h : BindsEach os xs) : (Output.joined separator os).Binds xs := by
  induction h with
  | nil => exact .empty
  | cons ho hos ih =>
      cases hos with
      | nil =>
          rw [List.append_nil]
          exact ho
      | cons hp hps => exact (ho.append_text (.word separator)).append ih

theorem list (h : BindsEach os xs) : (Output.list os).Binds xs := h.joined ", "

theorem of_forall₂ {xss : List (List BindSlot)} (h : List.Forall₂ Binds os xss) :
    BindsEach os xss.flatten := by
  induction h with
  | nil => exact .nil
  | cons ho _ ih => exact .cons ho ih

/-- Outputs in levels, read one level behind the other. -/
theorem of_levels {oss : List (List Output)} {levels : List (List (List BindSlot))}
    (h : List.Forall₂ (List.Forall₂ Binds) oss levels) :
    BindsEach oss.flatten levels.flatten.flatten := by
  induction h with
  | nil => exact .nil
  | cons hos _ ih =>
      rw [List.flatten_cons, List.flatten_cons, List.flatten_append]
      exact (of_forall₂ hos).append ih

end BindsEach

theorem binds_nameList (names : List String) : (nameList names).Binds [] :=
  (BindsEach.texts fun o ho => by
    obtain ⟨n, -, rfl⟩ := List.mem_map.1 ho
    exact .name n).list

theorem forall₂_mergeLevels {α β : Type} {R : α → β → Prop} {as cs : List (List α)}
    {bs ds : List (List β)} (hab : List.Forall₂ (List.Forall₂ R) as bs)
    (hcd : List.Forall₂ (List.Forall₂ R) cs ds) :
    List.Forall₂ (List.Forall₂ R) (Render.mergeLevels as cs) (Render.mergeLevels bs ds) := by
  induction hab generalizing cs ds with
  | nil => exact hcd
  | cons ha has ih =>
      cases hcd with
      | nil => exact .cons ha has
      | cons hc hcs => exact .cons (List.rel_append ha hc) (ih hcs)

end Output

/-- The slots of an operand; of a tuple those of its elements. -/
def Operand.Binds (e : Operand) (slots : List BindSlot) : Prop :=
  match e with
  | .tuple es => Output.BindsEach (operandOutputs es) slots
  | e => e.output.Binds slots

theorem Operand.Binds.output {e : Operand} {slots : List BindSlot} (h : e.Binds slots) :
    e.output.Binds slots := by
  cases e with
  | tuple es => exact h.list.parenthesized
  | scalar | subquery | quantified => exact h

theorem SqlValue.binds_pieces (v : SqlValue) : (Output.ofPieces v.pieces).Binds [] := by
  cases v <;> exact fun _ => rfl

theorem Locking.binds_render (d : Dialect) (scope : LockScope) (aggregating : Bool) :
    (render d scope aggregating).Binds [] := by
  cases hlocking : scope.options.isLocking with
  | false =>
      rw [render_unlocked hlocking]
      exact .empty
  | true =>
      rcases render_cases scope hlocking with
        ⟨-, hclause⟩ | ⟨-, hgap | hfollowOn | ⟨cause, hfail, -⟩⟩
      · rw [hclause]
        exact fun _ => (isText_forUpdate _ _).filterMap fun p hp => hp.2.1
      · rw [hgap]
        exact fun _ => rfl
      · rw [hfollowOn]
        exact fun _ => rfl
      · rw [hfail]
        exact .fail _

end DialectSql
