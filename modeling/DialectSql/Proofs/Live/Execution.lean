import DialectSql.Proofs.Live.Query
import DialectSql.Proofs.Live.Translator

namespace DialectSql

namespace Translator

mutual

/-- An action has been done: what it has made of the translator, and the error that stopped it. A
frame is taken off where the actions behind it have ended, with an error or without. -/
inductive Executes : Translator → Action → Translator → Option TranslateError → Prop
  | emit (t : Translator) (o : Output) : Executes t (.emit o) (t.append o) o.failure
  | call {t u : Translator} {c : RenderCall} {e : Option TranslateError}
      (h : ExecutesAll t (Action.ofCall t.view c) u e) : Executes t (.call c) u e
  | within {t u : Translator} {q : Query} {root : Bool} {actions : List Action}
      {e : Option TranslateError} (h : ExecutesAll (t.push q root) actions u e) :
      Executes t (.within q root actions) u.pop e

/-- Actions are done one after the other, up to the first error. -/
inductive ExecutesAll : Translator → List Action → Translator → Option TranslateError → Prop
  | nil (t : Translator) : ExecutesAll t [] t none
  | stop {t u : Translator} {a : Action} {as : List Action} {e : TranslateError}
      (h : Executes t a u (some e)) : ExecutesAll t (a :: as) u (some e)
  | cons {t u v : Translator} {a : Action} {as : List Action} {e : Option TranslateError}
      (h : Executes t a u none) (hs : ExecutesAll u as v e) : ExecutesAll t (a :: as) v e

end

mutual

/-- What is done extends the translator, whether it fails or not. -/
theorem Executes.extends {t u : Translator} {a : Action} {e : Option TranslateError}
    (h : Executes t a u e) : Extends t u := by
  match h with
  | .emit t o => exact .append t o
  | .call h => exact h.extends
  | .within h => exact h.extends.of_push

theorem ExecutesAll.extends {t u : Translator} {as : List Action} {e : Option TranslateError}
    (h : ExecutesAll t as u e) : Extends t u := by
  match h with
  | .nil t => exact .refl t
  | .stop h => exact h.extends
  | .cons h hs => exact h.extends.trans hs.extends

end

mutual

/-- What is done is what is rendered. -/
theorem Executes.eq_output {t u : Translator} {a : Action} {e : Option TranslateError}
    (h : Executes t a u e) :
    u = t.append (a.output t.view) ∧ e = (a.output t.view).failure := by
  match h with
  | .emit t o => exact ⟨rfl, rfl⟩
  | .call h =>
      have hall := h.eq_outputs
      rwa [Action.outputs_ofCall] at hall
  | .within h =>
      obtain ⟨hu, he⟩ := h.eq_outputs
      rw [append_push] at hu
      exact ⟨congrArg pop hu, he⟩

theorem ExecutesAll.eq_outputs {t u : Translator} {as : List Action} {e : Option TranslateError}
    (h : ExecutesAll t as u e) :
    u = t.append (Action.outputs t.view as) ∧ e = (Action.outputs t.view as).failure := by
  match h with
  | .nil t => exact ⟨rfl, rfl⟩
  | .stop h =>
      obtain ⟨hu, he⟩ := h.eq_output
      rw [Action.outputs_cons, Output.append_of_failure he.symm]
      exact ⟨hu, he⟩
  | .cons h hs =>
      obtain ⟨hmiddle, hnone⟩ := h.eq_output
      obtain ⟨hu, he⟩ := hs.eq_outputs
      rw [hmiddle, view_append] at hu he
      rw [Action.outputs_cons, append_append hnone.symm, Output.failure_append, ← hnone]
      exact ⟨hu, he⟩

end

end Translator

end DialectSql
