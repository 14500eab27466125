import DialectSql.Render.Output

namespace DialectSql.Output

variable {a b c : Output}

@[simp] theorem failure_empty : empty.failure = none := rfl

@[simp] theorem failure_ofPieces (ps : List Piece) : (ofPieces ps).failure = none := rfl

@[simp] theorem failure_fail (e : TranslateError) : (fail e).failure = some e := rfl

@[simp] theorem failure_word (w : String) : (word w).failure = none := rfl

@[simp] theorem failure_name (n : String) : (name n).failure = none := rfl

@[simp] theorem pieces_empty : empty.pieces = [] := rfl

@[simp] theorem pieces_ofPieces (ps : List Piece) : (ofPieces ps).pieces = ps := rfl

@[simp] theorem pieces_fail (e : TranslateError) : (fail e).pieces = [] := rfl

@[simp] theorem pieces_word (w : String) : (word w).pieces = [.word w] := rfl

@[simp] theorem pieces_name (n : String) : (name n).pieces = [.name n] := rfl

@[simp] theorem failure_append (a b : Output) : (a ++ b).failure = a.failure.or b.failure := by
  change (append a b).failure = _
  cases h : a.failure <;> simp [append, h]

theorem pieces_append (h : a.failure = none) (b : Output) :
    (a ++ b).pieces = a.pieces ++ b.pieces := by
  change (append a b).pieces = _
  simp [append, h]

theorem append_of_failure {e : TranslateError} (h : a.failure = some e) (b : Output) :
    a ++ b = a := by
  change append a b = a
  simp [append, h]

theorem failure_append_eq_none : (a ++ b).failure = none ↔ a.failure = none ∧ b.failure = none := by
  simp

theorem ext {a b : Output} (hp : a.pieces = b.pieces) (hf : a.failure = b.failure) : a = b := by
  cases a; cases b; simp_all

theorem append_assoc (a b c : Output) : a ++ b ++ c = a ++ (b ++ c) := by
  cases ha : a.failure with
  | some e => rw [append_of_failure ha, append_of_failure ha, append_of_failure ha]
  | none =>
      cases hb : b.failure with
      | some e =>
          have hab : (a ++ b).failure = some e := by simp [ha, hb]
          rw [append_of_failure hab, append_of_failure hb]
      | none =>
          have hab : (a ++ b).failure = none := by simp [ha, hb]
          apply ext
          · rw [pieces_append hab, pieces_append ha, pieces_append ha, pieces_append hb,
              List.append_assoc]
          · simp [ha, hb]

@[simp] theorem empty_append (a : Output) : empty ++ a = a := by
  apply ext
  · rw [pieces_append rfl]; rfl
  · simp

@[simp] theorem append_empty (a : Output) : a ++ empty = a := by
  cases ha : a.failure with
  | some e => exact append_of_failure ha _
  | none => apply ext <;> simp [pieces_append ha]

@[simp] theorem joined_cons_cons (separator : String) (o p : Output) (os : List Output) :
    joined separator (o :: p :: os) = o ++ word separator ++ joined separator (p :: os) := rfl

theorem failure_joined_eq_none (separator : String) (os : List Output) :
    (joined separator os).failure = none ↔ ∀ o ∈ os, o.failure = none := by
  induction os with
  | nil => simp [joined]
  | cons o os ih =>
      cases os with
      | nil => simp [joined]
      | cons p os => simp [ih]

@[simp] theorem failure_parenthesized (o : Output) : o.parenthesized.failure = o.failure := by
  simp [parenthesized]

@[simp] theorem failure_require (condition : Bool) (e : TranslateError) :
    (require condition e).failure = if condition then none else some e := by
  cases condition <;> rfl

theorem failure_require_eq_none (condition : Bool) (e : TranslateError) :
    (require condition e).failure = none ↔ condition = true := by
  simp

theorem failure_checkArity (m n : Nat) : (checkArity m n).failure = none ↔ m = n := by
  simp [checkArity]

@[simp] theorem checkArity_self (n : Nat) : checkArity n n = empty := by
  simp [checkArity, require]

theorem require_true (e : TranslateError) : require true e = empty := rfl

end DialectSql.Output
