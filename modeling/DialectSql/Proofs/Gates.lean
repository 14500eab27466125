import DialectSql.Proofs.Alike.Rendering
import DialectSql.Proofs.Alike.Same
import DialectSql.Proofs.Placeholder.Numbering

namespace DialectSql

/-- The second capabilities are the first ones with some gates opened and nothing else changed. -/
structure Capabilities.OpenedBy (c c' : Capabilities) : Prop where
  rest : c' = c.withGates c'.gates
  gates : Gates.Related (fun b b' => b = true → b' = true) c.gates c'.gates

namespace Output

/-- The outputs are the same, unless a gate stopped the first one. -/
def Gated (o o' : Output) : Prop := o = o' ∨ ∃ u, o.failure = some (.unsupported u)

theorem Gated.append {a a' b b' : Output} (ha : a.Gated a') (hb : b.Gated b') :
    (a ++ b).Gated (a' ++ b') := by
  obtain rfl | ⟨u, hu⟩ := ha
  · cases hfailure : a.failure with
    | some e =>
        left
        rw [append_of_failure hfailure, append_of_failure hfailure]
    | none =>
        obtain rfl | ⟨u, hu⟩ := hb
        · exact .inl rfl
        · exact .inr ⟨u, by rw [failure_append, hfailure, hu, Option.none_or]⟩
  · exact .inr ⟨u, by rw [failure_append, hu, Option.some_or]⟩

/-- Outputs of one statement belong together when only a gate can tell them apart. -/
def gating (d : Dialect) : Pairing .same d where
  whole := Gated
  led := Gated
  gate b b' := b = true → b' = true
  dual := optionalName_same _
  whole_of_led h := h
  empty := .inl rfl
  fail _ := .inl rfl
  word _ := .inl rfl
  unit _ _ := .inl rfl
  name _ := .inl rfl
  table _ := .inl rfl
  type _ := .inl rfl
  require {b b'} cause h := by
    cases b with
    | false => exact .inr ⟨cause, rfl⟩
    | true => exact .inl (by rw [h rfl])
  gate_self _ h := h
  literal h := by
    cases h
    exact .inl rfl
  pieces h := by
    cases h
    exact .inl rfl
  int? h := by
    cases h
    rfl
  escape h := by
    cases h
    exact .inl rfl
  zero := .inl rfl
  whole_append := .append
  led_append := .append
  word_append _ h := .append (.inl rfl) h

end Output

theorem statement_gated (d : Dialect) {c' : Capabilities} (h : d.capabilities.OpenedBy c')
    (l : LockOptions) (s : Statement) :
    (Render.statement d l s).Gated (Render.statement { d with capabilities := c' } l s) := by
  have hgates : (Output.gating d).Opens c'.gates := h.gates
  have hstatement := Render.paired_statement hgates (names_same l.aliases) s.alike_self
  rw [h.rest]
  exact hstatement

/-- Opening gates of a dialect changes no translation: what translates is translated as before, and
what translates only now was unsupported. -/
theorem translate_opened (d : Dialect) (c' : Capabilities) (h : d.capabilities.OpenedBy c')
    (l : LockOptions) (s : Statement) :
    (∀ t, translateWithLock d s l = .ok t →
      translateWithLock { d with capabilities := c' } s l = .ok t) ∧
    ∀ e t, translateWithLock d s l = .error e →
      translateWithLock { d with capabilities := c' } s l = .ok t → ∃ u, e = .unsupported u := by
  have hstyle : c'.placeholder = d.capabilities.placeholder := by
    rw [h.rest]
    rfl
  obtain hsame | ⟨u, hu⟩ := statement_gated d h l s
  · have htranslate : translateWithLock { d with capabilities := c' } s l =
        translateWithLock d s l := by
      rw [translateWithLock, translateWithLock, hsame, hstyle]
    refine ⟨fun t ht => htranslate.trans ht, fun e t he ht => ?_⟩
    rw [htranslate, he] at ht
    cases ht
  · have herror : translateWithLock d s l = .error (.unsupported u) :=
      Translation.ofOutput_of_failure _ hu
    refine ⟨fun t ht => ?_, fun e t he _ => ⟨u, ?_⟩⟩
    · rw [herror] at ht
      cases ht
    · rw [herror] at he
      exact (Except.error.inj he).symm

/-- A rollup that is unsupported until the gate for it is opened. -/
theorem translate_opened_rollup :
    let opened := { Dialect.sqlite.capabilities with summarization := .native, lateral := true }
    let totals := (QuerySpec.empty.select (.rollup [.column none "a"]) none).addRoot (.table "t")
    let s := Statement.select (.ofQuery (.spec totals))
    ∃ e t, translateWithLock .sqlite s .unlocked = .error e ∧
      translateWithLock { Dialect.sqlite with capabilities := opened } s .unlocked = .ok t ∧
      t.sql = "select rollup(a) from t" ∧ ∃ u, e = .unsupported u := by
  intro opened totals s
  have hopened : Dialect.sqlite.capabilities.OpenedBy opened := ⟨rfl, by constructor <;> decide⟩
  have herror : translateWithLock .sqlite s .unlocked = .error _ :=
    Translation.ofOutput_of_failure _ (show _ = some (.unsupported (.summarization .rollup)) by decide)
  have hok : translateWithLock { Dialect.sqlite with capabilities := opened } s .unlocked = .ok _ :=
    Translation.ofOutput_of_complete _ (by decide)
  exact ⟨_, _, herror, hok, by decide,
    (translate_opened .sqlite opened hopened .unlocked s).2 _ _ herror hok⟩

end DialectSql
