import DialectSql.Proofs.Layer.Basic

namespace DialectSql

namespace Lexeme

theorem ofPieces_append (ps qs : List Piece) : ofPieces (ps ++ qs) = ofPieces ps ++ ofPieces qs := by
  simp [ofPieces]

theorem ofPieces_word (w : String) : ofPieces [.word w] = ofWord w := by
  simp [ofPieces, ofPiece]

theorem avoids_of_subset {words more : List String} (hsub : words ⊆ more) {l : Lexeme}
    (h : l.avoids more = true) : l.avoids words = true := by
  cases hk : l.key? with
  | none => simp_all [avoids]
  | some k =>
      simp only [avoids, hk, Option.any_some, List.contains_eq_mem, Bool.and_eq_true,
        Bool.not_eq_true', decide_eq_false_iff_not] at h ⊢
      exact ⟨h.1, fun hmem => h.2 (hsub hmem)⟩

theorem avoids_of_append {words more : List String} {l : Lexeme}
    (h : l.avoids (words ++ more) = true) : l.avoids words = true :=
  avoids_of_subset (List.subset_append_left words more) h

theorem ofTest_of_ofExpression {l : Lexeme} (h : l.ofExpression = true) : l.ofTest = true := by
  simp only [ofExpression, Bool.and_eq_true] at h
  exact avoids_of_append h.1

theorem ofCondition_of_ofTest {l : Lexeme} (h : l.ofTest = true) : l.ofCondition = true :=
  avoids_of_append h

theorem ofSource_of_ofCondition {l : Lexeme} (h : l.ofCondition = true) : l.ofSource = true :=
  avoids_of_append h

theorem ofClause_of_ofSource {l : Lexeme} (h : l.ofSource = true) : l.ofClause = true :=
  avoids_of_subset (by decide) h

theorem opens_spec {allowed : Lexeme → Bool} {b : Bracket} {w : String}
    (h : opens allowed b w = true) :
    ∃ before behind, ofWord w = before ++ .opening b :: behind ∧ before.all allowed = true ∧
      before.all ofQuery = true ∧ behind.all ofQuery = true := by
  simp only [opens, Bool.and_eq_true, beq_iff_eq] at h
  obtain ⟨⟨hbefore, hopening⟩, hbehind⟩ := h
  obtain ⟨behind, hdrop⟩ := List.head?_eq_some_iff.1 hopening
  refine ⟨(ofWord w).takeWhile ofQuery, behind, ?_, hbefore, List.all_takeWhile, ?_⟩
  · rw [← hdrop, List.takeWhile_append_dropWhile]
  · rwa [hdrop] at hbehind

theorem closes_spec {allowed : Lexeme → Bool} {b : Bracket} {w : String}
    (h : closes allowed b w = true) :
    ∃ behind, ofWord w = .closing b :: behind ∧ behind.all allowed = true := by
  simp only [closes, Bool.and_eq_true, beq_iff_eq] at h
  obtain ⟨behind, hbehind⟩ := List.head?_eq_some_iff.1 h.1
  exact ⟨behind, hbehind, by simpa [hbehind] using h.2⟩

end Lexeme

@[simp] theorem partsText_append (ps qs : List Part) :
    partsText (ps ++ qs) = partsText ps ++ partsText qs := by
  simp [partsText]

@[simp] theorem partsText_cons (p : Part) (ps : List Part) :
    partsText (p :: ps) = p.text ++ partsText ps := by
  simp [partsText]

@[simp] theorem partsText_nil : partsText [] = [] := rfl

/-- The text is read as the given parts, wherever it stands. -/
structure Reads (ls : List Lexeme) (ps : List Part) : Prop where
  collected : ∀ rest seen outer,
    Part.collect (ls ++ rest) seen outer = Part.collect rest (seen ++ ps) outer
  text : partsText ps = ls

namespace Reads

variable {ls ms : List Lexeme} {ps qs : List Part}

theorem nil : Reads [] [] := ⟨by simp, rfl⟩

theorem append (h : Reads ls ps) (k : Reads ms qs) : Reads (ls ++ ms) (ps ++ qs) where
  collected rest seen outer := by
    rw [List.append_assoc, h.collected, k.collected, List.append_assoc]
  text := by rw [partsText_append, h.text, k.text]

theorem leaf {l : Lexeme} (h : l.ofQuery = true) : Reads [l] [.leaf l] where
  collected rest seen outer := by
    cases l with
    | opening | closing => simp [Lexeme.ofQuery, Lexeme.isBracket] at h
    | word | number | mark | unit => rfl
  text := rfl

theorem flat (h : ls.all Lexeme.ofQuery = true) : Reads ls (ls.map .leaf) := by
  induction ls with
  | nil => exact nil
  | cons l ls ih =>
      simp only [List.all_cons, Bool.and_eq_true] at h
      exact (leaf h.1).append (ih h.2)

theorem enclose (h : Reads ls ps) (b : Bracket) :
    Reads (.opening b :: ls ++ [.closing b]) [Part.enclose b ps] where
  collected rest seen outer := by
    have hinner := h.collected (.closing b :: rest) [] ((b, seen) :: outer)
    simp only [List.cons_append, List.append_assoc, Part.collect, hinner, List.nil_append, if_true]
  text := by simp [Part.enclose, Part.text, h.text]

theorem parts (h : Reads ls ps) : Part.collect ls [] [] = some ps := by
  have hcollected := h.collected [] [] []
  simpa [Part.collect] using hcollected

theorem unique (h : Reads ls ps) (k : Reads ls qs) : ps = qs :=
  Option.some_inj.1 (h.parts.symm.trans k.parts)

end Reads

/-- A unit outside brackets is allowed; a group always is. -/
def Part.isAllowed (allowed : Lexeme → Bool) : Part → Bool
  | leaf l => allowed l
  | group _ _ => true

namespace Output

/-- What was rendered is read as parts with only the allowed units outside brackets. -/
def Within (allowed : Lexeme → Bool) (o : Output) : Prop :=
  o.failure = none →
    ∃ ps, Reads (Lexeme.ofPieces o.pieces) ps ∧ ∀ p ∈ ps, p.isAllowed allowed = true

theorem Within.mono {allowed more : Lexeme → Bool} (h : ∀ l, allowed l = true → more l = true)
    {o : Output} (ho : o.Within allowed) : o.Within more := by
  intro hok
  obtain ⟨ps, hreads, hps⟩ := ho hok
  refine ⟨ps, hreads, fun p hp => ?_⟩
  cases p with
  | leaf l => exact h l (hps _ hp)
  | group => rfl

theorem Within.avoiding {words more : List String} {o : Output}
    (h : o.Within (Lexeme.avoids more)) (hsub : words ⊆ more) :
    o.Within (Lexeme.avoids words) :=
  h.mono fun _ => Lexeme.avoids_of_subset hsub

theorem Within.avoids_of_expression {words : List String} {o : Output}
    (h : o.Within Lexeme.ofExpression) (hsub : words ⊆
      Lexeme.outsideWords ++ Lexeme.listingWords ++ Lexeme.connectiveWords ++
        Lexeme.operatorWords) : o.Within (Lexeme.avoids words) :=
  h.mono fun l hl => by
    simp only [Lexeme.ofExpression, Bool.and_eq_true] at hl
    exact Lexeme.avoids_of_subset hsub hl.1

theorem Within.append {allowed : Lexeme → Bool} {a b : Output} (ha : a.Within allowed)
    (hb : b.Within allowed) : (a ++ b).Within allowed := by
  intro hok
  obtain ⟨haok, hbok⟩ := failure_append_eq_none.1 hok
  obtain ⟨ps, hps, hpsall⟩ := ha haok
  obtain ⟨qs, hqs, hqsall⟩ := hb hbok
  refine ⟨ps ++ qs, ?_, ?_⟩
  · rw [pieces_append haok, Lexeme.ofPieces_append]
    exact hps.append hqs
  · intro p hp
    exact (List.mem_append.1 hp).elim (hpsall p) (hqsall p)

theorem within_flat {allowed : Lexeme → Bool} {ps : List Piece}
    (h : (Lexeme.ofPieces ps).all allowed = true) (hq : ∀ l, allowed l = true → l.ofQuery = true) :
    (ofPieces ps).Within allowed := by
  rw [List.all_eq_true] at h
  refine fun _ => ⟨(Lexeme.ofPieces ps).map .leaf, .flat ?_, ?_⟩
  · exact List.all_eq_true.2 fun l hl => hq l (h l hl)
  · intro p hp
    obtain ⟨l, hl, rfl⟩ := List.mem_map.1 hp
    exact h l hl

theorem Within.group {allowed : Lexeme → Bool} (hq : ∀ l, allowed l = true → l.ofQuery = true)
    {w v : String} {b : Bracket} {o : Output} (hw : Lexeme.opens allowed b w = true)
    (hv : Lexeme.closes allowed b v = true) (ho : o.Within Lexeme.ofQuery) :
    (word w ++ o ++ word v).Within allowed := by
  intro hok
  have hook : o.failure = none := by simpa using hok
  obtain ⟨before, behind, hwtext, hbefore, hflat, hinside⟩ := Lexeme.opens_spec hw
  obtain ⟨after, hvtext, hafter⟩ := Lexeme.closes_spec hv
  obtain ⟨ps, hps, -⟩ := ho hook
  have hafterFlat : after.all Lexeme.ofQuery = true :=
    List.all_eq_true.2 fun l hl => hq l (List.all_eq_true.1 hafter l hl)
  have hgroup := ((Reads.flat hinside).append hps).enclose b
  have hall := (Reads.flat hflat).append (hgroup.append (Reads.flat hafterFlat))
  have hpieces : Lexeme.ofPieces (word w ++ o ++ word v).pieces =
      before ++ ((.opening b :: (behind ++ Lexeme.ofPieces o.pieces) ++ [.closing b]) ++ after) := by
    have hwo : (word w ++ o).failure = none := by simpa using hook
    rw [pieces_append hwo, pieces_append rfl, Lexeme.ofPieces_append, Lexeme.ofPieces_append,
      pieces_word, pieces_word, Lexeme.ofPieces_word, Lexeme.ofPieces_word, hwtext, hvtext]
    simp
  rw [← hpieces] at hall
  refine ⟨_, hall, fun p hp => ?_⟩
  simp only [List.mem_append, List.mem_map, List.mem_singleton] at hp
  rcases hp with ⟨l, hl, rfl⟩ | rfl | ⟨l, hl, rfl⟩
  · exact List.all_eq_true.1 hbefore l hl
  · rfl
  · exact List.all_eq_true.1 hafter l hl

theorem closed_within {allowed : Lexeme → Bool} (hq : ∀ l, allowed l = true → l.ofQuery = true)
    (hunit : ∀ p, allowed (.unit p) = true) :
    Closed allowed (Within Lexeme.ofQuery) (Within allowed) where
  empty := within_flat rfl hq
  fail e h := by simp at h
  append := .append
  word {w} h := within_flat (by rwa [Lexeme.ofPieces_word]) hq
  pair {w b} h _ := by
    refine ⟨[Part.enclose b []], ?_, fun p hp => ?_⟩
    · rw [pieces_word, Lexeme.ofPieces_word, h]
      exact Reads.nil.enclose b
    · rw [List.mem_singleton.1 hp]
      rfl
  unit {p} hp _ := by
    apply within_flat _ hq
    cases p <;> simp_all [Lexeme.ofPieces, Lexeme.ofPiece, Piece.isWord]
  group := .group hq

/-- The brackets of a rendered text match, and what stands outside them follows from its layer. -/
def Layers.reading : Layers where
  expression := Within Lexeme.ofExpression
  test := Within Lexeme.ofTest
  condition := Within Lexeme.ofCondition
  source := Within Lexeme.ofSource
  clause := Within Lexeme.ofClause
  query := Within Lexeme.ofQuery
  ofExpression := closed_within
    (fun _ h => Lexeme.ofQuery_of_avoids (Lexeme.ofTest_of_ofExpression h)) fun _ => rfl
  ofTest := closed_within (fun _ h => Lexeme.ofQuery_of_avoids h) fun _ => rfl
  ofCondition := closed_within (fun _ h => Lexeme.ofQuery_of_avoids h) fun _ => rfl
  ofSource := closed_within (fun _ h => Lexeme.ofQuery_of_avoids h) fun _ => rfl
  ofClause := closed_within (fun _ h => Lexeme.ofQuery_of_avoids h) fun _ => rfl
  ofQuery := closed_within (fun _ h => h) fun _ => rfl
  test_of_expression := .mono fun _ => Lexeme.ofTest_of_ofExpression
  condition_of_test := .mono fun _ => Lexeme.ofCondition_of_ofTest
  source_of_condition := .mono fun _ => Lexeme.ofSource_of_ofCondition
  clause_of_source := .mono fun _ => Lexeme.ofClause_of_ofSource
  query_of_clause := .mono fun _ h => Lexeme.ofQuery_of_avoids h

end Output

end DialectSql
