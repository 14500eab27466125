import DialectSql.Proofs.Condition.Parts

namespace DialectSql

def Part.word (w : String) : Part := .leaf (.word w)

def joinParts (w : String) : List (List Part) → List Part
  | [] => []
  | [ps] => ps
  | ps :: pss => ps ++ .word w :: joinParts w pss

namespace Condition

theorem splitOr_append (seen ps qs : List Part) :
    splitOr seen (ps ++ .word "or" :: qs) = splitOr seen ps ++ splitOr [] qs := by
  induction ps generalizing seen with
  | nil => rfl
  | cons p ps ih =>
      simp only [List.cons_append, splitOr, ih]
      split <;> rfl

theorem splitOr_of_none (seen : List Part) {ps : List Part} (h : ∀ p ∈ ps, p.isKey "or" = false) :
    splitOr seen ps = [seen ++ ps] := by
  induction ps generalizing seen with
  | nil => simp [splitOr]
  | cons p ps ih =>
      have hp := h p (by simp)
      have hps := ih (seen ++ [p]) fun q hq => h q (List.mem_cons_of_mem p hq)
      simp [splitOr, hp, hps]

theorem noOr_and {ps qs : List Part} (hp : ∀ p ∈ ps, p.isKey "or" = false)
    (hq : ∀ q ∈ qs, q.isKey "or" = false) :
    ∀ p ∈ ps ++ .word "and" :: qs, p.isKey "or" = false :=
  List.forall_mem_append.2 ⟨hp, List.forall_mem_cons.2 ⟨by decide, hq⟩⟩

theorem splitOr_ne_nil (seen ps : List Part) : splitOr seen ps ≠ [] := by
  induction ps generalizing seen with
  | nil => simp [splitOr]
  | cons p ps ih =>
      rw [splitOr]
      split
      · simp
      · exact ih _

theorem splitAnd_ne_nil (between : Bool) (seen ps : List Part) : splitAnd between seen ps ≠ [] := by
  induction ps generalizing between seen with
  | nil => simp [splitAnd]
  | cons p ps ih =>
      rw [splitAnd]
      split
      · split
        · exact ih _ _
        · simp
      · exact ih _ _

/-- Parts that stay together where conjunctions and disjunctions are separated. -/
structure IsFactor (ps : List Part) : Prop where
  noOr : ∀ p ∈ ps, p.isKey "or" = false
  together : ∀ seen rest,
    splitAnd false seen (ps ++ rest) = splitAnd false (seen ++ ps) rest

theorem IsFactor.splitAnd_eq {ps : List Part} (h : IsFactor ps) : splitAnd false [] ps = [ps] := by
  simpa [splitAnd] using h.together [] []

theorem IsFactor.ofParts_eq {ps : List Part} (h : IsFactor ps) : ofParts ps = readFactor ps := by
  rw [ofParts, splitOr_of_none [] h.noOr, List.nil_append, List.map_singleton, h.splitAnd_eq]
  rfl

theorem splitAnd_append (between : Bool) (seen : List Part) {ps rest : List Part}
    (h : ∀ p ∈ ps, p.isKey "and" = false ∧ p.isKey "between" = false) :
    splitAnd between seen (ps ++ rest) = splitAnd between (seen ++ ps) rest := by
  induction ps generalizing seen with
  | nil => simp
  | cons p ps ih =>
      obtain ⟨hand, hbetween⟩ := h p (by simp)
      have hps := ih (seen ++ [p]) fun q hq => h q (List.mem_cons_of_mem p hq)
      simp [splitAnd, hand, hbetween, hps]

theorem readFactor_not (ps : List Part) : readFactor (.word "not" :: ps) = .not (readFactor ps) := by
  rw [readFactor.eq_def]
  rfl

section

variable {α : Type*} [LinearOrder α] (V : Valuation α)

def factorTruth (ps : List Part) : Truth := (readFactor ps).truth V

def termTruth (ps : List Part) : Truth := .all ((splitAnd false [] ps).map (factorTruth V))

def partsTruth (ps : List Part) : Truth := .any ((splitOr [] ps).map (termTruth V))

/-- Conditions that are joined by a connective have their values joined by it. -/
theorem truth_joinWith {f : Condition → Condition → Condition} {g : Truth → Truth → Truth}
    {unit : Truth} (hf : ∀ a b : Condition, (f a b).truth V = g (a.truth V) (b.truth V))
    (hunit : ∀ t, g t unit = t) {cs : List Condition} (h : cs ≠ []) :
    (joinWith f cs).truth V = (cs.map (truth V)).foldr g unit := by
  induction cs with
  | nil => exact absurd rfl h
  | cons c cs ih =>
      cases cs with
      | nil => exact (hunit _).symm
      | cons d ds =>
          rw [joinWith, hf, ih (List.cons_ne_nil d ds)]
          · rfl
          · exact List.cons_ne_nil d ds

theorem truth_joinWith_and {cs : List Condition} (h : cs ≠ []) :
    (joinWith .and cs).truth V = .all (cs.map (truth V)) :=
  truth_joinWith V (fun _ _ => rfl) Truth.and_true h

theorem truth_joinWith_or {cs : List Condition} (h : cs ≠ []) :
    (joinWith .or cs).truth V = .any (cs.map (truth V)) :=
  truth_joinWith V (fun _ _ => rfl) Truth.or_false h

theorem truth_ofParts (ps : List Part) : (ofParts ps).truth V = partsTruth V ps := by
  rw [ofParts, truth_joinWith_or V (by simpa using splitOr_ne_nil [] ps), List.map_map]
  refine congrArg Truth.any (List.map_congr_left fun qs _ => ?_)
  rw [Function.comp, truth_joinWith_and V (by simpa using splitAnd_ne_nil false [] qs), List.map_map]
  rfl

theorem partsTruth_or (ps qs : List Part) :
    partsTruth V (ps ++ .word "or" :: qs) = (partsTruth V ps).or (partsTruth V qs) := by
  rw [partsTruth, splitOr_append, List.map_append, Truth.any_append]
  rfl

theorem partsTruth_of_term {ps : List Part} (h : ∀ p ∈ ps, p.isKey "or" = false) :
    partsTruth V ps = termTruth V ps := by
  simp [partsTruth, splitOr_of_none [] h]

theorem termTruth_and {ps : List Part} (h : IsFactor ps) (qs : List Part) :
    termTruth V (ps ++ .word "and" :: qs) = (factorTruth V ps).and (termTruth V qs) := by
  rw [termTruth, h.together]
  rfl

theorem termTruth_factor {ps : List Part} (h : IsFactor ps) : termTruth V ps = factorTruth V ps := by
  simp [termTruth, h.splitAnd_eq]

theorem partsTruth_factor {ps : List Part} (h : IsFactor ps) :
    partsTruth V ps = factorTruth V ps := by
  rw [partsTruth_of_term V h.noOr, termTruth_factor V h]

theorem partsTruth_and {ps qs : List Part} (hp : IsFactor ps) (hq : IsFactor qs) :
    partsTruth V (ps ++ .word "and" :: qs) = (partsTruth V ps).and (partsTruth V qs) := by
  rw [partsTruth_of_term V (noOr_and hp.noOr hq.noOr), termTruth_and V hp, termTruth_factor V hq,
    partsTruth_factor V hp, partsTruth_factor V hq]

theorem partsTruth_joinParts_or {pss : List (List Part)} (hne : pss ≠ []) :
    partsTruth V (joinParts "or" pss) = .any (pss.map (partsTruth V)) := by
  induction pss with
  | nil => exact absurd rfl hne
  | cons ps pss ih =>
      cases pss with
      | nil => simp [joinParts]
      | cons qs qss => rw [joinParts, partsTruth_or, ih (by simp)]; rfl; simp

theorem noOr_joinParts_and {pss : List (List Part)} (h : ∀ ps ∈ pss, IsFactor ps) :
    ∀ p ∈ joinParts "and" pss, p.isKey "or" = false := by
  induction pss with
  | nil => simp [joinParts]
  | cons ps pss ih =>
      have hps := (h ps (by simp)).noOr
      have hrest := ih fun qs hqs => h qs (List.mem_cons_of_mem ps hqs)
      cases pss with
      | nil => simpa [joinParts] using hps
      | cons qs qss => exact noOr_and hps hrest

theorem partsTruth_joinParts_and {pss : List (List Part)} (hne : pss ≠ [])
    (h : ∀ ps ∈ pss, IsFactor ps) :
    partsTruth V (joinParts "and" pss) = .all (pss.map (partsTruth V)) := by
  rw [partsTruth_of_term V (noOr_joinParts_and h)]
  induction pss with
  | nil => exact absurd rfl hne
  | cons ps pss ih =>
      have hps := h ps (by simp)
      cases pss with
      | nil => simp [joinParts, partsTruth_factor V hps, termTruth_factor V hps]
      | cons qs qss =>
          have hrest := ih (by simp) fun rs hrs => h rs (List.mem_cons_of_mem ps hrs)
          rw [joinParts, termTruth_and V hps, hrest, ← partsTruth_factor V hps]
          · rfl
          · simp

theorem factorTruth_not (ps : List Part) :
    factorTruth V (.word "not" :: ps) = (factorTruth V ps).not := by
  rw [factorTruth, readFactor_not]
  rfl

end

theorem isKey_of_avoids {words : List String} {p : Part}
    (h : p.isAllowed (Lexeme.avoids words) = true) {w : String} (hw : w ∈ words) :
    p.isKey w = false := by
  have hmem {v : String} (hv : v ∉ words) : (some v == some w) = false := by
    simp only [beq_eq_false_iff_ne, ne_eq, Option.some.injEq]
    rintro rfl
    exact hv hw
  cases p with
  | group => rfl
  | leaf l =>
      cases l with
      | word v | mark v =>
          simp only [Part.isAllowed, Lexeme.avoids, Lexeme.key?, Bool.and_eq_true] at h
          exact hmem (by simpa using h.2)
      | number | opening | closing | unit => rfl

theorem isKey_of_test {p : Part} (h : p.isAllowed Lexeme.ofTest = true) {w : String}
    (hw : w ∈ Lexeme.connectiveWords) : p.isKey w = false :=
  isKey_of_avoids h (List.mem_append_right _ hw)

theorem splitAnd_test (between : Bool) (seen : List Part) {ps rest : List Part}
    (h : ∀ p ∈ ps, p.isAllowed Lexeme.ofTest = true) :
    splitAnd between seen (ps ++ rest) = splitAnd between (seen ++ ps) rest :=
  splitAnd_append between seen fun p hp =>
    ⟨isKey_of_test (h p hp) (by decide), isKey_of_test (h p hp) (by decide)⟩

theorem isFactor_of_allowed {ps : List Part} (h : ∀ p ∈ ps, p.isAllowed Lexeme.ofTest = true) :
    IsFactor ps :=
  ⟨fun p hp => isKey_of_test (h p hp) (by decide), fun _ _ => splitAnd_test _ _ h⟩

/-- A range is a factor, the `and` inside it included. -/
theorem isFactor_range {ps qs rs : List Part} (hp : ∀ p ∈ ps, p.isAllowed Lexeme.ofTest = true)
    (hq : ∀ p ∈ qs, p.isAllowed Lexeme.ofTest = true)
    (hr : ∀ p ∈ rs, p.isAllowed Lexeme.ofTest = true) :
    IsFactor (ps ++ .word "between" :: (qs ++ .word "and" :: rs)) where
  noOr p hmem := by
    simp only [List.mem_append, List.mem_cons] at hmem
    rcases hmem with hmem | rfl | hmem | rfl | hmem
    · exact isKey_of_test (hp p hmem) (by decide)
    · decide
    · exact isKey_of_test (hq p hmem) (by decide)
    · decide
    · exact isKey_of_test (hr p hmem) (by decide)
  together seen rest := by
    have hbetween (seen rest : List Part) : splitAnd false seen (.word "between" :: rest) =
        splitAnd true (seen ++ [.word "between"]) rest := rfl
    have hand (seen rest : List Part) : splitAnd true seen (.word "and" :: rest) =
        splitAnd false (seen ++ [.word "and"]) rest := rfl
    simp only [List.append_assoc, List.cons_append]
    rw [splitAnd_test _ _ hp, hbetween, splitAnd_test _ _ hq, hand, splitAnd_test _ _ hr]
    simp

end Condition

namespace Output

variable {allowed : Lexeme → Bool} {a b o : Output}

def parts (o : Output) : List Part := (Part.ofPieces? o.pieces).getD []

theorem parts_of_reads {ps : List Part} (h : Reads (Lexeme.ofPieces o.pieces) ps) :
    o.parts = ps := by
  rw [parts, Part.ofPieces?, h.parts]
  rfl

theorem Within.reads (h : o.Within allowed) (hok : o.failure = none) :
    Reads (Lexeme.ofPieces o.pieces) o.parts := by
  obtain ⟨ps, hps, -⟩ := h hok
  rwa [parts_of_reads hps]

theorem Within.parts_allowed (h : o.Within allowed) (hok : o.failure = none) :
    ∀ p ∈ o.parts, p.isAllowed allowed = true := by
  obtain ⟨ps, hps, hall⟩ := h hok
  rwa [parts_of_reads hps]

theorem parts_append {more : Lexeme → Bool} (ha : a.Within allowed) (hb : b.Within more)
    (hok : (a ++ b).failure = none) : (a ++ b).parts = a.parts ++ b.parts := by
  obtain ⟨haok, hbok⟩ := failure_append_eq_none.1 hok
  apply parts_of_reads
  rw [pieces_append haok, Lexeme.ofPieces_append]
  exact (ha.reads haok).append (hb.reads hbok)

theorem parts_word {w : String} (h : (Lexeme.ofWord w).all Lexeme.ofQuery = true) :
    (word w).parts = (Lexeme.ofWord w).map .leaf := by
  apply parts_of_reads
  rw [pieces_word, Lexeme.ofPieces_word]
  exact .flat h

theorem parts_parenthesized (h : o.Within allowed) (hok : o.failure = none) :
    o.parenthesized.parts = [Part.enclose .paren o.parts] := by
  have hopen : Lexeme.ofWord "(" = [.opening .paren] := by decide
  have hclose : Lexeme.ofWord ")" = [.closing .paren] := by decide
  have hwo : (word "(" ++ o).failure = none := by simpa using hok
  apply parts_of_reads
  rw [parenthesized, pieces_append hwo, pieces_append rfl, Lexeme.ofPieces_append,
    Lexeme.ofPieces_append, pieces_word, pieces_word, Lexeme.ofPieces_word, Lexeme.ofPieces_word,
    hopen, hclose]
  exact (h.reads hok).enclose .paren

theorem parts_delimited {separator : String} {l : Lexeme} (hl : Lexeme.ofWord separator = [l])
    (hquery : l.ofQuery = true) (ha : a.Within Lexeme.ofQuery) (hb : b.Within Lexeme.ofQuery)
    (hok : (a ++ word separator ++ b).failure = none) :
    (a ++ word separator ++ b).parts = a.parts ++ .leaf l :: b.parts := by
  have hflat : (Lexeme.ofWord separator).all Lexeme.ofQuery = true := by simp [hl, hquery]
  have hsep := Layers.reading.ofQuery.word hflat
  rw [parts_append (ha.append hsep) hb hok, parts_append ha hsep (failure_append_eq_none.1 hok).1,
    parts_word hflat, hl]
  simp

theorem parts_separated {separator w : String} (hw : Lexeme.ofWord separator = [.word w])
    (ha : a.Within Lexeme.ofQuery) (hb : b.Within Lexeme.ofQuery)
    (hok : (a ++ word separator ++ b).failure = none) :
    (a ++ word separator ++ b).parts = a.parts ++ .word w :: b.parts :=
  parts_delimited hw rfl ha hb hok

theorem parts_joined {separator w : String} (hw : Lexeme.ofWord separator = [.word w])
    {os : List Output} (h : ∀ o ∈ os, o.Within Lexeme.ofQuery)
    (hok : (joined separator os).failure = none) :
    (joined separator os).parts = joinParts w (os.map parts) := by
  have hflat : (Lexeme.ofWord separator).all Lexeme.ofQuery = true := by rw [hw]; rfl
  induction os with
  | nil => rfl
  | cons o os ih =>
      cases os with
      | nil => rfl
      | cons p os =>
          have hrest : ∀ q ∈ p :: os, q.Within Lexeme.ofQuery := fun q hq =>
            h q (List.mem_cons_of_mem o hq)
          have hjoined := Layers.reading.ofQuery.joined hflat hrest
          rw [joined_cons_cons] at hok ⊢
          rw [parts_separated hw (h o (by simp)) hjoined hok,
            ih hrest (failure_append_eq_none.1 hok).2]
          rfl

theorem parts_andGroup (h : o.Within allowed) (hok : o.failure = none) :
    (word " and (" ++ o ++ word ")").parts = .word "and" :: o.parenthesized.parts := by
  have hand : Lexeme.ofWord " and (" = [.word "and", .opening .paren] := by decide
  have hclose : Lexeme.ofWord ")" = [.closing .paren] := by decide
  have hwo : (word " and (" ++ o).failure = none := by simpa using hok
  rw [parts_parenthesized h hok]
  apply parts_of_reads
  rw [pieces_append hwo, pieces_append rfl, Lexeme.ofPieces_append,
    Lexeme.ofPieces_append, pieces_word, pieces_word, Lexeme.ofPieces_word, Lexeme.ofPieces_word,
    hand, hclose]
  exact (Reads.leaf rfl).append ((h.reads hok).enclose .paren)

theorem parts_not (h : o.Within Lexeme.ofTest) (hok : o.failure = none) :
    (word "not " ++ o).parts = .word "not" :: o.parts := by
  have hword : Lexeme.ofWord "not " = [.word "not"] := by decide
  have hnot := Layers.reading.ofTest.fixed "not " rfl
  have hall : (word "not " ++ o).failure = none := by simpa using hok
  rw [parts_append hnot h hall, parts_word (by rw [hword]; rfl), hword]
  rfl

theorem truth?_eq {α : Type*} [LinearOrder α] (V : Valuation α) (h : o.Within allowed)
    (hok : o.failure = none) : o.truth? V = some (Condition.partsTruth V o.parts) := by
  rw [truth?, Part.ofPieces?, (h.reads hok).parts, Option.map_some, Condition.truth_ofParts]

theorem Within.isFactor (h : o.Within Lexeme.ofTest) (hok : o.failure = none) :
    Condition.IsFactor o.parts :=
  Condition.isFactor_of_allowed (h.parts_allowed hok)

theorem isFactor_parenthesized (h : o.Within allowed) (hok : o.failure = none) :
    Condition.IsFactor o.parenthesized.parts := by
  rw [parts_parenthesized h hok]
  apply Condition.isFactor_of_allowed
  rintro p hp
  rw [List.mem_singleton.1 hp]
  rfl

theorem isListing_parts (h : o.Within Lexeme.ofCondition) (hok : o.failure = none) :
    Part.isListing o.parts = false := by
  refine List.any_eq_false.2 fun p hp => ?_
  have hp := h.parts_allowed hok p hp
  have hselect := Condition.isKey_of_avoids hp (w := "select") (by decide)
  have hcomma := Condition.isKey_of_avoids hp (w := ",") (by decide)
  simp [hselect, hcomma]

theorem ofParts_parenthesized (h : o.Within Lexeme.ofCondition) (hok : o.failure = none) :
    Condition.ofParts o.parenthesized.parts = Condition.ofParts o.parts := by
  rw [(isFactor_parenthesized h hok).ofParts_eq, parts_parenthesized h hok, Part.enclose,
    isListing_parts h hok]
  rfl

theorem partsTruth_parenthesized {α : Type*} [LinearOrder α] (V : Valuation α)
    (h : o.Within Lexeme.ofCondition) (hok : o.failure = none) :
    Condition.partsTruth V o.parenthesized.parts = Condition.partsTruth V o.parts := by
  rw [← Condition.truth_ofParts, ofParts_parenthesized h hok, Condition.truth_ofParts]

section

variable {α : Type*} [LinearOrder α] (V : Valuation α)

theorem partsTruth_test (h : o.Within Lexeme.ofTest) (hok : o.failure = none) :
    Condition.partsTruth V o.parts = Condition.factorTruth V o.parts :=
  Condition.partsTruth_factor V (h.isFactor hok)

theorem partsTruth_either (ha : a.Within Lexeme.ofQuery) (hb : b.Within Lexeme.ofQuery)
    (hok : (a ++ word " or " ++ b).failure = none) :
    Condition.partsTruth V (a ++ word " or " ++ b).parts =
      (Condition.partsTruth V a.parts).or (Condition.partsTruth V b.parts) := by
  rw [parts_separated (w := "or") (by decide) ha hb hok, Condition.partsTruth_or]

theorem partsTruth_both (ha : a.Within Lexeme.ofTest) (hb : b.Within Lexeme.ofTest)
    (hok : (a ++ word " and " ++ b).failure = none) :
    Condition.partsTruth V (a ++ word " and " ++ b).parts =
      (Condition.partsTruth V a.parts).and (Condition.partsTruth V b.parts) := by
  obtain ⟨haok, hbok⟩ := failure_append_eq_none.1 hok
  obtain ⟨haok, -⟩ := failure_append_eq_none.1 haok
  rw [parts_separated (w := "and") (by decide) (Layers.reading.query_of_test ha)
    (Layers.reading.query_of_test hb) hok,
    Condition.partsTruth_and V (ha.isFactor haok) (hb.isFactor hbok)]

theorem partsTruth_andGroup (ha : a.Within Lexeme.ofTest) (hb : b.Within Lexeme.ofCondition)
    (hok : (a ++ (word " and (" ++ b ++ word ")")).failure = none) :
    Condition.partsTruth V (a ++ (word " and (" ++ b ++ word ")")).parts =
      (Condition.partsTruth V a.parts).and (Condition.partsTruth V b.parts) := by
  obtain ⟨haok, hbok⟩ := failure_append_eq_none.1 hok
  have hbok : b.failure = none := by simpa using hbok
  have hgroup : (word " and (" ++ b ++ word ")").Within Lexeme.ofQuery :=
    Layers.reading.ofQuery.bracketed .paren _ _ rfl rfl
      (Layers.reading.query_of_condition hb)
  rw [parts_append (Layers.reading.query_of_test ha) hgroup hok, parts_andGroup hb hbok,
    Condition.partsTruth_and V (ha.isFactor haok) (isFactor_parenthesized hb hbok),
    partsTruth_parenthesized V hb hbok]

theorem partsTruth_joinedAnd {os : List Output} (hne : os ≠ [])
    (h : ∀ o ∈ os, o.Within Lexeme.ofQuery) (hfactor : ∀ o ∈ os, Condition.IsFactor o.parts)
    (hok : (joined " and " os).failure = none) :
    Condition.partsTruth V (joined " and " os).parts =
      .all (os.map fun o => Condition.partsTruth V o.parts) := by
  rw [parts_joined (w := "and") (by decide) h hok,
    Condition.partsTruth_joinParts_and V (by simpa using hne) (List.forall_mem_map.2 hfactor),
    List.map_map]
  rfl

theorem partsTruth_joinedOr {os : List Output} (hne : os ≠ [])
    (h : ∀ o ∈ os, o.Within Lexeme.ofQuery) (hok : (joined " or " os).failure = none) :
    Condition.partsTruth V (joined " or " os).parts =
      .any (os.map fun o => Condition.partsTruth V o.parts) := by
  rw [parts_joined (w := "or") (by decide) h hok,
    Condition.partsTruth_joinParts_or V (by simpa using hne), List.map_map]
  rfl

/-- Tests in brackets, joined by `and`. -/
theorem partsTruth_allOf {os : List Output} (hne : os ≠ []) (h : ∀ o ∈ os, o.Within Lexeme.ofTest)
    (hok : ∀ o ∈ os, o.failure = none) :
    Condition.partsTruth V (joined " and " os).parenthesized.parts =
      .all (os.map fun o => Condition.partsTruth V o.parts) := by
  have hjoined := (failure_joined_eq_none " and " os).2 hok
  have hwithin : (joined " and " os).Within Lexeme.ofCondition :=
    Layers.reading.ofCondition.joined rfl fun o ho => Layers.reading.condition_of_test (h o ho)
  have hfactor : ∀ o ∈ os, Condition.IsFactor o.parts := fun o ho => (h o ho).isFactor (hok o ho)
  rw [partsTruth_parenthesized V hwithin hjoined,
    partsTruth_joinedAnd V hne (fun o ho => Layers.reading.query_of_test (h o ho)) hfactor hjoined]

/-- Tests in brackets, joined by `or`. -/
theorem partsTruth_someOf {os : List Output} (hne : os ≠ []) (h : ∀ o ∈ os, o.Within Lexeme.ofTest)
    (hok : ∀ o ∈ os, o.failure = none) :
    Condition.partsTruth V (joined " or " os).parenthesized.parts =
      .any (os.map fun o => Condition.partsTruth V o.parts) := by
  have hjoined := (failure_joined_eq_none " or " os).2 hok
  have hwithin : (joined " or " os).Within Lexeme.ofCondition :=
    Layers.reading.ofCondition.joined rfl fun o ho => Layers.reading.condition_of_test (h o ho)
  rw [partsTruth_parenthesized V hwithin hjoined,
    partsTruth_joinedOr V hne (fun o ho => Layers.reading.query_of_test (h o ho)) hjoined]

theorem partsTruth_not (h : o.Within Lexeme.ofTest) (hok : o.failure = none) :
    Condition.partsTruth V (word "not " ++ o).parts = (Condition.partsTruth V o.parts).not := by
  have hnot := Layers.reading.ofTest.fixed "not " rfl
  have hall : (word "not " ++ o).failure = none := by simpa using hok
  rw [partsTruth_test V (hnot.append h) hall, partsTruth_test V h hok, parts_not h hok,
    Condition.factorTruth_not]

end

end Output

end DialectSql
