import DialectSql.Proofs.Store.Tokens
import DialectSql.Store.Command

namespace DialectSql.Store

open Token

/-- A name of a table or column that is read as such wherever it stands. -/
def isIdentifier (w : String) : Bool :=
  isWordText w.toList && !("true" :: "false" :: Command.reserved).contains (Command.keyword w)

theorem isWordText_of_isIdentifier {w : String} (h : isIdentifier w = true) :
    isWordText w.toList = true :=
  (Bool.and_eq_true_iff.1 h).1

theorem isName_of_isIdentifier {w : String} (h : isIdentifier w = true) :
    Command.isName w = true := by
  have hwords := (Bool.and_eq_true_iff.1 h).2
  simp only [Bool.not_eq_true', List.contains_cons, Bool.or_eq_false_iff] at hwords
  rw [Command.isName, hwords.2.2]
  rfl

namespace TableName

def tokens (t : TableName) : List Token :=
  match t.schema with
  | some s => [.word s, .symbol '.', .word t.name]
  | none => [.word t.name]

def isIdentifier (t : TableName) : Bool :=
  t.schema.all Store.isIdentifier && Store.isIdentifier t.name

end TableName

namespace Command

/-- A word of the language is compared as it is written. -/
theorem keyword_of_reserved {w : String} (h : w ∈ reserved) : keyword w = w := by
  revert w
  decide +kernel

theorem afterWord_self {w : String} (h : w ∈ reserved) (ts : List Token) :
    afterWord w (.word w :: ts) = some ts := by
  rw [afterWord, if_pos (keyword_of_reserved h)]

theorem name?_word {w : String} (h : isIdentifier w = true) (ts : List Token) :
    name? (.word w :: ts) = some (w, ts) := by
  rw [name?, isName_of_isIdentifier h]
  rfl

theorem tableName?_tokens {t : TableName} (h : t.isIdentifier = true) (ts : List Token)
    (hts : ∀ us, ts ≠ .symbol '.' :: us) : tableName? (t.tokens ++ ts) = some (t, ts) := by
  obtain ⟨schema, name⟩ := t
  obtain ⟨hschema, hname⟩ := Bool.and_eq_true_iff.1 h
  cases schema with
  | none =>
      simp only [TableName.tokens, List.singleton_append, tableName?, name?_word hname,
        Option.bind_eq_bind, Option.bind_some]
  | some s =>
      simp only [TableName.tokens, List.cons_append, List.nil_append, tableName?, name?_word hname,
        name?_word (w := s) hschema, Option.bind_eq_bind, Option.bind_some]

def equationTokens (p : String × Nat) : List Token :=
  [.word p.1, .symbol '='] ++ [Token.placeholder (some p.2)]

theorem assignment?_tokens {p : String × Nat} (h : isIdentifier p.1 = true) (ts : List Token) :
    assignment? (equationTokens p ++ ts) = some ((p.1, .bound p.2), ts) := by
  simp [equationTokens, assignment?, name?_word h, afterSymbol, term?]

theorem term?_word {w : String} (h : isIdentifier w = true) (ts : List Token) :
    term? (.word w :: .symbol '=' :: ts) = some (.column none w, .symbol '=' :: ts) := by
  have hwords := (Bool.and_eq_true_iff.1 h).2
  simp only [Bool.not_eq_true', List.contains_cons, Bool.or_eq_false_iff, beq_eq_false_iff_ne] at hwords
  obtain ⟨htrue, hfalse, hreserved⟩ := hwords
  have hnull : keyword w ≠ "null" := by
    intro hnull
    rw [hnull] at hreserved
    exact absurd hreserved (by decide)
  rw [term?]
  · split
    · exact absurd ‹_› hnull
    · exact absurd ‹_› htrue
    · exact absurd ‹_› hfalse
    · rw [isName_of_isIdentifier h]
      rfl
  · intro v us heq
    cases heq

theorem condition?_tokens {p : String × Nat} (h : isIdentifier p.1 = true) (ts : List Token) :
    condition? (equationTokens p ++ ts) = some (⟨.column none p.1, .bound p.2⟩, ts) := by
  have hterm := term?_word h (.placeholder (some p.2) :: ts)
  simp only [equationTokens, List.cons_append, List.nil_append, condition?, hterm, afterSymbol,
    Option.bind_eq_bind, Option.bind_some, if_true]
  rfl

variable {α β : Type} {tokens : α → List Token} {value : α → β}

theorem length_le_intercalate (s : Token) (tss : List (List Token)) :
    tss.length ≤ ([s].intercalate tss).length + 1 := by
  induction tss with
  | nil => simp
  | cons ts tss ih =>
      cases tss with
      | nil => simp
      | cons us uss =>
          rw [List.intercalate_cons_cons]
          simp only [List.length_append, List.length_cons, List.length_nil] at ih ⊢
          omega

theorem commaSeparated_tokens {item : List Token → Option (β × List Token)} {as : List α}
    (fuel : Nat) {rest : List Token} (hne : as ≠ [])
    (hitem : ∀ a ∈ as, ∀ ts, item (tokens a ++ ts) = some (value a, ts))
    (hrest : ∀ us, rest ≠ .symbol ',' :: us) (hfuel : as.length ≤ fuel) :
    commaSeparated item fuel ([Token.symbol ','].intercalate (as.map tokens) ++ rest) =
      some (as.map value, rest) := by
  induction as generalizing fuel with
  | nil => exact absurd rfl hne
  | cons a as ih =>
      have ha := hitem a (List.mem_cons_self ..)
      cases fuel with
      | zero => exact absurd hfuel (by simp)
      | succ fuel =>
          cases as with
          | nil =>
              simp [commaSeparated, ha]
          | cons b bs =>
              have hbs := ih fuel (by simp)
                (fun c hc => hitem c (List.mem_cons_of_mem _ hc)) (Nat.le_of_succ_le_succ hfuel)
              simp only [List.map_cons] at hbs
              simp only [List.map_cons, List.intercalate_cons_cons, List.append_assoc, commaSeparated,
                ha, Option.bind_eq_bind, Option.bind_some, List.cons_append, List.nil_append, hbs]

theorem listOf_tokens {item : List Token → Option (β × List Token)} {as : List α}
    (rest : List Token) (hne : as ≠ [])
    (hitem : ∀ a ∈ as, ∀ ts, item (tokens a ++ ts) = some (value a, ts))
    (hrest : ∀ us, rest ≠ .symbol ',' :: us) :
    listOf item ([Token.symbol ','].intercalate (as.map tokens) ++ rest) = some (as.map value, rest) := by
  refine commaSeparated_tokens _ hne hitem hrest ?_
  have hlength := length_le_intercalate (.symbol ',') (as.map tokens)
  rw [List.length_map] at hlength
  rw [List.length_append]
  omega

theorem parenthesized_tokens {item : List Token → Option (β × List Token)} {as : List α}
    (hne : as ≠ []) (hitem : ∀ a ∈ as, ∀ ts, item (tokens a ++ ts) = some (value a, ts))
    (rest : List Token) :
    parenthesized item
        (.symbol '(' :: ([Token.symbol ','].intercalate (as.map tokens) ++ .symbol ')' :: rest)) =
      some (as.map value, rest) := by
  have hlist := listOf_tokens (.symbol ')' :: rest) hne hitem (by simp)
  simp [parenthesized, afterSymbol, hlist]

theorem conjunction_tokens {as : List (String × Nat)} (fuel : Nat) (hne : as ≠ [])
    (has : ∀ p ∈ as, isIdentifier p.1 = true) (hfuel : as.length ≤ fuel) :
    conjunction fuel ([.word "and"].intercalate (as.map equationTokens)) =
      some (as.map fun p => ⟨.column none p.1, .bound p.2⟩, []) := by
  induction as generalizing fuel with
  | nil => exact absurd rfl hne
  | cons a as ih =>
      have ha := condition?_tokens (has a (List.mem_cons_self ..))
      cases fuel with
      | zero => exact absurd hfuel (by simp)
      | succ fuel =>
          cases as with
          | nil =>
              have hlast := ha []
              rw [List.append_nil] at hlast
              simp [conjunction, hlast, afterWord]
          | cons b bs =>
              have hbs := ih fuel (by simp)
                (fun c hc => has c (List.mem_cons_of_mem _ hc)) (Nat.le_of_succ_le_succ hfuel)
              have hand := afterWord_self (w := "and") (by simp [reserved])
              simp only [List.map_cons] at hbs
              simp only [List.map_cons, List.intercalate_cons_cons, List.append_assoc, conjunction, ha,
                Option.bind_eq_bind, Option.bind_some, List.singleton_append, hand, hbs]

/-- The tokens of a where clause, which is left out without conditions. -/
def whereTokens (as : List (String × Nat)) : List Token :=
  if as.isEmpty then [] else .word "where" :: [.word "and"].intercalate (as.map equationTokens)

theorem whereTokens_ne_symbol (as : List (String × Nat)) (c : Char) (us : List Token) :
    whereTokens as ≠ .symbol c :: us := by
  rw [whereTokens]
  split <;> simp

theorem whereClause_tokens (as : List (String × Nat)) (has : ∀ p ∈ as, isIdentifier p.1 = true) :
    whereClause (whereTokens as) = some (as.map fun p => ⟨.column none p.1, .bound p.2⟩, []) := by
  rw [whereTokens]
  split
  · rename_i hempty
    rw [List.isEmpty_iff.1 hempty]
    rfl
  · rename_i hne
    have hlength := length_le_intercalate (.word "and") (as.map equationTokens)
    rw [List.length_map] at hlength
    rw [whereClause, afterWord_self (by simp [reserved])]
    exact conjunction_tokens _ (by simpa using hne) has hlength

/-- The equalities of keys with the placeholders from `next` on. -/
def keyConditions (keys : List String) (next : Nat) : List Condition :=
  (keys.zipIdx next).map fun p => ⟨.column none p.1, .bound p.2⟩

/-- The tokens of an insert of one row into named columns, behind its first word. -/
def insertTokens (t : TableName) (columns : List String) : List Token :=
  .word "into" :: (t.tokens ++ .symbol '(' ::
    ([Token.symbol ','].intercalate (columns.map fun c => [.word c]) ++ .symbol ')' :: .word "values" ::
      .symbol '(' :: ([Token.symbol ','].intercalate
        ((List.range' 1 columns.length).map fun n => [Token.placeholder (some n)]) ++ [Token.symbol ')'])))

/-- The tokens of an insert into no columns, which the database takes for no statement. -/
def emptyInsertTokens (t : TableName) : List Token :=
  .word "into" :: (t.tokens ++ [.word "values", .symbol '(', .symbol ')'])

def updateTokens (t : TableName) (columns keys : List String) : List Token :=
  t.tokens ++ .word "set" :: ([Token.symbol ','].intercalate ((columns.zipIdx 1).map equationTokens) ++
    whereTokens (keys.zipIdx (columns.length + 1)))

def deleteTokens (t : TableName) (keys : List String) : List Token :=
  .word "from" :: (t.tokens ++ whereTokens (keys.zipIdx 1))

theorem isIdentifier_zipIdx {names : List String} (h : ∀ n ∈ names, isIdentifier n = true) (next : Nat)
    (p : String × Nat) (hp : p ∈ names.zipIdx next) : isIdentifier p.1 = true :=
  h p.1 (List.fst_mem_of_mem_zipIdx hp)

theorem insert?_tokens {t : TableName} (ht : t.isIdentifier = true) {columns : List String}
    (hne : columns ≠ []) (h : ∀ c ∈ columns, isIdentifier c = true) :
    insert? (insertTokens t columns) = some (.insert t (.values (some columns)
      [(List.range' 1 columns.length).map .bound])) := by
  have hrange : List.range' 1 columns.length ≠ [] := by simpa using hne
  have htable := tableName?_tokens ht (.symbol '(' ::
    ([Token.symbol ','].intercalate (columns.map fun c => [.word c]) ++ .symbol ')' :: .word "values" ::
      .symbol '(' :: ([Token.symbol ','].intercalate
        ((List.range' 1 columns.length).map fun n => [Token.placeholder (some n)]) ++ [Token.symbol ')'])))
    (by simp)
  have hcolumns (rest : List Token) : parenthesized name? (.symbol '(' ::
      ([Token.symbol ','].intercalate (columns.map fun c => [.word c]) ++ .symbol ')' :: rest)) =
        some (columns.map id, rest) :=
    parenthesized_tokens hne (fun c hc => name?_word (h c hc)) rest
  have hrow : parenthesized term? (.symbol '(' :: ([Token.symbol ','].intercalate
      ((List.range' 1 columns.length).map fun n => [Token.placeholder (some n)]) ++ [Token.symbol ')'])) =
        some ((List.range' 1 columns.length).map .bound, []) :=
    parenthesized_tokens hrange (fun n _ ts => rfl) []
  have hrows : listOf (parenthesized term?) (.symbol '(' :: ([Token.symbol ','].intercalate
      ((List.range' 1 columns.length).map fun n => [Token.placeholder (some n)]) ++ [Token.symbol ')'])) =
        some ([(List.range' 1 columns.length).map .bound], []) := by
    rw [listOf, commaSeparated, hrow]
    rfl
  rw [List.map_id] at hcolumns
  simp only [insert?, insertTokens, afterWord_self (w := "into") (by simp [reserved]),
    Option.bind_eq_bind, Option.bind_some, htable]
  have hdefault : afterWord "default" (.symbol '(' ::
    ([Token.symbol ','].intercalate (columns.map fun c => [.word c]) ++ .symbol ')' :: .word "values" ::
      .symbol '(' :: ([Token.symbol ','].intercalate
        ((List.range' 1 columns.length).map fun n => [Token.placeholder (some n)]) ++ [Token.symbol ')']))) =
      none := rfl
  simp only [hdefault, afterSymbol, if_true, hcolumns, Option.map_some, Option.bind_some,
    afterWord_self (w := "values") (by simp [reserved]), hrows, ended]

theorem insert?_emptyTokens {t : TableName} (ht : t.isIdentifier = true) :
    insert? (emptyInsertTokens t) = none := by
  have htable := tableName?_tokens ht [.word "values", .symbol '(', .symbol ')'] (by simp)
  have hdefault : afterWord "default" [.word "values", .symbol '(', .symbol ')'] = none := by
    rw [afterWord, keyword_of_reserved (by simp [reserved]), if_neg (by decide)]
  have hrows : listOf (parenthesized term?) [Token.symbol '(', .symbol ')'] = none := rfl
  simp only [insert?, emptyInsertTokens, afterWord_self (w := "into") (by simp [reserved]),
    Option.bind_eq_bind, Option.bind_some, htable, hdefault, afterSymbol,
    afterWord_self (w := "values") (by simp [reserved]), hrows, Option.bind_none]

theorem update?_tokens {t : TableName} (ht : t.isIdentifier = true) {columns keys : List String}
    (hcolumns : columns ≠ []) (h : ∀ n ∈ columns ++ keys, isIdentifier n = true) :
    update? (updateTokens t columns keys) = some (.update t
      ((columns.zipIdx 1).map fun p => (p.1, .bound p.2))
      (keyConditions keys (columns.length + 1))) := by
  have htable := tableName?_tokens ht (.word "set" ::
    ([Token.symbol ','].intercalate ((columns.zipIdx 1).map equationTokens) ++
      whereTokens (keys.zipIdx (columns.length + 1)))) (by simp)
  have hassignments : listOf assignment? ([Token.symbol ','].intercalate
      ((columns.zipIdx 1).map equationTokens) ++ whereTokens (keys.zipIdx (columns.length + 1))) =
        some ((columns.zipIdx 1).map fun p => (p.1, .bound p.2),
          whereTokens (keys.zipIdx (columns.length + 1))) :=
    listOf_tokens _ (by simpa using hcolumns)
      (fun p hp => assignment?_tokens (isIdentifier_zipIdx (fun c hc => h c (by simp [hc])) 1 p hp))
      (whereTokens_ne_symbol _ _)
  have hconditions := whereClause_tokens (keys.zipIdx (columns.length + 1))
    (isIdentifier_zipIdx (fun k hk => h k (by simp [hk])) _)
  simp only [update?, updateTokens, htable, afterWord_self (w := "set") (by simp [reserved]),
    Option.bind_eq_bind, Option.bind_some, hassignments, hconditions, ended, keyConditions]

theorem delete?_tokens {t : TableName} (ht : t.isIdentifier = true) {keys : List String}
    (h : ∀ k ∈ keys, isIdentifier k = true) :
    delete? (deleteTokens t keys) = some (.delete t (keyConditions keys 1)) := by
  have htable := tableName?_tokens ht (whereTokens (keys.zipIdx 1)) (whereTokens_ne_symbol _ _)
  have hconditions := whereClause_tokens (keys.zipIdx 1) (isIdentifier_zipIdx h 1)
  simp only [delete?, deleteTokens, afterWord_self (w := "from") (by simp [reserved]),
    Option.bind_eq_bind, Option.bind_some, htable, hconditions, ended, keyConditions]

end Command

end DialectSql.Store
