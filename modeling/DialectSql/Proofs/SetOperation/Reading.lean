import DialectSql.Proofs.Restriction

namespace DialectSql

/-- A query as it is read: a select, two queries combined, or a query whose rows are put in order
and limited. -/
inductive QueryPlan
  | select (text : List Lexeme)
  | combined (op : SetOperator) (left right : QueryPlan)
  | arranged (query : QueryPlan) (order limit : List Lexeme)
deriving DecidableEq, Repr

/-- A part of a query text, and the query it holds in parentheses. -/
structure Block where
  part : Part
  query : Option QueryPlan

namespace SetOperator

def isIntersection : SetOperator → Bool
  | intersect | intersectAll => true
  | _ => false

def withAll : SetOperator → SetOperator
  | union | unionAll => unionAll
  | intersect | intersectAll => intersectAll
  | except | exceptAll => exceptAll

end SetOperator

namespace QueryPlan

def arrange (q : QueryPlan) (order limit : List Lexeme) : QueryPlan :=
  if order = [] ∧ limit = [] then q else .arranged q order limit

/-- Queries combined by one operator, from left to right. -/
def fold (op : SetOperator) : List QueryPlan → QueryPlan
  | [] => .select []
  | q :: qs => qs.foldl (.combined op) q

def behind (done : Option (QueryPlan × SetOperator)) (q : QueryPlan) : QueryPlan :=
  done.elim q fun (left, op) => .combined op left q

/-- A chain of queries, read from left to right. An intersection goes into the query at hand. Any
other operator combines that query with what is `done`. -/
def chain (done : Option (QueryPlan × SetOperator)) (q : QueryPlan) :
    List (SetOperator × QueryPlan) → QueryPlan
  | [] => behind done q
  | (op, r) :: rest =>
    if op.isIntersection then chain done (.combined op q r) rest
    else chain (some (behind done q, op)) r rest

theorem chain_uniform (op : SetOperator) (done : Option (QueryPlan × SetOperator)) (q : QueryPlan)
    (qs : List QueryPlan) : chain done q (qs.map (op, ·)) =
      if op.isIntersection then behind done (qs.foldl (.combined op) q)
      else qs.foldl (.combined op) (behind done q) := by
  induction qs generalizing done q with
  | nil => simp [chain]
  | cons r rs ih =>
      rw [List.map_cons, chain, ih, ih]
      split <;> rfl

theorem chain_eq_fold (op : SetOperator) (q : QueryPlan) (qs : List QueryPlan) :
    chain none q (qs.map (op, ·)) = fold op (q :: qs) := by
  rw [chain_uniform]
  exact ite_self _

end QueryPlan

namespace Block

def isKey (w : String) (b : Block) : Bool := b.part.isKey w

def isOneOf (words : List String) (b : Block) : Bool := words.any fun w => b.isKey w

theorem isOneOf_eq_false (words : List String) {more : List String} {b : Block}
    (h : b.isOneOf more = false) (hsub : words ⊆ more) : b.isOneOf words = false :=
  List.any_eq_false.2 fun w hw => List.any_eq_false.1 h w (hsub hw)

theorem isOneOf_mono {words more : List String} {b : Block} (h : b.isOneOf words = true)
    (hsub : words ⊆ more) : b.isOneOf more = true := by
  obtain ⟨w, hw, hkey⟩ := List.any_eq_true.1 h
  exact List.any_eq_true.2 ⟨w, hsub hw, hkey⟩

def isNumber (b : Block) : Bool :=
  match b.part with
  | .leaf (.number _) | .leaf (.unit (.plain _)) | .leaf (.unit (.slot _)) => true
  | _ => false

def text (bs : List Block) : List Lexeme := partsText (bs.map part)

def operator? (b : Block) : Option SetOperator :=
  if b.isKey "union" then some .union
  else if b.isKey "intersect" then some .intersect
  else if b.isOneOf ["except", "minus"] then some .except
  else none

end Block

/-- The words that begin what stands behind a query and its set operations. -/
def Lexeme.tailWords : List String := "order" :: limitWords ++ ["for"]

namespace QueryText

/-- The members of a query text with the operators between them. -/
def body (bs : List Block) : List Block := bs.takeWhile fun b => !b.isOneOf Lexeme.tailWords

/-- The order and the limit of the rows, up to a lock. -/
def ending (bs : List Block) : List Block :=
  (bs.dropWhile fun b => !b.isOneOf Lexeme.tailWords).takeWhile fun b => !b.isOneOf ["for"]

def order (bs : List Block) : List Block :=
  (ending bs).takeWhile fun b => !b.isOneOf Lexeme.limitWords

def limit (bs : List Block) : List Block :=
  (ending bs).dropWhile fun b => !b.isOneOf Lexeme.limitWords

/-- An operator that `all` may stand behind. -/
def operand (op : SetOperator) (bs : List Block) : SetOperator × List Block :=
  if bs.head?.any (·.isKey "all") then (op.withAll, bs.tail) else (op, bs)

/-- The first operand of the set operations of a text, and the others with their operators. -/
def operands : List Block → List Block × List (SetOperator × List Block)
  | [] => ([], [])
  | b :: bs =>
    let (first, rest) := operands bs
    match b.operator? with
    | none => (b :: first, rest)
    | some op => ([], operand op first :: rest)

/-- The row range at the front of a select list, and what stands behind it. -/
def range : List Block → List Block × List Block
  | rows :: low :: upTo :: high :: bs =>
    if rows.isKey "rows" && low.isNumber && upTo.isKey "to" && high.isNumber then
      ([rows, low, upTo, high], bs)
    else ([], rows :: low :: upTo :: high :: bs)
  | bs => ([], bs)

/-- Whether only a row range can stand in front of a star. -/
def isRange (bs : List Block) : Bool :=
  bs.isEmpty ||
    (bs.head?.any (·.isKey "rows") && !bs.getLast?.any (·.isOneOf [",", ".", "distinct"]))

/-- The query in `* from (query) alias`, with what stands in front of the star. -/
def wrapped? (bs : List Block) : Option (List Block × QueryPlan) :=
  match bs.reverse with
  | ⟨.leaf (.unit _), _⟩ :: ⟨_, some q⟩ :: source :: star :: before =>
    if source.isKey "from" && star.isKey "*" && isRange before.reverse then
      some (before.reverse, q)
    else none
  | _ => none

/-- One operand with the range of its rows. A select of all columns of a query is that query. -/
def term (bs : List Block) : QueryPlan × List Lexeme :=
  match bs with
  | [⟨_, some q⟩] => (q, [])
  | b :: rest =>
    if b.isKey "select" then
      match wrapped? rest with
      | some (before, q) => (q, Block.text before)
      | none => (.select (Block.text (b :: (range rest).2)), Block.text (range rest).1)
    else (.select (Block.text bs), [])
  | [] => (.select [], [])

def ranged (bs : List Block) : QueryPlan := (term bs).1.arrange [] (term bs).2

end QueryText

/-- Reads a query. An order or a limit at its end applies to the whole of its set operations. -/
def QueryPlan.ofBlocks (bs : List Block) : QueryPlan :=
  let order := Block.text (QueryText.order bs)
  let limit := Block.text (QueryText.limit bs)
  match QueryText.operands (QueryText.body bs) with
  | (only, []) => (QueryText.term only).1.arrange order ((QueryText.term only).2 ++ limit)
  | (first, rest) =>
    (chain none (QueryText.ranged first) (rest.map fun (op, bs) => (op, QueryText.ranged bs))).arrange
      order limit

namespace Part

/-- The parts between two parentheses. -/
def inside? : Part → Option (List Part)
  | group (.opening .paren :: text) _ => collect text.dropLast [] []
  | _ => none

def outerText (outer : List (Bracket × List Part)) : List Lexeme :=
  outer.reverse.flatMap fun (b, before) => partsText before ++ [.opening b]

theorem collect_text {ls : List Lexeme} {seen : List Part} {outer : List (Bracket × List Part)}
    {ps : List Part} (h : collect ls seen outer = some ps) :
    partsText ps = outerText outer ++ partsText seen ++ ls := by
  fun_induction collect ls seen outer with
  | case1 seen =>
      obtain rfl := Option.some_inj.1 h
      simp [outerText]
  | case2 => cases h
  | case3 seen outer b ls ih => simpa [outerText] using ih h
  | case4 => cases h
  | case5 seen b ls before outer ih => simpa [outerText, enclose, Part.text] using ih h
  | case6 => cases h
  | case7 l ls seen outer _ _ _ ih => simpa [Part.text] using ih h

theorem inside?_length {p : Part} {ps : List Part} (h : p.inside? = some ps) :
    (partsText ps).length < p.text.length := by
  unfold inside? at h
  split at h
  · rename_i text condition
    rw [collect_text h]
    simp only [outerText, List.reverse_nil, List.flatMap_nil, partsText_nil, List.nil_append,
      List.length_dropLast, Part.text, List.length_cons]
    omega
  · cases h

theorem length_text_le {p : Part} {ps : List Part} (h : p ∈ ps) :
    p.text.length ≤ (partsText ps).length := by
  obtain ⟨before, after, rfl⟩ := List.append_of_mem h
  simp
  omega

theorem inside?_enclose {ls : List Lexeme} {ps : List Part} (h : Reads ls ps) :
    (enclose .paren ps).inside? = some ps := by
  rw [enclose, inside?.eq_def]
  simp [h.text, h.parts]

end Part

/-- Reads a query, those in parentheses first. -/
def QueryPlan.ofParts (ps : List Part) : QueryPlan :=
  ofBlocks (ps.attach.map fun p => ⟨p.1, p.1.inside?.attach.map fun qs => ofParts qs.1⟩)
termination_by (partsText ps).length
decreasing_by exact Nat.lt_of_lt_of_le (Part.inside?_length qs.2) (Part.length_text_le p.2)

def Part.block (p : Part) : Block := ⟨p, p.inside?.map QueryPlan.ofParts⟩

theorem QueryPlan.ofParts_eq (ps : List Part) : ofParts ps = ofBlocks (ps.map Part.block) := by
  rw [ofParts]
  simp
  rfl

namespace Output

variable {allowed : Lexeme → Bool} {words : List String} {a b o : Output}

def lexemes (o : Output) : List Lexeme := Lexeme.ofPieces o.pieces

theorem lexemes_append (h : a.failure = none) (b : Output) :
    (a ++ b).lexemes = a.lexemes ++ b.lexemes := by
  rw [lexemes, pieces_append h, Lexeme.ofPieces_append]
  rfl

@[simp] theorem lexemes_word (w : String) : (word w).lexemes = Lexeme.ofWord w :=
  Lexeme.ofPieces_word w

def blocks (o : Output) : List Block := o.parts.map Part.block

/-- The query that a text is read as; none if its brackets do not match. -/
def plan? (o : Output) : Option QueryPlan := (Part.ofPieces? o.pieces).map QueryPlan.ofParts

theorem Within.flat (h : o.Within (Lexeme.avoids words)) : o.Within Lexeme.ofQuery :=
  h.mono fun _ => Lexeme.ofQuery_of_avoids

theorem Within.plan?_eq (h : o.Within allowed) (hok : o.failure = none) :
    o.plan? = some (.ofBlocks o.blocks) := by
  rw [plan?, Part.ofPieces?, (h.reads hok).parts, Option.map_some, QueryPlan.ofParts_eq]
  rfl

theorem Within.text_blocks (h : o.Within allowed) (hok : o.failure = none) :
    Block.text o.blocks = o.lexemes := by
  have hparts : o.blocks.map Block.part = o.parts := by
    rw [blocks, List.map_map]
    exact List.map_id o.parts
  rw [Block.text, hparts]
  exact (h.reads hok).text

theorem blocks_append {more : Lexeme → Bool} (ha : a.Within allowed) (hb : b.Within more)
    (hok : (a ++ b).failure = none) : (a ++ b).blocks = a.blocks ++ b.blocks := by
  rw [blocks, parts_append ha hb hok, List.map_append]
  rfl

theorem blocks_flat (h : o.lexemes.all Lexeme.ofQuery = true) :
    o.blocks = o.lexemes.map fun l => ⟨.leaf l, none⟩ := by
  rw [blocks, parts_of_reads (.flat h), List.map_map]
  rfl

theorem blocks_word {w : String} (h : (Lexeme.ofWord w).all Lexeme.ofQuery = true) :
    (word w).blocks = (Lexeme.ofWord w).map fun l => ⟨.leaf l, none⟩ := by
  rw [blocks_flat (by rwa [lexemes_word]), lexemes_word]

theorem blocks_blank (h : o.Within allowed) (hok : (word " " ++ o).failure = none) :
    (word " " ++ o).blocks = o.blocks := by
  rw [blocks_append (Layers.reading.ofQuery.fixed " " rfl) h hok, blocks_word (by decide)]
  rfl

theorem blocks_parenthesized (h : o.Within allowed) (hok : o.failure = none) :
    o.parenthesized.blocks = [⟨.enclose .paren o.parts, some (.ofBlocks o.blocks)⟩] := by
  rw [blocks, parts_parenthesized h hok, List.map_singleton, Part.block,
    Part.inside?_enclose (h.reads hok), Option.map_some, QueryPlan.ofParts_eq]
  rfl

theorem Within.blocks_isKey (h : o.Within (Lexeme.avoids words)) (hok : o.failure = none)
    {w : String} (hw : w ∈ words) : ∀ b ∈ o.blocks, b.isKey w = false := by
  intro b hb
  obtain ⟨p, hp, rfl⟩ := List.mem_map.1 hb
  exact Condition.isKey_of_avoids (h.parts_allowed hok p hp) hw

theorem Within.blocks_isOneOf {fewer : List String} (h : o.Within (Lexeme.avoids words))
    (hok : o.failure = none) (hsub : fewer ⊆ words) : ∀ b ∈ o.blocks, b.isOneOf fewer = false := by
  intro b hb
  refine List.any_eq_false.2 fun w hw => ?_
  rw [h.blocks_isKey hok (hsub hw) b hb]
  exact Bool.false_ne_true

theorem Begins.blocks (h : o.Begins words) (hok : o.failure = none) :
    ∀ b ∈ o.blocks.head?, b.isOneOf words = true := by
  intro b hb
  rw [Output.blocks, List.head?_map, Option.mem_def, Option.map_eq_some_iff] at hb
  obtain ⟨p, hp, rfl⟩ := hb
  exact h.2 hok p hp

end Output

theorem Block.operator?_eq_none {b : Block} (h : b.isOneOf Lexeme.setWords = false) :
    b.operator? = none := by
  simp_all [isOneOf, Lexeme.setWords, operator?]

namespace QueryText

variable {core order limit lock : List Block}

theorem span_append {p : Block → Bool} {as bs : List Block} (ha : ∀ a ∈ as, p a = true)
    (hb : ∀ b ∈ bs.head?, p b = false) :
    (as ++ bs).takeWhile p = as ∧ (as ++ bs).dropWhile p = bs := by
  rw [List.takeWhile_append_of_pos ha, List.dropWhile_append_of_pos ha]
  cases bs with
  | nil => simp
  | cons b bs => simp [hb b rfl]

theorem head_append {P : Block → Prop} {as bs : List Block} (ha : ∀ b ∈ as.head?, P b)
    (hb : ∀ b ∈ bs.head?, P b) : ∀ b ∈ (as ++ bs).head?, P b := by
  cases as with
  | nil => exact hb
  | cons a as => exact ha

/-- What stands in front of the order of a query, and what stands behind it, in its places. -/
structure Laid (core order limit lock : List Block) : Prop where
  coreFree : ∀ b ∈ core, b.isOneOf Lexeme.tailWords = false
  orderFree : ∀ b ∈ order, b.isOneOf ("for" :: Lexeme.limitWords) = false
  limitFree : ∀ b ∈ limit, b.isOneOf ["for"] = false
  orderHead : ∀ b ∈ order.head?, b.isOneOf ["order"] = true
  limitHead : ∀ b ∈ limit.head?, b.isOneOf Lexeme.limitWords = true
  lockHead : ∀ b ∈ lock.head?, b.isOneOf ["for"] = true

theorem Laid.alone (h : ∀ b ∈ core, b.isOneOf Lexeme.tailWords = false) : Laid core [] [] [] where
  coreFree := h
  orderFree := by simp
  limitFree := by simp
  orderHead := by simp
  limitHead := by simp
  lockHead := by simp

namespace Laid

variable (h : Laid core order limit lock)

include h

theorem span : body (core ++ (order ++ (limit ++ lock))) = core ∧
    ending (core ++ (order ++ (limit ++ lock))) = order ++ limit := by
  have hcore : ∀ b ∈ core, (!b.isOneOf Lexeme.tailWords) = true := by simpa using h.coreFree
  have htail {b : Block} (words : List String) (hb : b.isOneOf words = true)
      (hsub : words ⊆ Lexeme.tailWords) : (!b.isOneOf Lexeme.tailWords) = false := by
    simp [Block.isOneOf_mono hb hsub]
  obtain ⟨hbody, hrest⟩ := span_append hcore
    (head_append (fun b hb => htail _ (h.orderHead b hb) (by decide))
      (head_append (fun b hb => htail _ (h.limitHead b hb) (by decide)) fun b hb =>
        htail _ (h.lockHead b hb) (by decide)))
  have hunlocked : ∀ b ∈ order ++ limit, (!b.isOneOf ["for"]) = true := by
    refine List.forall_mem_append.2 ⟨fun b hb => ?_, by simpa using h.limitFree⟩
    rw [Bool.not_eq_true', Block.isOneOf_eq_false ["for"] (h.orderFree b hb) (by decide)]
  refine ⟨hbody, ?_⟩
  rw [ending, hrest, ← List.append_assoc]
  exact (span_append hunlocked (by simpa using h.lockHead)).1

theorem order_eq : QueryText.order (core ++ (order ++ (limit ++ lock))) = order ∧
    QueryText.limit (core ++ (order ++ (limit ++ lock))) = limit := by
  have horder : ∀ b ∈ order, (!b.isOneOf Lexeme.limitWords) = true := fun b hb => by
    rw [Bool.not_eq_true', Block.isOneOf_eq_false Lexeme.limitWords (h.orderFree b hb) (by decide)]
  rw [QueryText.order, QueryText.limit, h.span.2]
  exact span_append horder (by simpa using h.limitHead)

end Laid

theorem operands_append {as : List Block} (h : ∀ b ∈ as, b.isOneOf Lexeme.setWords = false)
    (bs : List Block) : operands (as ++ bs) = (as ++ (operands bs).1, (operands bs).2) := by
  induction as with
  | nil => rfl
  | cons a as ih =>
      rw [List.cons_append, operands, ih fun b hb => h b (List.mem_cons_of_mem a hb),
        Block.operator?_eq_none (h a (by simp))]
      rfl

theorem operands_of_free {bs : List Block} (h : ∀ b ∈ bs, b.isOneOf Lexeme.setWords = false) :
    operands bs = (bs, []) := by
  simpa [operands] using operands_append h []

/-- Behind an operator the operands go on. -/
theorem operands_operator {b : Block} {op : SetOperator} (hop : b.operator? = some op) {all : Bool}
    {bs : List Block} (hbs : ∀ b ∈ (operands bs).1.head?, b.isKey "all" = false) :
    operands (b :: (if all then [⟨.word "all", none⟩] else []) ++ bs) =
      ([], (if all then op.withAll else op, (operands bs).1) :: (operands bs).2) := by
  cases all with
  | false =>
      have hnone : (operands bs).1.head?.any (·.isKey "all") = false := by
        cases hhead : (operands bs).1.head? with
        | none => rfl
        | some c => exact hbs c (by simp [hhead])
      simp [operands, hop, operand, hnone]
  | true =>
      have hall : Block.isKey "all" ⟨.word "all", none⟩ = true := by decide
      have hword : Block.operator? ⟨.word "all", none⟩ = none := by decide
      simp [operands, hop, operand, hall, hword]

/-- A select of all of a query, with what stands in front of the star. -/
def wrapping (before : List Block) (p : Part) (q : QueryPlan) : List Block :=
  ⟨.word "select", none⟩ :: (before ++ [⟨.leaf (.mark "*"), none⟩, ⟨.word "from", none⟩, ⟨p, some q⟩,
    ⟨.leaf (.unit .derivedAlias), none⟩])

theorem term_wrapping {before : List Block} (hbefore : isRange before = true) (p : Part)
    (q : QueryPlan) : term (wrapping before p q) = (q, Block.text before) := by
  have hwrapped : wrapped? (before ++ [⟨.leaf (.mark "*"), none⟩, ⟨.word "from", none⟩, ⟨p, some q⟩,
      ⟨.leaf (.unit .derivedAlias), none⟩]) = some (before, q) := by
    have hfrom : Block.isKey "from" ⟨.word "from", none⟩ = true := by decide
    have hstar : Block.isKey "*" ⟨.leaf (.mark "*"), none⟩ = true := by decide
    simp [wrapped?, hfrom, hstar, hbefore]
  have hselect : Block.isKey "select" ⟨.word "select", none⟩ = true := by decide
  rw [wrapping, term.eq_def]
  simp [hselect, hwrapped]

end QueryText

namespace QueryPlan

open QueryText

variable {core order limit lock : List Block}

theorem ofBlocks_single (h : Laid core order limit lock)
    (hcore : ∀ b ∈ core, b.isOneOf Lexeme.setWords = false) :
    ofBlocks (core ++ (order ++ (limit ++ lock))) =
      (term core).1.arrange (Block.text order) ((term core).2 ++ Block.text limit) := by
  rw [ofBlocks, h.span.1, h.order_eq.1, h.order_eq.2, operands_of_free hcore]

theorem ofBlocks_fold (h : Laid core order limit lock) {op : SetOperator} {first second : List Block}
    {rest : List (List Block)} (hcore : operands core = (first, (second :: rest).map (op, ·))) :
    ofBlocks (core ++ (order ++ (limit ++ lock))) =
      (fold op ((first :: second :: rest).map ranged)).arrange (Block.text order)
        (Block.text limit) := by
  rw [ofBlocks, h.span.1, h.order_eq.1, h.order_eq.2, hcore, List.map_cons, List.map_cons,
    ← chain_eq_fold]
  simp [List.map_map, Function.comp_def]

end QueryPlan

end DialectSql
