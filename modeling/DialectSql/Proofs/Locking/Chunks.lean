import DialectSql.Proofs.QuerySpec

namespace DialectSql

/-- A piece of the text of a query: rendered text, or the end of a query specification that is
reached through set operations only. -/
inductive Chunk
  | text (o : Output)
  | leafEnd (s : QuerySpec)

namespace Chunk

def fill (mark : QuerySpec → Output) (cs : List Chunk) : Output :=
  .concat (cs.map fun
    | text o => o
    | leafEnd s => mark s)

def leaf? : Chunk → Option QuerySpec
  | text _ => none
  | leafEnd s => some s

def joined (separator : Output) : List (List Chunk) → List Chunk
  | [] => []
  | [cs] => cs
  | cs :: css => cs ++ text separator :: joined separator css

end Chunk

namespace Render

def isApart (q : Query) : Bool :=
  match q with
  | .group _ => true
  | .spec s => !s.orderBy.isEmpty || q.hasRowLimit

def memberStart (d : Dialect) (q : Query) : Output :=
  if isApart q then
    if d.capabilities.simpleQueryGrouping then .word "(" else .word "select * from " ++ .word "("
  else .empty

def memberEnd (d : Dialect) (q : Query) : Output :=
  if isApart q then
    if d.capabilities.simpleQueryGrouping then .word ")"
    else .word ")" ++ .word " " ++ .ofPieces [.derivedAlias]
  else .empty

def operationStart (d : Dialect) (g : QueryGroup) : Output :=
  .require (2 ≤ g.members.length) (.invalid (.tooFewMembers g.operator g.members.length)) ++
    checkSetOperator d g.operator ++
    if d.capabilities.rowLimit == .rowsTo && (g.offset.isSome || g.fetch.isSome) then
      .word "select " ++ RowLimit.rowsTo d (limit d g.offset) (limit d g.fetch) g.fetchKind ++
        .word "* from " ++ .word "("
    else .empty

def operationEnd (d : Dialect) (g : QueryGroup) : Output :=
  if d.capabilities.rowLimit == .rowsTo && (g.offset.isSome || g.fetch.isSome) then
    .word ")" ++ .word " " ++ .ofPieces [.derivedAlias] ++ orderBy (sortKeys d g.orderBy)
  else
    orderBy (sortKeys d g.orderBy) ++
      RowLimit.clause d (limit d g.offset) (limit d g.fetch) g.fetchKind

end Render

namespace Query

mutual

/-- The query specifications that are reached through set operations only. -/
def rootLeaves : Query → List QuerySpec
  | .spec s => [s]
  | .group ⟨_, members, _, _, _, _⟩ => memberLeaves members

def memberLeaves : List Query → List QuerySpec
  | [] => []
  | q :: qs => q.rootLeaves ++ memberLeaves qs

end

mutual

/-- The text of a query without a lock, with the ends of its root leaves marked. -/
def chunks (d : Dialect) : Query → List Chunk
  | .spec s => [.text (Render.querySpec d none s).output, .leafEnd s]
  | .group ⟨operator, members, keys, offset, fetch, kind⟩ =>
    .text (Render.operationStart d ⟨operator, members, keys, offset, fetch, kind⟩) ::
      Chunk.joined (.word " " ++ Render.setOperatorText d operator ++ .word " ")
        (memberChunks d members) ++
      [.text (Render.operationEnd d ⟨operator, members, keys, offset, fetch, kind⟩)]

def memberChunks (d : Dialect) : List Query → List (List Chunk)
  | [] => []
  | q :: qs =>
    (.text (Render.memberStart d q) :: q.chunks d ++ [.text (Render.memberEnd d q)]) ::
      memberChunks d qs

end

end Query

namespace Chunk

theorem fill_nil (mark : QuerySpec → Output) : fill mark [] = .empty := rfl

theorem fill_text (mark : QuerySpec → Output) (o : Output) (cs : List Chunk) :
    fill mark (text o :: cs) = o ++ fill mark cs := rfl

theorem fill_leafEnd (mark : QuerySpec → Output) (s : QuerySpec) (cs : List Chunk) :
    fill mark (leafEnd s :: cs) = mark s ++ fill mark cs := rfl

theorem fill_append (mark : QuerySpec → Output) (cs ds : List Chunk) :
    fill mark (cs ++ ds) = fill mark cs ++ fill mark ds := by
  induction cs with
  | nil => simp [fill_nil]
  | cons c cs ih =>
      cases c with
      | text o => simp only [List.cons_append, fill_text, ih, Output.append_assoc]
      | leafEnd s => simp only [List.cons_append, fill_leafEnd, ih, Output.append_assoc]

theorem fill_joined (mark : QuerySpec → Output) (operator : Output) (css : List (List Chunk)) :
    fill mark (joined (.word " " ++ operator ++ .word " ") css) =
      Render.membersJoined operator (css.map (fill mark)) := by
  induction css with
  | nil => rfl
  | cons cs css ih =>
      cases css with
      | nil => rfl
      | cons ds dss =>
          change fill mark (cs ++ text (.word " " ++ operator ++ .word " ") :: joined _ (ds :: dss)) =
            fill mark cs ++ .word " " ++ operator ++ .word " " ++
              Render.membersJoined operator ((ds :: dss).map (fill mark))
          rw [fill_append, fill_text, ih]
          simp only [Output.append_assoc]

theorem failure_fill_eq_none (mark : QuerySpec → Output) (cs : List Chunk) :
    (fill mark cs).failure = none ↔
      (fill (fun _ => .empty) cs).failure = none ∧ ∀ s ∈ cs.filterMap leaf?, (mark s).failure = none := by
  induction cs with
  | nil => simp [fill_nil]
  | cons c cs ih =>
      cases c with
      | text o =>
          simp only [fill_text, Output.failure_append_eq_none, ih, List.filterMap_cons, leaf?]
          constructor
          · rintro ⟨ho, hcs, hmark⟩
            exact ⟨⟨ho, hcs⟩, hmark⟩
          · rintro ⟨⟨ho, hcs⟩, hmark⟩
            exact ⟨ho, hcs, hmark⟩
      | leafEnd s =>
          simp only [fill_leafEnd, Output.failure_append_eq_none, ih, List.filterMap_cons, leaf?,
            List.forall_mem_cons, Output.failure_empty, true_and]
          constructor
          · rintro ⟨hs, hcs, hmark⟩
            exact ⟨hcs, hs, hmark⟩
          · rintro ⟨hcs, hs, hmark⟩
            exact ⟨hs, hcs, hmark⟩

/-- Where the text alone is rendered to its end, a failure comes from the end of a leaf. -/
theorem failure_of_mark {mark : QuerySpec → Output} {cs : List Chunk} {e : TranslateError}
    (htext : (fill (fun _ => .empty) cs).failure = none) (h : (fill mark cs).failure = some e) :
    ∃ s ∈ cs.filterMap leaf?, (mark s).failure = some e := by
  induction cs with
  | nil => simp [fill_nil] at h
  | cons c cs ih =>
      cases c with
      | text o =>
          rw [fill_text] at htext h
          obtain ⟨ho, hcs⟩ := Output.failure_append_eq_none.1 htext
          rw [Output.failure_append, ho, Option.none_or] at h
          exact ih hcs h
      | leafEnd s =>
          rw [fill_leafEnd, Output.empty_append] at htext
          rw [fill_leafEnd, Output.failure_append] at h
          cases hs : (mark s).failure with
          | some f =>
              rw [hs, Option.some_or] at h
              exact ⟨s, by simp [leaf?], by rw [hs, h]⟩
          | none =>
              rw [hs, Option.none_or] at h
              obtain ⟨t, ht, he⟩ := ih htext h
              exact ⟨t, by simp [leaf?, ht], he⟩

def pieces (mark : QuerySpec → Output) : Chunk → List Piece
  | text o => o.pieces
  | leafEnd s => (mark s).pieces

theorem pieces_fill {mark : QuerySpec → Output} {cs : List Chunk}
    (h : (fill mark cs).failure = none) : (fill mark cs).pieces = cs.flatMap (pieces mark) := by
  induction cs with
  | nil => rfl
  | cons c cs ih =>
      cases c with
      | text o =>
          rw [fill_text] at h ⊢
          obtain ⟨ho, hcs⟩ := Output.failure_append_eq_none.1 h
          rw [Output.pieces_append ho, ih hcs, List.flatMap_cons, pieces]
      | leafEnd s =>
          rw [fill_leafEnd] at h ⊢
          obtain ⟨hs, hcs⟩ := Output.failure_append_eq_none.1 h
          rw [Output.pieces_append hs, ih hcs, List.flatMap_cons, pieces]

/-- What is collected from the pieces depends on the ends of the leaves alone. -/
theorem filterMap_pieces {β : Type} (f : Piece → Option β) {mark : QuerySpec → Output}
    (other : QuerySpec → Output) {cs : List Chunk} (h : ∀ s ∈ cs.filterMap leaf?,
      (mark s).pieces.filterMap f = (other s).pieces.filterMap f) :
    (cs.flatMap (pieces mark)).filterMap f = (cs.flatMap (pieces other)).filterMap f := by
  induction cs with
  | nil => rfl
  | cons c cs ih =>
      cases c with
      | text o =>
          have hrest := ih h
          simp only [List.flatMap_cons, List.filterMap_append, pieces, hrest]
      | leafEnd s =>
          have hs := h s (by simp [leaf?])
          have hrest := ih fun t ht => h t (by simp [leaf?, ht])
          simp only [List.flatMap_cons, List.filterMap_append, pieces, hrest, hs]

theorem leaves_joined (separator : Output) (css : List (List Chunk)) :
    (joined separator css).filterMap leaf? = css.flatMap fun cs => cs.filterMap leaf? := by
  induction css with
  | nil => rfl
  | cons cs css ih =>
      cases css with
      | nil => simp [joined]
      | cons ds dss =>
          change (cs ++ text separator :: joined separator (ds :: dss)).filterMap leaf? = _
          rw [List.filterMap_append, List.filterMap_cons, leaf?, ih, List.flatMap_cons]
          rfl

end Chunk

namespace Query

mutual

theorem leaves_chunks (d : Dialect) (q : Query) : (q.chunks d).filterMap Chunk.leaf? = q.rootLeaves := by
  match q with
  | .spec s => rfl
  | .group ⟨operator, members, keys, offset, fetch, kind⟩ =>
      have hmembers := leaves_memberChunks d members
      rw [chunks, List.filterMap_append, List.filterMap_cons, Chunk.leaf?, Chunk.leaves_joined,
        hmembers, rootLeaves]
      exact List.append_nil _

theorem leaves_memberChunks (d : Dialect) (qs : List Query) :
    (memberChunks d qs).flatMap (fun cs => cs.filterMap Chunk.leaf?) = memberLeaves qs := by
  match qs with
  | [] => rfl
  | q :: qs =>
      rw [memberChunks, List.flatMap_cons, leaves_memberChunks d qs, memberLeaves,
        List.filterMap_append, List.filterMap_cons, Chunk.leaf?, leaves_chunks d q]
      simp [Chunk.leaf?]

end

end Query

namespace Render

theorem member_eq (d : Dialect) (q : Query) (o : Output) :
    member d q o = memberStart d q ++ o ++ memberEnd d q := by
  have hmember : member d q o = if isApart q then
      if d.capabilities.simpleQueryGrouping then o.parenthesized
      else .word "select * from " ++ o.parenthesized ++ .word " " ++ .ofPieces [.derivedAlias]
    else o := rfl
  rw [hmember, memberStart, memberEnd]
  by_cases hapart : isApart q
  · by_cases hgrouping : d.capabilities.simpleQueryGrouping
    · simp only [hapart, hgrouping, if_true, Output.parenthesized]
    · simp only [hapart, hgrouping, if_true, Bool.false_eq_true, if_false, Output.parenthesized,
        Output.append_assoc]
  · simp only [hapart, Bool.false_eq_true, if_false, Output.empty_append, Output.append_empty]

theorem isSome_limit (d : Dialect) (e : Option Expr) : (limit d e).isSome = e.isSome := by
  cases e <;> rfl

/-- The members of a set operation stand behind each other between its start and its end. -/
theorem setOperation_eq (d : Dialect) (g : QueryGroup) {members : List Output}
    (h : members.length = g.members.length) :
    setOperation d g.operator members (sortKeys d g.orderBy) (limit d g.offset) (limit d g.fetch)
        g.fetchKind =
      operationStart d g ++ membersJoined (setOperatorText d g.operator) members ++
        operationEnd d g := by
  rw [setOperation, operationStart, operationEnd, h]
  simp only [isSome_limit]
  by_cases hderived : (d.capabilities.rowLimit == .rowsTo && (g.offset.isSome || g.fetch.isSome)) = true
  · simp only [hderived, if_true, Output.parenthesized, Output.append_assoc]
  · simp only [hderived, Bool.false_eq_true, if_false, Output.append_empty, Output.append_assoc]

theorem length_groupMembers (d : Dialect) (lock : Option LockScope) (qs : List Query) :
    (groupMembers d lock qs).length = qs.length := by
  induction qs with
  | nil => rfl
  | cons q qs ih => simp [groupMembers, ih]

/-- A lock that stands below a set operation. -/
def below (lock : Option LockScope) : Option LockScope :=
  lock.map fun scope => { scope with underSetOperation := true }

theorem below_below (lock : Option LockScope) : below (below lock) = below lock := by
  cases lock <;> rfl

mutual

/-- A query below a set operation is its text with the lock at the ends of its root leaves. -/
theorem output_query_below (d : Dialect) (lock : Option LockScope) (q : Query) :
    (query d (below lock) q).output = Chunk.fill (lockOf d (below lock)) (q.chunks d) := by
  match q with
  | .spec s =>
      rw [Query.chunks, Chunk.fill_text, Chunk.fill_leafEnd, Chunk.fill_nil, Output.append_empty]
      exact output_querySpec_lock d (below lock) s
  | .group g =>
      have hgroup := output_group d (below lock) g
      rwa [below_below] at hgroup

theorem output_group (d : Dialect) (lock : Option LockScope) (g : QueryGroup) :
    (query d lock (.group g)).output = Chunk.fill (lockOf d (below lock)) ((Query.group g).chunks d) := by
  match g with
  | ⟨operator, members, keys, offset, fetch, kind⟩ =>
      have hmembers := groupMembers_eq d lock members
      have hlength := length_groupMembers d (below lock) members
      have hoperation := setOperation_eq d ⟨operator, members, keys, offset, fetch, kind⟩ hlength
      rw [Query.chunks, Chunk.fill_append, Chunk.fill_text, Chunk.fill_joined, ← hmembers,
        Chunk.fill_text, Chunk.fill_nil, Output.append_empty]
      exact hoperation

theorem groupMembers_eq (d : Dialect) (lock : Option LockScope) (qs : List Query) :
    groupMembers d (below lock) qs =
      (Query.memberChunks d qs).map (Chunk.fill (lockOf d (below lock))) := by
  match qs with
  | [] => rfl
  | q :: qs =>
      rw [groupMembers, Query.memberChunks, List.map_cons, groupMembers_eq d lock qs, member_eq,
        output_query_below d lock q, Chunk.fill_append, Chunk.fill_text, Chunk.fill_text,
        Chunk.fill_nil, Output.append_empty]

end

def leafLock (l : LockOptions) (q : Query) : LockScope :=
  ⟨l, match q with | .group _ => true | .spec _ => false⟩

/-- A query with a lock is its text with the lock at the ends of its root leaves. -/
theorem output_query_locked (d : Dialect) (l : LockOptions) (q : Query) :
    (query d (some ⟨l, false⟩) q).output =
      Chunk.fill (lockOf d (some (leafLock l q))) (q.chunks d) := by
  cases q with
  | spec s =>
      rw [Query.chunks, Chunk.fill_text, Chunk.fill_leafEnd, Chunk.fill_nil, Output.append_empty]
      exact output_querySpec_lock d _ s
  | group g => exact output_group d (some ⟨l, false⟩) g

theorem output_query_unlocked (d : Dialect) (q : Query) :
    (query d none q).output = Chunk.fill (fun _ => .empty) (q.chunks d) :=
  output_query_below d none q

end Render

end DialectSql
