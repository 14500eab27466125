import DialectSql.Proofs.Placeholder.Numbering
import DialectSql.Proofs.Quoting.Pieces

namespace DialectSql

namespace QuotedText

/-- The text with one quote in the place of each region. -/
def blanked (q : QuotedText) : List Char := q.head ++ q.tail.flatMap fun r => '\'' :: r.2

theorem blanked_behindText (cs : List Char) (q : QuotedText) :
    (q.behindText cs).blanked = cs ++ q.blanked := List.append_assoc ..

theorem blanked_behindRegion (region : List Char) (q : QuotedText) :
    (q.behindRegion region).blanked = '\'' :: q.blanked := rfl

theorem prefix_across {cs es : List Char} {c : Char} (hc : c ∉ cs) (ds : List Char)
    (h : cs <+: ds ++ c :: es) : cs <+: ds := by
  rcases List.prefix_or_prefix_of_prefix h (List.prefix_append ds (c :: es)) with h' | ⟨zs, rfl⟩
  · exact h'
  · rw [List.prefix_append_right_inj] at h
    cases zs with
    | nil => simp
    | cons z zs =>
        obtain ⟨rfl, -⟩ := List.cons_prefix_cons.1 h
        exact absurd (List.mem_append_right _ List.mem_cons_self) hc

/-- A text without the mark does not stand across it. -/
theorem infix_across {cs ds es : List Char} {c : Char} (hc : c ∉ cs) :
    cs <:+: ds ++ c :: es ↔ cs <:+: ds ∨ cs <:+: es := by
  constructor
  · intro h
    induction ds with
    | nil =>
        rw [List.nil_append, List.infix_cons_iff] at h
        exact h.imp (fun h => (prefix_across hc [] h).isInfix) id
    | cons d ds ih =>
        rw [List.cons_append, List.infix_cons_iff] at h
        rcases h with h | h
        · exact .inl (prefix_across hc (d :: ds) h).isInfix
        · exact (ih h).imp (fun h => h.trans (List.suffix_cons d ds).isInfix) id
  · rintro (h | h)
    · exact h.trans (List.prefix_append ds _).isInfix
    · exact h.trans ((List.suffix_cons c es).trans (List.suffix_append ds _)).isInfix

theorem infix_blanked {cs : List Char} (hc : '\'' ∉ cs) (q : QuotedText) :
    cs <:+: q.blanked ↔ ∃ ds ∈ q.outside, cs <:+: ds := by
  obtain ⟨head, tail⟩ := q
  induction tail generalizing head with
  | nil => simp [blanked, outside]
  | cons r tail ih =>
      have hrest := ih r.2
      simp only [blanked, outside, List.flatMap_cons, List.map_cons, List.cons_append] at hrest ⊢
      rw [infix_across hc, hrest, List.exists_mem_cons_iff (l := r.2 :: _)]

end QuotedText

namespace Piece

/-- The piece, or a quote in the place of a region. -/
def blanked : Piece → Piece
  | .quoted _ => .plain "'"
  | p => p

end Piece

namespace Translation

/-- The text of pieces with one quote in the place of each region. -/
def outsideText (style : PlaceholderStyle) (slots aliases : Nat) (ps : List Piece) : List Char :=
  (String.join (texts style slots aliases (ps.map Piece.blanked))).toList

variable (style : PlaceholderStyle) (slots aliases : Nat)

theorem exists_outsideText_append (ps qs : List Piece) : ∃ slots' aliases',
    outsideText style slots aliases (ps ++ qs) =
      outsideText style slots aliases ps ++ outsideText style slots' aliases' qs := by
  obtain ⟨aliases', h⟩ := exists_join_texts_append style slots aliases (ps.map Piece.blanked)
    (qs.map Piece.blanked)
  exact ⟨_, aliases', by rw [outsideText, List.map_append, h, String.toList_append]; rfl⟩

theorem outsideText_infix {ps qs : List Piece} (h : ps <:+: qs) : ∃ slots' aliases',
    outsideText style slots' aliases' ps <:+: outsideText style slots aliases qs := by
  obtain ⟨before, behind, rfl⟩ := h
  obtain ⟨slots₁, aliases₁, hright⟩ :=
    exists_outsideText_append style slots aliases (before ++ ps) behind
  obtain ⟨slots₂, aliases₂, hleft⟩ := exists_outsideText_append style slots aliases before ps
  rw [hright, hleft]
  exact ⟨slots₂, aliases₂, List.infix_append ..⟩

theorem outsideText_singleton (p : Piece) :
    outsideText style slots aliases [p] = (p.blanked.text style slots aliases).toList := by
  cases p <;> simp [outsideText, texts, Piece.blanked]

variable {R : SqlValue → SqlValue → Prop} {E : Char → Char → Prop}

theorem outsideText_quoted (s : String) (ps : List Piece) :
    outsideText style slots aliases (.quoted s :: ps) = '\'' :: outsideText style slots aliases ps := by
  simp [outsideText, texts, Piece.blanked, Piece.text]

/-- The text of pieces reads back with its regions, as no region touches another. -/
theorem read_outside {ps ps' : List Piece} (h : Piece.AllAlike R E ps ps') (hs : Piece.Spaced ps)
    (slots aliases : Nat) :
    ∃ q, QuotedText.read none (String.join (texts style slots aliases ps)).toList = some q ∧
      q.blanked = outsideText style slots aliases ps := by
  induction h generalizing slots aliases with
  | nil => exact ⟨_, rfl, rfl⟩
  | @cons p p' ps ps' hp hps ih =>
      cases hp with
      | same hp =>
          obtain ⟨slots', aliases', htexts⟩ := exists_texts_cons style slots aliases p
          have hblank : p.blanked = p := by
            cases p with
            | quoted => exact hp.elim
            | _ => rfl
          obtain ⟨q, hq, hblanked⟩ := ih (hs.tail hp) slots' aliases'
          have htext := Piece.unquoted_text hp style slots aliases
          refine ⟨q.behindText (p.text style slots aliases).toList, ?_, ?_⟩
          · rw [htexts, String.join_cons, String.toList_append, QuotedText.read_text htext, hq]
            rfl
          · rw [QuotedText.blanked_behindText, hblanked, outsideText, outsideText, List.map_cons,
              hblank, htexts, String.join_cons, String.toList_append]
      | @quoted s s' hr =>
          obtain ⟨q, hq, hblanked⟩ := ih hs.2 slots aliases
          have hhead := head_ne_quote style hps hs.1 slots aliases
          have htexts : texts style slots aliases (.quoted s :: ps) =
              quoted s :: texts style slots aliases ps := rfl
          refine ⟨q.behindRegion s.toList, ?_, ?_⟩
          · rw [htexts, String.join_cons, String.toList_append, QuotedText.read_quoted s hhead, hq]
            rfl
          · rw [QuotedText.blanked_behindRegion, hblanked, outsideText_quoted]

end Translation

end DialectSql
