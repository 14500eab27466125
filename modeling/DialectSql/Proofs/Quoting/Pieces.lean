import DialectSql.Proofs.Alike.Pairing
import DialectSql.Proofs.Quoting.Reader
import DialectSql.Render.Translation

namespace DialectSql

namespace Piece

/-- The piece has no text. -/
def isSilent : Piece → Bool
  | .word s | .name s | .plain s | .table s => s == ""
  | .gap _ | .followOnLock _ => true
  | .quoted _ | .slot _ | .derivedAlias => false

/-- No region is the first of the pieces that have a text. -/
def Led : List Piece → Prop
  | [] => True
  | .quoted _ :: _ => False
  | p :: ps => p.isSilent → Led ps

/-- No region stands directly behind another one. -/
def Spaced : List Piece → Prop
  | [] => True
  | .quoted _ :: ps => Led ps ∧ Spaced ps
  | _ :: ps => Spaced ps

theorem Led.append {ps qs : List Piece} (hp : Led ps) (hq : Led qs) : Led (ps ++ qs) := by
  induction ps with
  | nil => exact hq
  | cons p ps ih =>
      cases p with
      | quoted => exact hp
      | _ => exact fun hsilent => ih (hp hsilent)

theorem Led.cons {p : Piece} {ps : List Piece} (h : p.Unquoted) (hp : Led ps) : Led (p :: ps) := by
  cases p with
  | quoted => exact h
  | _ => exact fun _ => hp

theorem Led.of_text {p : Piece} (h : p.Unquoted) (ht : p.isSilent = false) (ps : List Piece) :
    Led (p :: ps) := by
  cases p with
  | quoted => exact h
  | _ => exact fun hsilent => absurd hsilent (by rw [ht]; exact Bool.false_ne_true)

theorem Spaced.append {ps qs : List Piece} (hp : Spaced ps) (hl : Led qs) (hq : Spaced qs) :
    Spaced (ps ++ qs) := by
  induction ps with
  | nil => exact hq
  | cons p ps ih =>
      cases p with
      | quoted => exact ⟨hp.1.append hl, ih hp.2⟩
      | _ => exact ih hp

theorem Spaced.tail {p : Piece} {ps : List Piece} (h : p.Unquoted) (hp : Spaced (p :: ps)) :
    Spaced ps := by
  cases p with
  | quoted => exact h.elim
  | _ => exact hp

theorem Spaced.cons {p : Piece} {ps : List Piece} (h : p.Unquoted) (hp : Spaced ps) :
    Spaced (p :: ps) := by
  cases p with
  | quoted => exact h.elim
  | _ => exact hp

end Piece

/-- Regions from the same place of two statements: they read back to literals of the two that are
related, or to related escape characters. What the translator quotes on its own is the same. -/
inductive RegionAlike (R : SqlValue → SqlValue → Prop) (E : Char → Char → Prop) :
    List Char → List Char → Prop
  | text {s s' : String} (h : R (.text s) (.text s')) : RegionAlike R E s.toList s'.toList
  | blob {b b' : List UInt8} {cs cs' : List Char} (h : R (.blob b) (.blob b'))
    (hb : readHex cs = some b) (hb' : readHex cs' = some b') : RegionAlike R E cs cs'
  | timestamp {t : Timestamp} (h : R (.timestamp t) (.timestamp t)) :
    RegionAlike R E t.sqlText.toList t.sqlText.toList
  | escape {c c' : Char} (h : E c c') : RegionAlike R E [c] [c']
  | zero : RegionAlike R E ['0'] ['0']

variable {R : SqlValue → SqlValue → Prop} {E : Char → Char → Prop}

theorem RegionAlike.flip {cs cs' : List Char} (h : RegionAlike R E cs cs') :
    RegionAlike (fun v v' => R v' v) (fun c c' => E c' c) cs' cs := by
  cases h with
  | text h => exact .text h
  | blob h hb hb' => exact .blob h hb' hb
  | timestamp h => exact .timestamp h
  | escape h => exact .escape h
  | zero => exact .zero

/-- The pieces are the same without a quote, or they are regions from the same place. -/
inductive Piece.Alike (R : SqlValue → SqlValue → Prop) (E : Char → Char → Prop) :
    Piece → Piece → Prop
  | same {p : Piece} (h : p.Unquoted) : Piece.Alike R E p p
  | quoted {s s' : String} (h : RegionAlike R E s.toList s'.toList) :
    Piece.Alike R E (.quoted s) (.quoted s')

abbrev Piece.AllAlike (R : SqlValue → SqlValue → Prop) (E : Char → Char → Prop) :
    List Piece → List Piece → Prop := List.Forall₂ (Piece.Alike R E)

namespace Piece

theorem AllAlike.flip {ps ps' : List Piece} (h : AllAlike R E ps ps') :
    AllAlike (fun v v' => R v' v) (fun c c' => E c' c) ps' ps :=
  List.Forall₂.flip (h.imp fun _ _ hp => by
    cases hp with
    | same hp => exact .same hp
    | quoted hr => exact .quoted hr.flip)

theorem Led.of_allAlike {ps ps' : List Piece} (h : AllAlike R E ps ps') (hl : Led ps) :
    Led ps' := by
  induction h with
  | nil => exact hl
  | @cons p _ ps _ hp _ ih =>
      cases hp with
      | quoted => exact hl
      | same hp =>
          cases p with
          | quoted => exact hl
          | _ => exact fun hsilent => ih (hl hsilent)

theorem unquoted_text {p : Piece} (h : p.Unquoted) (style : PlaceholderStyle) (n m : Nat) :
    DialectSql.Unquoted (p.text style n m) := by
  cases p with
  | word | name | plain | table => exact h
  | quoted => exact h.elim
  | slot =>
      cases style with
      | question => exact (show DialectSql.Unquoted "?" by decide)
      | dollar | colon => exact .append (by decide) (.nat _)
  | derivedAlias => exact .append (.append (by decide) (.nat _)) (by decide)
  | gap | followOnLock => exact (show DialectSql.Unquoted "" by decide)

theorem text_ne_empty {p : Piece} (h : p.isSilent = false) (style : PlaceholderStyle) (n m : Nat) :
    p.text style n m ≠ "" := by
  cases p with
  | word | name | plain | table => exact ne_of_beq_false h
  | quoted s => simp [text, DialectSql.quoted]
  | slot => cases style <;> simp [text, PlaceholderStyle.render]
  | derivedAlias => simp [text]
  | gap | followOnLock => cases h

theorem text_of_silent {p : Piece} (h : p.isSilent = true) (style : PlaceholderStyle) (n m : Nat) :
    p.text style n m = "" := by
  cases p with
  | word | name | plain | table => exact eq_of_beq h
  | quoted | slot | derivedAlias => cases h
  | gap | followOnLock => rfl

end Piece

namespace Translation

variable (style : PlaceholderStyle)

/-- The numbering goes on behind a piece without regard to what follows. -/
theorem exists_texts_cons (slots aliases : Nat) (p : Piece) :
    ∃ slots' aliases', ∀ ps, texts style slots aliases (p :: ps) =
      p.text style slots aliases :: texts style slots' aliases' ps := by
  cases p <;> exact ⟨_, _, fun _ => rfl⟩

theorem head_ne_quote {ps ps' : List Piece} (h : Piece.AllAlike R E ps ps') (hl : Piece.Led ps)
    (slots aliases : Nat) :
    (String.join (texts style slots aliases ps)).toList.head? ≠ some '\'' := by
  induction h generalizing slots aliases with
  | nil => exact nofun
  | @cons p _ ps _ hp _ ih =>
      cases hp with
      | quoted => exact hl.elim
      | same hp =>
          obtain ⟨slots', aliases', htexts⟩ := exists_texts_cons style slots aliases p
          rw [htexts, String.join_cons, String.toList_append, List.head?_append]
          cases hsilent : p.isSilent with
          | true =>
              rw [Piece.text_of_silent hsilent]
              refine ih ?_ slots' aliases'
              cases p with
              | quoted => exact hp.elim
              | _ => exact hl hsilent
          | false =>
              obtain ⟨c, cs, hcs⟩ := List.exists_cons_of_ne_nil
                (mt String.toList_eq_nil_iff.1 (Piece.text_ne_empty hsilent style slots aliases))
              have hmem : '\'' ∉ c :: cs := hcs ▸ Piece.unquoted_text hp style slots aliases
              rw [hcs]
              rintro ⟨rfl⟩
              exact hmem (List.mem_cons_self ..)

end Translation

/-- The texts outside of the regions are the same, and the regions come from the same places. -/
structure QuotedText.Alike (R : SqlValue → SqlValue → Prop) (E : Char → Char → Prop)
    (q q' : QuotedText) : Prop where
  head : q.head = q'.head
  tail : List.Forall₂ (fun r r' => RegionAlike R E r.1 r'.1 ∧ r.2 = r'.2) q.tail q'.tail

namespace QuotedText.Alike

variable {q q' : QuotedText}

theorem behindText (cs : List Char) (h : q.Alike R E q') :
    (q.behindText cs).Alike R E (q'.behindText cs) :=
  ⟨congrArg (cs ++ ·) h.head, h.tail⟩

theorem behindRegion {cs cs' : List Char} (hr : RegionAlike R E cs cs') (h : q.Alike R E q') :
    (q.behindRegion cs).Alike R E (q'.behindRegion cs') :=
  ⟨rfl, .cons ⟨hr, h.head⟩ h.tail⟩

theorem outside (h : q.Alike R E q') : q.outside = q'.outside := by
  have htail : q.tail.map (·.2) = q'.tail.map (·.2) :=
    List.forall₂_eq_eq_eq ▸ List.forall₂_map_left_iff.2 (List.forall₂_map_right_iff.2
      (h.tail.imp fun _ _ hr => hr.2))
  rw [QuotedText.outside, QuotedText.outside, h.head, htail]

theorem regions (h : q.Alike R E q') : List.Forall₂ (RegionAlike R E) q.regions q'.regions :=
  List.forall₂_map_left_iff.2 (List.forall₂_map_right_iff.2 (h.tail.imp fun _ _ hr => hr.1))

end QuotedText.Alike

/-- The texts of alike pieces read back with the pieces' regions, as no region touches another. -/
theorem Translation.read_texts (style : PlaceholderStyle) {ps ps' : List Piece}
    (h : Piece.AllAlike R E ps ps') (hs : Piece.Spaced ps) (slots aliases : Nat) :
    ∃ q q', QuotedText.read none (String.join (texts style slots aliases ps)).toList = some q ∧
      QuotedText.read none (String.join (texts style slots aliases ps')).toList = some q' ∧
      q.Alike R E q' := by
  induction h generalizing slots aliases with
  | nil => exact ⟨_, _, rfl, rfl, rfl, .nil⟩
  | @cons p p' ps ps' hp hps ih =>
      cases hp with
      | same hp =>
          obtain ⟨slots', aliases', htexts⟩ := exists_texts_cons style slots aliases p
          obtain ⟨q, q', hq, hq', halike⟩ := ih (hs.tail hp) slots' aliases'
          have htext := Piece.unquoted_text hp style slots aliases
          refine ⟨_, _, ?_, ?_, halike.behindText (p.text style slots aliases).toList⟩
          · rw [htexts, String.join_cons, String.toList_append, QuotedText.read_text htext, hq]
            rfl
          · rw [htexts, String.join_cons, String.toList_append, QuotedText.read_text htext, hq']
            rfl
      | @quoted s s' hr =>
          obtain ⟨q, q', hq, hq', halike⟩ := ih hs.2 slots aliases
          have hhead := head_ne_quote style hps hs.1 slots aliases
          have hhead' := head_ne_quote style (Piece.AllAlike.flip hps) (hs.1.of_allAlike hps)
            slots aliases
          have htexts (s : String) (ps : List Piece) : texts style slots aliases (.quoted s :: ps) =
              quoted s :: texts style slots aliases ps := rfl
          refine ⟨_, _, ?_, ?_, halike.behindRegion hr⟩
          · rw [htexts, String.join_cons, String.toList_append, QuotedText.read_quoted s hhead, hq]
            rfl
          · rw [htexts, String.join_cons, String.toList_append, QuotedText.read_quoted s' hhead',
              hq']
            rfl

end DialectSql
