import DialectSql.Proofs.Store.Commands
import DialectSql.Render.Translation

namespace DialectSql.Store

open Token

/-- A piece whose text is the same wherever it stands, but for the number of a placeholder. -/
def isSteady : Piece → Bool
  | .derivedAlias => false
  | _ => true

/-- The characters of the pieces that stand behind `slots` placeholders. -/
def textOf (style : PlaceholderStyle) (slots : Nat) : List Piece → List Char
  | [] => []
  | .slot s :: ps => ((Piece.slot s).text style slots 0).toList ++ textOf style (slots + 1) ps
  | p :: ps => (p.text style slots 0).toList ++ textOf style slots ps

theorem toList_texts (style : PlaceholderStyle) (slots aliases : Nat) {ps : List Piece}
    (h : ps.all isSteady = true) :
    (String.join (Translation.texts style slots aliases ps)).toList = textOf style slots ps := by
  induction ps generalizing slots with
  | nil => rfl
  | cons p ps ih =>
      simp only [List.all_cons, Bool.and_eq_true] at h
      have htail (n : Nat) := ih n h.2
      cases p with
      | derivedAlias => cases h.1
      | _ => simp [Translation.texts, htail, textOf, Piece.text]

theorem toList_sql (style : PlaceholderStyle) {ps : List Piece} (h : ps.all isSteady = true) :
    (Translation.sql style ps).toList = textOf style 0 ps := toList_texts style 0 0 h

/-- The pieces are read as the tokens, wherever they stand. -/
def Lexes (style : PlaceholderStyle) (ps : List Piece) (ts : List Token) : Prop :=
  ∀ slots, Token.read .between (textOf style slots ps) = written style slots ts

def EndsWord (style : PlaceholderStyle) (ps : List Piece) : Prop :=
  ∀ slots, endsWord (textOf style slots ps) = true

variable {style : PlaceholderStyle}

theorem endsWord_nil : EndsWord style [] := fun _ => rfl

/-- A text behind which a name ends. -/
def separates (w : String) : Bool := w.toList.head?.any fun c => endsWord [c]

theorem endsWord_word {w : String} (h : separates w = true) (ps : List Piece) :
    EndsWord style (.word w :: ps) := by
  intro slots
  change endsWord (w.toList ++ _) = true
  rw [separates] at h
  cases hw : w.toList with
  | nil => simp [hw] at h
  | cons c cs =>
      rw [hw] at h
      exact h

namespace Lexes

variable {ps : List Piece} {ts : List Token}

theorem nil : Lexes style [] [] := by
  intro slots
  cases style <;> rfl

theorem word {w : String} (us : List Token)
    (hw : readOn .between w.toList = some (us, .between)) (hplain : us.all isPlain = true)
    (h : Lexes style ps ts) : Lexes style (.word w :: ps) (us ++ ts) := by
  intro slots
  rw [← written_append style slots hplain, ← h slots]
  exact read_fixed w.toList hw

theorem name {n : String} (hn : isIdentifier n = true) (hend : EndsWord style ps)
    (h : Lexes style ps ts) : Lexes style (.name n :: ps) (.word n :: ts) := by
  intro slots
  have hread := read_word (isWordText_of_isIdentifier hn) (hend slots)
  rw [String.ofList_toList] at hread
  have hplain : [Token.word n].all isPlain = true := rfl
  have hwritten := written_append style slots hplain ts
  rw [← h slots] at hwritten
  exact hread.trans hwritten

theorem table {n : String} (hn : isIdentifier n = true) (hend : EndsWord style ps)
    (h : Lexes style ps ts) : Lexes style (.table n :: ps) (.word n :: ts) := name hn hend h

theorem slot (s : BindSlot) (hend : EndsWord style ps) (h : Lexes style ps ts) :
    Lexes style (.slot s :: ps) (.placeholder none :: ts) := by
  intro slots
  have hrest := h (slots + 1)
  cases style with
  | question =>
      have htext : textOf .question slots (.slot s :: ps) = '?' :: textOf .question (slots + 1) ps := by
        simp [textOf, Piece.text, PlaceholderStyle.render]
      rw [htext, read_placeholder, hrest]
      rfl
  | dollar =>
      have htext : textOf .dollar slots (.slot s :: ps) =
          '$' :: ((slots + 1).repr.toList ++ textOf .dollar (slots + 1) ps) := by
        simp [textOf, Piece.text, PlaceholderStyle.render, -Nat.toList_repr]
      rw [htext, read_position (hend (slots + 1)), hrest]
      rfl
  | colon =>
      have htext : textOf .colon slots (.slot s :: ps) =
          ':' :: ((slots + 1).repr.toList ++ textOf .colon (slots + 1) ps) := by
        simp [textOf, Piece.text, PlaceholderStyle.render, -Nat.toList_repr]
      rw [htext, read_colon]
      rfl

theorem intercalate {α : Type} (us : List Token) (separator : String) (as : List α)
    (items : α → List Piece) (tokens : α → List Token)
    (hseparator : readOn .between separator.toList = some (us, .between))
    (hplain : us.all isPlain = true) (hends : separates separator = true)
    (hitems : ∀ a ∈ as, ∀ ps ts, EndsWord style ps → Lexes style ps ts →
      Lexes style (items a ++ ps) (tokens a ++ ts))
    (hend : EndsWord style ps) (h : Lexes style ps ts) :
    Lexes style ([.word separator].intercalate (as.map items) ++ ps)
      (us.intercalate (as.map tokens) ++ ts) := by
  induction as with
  | nil => exact h
  | cons a as ih =>
      have ha := hitems a (List.mem_cons_self ..)
      cases as with
      | nil =>
          simp only [List.map_cons, List.map_nil, List.intercalate_singleton]
          exact ha ps ts hend h
      | cons b bs =>
          have hbs := ih fun c hc => hitems c (List.mem_cons_of_mem _ hc)
          have hrest := word us hseparator hplain hbs
          simp only [List.map_cons] at hrest
          simp only [List.map_cons, List.intercalate_cons_cons, List.append_assoc,
            List.singleton_append]
          exact ha _ _ (endsWord_word hends _) hrest

end Lexes

theorem all_intercalate {α : Type} {f : α → Bool} {separator : List α} {xss : List (List α)}
    (hs : separator.all f = true) (h : ∀ xs ∈ xss, xs.all f = true) :
    (separator.intercalate xss).all f = true := by
  induction xss with
  | nil => rfl
  | cons xs xss ih =>
      have hxs := h xs (List.mem_cons_self ..)
      cases xss with
      | nil => rwa [List.intercalate_singleton]
      | cons ys yss =>
          have hyss := ih fun zs hzs => h zs (List.mem_cons_of_mem _ hzs)
          rw [List.intercalate_cons_cons, List.all_append, List.all_append, hxs, hs, hyss]
          rfl

/-- A text is read with its placeholders numbered, or not at all. -/
theorem ofText?_sql {ps : List Piece} (hsteady : ps.all isSteady = true) {ts : List Token}
    (h : Lexes style ps ts) :
    Token.ofText? (Translation.sql style ps) = some (numberPlaceholders 1 ts) ∨
      style = .colon ∧ Token.ofText? (Translation.sql style ps) = none := by
  rw [Token.ofText?, toList_sql style hsteady, h 0]
  refine (written_numbered style ts).imp id (And.imp id fun hnone => ?_)
  rw [hnone]
  rfl

end DialectSql.Store
