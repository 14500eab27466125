import DialectSql.Proofs.Condition.Parts
import DialectSql.Proofs.Output

namespace DialectSql

open Lexeme

/-- What is read of a text: its last unit and the brackets that are open, the innermost first, each
with whether commas may stand in it. -/
structure RowScan where
  last : Option Lexeme
  brackets : List Bool

namespace RowScan

/-- A list stands behind `in`, behind the name of a function and behind the words of a grouping. -/
def announcesList : Option Lexeme → Bool
  | some (.unit _) => true
  | some (.word w) => ["in", "rollup", "cube"].contains w
  | _ => false

/-- A query and a window list behind these words. -/
def startsList (w : String) : Bool := ["select", "by"].contains w

/-- A comma in brackets that list nothing is that of a row, and is not read. -/
def step (s : RowScan) (l : Lexeme) : Option RowScan :=
  match l with
  | .opening _ => some ⟨l, announcesList s.last :: s.brackets⟩
  | .closing _ => s.brackets.head?.map fun _ => ⟨l, s.brackets.tail⟩
  | .mark m => if m = "," ∧ s.brackets.head? = some false then none else some ⟨l, s.brackets⟩
  | .word w => some ⟨l, if startsList w then s.brackets.modifyHead fun _ => true else s.brackets⟩
  | _ => some ⟨l, s.brackets⟩

def scan (s : RowScan) (ls : List Lexeme) : Option RowScan := ls.foldlM step s

theorem scan_append (s : RowScan) (ls ms : List Lexeme) :
    s.scan (ls ++ ms) = (s.scan ls).bind fun t => t.scan ms := List.foldlM_append

/-- A unit that leaves the brackets as they are, in brackets with a list if `listing`. -/
def passes (listing : Bool) : Lexeme → Bool
  | .opening _ | .closing _ => false
  | .mark m => listing || m != ","
  | .word w => listing || !startsList w
  | _ => true

theorem step_passes {listing : Bool} {l : Lexeme} (h : passes listing l = true) {s : RowScan}
    (hs : listing = true → s.brackets.head? = some true) : s.step l = some ⟨l, s.brackets⟩ := by
  cases l with
  | opening | closing => cases h
  | number | unit => rfl
  | word w =>
      simp only [step, Option.some.injEq, RowScan.mk.injEq, true_and, ite_eq_right_iff]
      intro hstart
      have hlisting : listing = true := by simpa [passes, hstart] using h
      obtain ⟨bs, hbs⟩ := List.head?_eq_some_iff.1 (hs hlisting)
      rw [hbs, List.modifyHead_cons]
  | mark m =>
      rw [step, if_neg]
      rintro ⟨rfl, hrow⟩
      simp_all [passes]

end RowScan

namespace Output

open RowScan

theorem lexemes_between {o : Output} (hok : o.failure = none) (w v : String) :
    Lexeme.ofPieces (.word w ++ o ++ .word v : Output).pieces =
      ofWord w ++ Lexeme.ofPieces o.pieces ++ ofWord v := by
  have hleft : (Output.word w ++ o).failure = none := failure_append_eq_none.2 ⟨rfl, hok⟩
  rw [pieces_append hleft, pieces_append rfl, ofPieces_append, ofPieces_append, pieces_word,
    pieces_word, ofPieces_word, ofPieces_word]

/-- The text closes what it opens and has no row, wherever it stands. Where `listing`, commas may
stand in it outside of its own brackets. -/
def Keeps (listing : Bool) (o : Output) : Prop :=
  o.failure = none → ∀ s : RowScan, (listing = true → s.brackets.head? = some true) →
    ∃ last, s.scan (Lexeme.ofPieces o.pieces) = some ⟨last, s.brackets⟩

abbrev Rowless (o : Output) : Prop := o.Keeps false

/-- The word opens a bracket, in which commas may stand if `listing`. -/
def Opens (listing : Bool) (w : String) : Prop :=
  ∀ s : RowScan, ∃ last top, s.scan (ofWord w) = some ⟨last, top :: s.brackets⟩ ∧
    (listing = true → top = true)

namespace Keeps

variable {listing : Bool} {a b o : Output} {w : String}

theorem empty : Keeps listing .empty := fun _ s _ => ⟨s.last, rfl⟩

theorem fail (e : TranslateError) : Keeps listing (.fail e) := nofun

theorem append (ha : Keeps listing a) (hb : Keeps listing b) : Keeps listing (a ++ b) := by
  intro hok s hs
  obtain ⟨haok, hbok⟩ := failure_append_eq_none.1 hok
  obtain ⟨last, hscan⟩ := ha haok s hs
  obtain ⟨last', hscan'⟩ := hb hbok ⟨last, s.brackets⟩ hs
  refine ⟨last', ?_⟩
  rw [pieces_append haok, ofPieces_append, scan_append, hscan, Option.bind_some, hscan']

/-- What has no row may stand in a list. -/
theorem listed (h : o.Rowless) : Keeps listing o := fun hok s _ => h hok s nofun

theorem scan_passes {ls : List Lexeme} (h : ls.all (passes listing) = true) {s : RowScan}
    (hs : listing = true → s.brackets.head? = some true) :
    ∃ last, s.scan ls = some ⟨last, s.brackets⟩ := by
  induction ls generalizing s with
  | nil => exact ⟨s.last, rfl⟩
  | cons l ls ih =>
      simp only [List.all_cons, Bool.and_eq_true] at h
      obtain ⟨last, hscan⟩ := ih h.2 (s := ⟨l, s.brackets⟩) hs
      refine ⟨last, ?_⟩
      rw [scan, List.foldlM_cons, step_passes h.1 hs]
      exact hscan

theorem word (h : (ofWord w).all (passes listing) = true) : Keeps listing (.word w) := by
  intro _ s hs
  rw [pieces_word, ofPieces_word]
  exact scan_passes h hs

theorem name (n : String) : Keeps listing (.name n) := fun _ _ _ => ⟨some (.unit (.name n)), rfl⟩

theorem require (condition : Bool) (e : TranslateError) : Keeps listing (.require condition e) := by
  cases condition
  · exact fail e
  · exact empty

theorem checkArity (m n : Nat) : Keeps listing (DialectSql.checkArity m n) := require _ _

theorem when (condition : Bool) (h : Keeps listing o) : Keeps listing (.when condition o) := by
  cases condition
  · exact empty
  · exact h

theorem joined {separator : String} (hs : (ofWord separator).all (passes listing) = true)
    {os : List Output} (h : ∀ o ∈ os, Keeps listing o) : Keeps listing (.joined separator os) := by
  induction os with
  | nil => exact empty
  | cons o os ih =>
      have hrest := ih fun p hp => h p (List.mem_cons_of_mem o hp)
      cases os with
      | nil => exact h o (by simp)
      | cons p os => exact ((h o (by simp)).append (word hs)).append hrest

theorem list {os : List Output} (h : ∀ o ∈ os, o.Rowless) : Keeps true (.list os) :=
  joined rfl fun o ho => (h o ho).listed

theorem concat {os : List Output} (h : ∀ o ∈ os, Keeps listing o) : Keeps listing (.concat os) := by
  induction os with
  | nil => exact empty
  | cons o os ih => exact (h o (by simp)).append (ih fun p hp => h p (List.mem_cons_of_mem o hp))

/-- What stands in brackets decides by itself, and the brackets are closed. -/
theorem enclosed {inner : Bool} (hw : Opens inner w) (h : Keeps inner o) :
    Keeps listing (.word w ++ o ++ .word ")") := by
  intro hok s _
  simp only [failure_append_eq_none] at hok
  obtain ⟨last, top, hopen, htop⟩ := hw s
  obtain ⟨last', hscan⟩ := h hok.1.2 ⟨last, top :: s.brackets⟩ fun hinner => by
    rw [List.head?_cons, htop hinner]
  refine ⟨some (.closing .paren), ?_⟩
  rw [lexemes_between hok.1.2, scan_append, scan_append, hopen, Option.bind_some, hscan,
    Option.bind_some]
  rfl

theorem append_enclosed {inner : Bool} (ha : Keeps listing a) (hw : Opens inner w)
    (h : Keeps inner o) : Keeps listing (a ++ .word w ++ o ++ .word ")") := by
  simpa only [append_assoc] using ha.append (enclosed hw h)

theorem opens_paren : Opens false "(" := fun _ => ⟨_, _, rfl, nofun⟩

theorem parenthesized (h : o.Rowless) : Keeps listing o.parenthesized := enclosed opens_paren h

end Keeps

/-- A row of several values is one that is found. -/
theorem not_rowless_row {o p : Output} {os : List Output} (ho : o.Rowless)
    (hok : (Output.list (o :: p :: os)).failure = none) :
    ¬(Output.list (o :: p :: os)).parenthesized.Rowless := by
  intro h
  obtain ⟨last, hscan⟩ := h (by simpa using hok) ⟨none, []⟩ nofun
  have hleft := (failure_append_eq_none.1 hok).1
  have hofirst := (failure_append_eq_none.1 hleft).1
  obtain ⟨last', hscan'⟩ := ho hofirst ⟨some (.opening .paren), [false]⟩ nofun
  rw [Output.parenthesized, lexemes_between hok, List.append_assoc, scan_append, Output.list,
    joined_cons_cons, pieces_append hleft, pieces_append hofirst, pieces_word, ofPieces_append,
    ofPieces_append, ofPieces_word, List.append_assoc, List.append_assoc] at hscan
  have hopen : RowScan.scan ⟨none, []⟩ (ofWord "(") = some ⟨some (.opening .paren), [false]⟩ := rfl
  have hcomma (ls : List Lexeme) : RowScan.scan ⟨last', [false]⟩ (ofWord ", " ++ ls) = none := rfl
  rw [hopen, Option.bind_some, scan_append, hscan', Option.bind_some, hcomma] at hscan
  cases hscan

end Output

end DialectSql
