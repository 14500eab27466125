import DialectSql.Json.Member
import DialectSql.Proofs.Document.Printed

namespace DialectSql.Json

variable {α : Type} {read : Reading α}

/-- The value is read from the document, with any latitude and as soon as the levels suffice, and
the document from its text. -/
structure Carries (read : Reading α) (j : Json) (a : α) : Prop where
  plain : j.Plain
  given : j ≠ .null
  reads : ∀ l n, j.depth ≤ n → read l n j = some a

/-- What a field carries that may be null. -/
def CarriesOption (read : Reading α) (j : Json) : Option α → Prop
  | none => j = .null
  | some a => Carries read j a

theorem carriesOption_ofOption {f : α → Json} {a : Option α} (h : ∀ b ∈ a, Carries read (f b) b) :
    CarriesOption read (.ofOption f a) a := by
  cases a with
  | none => rfl
  | some a => exact h a rfl

theorem CarriesOption.plain {j : Json} {a : Option α} (h : CarriesOption read j a) : j.Plain := by
  cases a with
  | none =>
      obtain rfl := h
      trivial
  | some a => exact Carries.plain h

/-- A document without brackets. -/
theorem Carries.leaf {a : α} {read : Json → Option α} {j : Json} (hplain : j.Plain)
    (hgiven : j ≠ .null) (h : read j = some a) : Carries (fun _ _ => read) j a :=
  ⟨hplain, hgiven, fun _ _ _ => h⟩

theorem Carries.value {a : α} {read : Json → Option α} {j : Json}
    (h : Carries (fun _ _ => read) j a) : read j = some a := h.reads .strict j.depth le_rfl

theorem membersDepth_le {ms : Record} {n : Nat} :
    membersDepth ms ≤ n ↔ ∀ m ∈ ms, m.2.depth ≤ n := by
  induction ms with
  | nil => simp [membersDepth]
  | cons m ms ih => rw [membersDepth, Nat.max_le, ih, List.forall_mem_cons]

theorem itemsDepth_le {js : List Json} {n : Nat} : itemsDepth js ≤ n ↔ ∀ j ∈ js, j.depth ≤ n := by
  induction js with
  | nil => simp [itemsDepth]
  | cons j js ih => rw [itemsDepth, Nat.max_le, ih, List.forall_mem_cons]

section

variable {ms : Record} {m : Nat} {j : Json} {name : String}

theorem depth_le_of_named (hm : ∀ x ∈ ms, x.2.depth ≤ m) (hn : ms.named name = [j]) :
    j.depth ≤ m := by
  have hmem : j ∈ ms.named name := by simp [hn]
  simp only [Record.named, List.mem_map, List.mem_filter] at hmem
  obtain ⟨x, ⟨hx, -⟩, rfl⟩ := hmem
  exact hm x hx

theorem Carries.field {a : α} (h : Carries read j a) (l : Latitude) (name : String)
    (hm : ∀ x ∈ ms, x.2.depth ≤ m) (hn : ms.named name = [j]) :
    ms.field name (read l m) = some a := by
  rw [Record.field, hn]
  exact h.reads l m (depth_le_of_named hm hn)

theorem CarriesOption.option? {a : Option α} (h : CarriesOption read j a) (l : Latitude)
    (hm : j.depth ≤ m) : Json.option? (read l m) j = some a := by
  cases a with
  | none =>
      obtain rfl := h
      rfl
  | some a =>
      have hread := Carries.reads h l m hm
      have hgiven := Carries.given h
      cases j with
      | null => exact absurd rfl hgiven
      | _ => simp [Json.option?, hread]

theorem optional_of_named {read : Json → Option α} (hn : ms.named name = [j]) :
    ms.optional name read = Json.option? read j := by
  rw [Record.optional, hn]
  cases j <;> rfl

theorem CarriesOption.optional {a : Option α} (h : CarriesOption read j a) (l : Latitude)
    (name : String) (hm : ∀ x ∈ ms, x.2.depth ≤ m) (hn : ms.named name = [j]) :
    ms.optional name (read l m) = some a :=
  (optional_of_named hn).trans (h.option? l (depth_le_of_named hm hn))

end

section

variable {a : α} {tag : String} {body : Json} {ms : Record}

theorem Carries.object (hplain : MembersPlain ms)
    (h : ∀ l m, (∀ x ∈ ms, x.2.depth ≤ m) → read l (m + 1) (.object ms) = some a) :
    Carries read (.object ms) a where
  plain := hplain
  given := nofun
  reads l n hn := by
    cases n with
    | zero => exact absurd hn (Nat.not_succ_le_zero _)
    | succ m => exact h l m (membersDepth_le.1 (Nat.le_of_succ_le_succ hn))

theorem Carries.tagged (hplain : body.Plain)
    (h : ∀ l m, body.depth ≤ m → read l (m + 1) (variant tag body) = some a) :
    Carries read (variant tag body) a :=
  .object ⟨hplain, trivial⟩ fun l m hm => h l m (hm (tag, body) List.mem_cons_self)

/-- A variant with named fields. -/
theorem Carries.variant (hplain : MembersPlain ms)
    (h : ∀ l m, (∀ x ∈ ms, x.2.depth ≤ m) → read l (m + 2) (variant tag (.object ms)) = some a) :
    Carries read (variant tag (.object ms)) a :=
  .tagged hplain fun l m hm => by
    cases m with
    | zero => exact absurd hm (Nat.not_succ_le_zero _)
    | succ m => exact h l m (membersDepth_le.1 (Nat.le_of_succ_le_succ hm))

theorem Carries.array {js : List Json} (hplain : ItemsPlain js)
    (h : ∀ l m, (∀ j ∈ js, j.depth ≤ m) → read l (m + 1) (.array js) = some a) :
    Carries read (.array js) a where
  plain := hplain
  given := nofun
  reads l n hn := by
    cases n with
    | zero => exact absurd hn (Nat.not_succ_le_zero _)
    | succ m => exact h l m (itemsDepth_le.1 (Nat.le_of_succ_le_succ hn))

/-- A variant that is a list. -/
theorem Carries.listed {js : List Json} (hplain : ItemsPlain js)
    (h : ∀ l m, (∀ j ∈ js, j.depth ≤ m) → read l (m + 2) (Json.variant tag (.array js)) = some a) :
    Carries read (Json.variant tag (.array js)) a :=
  .tagged hplain fun l m hm => by
    cases m with
    | zero => exact absurd hm (Nat.not_succ_le_zero _)
    | succ m => exact h l m (itemsDepth_le.1 (Nat.le_of_succ_le_succ hm))

theorem carries_string (s : String) : Carries (fun _ _ => string?) (.string s) s :=
  .leaf trivial nofun rfl

theorem carries_bool (b : Bool) : Carries (fun _ _ => bool?) (.bool b) b := .leaf trivial nofun rfl

theorem carries_constant (values : List α) (name : α → String) (a : α)
    (h : values.find? (name · == name a) = some a) :
    Carries (constant? values name) (.string (name a)) a :=
  ⟨trivial, nofun, fun _ n _ => by cases n <;> exact h⟩

theorem carriesOption_string (s : Option String) :
    CarriesOption (fun _ _ => string?) (.ofOption .string s) s :=
  carriesOption_ofOption fun s _ => carries_string s

theorem carries_char (c : Char) : Carries (fun _ _ => char?) (.string c.toString) c :=
  .leaf trivial nofun (by simp [char?, Char.toString_eq_singleton])

end

section

variable {js : List Json} {as : List α}

theorem plain_of_carries (h : List.Forall₂ (Carries read) js as) : ItemsPlain js := by
  induction h with
  | nil => trivial
  | cons h _ ih => exact ⟨h.plain, ih⟩

theorem mapM_of_carries {l : Latitude} {m : Nat} (h : List.Forall₂ (Carries read) js as)
    (hm : ∀ j ∈ js, j.depth ≤ m) : js.mapM (read l m) = some as := by
  induction h with
  | nil => rfl
  | cons h _ ih =>
      rw [List.forall_mem_cons] at hm
      simp [h.reads l m hm.1, ih hm.2]

/-- A list of documents carries the values of its items, for any reader of lists that reads them
one level below. -/
theorem carries_items {readAll : Reading (List α)}
    (hread : ∀ l m js, readAll l (m + 1) (.array js) = js.mapM (read l m))
    (h : List.Forall₂ (Carries read) js as) : Carries readAll (.array js) as :=
  .array (plain_of_carries h) fun l m hm => (hread l m js).trans (mapM_of_carries h hm)

theorem carries_list (h : List.Forall₂ (Carries read) js as) :
    Carries (fun l n => list? n (read l)) (.array js) as := carries_items (fun _ _ _ => rfl) h

theorem carries_map {f : α → Json} (as : List α) (h : ∀ a ∈ as, Carries read (f a) a) :
    List.Forall₂ (Carries read) (as.map f) as := by
  rw [List.forall₂_map_left_iff, List.forall₂_same]
  exact h

theorem carries_strings (ss : List String) : Carries (fun _ => strings?) (.strings ss) ss :=
  carries_list (carries_map ss fun s _ => carries_string s)

end

end DialectSql.Json
