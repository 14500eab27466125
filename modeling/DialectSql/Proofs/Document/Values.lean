import DialectSql.Ast.Document
import DialectSql.Proofs.Document.Carrying
import DialectSql.Proofs.Document.Timestamp

namespace DialectSql

open Json

/-- The value has a document form that says all of it. That of a float is not claimed to. -/
def SqlValue.IsExact : SqlValue → Prop
  | .float _ => False
  | .timestamp t => t.IsExpressible
  | _ => True

theorem carries_below {α : Type} {ofNat : Nat → α} {bound n : Nat} {a : α} (hn : n < bound)
    (hbound : bound ≤ 0x10000000000000000) (ha : ofNat n = a) :
    Carries (fun _ _ j => (natBelow? bound j).map ofNat) (.int n) a := by
  refine .leaf ⟨by omega, by omega⟩ nofun ?_
  simp [natBelow?, int?, hn, ha]

theorem carries_uint8 (n : UInt8) : Carries (fun _ _ => uint8?) (.int n.toNat) n :=
  carries_below n.toNat_lt_size (by decide) UInt8.ofNat_toNat

theorem carries_uint16 (n : UInt16) : Carries (fun _ _ => uint16?) (.int n.toNat) n :=
  carries_below n.toNat_lt_size (by decide) UInt16.ofNat_toNat

theorem carries_uint32 (n : UInt32) : Carries (fun _ _ => uint32?) (.int n.toNat) n :=
  carries_below n.toNat_lt_size (by decide) UInt32.ofNat_toNat

theorem carriesOption_uint32 (n : Option UInt32) :
    CarriesOption (fun _ _ => uint32?) (.ofOption (fun n => .int n.toNat) n) n :=
  carriesOption_ofOption fun n _ => carries_uint32 n

theorem carries_uint64 (n : UInt64) : Carries (fun _ _ => uint64?) (.int n.toNat) n :=
  carries_below n.toNat_lt_size (by decide) UInt64.ofNat_toNat

theorem int64?_toInt (n : Int64) : int64? (.int n.toInt) = some n := by
  rw [int64?, int?, Option.bind_eq_bind, Option.bind_some,
    if_pos ⟨n.minValue_le_toInt, n.toInt_le⟩, Int64.ofInt_toInt]

theorem carries_int64 (n : Int64) : Carries (fun _ _ => int64?) (.int n.toInt) n := by
  have hlow : -0x8000000000000000 ≤ n.toInt := n.minValue_le_toInt
  have hhigh : n.toInt ≤ 0x7fffffffffffffff := n.toInt_le
  exact .leaf ⟨by omega, by omega⟩ nofun (int64?_toInt n)

theorem carries_bytes (bytes : List UInt8) :
    Carries (fun _ n => list? n fun _ => uint8?) (.array (bytes.map fun b => .int b.toNat)) bytes :=
  carries_list (carries_map bytes fun b _ => carries_uint8 b)

/-- A value with an exact form is carried by it. -/
theorem SqlValue.carries {v : SqlValue} (h : v.IsExact) : Carries SqlValue.ofJson? v.toJson v := by
  cases v with
  | null => exact ⟨trivial, nofun, fun _ n _ => by cases n <;> rfl⟩
  | bool b => exact .tagged trivial fun l m _ => rfl
  | int n =>
      refine .tagged (carries_int64 n).plain fun l m _ => ?_
      simp [variant, SqlValue.ofJson?, (carries_int64 n).value]
  | float => exact h.elim
  | text s => exact .tagged trivial fun l m _ => rfl
  | blob bytes =>
      refine .tagged (carries_bytes bytes).plain fun l m hm => ?_
      simp [variant, SqlValue.ofJson?, (carries_bytes bytes).reads l m hm]
  | timestamp t =>
      have hparse := Timestamp.parse?_documentText (Timestamp.isExpressible_iff.1 h)
      refine .tagged trivial fun l m _ => ?_
      simp [variant, SqlValue.ofJson?, string?, hparse]

/-- The property holds of the value of the slot, if it has one. -/
def BindSlot.Each (P : SqlValue → Prop) : BindSlot → Prop
  | .value v => P v
  | .column .. => True

theorem BindSlot.carries {s : BindSlot} (h : s.Each SqlValue.IsExact) :
    Carries BindSlot.ofJson? s.toJson s := by
  cases s with
  | value v =>
      have hv := SqlValue.carries h
      refine .tagged hv.plain fun l m hm => ?_
      simp [variant, BindSlot.ofJson?, hv.reads l m hm]
  | column table column usage =>
      have husage := carries_constant ParameterUsage.all ParameterUsage.name usage
        (by cases usage <;> rfl)
      refine .variant ⟨trivial, trivial, husage.plain, trivial⟩ fun l m hm => ?_
      simp [variant, BindSlot.ofJson?, fields?, (carries_string table).field l "table" hm rfl,
        (carries_string column).field l "column" hm rfl, husage.field l "usage" hm rfl]

/-- The name of a constant, unless it says more than that. -/
theorem carries_constantName {α : Type} {read : Reading α} {values : List α} {name : α → String}
    {a : α} (hread : ∀ l n s, read l n (.string s) = constant? values name l n (.string s))
    (h : values.find? (name · == name a) = some a) : Carries read (.string (name a)) a :=
  ⟨trivial, nofun, fun l n hn =>
    (hread l n _).trans ((carries_constant values name a h).reads l n hn)⟩

theorem DataType.carries (t : DataType) : Carries DataType.ofJson? t.toJson t := by
  cases t with
  | decimal precision scale =>
      have hprecision : CarriesOption (fun _ _ => uint16?) _ precision :=
        carriesOption_ofOption fun n _ => carries_uint16 n
      have hscale : CarriesOption (fun _ _ => uint16?) _ scale :=
        carriesOption_ofOption fun n _ => carries_uint16 n
      refine .variant ⟨hprecision.plain, hscale.plain, trivial⟩ fun l m hm => ?_
      simp [variant, DataType.ofJson?, fields?, hprecision.optional l "precision" hm rfl,
        hscale.optional l "scale" hm rfl]
  | char length =>
      refine .tagged (carriesOption_uint32 length).plain fun l m hm => ?_
      simp [variant, DataType.ofJson?, (carriesOption_uint32 length).option? l hm]
  | varchar length =>
      refine .tagged (carriesOption_uint32 length).plain fun l m hm => ?_
      simp [variant, DataType.ofJson?, (carriesOption_uint32 length).option? l hm]
  | custom name => exact .tagged trivial fun l m _ => rfl
  | _ => exact carries_constantName (fun l n s => by cases n <;> rfl) rfl

theorem FrameBound.carries (b : FrameBound) : Carries FrameBound.ofJson? b.toJson b := by
  cases b with
  | preceding n =>
      refine .tagged (carries_uint64 n).plain fun l m _ => ?_
      simp [variant, FrameBound.ofJson?, (carries_uint64 n).value]
  | following n =>
      refine .tagged (carries_uint64 n).plain fun l m _ => ?_
      simp [variant, FrameBound.ofJson?, (carries_uint64 n).value]
  | _ => exact carries_constantName (fun l n s => by cases n <;> rfl) rfl

theorem WindowFrame.carries (f : WindowFrame) : Carries WindowFrame.ofJson? f.toJson f := by
  have hunit := carries_constant FrameUnit.all FrameUnit.name f.unit (by cases f.unit <;> rfl)
  have hstart := f.start.carries
  have hstop : CarriesOption FrameBound.ofJson? _ f.stop :=
    carriesOption_ofOption fun b _ => b.carries
  refine .object ⟨hunit.plain, hstart.plain, hstop.plain, trivial⟩ fun l m hm => ?_
  simp [WindowFrame.ofJson?, record?, hunit.field l "unit" hm rfl, hstart.field l "start" hm rfl,
    hstop.optional l "end" hm rfl]

theorem NamedTable.carries (t : NamedTable) : Carries NamedTable.ofJson? t.toJson t := by
  have hschema := carriesOption_string t.schema
  refine .object ⟨hschema.plain, trivial, trivial⟩ fun l m hm => ?_
  simp [NamedTable.ofJson?, record?, hschema.optional l "schema" hm rfl,
    (carries_string t.name).field l "name" hm rfl]

end DialectSql
