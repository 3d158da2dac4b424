import EntityQuery.Proofs.Entity.Fields
import EntityQuery.Proofs.IdentifierText
import EntityQuery.Proofs.Time.Reading
/-!
# Reading entities back

An entity is read back from its JSON, whatever its fields are, as long as its doubles are
numbers. The same goes for JSON whose members stand in another order or beside others, and in
which instants are written with more digits than they need.

Null does not tell how many options are around nothing, and is read as the outermost of them. A
double is read as the number that stands in its place, which need not be the one that was
written.
-/

namespace EntityQuery

/-! ## Values -/

namespace FieldValue

/-- The value is not a double beyond all numbers. -/
def IsFinite : FieldValue → Prop
  | decimal x => x.isFinite = true
  | _ => True

/-- The value is written as JSON: an instant with any digits that lose nothing, and every other
value in its own form. -/
def IsWritten : FieldValue → Json → Prop
  | dateTime t, json =>
    ∃ style : FractionStyle, style.KeepsAll ∧ json = .str (String.ofList (t.write style))
  | v, json => json = v.toJson

theorem isWritten_toJson (v : FieldValue) : v.IsWritten v.toJson := by
  cases v with
  | dateTime t => exact ⟨.shortest, FractionStyle.keepsAll_shortest, rfl⟩
  | _ => rfl

end FieldValue

theorem Integer.ofInt?_toInt (n : Int64) : Integer.ofInt? n.toInt = some n := by
  have hlow := n.le_toInt
  have hhigh := n.toInt_lt
  rw [Integer.ofInt?, if_pos, Int64.ofInt_toInt]
  simp only [Integer.least, Integer.greatest]
  omega

theorem int32OfInt?_toInt (n : Int32) : int32OfInt? n.toInt = some n := by
  have hlow := n.le_toInt
  have hhigh := n.toInt_lt
  rw [int32OfInt?, if_pos (by omega), Int32.ofInt_toInt]

theorem Shape.decode?_of_isWritten {shape : Shape} {v : shape.Carrier} {json : Json}
    (hfinite : (shape.fieldValue v).IsFinite) (h : (shape.fieldValue v).IsWritten json) :
    shape.decode? json = some v := by
  cases shape with
  | instant =>
      obtain ⟨style, hstyle, rfl⟩ := h
      have hread : instant.decode? (.str (String.ofList (Instant.write style v))) =
          Instant.readLoose? (String.ofList (Instant.write style v)).toList := rfl
      rw [hread, String.toList_ofList]
      exact Instant.readLoose?_write hstyle v
  | uuid =>
      have hjson : json = .str (Uuid.toText v) := h
      have hread : uuid.decode? (.str (Uuid.toText v)) = Uuid.read? (Uuid.toText v).toList := rfl
      have htext : (Uuid.toText v).toList = Uuid.write v := String.toList_ofList
      rw [hjson, hread, htext]
      exact Uuid.read?_write v
  | date =>
      have hjson : json = .str (String.ofList (Date.write v)) := h
      have hread : date.decode? (.str (String.ofList (Date.write v))) =
          Date.readLoose? (String.ofList (Date.write v)).toList := rfl
      rw [hjson, hread, String.toList_ofList]
      exact Date.readLoose?_write v
  | int32 =>
      have hjson : json = int32.encode v := h.trans (encode_eq int32 v).symm
      rw [hjson]
      exact int32OfInt?_toInt v
  | int64 =>
      have hjson : json = .int (Int64.toInt v) := h
      rw [hjson]
      exact Integer.ofInt?_toInt v
  | double =>
      have hnumber : Binary64.isFinite v = true := hfinite
      have hjson : json = .float v := h.trans (if_pos hnumber)
      rw [hjson]
      rfl
  | choice constants =>
      have hjson : json = .str v.val := h
      rw [hjson]
      exact dif_pos v.property
  | text | boolean =>
      subst h
      rfl

/-! ## Columns -/

theorem Shape.decode?_null (shape : Shape) : shape.decode? .null = none := by
  cases shape <;> rfl

/-- What the column holds is a value, or nothing at all. -/
def Cell.IsFlat {c : Column} : Cell c → Prop
  | value _ => True
  | unset level _ => level = 0

theorem Cell.decode?_null_iff {c : Column} {level : Nat} {allowed : level < c.options} :
    decode? c (some .null) = some (.unset level allowed) ↔ level = 0 := by
  have hunset : decode? c (some .null) = some (.unset 0 (Nat.zero_lt_of_lt allowed)) :=
    dif_pos (Nat.zero_lt_of_lt allowed)
  rw [hunset, Option.some.injEq, unset.injEq]
  exact eq_comm

theorem Cell.decode?_value_iff {c : Column} {v : c.shape.Carrier} {json : Json} :
    decode? c (some json) = some (.value v) ↔ c.shape.decode? json = some v := by
  cases json with
  | null =>
      rw [Shape.decode?_null, decode?]
      split <;> simp
  | _ => simp [decode?]

/-- What a column holds is read back from what is written of it, unless it is nothing inside of
an option. -/
theorem Cell.decode?_iff_of_isWritten {c : Column} {cell : Cell c} {json : Json}
    (hfinite : cell.fieldValue.IsFinite) (h : cell.fieldValue.IsWritten json) :
    decode? c (some json) = some cell ↔ cell.IsFlat := by
  cases cell with
  | unset =>
      cases h
      exact decode?_null_iff
  | value v => exact iff_of_true (decode?_value_iff.2 (Shape.decode?_of_isWritten hfinite h)) trivial

theorem Cells.decode?_iff {members : List (String × Json)} {columns : List Column}
    {cells : Cells columns} :
    decode? members columns = some cells ↔
      ∀ {c : Column} {cell : Cell c}, cells.Has cell →
        Cell.decode? c (Assoc.lookup c.key members) = some cell := by
  induction cells with
  | nil => exact iff_of_true rfl nofun
  | @cons c rest cell cells ih =>
      simp only [decode?, Option.bind_eq_bind, Option.bind_eq_some_iff, Option.some.injEq,
        cons.injEq]
      constructor
      · rintro ⟨_, hfirst, _, hrest, rfl, rfl⟩ c' cell' (_ | hcell)
        · exact hfirst
        · exact ih.1 hrest hcell
      · intro h
        exact ⟨cell, h .head, cells, ih.2 fun hcell => h (.tail hcell), rfl, rfl⟩

/-! ## Entities -/

namespace Entity

variable {s : Schema} {e : Entity s}

/-- No double of the entity is beyond all numbers. -/
def HasFiniteNumbers (e : Entity s) : Prop :=
  ∀ name v, e.value? name = some v → v.IsFinite

/-- It is enough to look at the columns. -/
theorem hasFiniteNumbers_of_values (h : ∀ field ∈ e.cells.values, field.2.IsFinite) :
    e.HasFiniteNumbers :=
  fun _ _ hv => of_values (P := FieldValue.IsFinite) trivial trivial trivial h hv

/-- No column of the entity holds nothing inside of an option that is there. -/
def IsFlat (e : Entity s) : Prop :=
  ∀ {c : Column} {cell : Cell c}, e.cells.Has cell → cell.IsFlat

/-- Without options of options there is nothing else. -/
theorem isFlat_of_options (hs : ∀ c ∈ s.columns, c.options ≤ 1) (e : Entity s) : e.IsFlat := by
  intro c cell hcell
  cases cell with
  | value v => trivial
  | unset level allowed =>
      have hoptions := hs c hcell.mem
      show level = 0
      omega

theorem value?_of_has {c : Column} {cell : Cell c} (h : e.cells.Has cell) :
    e.value? c.name = some cell.fieldValue := by
  rw [e.value?_column h.mem]
  exact (Cells.value?_eq_some_iff s.nodup_columns).2 ⟨c, cell, h, rfl, rfl⟩

/-- Members from which the identifier and the instants are read give the entity exactly if they
give its cells. -/
theorem ofMembers?_iff {members : List (String × Json)}
    (hid : (Assoc.lookup "id" members).bind Shape.uuid.decode? = some e.id)
    (hcreated : (Assoc.lookup "created_at" members).bind Shape.instant.decode? =
      some e.createdAt)
    (hupdated : (Assoc.lookup "updated_at" members).bind Shape.instant.decode? =
      some e.updatedAt) :
    ofMembers? members = some e ↔ Cells.decode? members s.columns = some e.cells := by
  have hread : ofMembers? members = (Cells.decode? members s.columns).bind fun cells =>
      some { e with cells := cells } := by
    rw [ofMembers?, hid, hcreated, hupdated]
    rfl
  obtain ⟨id, created, updated, cells⟩ := e
  rw [hread]
  cases Cells.decode? members s.columns <;> simp

/-- Every field of the entity is a member with its value. -/
def IsWritten (e : Entity s) (members : List (String × Json)) : Prop :=
  ∀ name v, e.value? name = some v →
    ∃ json, Assoc.lookup (storedName name) members = some json ∧ v.IsWritten json

/-- An entity is read back from members that hold its values exactly if it has nothing inside of
an option. -/
theorem ofMembers?_iff_of_isWritten {members : List (String × Json)}
    (hfinite : e.HasFiniteNumbers) (h : e.IsWritten members) :
    ofMembers? members = some e ↔ e.IsFlat := by
  obtain ⟨id, hid, hidWritten⟩ := h "id" _ rfl
  obtain ⟨created, hcreated, hcreatedWritten⟩ := h "created_at" _ rfl
  obtain ⟨updated, hupdated, hupdatedWritten⟩ := h "updated_at" _ rfl
  rw [storedName_id] at hid
  rw [storedName_created_at] at hcreated
  rw [storedName_updated_at] at hupdated
  have hidRead : Shape.uuid.decode? id = some e.id :=
    Shape.decode?_of_isWritten trivial hidWritten
  have hcreatedRead : Shape.instant.decode? created = some e.createdAt :=
    Shape.decode?_of_isWritten trivial hcreatedWritten
  have hupdatedRead : Shape.instant.decode? updated = some e.updatedAt :=
    Shape.decode?_of_isWritten trivial hupdatedWritten
  rw [ofMembers?_iff (by rw [hid, Option.bind_some, hidRead])
    (by rw [hcreated, Option.bind_some, hcreatedRead])
    (by rw [hupdated, Option.bind_some, hupdatedRead]), Cells.decode?_iff]
  have hcell {c : Column} {cell : Cell c} (hhas : e.cells.Has cell) :
      Cell.decode? c (Assoc.lookup c.key members) = some cell ↔ cell.IsFlat := by
    have hv := e.value?_of_has hhas
    obtain ⟨json, hlookup, hwritten⟩ := h c.name _ hv
    rw [show Assoc.lookup c.key members = some json from hlookup]
    exact Cell.decode?_iff_of_isWritten (hfinite c.name _ hv) hwritten
  exact ⟨fun hread _ _ hhas => (hcell hhas).1 (hread hhas),
    fun hflat _ _ hhas => (hcell hhas).2 (hflat hhas)⟩

/-- An entity is read back from its own JSON exactly if it has nothing inside of an option. -/
theorem decode?_encode_iff (h : e.HasFiniteNumbers) : decode? e.encode = some e ↔ e.IsFlat := by
  rw [encode_eq]
  apply ofMembers?_iff_of_isWritten h
  intro name v hv
  exact ⟨v.toJson, e.lookup_storedName FieldValue.toJson hv, v.isWritten_toJson⟩

end Entity

end EntityQuery
