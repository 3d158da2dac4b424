import EntityQuery.Proofs.Entity.Reading
import EntityQuery.Store.Relational
/-!
# What a column of JSON gives back

A database keeps JSON in a form of its own. What it gives back has the same members, in an order of
its own, and its numbers are written as exact decimals. Texts, truth values and null come back as
they were, and so do whole numbers. A double comes back as some number: it was written as a decimal
text and is read from another one, and the reader need not find the double that was written.

So an entity is read back from its row exactly if each of its doubles comes back as itself and
nothing stands inside of an option.
-/

namespace EntityQuery

/-! ## What comes back -/

/-- What can come back for a value that has no parts. -/
def Json.ComesBackAs : Json → Json → Prop
  | float _, json => ∃ x, json.number? = some x
  | written, json => json = written

namespace Jsonb

/-- A member comes back under its name. -/
def ReturnsMember (member member' : String × Json) : Prop :=
  member'.1 = member.1 ∧ member.2.ComesBackAs member'.2

/-- An object comes back with its members, in any order. -/
def GivesBack (written returned : Json) : Prop :=
  ∃ members order members', written = .obj members ∧ order.Perm members ∧
    List.Forall₂ ReturnsMember order members' ∧ returned = .obj members'

end Jsonb

theorem Json.ComesBackAs.refl (json : Json) : json.ComesBackAs json := by
  cases json with
  | float x => exact ⟨x, rfl⟩
  | _ => rfl

namespace Jsonb

variable {members members' : List (String × Json)}

/-- An object can come back as it was. -/
theorem GivesBack.refl (members : List (String × Json)) :
    GivesBack (.obj members) (.obj members) := by
  refine ⟨members, members, members, rfl, .refl _, ?_, rfl⟩
  exact List.forall₂_same.2 fun m _ => ⟨rfl, .refl m.2⟩

theorem keys_of_forall₂ (h : List.Forall₂ ReturnsMember members members') :
    Assoc.keys members' = Assoc.keys members := by
  induction h with
  | nil => rfl
  | cons hfirst _ ih => exact congrArg₂ List.cons hfirst.1 ih

theorem exists_mem_of_forall₂ (h : List.Forall₂ ReturnsMember members members') {m : String × Json}
    (hm : m ∈ members) : ∃ json, (m.1, json) ∈ members' ∧ m.2.ComesBackAs json := by
  induction h with
  | nil => cases hm
  | @cons first first' rest rest' hfirst _ ih =>
      obtain rfl | hrest := List.mem_cons.1 hm
      · exact ⟨first'.2, hfirst.1 ▸ List.mem_cons_self, hfirst.2⟩
      · obtain ⟨json, hmem, hjson⟩ := ih hrest
        exact ⟨json, List.mem_cons_of_mem _ hmem, hjson⟩

theorem GivesBack.exists_lookup (h : GivesBack (.obj members) (.obj members'))
    (hnodup : (Assoc.keys members).Nodup) {name : String} {json : Json}
    (hlookup : Assoc.lookup name members = some json) :
    ∃ json', Assoc.lookup name members' = some json' ∧ json.ComesBackAs json' := by
  obtain ⟨_, order, _, ⟨⟩, hperm, hforall, ⟨⟩⟩ := h
  obtain ⟨json', hmem, hjson⟩ :=
    exists_mem_of_forall₂ hforall (hperm.mem_iff.2 (Assoc.mem_of_lookup hlookup))
  have hkeys : (Assoc.keys members').Nodup := by
    rw [keys_of_forall₂ hforall]
    exact ((hperm.map Prod.fst).nodup_iff).2 hnodup
  exact ⟨json', Assoc.lookup_of_mem hkeys hmem, hjson⟩

end Jsonb

/-! ## What is read -/

/-- A value is read back exactly if it is not a double that came back as another one. -/
theorem Shape.decode?_iff_of_comesBackAs {shape : Shape} {v : shape.Carrier} {json : Json}
    (h : (shape.encode v).ComesBackAs json) :
    shape.decode? json = some v ↔
      ∀ x, shape.fieldValue v = .decimal x → json.number? = some x := by
  cases shape with
  | double =>
      constructor
      · rintro hread x ⟨⟩
        exact hread
      · intro hnumber
        exact hnumber v rfl
  | text | uuid | int32 | int64 | boolean | date | instant | choice constants =>
      have hwritten := (fieldValue _ v).isWritten_toJson
      rw [← encode_eq, ← show json = encode _ v from h] at hwritten
      exact iff_of_true (decode?_of_isWritten trivial hwritten) nofun

/-- What a column holds is read back exactly if it is neither nothing inside of an option nor a
double that came back as another one. -/
theorem Cell.decode?_iff_of_comesBackAs {c : Column} {cell : Cell c} {json : Json}
    (h : cell.encode.ComesBackAs json) :
    decode? c (some json) = some cell ↔
      cell.IsFlat ∧ ∀ x, cell.fieldValue = .decimal x → json.number? = some x := by
  cases cell with
  | unset =>
      obtain rfl : json = .null := h
      rw [decode?_null_iff]
      exact (and_iff_left nofun).symm
  | value v =>
      rw [decode?_value_iff, Shape.decode?_iff_of_comesBackAs h]
      exact (and_iff_right trivial).symm

/-- Only a column of doubles holds one. -/
theorem Cell.ne_decimal {c : Column} (h : c.shape ≠ .double) (cell : Cell c) (x : Binary64) :
    cell.fieldValue ≠ .decimal x := by
  obtain ⟨name, shape, options, type⟩ := c
  cases cell with
  | unset => nofun
  | value v =>
      cases shape
      case double => exact absurd rfl h
      all_goals nofun

namespace Entity

variable {s : Schema} {e : Entity s}

/-- A double of an entity stands in a column. -/
theorem exists_has_of_decimal {name : String} {x : Binary64}
    (h : e.value? name = some (.decimal x)) :
    ∃ c, ∃ cell : Cell c, e.cells.Has cell ∧ c.name = name ∧ cell.fieldValue = .decimal x := by
  apply (Cells.value?_eq_some_iff s.nodup_columns).1
  rw [value?] at h
  split at h
  · cases h
  · split at h
    · cases h
    · split at h
      · cases h
      · exact h

variable {members' : List (String × Json)}

/-- Something comes back for every value, under the name by which its field is stored. -/
theorem exists_lookup_of_givesBack (h : Jsonb.GivesBack e.encode (.obj members')) {name : String}
    {v : FieldValue} (hv : e.value? name = some v) :
    ∃ json, Assoc.lookup (storedName name) members' = some json ∧ v.toJson.ComesBackAs json := by
  rw [encode_eq] at h
  exact h.exists_lookup (e.nodup_keys_stored FieldValue.toJson)
    (e.lookup_storedName FieldValue.toJson hv)

theorem lookup_of_givesBack (h : Jsonb.GivesBack e.encode (.obj members')) {name : String}
    {v : FieldValue} (hv : e.value? name = some v) (hother : ∀ x, v ≠ .decimal x) :
    Assoc.lookup (storedName name) members' = some v.toJson := by
  obtain ⟨json, hlookup, hjson⟩ := exists_lookup_of_givesBack h hv
  cases v with
  | decimal x => exact absurd rfl (hother x)
  | _ => exact hlookup.trans (congrArg some hjson)

theorem decodeCell?_iff_of_givesBack (h : Jsonb.GivesBack e.encode (.obj members')) {c : Column}
    {cell : Cell c} (hhas : e.cells.Has cell) :
    Cell.decode? c (Assoc.lookup c.key members') = some cell ↔ cell.IsFlat ∧
      ∀ x, cell.fieldValue = .decimal x →
        (Assoc.lookup c.key members').bind Json.number? = some x := by
  obtain ⟨json, hlookup, hjson⟩ := exists_lookup_of_givesBack h (e.value?_of_has hhas)
  rw [← cell.encode_eq] at hjson
  rw [show Assoc.lookup c.key members' = some json from hlookup, Option.bind_some]
  exact Cell.decode?_iff_of_comesBackAs hjson

/-- An entity is read back from what comes back exactly if it has nothing inside of an option and
each of its doubles came back as itself. -/
theorem decode?_iff_of_givesBack {returned : Json} (h : Jsonb.GivesBack e.encode returned) :
    decode? returned = some e ↔ e.IsFlat ∧ ∀ name x, e.value? name = some (.decimal x) →
      (returned.member? (storedName name)).bind Json.number? = some x := by
  obtain ⟨members', rfl⟩ : ∃ members', returned = .obj members' := by
    obtain ⟨_, _, members', -, -, -, heq⟩ := h
    exact ⟨members', heq⟩
  -- The identifier and the two instants are no doubles, so they are always read.
  have hid : Assoc.lookup "id" members' = some (Shape.uuid.encode e.id) :=
    lookup_of_givesBack h (show e.value? "id" = some (.text e.id.toText) from rfl) nofun
  have hcreated : Assoc.lookup "created_at" members' = some (Shape.instant.encode e.createdAt) :=
    lookup_of_givesBack h (show e.value? "created_at" = some (.dateTime e.createdAt) from rfl) nofun
  have hupdated : Assoc.lookup "updated_at" members' = some (Shape.instant.encode e.updatedAt) :=
    lookup_of_givesBack h (show e.value? "updated_at" = some (.dateTime e.updatedAt) from rfl) nofun
  have hinstant (t : Instant) : Shape.instant.decode? (Shape.instant.encode t) = some t :=
    Shape.decode?_of_isWritten trivial (FieldValue.dateTime t).isWritten_toJson
  have hidentifier : Shape.uuid.decode? (Shape.uuid.encode e.id) = some e.id :=
    Shape.decode?_of_isWritten trivial (FieldValue.text e.id.toText).isWritten_toJson
  show ofMembers? members' = some e ↔ _
  rw [ofMembers?_iff (by rw [hid, Option.bind_some, hidentifier])
    (by rw [hcreated, Option.bind_some, hinstant]) (by rw [hupdated, Option.bind_some, hinstant]),
    Cells.decode?_iff]
  constructor
  · intro hread
    refine ⟨fun hhas => ((decodeCell?_iff_of_givesBack h hhas).1 (hread hhas)).1, ?_⟩
    intro name x hx
    obtain ⟨c, cell, hhas, rfl, hvalue⟩ := exists_has_of_decimal hx
    exact ((decodeCell?_iff_of_givesBack h hhas).1 (hread hhas)).2 x hvalue
  · rintro ⟨hflat, hnumbers⟩ c cell hhas
    refine (decodeCell?_iff_of_givesBack h hhas).2 ⟨hflat hhas, ?_⟩
    intro x hx
    exact hnumbers c.name x (hx ▸ e.value?_of_has hhas)

end Entity

end EntityQuery
