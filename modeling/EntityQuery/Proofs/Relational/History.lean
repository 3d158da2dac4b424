import Mathlib.Data.List.Induction
import Mathlib.Data.List.Nodup
import EntityQuery.Entity.Directory
import EntityQuery.Proofs.Entity.Fields
import EntityQuery.Proofs.Relational.Table
/-!
# What the relational store holds

The table of all entities is created and then entities of any types are saved one after the
other. The identifier alone is the key of the table, and saving over a row changes neither its
entity type nor when it was created. So a row has the entity type that its identifier was saved
under first, and the data that it was saved with last. The rows of a type hold what was saved
under the type exactly if no identifier is saved under two types.
-/

namespace EntityQuery.Relational

open Sql

/-! ## Statements -/

def entities : TableDefinition where
  name := "entities"
  columns := ["id", "entity_type", "data", "created_at", "updated_at"]
  key := ["id"]

def insertion : Insertion where
  table := "entities"
  columns := ["id", "entity_type", "data", "created_at", "updated_at"]
  values := [1, 2, 3, 4, 5]
  target := ["id"]
  updates := [("data", "data"), ("updated_at", "updated_at")]

theorem read?_createTable :
    (tokens? createTable.sql).bind Change.read? = some (.table entities) := by
  -- The characters are taken line by line, as a long text is slow to take apart.
  have htext : createTable.sql.toList =
      "CREATE TABLE IF NOT EXISTS entities (\n".toList ++
      "            id UUID PRIMARY KEY,\n".toList ++
      "            entity_type VARCHAR(255) NOT NULL,\n".toList ++
      "            data JSONB NOT NULL,\n".toList ++
      "            created_at TIMESTAMPTZ NOT NULL,\n".toList ++
      "            updated_at TIMESTAMPTZ NOT NULL\n".toList ++ "        )".toList := by
    simp only [← String.toList_append]
    rfl
  rw [tokens?, htext]
  decide +kernel

theorem read?_createIndex : (tokens? createIndex.sql).bind Change.read? = some .index := by
  decide +kernel

theorem read?_insert {α : Type} [Resource α] (e : α) :
    (tokens? (insert e).sql).bind Change.read? = some (.row insertion) := by
  have htext : (insert e).sql.toList =
      "INSERT INTO entities (id, entity_type, data, created_at, updated_at) ".toList ++
      "VALUES ($1, $2, $3, $4, $5) ".toList ++
      "ON CONFLICT (id) DO UPDATE SET data = EXCLUDED.data, ".toList ++
      "updated_at = EXCLUDED.updated_at".toList := by
    simp only [← String.toList_append]
    rfl
  rw [tokens?, htext]
  decide +kernel

/-- The schema is the table of entities without rows. -/
theorem hold?_ensureSchema : Database.hold? ensureSchema none = some (some ⟨entities, []⟩) := by
  simp only [ensureSchema, Database.hold?, Database.execute?, read?_createTable, read?_createIndex,
    Option.bind_some, Database.change?, Option.getD_none]

/-! ## Records -/

/-- A row of the table of entities. -/
structure Record where
  id : Uuid
  type : String
  data : Json
  created : Param
  updated : Param

namespace Record

/-- The values by column. -/
def row (r : Record) : Row :=
  [("id", .uuid r.id), ("entity_type", .text r.type), ("data", .jsonb r.data),
    ("created_at", r.created), ("updated_at", r.updated)]

/-- The record of an entity that is saved for the first time. -/
def ofEntity {α : Type} [Resource α] (e : α) : Record :=
  ⟨Resource.id e, Resource.singular α, Resource.encode e, .ofInstant (Resource.createdAt e),
    .ofInstant (Resource.updatedAt e)⟩

/-- The record after something else was saved over it. -/
def overwrite (new r : Record) : Record :=
  { r with data := new.data, updated := new.updated }

/-- Saves a record over the one with its identifier, or at the end. -/
def put (new : Record) : List Record → List Record
  | [] => [new]
  | r :: rest => if r.id = new.id then overwrite new r :: rest else r :: put new rest

theorem upsert_map_row (new : Record) (records : List Record) :
    Row.upsert insertion.target insertion.updates new.row (records.map row) =
      (put new records).map row := by
  induction records with
  | nil => rfl
  | cons r rest ih =>
      have hconflict : Row.conflicts insertion.target r.row new.row = decide (r.id = new.id) := by
        simp [Row.conflicts, insertion, row, Assoc.lookup_cons, Param.isSame]
      have hupdate : Row.update insertion.updates new.row r.row = (overwrite new r).row := rfl
      rw [List.map_cons, Row.upsert, put, hconflict, hupdate, ih]
      by_cases hid : r.id = new.id <;> simp [hid]

theorem ids_put (new : Record) (records : List Record) :
    (put new records).map Record.id =
      if new.id ∈ records.map Record.id then records.map Record.id
      else records.map Record.id ++ [new.id] := by
  induction records with
  | nil => simp [put]
  | cons r rest ih =>
      by_cases hid : r.id = new.id
      · simp [put, overwrite, hid]
      · have hid' : new.id ≠ r.id := Ne.symm hid
        rw [put, if_neg hid, List.map_cons, ih, List.map_cons]
        by_cases hmem : new.id ∈ rest.map Record.id
        · rw [if_pos hmem, if_pos (List.mem_cons_of_mem _ hmem)]
        · have hnot : new.id ∉ r.id :: rest.map Record.id := by
            simp only [List.mem_cons, hid', hmem, or_self, not_false_eq_true]
          rw [if_neg hmem, if_neg hnot, List.cons_append]

theorem nodup_ids_put (new : Record) {records : List Record}
    (h : (records.map Record.id).Nodup) : ((put new records).map Record.id).Nodup := by
  rw [ids_put]
  split
  · exact h
  · next hnew => exact h.append (List.nodup_singleton _) (List.disjoint_singleton.2 hnew)

/-- Putting a record leaves the others alone. -/
theorem mem_put_of_ne {new r : Record} (h : r.id ≠ new.id) (records : List Record) :
    r ∈ put new records ↔ r ∈ records := by
  induction records with
  | nil =>
      have hne : r ≠ new := fun heq => h (congrArg Record.id heq)
      simp [put, hne]
  | cons x rest ih =>
      rw [put]
      split
      · next hid =>
          have hne : r ≠ x := fun heq => h (heq ▸ hid)
          have hne' : r ≠ overwrite new x := fun heq => h (heq ▸ hid)
          simp [hne, hne']
      · rw [List.mem_cons, List.mem_cons, ih]

theorem mem_put_of_new {new r : Record} (h : r.id = new.id) {records : List Record}
    (hnew : ∀ x ∈ records, x.id ≠ new.id) : r ∈ put new records ↔ r = new := by
  induction records with
  | nil => simp [put]
  | cons x rest ih =>
      obtain ⟨hx, hrest⟩ := List.forall_mem_cons.1 hnew
      have hne : r ≠ x := fun heq => hx (heq ▸ h)
      rw [put, if_neg hx, List.mem_cons, ih hrest]
      simp [hne]

theorem mem_put_of_old {new old r : Record} (h : r.id = new.id) (hold : old.id = new.id)
    {records : List Record} (hnodup : (records.map Record.id).Nodup) (hmem : old ∈ records) :
    r ∈ put new records ↔ r = overwrite new old := by
  induction records with
  | nil => cases hmem
  | cons x rest ih =>
      rw [List.map_cons, List.nodup_cons] at hnodup
      obtain ⟨hx, hrest⟩ := hnodup
      obtain rfl | hmem := List.mem_cons.1 hmem
      · have hother : r ∉ rest := fun hr => hx (hold.trans h.symm ▸ List.mem_map_of_mem hr)
        rw [put, if_pos hold, List.mem_cons]
        simp [hother]
      · have hid : x.id ≠ new.id := fun heq =>
          hx (heq.trans hold.symm ▸ List.mem_map_of_mem hmem)
        have hne : r ≠ x := fun heq => hid (heq ▸ h)
        rw [put, if_neg hid, List.mem_cons, ih hrest hmem]
        simp [hne]

end Record

/-- Saving an entity puts its record into the table. -/
theorem hold?_save {α : Type} [Resource α] (e : α) (records : List Record) :
    Database.hold? (save e) (some ⟨entities, records.map Record.row⟩) =
      some (some ⟨entities, (Record.put (.ofEntity e) records).map Record.row⟩) := by
  have hinsert : Table.insert? ⟨entities, records.map Record.row⟩ insertion (insert e).params =
      some ⟨entities, (Record.put (.ofEntity e) records).map Record.row⟩ := by
    rw [← Record.upsert_map_row]
    rfl
  simp only [save, Database.hold?, Database.execute?, read?_insert, Option.bind_some,
    Database.change?, hinsert, Option.map_some]

/-! ## Histories -/

/-- The record that an identifier was saved with first. -/
def first? (history : List Record) (id : Uuid) : Option Record :=
  history.find? fun r => r.id = id

/-- The record that an identifier was saved with last. -/
def last? (history : List Record) (id : Uuid) : Option Record :=
  (history.filter fun r => r.id = id).getLast?

/-- The records of the table after a history of saves. -/
def records (history : List Record) : List Record :=
  history.foldl (fun records new => Record.put new records) []

theorem records_concat (history : List Record) (new : Record) :
    records (history ++ [new]) = Record.put new (records history) := by
  rw [records, List.foldl_append]
  rfl

theorem nodup_ids_records (history : List Record) : ((records history).map Record.id).Nodup := by
  induction history using List.reverseRecOn with
  | nil => exact List.nodup_nil
  | append_singleton history new ih =>
      rw [records_concat]
      exact Record.nodup_ids_put new ih

theorem first?_concat (history : List Record) (new : Record) (id : Uuid) :
    first? (history ++ [new]) id =
      (first? history id).or (if new.id = id then some new else none) := by
  rw [first?, List.find?_append, first?]
  by_cases h : new.id = id <;> simp [h]

theorem last?_concat (history : List Record) (new : Record) (id : Uuid) :
    last? (history ++ [new]) id = if new.id = id then some new else last? history id := by
  rw [last?, last?, List.filter_append]
  by_cases h : new.id = id <;> simp [h]

theorem mem_of_first? {history : List Record} {id : Uuid} {first : Record}
    (h : first? history id = some first) : first ∈ history ∧ first.id = id :=
  ⟨List.mem_of_find?_eq_some h, by simpa using List.find?_some h⟩

/-- An identifier that was saved was saved first and last. -/
theorem exists_first?_last? {history : List Record} {r : Record} (h : r ∈ history) :
    ∃ first last, first? history r.id = some first ∧ last? history r.id = some last := by
  have hfirst : (history.find? fun x => x.id = r.id).isSome = true :=
    List.find?_isSome.2 ⟨r, h, by simp⟩
  have hlast : history.filter (fun x => x.id = r.id) ≠ [] :=
    List.ne_nil_of_mem (List.mem_filter.2 ⟨h, by simp⟩)
  obtain ⟨first, hfirst⟩ := Option.isSome_iff_exists.1 hfirst
  exact ⟨first, _, hfirst, List.getLast?_eq_some_getLast hlast⟩

/-- The invariant of a history: a record is that of the first save of its identifier with what
was saved last. -/
theorem mem_records_iff (history : List Record) (r : Record) :
    r ∈ records history ↔ ∃ first last, first? history r.id = some first ∧
      last? history r.id = some last ∧ r = Record.overwrite last first := by
  induction history using List.reverseRecOn generalizing r with
  | nil => simp [records, first?]
  | append_singleton history new ih =>
      rw [records_concat, first?_concat, last?_concat]
      by_cases hid : new.id = r.id
      · rw [if_pos hid, if_pos hid]
        cases hfirst : first? history r.id with
        | none =>
            have hnew : ∀ x ∈ records history, x.id ≠ new.id := by
              intro x hx heq
              obtain ⟨first, _, hsome, _⟩ := (ih x).1 hx
              rw [heq, hid, hfirst] at hsome
              cases hsome
            rw [Record.mem_put_of_new hid.symm hnew]
            constructor
            · rintro rfl
              exact ⟨r, r, rfl, rfl, rfl⟩
            · rintro ⟨first, last, ⟨⟩, ⟨⟩, heq⟩
              exact heq
        | some first =>
            obtain ⟨hmem, hfirstId⟩ := mem_of_first? hfirst
            obtain ⟨_, last, _, hlast⟩ := exists_first?_last? hmem
            have hold : Record.overwrite last first ∈ records history := by
              rw [← hfirstId] at hfirst
              exact (ih _).2 ⟨first, last, hfirst, hlast, rfl⟩
            have holdId : (Record.overwrite last first).id = new.id := hfirstId.trans hid.symm
            rw [Record.mem_put_of_old hid.symm holdId (nodup_ids_records history) hold]
            constructor
            · rintro heq
              exact ⟨first, new, rfl, rfl, heq⟩
            · rintro ⟨first', last', ⟨⟩, ⟨⟩, heq⟩
              exact heq
      · rw [if_neg hid, if_neg hid, Option.or_none, Record.mem_put_of_ne (Ne.symm hid), ih]

/-! ## Runs -/

/-- A save of an entity of any type. -/
structure Save where
  α : Type
  resource : Resource α
  entity : α

namespace Save

def session (s : Save) : Session s.α :=
  have := s.resource
  save s.entity

def record (s : Save) : Record :=
  have := s.resource
  .ofEntity s.entity

end Save

/-- The database after the schema was made sure of and entities were saved. -/
def afterSaves (saves : List Save) : Option Database :=
  (Database.hold? ensureSchema none).bind fun db =>
    saves.foldlM (fun db s => Database.hold? s.session db) db

theorem afterSaves_eq (saves : List Save) :
    afterSaves saves =
      some (some ⟨entities, (records (saves.map Save.record)).map Record.row⟩) := by
  have hrun (history : List Record) :
      saves.foldlM (fun db s => Database.hold? s.session db)
        (some ⟨entities, (records history).map Record.row⟩) =
      some (some ⟨entities, (records (history ++ saves.map Save.record)).map Record.row⟩) := by
    induction saves generalizing history with
    | nil => simp
    | cons s rest ih =>
        have hstep : Database.hold? s.session
            (some ⟨entities, (records history).map Record.row⟩) =
            some (some ⟨entities, (records (history ++ [s.record])).map Record.row⟩) := by
          obtain ⟨α, resource, e⟩ := s
          rw [records_concat, Save.session, Save.record]
          exact hold?_save e (records history)
        rw [List.foldlM_cons, hstep, Option.bind_eq_bind, Option.bind_some, ih, List.map_cons,
          List.append_assoc, List.singleton_append]
  rw [afterSaves, hold?_ensureSchema]
  exact hrun []

/-! ## Entity types -/

def Table.HasRow (table : Table) (type : String) (id : Uuid) (data : Json) : Prop :=
  ∃ row ∈ table.rows, Assoc.lookup "id" row = some (.uuid id) ∧
    Assoc.lookup "entity_type" row = some (.text type) ∧
    Assoc.lookup "data" row = some (.jsonb data)

/-- The data that an identifier was saved with last under an entity type. -/
def lastData? (history : List Record) (type : String) (id : Uuid) : Option Json :=
  ((history.filter fun r => r.id = id ∧ r.type = type).getLast?).map Record.data

/-- The rows of an entity type are what was saved last under the type, for every identifier. -/
def Table.Keeps (table : Table) (history : List Record) (type : String) : Prop :=
  ∀ id data, table.HasRow type id data ↔ lastData? history type id = some data

/-- A row has the type that its identifier was saved under first and the data that it was saved
with last. -/
theorem hasRow_iff (history : List Record) (type : String) (id : Uuid) (data : Json) :
    Table.HasRow ⟨entities, (records history).map Record.row⟩ type id data ↔
      ∃ first last, first? history id = some first ∧ last? history id = some last ∧
        first.type = type ∧ last.data = data := by
  constructor
  · rintro ⟨row, hrow, hid, htype, hdata⟩
    obtain ⟨r, hr, rfl⟩ := List.mem_map.1 hrow
    obtain ⟨first, last, hfirst, hlast, rfl⟩ := (mem_records_iff history r).1 hr
    cases hid
    cases htype
    cases hdata
    exact ⟨first, last, hfirst, hlast, rfl, rfl⟩
  · rintro ⟨first, last, hfirst, hlast, rfl, rfl⟩
    obtain ⟨-, rfl⟩ := mem_of_first? hfirst
    have hmem : Record.overwrite last first ∈ records history :=
      (mem_records_iff history _).2 ⟨first, last, hfirst, hlast, rfl⟩
    exact ⟨_, List.mem_map_of_mem hmem, rfl, rfl, rfl⟩

/-- Under the type that all its saves have, an identifier was saved last when it was saved last
at all. -/
theorem lastData?_of_typed {history : List Record} {type : String} {id : Uuid}
    (h : ∀ r ∈ history, r.id = id → r.type = type) :
    lastData? history type id = (last? history id).map Record.data := by
  have hfilter : history.filter (fun r => r.id = id ∧ r.type = type) =
      history.filter fun r => r.id = id := by
    apply List.filter_congr
    intro r hr
    simpa using h r hr
  rw [lastData?, hfilter, last?]

/-- No identifier is saved under two entity types. -/
def IsTyped (history : List Record) : Prop :=
  ∀ a ∈ history, ∀ b ∈ history, a.id = b.id → a.type = b.type

theorem keeps_of_isTyped {history : List Record} (h : IsTyped history) (type : String) :
    Table.Keeps ⟨entities, (records history).map Record.row⟩ history type := by
  intro id data
  rw [hasRow_iff]
  constructor
  · rintro ⟨first, last, hfirst, hlast, rfl, rfl⟩
    obtain ⟨hmem, rfl⟩ := mem_of_first? hfirst
    rw [lastData?_of_typed fun r hr hid => h r hr first hmem hid, hlast]
    rfl
  · intro hdata
    obtain ⟨r, hr, rfl⟩ := Option.map_eq_some_iff.1 hdata
    have hmem := List.mem_of_getLast? hr
    simp only [List.mem_filter, decide_eq_true_eq] at hmem
    obtain ⟨hmem, rfl, rfl⟩ := hmem
    obtain ⟨first, last, hfirst, hlast⟩ := exists_first?_last? hmem
    obtain ⟨hfirstMem, hfirstId⟩ := mem_of_first? hfirst
    refine ⟨first, last, hfirst, hlast, h first hfirstMem r hmem hfirstId, ?_⟩
    rw [lastData?_of_typed fun r' hr' hid => h r' hr' r hmem hid, hlast] at hdata
    exact Option.some.inj hdata

/-- What is saved under a type has a row of the type only if its identifier was saved under the
type first, so two types cannot both have one. -/
theorem isTyped_of_keeps {history : List Record}
    (h : ∀ type, Table.Keeps ⟨entities, (records history).map Record.row⟩ history type) :
    IsTyped history := by
  have hfirst {r : Record} (hr : r ∈ history) :
      ∃ first, first? history r.id = some first ∧ first.type = r.type := by
    have hne : history.filter (fun x => x.id = r.id ∧ x.type = r.type) ≠ [] :=
      List.ne_nil_of_mem (List.mem_filter.2 ⟨hr, by simp⟩)
    have hlast : lastData? history r.type r.id = some _ :=
      congrArg (Option.map Record.data) (List.getLast?_eq_some_getLast hne)
    obtain ⟨first, _, hfirst, _, htype, _⟩ :=
      (hasRow_iff _ _ _ _).1 ((h r.type r.id _).2 hlast)
    exact ⟨first, hfirst, htype⟩
  intro a ha b hb hid
  obtain ⟨first, hfa, hta⟩ := hfirst ha
  obtain ⟨first', hfb, htb⟩ := hfirst hb
  rw [hid, hfb] at hfa
  cases hfa
  rw [← hta, ← htb]

/-- After any saves there is one row for each identifier, and the rows of all entity types are what
was saved under them exactly if no identifier was saved under two entity types. -/
theorem afterSaves_keeps_iff (saves : List Save) :
    ∃ table, afterSaves saves = some (some table) ∧
      (table.rows.map (Assoc.lookup "id")).Nodup ∧
      ((∀ type, table.Keeps (saves.map Save.record) type) ↔ IsTyped (saves.map Save.record)) := by
  refine ⟨_, afterSaves_eq saves, ?_, isTyped_of_keeps, keeps_of_isTyped⟩
  have hinjective : Function.Injective fun id : Uuid => some (Param.uuid id) := by
    intro id id' heq
    cases heq
    rfl
  have hids := (nodup_ids_records (saves.map Save.record)).map hinjective
  rw [List.map_map] at hids ⊢
  exact hids

/-! ## Saves of one identifier under two types -/

def role : Entity Directory.role :=
  Directory.newRole (.ofNat 1) morning "admin" none

/-- A permission with the identifier of the role. -/
def permission : Entity Directory.permission :=
  .create role.id morning (.cons (.value "read") (.cons (.value "May read.") .nil))

def clashingSaves : List Save :=
  [⟨Entity Directory.role, inferInstance, role⟩,
    ⟨Entity Directory.permission, inferInstance, permission⟩]

/-- The permission is nowhere to be found and its data is in the row of the role. -/
theorem afterSaves_clashing :
    ∃ table, afterSaves clashingSaves = some (some table) ∧
      lastData? (clashingSaves.map Save.record) "role" role.id = some role.encode ∧
      lastData? (clashingSaves.map Save.record) "permission" role.id = some permission.encode ∧
      ¬ table.HasRow "role" role.id role.encode ∧
      table.HasRow "role" role.id permission.encode ∧
      ∀ data, ¬ table.HasRow "permission" role.id data := by
  have hfirst : first? (clashingSaves.map Save.record) role.id = some (.ofEntity role) := rfl
  have hlast : last? (clashingSaves.map Save.record) role.id = some (.ofEntity permission) := rfl
  refine ⟨_, afterSaves_eq clashingSaves, rfl, rfl, ?_, ?_, ?_⟩
  · rw [hasRow_iff, hlast]
    rintro ⟨first, last, -, ⟨⟩, -, hdata⟩
    have hname := congrArg (fun data => (data.member? "name").bind Json.str?) hdata
    exact absurd hname (by decide)
  · rw [hasRow_iff]
    exact ⟨_, _, hfirst, hlast, rfl, rfl⟩
  · intro data
    rw [hasRow_iff, hfirst]
    rintro ⟨first, last, ⟨⟩, -, htype, -⟩
    exact absurd htype (by decide)

end EntityQuery.Relational
