import EntityQuery.Entity.Directory
import EntityQuery.Proofs.Document.Sorting
import EntityQuery.Proofs.Document.Stored
import EntityQuery.Proofs.IdentifierOrder
import EntityQuery.Proofs.Memory.Order
import EntityQuery.Proofs.Page
/-!
# The order of stored documents

The store puts the documents of two entities in the order in which the program puts the
entities. A flag in front of each key brings null to its place behind all other values, and
the stored values of one field compare as the values do. Keys that are repeated are left
out and the identifier is put last unless it is a key, and neither changes the order.

A field to sort by must not be a raw identifier, under which nothing is stored, and must not have
the name of a member that the store adds. What is declared as an instant is written again before
it is stored, so instants have to be declared as instants and other texts must not be.
-/

namespace EntityQuery

/-! ## Declarations -/

/-- Whether a type takes no text of a shape for an instant. -/
def Shape.isRead : Shape → FieldType → Bool
  | text, type | uuid, type | date, type | choice _, type => type ≠ .dateTime
  | _, _ => true

/-- Whether the texts of a shape are taken for instants exactly if they are. -/
def Shape.isKept : Shape → FieldType → Bool
  | instant, type => type = .dateTime
  | shape, type => shape.isRead type

theorem Cell.reads_of_isRead {c : Column} (h : c.shape.isRead c.type = true) (cell : Cell c) :
    c.type.Reads cell.fieldValue := by
  obtain ⟨name, shape, options, type⟩ := c
  cases cell with
  | unset => trivial
  | value v =>
      cases shape with
      | text | uuid | date | choice _ =>
          have hne : type ≠ .dateTime := of_decide_eq_true h
          exact hne
      | _ => trivial

theorem Cell.keeps_of_isKept {c : Column} (h : c.shape.isKept c.type = true) (cell : Cell c) :
    c.type.Keeps cell.fieldValue := by
  obtain ⟨name, shape, options, type⟩ := c
  have hread : shape.isRead type = true := by
    cases shape <;> first | rfl | exact h
  refine ⟨reads_of_isRead hread cell, ?_⟩
  intro t ht
  cases cell with
  | unset => cases ht
  | value v =>
      cases shape with
      | instant => exact of_decide_eq_true h
      | _ => cases ht

/-- What the store needs in order to sort by keys: the fields are declared and stored under their
names, they are not taken for members that the store adds, and what is stored as a text is an
instant exactly if it is declared as one. -/
structure Schema.Sorts (s : Schema) (keys : List SortKey) : Prop where
  declared : ∀ key ∈ keys, s.descriptor.contains key.field = true
  stored : ∀ key ∈ keys, storedName key.field = key.field
  not_identifier : ∀ key ∈ keys, key.field ≠ "_id"
  not_flag : ∀ key ∈ keys, ∀ i < keys.length, key.field ≠ DocumentStore.flagName i
  kept : ∀ key ∈ keys, ∀ c ∈ s.columns, c.name = key.field → c.shape.isKept c.type = true

/-- The store can also sort by some of the keys. -/
theorem Schema.Sorts.mono {s : Schema} {keys keys' : List SortKey} (h : s.Sorts keys)
    (hsublist : keys'.Sublist keys) : s.Sorts keys' where
  declared key hkey := h.declared key (hsublist.subset hkey)
  stored key hkey := h.stored key (hsublist.subset hkey)
  not_identifier key hkey := h.not_identifier key (hsublist.subset hkey)
  not_flag key hkey i hi :=
    h.not_flag key (hsublist.subset hkey) i (Nat.lt_of_lt_of_le hi hsublist.length_le)
  kept key hkey := h.kept key (hsublist.subset hkey)

namespace DocumentStore

/-! ## Values -/

theorem isNullOrMissing_storedValue (v : FieldValue) :
    isNullOrMissing (some (storedValue v)) = v.isNull := by
  cases v <;> rfl

/-- Behind its flag, a stored value has the place of the value: null is last, and values of one
type compare as they are stored. -/
theorem exists_memberOrder? {type : FieldType} {a b : FieldValue} (ha : type.accepts a = true)
    (hb : type.accepts b = true) (hsa : a.IsStorable) (hsb : b.IsStorable) :
    ∃ order, memberOrder? (some (storedValue a)) (some (storedValue b)) = some order ∧
      (cmp a.isNull b.isNull).then order = a.compareNullsLast b := by
  have hnull {v : FieldValue} (h : v.isNull = false) : v ≠ .null := by
    rintro rfl
    cases h
  simp only [memberOrder?, isNullOrMissing_storedValue, FieldValue.compareNullsLast]
  cases hanull : a.isNull <;> cases hbnull : b.isNull
  case false.false =>
    have hna := isNaN_of_isStorable hsa
    have hnb := isNaN_of_isStorable hsb
    obtain ⟨order, horder⟩ :=
      FieldValue.exists_order? ha hb hna hnb (hnull hanull) (hnull hbnull)
    have hcompare := FieldValue.compare?_eq_order? ha hb hna hnb
    refine ⟨order, ?_, ?_⟩
    · rw [Option.bind_some, Option.bind_some, order?_storedValue ha hb hsa hsb, hcompare, horder]
    · rw [hcompare, horder]
      rfl
  case false.true => exact ⟨.gt, rfl, rfl⟩
  case true.false => exact ⟨.lt, rfl, rfl⟩
  case true.true => exact ⟨.eq, rfl, rfl⟩

/-! ## Documents -/

section Documents

variable {s : Schema} {a b e : Entity s} {keys : List SortKey} {key : SortKey} {doc : Document}

theorem reads_of_isRead (hread : ∀ c ∈ s.columns, c.shape.isRead c.type = true) {name : String}
    {type : FieldType} {v : FieldValue} (htype : s.descriptor.type? name = some type)
    (hv : e.value? name = some v) : type.Reads v := by
  obtain haccepts | ⟨c, hmem, -, rfl, cell, rfl⟩ := e.declared_cases htype hv
  · exact (keeps_of_holds (.inl haccepts)).1
  · exact cell.reads_of_isRead (hread c hmem)

/-- Entities have documents if no type takes a text for an instant. -/
theorem exists_documentOf_of_isRead (hread : ∀ c ∈ s.columns, c.shape.isRead c.type = true)
    (he : e.HasStorableValues) : ∃ doc, documentOf e = .ok doc := by
  apply exists_documentOf
  intro name type v _ htype hv
  exact ⟨reads_of_isRead hread htype hv, rewrites_of_isStorable type (he name v hv)⟩

theorem lookup_identifier (hdoc : documentOf e = .ok doc) :
    Assoc.lookup "_id" doc = some (storedValue (.text e.id.toText)) :=
  (members_of_documentOf hdoc).2.1

theorem lookup_sortValue (hs : s.Sorts keys) (hkey : key ∈ keys) (he : e.HasStorableValues)
    (hdoc : documentOf e = .ok doc) :
    Assoc.lookup (memberName key.field) doc = some (storedValue (sortValue e key.field)) := by
  obtain ⟨type, htype : s.descriptor.type? key.field = some type⟩ :=
    Option.isSome_iff_exists.1 (hs.declared key hkey)
  obtain ⟨v, hv⟩ := e.exists_value_of_type? htype
  have hsort : sortValue e key.field = v := congrArg (Option.getD · FieldValue.null) hv
  have hkeeps : type.Keeps v := by
    obtain haccepts | ⟨c, hmem, hname, rfl, cell, rfl⟩ := e.declared_cases htype hv
    · exact keeps_of_holds (.inl haccepts)
    · exact cell.keeps_of_isKept (hs.kept key hkey c hmem hname)
  rw [hsort]
  exact lookup_of_documentOf hdoc (hs.stored key hkey) htype hv
    (isFinite_of_isStorable (he key.field v hv)) hkeeps (hs.not_identifier key hkey)

theorem isStorable_sortValue (he : e.HasStorableValues) (field : String) :
    (sortValue e field).IsStorable := by
  rw [sortValue]
  cases hv : Resource.value? e field with
  | none => trivial
  | some v => exact he field v hv

theorem memberName_ne_flagName (hs : s.Sorts keys) (hkey : key ∈ keys) :
    ∀ i < keys.length, memberName key.field ≠ flagName i := by
  intro i hi
  rw [memberName]
  split
  · exact identifier_ne_flagName i
  · exact hs.not_flag key hkey i hi

theorem exists_memberOrder?_key {da db a' b' : Document} (hs : s.Sorts keys)
    (ha : a.HasStorableValues) (hb : b.HasStorableValues) (hda : documentOf a = .ok da)
    (hdb : documentOf b = .ok db) (ha' : IsFlagged keys da a') (hb' : IsFlagged keys db b')
    {i : Nat} (hnumbered : (i, key) ∈ numbered keys) :
    ∃ flag member,
      memberOrder? (Assoc.lookup (flagName i) a') (Assoc.lookup (flagName i) b') = some flag ∧
      memberOrder? (Assoc.lookup (memberName key.field) a')
        (Assoc.lookup (memberName key.field) b') = some member ∧
      flag.then member = (sortValue a key.field).compareNullsLast (sortValue b key.field) := by
  have hkey : key ∈ keys := (List.of_mem_zip hnumbered).2
  have hname := memberName_ne_flagName hs hkey
  obtain ⟨type, htype⟩ := Entity.exists_sortValue_form s key.field
  obtain ⟨member, hmember, hthen⟩ := exists_memberOrder? (htype a) (htype b)
    (isStorable_sortValue ha key.field) (isStorable_sortValue hb key.field)
  refine ⟨_, member, ?_, ?_, hthen⟩
  · rw [ha'.flag i key hnumbered, hb'.flag i key hnumbered, memberOrder?_flagOf,
      lookup_sortValue hs hkey ha hda, lookup_sortValue hs hkey hb hdb,
      isNullOrMissing_storedValue, isNullOrMissing_storedValue]
  · rw [ha'.member _ hname, hb'.member _ hname, lookup_sortValue hs hkey ha hda,
      lookup_sortValue hs hkey hb hdb, hmember]

theorem memberOrder?_identifier {da db a' b' : Document} (hda : documentOf a = .ok da)
    (hdb : documentOf b = .ok db) (ha' : IsFlagged keys da a') (hb' : IsFlagged keys db b') :
    memberOrder? (Assoc.lookup "_id" a') (Assoc.lookup "_id" b') = some (compare a.id b.id) := by
  have hname : ∀ i < keys.length, "_id" ≠ flagName i := fun i _ => identifier_ne_flagName i
  rw [ha'.member _ hname, hb'.member _ hname, lookup_identifier hda, lookup_identifier hdb,
    Uuid.compare_eq_cmp_toText]
  rfl

theorem firstDifference_flaggedKeys {order : String → Ordering} {keys : List (Nat × SortKey)}
    (h : ∀ i key, (i, key) ∈ keys → (order (flagName i)).then (order (memberName key.field)) =
      (sortValue a key.field).compareNullsLast (sortValue b key.field)) :
    firstDifference ((keys.flatMap flaggedKey).map (keyOrder order)) =
      firstDifference ((keys.map Prod.snd).map (keyDifference a b)) := by
  induction keys with
  | nil => rfl
  | cons first rest ih =>
      obtain ⟨i, key⟩ := first
      have hrest := ih fun i key hkey => h i key (List.mem_cons_of_mem _ hkey)
      have hkey : firstDifference ((flaggedKey (i, key)).map (keyOrder order)) =
          keyDifference a b key := by
        rw [keyDifference, ← h i key List.mem_cons_self, apply_then]
        exact congrArg _ Ordering.then_eq
      rw [List.flatMap_cons, List.map_append, firstDifference_append, hkey, hrest]
      rfl

theorem pageOrder?_documentOf {da db : Document} {page : PageSpec} {direction : Direction}
    (hs : s.Sorts page.keys) (hdirection : ∀ key ∈ page.keys, key.direction = direction)
    (ha : a.HasStorableValues) (hb : b.HasStorableValues) (hda : documentOf a = .ok da)
    (hdb : documentOf b = .ok db) :
    pageOrder? page da db = some (compareEntities a b page.keys) := by
  obtain ⟨a', b', ha', hb', hpage⟩ := pageOrder?_eq page da db
  let order (name : String) : Ordering :=
    (memberOrder? (Assoc.lookup name a') (Assoc.lookup name b')).getD .eq
  have horder {name : String} {o : Ordering}
      (h : memberOrder? (Assoc.lookup name a') (Assoc.lookup name b') = some o) : order name = o :=
    congrArg (Option.getD · Ordering.eq) h
  have hid := memberOrder?_identifier hda hdb ha' hb'
  have hkeyed {i : Nat} {key : SortKey} (hkey : (i, key) ∈ numbered page.keys) :=
    exists_memberOrder?_key hs ha hb hda hdb ha' hb' hkey
  -- Every member that documents are compared by has an order.
  have hnames : ∀ name, name ∈ Assoc.keys (directedKeys page.keys) ∨ name = "_id" →
      memberOrder? (Assoc.lookup name a') (Assoc.lookup name b') = some (order name) := by
    rintro name (hname | rfl)
    · obtain ⟨entry, hentry, rfl⟩ := List.mem_map.1 hname
      obtain ⟨i, key, hkey, hcase⟩ := exists_numbered_of_mem hentry
      obtain ⟨flag, member, hflag, hmember, -⟩ := hkeyed hkey
      obtain rfl | rfl := hcase
      · rw [hflag, horder hflag]
      · rw [hmember, horder hmember]
    · rw [hid, horder hid]
  have hthen : ∀ i key, (i, key) ∈ numbered page.keys →
      (order (flagName i)).then (order (memberName key.field)) =
        (sortValue a key.field).compareNullsLast (sortValue b key.field) := by
    intro i key hkey
    obtain ⟨flag, member, hflag, hmember, hthen⟩ := hkeyed hkey
    rw [horder hflag, horder hmember, hthen]
  have hdirected := direction_of_mem_directedKeys hdirection
  rw [hpage, compareBy?_withIdentifier hdirected hnames, directedKeys,
    firstDifference_flaggedKeys hthen, map_snd_numbered, horder hid, compareEntities_eq]
  rfl

end Documents

/-! ## Listings -/

/-- By an assembled page whose keys the store can sort by, the documents of two entities are in
the order of the entities. A null is behind every other value, or before it if the direction
is descending; entities on which all keys agree are in the order of their identifiers; and a
field that is asked for again changes nothing. Entities have documents if no text is taken
for an instant. -/
theorem pageOrder?_eq_compareEntities {s : Schema} {a b : Entity s}
    {index size : Int64} {direction : Option Direction} {sort : Option (List String)}
    {page : PageSpec} (hpage : PageSpec.assemble s.descriptor index size direction sort = .ok page)
    (hs : s.Sorts page.keys) (ha : a.HasStorableValues) (hb : b.HasStorableValues) :
    ((∀ c ∈ s.columns, c.shape.isRead c.type = true) →
      ∃ da db, documentOf a = .ok da ∧ documentOf b = .ok db) ∧
    ∀ da db, documentOf a = .ok da → documentOf b = .ok db →
      pageOrder? page da db = some (compareEntities a b page.keys) ∧
      (∀ before key after, page.keys = before ++ key :: after → AgreeOn a b before →
        sortValue a key.field = .null → sortValue b key.field ≠ .null →
          pageOrder? page da db = some (key.direction.apply .gt)) ∧
      (AgreeOn a b page.keys → pageOrder? page da db = some (compare a.id b.id)) ∧
      ∀ before field after page', sort = some (before ++ field :: after) → field ∈ before →
        PageSpec.assemble s.descriptor index size direction (some (before ++ after)) = .ok page' →
          pageOrder? page' da db = pageOrder? page da db := by
  obtain ⟨d, hdirection⟩ := PageSpec.exists_direction_of_assemble hpage
  refine ⟨?_, ?_⟩
  · intro hread
    obtain ⟨da, hda⟩ := exists_documentOf_of_isRead hread ha
    obtain ⟨db, hdb⟩ := exists_documentOf_of_isRead hread hb
    exact ⟨da, db, hda, hdb⟩
  · intro da db hda hdb
    have horder := pageOrder?_documentOf hs hdirection ha hb hda hdb
    refine ⟨horder, ?_, ?_, ?_⟩
    · intro before key after hkeys hagree hnull hvalue
      have hkey := keyDifference_of_null hnull hvalue
      have hdiffer : keyDifference a b key ≠ .eq := by
        rw [hkey]
        cases key.direction <;> decide
      rw [horder, hkeys, compareEntities_of_differ after hagree hdiffer, hkey]
    · intro hagree
      rw [horder, compareEntities_of_agree hagree]
      rfl
    · rintro before field after page' rfl hfield hpage'
      obtain ⟨front, key, back, hkeys, hkeys', hkey⟩ :=
        PageSpec.keys_of_repeated hpage hpage' hfield
      have hs' : s.Sorts page'.keys := by
        rw [hkeys] at hs
        rw [hkeys']
        exact hs.mono (List.Sublist.append_left (List.sublist_cons_self key back) front)
      obtain ⟨d', hdirection'⟩ := PageSpec.exists_direction_of_assemble hpage'
      rw [horder, pageOrder?_documentOf hs' hdirection' ha hb hda hdb, hkeys, hkeys',
        compareEntities_repeated a b back hkey]

/-- Of two sign-ins of one provider, the one that has not been used comes first in the
descending direction, whether or not the provider is asked for again. -/
theorem pageOrder?_of_unused_signIn :
    let now : Instant := ⟨⟨2010, 11, 23, by decide⟩, 36930, 0, by decide, by decide⟩
    let signIn (id : Nat) (lastLogin : Cell (Directory.optional "last_login" .instant .dateTime)) :
        Entity Directory.authentication :=
      .create (.ofNat id) now (.cons (.value "ann") (.cons (.value ⟨"LOCAL", by decide⟩)
        (.cons (.value (.ofNat 3)) (.cons (.value true) (.cons lastLogin
          (.cons (.value (0 : Int64)) .nil))))))
    let sorted (fields : List String) :=
      PageSpec.assemble Directory.authentication.descriptor 0 20 (some .descending) (some fields)
    ∃ page page' a b, sorted ["provider", "last_login", "provider"] = .ok page ∧
      sorted ["provider", "last_login"] = .ok page' ∧
      documentOf (signIn 2 (.unset 0 (by decide))) = .ok a ∧
      documentOf (signIn 1 (.value now)) = .ok b ∧
      pageOrder? page a b = some .lt ∧ pageOrder? page' a b = some .lt := by
  intro now signIn sorted
  have hyear : IsFourDigitYear 2010 := ⟨by decide, by decide⟩
  have hstorable (id : Nat) (lastLogin : Cell (Directory.optional "last_login" .instant .dateTime))
      (h : lastLogin.fieldValue.IsStorable) : (signIn id lastLogin).HasStorableValues := by
    intro name v
    apply Entity.storable_of_values hyear hyear
    intro field hfield
    simp only [signIn, Entity.create, Cells.values, List.mem_cons, List.not_mem_nil,
      or_false] at hfield
    obtain rfl | rfl | rfl | rfl | rfl | rfl := hfield
    case inr.inr.inr.inr.inl => exact h
    all_goals trivial
  have hpage : sorted ["provider", "last_login", "provider"] = .ok ⟨0, 20, ["provider",
      "last_login", "provider"].map fun field => ⟨field, .descending⟩⟩ := rfl
  have hpage' : sorted ["provider", "last_login"] = .ok ⟨0, 20, ["provider",
      "last_login"].map fun field => ⟨field, .descending⟩⟩ := rfl
  have hs : Directory.authentication.Sorts (["provider", "last_login", "provider"].map
      fun field => ⟨field, .descending⟩) :=
    ⟨by decide, by decide, by decide, by decide, by decide⟩
  obtain ⟨hdocuments, horder⟩ := pageOrder?_eq_compareEntities hpage hs
    (hstorable 2 (.unset 0 (by decide)) trivial) (hstorable 1 (.value now) hyear)
  obtain ⟨a, b, ha, hb⟩ := hdocuments (by decide)
  obtain ⟨-, hnull, -, hrepeated⟩ := horder a b ha hb
  have hagree : AgreeOn (signIn 2 (.unset 0 (by decide))) (signIn 1 (.value now))
      [⟨"provider", .descending⟩] := by
    intro key hkey
    rw [List.mem_singleton.1 hkey]
    decide +kernel
  have hlt := hnull [⟨"provider", .descending⟩] ⟨"last_login", .descending⟩
    [⟨"provider", .descending⟩] rfl hagree rfl (by decide)
  have hsame := hrepeated ["provider", "last_login"] "provider" [] _ rfl (by decide) hpage'
  exact ⟨_, _, a, b, hpage, hpage', ha, hb, hlt, hsame.trans hlt⟩

/-! ## Misleading columns -/

/-- Notes with a column that has the name of the first flag. -/
def flaggedNote : Schema where
  singular := "note"
  plural := "notes"
  columns := [⟨"__null_0", .text, 0, .text⟩]

/-- Notes with a text that is declared as an instant. -/
def quotedNote : Schema where
  singular := "note"
  plural := "notes"
  columns := [⟨"taken", .text, 0, .dateTime⟩]

theorem hasStorableValues_note {s : Schema} {id : Nat} {cells : Cells s.columns}
    (h : ∀ field ∈ cells.values, field.2.IsStorable) : (note id cells).HasStorableValues := by
  have hyear : IsFourDigitYear 2010 := ⟨by decide, by decide⟩
  intro name v hv
  exact Entity.storable_of_values hyear hyear h hv

/-- Two entities that have different identifiers and can be stored are not in the order of
their documents, by an assembled page with one declared field. -/
def Misplaced {s : Schema} (a b : Entity s) (field : String) : Prop :=
  a.id ≠ b.id ∧ a.HasStorableValues ∧ b.HasStorableValues ∧ ∃ page da db,
    PageSpec.assemble s.descriptor 0 20 none (some [field]) = .ok page ∧
    page.validateSort s.descriptor = .ok () ∧ documentOf a = .ok da ∧ documentOf b = .ok db ∧
    pageOrder? page da db ≠ some (compareEntities a b page.keys)

/-- A declared field by which the store compares two documents in another way misplaces them. -/
theorem misplaced_of_pageOrder? {s : Schema} {a b : Entity s} {field : String} {da db : Document}
    (hdeclared : s.descriptor.contains field = true) (hid : a.id ≠ b.id)
    (ha : a.HasStorableValues) (hb : b.HasStorableValues) (hda : documentOf a = .ok da)
    (hdb : documentOf b = .ok db)
    (horder : pageOrder? ⟨0, 20, [⟨field, .ascending⟩]⟩ da db ≠
      some (compareEntities a b [⟨field, .ascending⟩])) :
    Misplaced a b field := by
  let page : PageSpec := ⟨0, 20, [⟨field, .ascending⟩]⟩
  have hkeys : ∀ key ∈ page.keys, s.descriptor.contains key.field = true :=
    List.forall_mem_singleton.2 hdeclared
  exact ⟨hid, ha, hb, page, da, db, rfl, PageSpec.validateSort_of_declared hkeys, hda, hdb,
    horder⟩

/-- By each of these columns two notes are misplaced, and a text that is declared as an instant
can be one that has no document. -/
theorem misplaced_notes :
    Misplaced (note 2 (.cons (.value "a") .nil) : Entity flaggedNote)
      (note 1 (.cons (.value "b") .nil)) "__null_0" ∧
    Misplaced (note 2 (.cons (.value "a") .nil) : Entity labelledNote)
      (note 1 (.cons (.value "b") .nil)) "_id" ∧
    Misplaced (note 1 (.cons (.value fullSecond) .nil) : Entity timedNote)
      (note 2 (.cons (.value halfSecond) .nil)) "taken" ∧
    Misplaced (note 1 (.cons (.value "2010-11-23T11:00:00+01:00") .nil) : Entity quotedNote)
      (note 2 (.cons (.value "2010-11-23T10:30:00Z") .nil)) "taken" ∧
    Misplaced (note 2 (.cons (.value "a") .nil) : Entity markedNote)
      (note 1 (.cons (.value "b") .nil)) "r#type" ∧
    ∀ doc, documentOf (note 1 (.cons (.value "a") .nil) : Entity quotedNote) ≠ .ok doc := by
  have hyear : IsFourDigitYear 2024 := ⟨by decide, by decide⟩
  refine ⟨?_, ?_, ?_, ?_, ?_, ?_⟩
  · refine misplaced_of_pageOrder? rfl (by decide) (hasStorableValues_note ?_)
      (hasStorableValues_note ?_) rfl rfl (by decide +kernel) <;>
      exact List.forall_mem_singleton.2 trivial
  · refine misplaced_of_pageOrder? rfl (by decide) (hasStorableValues_note ?_)
      (hasStorableValues_note ?_) rfl rfl (by decide +kernel) <;>
      exact List.forall_mem_singleton.2 trivial
  · refine misplaced_of_pageOrder? rfl (by decide) (hasStorableValues_note ?_)
      (hasStorableValues_note ?_) rfl rfl (by decide +kernel) <;>
      exact List.forall_mem_singleton.2 hyear
  · refine misplaced_of_pageOrder? rfl (by decide) (hasStorableValues_note ?_)
      (hasStorableValues_note ?_) rfl rfl (by decide +kernel) <;>
      exact List.forall_mem_singleton.2 trivial
  · refine misplaced_of_pageOrder? rfl (by decide) (hasStorableValues_note ?_)
      (hasStorableValues_note ?_) rfl rfl (by decide +kernel) <;>
      exact List.forall_mem_singleton.2 trivial
  · rintro doc ⟨⟩

end DocumentStore

end EntityQuery
