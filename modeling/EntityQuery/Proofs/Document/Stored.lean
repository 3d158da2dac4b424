import EntityQuery.Proofs.Document.Comparing
import EntityQuery.Proofs.Entity.Reading
import EntityQuery.Store.Document
/-!
# Stored documents

An entity is stored as the document of its JSON, in which instants are written again in a
form of one width and the identifier has another name. What ends up under a field's name
is the value that filters compare with, provided that every field holds what its declared
type can hold, and that no column has the name of the identifier's member.

The declared type of a column is not derived from the shape of its values. A schema in
which the two fit each other has no entities that hold anything else.
-/

namespace EntityQuery

/-- What a field of a type can hold: a value of the type, or among doubles a whole number
that is a double. -/
def FieldType.Holds (type : FieldType) (v : FieldValue) : Prop :=
  type.accepts v = true ∨ type = .decimal ∧ ∃ n, v = .integer n ∧ FieldValue.IsDouble n

/-- A field of a type does not take for an instant what is stored as another text. -/
def FieldType.Reads (type : FieldType) : FieldValue → Prop
  | .text _ | .enum _ | .date _ => type ≠ .dateTime
  | _ => True

/-- A field of a type keeps what it holds in its stored form: it does not take a text for an
instant, and an instant is declared as one. -/
def FieldType.Keeps (type : FieldType) (v : FieldValue) : Prop :=
  type.Reads v ∧ ∀ t, v = .dateTime t → type = .dateTime

/-- An instant that a field of a type writes again is in a year with four digits. -/
def FieldType.Rewrites (type : FieldType) (v : FieldValue) : Prop :=
  type = .dateTime → ∀ t, v = .dateTime t → IsFourDigitYear t.date.year

/-- Every value of the entity is stored without loss. -/
def Entity.HasStorableValues {s : Schema} (e : Entity s) : Prop :=
  ∀ name v, e.value? name = some v → v.IsStorable

/-- Every value of the entity is one that its field can hold, and is stored without loss. -/
structure Entity.IsStorable {s : Schema} (e : Entity s) : Prop where
  holds : ∀ name type v, s.descriptor.type? name = some type → e.value? name = some v →
    type.Holds v
  storable : e.HasStorableValues

/-- Whether a type fits a shape: it accepts the values of the shape, or the values are whole
numbers of 32 bits, all of which are doubles. -/
def Shape.fits : Shape → FieldType → Bool
  | text, .text | uuid, .text | int32, .integer | int32, .decimal | int64, .integer
  | double, .decimal | boolean, .boolean | date, .date | instant, .dateTime
  | choice _, .enum _ => true
  | _, _ => false

section Fields

variable {s : Schema}

theorem FieldValue.isDouble_ofInt32 (n : Int32) : IsDouble (Int64.ofInt n.toInt) := by
  have hlow := n.le_toInt
  have hhigh := n.toInt_lt
  have hint : (Int64.ofInt n.toInt).toInt = n.toInt := Int64.toInt_ofInt_of_le (by omega) (by omega)
  apply isDouble_of_lt
  rw [hint]
  omega

theorem Shape.holds_of_fits {shape : Shape} {type : FieldType} (h : shape.fits type = true)
    (v : shape.Carrier) : type.Holds (shape.fieldValue v) := by
  cases shape <;> cases type <;> cases h <;>
    first | exact .inl rfl | exact .inr ⟨rfl, _, rfl, FieldValue.isDouble_ofInt32 v⟩

theorem Cell.holds_of_fits {c : Column} (h : c.shape.fits c.type = true) (cell : Cell c) :
    c.type.Holds cell.fieldValue := by
  cases cell with
  | value v => exact c.shape.holds_of_fits h v
  | unset => exact .inl (by cases c.type <;> rfl)

theorem Entity.holds_of_fits (hs : ∀ c ∈ s.columns, c.shape.fits c.type = true) (e : Entity s)
    {name : String} {type : FieldType} {v : FieldValue}
    (htype : s.descriptor.type? name = some type) (hv : e.value? name = some v) :
    type.Holds v := by
  obtain haccepts | ⟨c, hmem, rfl, rfl, cell, rfl⟩ := e.declared_cases htype hv
  · exact .inl haccepts
  · exact cell.holds_of_fits (hs c hmem)

/-- Every value of an entity can be stored if its instants and the values of its columns can. -/
theorem Entity.storable_of_values {e : Entity s} (hcreated : IsFourDigitYear e.createdAt.date.year)
    (hupdated : IsFourDigitYear e.updatedAt.date.year)
    (hcells : ∀ field ∈ e.cells.values, field.2.IsStorable) {name : String} {v : FieldValue}
    (hv : e.value? name = some v) : v.IsStorable :=
  of_values (P := FieldValue.IsStorable) trivial hcreated hupdated hcells hv

end Fields

namespace DocumentStore

/-! ## Reading back the JSON -/

/-- A value as it is in the document before instants are written again. -/
def unnormalized : FieldValue → Bson
  | .dateTime t => .string (String.ofList (t.write .shortest))
  | .decimal x => if x.isFinite then .double x else .null
  | v => storedValue v

/-- A value as a field of a type has it in the document: a field of instants has them written
again. -/
def normalized : FieldType → FieldValue → Bson
  | .dateTime, .dateTime t => storedValue (.dateTime t)
  | _, v => unnormalized v

theorem ofJson?_toJson (v : FieldValue) : Bson.ofJson? v.toJson = some (unnormalized v) := by
  cases v with
  | integer n =>
      rw [FieldValue.toJson, Bson.ofJson?, Integer.ofInt?_toInt]
      rfl
  | decimal x =>
      rw [FieldValue.toJson, Json.ofBinary64, unnormalized]
      split <;> rfl
  | _ => rfl

theorem ofMembers?_toJson (values : List (String × FieldValue)) :
    Bson.ofMembers? (values.map fun field => (field.1, field.2.toJson)) =
      some (values.map fun field => (field.1, unnormalized field.2)) := by
  induction values with
  | nil => rfl
  | cons field rest ih =>
      rw [List.map_cons, Bson.ofMembers?, ofJson?_toJson, ih]
      rfl

/-! ## Instants -/

theorem isFinite_of_isStorable {v : FieldValue} (h : v.IsStorable) : v.IsFinite := by
  cases v with
  | decimal x => exact h
  | _ => trivial

theorem rewrites_of_isStorable (type : FieldType) {v : FieldValue} (h : v.IsStorable) :
    type.Rewrites v := by
  rintro - t rfl
  exact h

theorem unnormalized_eq_storedValue {v : FieldValue} (hfinite : v.IsFinite)
    (h : ∀ t, v ≠ .dateTime t) : unnormalized v = storedValue v := by
  cases v with
  | dateTime t => exact absurd rfl (h t)
  | decimal x => exact if_pos hfinite
  | _ => rfl

theorem normalized_eq_unnormalized {type : FieldType} {v : FieldValue}
    (h : ¬ (type = .dateTime ∧ ∃ t, v = .dateTime t)) : normalized type v = unnormalized v := by
  cases type with
  | dateTime =>
      cases v with
      | dateTime t => exact absurd ⟨rfl, t, rfl⟩ h
      | _ => rfl
  | _ => rfl

theorem normalized_of_keeps {type : FieldType} {v : FieldValue} (hfinite : v.IsFinite)
    (h : type.Keeps v) : normalized type v = storedValue v := by
  by_cases hinstant : type = .dateTime ∧ ∃ t, v = .dateTime t
  · obtain ⟨rfl, t, rfl⟩ := hinstant
    rfl
  · rw [normalized_eq_unnormalized hinstant, unnormalized_eq_storedValue hfinite]
    intro t ht
    exact hinstant ⟨h.2 t ht, t, ht⟩

theorem keeps_of_holds {type : FieldType} {v : FieldValue} (h : type.Holds v) : type.Keeps v := by
  obtain haccepts | ⟨rfl, n, rfl, _⟩ := h
  · refine ⟨?_, ?_⟩
    · cases v <;> cases type <;> cases haccepts <;> first | trivial | nofun
    · rintro t rfl
      cases type <;> cases haccepts
      rfl
  · refine ⟨trivial, ?_⟩
    intro t ht
    cases ht

/-- One field of a document: an instant is written again under its name, and a document with
anything else under it stays as it is. -/
theorem normalizeInstants_cons {name : String} {type : FieldType} {doc : Document}
    {v : FieldValue} (rest : List (String × FieldType)) (hreads : type.Reads v)
    (hrewrites : type.Rewrites v) (hdoc : Assoc.lookup name doc = some (unnormalized v)) :
    ∃ doc', normalizeInstants ((name, type) :: rest) doc = normalizeInstants rest doc' ∧
      Assoc.lookup name doc' = some (normalized type v) ∧
      ∀ other, other ≠ name → Assoc.lookup other doc' = Assoc.lookup other doc := by
  by_cases hinstant : type = .dateTime ∧ ∃ t, v = .dateTime t
  · obtain ⟨rfl, t, rfl⟩ := hinstant
    refine ⟨Assoc.insert name (.string (writeInstant t)) doc, ?_, ?_, ?_⟩
    · have hread := Instant.readStrict?_write (hrewrites rfl t rfl)
      conv_lhs => unfold normalizeInstants
      simp only [hdoc, unnormalized, String.toList_ofList, hread]
    · rw [Assoc.lookup_insert, if_pos rfl]
      rfl
    · intro other hother
      rw [Assoc.lookup_insert, if_neg (Ne.symm hother)]
  · refine ⟨doc, ?_, ?_, fun _ _ => rfl⟩
    · conv_lhs => unfold normalizeInstants
      rw [hdoc]
      cases type with
      | dateTime =>
          cases v with
          | dateTime t => exact absurd ⟨rfl, t, rfl⟩ hinstant
          | text _ | enum _ | date _ => exact absurd rfl hreads
          | decimal x =>
              rw [unnormalized]
              split_ifs <;> rfl
          | _ => rfl
      | _ => rfl
    · rw [hdoc, normalized_eq_unnormalized hinstant]

/-- Whatever a field holds, the other members stay as they are, and an instant that the field
writes again is in a year with four digits. -/
theorem frame_of_normalizeInstants {name : String} {type : FieldType}
    {rest : List (String × FieldType)} {doc doc' : Document}
    (h : normalizeInstants ((name, type) :: rest) doc = .ok doc') :
    ∃ doc₁, normalizeInstants rest doc₁ = .ok doc' ∧
      (∀ other, other ≠ name → Assoc.lookup other doc₁ = Assoc.lookup other doc) ∧
      ∀ v, Assoc.lookup name doc = some (unnormalized v) → type.Rewrites v := by
  unfold normalizeInstants at h
  split at h
  · next raw hraw =>
      split at h
      · next t hread =>
          refine ⟨_, h, ?_, ?_⟩
          · intro other hother
            rw [Assoc.lookup_insert, if_neg (Ne.symm hother)]
          · rintro v hv - u rfl
            rw [hraw] at hv
            cases hv
            rw [String.toList_ofList] at hread
            by_contra hyear
            rw [Instant.readStrict?_write_of_signed .shortest hyear] at hread
            cases hread
      · cases h
  · next hother =>
      refine ⟨doc, h, fun _ _ => rfl, ?_⟩
      rintro v hv rfl t rfl
      exact absurd hv (hother _ rfl)

/-- In a document in which instants were written again, every field that takes no text for an
instant has its value, and what is not a field is as it was. -/
theorem lookup_of_normalizeInstants {fields : List (String × FieldType)} {doc doc' : Document}
    (h : normalizeInstants fields doc = .ok doc') (hnodup : (Assoc.keys fields).Nodup) :
    (∀ name, name ∉ Assoc.keys fields → Assoc.lookup name doc' = Assoc.lookup name doc) ∧
      ∀ name type v, (name, type) ∈ fields →
        Assoc.lookup name doc = some (unnormalized v) → type.Rewrites v ∧
        (type.Reads v → Assoc.lookup name doc' = some (normalized type v)) := by
  -- The frame is part of the induction: a later field must not touch the names before it.
  induction fields generalizing doc with
  | nil =>
      cases h
      refine ⟨fun _ _ => rfl, ?_⟩
      intro name type v hmem
      cases hmem
  | cons field rest ih =>
      obtain ⟨name, type⟩ := field
      obtain ⟨hnew, hrest⟩ := List.nodup_cons.1 hnodup
      obtain ⟨doc₁, hdoc₁, hframe, hrewrites⟩ := frame_of_normalizeInstants h
      obtain ⟨hlater, hfields⟩ := ih hdoc₁ hrest
      refine ⟨?_, ?_⟩
      · intro other hother
        obtain ⟨hne, hother⟩ := not_or.1 (List.mem_cons.not.1 hother)
        rw [hlater other hother, hframe other hne]
      · intro other type' v hmem hdoc
        obtain heq | hmem := List.mem_cons.1 hmem
        · cases heq
          refine ⟨hrewrites v hdoc, ?_⟩
          intro hreads
          obtain ⟨doc₂, hstep, hname, -⟩ :=
            normalizeInstants_cons rest hreads (hrewrites v hdoc) hdoc
          obtain ⟨hlater₂, -⟩ := ih (hstep ▸ h) hrest
          rw [hlater₂ name hnew, hname]
        · have hother : other ∈ Assoc.keys rest := List.mem_map_of_mem hmem
          have hne : other ≠ name := fun hname => hnew (hname ▸ hother)
          exact hfields other type' v hmem ((hframe other hne).trans hdoc)

/-- Instants in years with four digits can be written again where no field takes a text for
one. -/
theorem exists_normalizeInstants {fields : List (String × FieldType)} (doc : Document)
    (hnodup : (Assoc.keys fields).Nodup)
    (hfields : ∀ field ∈ fields, ∃ v, field.2.Reads v ∧ field.2.Rewrites v ∧
      Assoc.lookup field.1 doc = some (unnormalized v)) :
    ∃ doc', normalizeInstants fields doc = .ok doc' := by
  induction fields generalizing doc with
  | nil => exact ⟨doc, rfl⟩
  | cons field rest ih =>
      obtain ⟨name, type⟩ := field
      obtain ⟨hnew, hrest⟩ := List.nodup_cons.1 hnodup
      obtain ⟨v, hreads, hrewrites, hdoc⟩ := hfields (name, type) List.mem_cons_self
      obtain ⟨doc₁, hstep, -, hframe⟩ := normalizeInstants_cons rest hreads hrewrites hdoc
      rw [hstep]
      refine ih doc₁ hrest ?_
      intro field hfield
      have hother : field.1 ∈ Assoc.keys rest := List.mem_map_of_mem hfield
      have hne : field.1 ≠ name := fun hname => hnew (hname ▸ hother)
      obtain ⟨w, hwreads, hwrewrites, hwdoc⟩ := hfields field (List.mem_cons_of_mem _ hfield)
      exact ⟨w, hwreads, hwrewrites, (hframe field.1 hne).trans hwdoc⟩

/-! ## Documents -/

section Documents

variable {s : Schema} {e : Entity s}

/-- Every field of the entity is in the document, under its member name and as filters write
its value, unless its name is a raw identifier. -/
def IsStoredIn (e : Entity s) (doc : Document) : Prop :=
  ∀ name type v, storedName name = name → s.descriptor.type? name = some type →
    e.value? name = some v → Assoc.lookup (memberName name) doc = some (storedValue v)

/-- The members of an entity before instants are written again. -/
def unnormalizedMembers (e : Entity s) : Document :=
  e.values.map fun field => (storedName field.1, unnormalized field.2)

/-- A value as a field has it in the document. Instants are looked for under the declared names,
which are not those of members if they are raw identifiers. -/
def keptValue (name : String) (type : FieldType) (v : FieldValue) : Bson :=
  if storedName name = name then normalized type v else unnormalized v

theorem moveMember_eq {source target : String} {doc : Document} {v : Bson}
    (h : Assoc.lookup source doc = some v) :
    moveMember source target doc = Assoc.insert target v (Assoc.erase source doc) := by
  rw [moveMember, h]

/-- The members of an entity's JSON make a document: there are too many of them for an object
that stands for something else. -/
theorem ofJson?_encode (e : Entity s) :
    Bson.ofJson? e.encode = some (.document (unnormalizedMembers e)) := by
  have hmany : 2 < (unnormalizedMembers e).length := by
    simp only [unnormalizedMembers, Entity.values, List.map_cons, List.length_cons]
    omega
  have hmembers := ofMembers?_toJson (e.values.map fun field => (storedName field.1, field.2))
  simp only [List.map_map, Function.comp_def] at hmembers
  rw [e.encode_eq, Bson.ofJson?, hmembers, Option.map_some]
  exact congrArg some (Bson.ofDocument_of_two_lt hmany)

theorem ne_identifier_of_mem (hs : ∀ c ∈ s.columns, c.key ≠ "_id") {name : String}
    (h : name ∈ Assoc.keys s.fields) : storedName name ≠ "_id" := by
  have hstored : storedName name ∈ (Assoc.keys s.fields).map storedName :=
    List.mem_map_of_mem h
  rw [s.map_storedName_keys_fields, List.mem_append] at hstored
  rintro hname
  rw [hname] at hstored
  obtain hbase | hcolumn := hstored
  · exact absurd hbase (by decide)
  · obtain ⟨c, hc, hkey⟩ := List.mem_map.1 hcolumn
    exact hs c hc hkey

/-- The fields of which a document can have members. -/
def unmarkedFields (s : Schema) : List (String × FieldType) :=
  s.fields.filter fun field => storedName field.1 = field.1

theorem nodup_keys_unmarkedFields (s : Schema) : (Assoc.keys (unmarkedFields s)).Nodup :=
  s.nodup_keys_fields.sublist (List.filter_sublist.map Prod.fst)

theorem mem_unmarkedFields {name : String} {type : FieldType} (hname : storedName name = name)
    (htype : s.descriptor.type? name = some type) : (name, type) ∈ unmarkedFields s := by
  rw [s.type?_descriptor] at htype
  exact List.mem_filter.2 ⟨Assoc.mem_of_lookup htype, decide_eq_true hname⟩

theorem not_mem_unmarkedFields {name : String} (hname : storedName name ≠ name)
    (h : name ∈ Assoc.keys s.fields) : storedName name ∉ Assoc.keys (unmarkedFields s) := by
  intro hmem
  obtain ⟨field, hfield, heq⟩ := List.mem_map.1 hmem
  obtain ⟨hdeclared, hunmarked⟩ := List.mem_filter.1 hfield
  have hsame : storedName field.1 = storedName name :=
    (of_decide_eq_true hunmarked).trans heq
  exact hname (heq.symm.trans (s.eq_of_storedName (List.mem_map_of_mem hdeclared) h hsame))

/-- Fields of which the document has no members make no difference. -/
theorem normalizeInstants_filter (p : String → Bool) {fields : List (String × FieldType)}
    {doc : Document}
    (h : ∀ field ∈ fields, p field.1 = false → Assoc.lookup field.1 doc = none) :
    normalizeInstants fields doc = normalizeInstants (fields.filter fun field => p field.1) doc := by
  induction fields generalizing doc with
  | nil => rfl
  | cons field rest ih =>
      obtain ⟨name, type⟩ := field
      obtain ⟨hfirst, hrest⟩ := List.forall_mem_cons.1 h
      cases hp : p name with
      | false =>
          have hnone : Assoc.lookup name doc = none := hfirst hp
          rw [List.filter_cons_of_neg (by simp [hp]), ← ih hrest]
          conv_lhs => unfold normalizeInstants
          simp only [hnone]
      | true =>
          rw [List.filter_cons_of_pos (by simp [hp])]
          unfold normalizeInstants
          split
          · split
            · next t _ =>
                apply ih
                intro other hother hpother
                have hne : name ≠ other.1 := by
                  intro heq
                  rw [← heq, hp] at hpother
                  cases hpother
                rw [Assoc.lookup_insert, if_neg hne]
                exact hrest other hother hpother
            · rfl
          · exact ih hrest

/-- A document is made by writing instants again, unless that fails, and then by giving the
identifier its other name. -/
theorem documentOf_eq (e : Entity s) :
    documentOf e =
      (normalizeInstants (unmarkedFields s) (unnormalizedMembers e)).map
        (moveMember "id" "_id") := by
  have hdescriptor : (Resource.descriptor (Entity s)).fields = s.fields := s.fields_descriptor
  have hjson : Bson.ofJson? (Resource.encode e) = _ := ofJson?_encode e
  have hfields : normalizeInstants s.fields (unnormalizedMembers e) =
      normalizeInstants (unmarkedFields s) (unnormalizedMembers e) := by
    apply normalizeInstants_filter fun name => storedName name = name
    intro field _ hmarked
    exact e.lookup_of_marked unnormalized (of_decide_eq_false hmarked)
  rw [documentOf, documentOfJson, hjson]
  simp only [hdescriptor, hfields]

/-- In the document of an entity the identifier is under its other name alone. Every instant of
a field of instants is in a year with four digits, and every field that takes no text for an
instant has its value, unless the identifier has its name. -/
theorem members_of_documentOf {doc : Document} (hdoc : documentOf e = .ok doc) :
    Assoc.lookup "id" doc = none ∧ Assoc.lookup "_id" doc = some (.string e.id.toText) ∧
      ∀ name type v, s.descriptor.type? name = some type → e.value? name = some v →
        (storedName name = name → type.Rewrites v) ∧
        ((storedName name = name → type.Reads v) → name ≠ "id" → storedName name ≠ "_id" →
          Assoc.lookup (storedName name) doc = some (keptValue name type v)) := by
  rw [documentOf_eq] at hdoc
  cases hnormalized : normalizeInstants (unmarkedFields s) (unnormalizedMembers e) with
  | error cause =>
      rw [hnormalized] at hdoc
      cases hdoc
  | ok doc₁ =>
      rw [hnormalized] at hdoc
      obtain ⟨hothers, hfields⟩ :=
        lookup_of_normalizeInstants hnormalized (nodup_keys_unmarkedFields s)
      have hvalue : e.value? "id" = some (.text e.id.toText) := rfl
      obtain ⟨-, hidentifier⟩ := hfields "id" .text (.text e.id.toText)
        (List.mem_filter.2 ⟨List.mem_cons_self, rfl⟩) (e.lookup_storedName unnormalized hvalue)
      have hid : Assoc.lookup "id" doc₁ = some (.string e.id.toText) := hidentifier nofun
      have hmoved : doc = Assoc.insert "_id" (.string e.id.toText) (Assoc.erase "id" doc₁) :=
        (Except.ok.inj hdoc).symm.trans (moveMember_eq hid)
      rw [hmoved]
      refine ⟨?_, ?_, ?_⟩
      · rw [Assoc.lookup_insert, if_neg (by decide), Assoc.lookup_erase, if_pos rfl]
      · rw [Assoc.lookup_insert, if_pos rfl]
      · intro name type v htype hv
        have hunnormalized := e.lookup_storedName unnormalized hv
        have hdeclared : name ∈ Assoc.keys s.fields := by
          rw [s.type?_descriptor] at htype
          exact List.mem_map_of_mem (Assoc.mem_of_lookup htype)
        by_cases hname : storedName name = name
        · obtain ⟨hrewrites, hlookup⟩ := hfields name type v (mem_unmarkedFields hname htype)
            (hname ▸ hunnormalized)
          refine ⟨fun _ => hrewrites, ?_⟩
          intro hreads hne hidentifier
          rw [hname] at hidentifier
          rw [keptValue, if_pos hname, hname, Assoc.lookup_insert, if_neg (Ne.symm hidentifier),
            Assoc.lookup_erase, if_neg (Ne.symm hne), hlookup (hreads hname)]
        · refine ⟨fun h => absurd h hname, ?_⟩
          intro _ hne hidentifier
          have hnotId : storedName name ≠ "id" := fun heq =>
            hne (s.eq_of_storedName hdeclared (s.keys_fields ▸ List.mem_cons_self) heq)
          rw [keptValue, if_neg hname, Assoc.lookup_insert, if_neg (Ne.symm hidentifier),
            Assoc.lookup_erase, if_neg (Ne.symm hnotId),
            hothers _ (not_mem_unmarkedFields hname hdeclared)]
          exact hunnormalized

/-- In the document of an entity, a field that keeps its value has it under its member name and
as filters write it, unless it is stored under another name or under that of the identifier. -/
theorem lookup_of_documentOf {doc : Document} (hdoc : documentOf e = .ok doc) {name : String}
    {type : FieldType} {v : FieldValue} (hstored : storedName name = name)
    (htype : s.descriptor.type? name = some type) (hv : e.value? name = some v)
    (hfinite : v.IsFinite) (hkeeps : type.Keeps v) (hname : name ≠ "_id") :
    Assoc.lookup (memberName name) doc = some (storedValue v) := by
  obtain ⟨-, hid, hfields⟩ := members_of_documentOf hdoc
  rw [memberName]
  by_cases hidentifier : name = "id"
  · subst hidentifier
    cases hv
    rw [if_pos rfl, hid]
    rfl
  · obtain ⟨-, hlookup⟩ := hfields name type v htype hv
    rw [keptValue, if_pos hstored, hstored] at hlookup
    rw [if_neg hidentifier, hlookup (fun _ => hkeeps.1) hidentifier hname,
      normalized_of_keeps hfinite hkeeps]

/-- An entity has a document if no field takes a text for an instant and every instant that is
written again is in a year with four digits. -/
theorem exists_documentOf
    (h : ∀ name type v, storedName name = name → s.descriptor.type? name = some type →
      e.value? name = some v → type.Reads v ∧ type.Rewrites v) :
    ∃ doc, documentOf e = .ok doc := by
  have hfields : ∀ field ∈ unmarkedFields s, ∃ v, field.2.Reads v ∧ field.2.Rewrites v ∧
      Assoc.lookup field.1 (unnormalizedMembers e) = some (unnormalized v) := by
    intro field hfield
    obtain ⟨hdeclared, hunmarked⟩ := List.mem_filter.1 hfield
    have hname : storedName field.1 = field.1 := of_decide_eq_true hunmarked
    obtain ⟨v, hv⟩ := e.exists_value (List.mem_map_of_mem hdeclared)
    have htype : s.descriptor.type? field.1 = some field.2 := by
      rw [s.type?_descriptor]
      exact Assoc.lookup_of_mem s.nodup_keys_fields hdeclared
    obtain ⟨hreads, hrewrites⟩ := h _ _ v hname htype hv
    have hlookup := e.lookup_storedName unnormalized hv
    rw [hname] at hlookup
    exact ⟨v, hreads, hrewrites, hlookup⟩
  obtain ⟨doc, hdoc⟩ := exists_normalizeInstants _ (nodup_keys_unmarkedFields s) hfields
  refine ⟨moveMember "id" "_id" doc, ?_⟩
  rw [documentOf_eq, hdoc]
  rfl

theorem exists_document (hs : ∀ c ∈ s.columns, c.key ≠ "_id") (he : e.IsStorable) :
    ∃ doc, documentOf e = .ok doc ∧ IsStoredIn e doc := by
  obtain ⟨doc, hdoc⟩ := exists_documentOf fun name type v _ htype hv =>
    ⟨(keeps_of_holds (he.holds name type v htype hv)).1,
      rewrites_of_isStorable type (he.storable name v hv)⟩
  refine ⟨doc, hdoc, ?_⟩
  intro name type v hstored htype hv
  have hname : name ≠ "_id" := by
    have hfield := htype
    rw [s.type?_descriptor] at hfield
    rw [← hstored]
    exact ne_identifier_of_mem hs (List.mem_map_of_mem (Assoc.mem_of_lookup hfield))
  exact lookup_of_documentOf hdoc hstored htype hv
    (isFinite_of_isStorable (he.storable name v hv))
    (keeps_of_holds (he.holds name type v htype hv)) hname

end Documents

end DocumentStore

end EntityQuery
