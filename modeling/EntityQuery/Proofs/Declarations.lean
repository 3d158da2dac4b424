import EntityQuery.Proofs.Entity.Fields
/-!
# Sequences of declarations

The table of an entity's fields is written by one declaration after the other. A declaration
changes what is found under its own name and nothing else, and it adds the name at the end unless
the name is there already. So after any sequence of declarations a name has the type of its last
declaration and the place of its first one.
-/

namespace EntityQuery

theorem Assoc.find?_eq_map_lookup {κ : Type u} {α : Type v} [DecidableEq κ] (key : κ)
    (table : List (κ × α)) :
    table.find? (fun pair => pair.1 = key) = (lookup key table).map fun value => (key, value) := by
  induction table with
  | nil => rfl
  | cons pair rest ih =>
      obtain ⟨k, a⟩ := pair
      rw [lookup_cons]
      split
      · next hk =>
          subst hk
          simp
      · next hk => simpa [hk] using ih

/-- The names in a list are those that occur in a sequence, each of them once and in the order in
which they occur for the first time. -/
structure ListsFirst (occurrences names : List String) : Prop where
  mem_iff : ∀ name, name ∈ names ↔ name ∈ occurrences
  pairwise : names.Pairwise fun a b => occurrences.idxOf a < occurrences.idxOf b

namespace ListsFirst

variable {occurrences names : List String} {name : String}

/-- One more occurrence does not move the first ones. -/
theorem pairwise_concat (h : ListsFirst occurrences names) (name : String) :
    names.Pairwise fun a b =>
      (occurrences ++ [name]).idxOf a < (occurrences ++ [name]).idxOf b := by
  refine h.pairwise.imp_of_mem ?_
  intro a b ha hb hlt
  rw [List.idxOf_append_of_mem ((h.mem_iff a).1 ha), List.idxOf_append_of_mem ((h.mem_iff b).1 hb)]
  exact hlt

theorem again (h : ListsFirst occurrences names) (hmem : name ∈ names) :
    ListsFirst (occurrences ++ [name]) names where
  mem_iff other := by
    rw [List.mem_append, List.mem_singleton, ← h.mem_iff other]
    exact ⟨.inl, fun hother => hother.elim id fun heq => heq ▸ hmem⟩
  pairwise := h.pairwise_concat name

theorem first (h : ListsFirst occurrences names) (hmem : name ∉ names) :
    ListsFirst (occurrences ++ [name]) (names ++ [name]) where
  mem_iff other := by rw [List.mem_append, List.mem_append, h.mem_iff other]
  pairwise := by
    refine List.pairwise_append.2 ⟨h.pairwise_concat name, List.pairwise_singleton _ _, ?_⟩
    intro a ha b hb
    obtain rfl := List.mem_singleton.1 hb
    have hnot : b ∉ occurrences := mt (h.mem_iff b).2 hmem
    have hbefore := List.idxOf_lt_length_of_mem ((h.mem_iff a).1 ha)
    rw [List.idxOf_append_of_mem ((h.mem_iff a).1 ha), List.idxOf_append_of_notMem hnot]
    omega

end ListsFirst

namespace Descriptor

/-! ## One declaration -/

variable (d : Descriptor) (name : String) (type : FieldType)

theorem type?_declare (name' : String) :
    (d.declare name type).type? name' = if name = name' then some type else d.type? name' :=
  Assoc.lookup_insert name name' type d.fields

theorem keys_declare :
    Assoc.keys (d.declare name type).fields =
      if name ∈ Assoc.keys d.fields then Assoc.keys d.fields else Assoc.keys d.fields ++ [name] :=
  Assoc.keys_insert name type d.fields

theorem listsFirst_declare {occurrences : List String}
    (h : ListsFirst occurrences (Assoc.keys d.fields)) :
    ListsFirst (occurrences ++ [name]) (Assoc.keys (d.declare name type).fields) := by
  rw [keys_declare]
  split
  · next hmem => exact h.again hmem
  · next hmem => exact h.first hmem

theorem field?_eq : d.field? name = (d.type? name).map fun type => (name, type) :=
  Assoc.find?_eq_map_lookup name d.fields

theorem contains_eq_isSome_field? : d.contains name = (d.field? name).isSome := by
  rw [field?_eq, Option.isSome_map]
  rfl

theorem contains_eq_isOk_resolve : d.contains name = (d.resolve name).isOk := by
  unfold contains Assoc.contains resolve type?
  cases Assoc.lookup name d.fields <;> rfl

/-! ## All declarations -/

def lastType? (declarations : List (String × FieldType)) (name : String) : Option FieldType :=
  ((declarations.filter fun field => field.1 = name).getLast?).map Prod.snd

theorem lastType?_concat (declarations : List (String × FieldType)) (field : String × FieldType) :
    lastType? (declarations ++ [field]) name =
      if field.1 = name then some field.2 else lastType? declarations name := by
  rw [lastType?, List.filter_append]
  split
  · next hname => simp [hname]
  · next hname => simp [hname, lastType?]

variable (entity identity : String) (declarations : List (String × FieldType))

theorem ofDeclarations_concat (field : String × FieldType) :
    ofDeclarations entity identity (declarations ++ [field]) =
      (ofDeclarations entity identity declarations).declare field.1 field.2 := by
  simp [ofDeclarations]

theorem entity_ofDeclarations : (ofDeclarations entity identity declarations).entity = entity := by
  induction declarations using List.reverseRecOn with
  | nil => rfl
  | append_singleton declarations field ih =>
      rw [ofDeclarations_concat]
      exact ih

theorem type?_ofDeclarations :
    (ofDeclarations entity identity declarations).type? name = lastType? declarations name := by
  induction declarations using List.reverseRecOn with
  | nil => rfl
  | append_singleton declarations field ih =>
      rw [ofDeclarations_concat, type?_declare, lastType?_concat, ih]

theorem listsFirst_ofDeclarations :
    ListsFirst (Assoc.keys declarations)
      (Assoc.keys (ofDeclarations entity identity declarations).fields) := by
  induction declarations using List.reverseRecOn with
  | nil => exact ⟨fun _ => Iff.rfl, .nil⟩
  | append_singleton declarations field ih =>
      rw [ofDeclarations_concat, Assoc.keys, List.map_append]
      exact listsFirst_declare _ field.1 field.2 ih

/-- After any sequence of declarations a name resolves to the type of its last declaration, and to
the error that names it and the entity if it was not declared. The three ways to look a name up
agree, and what is found under a name bears the name. The fields are enumerated with each declared
name once, in the order of the first declarations, and each as it is found under its name. -/
theorem fields_as_declared :
    let d : Descriptor := ofDeclarations entity identity declarations
    let names := Assoc.keys declarations
    (∀ name, d.resolve name =
      match lastType? declarations name with
      | some type => .ok type
      | none => .error (.unknownField entity name)) ∧
    (∀ name,
      (d.contains name = true ↔ name ∈ names) ∧
      d.contains name = (d.field? name).isSome ∧
      d.contains name = (d.resolve name).isOk ∧
      (∀ field, d.field? name = some field → field.1 = name ∧ d.resolve name = .ok field.2)) ∧
    (Assoc.keys d.fields).Nodup ∧
    (∀ name, name ∈ Assoc.keys d.fields ↔ name ∈ names) ∧
    ((Assoc.keys d.fields).Pairwise fun a b => names.idxOf a < names.idxOf b) ∧
    ∀ field ∈ d.fields, d.field? field.1 = some field := by
  intro d names
  have hlists : ListsFirst names (Assoc.keys d.fields) :=
    listsFirst_ofDeclarations entity identity declarations
  refine ⟨?resolves, ?agree, d.distinct, hlists.mem_iff, hlists.pairwise, ?enumerated⟩
  case resolves =>
    intro name
    have htype : d.type? name = lastType? declarations name :=
      type?_ofDeclarations name entity identity declarations
    have hentity : d.entity = entity := entity_ofDeclarations entity identity declarations
    cases hlast : lastType? declarations name with
    | some type => exact resolve_eq_ok_iff.2 (htype.trans hlast)
    | none => rw [resolve, htype, hlast, hentity]
  case agree =>
    intro name
    refine ⟨contains_iff.trans (hlists.mem_iff name), d.contains_eq_isSome_field? name,
      d.contains_eq_isOk_resolve name, ?_⟩
    intro field hfield
    rw [field?_eq, Option.map_eq_some_iff] at hfield
    obtain ⟨type, htype, rfl⟩ := hfield
    exact ⟨rfl, resolve_eq_ok_iff.2 htype⟩
  case enumerated =>
    rintro ⟨name, type⟩ hmem
    have htype : d.type? name = some type := Assoc.lookup_of_mem d.distinct hmem
    rw [field?_eq, htype]
    rfl

/-- The identifier, declared again as a number, is found as one in front of what came between. -/
theorem fields_as_declared_again :
    let d := ofDeclarations "note" "id" [("id", .text), ("due", .date), ("id", .integer)]
    d.field? "id" = some ("id", .integer) ∧ d.resolve "id" = .ok .integer ∧
      d.resolve "made" = .error (.unknownField "note" "made") ∧
      ∀ field ∈ d.fields, d.field? field.1 = some field := by
  intro d
  obtain ⟨hresolve, hagree, -, -, -, hentries⟩ :=
    fields_as_declared "note" "id" [("id", .text), ("due", .date), ("id", .integer)]
  have hfield : d.field? "id" = some ("id", .integer) := hentries ("id", .integer) (by decide)
  obtain ⟨-, -, -, hfound⟩ := hagree "id"
  exact ⟨hfield, (hfound _ hfield).2, hresolve "made", hentries⟩

end Descriptor

end EntityQuery
