import EntityQuery.Json.Reading
import EntityQuery.Proofs.Document.Ordering
import EntityQuery.Proofs.Relational.Jsonb
/-!
# Reading saved entities back

Both stores give back the entity that was saved, unless it has nothing inside of an option. The
relational one keeps its JSON and its doubles as far as its reader of numbers finds them again. The
document store moves the identifier to its other name and back, and writes the instants of the
fields that are declared so in a form that the reader of entities takes as well. It cannot write
an instant again whose year has not four digits, and then the entity has no document. It overlooks
the instants of a raw identifier, which are stored under another name.

A text that is declared as an instant comes back as another text or not at all, and the
identifier takes the place of a column with the name of its member.
-/

namespace EntityQuery

theorem Entity.exists_type {s : Schema} {e : Entity s} {name : String} {v : FieldValue}
    (hv : e.value? name = some v) : ∃ type, s.descriptor.type? name = some type := by
  rw [e.value?_eq_lookup] at hv
  rw [s.type?_descriptor]
  apply Assoc.exists_lookup
  rw [← e.keys_values]
  exact List.mem_map_of_mem (Assoc.mem_of_lookup hv)

namespace DocumentStore

variable {s : Schema} {e : Entity s} {doc : Document}

/-! ## JSON of documents -/

theorem membersToJson_eq (doc : Document) :
    Bson.membersToJson doc = doc.map fun member => (member.1, member.2.toJson) := by
  induction doc with
  | nil => rfl
  | cons member rest ih => rw [Bson.membersToJson, ih, List.map_cons]

theorem isWritten_normalized (type : FieldType) {v : FieldValue} (h : v.IsFinite) :
    v.IsWritten (normalized type v).toJson := by
  by_cases hinstant : type = .dateTime ∧ ∃ t, v = .dateTime t
  · obtain ⟨rfl, t, rfl⟩ := hinstant
    exact ⟨.nanoseconds, FractionStyle.keepsAll_nanoseconds, rfl⟩
  · rw [normalized_eq_unnormalized hinstant]
    cases v with
    | dateTime t => exact ⟨.shortest, FractionStyle.keepsAll_shortest, rfl⟩
    | decimal x =>
        have hfinite : x.isFinite = true := h
        have hdouble : unnormalized (.decimal x) = .double x := if_pos hfinite
        have hjson : Bson.doubleToJson x = .float x := if_pos hfinite
        have hown : (FieldValue.decimal x).toJson = .float x := if_pos hfinite
        have hwritten : (Bson.double x).toJson = (FieldValue.decimal x).toJson := by
          rw [Bson.toJson, hjson, hown]
        rw [hdouble]
        exact hwritten
    | _ => rfl

/-- The JSON of a stored document is that of the document with the identifier under its first
name. -/
theorem jsonOfDocument_eq {id : Bson} (h : Assoc.lookup "_id" doc = some id) :
    jsonOfDocument doc = .obj ((Assoc.insert "id" id (Assoc.erase "_id" doc)).map
      fun member => (member.1, member.2.toJson)) := by
  rw [jsonOfDocument, moveMember_eq h, Bson.toJson, membersToJson_eq]

/-! ## Entities of documents -/

theorem isWritten_keptValue (name : String) (type : FieldType) {v : FieldValue} (h : v.IsFinite) :
    v.IsWritten (keptValue name type v).toJson := by
  rw [keptValue]
  split
  · exact isWritten_normalized type h
  · exact isWritten_normalized .text h

/-- An entity is read back from its document exactly if it has nothing inside of an option. -/
theorem entityOf_documentOf_iff (he : e.HasFiniteNumbers)
    (hs : ∀ c ∈ s.columns, c.shape.isRead c.type = true ∧ c.key ≠ "_id")
    (hdoc : documentOf e = .ok doc) : entityOf doc = .ok e ↔ e.IsFlat := by
  obtain ⟨-, hid, hfields⟩ := members_of_documentOf hdoc
  have hread : (Resource.decode? (jsonOfDocument doc) : Option (Entity s)) = some e ↔ e.IsFlat := by
    rw [jsonOfDocument_eq hid]
    apply Entity.ofMembers?_iff_of_isWritten he
    intro name v hv
    rw [Assoc.lookup_map, Assoc.lookup_insert]
    obtain ⟨type, htype⟩ := Entity.exists_type hv
    have hdeclared : name ∈ Assoc.keys s.fields := by
      have hfield := (s.type?_descriptor name).symm.trans htype
      exact List.mem_map_of_mem (Assoc.mem_of_lookup hfield)
    by_cases hname : "id" = name
    · subst hname
      cases hv
      exact ⟨_, rfl, rfl⟩
    · have hother : "id" ≠ storedName name := by
        intro heq
        exact hname (s.eq_of_storedName (s.keys_fields ▸ List.mem_cons_self) hdeclared heq)
      have hidentifier : storedName name ≠ "_id" :=
        ne_identifier_of_mem (fun c hc => (hs c hc).2) hdeclared
      obtain ⟨-, hlookup⟩ := hfields name type v htype hv
      have hreads : type.Reads v := reads_of_isRead (fun c hc => (hs c hc).1) htype hv
      refine ⟨(keptValue name type v).toJson, ?_, isWritten_keptValue name type (he name v hv)⟩
      rw [if_neg hother, Assoc.lookup_erase, if_neg (Ne.symm hidentifier),
        hlookup (fun _ => hreads) (Ne.symm hname) hidentifier, Option.map_some]
  rw [← hread, entityOf]
  cases (Resource.decode? (jsonOfDocument doc) : Option (Entity s)) <;> simp

/-- An entity has no document exactly if a field that is declared as an instant, and stored under
its own name, holds one in a year without four digits. -/
theorem documentOf_fails_iff (hs : ∀ c ∈ s.columns, c.shape.isRead c.type = true) :
    (∃ cause, documentOf e = .error cause) ↔
      ∃ name t, storedName name = name ∧ s.descriptor.type? name = some .dateTime ∧
        e.value? name = some (.dateTime t) ∧ ¬ IsFourDigitYear t.date.year := by
  constructor
  · rintro ⟨cause, hcause⟩
    by_contra hnone
    have hrewrites : ∀ name type v, storedName name = name →
        s.descriptor.type? name = some type → e.value? name = some v →
          type.Reads v ∧ type.Rewrites v := by
      intro name type v hstored htype hv
      refine ⟨reads_of_isRead hs htype hv, ?_⟩
      rintro rfl t rfl
      by_contra hyear
      exact hnone ⟨name, t, hstored, htype, hv, hyear⟩
    obtain ⟨doc, hdoc⟩ := exists_documentOf hrewrites
    rw [hdoc] at hcause
    cases hcause
  · rintro ⟨name, t, hstored, htype, hv, hyear⟩
    cases hdoc : documentOf e with
    | error cause => exact ⟨cause, rfl⟩
    | ok doc =>
        obtain ⟨-, -, hfields⟩ := members_of_documentOf hdoc
        exact absurd ((hfields name _ _ htype hv).1 hstored rfl t rfl) hyear

theorem readRow_eq_ok_iff (json : Json) :
    Relational.readRow (.json json) = .ok e ↔ Entity.decode? json = some e := by
  have hdecode : (Resource.decode? json : Option (Entity s)) = Entity.decode? json := rfl
  rw [Relational.readRow, hdecode]
  cases (Entity.decode? json : Option (Entity s)) <;> simp

/-- What saving sends to either store is read back as the entity that was saved, if it has nothing
inside of an option: by the relational store if its doubles come back as themselves, and otherwise
not, and by the other one from the document, which is put in place of the one with the same
identifier, if the entity has one and its columns are not misleading. -/
theorem saved_reads_back (he : e.HasFiniteNumbers) :
    (∃ next, Relational.save e = .ask (Relational.insert e) next ∧
      (Relational.insert e).params[2]? = some (.jsonb e.encode) ∧
      (Relational.readRow (.json e.encode) = .ok e ↔ e.IsFlat) ∧
      ∀ returned, Jsonb.GivesBack e.encode returned →
        (Relational.readRow (.json returned) = .ok e ↔
          e.IsFlat ∧ ∀ name x, e.value? name = some (.decimal x) →
            (returned.member? (storedName name)).bind Json.number? = some x)) ∧
    ((∀ c ∈ s.columns, c.shape.isRead c.type = true) →
      ((∃ cause, documentOf e = .error cause) ↔
        ∃ name t, storedName name = name ∧ s.descriptor.type? name = some .dateTime ∧
          e.value? name = some (.dateTime t) ∧ ¬ IsFourDigitYear t.date.year)) ∧
    ∀ doc, documentOf e = .ok doc →
      (∃ next, save e = .ask (.replace s.plural e.id.toText doc) next) ∧
      Assoc.lookup "_id" doc = some (.string e.id.toText) ∧ Assoc.lookup "id" doc = none ∧
      ((∀ c ∈ s.columns, c.shape.isRead c.type = true ∧ c.key ≠ "_id") →
        (entityOf doc = .ok e ↔ e.IsFlat)) := by
  refine ⟨⟨_, rfl, rfl, ?_, ?_⟩, documentOf_fails_iff, ?_⟩
  · rw [readRow_eq_ok_iff]
    exact Entity.decode?_encode_iff he
  · intro returned hreturned
    rw [readRow_eq_ok_iff]
    exact Entity.decode?_iff_of_givesBack hreturned
  · intro doc hdoc
    obtain ⟨hnone, hid, -⟩ := members_of_documentOf hdoc
    refine ⟨?_, hid, hnone, fun hs => entityOf_documentOf_iff he hs hdoc⟩
    rw [save, hdoc]
    exact ⟨_, rfl⟩

def usedSignIn (lastLogin : Instant) : Entity Directory.authentication :=
  .create (.ofNat 1) morning
    (.cons (.value "ann") (.cons (.value ⟨"LOCAL", by decide⟩) (.cons (.value (.ofNat 3))
      (.cons (.value true) (.cons (.value lastLogin) (.cons (.value (0 : Int64)) .nil))))))

/-- A sign-in in the middle of a leap second is read back from both stores, in whatever order the
relational one gives back the members. One after the last year with four digits has no document. -/
theorem saved_reads_back_signIn :
    let leapSecond : Instant := ⟨⟨2016, 12, 31, by decide⟩, 86399, 1500000000, by decide, by decide⟩
    let nextAge : Instant := ⟨⟨10000, 1, 1, by decide⟩, 0, 0, by decide, by decide⟩
    (∀ returned, Jsonb.GivesBack (usedSignIn leapSecond).encode returned →
      Relational.readRow (.json returned) = .ok (usedSignIn leapSecond)) ∧
    (∃ doc, documentOf (usedSignIn leapSecond) = .ok doc ∧
      entityOf doc = .ok (usedSignIn leapSecond)) ∧
    ∃ cause, documentOf (usedSignIn nextAge) = .error cause := by
  intro leapSecond nextAge
  have hyear : IsFourDigitYear 2016 := ⟨by decide, by decide⟩
  have hcreated : IsFourDigitYear 2010 := ⟨by decide, by decide⟩
  have hread : ∀ c ∈ Directory.authentication.columns, c.shape.isRead c.type = true := by decide
  have hflat : (usedSignIn leapSecond).IsFlat := Entity.isFlat_of_options (by decide) _
  have hdoubles : ∀ c ∈ Directory.authentication.columns, c.shape ≠ .double := by decide
  have hstorable : (usedSignIn leapSecond).HasStorableValues := by
    intro name v
    apply Entity.storable_of_values hcreated hcreated
    intro field hfield
    simp only [usedSignIn, Entity.create, Cells.values, List.mem_cons, List.not_mem_nil,
      or_false] at hfield
    obtain rfl | rfl | rfl | rfl | rfl | rfl := hfield
    case inr.inr.inr.inr.inl => exact hyear
    all_goals trivial
  have hfinite : (usedSignIn nextAge).HasFiniteNumbers := by
    apply Entity.hasFiniteNumbers_of_values
    intro field hfield
    simp only [usedSignIn, Entity.create, Cells.values, List.mem_cons, List.not_mem_nil,
      or_false] at hfield
    obtain rfl | rfl | rfl | rfl | rfl | rfl := hfield <;> trivial
  obtain ⟨doc, hdoc⟩ := exists_documentOf_of_isRead hread hstorable
  obtain ⟨⟨_, -, -, -, hreturned⟩, -, hsaved⟩ := saved_reads_back fun name v hv =>
    isFinite_of_isStorable (hstorable name v hv)
  obtain ⟨-, hfails, -⟩ := saved_reads_back hfinite
  obtain ⟨-, -, -, hentity⟩ := hsaved doc hdoc
  refine ⟨?_, ⟨doc, hdoc, (hentity (by decide)).2 hflat⟩, (hfails hread).2 ?_⟩
  · intro returned h
    refine (hreturned returned h).2 ⟨hflat, ?_⟩
    intro name x hx
    obtain ⟨c, cell, hhas, -, hvalue⟩ := Entity.exists_has_of_decimal hx
    exact absurd hvalue (cell.ne_decimal (hdoubles c hhas.mem) x)
  · exact ⟨"last_login", nextAge, rfl, rfl, rfl, fun h => absurd h.2 (by decide)⟩

/-! ## Misleading columns -/

def nestedNote : Schema where
  singular := "note"
  plural := "notes"
  columns := [⟨"nickname", .text, 2, .text⟩]

def measuredNote : Schema where
  singular := "note"
  plural := "notes"
  columns := [⟨"height", .double, 0, .decimal⟩]

/-- Notes with a raw identifier for an instant. -/
def markedTimedNote : Schema where
  singular := "note"
  plural := "notes"
  columns := [⟨"r#at", .instant, 0, .dateTime⟩]

/-- The double 1.8541999999999998. -/
def written : Binary64 := .ofBits 4611029393601717285

/-- The double 1.8542. -/
def reread : Binary64 := .ofBits 4611029393601717286

theorem isFinite_written : written.isFinite = true := by
  decide

theorem isFinite_reread : reread.isFinite = true := by
  decide

/-- The digits of the one double are read as the other one: their number is rounded first, and
then the quotient. -/
theorem value?_write_written :
    (Json.scanLiteral (written.write .json)).bind (fun read => read.1.value?) =
      some (.float reread) := by
  let literal : NumberLiteral := ⟨false, ['1'], some "8541999999999998".toList, none⟩
  have hwrite : Json.scanLiteral (written.write .json) = some (literal, []) := by decide +kernel
  have hdown : NumberLiteral.scaleDown (.ofInt 18541999999999998) 16 = reread := by
    rw [NumberLiteral.scaleDown, if_pos (by decide)]
    decide +kernel
  have hscaled : NumberLiteral.scaled? false 18541999999999998 (-16) = some reread := by
    rw [NumberLiteral.scaled?]
    exact congrArg some hdown
  have hfloat : literal.float? = NumberLiteral.scaled? false 18541999999999998 (-16) := rfl
  rw [hwrite, Option.bind_some, NumberLiteral.value?, hfloat, hscaled]
  rfl

/-- The note without a nickname inside of some of its options. -/
def unnamed (level : Nat) (allowed : level < 2) : Entity nestedNote :=
  note 1 (.cons (.unset level allowed) .nil)

theorem hasFiniteNumbers_unnamed (level : Nat) (allowed : level < 2) :
    (unnamed level allowed).HasFiniteNumbers :=
  Entity.hasFiniteNumbers_of_values (List.forall_mem_singleton.2 trivial)

theorem isFlat_unnamed_zero : (unnamed 0 (by decide)).IsFlat := by
  rintro _ _ (_ | hrest)
  · rfl
  · cases hrest

/-- All options around nothing are written alike, and read as the outermost. -/
theorem readRow_unnamed (level : Nat) (allowed : level < 2) :
    Relational.readRow (.json (unnamed level allowed).encode) =
      .ok (unnamed 0 (by decide)) := by
  rw [show (unnamed level allowed).encode = (unnamed 0 (by decide)).encode from rfl,
    readRow_eq_ok_iff]
  exact (Entity.decode?_encode_iff (hasFiniteNumbers_unnamed 0 (by decide))).2 isFlat_unnamed_zero

def measured (x : Binary64) : Entity measuredNote :=
  note 1 (.cons (.value x) .nil)

theorem value?_measured (x : Binary64) : (measured x).value? "height" = some (.decimal x) :=
  rfl

theorem hasFiniteNumbers_measured {x : Binary64} (h : x.isFinite = true) :
    (measured x).HasFiniteNumbers :=
  Entity.hasFiniteNumbers_of_values (List.forall_mem_singleton.2 h)

theorem encode_measured {x : Binary64} (h : x.isFinite = true) :
    (measured x).encode = .obj [("id", Shape.uuid.encode (.ofNat 1)),
      ("created_at", Shape.instant.encode morning), ("updated_at", Shape.instant.encode morning),
      ("height", .float x)] := by
  have hdouble : Json.ofBinary64 x = .float x := if_pos h
  rw [← hdouble]
  rfl

/-- A note with one double can come back as one with another. -/
theorem givesBack_measured {x y : Binary64} (hx : x.isFinite = true) (hy : y.isFinite = true) :
    Jsonb.GivesBack (measured x).encode (measured y).encode := by
  refine ⟨_, _, _, encode_measured hx, .refl _, ?_, encode_measured hy⟩
  exact .cons ⟨rfl, rfl⟩ (.cons ⟨rfl, rfl⟩ (.cons ⟨rfl, rfl⟩ (.cons ⟨rfl, y, rfl⟩ .nil)))

theorem readRow_measured {x : Binary64} (h : x.isFinite = true) :
    Relational.readRow (.json (measured x).encode) = .ok (measured x) :=
  readRow_eq_ok_iff _ |>.2 ((Entity.decode?_encode_iff (hasFiniteNumbers_measured h)).2
    (Entity.isFlat_of_options (by decide) _))

/-- A text that is declared as an instant need not have a document, although no instant is out of
range, and comes back as another text if it has one. An entity with a column that has the name of
the identifier's member does not come back. Nothing inside of an option comes back as nothing at
all, and a double as the one that the reader of numbers finds. An instant of a raw identifier is
not refused in any year. -/
theorem misread_notes :
    (∃ e : Entity quotedNote, e.HasFiniteNumbers ∧ (∃ cause, documentOf e = .error cause) ∧
      ∀ name t, e.value? name = some (.dateTime t) → IsFourDigitYear t.date.year) ∧
    (∃ e e' : Entity quotedNote, ∃ doc, e.HasFiniteNumbers ∧ documentOf e = .ok doc ∧
      entityOf doc = .ok e' ∧ e' ≠ e) ∧
    (∃ e : Entity labelledNote, ∃ doc cause, e.HasFiniteNumbers ∧ documentOf e = .ok doc ∧
      (entityOf doc : Except StorageError (Entity labelledNote)) = .error cause) ∧
    (∃ e e' : Entity nestedNote, e.HasFiniteNumbers ∧
      Relational.readRow (.json e.encode) = .ok e' ∧ e' ≠ e) ∧
    (∃ e e' : Entity measuredNote, ∃ returned, e.HasFiniteNumbers ∧
      e.value? "height" = some (.decimal written) ∧
      (Json.scanLiteral (written.write .json)).bind (fun read => read.1.value?) =
        returned.member? "height" ∧
      Jsonb.GivesBack e.encode returned ∧ Relational.readRow (.json returned) = .ok e' ∧ e' ≠ e) ∧
    ∃ e : Entity markedTimedNote, ∃ doc t, e.HasFiniteNumbers ∧ documentOf e = .ok doc ∧
      markedTimedNote.descriptor.type? "r#at" = some .dateTime ∧
      e.value? "r#at" = some (.dateTime t) ∧ ¬ IsFourDigitYear t.date.year := by
  have hfinite {s : Schema} {e : Entity s} (h : e.HasStorableValues) : e.HasFiniteNumbers :=
    fun name v hv => isFinite_of_isStorable (h name v hv)
  have hquoted (text : String) :
      (note 1 (.cons (.value text) .nil) : Entity quotedNote).HasStorableValues :=
    hasStorableValues_note (List.forall_mem_singleton.2 trivial)
  have hlabelled : (note 1 (.cons (.value "a") .nil) : Entity labelledNote).HasStorableValues :=
    hasStorableValues_note (List.forall_mem_singleton.2 trivial)
  refine ⟨?soon, ?quoted, ?labelled, ?nested, ?measured, ?marked⟩
  case soon =>
    exact ⟨_, hfinite (hquoted "soon"), ⟨_, rfl⟩, fun name t hv => hquoted "soon" name _ hv⟩
  case quoted =>
    refine ⟨_, note 1 (.cons (.value "2010-11-23T10:30:00.000000000Z") .nil),
      [("created_at", .string "2010-11-23T10:15:30.000000000Z"),
        ("updated_at", .string "2010-11-23T10:15:30.000000000Z"),
        ("taken", .string "2010-11-23T10:30:00.000000000Z"),
        ("_id", .string "00000000-0000-0000-0000-000000000001")],
      hfinite (hquoted "2010-11-23T10:30:00Z"), rfl, rfl, ?_⟩
    intro hsame
    have hvalue := congrArg (Entity.value? · "taken") hsame
    exact absurd hvalue (by decide)
  case labelled =>
    exact ⟨_, [("created_at", .string "2010-11-23T10:15:30.000000000Z"),
      ("updated_at", .string "2010-11-23T10:15:30.000000000Z"),
      ("_id", .string "00000000-0000-0000-0000-000000000001")], _, hfinite hlabelled, rfl, rfl⟩
  case nested =>
    refine ⟨unnamed 1 (by decide), unnamed 0 (by decide), hasFiniteNumbers_unnamed 1 (by decide),
      readRow_unnamed 1 (by decide), ?_⟩
    intro hsame
    have hflat : (unnamed 1 (by decide)).IsFlat := hsame ▸ isFlat_unnamed_zero
    have hlevel : 1 = 0 := hflat .head
    cases hlevel
  case measured =>
    refine ⟨measured written, measured reread, (measured reread).encode,
      hasFiniteNumbers_measured isFinite_written, value?_measured written, ?_,
      givesBack_measured isFinite_written isFinite_reread, readRow_measured isFinite_reread, ?_⟩
    · rw [value?_write_written, encode_measured isFinite_reread]
      rfl
    · intro hsame
      have hvalue := congrArg (Entity.value? · "height") hsame
      simp only [value?_measured] at hvalue
      exact absurd hvalue (by decide)
  case marked =>
    refine ⟨note 1 (.cons (.value ⟨⟨10000, 1, 1, by decide⟩, 0, 0, by decide, by decide⟩) .nil),
      _, _, Entity.hasFiniteNumbers_of_values (List.forall_mem_singleton.2 trivial), rfl, rfl, rfl,
      ?_⟩
    exact fun h => absurd h.2 (by decide)

end DocumentStore

end EntityQuery
