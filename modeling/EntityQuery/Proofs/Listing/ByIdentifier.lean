import EntityQuery.Entity.Directory
import EntityQuery.Proofs.Document.Ordering
import EntityQuery.Proofs.Memory.Strictness
import EntityQuery.Proofs.Relational.Ordering
/-!
# Sorting by the identifier

A listing that asks for no order is sorted by the identifier field, which holds the identifier as a
text. Behind its keys every store breaks ties by the identifier once more: the program and the
database by the sixteen bytes, the document store by the text under which a document is kept. The
texts are in the order of the bytes, so the key and what breaks the ties put all entities in one
order.
-/

namespace EntityQuery

/-! ## Keys and texts -/

/-- The one key of a listing that asks for no order. -/
def identifierKeys : List SortKey :=
  [⟨"id", .ascending⟩]

theorem PageSpec.keys_of_assemble_none {s : Schema} {index size : Int64}
    {direction : Option Direction} {page : PageSpec}
    (h : assemble s.descriptor index size direction none = .ok page) :
    page.keys = identifierKeys := by
  obtain ⟨-, -, hkeys⟩ := of_assemble h
  rw [hkeys, Option.getD_none, sortKeys, s.identity_descriptor]
  rfl

theorem Uuid.cmp_toText_eq_cmp_bytes (u v : Uuid) :
    cmp (Text.encodeUtf8 u.toText.toList) (Text.encodeUtf8 v.toText.toList) =
      cmp u.bytes v.bytes := by
  rw [← compare_eq_cmp_toText, compare_eq_cmp_bytes]

/-! ## In the program -/

section Entities

variable {s : Schema} (a b : Entity s)

theorem keyDifference_identifier :
    keyDifference a b ⟨"id", .ascending⟩ = cmp a.id.bytes b.id.bytes := by
  rw [keyDifference_id, Uuid.compare_eq_cmp_bytes]
  rfl

/-- Behind all keys the bytes break the ties. -/
theorem compareEntities_eq_then_bytes (keys : List SortKey) :
    compareEntities a b keys =
      (firstDifference (keys.map (keyDifference a b))).then (cmp a.id.bytes b.id.bytes) := by
  rw [compareEntities_eq, ← Uuid.compare_eq_cmp_bytes]
  rfl

theorem compareEntities_identifierKeys :
    compareEntities a b identifierKeys = cmp a.id.bytes b.id.bytes := by
  have hfirst : firstDifference (identifierKeys.map (keyDifference a b)) =
      cmp a.id.bytes b.id.bytes := by
    rw [identifierKeys, List.map_singleton, keyDifference_identifier]
    exact Ordering.then_eq
  rw [compareEntities_eq_then_bytes, hfirst, Ordering.then_self]

end Entities

/-! ## In the database -/

namespace Relational

/-- The key of the identifier field, which compares the texts. -/
def identifierTextKey : OrderKey :=
  fieldKey "id" .text .ascending

/-- Keys that stand behind others count where those are equal. -/
theorem rowOrder?_append (keys others : List OrderKey) (row row' : Row) :
    rowOrder? (keys ++ others) row row' = (rowOrder? keys row row').bind fun first =>
      (rowOrder? others row row').map first.then := by
  induction keys with
  | nil => cases h : rowOrder? others row row' <;> simp [rowOrder?, h]
  | cons key rest ih =>
      simp only [List.cons_append, rowOrder?, ih, Option.bind_eq_bind, Option.bind_assoc]
      congr! 3
      cases rowOrder? rest row row' <;> cases rowOrder? others row row' <;>
        simp [Ordering.then_assoc]

section Rows

variable {s : Schema} {a b : Entity s} {row row' : Row}

theorem keys_identifierKeys (s : Schema) :
    ∃ terms, orderTerms s.descriptor identifierKeys = .ok terms ∧
      orderText terms = "(data->>'id') COLLATE \"C\" ASC NULLS LAST, id ASC" ∧
      readOrder? (orderText terms) = some [identifierTextKey, identifierKey] := by
  have htype : s.descriptor.type? "id" = some .text := s.type?_descriptor "id"
  have hdeclared : ∀ key ∈ identifierKeys, s.descriptor.contains key.field = true :=
    List.forall_mem_singleton.2 (Option.isSome_iff_exists.2 ⟨.text, htype⟩)
  have hterms := orderTerms_of_declared hdeclared
  rw [identifierKeys, List.map_singleton, htype] at hterms
  refine ⟨_, hterms, by decide, ?_⟩
  rw [readOrder?_orderText (by simp)]
  rfl

theorem rowOrder?_identifierTextKey (hrow : row.Holds a) (hrow' : row'.Holds b) :
    rowOrder? [identifierTextKey] row row' = some (cmp a.id.bytes b.id.bytes) := by
  have htype : s.descriptor.type? "id" = some .text := s.type?_descriptor "id"
  have hsorts (e : Entity s) : SortsBy identifierKeys e := by
    intro key hkey
    obtain rfl := List.mem_singleton.1 hkey
    refine ⟨storedName_id, fun type htype' => ?_⟩
    obtain rfl : FieldType.text = type := Option.some.inj (htype.symm.trans htype')
    exact rfl
  have hkey : pageKey s.descriptor ⟨"id", .ascending⟩ = identifierTextKey := by
    rw [pageKey, htype]
    rfl
  have hdeclared : s.descriptor.contains "id" = true := Option.isSome_iff_exists.2 ⟨.text, htype⟩
  have hnone : rowOrder? [] row row' = some .eq := rfl
  have horder := rowOrder?_pageKey hdeclared hrow hrow' (hsorts a) (hsorts b) hnone
  rw [hkey, keyDifference_identifier, Ordering.then_eq] at horder
  exact horder

/-- Behind all keys the bytes break the ties. -/
theorem rowOrder?_eq_then_bytes (hrow : row.Holds a) (hrow' : row'.Holds b)
    (keys : List OrderKey) :
    rowOrder? (keys ++ [identifierKey]) row row' =
      (rowOrder? keys row row').map fun first => first.then (cmp a.id.bytes b.id.bytes) := by
  rw [rowOrder?_append, rowOrder?_identifier hrow hrow', Uuid.compare_eq_cmp_bytes]
  cases rowOrder? keys row row' <;> rfl

end Rows

end Relational

/-! ## In the document store -/

namespace DocumentStore

section Documents

variable {s : Schema} {a b : Entity s} {da db : Document}

theorem compareBy?_append_identifier {u v : Uuid} (keys : List (String × Direction))
    (ha : Assoc.lookup "_id" da = some (.string u.toText))
    (hb : Assoc.lookup "_id" db = some (.string v.toText)) :
    compareBy? (keys ++ [("_id", .ascending)]) da db =
      (compareBy? keys da db).map fun first => first.then (cmp u.bytes v.bytes) := by
  have hlast : memberOrder? (Assoc.lookup "_id" da) (Assoc.lookup "_id" db) =
      some (cmp u.bytes v.bytes) := by
    rw [ha, hb, ← Uuid.cmp_toText_eq_cmp_bytes]
    rfl
  induction keys with
  | nil =>
      simp only [List.nil_append, compareBy?, hlast]
      cases cmp u.bytes v.bytes <;> rfl
  | cons key rest ih =>
      obtain ⟨name, direction⟩ := key
      rw [List.cons_append, compareBy?, compareBy?, ih]
      cases memberOrder? (Assoc.lookup name da) (Assoc.lookup name db) with
      | none => rfl
      | some order => cases order <;> cases direction <;> rfl

theorem pageOrder?_identifierKeys {page : PageSpec} (hkeys : page.keys = identifierKeys)
    (hda : documentOf a = .ok da) (hdb : documentOf b = .ok db) :
    pageOrder? page da db = some (cmp a.id.bytes b.id.bytes) := by
  obtain ⟨a', b', ha', hb', hpage⟩ := pageOrder?_eq page da db
  rw [hkeys] at ha' hb' hpage
  have hsort : withIdentifier (Assoc.ofList (directedKeys identifierKeys)) =
      [(flagName 0, .ascending)] ++ [("_id", .ascending)] := by decide
  have hnumbered : (0, ⟨"id", .ascending⟩) ∈ numbered identifierKeys := by decide
  have hname : ∀ i < identifierKeys.length, "_id" ≠ flagName i :=
    fun i _ => identifier_ne_flagName i
  have ha := lookup_identifier hda
  have hb := lookup_identifier hdb
  -- The identifier is never null, so the flags in front are equal.
  have hflag : compareBy? [(flagName 0, .ascending)] a' b' = some .eq := by
    have hmember : memberName "id" = "_id" := by decide
    simp only [compareBy?, ha'.flag 0 _ hnumbered, hb'.flag 0 _ hnumbered, memberOrder?_flagOf,
      hmember, ha, hb, isNullOrMissing_storedValue]
    rfl
  rw [hpage, hsort, compareBy?_append_identifier _ ((ha'.member _ hname).trans ha)
    ((hb'.member _ hname).trans hb), hflag]
  rfl

end Documents

end DocumentStore

/-! ## In every store -/

section Stores

open Relational DocumentStore

/-- The texts of two identifiers have the order of their sixteen bytes. So by the identifier field,
which a listing is sorted by if it asks for no order, every store puts two entities in the order of
the bytes. The program does; the database does by the text in the JSON alone, and with the column
of identifiers behind it; and so does the document store. Behind any other keys, where those are
equal, ties are broken in the same order. -/
theorem identifier_sorts_as_tie_break :
    (∀ u v : Uuid, cmp (Text.encodeUtf8 u.toText.toList) (Text.encodeUtf8 v.toText.toList) =
      cmp u.bytes v.bytes) ∧
    ∀ (s : Schema) (page : PageSpec),
      ((∃ index size direction, PageSpec.assemble s.descriptor index size direction none =
        .ok page) → page.keys = identifierKeys) ∧
      (page.keys = identifierKeys → ∀ a b : Entity s,
        (compareEntities a b page.keys = cmp a.id.bytes b.id.bytes ∧
          ∀ keys, compareEntities a b keys =
            (firstDifference (keys.map (keyDifference a b))).then (cmp a.id.bytes b.id.bytes)) ∧
        (∃ terms, orderTerms s.descriptor page.keys = .ok terms ∧
          orderText terms = "(data->>'id') COLLATE \"C\" ASC NULLS LAST, id ASC" ∧
          readOrder? (orderText terms) = some [identifierTextKey, identifierKey] ∧
          ∀ row row', row.Holds a → row'.Holds b →
            rowOrder? [identifierTextKey] row row' = some (cmp a.id.bytes b.id.bytes) ∧
            rowOrder? [identifierTextKey, identifierKey] row row' =
              some (cmp a.id.bytes b.id.bytes) ∧
            ∀ keys, rowOrder? (keys ++ [identifierKey]) row row' =
              (rowOrder? keys row row').map fun first =>
                first.then (cmp a.id.bytes b.id.bytes)) ∧
        ∀ da db, documentOf a = .ok da → documentOf b = .ok db →
          pageOrder? page da db = some (cmp a.id.bytes b.id.bytes) ∧
          ∀ keys, compareBy? (keys ++ [("_id", .ascending)]) da db =
            (compareBy? keys da db).map fun first =>
              first.then (cmp a.id.bytes b.id.bytes)) := by
  refine ⟨Uuid.cmp_toText_eq_cmp_bytes, ?_⟩
  intro s page
  refine ⟨fun ⟨_, _, _, hpage⟩ => PageSpec.keys_of_assemble_none hpage, ?_⟩
  intro hkeys a b
  refine ⟨?program, ?database, ?documents⟩
  case program =>
    refine ⟨?_, compareEntities_eq_then_bytes a b⟩
    rw [hkeys, compareEntities_identifierKeys]
  case database =>
    obtain ⟨terms, hterms, htext, hread⟩ := keys_identifierKeys s
    refine ⟨terms, hkeys ▸ hterms, htext, hread, ?_⟩
    intro row row' hrow hrow'
    have hbroken := rowOrder?_eq_then_bytes hrow hrow'
    have hfirst := rowOrder?_identifierTextKey hrow hrow'
    refine ⟨hfirst, ?_, hbroken⟩
    have hboth := hbroken [identifierTextKey]
    rw [hfirst, Option.map_some, Ordering.then_self] at hboth
    exact hboth
  case documents =>
    intro da db hda hdb
    refine ⟨pageOrder?_identifierKeys hkeys hda hdb, fun keys => ?_⟩
    exact compareBy?_append_identifier keys (lookup_identifier hda) (lookup_identifier hdb)

/-- A letter in the text of an identifier stands behind the digits, as the byte does. -/
theorem identifier_sorts_as_tie_break_letter :
    let role (id : Nat) (name : String) : Entity Directory.role :=
      note id (.cons (.value name) (.cons (.unset 0 (by decide)) .nil))
    let a := role 9 "b"
    let b := role 10 "a"
    ∃ page da db, PageSpec.assemble Directory.role.descriptor 0 20 (some .descending) none =
        .ok page ∧
      compareEntities a b page.keys = .lt ∧
      rowOrder? [identifierTextKey, identifierKey] (Record.ofEntity a).row (Record.ofEntity b).row =
        some .lt ∧
      documentOf a = .ok da ∧ documentOf b = .ok db ∧ pageOrder? page da db = some .lt := by
  intro role a b
  have hpage : PageSpec.assemble Directory.role.descriptor 0 20 (some .descending) none =
      .ok ⟨0, 20, identifierKeys⟩ := rfl
  have hbytes : cmp a.id.bytes b.id.bytes = .lt := by decide
  have hholds (e : Entity Directory.role) : (Record.ofEntity e).row.Holds e :=
    Record.holds_row rfl rfl
  have hdocument (id : Nat) (name : String) : ∃ doc, documentOf (role id name) = .ok doc := by
    apply exists_documentOf_of_isRead (by decide)
    apply hasStorableValues_note
    exact List.forall_mem_cons.2 ⟨trivial, List.forall_mem_singleton.2 trivial⟩
  obtain ⟨da, hda⟩ := hdocument 9 "b"
  obtain ⟨db, hdb⟩ := hdocument 10 "a"
  obtain ⟨hdefault, hsorted⟩ :=
    identifier_sorts_as_tie_break.2 Directory.role ⟨0, 20, identifierKeys⟩
  obtain ⟨⟨hprogram, -⟩, ⟨-, -, -, -, hrows⟩, hdocuments⟩ :=
    hsorted (hdefault ⟨0, 20, some .descending, hpage⟩) a b
  obtain ⟨-, hboth, -⟩ := hrows _ _ (hholds a) (hholds b)
  obtain ⟨horder, -⟩ := hdocuments da db hda hdb
  rw [hbytes] at hprogram hboth horder
  exact ⟨_, da, db, hpage, hprogram, hboth, hda, hdb, horder⟩

end Stores

end EntityQuery
