import EntityQuery.Entity.Directory
import EntityQuery.Listing.Params
import EntityQuery.Proofs.Entity.Fields
import EntityQuery.Proofs.Page
import EntityQuery.Proofs.Text.Trimming
/-!
# Sort fields in a text

A request names its sort fields in one text, with commas between them. Blanks around a name do not
belong to it, and where nothing but blanks stands between two commas there is no name. A text is
told to list names in terms of what was put together to make it, so the names that are read are
those that were written, in their order and as often as they were written.

A page has one key for each name, and the key on the identity field if there is no name. It passes
the check of its keys if all of them are declared, and is refused for every other key.
-/

namespace EntityQuery

/-! ## Pieces of a text -/

/-- Splitting takes the separators out of a text and nothing else. -/
theorem Text.flatten_splitOn (separator : Char) (cs : List Char) :
    (cs.splitOn separator).flatten = cs.filter (· ≠ separator) := by
  induction cs with
  | nil => simp
  | cons c rest ih =>
      rw [List.splitOn_cons_eq_if_modifyHead]
      by_cases hc : c = separator
      · simp [hc, ih]
      · obtain ⟨piece, pieces, hpieces⟩ :=
          List.exists_cons_of_ne_nil (List.splitOn_ne_nil separator rest)
        rw [hpieces, List.flatten_cons] at ih
        simp [hc, hpieces, ih]

/-- A field as a text can name it: the name is not empty, and it has neither a comma nor a blank at
one of its ends. -/
structure IsFieldName (name : String) : Prop where
  ne_empty : name ≠ ""
  comma : ',' ∉ name.toList
  trimmed : Text.IsTrimmed name.toList

theorem isFieldName_of_trim {name : String} (hne : name ≠ "") (hcomma : ',' ∉ name.toList)
    (htrim : Text.trim name.toList = name.toList) : IsFieldName name :=
  ⟨hne, hcomma, htrim ▸ Text.isTrimmed_trim name.toList⟩

/-- The names in the pieces of a text. A blank piece has none, and any other has one, with any
blanks around it. -/
inductive NamesIn : List (List Char) → List String → Prop
  | nil : NamesIn [] []
  | blank {piece : List Char} {pieces : List (List Char)} {names : List String}
    (hblank : ∀ c ∈ piece, Text.isBlank c = true) (rest : NamesIn pieces names) :
    NamesIn (piece :: pieces) names
  | name {before after : List Char} {name : String} {pieces : List (List Char)}
    {names : List String} (hblank : ∀ c ∈ before ++ after, Text.isBlank c = true)
    (hname : IsFieldName name) (rest : NamesIn pieces names) :
    NamesIn ((before ++ name.toList ++ after) :: pieces) (name :: names)

/-- The text consists of pieces with commas between them, and the names are those in the pieces. -/
def ListsNames (text : List Char) (names : List String) : Prop :=
  ∃ pieces, text = [','].intercalate pieces ∧ NamesIn pieces names

namespace NamesIn

variable {pieces : List (List Char)} {names : List String}

theorem isFieldName (h : NamesIn pieces names) : ∀ name ∈ names, IsFieldName name := by
  induction h with
  | nil => nofun
  | blank _ _ ih => exact ih
  | name _ hname _ ih => exact List.forall_mem_cons.2 ⟨hname, ih⟩

/-- A comma is no blank, so there is none in the pieces. -/
theorem comma_not_mem (h : NamesIn pieces names) : ∀ piece ∈ pieces, ',' ∉ piece := by
  have hcomma {blanks : List Char} (hblank : ∀ c ∈ blanks, Text.isBlank c = true) : ',' ∉ blanks :=
    fun hmem => absurd (hblank ',' hmem) (by decide)
  induction h with
  | nil => nofun
  | blank hblank _ ih => exact List.forall_mem_cons.2 ⟨hcomma hblank, ih⟩
  | name hblank hname _ ih =>
      refine List.forall_mem_cons.2 ⟨?_, ih⟩
      have hpadding := hcomma hblank
      rw [List.mem_append, not_or] at hpadding
      simp [hpadding, hname.comma]

end NamesIn

theorem ListsNames.isFieldName {text : List Char} {names : List String}
    (h : ListsNames text names) : ∀ name ∈ names, IsFieldName name := by
  obtain ⟨pieces, -, hnames⟩ := h
  exact hnames.isFieldName

namespace QueryParams

/-! ## Reading the text -/

/-- The name in a piece, if it is not blank. -/
def nameIn? (piece : List Char) : Option String :=
  if (Text.trim piece).isEmpty then none else some (String.ofList (Text.trim piece))

theorem splitFields_eq (text : String) :
    splitFields text = (text.toList.splitOn ',').filterMap nameIn? := by
  rw [splitFields, List.filterMap_map]
  rfl

theorem nameIn?_eq_none_iff {piece : List Char} :
    nameIn? piece = none ↔ ∀ c ∈ piece, Text.isBlank c = true := by
  rw [← Text.trim_eq_nil_iff]
  simp [nameIn?]

theorem nameIn?_padded {before after : List Char} {name : String}
    (hblank : ∀ c ∈ before ++ after, Text.isBlank c = true) (hname : IsFieldName name) :
    nameIn? (before ++ name.toList ++ after) = some name := by
  have htrim : Text.trim (before ++ name.toList ++ after) = name.toList :=
    Text.trim_padded (fun c hc => hblank c (List.mem_append_left after hc)) hname.trimmed
      fun c hc => hblank c (List.mem_append_right before hc)
  rw [nameIn?, htrim]
  simp [hname.ne_empty]

/-- What is read in a piece without commas is a name, and there are blanks around it. -/
theorem exists_padded_of_nameIn? {piece : List Char} {name : String}
    (h : nameIn? piece = some name) (hcomma : ',' ∉ piece) :
    IsFieldName name ∧ ∃ before after, (∀ c ∈ before ++ after, Text.isBlank c = true) ∧
      before ++ name.toList ++ after = piece := by
  obtain ⟨hne, rfl⟩ : Text.trim piece ≠ [] ∧ String.ofList (Text.trim piece) = name := by
    simpa [nameIn?] using h
  obtain ⟨before, after, hblank, hpiece⟩ := Text.exists_padding piece
  refine ⟨⟨by simpa using hne, ?_, ?_⟩, before, after, hblank, ?_⟩
  · rw [String.toList_ofList]
    intro hmem
    apply hcomma
    rw [← hpiece]
    simp [hmem]
  · rw [String.toList_ofList]
    exact Text.isTrimmed_trim piece
  · rw [String.toList_ofList]
    exact hpiece

/-- The names that are read in pieces without commas are those in the pieces. -/
theorem filterMap_nameIn?_eq_iff {pieces : List (List Char)} {names : List String}
    (hcomma : ∀ piece ∈ pieces, ',' ∉ piece) :
    pieces.filterMap nameIn? = names ↔ NamesIn pieces names := by
  constructor
  · rintro rfl
    induction pieces with
    | nil => exact .nil
    | cons piece pieces ih =>
        have hrest := ih fun other hother => hcomma other (List.mem_cons_of_mem piece hother)
        cases hname : nameIn? piece with
        | none =>
            rw [List.filterMap_cons_none hname]
            exact .blank (nameIn?_eq_none_iff.1 hname) hrest
        | some name =>
            rw [List.filterMap_cons_some hname]
            obtain ⟨hfield, before, after, hblank, rfl⟩ :=
              exists_padded_of_nameIn? hname (hcomma piece List.mem_cons_self)
            exact .name hblank hfield hrest
  · intro h
    clear hcomma
    induction h with
    | nil => rfl
    | blank hblank _ ih => rw [List.filterMap_cons_none (nameIn?_eq_none_iff.2 hblank), ih]
    | name hblank hname _ ih => rw [List.filterMap_cons_some (nameIn?_padded hblank hname), ih]

theorem splitFields_eq_iff {text : String} {names : List String} :
    splitFields text = names ↔ ListsNames text.toList names := by
  rw [splitFields_eq]
  constructor
  · intro h
    refine ⟨text.toList.splitOn ',', (List.intercalate_splitOn ',').symm, ?_⟩
    rw [← filterMap_nameIn?_eq_iff]
    · exact h
    · intro piece hpiece hmem
      have hflat := List.mem_flatten.2 ⟨piece, hpiece, hmem⟩
      rw [Text.flatten_splitOn] at hflat
      simp at hflat
  · rintro ⟨pieces, htext, hnames⟩
    cases pieces with
    | nil =>
        cases hnames
        simp [htext, nameIn?, Text.trim, Text.trimStart, Text.trimEnd]
    | cons piece pieces =>
        have hcomma := hnames.comma_not_mem
        rw [htext, List.splitOn_intercalate ',' hcomma (List.cons_ne_nil piece pieces),
          filterMap_nameIn?_eq_iff hcomma]
        exact hnames

/-- No field is read in a text of commas and blanks, and only there. -/
theorem splitFields_eq_nil_iff {text : String} :
    splitFields text = [] ↔ ∀ c ∈ text.toList, c = ',' ∨ Text.isBlank c = true := by
  have hflat : splitFields text = [] ↔
      ∀ c ∈ (text.toList.splitOn ',').flatten, Text.isBlank c = true := by
    rw [splitFields_eq, List.filterMap_eq_nil_iff]
    simp only [nameIn?_eq_none_iff, List.mem_flatten]
    exact ⟨fun h c ⟨piece, hpiece, hc⟩ => h piece hpiece c hc,
      fun h piece hpiece c hc => h c ⟨piece, hpiece, hc⟩⟩
  rw [hflat, Text.flatten_splitOn]
  simp only [List.mem_filter, decide_eq_true_eq, and_imp, or_iff_not_imp_left]

theorem sortFields_eq_some_iff {params : QueryParams} {names : List String} :
    params.sortFields = some names ↔
      names ≠ [] ∧ ∃ text, params.sort = some text ∧ ListsNames text.toList names := by
  simp only [sortFields, ← splitFields_eq_iff]
  cases params.sort with
  | none => simp
  | some text =>
      cases hfields : splitFields text with
      | nil => simp [hfields, eq_comm]
      | cons name rest =>
          simp only [Option.map_some, hfields, Option.some.injEq, exists_eq_left']
          constructor
          · rintro rfl
            exact ⟨List.cons_ne_nil name rest, rfl⟩
          · exact And.right

theorem sortFields_eq_none_iff {params : QueryParams} :
    params.sortFields = none ↔ ∀ text, params.sort = some text →
      ∀ c ∈ text.toList, c = ',' ∨ Text.isBlank c = true := by
  simp only [sortFields, ← splitFields_eq_nil_iff]
  cases params.sort with
  | none => simp
  | some text => cases hfields : splitFields text <;> simp [hfields]

end QueryParams

/-! ## The keys of a page -/

namespace PageSpec

variable {d : Descriptor} {page : PageSpec}

theorem sortKeys_ne_nil {direction : Option Direction} {fields : List String} :
    sortKeys d direction fields ≠ [] := by
  cases fields <;> exact List.cons_ne_nil _ _

/-- The check of the keys refuses all keys on fields that are not declared. -/
theorem validateSort_of_not_mem (h : ¬ ∀ key ∈ page.keys, key.field ∈ Assoc.keys d.fields) :
    page.validateSort d = .error (.fields
      ((page.keys.filter fun key => key.field ∉ Assoc.keys d.fields).map
        fun key => .unknownField d.entity key.field)) := by
  have hsame : (page.keys.filter fun key => key.field ∉ Assoc.keys d.fields) =
      page.keys.filter fun key => !d.contains key.field := by
    apply List.filter_congr
    intro key _
    rw [Bool.eq_iff_iff]
    simp [← Descriptor.contains_iff]
  rw [hsame]
  apply validateSort_of_undeclared
  rw [← hsame, Ne, List.filter_eq_nil_iff]
  simpa using h

/-- A page of a possible index and size has one key for each name that the text of sort fields
lists, in the order of the names and as often as they are listed, all in the direction that is
asked for. With no text, and with one of commas and blanks alone, it has the key on the identity
field, which ascends in either case. A text that is made of names, with blanks around them and
blank pieces between them, lists these names. The page passes the check of its keys if all of them
are declared, and is refused for each other one otherwise. -/
theorem keys_as_listed (d : Descriptor) (params : QueryParams) (direction : Option Direction)
    {index size : Int64} (hindex : 0 ≤ index.toInt) (hsize : 1 ≤ size.toInt) :
    (∃ page, assemble d index size direction params.sortFields = .ok page ∧ page.keys ≠ [] ∧
      ((∀ text, params.sort = some text → ∀ c ∈ text.toList, c = ',' ∨ Text.isBlank c = true) →
        page.keys = [⟨d.identity, .ascending⟩]) ∧
      (∀ text, params.sort = some text →
        ¬ (∀ c ∈ text.toList, c = ',' ∨ Text.isBlank c = true) →
          ∃ names, ListsNames text.toList names ∧ (∀ name ∈ names, IsFieldName name) ∧
            page.keys = names.map fun name => ⟨name, direction.getD .ascending⟩) ∧
      (page.validateSort d = .ok () ↔ ∀ key ∈ page.keys, key.field ∈ Assoc.keys d.fields) ∧
      (¬ (∀ key ∈ page.keys, key.field ∈ Assoc.keys d.fields) →
        page.validateSort d = .error (.fields
          ((page.keys.filter fun key => key.field ∉ Assoc.keys d.fields).map
            fun key => .unknownField d.entity key.field)))) ∧
    ∀ text names, ListsNames text.toList names → names ≠ [] →
      ({ params with sort := some text } : QueryParams).sortFields = some names := by
  constructor
  · obtain ⟨page, hpage⟩ := assemble_of_good d direction params.sortFields hindex hsize
    obtain ⟨-, -, hkeys⟩ := of_assemble hpage
    refine ⟨page, hpage, ?nonempty, ?blank, ?listed, ?accepted, validateSort_of_not_mem⟩
    case nonempty =>
      rw [hkeys]
      exact sortKeys_ne_nil
    case blank =>
      intro hblank
      rw [hkeys, QueryParams.sortFields_eq_none_iff.2 hblank]
      rfl
    case listed =>
      intro text htext hnames
      cases hfields : params.sortFields with
      | none => exact absurd (QueryParams.sortFields_eq_none_iff.1 hfields text htext) hnames
      | some names =>
          obtain ⟨hne, text', htext', hlists⟩ := QueryParams.sortFields_eq_some_iff.1 hfields
          obtain rfl : text = text' := Option.some.inj (htext.symm.trans htext')
          rw [hfields] at hkeys
          exact ⟨names, hlists, hlists.isFieldName, hkeys.trans (sortKeys_of_ne_nil hne)⟩
    case accepted =>
      simp only [← Descriptor.contains_iff]
      exact ⟨declared_of_validateSort, validateSort_of_declared⟩
  · intro text names hlists hne
    exact QueryParams.sortFields_eq_some_iff.2 ⟨hne, text, rfl, hlists⟩

/-- Of a text with two names, one of them twice, the one that roles do not have is refused. The
direction is that of every name, but a text that lists no name is sorted in ascending order. -/
theorem keys_as_listed_roles :
    let sorted (text : String) := assemble Directory.role.descriptor 2 5 (some .descending)
      ({ sort := some text } : QueryParams).sortFields
    ({ sort := some " name,,\u3000shoe ,name" } : QueryParams).sortFields =
      some ["name", "shoe", "name"] ∧
    (∃ page, sorted " name,,\u3000shoe ,name" = .ok page ∧
      page.keys = [⟨"name", .descending⟩, ⟨"shoe", .descending⟩, ⟨"name", .descending⟩] ∧
      page.validateSort Directory.role.descriptor =
        .error (.fields [.unknownField "role" "shoe"])) ∧
    ∃ page, sorted " ,\t, " = .ok page ∧ page.keys = [⟨"id", .ascending⟩] ∧
      page.validateSort Directory.role.descriptor = .ok () := by
  intro sorted
  have hlists : ListsNames " name,,\u3000shoe ,name".toList ["name", "shoe", "name"] := by
    have hname : IsFieldName "name" := isFieldName_of_trim (by decide) (by decide) (by decide)
    have hshoe : IsFieldName "shoe" := isFieldName_of_trim (by decide) (by decide) (by decide)
    have hblank {cs : List Char} (h : cs.all Text.isBlank = true) :
        ∀ c ∈ cs, Text.isBlank c = true :=
      List.all_eq_true.1 h
    refine ⟨[[' '] ++ "name".toList ++ [], [], ['\u3000'] ++ "shoe".toList ++ [' '],
      [] ++ "name".toList ++ []], by decide, ?_⟩
    exact .name (hblank rfl) hname (.blank (hblank rfl) (.name (hblank rfl) hshoe
      (.name (hblank rfl) hname .nil)))
  have hindex : 0 ≤ (2 : Int64).toInt := by decide
  have hsize : 1 ≤ (5 : Int64).toInt := by decide
  obtain ⟨⟨page, hpage, -, -, hlisted, -, hrefused⟩, hread⟩ :=
    keys_as_listed Directory.role.descriptor { sort := some " name,,\u3000shoe ,name" }
      (some .descending) hindex hsize
  obtain ⟨⟨page', hpage', -, hblank, -, haccepted, -⟩, -⟩ :=
    keys_as_listed Directory.role.descriptor { sort := some " ,\t, " } (some .descending) hindex
      hsize
  refine ⟨hread _ _ hlists (by decide), ⟨page, hpage, ?_⟩, page', hpage', ?_⟩
  · have hletter : ¬ ('n' = ',' ∨ Text.isBlank 'n' = true) := by decide
    obtain ⟨names, hnames, -, hkeys⟩ :=
      hlisted _ rfl fun hempty => hletter (hempty 'n' (by decide))
    have hsame : names = ["name", "shoe", "name"] :=
      (QueryParams.splitFields_eq_iff.2 hnames).symm.trans (QueryParams.splitFields_eq_iff.2 hlists)
    subst hsame
    have hundeclared := hrefused (by rw [hkeys]; decide)
    rw [hkeys] at hundeclared
    exact ⟨hkeys, hundeclared⟩
  · have hempty : " ,\t, ".toList.all (fun c => c = ',' ∨ Text.isBlank c = true) = true := by
      decide
    have hkeys := hblank fun text htext => by
      cases htext
      exact fun c hc => of_decide_eq_true (List.all_eq_true.1 hempty c hc)
    refine ⟨hkeys, haccepted.2 ?_⟩
    rw [hkeys]
    decide

end PageSpec

end EntityQuery
