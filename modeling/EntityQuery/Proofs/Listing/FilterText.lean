import EntityQuery.Listing.Params
import EntityQuery.Proofs.Json.Reading
import EntityQuery.Proofs.Text.Trimming
/-!
# The text of filters

A list of filters is read back from its text, with any blanks around it, whatever characters its
fields and values have. The blanks may be any that trimming knows; JSON itself allows only four,
so they are off before the text is read. A text is no list of filters only if nothing is left.
-/

namespace EntityQuery

/-! ## Trimming -/

namespace Text

/-- A text is what is left of it with blanks around, if it has none at its ends. -/
theorem trim_append {before middle after : List Char} {first last : Char}
    (hfirst : isBlank first = false) (hlast : isBlank last = false)
    (hbefore : ∀ c ∈ before, isBlank c = true) (hafter : ∀ c ∈ after, isBlank c = true) :
    trim (before ++ first :: (middle ++ [last]) ++ after) = first :: (middle ++ [last]) := by
  have htrimmed : IsTrimmed (first :: (middle ++ [last])) := by
    refine ⟨?_, ?_⟩
    · simpa using hfirst
    · rw [← List.cons_append, List.getLast?_concat]
      simpa using hlast
  exact trim_padded hbefore htrimmed hafter

end Text

/-! ## Filters -/

namespace Filter

theorem exists_tree (f : Filter) : ∃ tree, f.toJson.ReadsAs tree ∧ ofTree? tree = some f := by
  refine ⟨.obj [(some "field", .str (some f.field)), (some "value", .str (some f.value)),
    (some "operator", .str (some f.operator.name))], ?_, ?_⟩
  · exact Json.readsAs_obj (.cons ⟨rfl, Json.readsAs_str _⟩ (.cons ⟨rfl, Json.readsAs_str _⟩
      (.cons ⟨rfl, Json.readsAs_str _⟩ .nil)))
  · simp [ofTree?, namedMembers?, onlyMember?, ofParts?, stringOfTree?, wordOfTree?,
      Operator.ofName?_name]

theorem exists_trees (filters : List Filter) :
    ∃ trees, List.Forall₂ Json.ReadsAs (filters.map toJson) trees ∧
      trees.mapM ofTree? = some filters := by
  induction filters with
  | nil => exact ⟨[], .nil, rfl⟩
  | cons f filters ih =>
      obtain ⟨trees, hreads, htrees⟩ := ih
      obtain ⟨tree, hread, htree⟩ := exists_tree f
      refine ⟨tree :: trees, .cons hread hreads, ?_⟩
      rw [List.mapM_cons, htree, htrees]
      rfl

theorem readList?_writeList (filters : List Filter) :
    readList? (writeList filters).toList = some filters := by
  obtain ⟨trees, hreads, htrees⟩ := exists_trees filters
  rw [writeList, Json.toText, String.toList_ofList, readList?,
    Json.read?_of_readsAs (Json.readsAs_arr hreads)]
  exact htrees

/-- The text of a list stands between brackets. -/
theorem exists_writeList (filters : List Filter) :
    ∃ items, (writeList filters).toList = '[' :: (items ++ [']']) := by
  rw [writeList, Json.toText, String.toList_ofList, Json.write_arr]
  exact ⟨_, rfl⟩

end Filter

namespace QueryParams

theorem filters_of_readList? {params : QueryParams} {text : String} {filters : List Filter}
    (htext : params.filter = some text) (hne : Text.trim text.toList ≠ [])
    (h : Filter.readList? (Text.trim text.toList) = some filters) :
    params.filters = .ok (some filters) := by
  rw [QueryParams.filters, htext, Option.map_some]
  cases htrim : Text.trim text.toList with
  | nil => exact absurd htrim hne
  | cons c rest =>
      rw [htrim] at h
      simp only [h]

/-- No list is found only where no text is left. -/
theorem filters_eq_ok_none_iff (params : QueryParams) :
    params.filters = .ok none ↔
      ∀ text, params.filter = some text → Text.trim text.toList = [] := by
  rw [QueryParams.filters]
  cases params.filter with
  | none => simp
  | some text =>
      simp only [Option.map_some, Option.some.injEq, forall_eq']
      cases Text.trim text.toList with
      | nil => simp
      | cons c rest => cases hread : Filter.readList? (c :: rest) <;> simp [hread]

/-- Filters are read back from their text, in their order, whatever blanks stand around it, and
the empty list is read back as a list. Only a missing text and one of blanks alone are none. -/
theorem filters_read_back (filters : List Filter) (params : QueryParams) :
    (∀ before after : List Char, (∀ c ∈ before ++ after, Text.isBlank c = true) →
      let text := String.ofList (before ++ (Filter.writeList filters).toList ++ after)
      { params with filter := some text }.filters = .ok (some filters)) ∧
    (params.filters = .ok none ↔ params.filter = none ∨
      ∃ text, params.filter = some text ∧ ∀ c ∈ text.toList, Text.isBlank c = true) := by
  constructor
  · intro before after hblanks text
    obtain ⟨items, hwritten⟩ := Filter.exists_writeList filters
    have htrim : Text.trim text.toList = (Filter.writeList filters).toList := by
      rw [String.toList_ofList, hwritten]
      exact Text.trim_append rfl rfl (fun c hc => hblanks c (List.mem_append_left after hc))
        fun c hc => hblanks c (List.mem_append_right before hc)
    have hne : Text.trim text.toList ≠ [] := by
      rw [htrim, hwritten]
      simp
    exact filters_of_readList? rfl hne (htrim ▸ Filter.readList?_writeList filters)
  · rw [filters_eq_ok_none_iff]
    cases hfilter : params.filter with
    | none => simp
    | some text => simp [Text.trim_eq_nil_iff]

/-- Quotes, escapes, a control character and a character of two units come back, also with a
no-break space in front and an ideographic space behind. -/
theorem hostile_filters_read_back :
    let filters : List Filter :=
      [⟨"na\"me", "a\\b\n\u0001\t/", .contains⟩, ⟨"", "😀\u2028\x7f", .startsWith⟩]
    let text := String.ofList (['\u00a0'] ++ (Filter.writeList filters).toList ++ ['\u3000', '\n'])
    ({ filter := some text } : QueryParams).filters = .ok (some filters) ∧
      ({ filter := some "[]" } : QueryParams).filters = .ok (some []) := by
  intro filters text
  exact ⟨(filters_read_back filters {}).1 ['\u00a0'] ['\u3000', '\n'] (by simp [Text.isBlank]),
    (filters_read_back [] {}).1 [] [] (by simp)⟩

end QueryParams

end EntityQuery
