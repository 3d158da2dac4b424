import EntityQuery.Predicate
import EntityQuery.Proofs.Relational.Columns
/-!
# Instants rounded down

The cast of a text to an instant would round it to the microsecond, and an instant shortly before a
full second would be taken for that second. So the first match of a point, six digits and more
digits is replaced by the point and the six digits, which rounds the instant down.

A bound of whole seconds is compared with the instant rounded down as it is with the instant
itself, unless the instant comes behind the bound by less than a microsecond. Then it is taken for
the bound.
-/

namespace EntityQuery

open Relational Text

/-! ## The first match -/

namespace Relational

/-- A text begins with a point, six digits and more digits, which are as many as there are. -/
structure IsMatch (cs six more rest : List Char) : Prop where
  eq : cs = '.' :: (six ++ (more ++ rest))
  length_six : six.length = 6
  isDigit_six : ∀ c ∈ six, isDigit c = true
  isDigits_more : IsDigits more
  noDigitAhead : NoDigitAhead rest

/-- The first match of a point, six digits and more digits, read from the left, is replaced by the
point and the six digits. -/
inductive ReplacesFirst : List Char → List Char → Prop
  | nil : ReplacesFirst [] []
  | here {cs six more rest : List Char} (h : IsMatch cs six more rest) :
    ReplacesFirst cs ('.' :: six ++ rest)
  | later {c : Char} {cs cs' : List Char}
    (hnot : ∀ six more rest, ¬ IsMatch (c :: cs) six more rest) (h : ReplacesFirst cs cs') :
    ReplacesFirst (c :: cs) (c :: cs')

/-- A point with more than six digits behind it begins a match. -/
theorem isMatch_of_lt {rest : List Char} (h : 6 < (rest.takeWhile isDigit).length) :
    IsMatch ('.' :: rest) ((rest.takeWhile isDigit).take 6) ((rest.takeWhile isDigit).drop 6)
      (rest.dropWhile isDigit) where
  eq := by rw [← List.append_assoc, List.take_append_drop, List.takeWhile_append_dropWhile]
  length_six := by
    rw [List.length_take]
    omega
  isDigit_six c hc := List.mem_takeWhile_imp (List.mem_of_mem_take hc)
  isDigits_more :=
    { ne_nil := by simpa using h
      isDigit := fun c hc => List.mem_takeWhile_imp (List.mem_of_mem_drop hc) }
  noDigitAhead c hc := by
    have hhead := List.head?_dropWhile_not isDigit rest
    rw [Option.mem_def.1 hc] at hhead
    simpa using hhead

theorem IsMatch.cutFraction_eq {cs six more rest : List Char} (h : IsMatch cs six more rest) :
    cutFraction cs = '.' :: six ++ rest := by
  obtain ⟨rfl, hlength, hsix, hmore, hrest⟩ := h
  have hdigits : ∀ c ∈ six ++ more, isDigit c = true := by
    intro c hc
    obtain hc | hc := List.mem_append.1 hc
    · exact hsix c hc
    · exact hmore.isDigit c hc
  have hlong : 6 < (six ++ more).length := by
    have hpos := List.length_pos_iff.2 hmore.ne_nil
    rw [List.length_append]
    omega
  rw [← List.append_assoc, cutFraction, takeWhile_append_of_head hdigits hrest,
    dropWhile_append_of_head hdigits hrest, if_pos ⟨rfl, hlong⟩, List.take_left' hlength]

/-- Nothing else is a replacement of the first match. -/
theorem replacesFirst_iff {cs cs' : List Char} : ReplacesFirst cs cs' ↔ cs' = cutFraction cs := by
  constructor
  · intro h
    induction h with
    | nil => rfl
    | here h => exact h.cutFraction_eq.symm
    | later hnot _ ih =>
        rw [cutFraction, if_neg, ih]
        rintro ⟨rfl, hlong⟩
        exact hnot _ _ _ (isMatch_of_lt hlong)
  · rintro rfl
    induction cs with
    | nil => exact .nil
    | cons c rest ih =>
        by_cases hmatch : ∃ six more tail, IsMatch (c :: rest) six more tail
        · obtain ⟨six, more, tail, hmatch⟩ := hmatch
          rw [hmatch.cutFraction_eq]
          exact .here hmatch
        · have hnot (six more tail : List Char) : ¬ IsMatch (c :: rest) six more tail :=
            fun h => hmatch ⟨six, more, tail, h⟩
          rw [cutFraction, if_neg]
          · exact .later hnot ih
          · rintro ⟨rfl, hlong⟩
            exact hnot _ _ _ (isMatch_of_lt hlong)

end Relational

/-! ## The order of instants rounded down -/

namespace Instant

variable {t u b : Instant}

/-- An instant rounded down is no later, and less than a microsecond earlier. -/
theorem epochNanos_floorMicro (t : Instant) :
    t.floorMicro.epochNanos ≤ t.epochNanos ∧ t.epochNanos < t.floorMicro.epochNanos + 1000 := by
  simp only [epochNanos, date_floorMicro, second_floorMicro, nano_floorMicro]
  omega

theorem floorMicro_mono (h : compare t u ≠ .gt) : compare t.floorMicro u.floorMicro ≠ .gt := by
  rw [compare_eq_cmp_tick, Ne, cmp_eq_gt_iff, not_lt] at h ⊢
  have ht := t.nano_lt
  have hu := u.nano_lt
  simp only [tick, date_floorMicro, second_floorMicro, nano_floorMicro] at h ⊢
  omega

/-- A bound of whole seconds compares with the instant rounded down as with the instant, unless the
instant is in the microsecond that begins with the bound. -/
theorem compare_floorMicro (hb : b.nanoOfSecond = 0)
    (hfar : t.epochNanos < b.epochNanos ∨ b.epochNanos + 1000 ≤ t.epochNanos) :
    compare t.floorMicro b = compare t b := by
  have ht := t.nano_lt
  have hb' := b.nano_lt
  simp only [epochNanos, nanoOfSecond] at hfar hb
  rw [compare_eq_cmp_tick, compare_eq_cmp_tick]
  simp only [tick, date_floorMicro, second_floorMicro, nano_floorMicro]
  apply cmp_eq_cmp_of_lt_iff <;> omega

/-- An instant less than a microsecond behind a whole second is taken for the second. -/
theorem floorMicro_eq_of_near (ht : t.nano < 1000000000) (hb : b.nano = 0)
    (hle : b.epochNanos ≤ t.epochNanos) (hnear : t.epochNanos < b.epochNanos + 1000) :
    t.floorMicro = b := by
  apply compare_eq_eq_iff.1
  simp only [epochNanos] at hle hnear
  rw [compare_eq_cmp_tick, cmp_eq_eq_iff]
  simp only [tick, date_floorMicro, second_floorMicro, nano_floorMicro]
  omega

/-! ## The order of microseconds -/

theorem microsOf_mul (hb : b.nanoOfSecond = 0) :
    microsOf b * 1000 = b.epochNanos - epochSeconds * 1000000000 := by
  refine Int.tdiv_mul_cancel ?_
  simp only [nanoOfSecond] at hb
  simp only [epochNanos]
  omega

/-- The microseconds of an instant and of a bound of whole seconds compare as the two do. -/
theorem cmp_nearestMicros_microsOf (ht : t.nano < 1000000000) (hb : b.nanoOfSecond = 0)
    (hfar : t.epochNanos < b.epochNanos ∨ b.epochNanos + 1000 ≤ t.epochNanos) :
    cmp (nearestMicros t.floorMicro) (microsOf b) = compare t b := by
  have htmicros := nearestMicros_eq (isWholeMicro_floorMicro ht)
  have hbmicros := microsOf_mul hb
  have hbounds := epochNanos_floorMicro t
  have hb' := b.nano_lt
  simp only [nanoOfSecond] at hb
  simp only [epochNanos] at htmicros hbmicros hbounds hfar
  rw [compare_eq_cmp_tick, tick, tick]
  apply cmp_eq_cmp_of_lt_iff <;> omega

end Instant

/-! ## The column of an instant -/

/-- Instants that compare alike with a bound satisfy the same comparisons with it. -/
theorem Operator.holds_dateTime_congr {t u b : Instant} (h : compare t b = compare u b)
    (op : Operator) :
    op.holds (.dateTime t) (.dateTime b) = op.holds (.dateTime u) (.dateTime b) := by
  simp only [holds, FieldValue.text?, FieldValue.compare?, h]

namespace Relational

variable {t : Instant}

/-- The text of a column is read as its expression. -/
theorem exists_scan?_documentColumn (field : String) (type : FieldType) :
    ∃ tokens, Sql.tokens? (documentColumn field type) = some tokens ∧
      Expression.scan? tokens = some (columnExpression field type, []) := by
  refine ⟨_, tokens?_documentColumn field type, ?_⟩
  cases type <;> rfl

/-- The only replacement of the first match in the text of an instant denotes the instant rounded
down. -/
theorem exists_replaceFirst?_write (hyear : IsFourDigitYear t.date.year) :
    ∃ text, replaceFirst? "(\\.[0-9]\x7b6\x7d)[0-9]+" "\\1" (t.write .shortest) = some text ∧
      (∀ cs, ReplacesFirst (t.write .shortest) cs ↔ cs = text) ∧
      Instant.readStrict? text = some t.floorMicro ∧
      Instant.readLoose? text = some t.floorMicro ∧
      (t.IsWholeMicro → text = t.write .shortest) :=
  ⟨cutFraction (t.write .shortest), if_pos ⟨rfl, rfl⟩, fun _ => replacesFirst_iff,
    Instant.readStrict?_cutFraction_write hyear, t.readLoose?_cutFraction_write,
    Instant.cutFraction_write_of_isWholeMicro⟩

/-- A column of instants makes of the stored text the instant rounded down, unless the database does
not count its year. It compares with a bound of whole seconds as the instant itself does, unless the
instant is in the microsecond that begins with the bound: then it is taken for the bound. -/
theorem column_rounds_down (hyear : IsFourDigitYear t.date.year) (hleap : t.nano < 1000000000)
    (field : String) :
    (∃ tokens, Sql.tokens? (documentColumn field .dateTime) = some tokens ∧
      Expression.scan? tokens = some (columnExpression field .dateTime, [])) ∧
    (∃ text, replaceFirst? "(\\.[0-9]\x7b6\x7d)[0-9]+" "\\1" (t.write .shortest) = some text ∧
      (∀ cs, ReplacesFirst (t.write .shortest) cs ↔ cs = text) ∧
      Instant.readStrict? text = some t.floorMicro ∧
      Instant.readLoose? text = some t.floorMicro ∧
      (t.IsWholeMicro → text = t.write .shortest)) ∧
    (∀ row data, Assoc.lookup "data" row = some (.jsonb data) →
      data.member? field = some (FieldValue.dateTime t).toJson →
      (columnExpression field .dateTime).evaluate? row =
        if IsCountedYear t.date.year then some (.timestamptz (nearestMicros t.floorMicro))
        else none) ∧
    nearestMicros t.floorMicro * 1000 = t.floorMicro.epochNanos - epochSeconds * 1000000000 ∧
    t.floorMicro.IsWholeMicro ∧
    (t.floorMicro.epochNanos ≤ t.epochNanos ∧ t.epochNanos < t.floorMicro.epochNanos + 1000) ∧
    (t.IsWholeMicro → t.floorMicro = t) ∧
    (∀ u : Instant, compare t u ≠ .gt → compare t.floorMicro u.floorMicro ≠ .gt) ∧
    ∀ b : Instant, b.nanoOfSecond = 0 →
      (t.epochNanos < b.epochNanos ∨ b.epochNanos + 1000 ≤ t.epochNanos →
        (∀ op : Operator, op.holds (.dateTime t.floorMicro) (.dateTime b) =
          op.holds (.dateTime t) (.dateTime b)) ∧
        Param.order? none (.timestamptz (nearestMicros t.floorMicro)) (.ofInstant b) =
          some (compare t b)) ∧
      (b.nano = 0 → b.epochNanos ≤ t.epochNanos → t.epochNanos < b.epochNanos + 1000 →
        t.floorMicro = b) := by
  have hcolumn (row : Row) (data : Json) (hdata : Assoc.lookup "data" row = some (.jsonb data))
      (hmember : data.member? field = some (FieldValue.dateTime t).toJson) :=
    evaluate?_dateTime (evaluate?_member hdata hmember rfl)
  refine ⟨exists_scan?_documentColumn field .dateTime, exists_replaceFirst?_write hyear, hcolumn,
    Instant.nearestMicros_eq (Instant.isWholeMicro_floorMicro hleap),
    Instant.isWholeMicro_floorMicro hleap, t.epochNanos_floorMicro, Instant.floorMicro_eq_self,
    fun u => Instant.floorMicro_mono, ?_⟩
  intro b hb
  refine ⟨fun hfar => ⟨?_, ?_⟩, Instant.floorMicro_eq_of_near hleap⟩
  · exact Operator.holds_dateTime_congr (Instant.compare_floorMicro hb hfar)
  · exact congrArg some (Instant.cmp_nearestMicros_microsOf hleap hb hfar)

/-- The cast alone would take an instant 400 nanoseconds in front of a second for the second. -/
theorem column_rounds_down_late :
    let late : Instant := ⟨⟨2030, 1, 1, by decide⟩, 36930, 999999600, by decide, by decide⟩
    let full : Instant := ⟨⟨2030, 1, 1, by decide⟩, 36931, 0, by decide, by decide⟩
    let early : Instant := ⟨⟨2030, 1, 1, by decide⟩, 36931, 789, by decide, by decide⟩
    let data : Json := .obj [("created_at", .str "2030-01-01T10:15:30.999999600Z")]
    (∃ text, replaceFirst? "(\\.[0-9]\x7b6\x7d)[0-9]+" "\\1" (late.write .shortest) = some text ∧
      Instant.readStrict? text = some late.floorMicro) ∧
    (columnExpression "created_at" .dateTime).evaluate? [("data", .jsonb data)] =
      some (.timestamptz 946808130999999) ∧
    Operator.less.holds (.dateTime late.floorMicro) (.dateTime full) = true ∧
    Param.order? none (.timestamptz (nearestMicros late.floorMicro)) (.ofInstant full) =
      some .lt ∧
    compare late.floorMicro early.floorMicro ≠ .gt ∧
    early.floorMicro = full ∧ full.floorMicro = full := by
  intro late full early data
  obtain ⟨-, ⟨text, hreplace, -, hread, -⟩, hcolumn, -, -, -, -, hmono, hbound⟩ :=
    column_rounds_down (t := late) ⟨by decide, by decide⟩ (by decide) "created_at"
  obtain ⟨-, -, -, -, -, -, -, -, hnear⟩ :=
    column_rounds_down (t := early) ⟨by decide, by decide⟩ (by decide) "created_at"
  obtain ⟨-, -, -, -, -, -, hwhole, -, -⟩ :=
    column_rounds_down (t := full) ⟨by decide, by decide⟩ (by decide) "created_at"
  obtain ⟨hholds, horder⟩ := (hbound full rfl).1 (.inl (by decide))
  have hmicros : nearestMicros late.floorMicro = 946808130999999 := by decide
  have htext : late.write .shortest = "2030-01-01T10:15:30.999999600Z".toList := by decide
  have hmember : data.member? "created_at" = some (FieldValue.dateTime late).toJson := by
    rw [FieldValue.toJson, htext, String.ofList_toList]
    rfl
  refine ⟨⟨text, hreplace, hread⟩, ?_, ?_, ?_, hmono early (by decide),
    (hnear full rfl).2 rfl (by decide) (by decide), hwhole ⟨by decide, by decide⟩⟩
  · rw [← hmicros, hcolumn _ data rfl hmember]
    exact if_pos ⟨by decide, by decide⟩
  · rw [hholds]
    decide
  · rw [horder]
    decide

end Relational

end EntityQuery
