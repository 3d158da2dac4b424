import EntityQuery.Text.Substring
/-!
# Containment by concatenation

What the three ways of finding one text in another decide, said by the texts that stand
before and after the part.
-/

namespace EntityQuery.Text

theorem startsWith_iff (part text : List Char) :
    startsWith part text = true ↔ ∃ after, text = part ++ after := by
  rw [startsWith, List.isPrefixOf_iff_prefix]
  constructor
  · rintro ⟨after, rfl⟩
    exact ⟨after, rfl⟩
  · rintro ⟨after, rfl⟩
    exact List.prefix_append part after

theorem endsWith_iff (part text : List Char) :
    endsWith part text = true ↔ ∃ before, text = before ++ part := by
  rw [endsWith, List.isSuffixOf_iff_suffix]
  constructor
  · rintro ⟨before, rfl⟩
    exact ⟨before, rfl⟩
  · rintro ⟨before, rfl⟩
    exact List.suffix_append before part

theorem occursIn_iff (part text : List Char) :
    occursIn part text = true ↔ ∃ before after, text = before ++ (part ++ after) := by
  induction text with
  | nil =>
      rw [occursIn, List.isEmpty_iff]
      constructor
      · rintro rfl
        exact ⟨[], [], rfl⟩
      · rintro ⟨before, after, h⟩
        simp_all
  | cons c rest ih =>
      rw [occursIn, Bool.or_eq_true, List.isPrefixOf_iff_prefix, ih]
      constructor
      · rintro (⟨after, h⟩ | ⟨before, after, rfl⟩)
        · exact ⟨[], after, h.symm⟩
        · exact ⟨c :: before, after, rfl⟩
      · rintro ⟨before, after, h⟩
        obtain _ | ⟨d, before⟩ := before
        · exact .inl ⟨after, h.symm⟩
        · rw [List.cons_append, List.cons.injEq] at h
          exact .inr ⟨before, after, h.2⟩

end EntityQuery.Text
