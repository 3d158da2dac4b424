import Mathlib.Data.List.DropRight
import EntityQuery.Proofs.Text.FixedDigits
import EntityQuery.Text.Blank
/-!
# What trimming takes off

Trimming takes blanks off both ends of a text and nothing else, and there is no blank at the ends
of what is left. So a text that has none at its ends is what is left of it with any blanks around.
-/

namespace EntityQuery.Text

/-- No blank stands at either end of the text. -/
structure IsTrimmed (cs : List Char) : Prop where
  head : ∀ c ∈ cs.head?, isBlank c = false
  last : ∀ c ∈ cs.getLast?, isBlank c = false

/-- Nothing is left of a text of blanks alone. -/
theorem trim_eq_nil_iff (cs : List Char) : trim cs = [] ↔ ∀ c ∈ cs, isBlank c = true := by
  rw [trim, trimEnd, List.reverse_eq_nil_iff, List.dropWhile_eq_nil_iff]
  constructor
  · intro hrest c hc
    rw [← List.takeWhile_append_dropWhile (p := isBlank) (l := cs), List.mem_append] at hc
    obtain hfront | hbehind := hc
    · exact List.mem_takeWhile_imp hfront
    · exact hrest c (List.mem_reverse.2 hbehind)
  · intro hall c hc
    exact hall c ((List.dropWhile_sublist isBlank).subset (List.mem_reverse.1 hc))

/-- A text without blanks at its ends is what is left of it with blanks around. -/
theorem trim_padded {before middle after : List Char} (hbefore : ∀ c ∈ before, isBlank c = true)
    (h : IsTrimmed middle) (hafter : ∀ c ∈ after, isBlank c = true) :
    trim (before ++ middle ++ after) = middle := by
  cases middle with
  | nil =>
      rw [trim_eq_nil_iff, List.append_nil]
      intro c hc
      exact (List.mem_append.1 hc).elim (hbefore c) (hafter c)
  | cons first rest =>
      have hstart : trimStart (before ++ first :: rest ++ after) = first :: rest ++ after := by
        rw [List.append_assoc]
        exact dropWhile_append_of_head hbefore h.head
      have hend : (first :: rest ++ after).reverse.dropWhile isBlank = (first :: rest).reverse := by
        rw [List.reverse_append]
        apply dropWhile_append_of_head
        · simpa using hafter
        · rw [List.head?_reverse]
          exact h.last
      rw [trim, hstart, trimEnd, hend, List.reverse_reverse]

/-- Blanks at the end are a run from the right. -/
theorem trim_eq_rdropWhile (cs : List Char) : trim cs = (trimStart cs).rdropWhile isBlank := rfl

/-- No blank is left at the ends. -/
theorem isTrimmed_trim (cs : List Char) : IsTrimmed (trim cs) where
  head := by
    intro c hc
    have hfront : trim cs <+: trimStart cs := List.rdropWhile_prefix isBlank (trimStart cs)
    have hstart : (cs.dropWhile isBlank).head? = some c := by
      obtain ⟨after, hafter⟩ := hfront
      rw [trimStart] at hafter
      rw [← hafter, List.head?_append, Option.mem_def.1 hc]
      rfl
    have hnot := List.head?_dropWhile_not isBlank cs
    rwa [hstart] at hnot
  last := by
    rw [trim_eq_rdropWhile]
    intro c hc
    obtain ⟨hne, rfl⟩ := List.mem_getLast?_eq_getLast hc
    exact Bool.eq_false_iff.2 (List.rdropWhile_last_not isBlank (trimStart cs) hne)

/-- What trimming takes off are blanks. -/
theorem exists_padding (cs : List Char) :
    ∃ before after, (∀ c ∈ before ++ after, isBlank c = true) ∧
      before ++ trim cs ++ after = cs := by
  refine ⟨cs.takeWhile isBlank, (trimStart cs).rtakeWhile isBlank, ?_, ?_⟩
  · intro c hc
    obtain hfront | hbehind := List.mem_append.1 hc
    · exact List.mem_takeWhile_imp hfront
    · exact List.mem_rtakeWhile_imp hbehind
  · rw [List.append_assoc, trim_eq_rdropWhile, List.rdropWhile_append_rtakeWhile]
    exact List.takeWhile_append_dropWhile

end EntityQuery.Text
