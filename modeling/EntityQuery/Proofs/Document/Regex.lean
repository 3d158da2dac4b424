import Mathlib.Tactic.FinCases
import EntityQuery.Proofs.Text.Containment
import EntityQuery.Store.Document.Query
/-!
# Regular expressions without repetition

The part of regular expressions that filters are made of: characters that stand for
themselves, escaped ones among them, and the two anchors `^` and `\z`, which without
options hold at the very start and at the very end of a text. An expression is looked
for anywhere in a text. Whatever else an expression may contain is not read here.
-/

namespace EntityQuery.DocumentStore

/-- A part of a regular expression. -/
inductive RegexItem
  /-- The start of the text. -/
  | start
  /-- The end of the text. -/
  | finish
  | literal (c : Char)
  deriving DecidableEq, Repr

/-- The characters that mean something else than themselves unless they are escaped. -/
def isRegexMeta (c : Char) : Bool :=
  c ∈ ['\\', '.', '+', '*', '?', '(', ')', '|', '[', '\x7b', '^', '$']

/-- The items of an expression. A backslash makes punctuation stand for itself and gives
letters and digits meanings of which only the end of the text is read. -/
def regexItems? : List Char → Option (List RegexItem)
  | [] => some []
  | '^' :: rest => (regexItems? rest).map (.start :: ·)
  | ['\\'] => none
  | '\\' :: c :: rest =>
    if c = 'z' then (regexItems? rest).map (.finish :: ·)
    else if c.isAlphanum then none
    else (regexItems? rest).map (.literal c :: ·)
  | c :: rest => if isRegexMeta c then none else (regexItems? rest).map (.literal c :: ·)

/-- Whether items match at the front of what remains of a text. -/
def regexMatches (atStart : Bool) : List RegexItem → List Char → Bool
  | [], _ => true
  | .start :: items, text => atStart && regexMatches atStart items text
  | .finish :: items, text => text.isEmpty && regexMatches atStart items text
  | .literal _ :: _, [] => false
  | .literal c :: items, d :: text => c = d && regexMatches false items text

/-- Whether items match somewhere in what remains of a text. -/
def regexFinds (atStart : Bool) (items : List RegexItem) : List Char → Bool
  | [] => regexMatches atStart items []
  | c :: text => regexMatches atStart items (c :: text) || regexFinds false items text

/-- Whether an expression is found in a text. What is not read is not found. -/
def regexFound (pattern text : String) : Bool :=
  (regexItems? pattern.toList).any fun items => regexFinds true items text.toList

/-- The items of a text that stands for itself. -/
def regexLiterals (text : List Char) : List RegexItem :=
  text.map .literal

/-- Every character with another meaning is escaped. -/
theorem isRegexSpecial_of_isRegexMeta {c : Char} (h : isRegexMeta c = true) :
    isRegexSpecial c = true := by
  have hmem := of_decide_eq_true h
  fin_cases hmem <;> rfl

/-- Only punctuation is escaped. -/
theorem not_isAlphanum_of_isRegexSpecial {c : Char} (h : isRegexSpecial c = true) :
    c.isAlphanum = false := by
  have hmem := of_decide_eq_true h
  fin_cases hmem <;> rfl

theorem regexItems?_escaped {c : Char} (h : isRegexSpecial c = true) (rest : List Char) :
    regexItems? ('\\' :: c :: rest) = (regexItems? rest).map (.literal c :: ·) := by
  have hplain := not_isAlphanum_of_isRegexSpecial h
  have hend : c ≠ 'z' := by
    rintro rfl
    cases hplain
  rw [regexItems?, if_neg hend, hplain, if_neg Bool.false_ne_true]

theorem regexItems?_literal {c : Char} (h : isRegexSpecial c = false) (rest : List Char) :
    regexItems? (c :: rest) = (regexItems? rest).map (.literal c :: ·) := by
  have hplain : isRegexMeta c = false := by
    rw [← Bool.not_eq_true]
    exact fun hmeta => Bool.false_ne_true (h ▸ isRegexSpecial_of_isRegexMeta hmeta)
  have hcaret : c ≠ '^' := by
    rintro rfl
    cases hplain
  have hescape : c ≠ '\\' := by
    rintro rfl
    cases hplain
  rw [regexItems?, hplain, if_neg Bool.false_ne_true]
  all_goals simp_all

theorem regexItems?_escapeWith_append (text pattern : List Char) :
    regexItems? (Text.escapeWith '\\' isRegexSpecial text ++ pattern) =
      (regexItems? pattern).map (regexLiterals text ++ ·) := by
  induction text with
  | nil => simp [regexLiterals]
  | cons c text ih =>
      have hitems : (regexItems? (Text.escapeWith '\\' isRegexSpecial text ++ pattern)).map
          (.literal c :: ·) = (regexItems? pattern).map (regexLiterals (c :: text) ++ ·) := by
        rw [ih, Option.map_map]
        rfl
      rw [Text.escapeWith_cons, List.append_assoc, ← hitems]
      cases hspecial : isRegexSpecial c with
      | true => exact regexItems?_escaped hspecial _
      | false => exact regexItems?_literal hspecial _

/-- Characters that stand for themselves match themselves. Behind the first of them no
start of the text follows. -/
theorem regexMatches_literals_append (atStart : Bool) (part : List Char)
    (items : List RegexItem) (text : List Char) :
    regexMatches atStart (regexLiterals part ++ items) text = true ↔
      ∃ after, text = part ++ after ∧
        regexMatches (atStart && part.isEmpty) items after = true := by
  induction part generalizing atStart text with
  | nil => simp [regexLiterals]
  | cons c part ih =>
      cases text with
      | nil => simp [regexLiterals, regexMatches]
      | cons d text =>
          have hstep : regexMatches atStart (regexLiterals (c :: part) ++ items) (d :: text) =
              (decide (c = d) && regexMatches false (regexLiterals part ++ items) text) := rfl
          rw [hstep, Bool.and_eq_true, decide_eq_true_eq, ih]
          constructor
          · rintro ⟨rfl, after, rfl, h⟩
            exact ⟨after, rfl, by simpa using h⟩
          · rintro ⟨after, htext, h⟩
            rw [List.cons_append, List.cons.injEq] at htext
            exact ⟨htext.1.symm, after, htext.2, by simpa using h⟩

/-- An expression is found behind any beginning of the text, the empty one being the start. -/
theorem regexFinds_iff (atStart : Bool) (items : List RegexItem) (text : List Char) :
    regexFinds atStart items text = true ↔
      ∃ before after, text = before ++ after ∧
        regexMatches (atStart && before.isEmpty) items after = true := by
  induction text generalizing atStart with
  | nil =>
      rw [regexFinds]
      constructor
      · intro h
        exact ⟨[], [], rfl, by simpa using h⟩
      · rintro ⟨before, after, htext, h⟩
        obtain ⟨rfl, rfl⟩ := List.append_eq_nil_iff.1 htext.symm
        simpa using h
  | cons c text ih =>
      rw [regexFinds, Bool.or_eq_true, ih]
      constructor
      · rintro (h | ⟨before, after, rfl, h⟩)
        · exact ⟨[], c :: text, rfl, by simpa using h⟩
        · exact ⟨c :: before, after, rfl, by simpa using h⟩
      · rintro ⟨before, after, htext, h⟩
        obtain _ | ⟨d, before⟩ := before
        · cases htext
          exact .inl (by simpa using h)
        · rw [List.cons_append, List.cons.injEq] at htext
          exact .inr ⟨before, after, htext.2, by simpa using h⟩

/-! ## The three expressions -/

theorem toList_escapeRegex (part : List Char) :
    (escapeRegex part).toList = Text.escapeWith '\\' isRegexSpecial part := by
  simp [escapeRegex]

theorem regexFound_contains (part : List Char) (text : String) :
    regexFound (escapeRegex part) text = Text.occursIn part text.toList := by
  have hitems : regexItems? (escapeRegex part).toList = some (regexLiterals part ++ []) := by
    rw [toList_escapeRegex, ← List.append_nil (Text.escapeWith _ _ _)]
    exact regexItems?_escapeWith_append part []
  rw [regexFound, hitems, Option.any_some, Bool.eq_iff_iff, Text.occursIn_iff, regexFinds_iff]
  constructor
  · rintro ⟨before, rest, htext, h⟩
    obtain ⟨after, rfl, _⟩ := (regexMatches_literals_append ..).1 h
    exact ⟨before, after, htext⟩
  · rintro ⟨before, after, htext⟩
    exact ⟨before, _, htext, (regexMatches_literals_append ..).2 ⟨after, rfl, rfl⟩⟩

theorem regexFound_startsWith (part : List Char) (text : String) :
    regexFound ("^" ++ escapeRegex part) text = Text.startsWith part text.toList := by
  have hitems : regexItems? ("^" ++ escapeRegex part).toList =
      some (.start :: (regexLiterals part ++ [])) := by
    have hcaret (rest : List Char) :
        regexItems? ('^' :: rest) = (regexItems? rest).map (.start :: ·) := rfl
    rw [String.toList_append, toList_escapeRegex, ← List.append_nil (Text.escapeWith _ _ _)]
    exact (hcaret _).trans (congrArg _ (regexItems?_escapeWith_append part []))
  rw [regexFound, hitems, Option.any_some, Bool.eq_iff_iff, Text.startsWith_iff, regexFinds_iff]
  constructor
  · rintro ⟨before, rest, htext, h⟩
    rw [regexMatches, Bool.and_eq_true, Bool.true_and, List.isEmpty_iff] at h
    obtain ⟨rfl, hrest⟩ := h
    obtain ⟨after, rfl, _⟩ := (regexMatches_literals_append ..).1 hrest
    exact ⟨after, htext⟩
  · rintro ⟨after, htext⟩
    refine ⟨[], _, htext, ?_⟩
    rw [regexMatches, Bool.and_eq_true]
    exact ⟨rfl, (regexMatches_literals_append ..).2 ⟨after, rfl, rfl⟩⟩

theorem regexFound_endsWith (part : List Char) (text : String) :
    regexFound (escapeRegex part ++ "\\z") text = Text.endsWith part text.toList := by
  have hitems : regexItems? (escapeRegex part ++ "\\z").toList =
      some (regexLiterals part ++ [.finish]) := by
    rw [String.toList_append, toList_escapeRegex]
    exact regexItems?_escapeWith_append part ['\\', 'z']
  rw [regexFound, hitems, Option.any_some, Bool.eq_iff_iff, Text.endsWith_iff, regexFinds_iff]
  constructor
  · rintro ⟨before, rest, htext, h⟩
    obtain ⟨after, rfl, hafter⟩ := (regexMatches_literals_append ..).1 h
    rw [regexMatches, Bool.and_eq_true, List.isEmpty_iff] at hafter
    rw [hafter.1, List.append_nil] at htext
    exact ⟨before, htext⟩
  · rintro ⟨before, htext⟩
    refine ⟨before, _, htext, (regexMatches_literals_append ..).2 ⟨[], ?_, rfl⟩⟩
    exact (List.append_nil _).symm

end EntityQuery.DocumentStore
