import Mathlib.Data.List.Infix
import EntityQuery.Proofs.Text.Containment
import EntityQuery.Specification
/-!
# Patterns of LIKE

A pattern with a backslash as escape character: a percent sign stands for any run of
characters, an underscore for exactly one, and a backslash makes the next character
stand for itself. The pattern has to match the whole text.

A pattern is read as a list of items and matched item by item, a run by trying every
tail of the text. An escaped text reads as the items of its own characters, whatever
characters it has.
-/

namespace EntityQuery.Sql

/-- A part of a pattern. -/
inductive LikeItem
  /-- Any run of characters. -/
  | run
  /-- Exactly one character. -/
  | one
  | literal (c : Char)
  deriving DecidableEq, Repr

/-- The items of a pattern. A backslash at its end escapes nothing and makes no pattern. -/
def likeItems? : List Char → Option (List LikeItem)
  | [] => some []
  | ['\\'] => none
  | '\\' :: c :: rest => (likeItems? rest).map (.literal c :: ·)
  | '%' :: rest => (likeItems? rest).map (.run :: ·)
  | '_' :: rest => (likeItems? rest).map (.one :: ·)
  | c :: rest => (likeItems? rest).map (.literal c :: ·)

def likeMatches : List LikeItem → List Char → Bool
  | [], text => text.isEmpty
  | .run :: items, text => text.tails.any (likeMatches items)
  | .one :: _, [] => false
  | .one :: items, _ :: text => likeMatches items text
  | .literal _ :: _, [] => false
  | .literal c :: items, d :: text => c = d && likeMatches items text

def literals (text : List Char) : List LikeItem :=
  text.map .literal

theorem likeItems?_escapeWith_append (text pattern : List Char) :
    likeItems? (Text.escapeWith '\\' isLikeSpecial text ++ pattern) =
      (likeItems? pattern).map (literals text ++ ·) := by
  induction text with
  | nil => simp [literals]
  | cons c text ih =>
      have hitems : (likeItems? (Text.escapeWith '\\' isLikeSpecial text ++ pattern)).map
          (.literal c :: ·) = (likeItems? pattern).map (literals (c :: text) ++ ·) := by
        rw [ih, Option.map_map]
        rfl
      rw [Text.escapeWith_cons, List.append_assoc, ← hitems]
      cases hspecial : isLikeSpecial c with
      | true => rfl
      | false =>
          simp only [isLikeSpecial, Bool.or_eq_false_iff, decide_eq_false_iff_not] at hspecial
          simp only [Bool.false_eq_true, if_false, List.singleton_append]
          rw [likeItems?]
          all_goals simp_all

/-- Characters that stand for themselves match themselves. -/
theorem likeMatches_literals_append (part : List Char) (items : List LikeItem)
    (text : List Char) :
    likeMatches (literals part ++ items) text = true ↔
      ∃ after, text = part ++ after ∧ likeMatches items after = true := by
  induction part generalizing text with
  | nil => simp [literals]
  | cons c part ih =>
      cases text with
      | nil => simp [literals, likeMatches]
      | cons d text =>
          have hstep : likeMatches (literals (c :: part) ++ items) (d :: text) =
              (decide (c = d) && likeMatches (literals part ++ items) text) := rfl
          rw [hstep, Bool.and_eq_true, decide_eq_true_eq, ih]
          constructor
          · rintro ⟨rfl, after, rfl, h⟩
            exact ⟨after, rfl, h⟩
          · rintro ⟨after, htext, h⟩
            rw [List.cons_append, List.cons.injEq] at htext
            exact ⟨htext.1.symm, after, htext.2, h⟩

/-- A run takes any beginning of the text. -/
theorem likeMatches_run (items : List LikeItem) (text : List Char) :
    likeMatches (.run :: items) text = true ↔
      ∃ before after, text = before ++ after ∧ likeMatches items after = true := by
  rw [likeMatches, List.any_eq_true]
  constructor
  · rintro ⟨after, hmem, h⟩
    obtain ⟨before, rfl⟩ := (List.mem_tails _ _).1 hmem
    exact ⟨before, after, rfl, h⟩
  · rintro ⟨before, after, rfl, h⟩
    exact ⟨after, (List.mem_tails _ _).2 ⟨before, rfl⟩, h⟩

theorem likeMatches_nil (text : List Char) : likeMatches [] text = true ↔ text = [] := by
  rw [likeMatches, List.isEmpty_iff]

/-- A run at the end of a pattern matches whatever is left. -/
theorem likeMatches_run_nil (text : List Char) : likeMatches [.run] text = true := by
  rw [likeMatches_run]
  exact ⟨text, [], (List.append_nil text).symm, rfl⟩

/-- Whether a text matches a pattern. Nothing matches what is no pattern. -/
def like (pattern text : String) : Bool :=
  (likeItems? pattern.toList).any fun items => likeMatches items text.toList

theorem likeItems?_percent (pattern : List Char) :
    likeItems? ('%' :: pattern) = (likeItems? pattern).map (.run :: ·) := rfl

theorem toList_escapeLike (part : String) :
    (escapeLike part).toList = Text.escapeWith '\\' isLikeSpecial part.toList := by
  simp [escapeLike]

/-- The pattern of a search for a part anywhere finds the part and nothing else. -/
theorem like_contains (part text : String) :
    like ("%" ++ escapeLike part ++ "%") text = Text.occursIn part.toList text.toList := by
  have hitems : likeItems? ("%" ++ escapeLike part ++ "%").toList =
      some (.run :: (literals part.toList ++ [.run])) := by
    simp only [String.toList_append, toList_escapeLike]
    exact (likeItems?_percent _).trans (congrArg _ (likeItems?_escapeWith_append ..))
  rw [like, hitems, Option.any_some, Bool.eq_iff_iff, Text.occursIn_iff, likeMatches_run]
  constructor
  · rintro ⟨before, rest, htext, h⟩
    obtain ⟨after, rfl, _⟩ := (likeMatches_literals_append ..).1 h
    exact ⟨before, after, htext⟩
  · rintro ⟨before, after, htext⟩
    refine ⟨before, _, htext, (likeMatches_literals_append ..).2 ⟨after, rfl, ?_⟩⟩
    exact likeMatches_run_nil after

/-- The pattern of a search at the start. -/
theorem like_startsWith (part text : String) :
    like (escapeLike part ++ "%") text = Text.startsWith part.toList text.toList := by
  have hitems : likeItems? (escapeLike part ++ "%").toList =
      some (literals part.toList ++ [.run]) := by
    simp only [String.toList_append, toList_escapeLike]
    exact likeItems?_escapeWith_append ..
  rw [like, hitems, Option.any_some, Bool.eq_iff_iff, Text.startsWith_iff,
    likeMatches_literals_append]
  constructor
  · rintro ⟨after, htext, _⟩
    exact ⟨after, htext⟩
  · rintro ⟨after, htext⟩
    exact ⟨after, htext, likeMatches_run_nil after⟩

/-- The pattern of a search at the end. -/
theorem like_endsWith (part text : String) :
    like ("%" ++ escapeLike part) text = Text.endsWith part.toList text.toList := by
  have hitems : likeItems? ("%" ++ escapeLike part).toList =
      some (.run :: (literals part.toList ++ [])) := by
    simp only [String.toList_append, toList_escapeLike]
    rw [← List.append_nil (Text.escapeWith _ _ _)]
    exact (likeItems?_percent _).trans (congrArg _ (likeItems?_escapeWith_append ..))
  rw [like, hitems, Option.any_some, Bool.eq_iff_iff, Text.endsWith_iff, likeMatches_run]
  constructor
  · rintro ⟨before, rest, htext, h⟩
    obtain ⟨after, rfl, hafter⟩ := (likeMatches_literals_append ..).1 h
    rw [(likeMatches_nil after).1 hafter, List.append_nil] at htext
    exact ⟨before, htext⟩
  · rintro ⟨before, htext⟩
    refine ⟨before, _, htext, (likeMatches_literals_append ..).2 ⟨[], ?_, rfl⟩⟩
    exact (List.append_nil _).symm

end EntityQuery.Sql
