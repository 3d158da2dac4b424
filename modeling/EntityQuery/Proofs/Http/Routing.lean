import EntityQuery.Http.Service
import Mathlib.Data.List.Nodup
/-!
# Routes of literal patterns

A pattern without braces is a literal one: it has one path, which is the text of the pattern. Among
routes of literal patterns none is more specific than another, so a path has the first route of its
pattern. If the patterns are different, the order of the routes is no matter.
-/

namespace EntityQuery.Http

/-- The text has no braces. -/
def IsLiteral (text : List Char) : Prop :=
  ∀ c ∈ text, c ≠ '\x7b' ∧ c ≠ '\x7d'

instance (text : List Char) : Decidable (IsLiteral text) :=
  decidable_of_iff (text.all (fun c => c ≠ '\x7b' ∧ c ≠ '\x7d') = true)
    (by simp [IsLiteral, List.all_eq_true])

theorem Part.read_of_isLiteral {text : List Char} (h : IsLiteral text) :
    read false text = text.map char := by
  induction text with
  | nil => rfl
  | cons c rest ih =>
      obtain ⟨⟨hopen, hclose⟩, hrest⟩ := List.forall_mem_cons.1 h
      rw [List.map_cons, ← ih hrest]
      cases rest <;> simp [read, hopen, hclose]

/-- A literal pattern fits its own text alone. -/
theorem fits_patternOf_iff {pattern : String} (h : IsLiteral pattern.toList) {path : List Char} :
    Part.fits (patternOf pattern) path = true ↔ pattern.toList = path := by
  rw [patternOf, Part.read_of_isLiteral h, fits_map_char, decide_eq_true_eq, eq_comm]

theorem Part.precedes_self (parts : List Part) : precedes parts parts = false := by
  induction parts with
  | nil => rfl
  | cons part rest ih => simp [precedes, ih]

namespace Service

variable {m : Type → Type} {routes : List (Route m)} {route : Route m} {path : List Char}

/-- Of routes with one pattern the first one counts. -/
theorem routeOf?_eq_find? (h : ∀ route ∈ routes, IsLiteral route.pattern.toList) :
    routeOf? path routes = routes.find? fun route => route.pattern.toList = path := by
  induction routes with
  | nil => rfl
  | cons first rest ih =>
      obtain ⟨hfirst, hrest⟩ := List.forall_mem_cons.1 h
      simp only [routeOf?, ih hrest, List.find?_cons]
      by_cases hpath : first.pattern.toList = path
      · have hfits := (fits_patternOf_iff hfirst).2 hpath
        cases hother : rest.find? fun route => route.pattern.toList = path with
        | none => simp [hfits, hpath]
        | some other =>
            have hsame : other.pattern = first.pattern := by
              have hpath' := List.find?_some hother
              rw [String.ext_iff, hpath]
              simpa using hpath'
            simp [hfits, hpath, hsame, Part.precedes_self]
      · have hfits : Part.fits (patternOf first.pattern) path = false := by
          rw [← Bool.not_eq_true, fits_patternOf_iff hfirst]
          exact hpath
        cases rest.find? fun route => route.pattern.toList = path <;> simp [hfits, hpath]

theorem routeOf?_eq_some_iff (h : ∀ route ∈ routes, IsLiteral route.pattern.toList)
    (hnodup : (routes.map Route.pattern).Nodup) :
    routeOf? path routes = some route ↔ route ∈ routes ∧ route.pattern.toList = path := by
  rw [routeOf?_eq_find? h]
  constructor
  · intro hfound
    have hpath := List.find?_some hfound
    exact ⟨List.mem_of_find?_eq_some hfound, by simpa using hpath⟩
  · rintro ⟨hmem, hpath⟩
    cases hfound : routes.find? fun route => route.pattern.toList = path with
    | none => exact absurd (decide_eq_true hpath) (List.find?_eq_none.1 hfound route hmem)
    | some other =>
        have hother := List.find?_some hfound
        have hsame : other.pattern = route.pattern := by
          rw [String.ext_iff, hpath]
          simpa using hother
        rw [List.inj_on_of_nodup_map hnodup (List.mem_of_find?_eq_some hfound) hmem hsame]

end Service

end EntityQuery.Http
