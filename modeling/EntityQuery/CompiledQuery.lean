import EntityQuery.Predicate
import EntityQuery.Specification
/-!
# Compiled queries

A list of filters compiled for one entity, in the form of both kinds of store. An
absent or empty list compiles to the query that matches everything.

A builder turns checked conditions into the form of one kind of store. The two
builders here check their conditions again, so conditions of another entity are
refused.
-/

namespace EntityQuery

/-- What makes the conjunction of conditions for one kind of store. -/
structure Builder (β : Type) where
  name : String
  build : Descriptor → List Condition → Except FilterError β

def Builder.relational : Builder (Option Specification) :=
  ⟨"relational", Specification.build⟩

def Builder.predicate : Builder Predicate :=
  ⟨"predicate", Predicate.build⟩

/-- Runs a builder; the condition it refuses is reported alone. -/
def Builder.run (b : Builder β) (d : Descriptor) (conditions : List Condition) :
    Except ValidationError β :=
  match b.build d conditions with
  | .ok form => .ok form
  | .error e => .error (.fields [e])

def Builder.compile (b : Builder β) (d : Descriptor) (filters : Option (List Filter)) :
    Except ValidationError β := do
  let conditions ← Condition.ofFilters d (filters.getD [])
  b.run d conditions

/-- A query in both forms. -/
structure CompiledQuery where
  /-- No specification means no restriction. -/
  specification : Option Specification
  predicate : Predicate

namespace CompiledQuery

def matchAll : CompiledQuery :=
  ⟨none, .always⟩

def isMatchAll (q : CompiledQuery) : Bool :=
  q.specification.isNone && q.predicate.isTautology

def ofFilters (d : Descriptor) (filters : List Filter) :
    Except ValidationError CompiledQuery := do
  let conditions ← Condition.ofFilters d filters
  let specification ← Builder.relational.run d conditions
  let predicate ← Builder.predicate.run d conditions
  return ⟨specification, predicate⟩

def compile (d : Descriptor) : Option (List Filter) → Except ValidationError CompiledQuery
  | none => .ok matchAll
  | some [] => .ok matchAll
  | some (f :: rest) => ofFilters d (f :: rest)

end CompiledQuery

end EntityQuery
