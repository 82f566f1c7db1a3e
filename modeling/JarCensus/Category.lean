/-!
# Categories of classes

A class is a persistence model, an attribute converter, or neither, as the
annotations on it say. Model annotations decide before converter annotations do.
-/

namespace JarCensus

/-- What a class is for persistence. -/
inductive Category where
  /-- An entity, a mapped superclass or an embeddable. -/
  | model
  /-- An attribute converter. -/
  | converter
  /-- Neither. -/
  | other
  deriving DecidableEq, Repr

/-- The word for a category in reports. -/
def Category.label : Category → String
  | .model => "model"
  | .converter => "converter"
  | .other => "other"

/-- The name of a category in diagnostics. -/
def Category.title : Category → String
  | .model => "Model"
  | .converter => "Converter"
  | .other => "Other"

/-- The annotation names that mark models and converters. -/
structure Criteria where
  /-- The annotations of models. -/
  model : List String
  /-- The annotations of converters. -/
  converter : List String
  deriving DecidableEq, Repr

namespace Criteria

/-- The model annotations of the two generations of the persistence interface. -/
def standardModel : List String :=
  ["javax.persistence.Entity", "javax.persistence.MappedSuperclass",
    "javax.persistence.Embeddable", "jakarta.persistence.Entity",
    "jakarta.persistence.MappedSuperclass", "jakarta.persistence.Embeddable"]

/-- The converter annotations of the two generations of the persistence interface. -/
def standardConverter : List String :=
  ["javax.persistence.Converter", "jakarta.persistence.Converter"]

/-- The criteria of the standard annotations. -/
def standard : Criteria := ⟨standardModel, standardConverter⟩

/-- The category of a class with the given annotations. -/
def categorize (criteria : Criteria) (annotations : List String) : Category :=
  if annotations.any (criteria.model.contains ·) then .model
  else if annotations.any (criteria.converter.contains ·) then .converter
  else .other

/-- A class is a model exactly when it carries a model annotation. -/
theorem categorize_eq_model_iff (criteria : Criteria) (annotations : List String) :
    criteria.categorize annotations = .model ↔
      ∃ name ∈ annotations, name ∈ criteria.model := by
  unfold categorize
  split
  · rename_i h
    simpa using h
  · rename_i h
    split <;> simpa using h

end Criteria

end JarCensus
