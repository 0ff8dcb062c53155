import ErrorTaxonomy.Proofs.CoherentDefinitions

/-!
# Lookup of fields

The short names of a compiled definition are distinct, and each is what its format says
before the first equals sign.  So a short name finds the one field it belongs to, and a
text that is no short name of a field finds none.
-/

namespace ErrorTaxonomy

/-- A definition whose fields are known by their short names. -/
structure Definition.KnowsFields (definition : Definition) : Prop where
  named : ∀ field ∈ definition.fields, IsShortName field.format field.shortName
  distinct : (definition.fields.map Field.shortName).Nodup
  found : ∀ (position : Nat) (field : Field), definition.fields[position]? = some field →
    definition.field? field.shortName = some field
  absent : ∀ short, (∀ field ∈ definition.fields, field.shortName ≠ short) →
    definition.field? short = none

theorem Definition.knowsFields {definition : Definition}
    (hdistinct : (definition.fields.map Field.shortName).Nodup) :
    definition.KnowsFields where
  named := by
    intro field _
    exact shortName_eq_iff.mp rfl
  distinct := hdistinct
  found := by
    intro position field hfield
    rw [field?, find?_key_eq_some_iff hdistinct]
    exact ⟨List.mem_of_getElem? hfield, rfl⟩
  absent := by
    intro short habsent
    rw [field?, List.find?_eq_none]
    intro field hmem
    simpa using habsent field hmem

theorem knowsFields_of_compile (strategy : OrderingStrategy) (fragments : List Fragment)
    (model : Model) (hok : (compile strategy fragments).outcome = .ok model) :
    ∀ definition ∈ model.definitions, definition.KnowsFields := by
  intro definition hmem
  exact Definition.knowsFields ((coherent_of_compile hok).fields_distinct definition hmem)

/-- An error with a field whose short name is empty, one without an equals sign and one
with two of them. -/
def socketFragments : List Fragment :=
  [{ errors := [{ name := "Refused" }]
     metadata :=
      [{ name := "Refused", level := "err"
         entries := [⟨"=%s", "string"⟩, ⟨"PEER", "string"⟩, ⟨"ARG=a=%d", "int32"⟩] }] }]

def socketModel : Model where
  definitions :=
    [{ Definition.plain "Refused" "" .error with
       fields :=
        [⟨"=%s", .string, .string⟩, ⟨"PEER", .string, .string⟩, ⟨"ARG=a=%d", .int32, .int32⟩] }]

theorem socketModel_knowsFields :
    (compile .multiPass socketFragments).outcome = .ok socketModel ∧
      ∀ definition ∈ socketModel.definitions, definition.KnowsFields := by
  have hok : (compile .multiPass socketFragments).outcome = .ok socketModel := by decide +kernel
  exact ⟨hok, knowsFields_of_compile .multiPass socketFragments socketModel hok⟩

end ErrorTaxonomy
