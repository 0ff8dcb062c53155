import ErrorTaxonomy.Compilation
import ErrorTaxonomy.Proofs.FirstViolation

/-!
# Typing of fields

A pending error becomes a definition if the type token of each of its entries is
one of the eight that exist, and its fields are then those of the entries in the
same order.  Otherwise the first entry with another token is reported.
-/

namespace ErrorTaxonomy

namespace MetadataEntry

def Typed (entry : MetadataEntry) : Prop :=
  ∃ type : FieldType, type.token = entry.typeToken

/-- The field of an entry whose type is known. -/
structure Becomes (entry : MetadataEntry) (field : Field) : Prop where
  format_eq : field.format = entry.format
  abstract_eq : field.abstractType.token = entry.typeToken
  resolved_eq : field.resolvedType = field.abstractType.native

variable {owner : String} {entry : MetadataEntry}

theorem typed_iff_becomes : entry.Typed ↔ ∃ field, entry.Becomes field := by
  constructor
  · rintro ⟨type, htype⟩
    exact ⟨{ format := entry.format, abstractType := type, resolvedType := type.native },
      rfl, htype, rfl⟩
  · rintro ⟨field, hfield⟩
    exact ⟨field.abstractType, hfield.abstract_eq⟩

theorem field_eq_ok_iff {field : Field} :
    entry.field owner = .ok field ↔ entry.Becomes field := by
  unfold MetadataEntry.field
  constructor
  · intro hfield
    cases htype : FieldType.ofToken? entry.typeToken with
    | none => simp [htype] at hfield
    | some type =>
        simp only [htype, Except.ok.injEq] at hfield
        subst hfield
        exact ⟨rfl, FieldType.ofToken?_eq_some_iff.mp htype, rfl⟩
  · rintro ⟨hformat, htype, hresolved⟩
    rw [FieldType.ofToken?_eq_some_iff.mpr htype]
    cases field
    simp_all

theorem Becomes.unique {field other : Field} (hfield : entry.Becomes field)
    (hother : entry.Becomes other) : field = other := by
  have hfield : entry.field "" = .ok field := field_eq_ok_iff.mpr hfield
  have hother : entry.field "" = .ok other := field_eq_ok_iff.mpr hother
  exact Except.ok.inj (hfield.symm.trans hother)

theorem map_shortName_of_becomes {entries : List MetadataEntry} {fields : List Field}
    (hfields : List.Forall₂ Becomes entries fields) :
    fields.map Field.shortName = entries.map shortName :=
  map_eq_map_of_forall₂
    (fun _ _ hfield => congrArg ErrorTaxonomy.shortName hfield.format_eq) hfields.flip

theorem field_eq_error_iff {error : CompileError} :
    entry.field owner = .error error ↔
      ¬ entry.Typed ∧ error = .unknownType owner entry.shortName entry.typeToken := by
  cases hfield : entry.field owner with
  | ok field =>
      have htyped : entry.Typed := typed_iff_becomes.mpr ⟨field, field_eq_ok_iff.mp hfield⟩
      simp [htyped]
  | error other =>
      have huntyped : ¬ entry.Typed := by
        rw [typed_iff_becomes]
        rintro ⟨field, hbecomes⟩
        rw [field_eq_ok_iff.mpr hbecomes] at hfield
        contradiction
      have hother : other = .unknownType owner entry.shortName entry.typeToken := by
        unfold MetadataEntry.field at hfield
        split at hfield <;> cases hfield
        rfl
      rw [hother, Except.error.injEq, eq_comm]
      exact (and_iff_right huntyped).symm

end MetadataEntry

namespace PendingError

def Typed (pending : PendingError) : Prop :=
  ∀ entry ∈ pending.entries, entry.Typed

structure Becomes (pending : PendingError) (definition : Definition) : Prop where
  name_eq : definition.name = pending.name
  interface_eq : definition.interface = pending.interface
  message_eq : definition.message = pending.message
  level_eq : definition.level = pending.level
  parent_eq : definition.parent = pending.parent
  fields : List.Forall₂ MetadataEntry.Becomes pending.entries definition.fields

/-- The first entry without a known type decides the error. -/
inductive Mistyped (pending : PendingError) : CompileError → Prop
  | unknownType {before after : List MetadataEntry} {entry : MetadataEntry} :
      pending.entries = before ++ entry :: after → (∀ other ∈ before, other.Typed) →
        ¬ entry.Typed →
        Mistyped pending (.unknownType pending.name entry.shortName entry.typeToken)

variable {pending : PendingError}

theorem typed_iff_becomes : pending.Typed ↔ ∃ definition, pending.Becomes definition := by
  simp only [Typed, MetadataEntry.typed_iff_becomes, ← exists_forall₂_iff]
  constructor
  · rintro ⟨fields, hfields⟩
    exact ⟨{
      name := pending.name
      interface := pending.interface
      message := pending.message
      level := pending.level
      parent := pending.parent
      fields
    }, rfl, rfl, rfl, rfl, rfl, hfields⟩
  · rintro ⟨definition, hdefinition⟩
    exact ⟨definition.fields, hdefinition.fields⟩

theorem definition_eq_ok_iff {definition : Definition} :
    pending.definition = .ok definition ↔ pending.Becomes definition := by
  unfold PendingError.definition
  rw [bind_eq_ok_iff]
  simp only [mapM_eq_ok_iff, MetadataEntry.field_eq_ok_iff]
  constructor
  · rintro ⟨fields, hfields, heq⟩
    cases heq
    exact ⟨rfl, rfl, rfl, rfl, rfl, hfields⟩
  · rintro ⟨hname, hinterface, hmessage, hlevel, hparent, hfields⟩
    refine ⟨definition.fields, hfields, ?_⟩
    cases definition
    simp_all [pure, Except.pure]

theorem Becomes.unique {definition other : Definition}
    (hdefinition : pending.Becomes definition) (hother : pending.Becomes other) :
    definition = other := by
  rw [← definition_eq_ok_iff] at hdefinition hother
  exact Except.ok.inj (hdefinition.symm.trans hother)

theorem definition_eq_error_iff {error : CompileError} :
    pending.definition = .error error ↔ pending.Mistyped error := by
  have hmapM : pending.definition = .error error ↔
      pending.entries.mapM (MetadataEntry.field pending.name) = .error error := by
    unfold PendingError.definition
    rw [bind_eq_error_iff]
    simp [pure, Except.pure]
  rw [hmapM, mapM_eq_error_iff]
  simp only [MetadataEntry.field_eq_ok_iff, MetadataEntry.field_eq_error_iff,
    ← MetadataEntry.typed_iff_becomes]
  constructor
  · rintro ⟨before, entry, after, hentries, hbefore, huntyped, rfl⟩
    exact .unknownType hentries hbefore huntyped
  · rintro ⟨hentries, hbefore, huntyped⟩
    exact ⟨_, _, _, hentries, hbefore, huntyped, rfl⟩

end PendingError

end ErrorTaxonomy
