import ErrorTaxonomy.Document
import ErrorTaxonomy.Proofs.Ancestry

/-!
# Emission

A model may fail to be emitted in two ways.  Collecting the fields of an entry goes up
through its ancestors and may not come to an end; it does if and only if these do.
Serializing the entries may be refused, at a key that is no text or at a flattened value
without members.  No entry has either, so an emission that comes to its end gives a
text, and every compiled model has one.
-/

namespace ErrorTaxonomy

/-! ## Serializing entries -/

theorem Json.ofMap_strings (members : List (String × Json)) :
    Json.ofMap (members.map fun member => (.string member.1, member.2)) =
      .ok (.object members) := by
  have hmembers : (members.map fun member => (Json.string member.1, member.2)).mapM
      Json.memberOf = .ok members := by
    apply mapM_eq_ok_iff.mpr
    rw [List.forall₂_map_left_iff, List.forall₂_same]
    intro member _
    rfl
  rw [Json.ofMap, hmembers]
  rfl

namespace DocumentEntry

/-- The members of the definition, then those that are computed. -/
def members (entry : DocumentEntry) : List (String × Json) :=
  entry.definition.members ++
    [("priority", .integer entry.definition.level.priority),
     ("metadata", .array (entry.metadata.map .string))]

def json (entry : DocumentEntry) : Json :=
  .object entry.members

theorem serialize_eq (entry : DocumentEntry) : entry.serialize = .ok entry.json := by
  have hmap := Json.ofMap_strings entry.members
  rw [members, List.map_append] at hmap
  exact hmap

end DocumentEntry

def documentOf (entries : List DocumentEntry) : Json :=
  .object [("errors", .array (entries.map DocumentEntry.json))]

theorem serializeDocument_eq (entries : List DocumentEntry) :
    serializeDocument entries = .ok (documentOf entries) := by
  have hserialized : entries.mapM DocumentEntry.serialize =
      .ok (entries.map DocumentEntry.json) := by
    apply mapM_eq_ok_iff.mpr
    rw [List.forall₂_map_right_iff, List.forall₂_same]
    intro entry _
    exact entry.serialize_eq
  rw [serializeDocument, hserialized]
  rfl

/-- No list of entries is refused. -/
theorem outcome_writeEntries (layout : Layout) (entries : List DocumentEntry) :
    (writeEntries layout entries).outcome = .ok (layout.text (documentOf entries)) := by
  rw [writeEntries, serializeDocument_eq]
  rfl

/-! ## Collecting entries -/

namespace Model

variable {model : Model} {entries : List DocumentEntry}

theorem entries?_eq_some_iff :
    model.entries? = some entries ↔
      List.Forall₂ (fun definition entry => model.entry? definition = some entry)
        model.definitions entries :=
  mapM_eq_some_iff

theorem definition_eq_of_entry_eq_some {definition : Definition} {entry : DocumentEntry}
    (hentry : model.entry? definition = some entry) : entry.definition = definition := by
  obtain ⟨fields, -, rfl⟩ := Option.map_eq_some_iff.mp hentry
  rfl

theorem map_definition_of_entries? (hentries : model.entries? = some entries) :
    entries.map DocumentEntry.definition = model.definitions := by
  have hsame : model.definitions.map id = entries.map DocumentEntry.definition :=
    map_eq_map_of_forall₂ (fun _ _ hentry => (definition_eq_of_entry_eq_some hentry).symm)
      (entries?_eq_some_iff.mp hentries)
  rw [← hsame, List.map_id]

theorem exists_ancestors?_of_inheritedFields? {name : String} {fields : List Field}
    (hfields : model.inheritedFields? name = some fields) :
    ∃ ancestors, model.ancestors? name = some ancestors := by
  unfold inheritedFields? at hfields
  cases hget : model.get? name with
  | none =>
      -- Nothing is above a name that the model does not have.
      have hparent : model.parent? name = none := by rw [parent?, hget]; rfl
      exact ⟨[], ancestors?_eq_some_iff.mpr (hparent ▸ .done)⟩
  | some definition =>
      rw [hget] at hfields
      obtain ⟨ancestors, hancestors, -⟩ := Option.map_eq_some_iff.mp hfields
      exact ⟨ancestors, hancestors⟩

theorem exists_entries?_iff : (∃ entries, model.entries? = some entries) ↔ model.ChainsEnd := by
  simp only [entries?_eq_some_iff, exists_forall₂_iff]
  rw [chainsEnd_iff]
  constructor
  · intro hentries name
    by_cases hname : name ∈ model.names
    · obtain ⟨definition, hmem, rfl⟩ := List.mem_map.mp hname
      obtain ⟨entry, hentry⟩ := hentries definition hmem
      obtain ⟨fields, hfields, -⟩ := Option.map_eq_some_iff.mp hentry
      exact exists_ancestors?_of_inheritedFields? hfields
    · have hunknown : model.inheritedFields? name = some [] := by
        rw [inheritedFields?, get?_eq_none_iff.mpr hname]
      exact exists_ancestors?_of_inheritedFields? hunknown
  · intro hends definition _
    obtain ⟨ancestors, hancestors⟩ := hends definition.name
    obtain ⟨fields, hfields⟩ := exists_inheritedFields? hancestors
    refine ⟨{ definition, metadata := fields.map Field.shortName }, ?_⟩
    unfold entry?
    rw [hfields]
    rfl

end Model

/-! ## Emitted texts -/

/-- The emission of a model comes to its end and gives this text. -/
def Emits (layout : Layout) (model : Model) (text : String) : Prop :=
  ∃ emission, emitJson layout model = some emission ∧ emission.outcome = .ok text

section Texts

variable {layout : Layout} {model : Model} {text : String}

theorem emitJson_eq_some_iff {emission : Traced EmitError String} :
    emitJson layout model = some emission ↔
      ∃ entries, model.entries? = some entries ∧ writeEntries layout entries = emission :=
  Option.map_eq_some_iff

theorem emits_iff :
    Emits layout model text ↔
      ∃ entries, model.entries? = some entries ∧ layout.text (documentOf entries) = text := by
  simp only [Emits, emitJson_eq_some_iff]
  constructor
  · rintro ⟨_, ⟨entries, hentries, rfl⟩, houtcome⟩
    rw [outcome_writeEntries] at houtcome
    exact ⟨entries, hentries, Except.ok.inj houtcome⟩
  · rintro ⟨entries, hentries, rfl⟩
    exact ⟨_, ⟨entries, hentries, rfl⟩, outcome_writeEntries layout entries⟩

theorem Emits.unique {other : String} (hemits : Emits layout model text)
    (hother : Emits layout model other) : text = other := by
  obtain ⟨emission, hemission, houtcome⟩ := hemits
  obtain ⟨emission', hemission', houtcome'⟩ := hother
  obtain rfl := Option.some.inj (hemission.symm.trans hemission')
  exact Except.ok.inj (houtcome.symm.trans houtcome')

/-- An emission that comes to its end never fails. -/
theorem exists_text_of_emitJson {emission : Traced EmitError String}
    (hemission : emitJson layout model = some emission) :
    ∃ text, emission.outcome = .ok text := by
  obtain ⟨entries, -, rfl⟩ := emitJson_eq_some_iff.mp hemission
  exact ⟨_, outcome_writeEntries layout entries⟩

theorem exists_emits (layout : Layout) (hends : model.ChainsEnd) :
    ∃ text, Emits layout model text := by
  obtain ⟨entries, hentries⟩ := Model.exists_entries?_iff.mpr hends
  exact ⟨_, emits_iff.mpr ⟨entries, hentries, rfl⟩⟩

theorem isSome_emitJson_iff : (emitJson layout model).isSome ↔ model.ChainsEnd := by
  rw [emitJson, Option.isSome_map, Option.isSome_iff_exists, Model.exists_entries?_iff]

/-! ## Rendered models -/

theorem outcome_frameEmission (model : Model) (emission : Traced EmitError String) :
    (frameEmission model emission).outcome = emission.outcome.mapError .emit := by
  simp only [frameEmission, Traced.outcome_bind, Traced.outcome_note, Traced.outcome_mapError,
    Traced.outcome_pure, ok_bind]
  cases emission.outcome <;> rfl

theorem Emits.exists_renderJson (hemits : Emits .pretty model text) :
    ∃ rendered, renderJson model = some rendered ∧ rendered.outcome = .ok text := by
  obtain ⟨emission, hemission, htext⟩ := hemits
  refine ⟨frameEmission model emission, Option.map_eq_some_iff.mpr ⟨_, hemission, rfl⟩, ?_⟩
  rw [outcome_frameEmission, htext]
  rfl

/-- Rendering that comes to its end never fails either. -/
theorem exists_text_of_renderJson {rendered : Traced TaxonomyError String}
    (hrendered : renderJson model = some rendered) : ∃ text, rendered.outcome = .ok text := by
  obtain ⟨emission, hemission, rfl⟩ := Option.map_eq_some_iff.mp hrendered
  obtain ⟨text, htext⟩ := exists_text_of_emitJson hemission
  refine ⟨text, ?_⟩
  rw [outcome_frameEmission, htext]
  rfl

end Texts

end ErrorTaxonomy
