import ErrorTaxonomy.Proofs.LosslessDocument
import ErrorTaxonomy.Proofs.ModelHierarchy

/-!
# The emitted metadata

An entry of the document lists the short names of its own fields and of those of
all its ancestors.  The ancestors of an entry are its parent and the ancestors of
its parent, so what follows its own short names is the whole metadata of the entry
of its parent, which comes earlier.  A reader who notes the metadata of each entry
under its name can therefore give all metadata in one pass, without following any
chain.
-/

namespace ErrorTaxonomy

/-! ## Reading entries -/

namespace Json

/-- The first member of the given key. -/
def member? (key : String) : Json → Option Json
  | object members => (members.find? fun member => member.1 = key).map Prod.snd
  | _ => none

def textMember? (key : String) (value : Json) : Option String :=
  match value.member? key with
  | some (string text) => some text
  | _ => none

def ownShortNames (entry : Json) : List Json :=
  match entry.member? "fields" with
  | some (array fields) => fields.filterMap (member? "short_name")
  | _ => []

/-- What is noted under the name of the parent. -/
def notedMetadata (noted : List (Option String × List Json)) (entry : Json) : List Json :=
  match entry.textMember? "parent" with
  | none => []
  | some parent => (noted.lookup (some parent)).getD []

/-- The metadata of all entries in one pass that looks at the fields of each entry
once and at nothing but its notes for the rest. -/
def metadataInOnePass (noted : List (Option String × List Json)) :
    List Json → List (List Json)
  | [] => []
  | entry :: rest =>
      let metadata := entry.ownShortNames ++ entry.notedMetadata noted
      metadata :: metadataInOnePass ((entry.textMember? "name", metadata) :: noted) rest

/-- The texts are the short names of the fields that the entry lists itself. -/
def ListsShortNames (entry : Json) (own : List Json) : Prop :=
  ∃ fields, entry.member? "fields" = some (array fields) ∧
    fields.map (member? "short_name") = own.map some

/-- The metadata that an entry has to carry after the given entries. -/
inductive Carries (before : List Json) (entry : Json) : List Json → Prop
  | root {own : List Json} :
      entry.member? "parent" = none → entry.ListsShortNames own → Carries before entry own
  | child {parent : String} {other : Json} {own inherited : List Json} :
      entry.member? "parent" = some (string parent) → entry.ListsShortNames own →
        other ∈ before → other.member? "name" = some (string parent) →
        other.member? "metadata" = some (array inherited) →
        Carries before entry (own ++ inherited)

/-- Names are distinct, and every entry carries its own short names and then the
metadata of the earlier entry of its parent. -/
structure CarryMetadata (entries : List Json) : Prop where
  names_distinct : ∃ names : List String, names.Nodup ∧
    entries.map (member? "name") = names.map fun name => some (string name)
  carries : ∀ before entry after, entries = before ++ entry :: after →
    ∃ metadata, entry.member? "metadata" = some (array metadata) ∧ Carries before entry metadata
  one_pass : entries.map (member? "metadata") =
    (metadataInOnePass [] entries).map fun metadata => some (array metadata)

end Json

theorem lookup_map_some {α : Type} (f : String → α) {names : List String} {name : String}
    (hname : name ∈ names) :
    (names.map fun other => (some other, f other)).lookup (some name) = some (f name) := by
  induction names with
  | nil => simp at hname
  | cons first rest ih =>
      by_cases heq : name = first
      · simp [heq]
      · have hrest : name ∈ rest := List.mem_of_ne_of_mem heq hname
        have hne : (some name == some first) = false := by simp [heq]
        rw [List.map_cons, List.lookup_cons, hne]
        exact ih hrest

theorem Field.member?_shortName (field : Field) :
    field.json.member? "short_name" = some (.string field.shortName) := by
  simp [Field.json, Json.member?]

def Definition.ownShortNames (definition : Definition) : List Json :=
  definition.fields.map fun field => .string field.shortName

/-! ## Emitted entries -/

namespace DocumentEntry

variable (entry : DocumentEntry)

theorem member?_name :
    entry.json.member? "name" = some (.string entry.definition.name) := by
  simp [json, members, Json.member?, Definition.members]

theorem member?_parent :
    entry.json.member? "parent" = entry.definition.parent.map .string := by
  cases hinterface : entry.definition.interface <;> cases hparent : entry.definition.parent <;>
    simp [json, members, Json.member?, Definition.members, optionalMember, hinterface, hparent]

theorem member?_fields :
    entry.json.member? "fields" =
      some (.array (entry.definition.fields.map Field.json)) := by
  cases hinterface : entry.definition.interface <;> cases hparent : entry.definition.parent <;>
    simp [json, members, Json.member?, Definition.members, optionalMember, hinterface, hparent]

theorem member?_metadata :
    entry.json.member? "metadata" = some (.array (entry.metadata.map .string)) := by
  cases hinterface : entry.definition.interface <;> cases hparent : entry.definition.parent <;>
    simp [json, members, Json.member?, Definition.members, optionalMember, hinterface, hparent]

theorem listsShortNames_json : entry.json.ListsShortNames entry.definition.ownShortNames := by
  refine ⟨_, entry.member?_fields, ?_⟩
  simp [Definition.ownShortNames, Field.member?_shortName]

theorem ownShortNames_json : entry.json.ownShortNames = entry.definition.ownShortNames := by
  rw [Json.ownShortNames, member?_fields]
  simp [Definition.ownShortNames, List.filterMap_map, Field.member?_shortName]

theorem textMember?_name : entry.json.textMember? "name" = some entry.definition.name := by
  rw [Json.textMember?, member?_name]

theorem textMember?_parent : entry.json.textMember? "parent" = entry.definition.parent := by
  rw [Json.textMember?, member?_parent]
  cases entry.definition.parent <;> rfl

end DocumentEntry

/-! ## One pass over a model -/

namespace Model

variable {model : Model} {definition : Definition}

/-- The entry of a definition where each name carries the given fields. -/
def entryOf (carried : String → List Field) (definition : Definition) : Json :=
  DocumentEntry.json
    { definition, metadata := (carried definition.name).map Field.shortName }

def metadataOf (carried : String → List Field) (name : String) : List Json :=
  (carried name).map fun field => .string field.shortName

theorem member?_metadata_entryOf (carried : String → List Field) (definition : Definition) :
    (entryOf carried definition).member? "metadata" =
      some (.array (metadataOf carried definition.name)) := by
  rw [entryOf, DocumentEntry.member?_metadata, List.map_map]
  rfl

section Carried

variable {carried : String → List Field}
  (hcarried : ∀ name, model.inheritedFields? name = some (carried name))

include hcarried

theorem exists_entries?_of_carried :
    ∃ entries, model.entries? = some entries ∧
      documentOf entries =
        .object [("errors", .array (model.definitions.map (entryOf carried)))] := by
  refine ⟨model.definitions.map fun definition =>
    { definition, metadata := (carried definition.name).map Field.shortName }, ?_, ?_⟩
  · rw [entries?_eq_some_iff, List.forall₂_map_right_iff, List.forall₂_same]
    intro definition _
    unfold entry?
    rw [hcarried]
    rfl
  · rw [documentOf, List.map_map]
    rfl

variable (hnames : model.names.Nodup)

include hnames

theorem carried_of_climbs {chain : List Definition} (hmem : definition ∈ model.definitions)
    (hclimbs : model.Climbs (model.parentOf? definition) chain) :
    carried definition.name = definition.fields ++ chain.flatMap Definition.fields := by
  rw [← parent?_name hnames hmem, ← ancestors?_eq_some_iff] at hclimbs
  have hfields := hcarried definition.name
  rw [inheritedFields?, get?_name hnames hmem, hclimbs] at hfields
  exact (Option.some.inj hfields).symm

theorem metadataOf_of_root (hmem : definition ∈ model.definitions)
    (hroot : definition.parent = none) :
    metadataOf carried definition.name = definition.ownShortNames := by
  have hclimbs : model.Climbs (model.parentOf? definition) [] := by
    rw [parentOf?, hroot]
    exact .done
  have hfields := carried_of_climbs hcarried hnames hmem hclimbs
  rw [List.flatMap_nil, List.append_nil] at hfields
  rw [metadataOf, hfields, Definition.ownShortNames]

/-- The metadata of a child goes on with that of its parent. -/
theorem metadataOf_of_parent {parent : Definition} (hmem : definition ∈ model.definitions)
    (hparent : model.parentOf? definition = some parent) :
    metadataOf carried definition.name =
      definition.ownShortNames ++ metadataOf carried parent.name := by
  have hparentMem := mem_of_parentOf? hparent
  rcases exists_ancestors?_of_inheritedFields? (hcarried parent.name) with ⟨above, habove⟩
  rw [ancestors?_eq_some_iff, parent?_name hnames hparentMem] at habove
  have hclimbs : model.Climbs (model.parentOf? definition) (parent :: above) := by
    rw [hparent]
    exact .step habove
  have hfields := carried_of_climbs hcarried hnames hmem hclimbs
  rw [List.flatMap_cons, ← carried_of_climbs hcarried hnames hparentMem habove] at hfields
  rw [metadataOf, hfields, List.map_append, Definition.ownShortNames, metadataOf]

variable (hfirst : ParentsFirst (model.definitions.map Definition.link))

include hfirst

theorem carries_entryOf {before after : List Definition}
    (hsplit : model.definitions = before ++ definition :: after) :
    Json.Carries (before.map (entryOf carried)) (entryOf carried definition)
      (metadataOf carried definition.name) := by
  have hmem : definition ∈ model.definitions := by
    rw [hsplit]
    simp
  cases hparent : definition.parent with
  | none =>
      rw [metadataOf_of_root hcarried hnames hmem hparent]
      apply Json.Carries.root
      · rw [entryOf, DocumentEntry.member?_parent, hparent]
        rfl
      · exact DocumentEntry.listsShortNames_json _
  | some name =>
      rcases exists_earlier_parent hnames hfirst hsplit hparent with
        ⟨earlier, parent, between, hbefore, hstep⟩
      have hname := ((parentOf?_eq_some_iff hnames).mp hstep).2
      rw [metadataOf_of_parent hcarried hnames hmem hstep]
      apply Json.Carries.child
      · rw [entryOf, DocumentEntry.member?_parent, hname]
        rfl
      · exact DocumentEntry.listsShortNames_json _
      · rw [hbefore]
        exact List.mem_map_of_mem (List.mem_append_right _ List.mem_cons_self)
      · exact DocumentEntry.member?_name _
      · exact member?_metadata_entryOf carried parent

/-- The notes on the entries that have been read give the metadata of the next. -/
theorem notedMetadata_entryOf {before after : List Definition}
    (hsplit : model.definitions = before ++ definition :: after) :
    definition.ownShortNames ++ (entryOf carried definition).notedMetadata
        ((before.map Definition.name).reverse.map fun name =>
          (some name, metadataOf carried name)) =
      metadataOf carried definition.name := by
  have hmem : definition ∈ model.definitions := by
    rw [hsplit]
    simp
  rw [Json.notedMetadata, entryOf, DocumentEntry.textMember?_parent]
  cases hparent : definition.parent with
  | none => simp [metadataOf_of_root hcarried hnames hmem hparent]
  | some name =>
      rcases exists_earlier_parent hnames hfirst hsplit hparent with
        ⟨earlier, parent, between, hbefore, hstep⟩
      have hname := ((parentOf?_eq_some_iff hnames).mp hstep).2
      rw [hparent, Option.some.injEq] at hname
      subst hname
      have hread : parent.name ∈ (before.map Definition.name).reverse := by
        simp [hbefore]
      rw [metadataOf_of_parent hcarried hnames hmem hstep]
      simp only [lookup_map_some (metadataOf carried) hread, Option.getD_some]

theorem metadataInOnePass_entries {before after : List Definition}
    (hsplit : model.definitions = before ++ after) :
    Json.metadataInOnePass
        ((before.map Definition.name).reverse.map fun name =>
          (some name, metadataOf carried name))
        (after.map (entryOf carried)) =
      after.map fun definition => metadataOf carried definition.name := by
  induction after generalizing before with
  | nil => rfl
  | cons definition after ih =>
      have hnext := @ih (before ++ [definition]) (by simpa using hsplit)
      have hnoted := notedMetadata_entryOf hcarried hnames hfirst hsplit
      have hown : (entryOf carried definition).ownShortNames = definition.ownShortNames :=
        DocumentEntry.ownShortNames_json _
      have hname : (entryOf carried definition).textMember? "name" = some definition.name :=
        DocumentEntry.textMember?_name _
      rw [List.map_cons, List.map_cons, Json.metadataInOnePass, hown, hname, hnoted]
      simpa using hnext

theorem carryMetadata_entries :
    Json.CarryMetadata (model.definitions.map (entryOf carried)) where
  names_distinct := by
    refine ⟨model.names, hnames, ?_⟩
    simp [names, entryOf, DocumentEntry.member?_name]
  carries := by
    intro before entry after hsplit
    rcases List.map_eq_append_iff.mp hsplit with ⟨earlier, rest, hdefinitions, rfl, hrest⟩
    rcases List.map_eq_cons_iff.mp hrest with ⟨definition, later, rfl, rfl, -⟩
    exact ⟨_, member?_metadata_entryOf carried definition,
      carries_entryOf hcarried hnames hfirst hdefinitions⟩
  one_pass := by
    have hpass := metadataInOnePass_entries hcarried hnames hfirst
      (List.nil_append model.definitions).symm
    simp only [List.map_nil, List.reverse_nil] at hpass
    rw [hpass]
    simp [member?_metadata_entryOf]

end Carried

end Model

/-- A compiled model is emitted, and its text is that of entries which carry metadata as
one pass over them gives it. -/
theorem carryMetadata_of_compile (strategy : OrderingStrategy) (fragments : List Fragment)
    (model : Model) (hok : (compile strategy fragments).outcome = .ok model) (layout : Layout) :
    ∃ text entries, Emits layout model text ∧
      (∀ value, Json.Denotes text.toList value ↔
        value = .object [("errors", .array entries)]) ∧
      entries.length = model.size ∧ Json.CarryMetadata entries := by
  have hfields : ∀ name, ∃ fields, model.inheritedFields? name = some fields := by
    intro name
    rcases Model.chainsEnd_iff.mp (chainsEnd_of_compile hok) name with ⟨ancestors, hancestors⟩
    exact Model.exists_inheritedFields? hancestors
  rcases Classical.axiomOfChoice hfields with ⟨carried, hcarried⟩
  rcases Model.exists_entries?_of_carried hcarried with ⟨entries, hentries, hdocument⟩
  refine ⟨layout.text (documentOf entries), model.definitions.map (Model.entryOf carried),
    emits_iff.mpr ⟨entries, hentries, rfl⟩, ?_, List.length_map _, ?_⟩
  · rw [← hdocument]
    exact layout.denotes_text_iff entries
  · exact Model.carryMetadata_entries hcarried (coherent_of_compile hok).names_distinct
      (parentsFirst_of_compile hok)

/-- Three generations, the youngest met first, that all have a field `ERRNO`. -/
def errnoFragments : List Fragment :=
  [{ errors :=
      [{ name := "Quota", inherits := ["disk.Full"] }, { name := "Full", inherits := ["Io"] },
        { name := "Io" }]
     metadata :=
      [{ name := "Quota", level := "notice"
         entries := [⟨"LIMIT=%u", "uint64"⟩, ⟨"ERRNO=%s", "string"⟩] },
        { name := "Full", level := "err", entries := [⟨"ERRNO=%d", "int32"⟩] },
        { name := "Io", level := "err", entries := [⟨"ERRNO", "int32"⟩] }] }]

def errnoModel : Model where
  definitions :=
    [{ Definition.plain "Io" "" .error with fields := [⟨"ERRNO", .int32, .int32⟩] },
      { Definition.plain "Full" "" .error with
        parent := some "Io"
        fields := [⟨"ERRNO=%d", .int32, .int32⟩] },
      { Definition.plain "Quota" "" .notice with
        parent := some "Full"
        fields := [⟨"LIMIT=%u", .uint64, .uint64⟩, ⟨"ERRNO=%s", .string, .string⟩] }]

theorem errnoModel_carryMetadata :
    (compile .queue errnoFragments).outcome = .ok errnoModel ∧
      ∃ text entries, Emits .compact errnoModel text ∧
        (∀ value, Json.Denotes text.toList value ↔
          value = .object [("errors", .array entries)]) ∧
        entries.length = errnoModel.size ∧ Json.CarryMetadata entries := by
  have hok : (compile .queue errnoFragments).outcome = .ok errnoModel := by
    rw [outcome_compile, ← outcome_compile .multiPass]
    decide +kernel
  exact ⟨hok, carryMetadata_of_compile .queue errnoFragments errnoModel hok .compact⟩

end ErrorTaxonomy
