import ErrorTaxonomy.Loader
import ErrorTaxonomy.Proofs.FlowNodes

/-!
# Definition texts in compact JSON

Every list of declarations in ASCII can be written as a definition text: as compact JSON it is
flow style of YAML, and the nodes of it are read back as the declarations.  Nothing in a string
is taken for structure, whatever it looks like, and members may be reordered or left out.
-/

namespace ErrorTaxonomy

/-- An object that presents a record and has no other members. -/
structure WritesObject (parts : List Part) (members : List (String × Json)) : Prop where
  presents : ObjectPresents parts members
  known : ∀ member ∈ members, ∃ part ∈ parts, part.key = member.1

def IsWrittenOf (parts : List Part) (value : Json) : Prop :=
  ∃ members, value = .object members ∧ WritesObject parts members

/-- The parts of a metadata record whose entries have no other members either. -/
def MetadataRecord.plainParts (record : MetadataRecord) : List Part :=
  record.partsWith fun entry => IsWrittenOf entry.parts

/-- All texts that are declared. -/
def ErrorDeclaration.texts (declaration : ErrorDeclaration) : List String :=
  declaration.name :: declaration.description :: declaration.inherits

def MetadataEntry.texts (entry : MetadataEntry) : List String :=
  [entry.format, entry.typeToken]

def MetadataRecord.texts (record : MetadataRecord) : List String :=
  record.name :: record.level :: record.entries.flatMap MetadataEntry.texts

def AreAscii (texts : List String) : Prop :=
  ∀ content ∈ texts, Yaml.IsAscii content.toList

/-! ## Written values are textual -/

theorem isShortKey_of_mem : ∀ key ∈
    ["name", "description", "inherits", "level", "meta", "str", "type"],
    Yaml.IsShortKey key := by
  simp [Yaml.IsShortKey, Yaml.IsAscii, Yaml.PossibleKey.reach]

section Textual

variable {parts : List Part} {value : Json}

theorem isTextual_of_isWrittenOf (hwritten : IsWrittenOf parts value)
    (hkeys : ∀ part ∈ parts, Yaml.IsShortKey part.key)
    (hsaid : ∀ part ∈ parts, ∀ value, part.IsSaidBy value → Yaml.IsTextual value) :
    Yaml.IsTextual value := by
  rcases hwritten with ⟨members, rfl, hwrites⟩
  apply (Yaml.membersAreTextual_iff members).mpr
  rintro ⟨key, value⟩ hmem
  rcases hwrites.known _ hmem with ⟨part, hpart, rfl⟩
  have hvalue := mem_valuesAt hmem
  refine ⟨hkeys part hpart, ?_⟩
  cases hwrites.presents part hpart with
  | said hvalues hsays =>
      rw [hvalues, List.mem_singleton] at hvalue
      rw [hvalue]
      exact hsaid part hpart _ hsays
  | absent hnone _ =>
      rw [hnone] at hvalue
      exact absurd hvalue List.not_mem_nil

theorem isTextual_of_errorDeclaration {declaration : ErrorDeclaration}
    (hascii : AreAscii declaration.texts) (hwritten : IsWrittenOf declaration.parts value) :
    Yaml.IsTextual value := by
  simp only [AreAscii, ErrorDeclaration.texts, List.forall_mem_cons] at hascii
  rcases hascii with ⟨hname, hdescription, hinherits⟩
  apply isTextual_of_isWrittenOf hwritten
  · simp only [ErrorDeclaration.parts, List.forall_mem_cons]
    exact ⟨isShortKey_of_mem _ (by simp), isShortKey_of_mem _ (by simp),
      isShortKey_of_mem _ (by simp), List.forall_mem_nil _⟩
  · simp only [ErrorDeclaration.parts, List.forall_mem_cons, forall_eq]
    refine ⟨hname, hdescription, ?_, List.forall_mem_nil _⟩
    apply (Yaml.itemsAreTextual_iff _).mpr
    rw [List.forall_mem_map]
    exact hinherits

theorem isTextual_of_metadataEntry {entry : MetadataEntry}
    (hascii : AreAscii entry.texts) (hwritten : IsWrittenOf entry.parts value) :
    Yaml.IsTextual value := by
  simp only [AreAscii, MetadataEntry.texts, List.forall_mem_cons] at hascii
  rcases hascii with ⟨hformat, htype, _⟩
  apply isTextual_of_isWrittenOf hwritten
  · simp only [MetadataEntry.parts, List.forall_mem_cons]
    exact ⟨isShortKey_of_mem _ (by simp), isShortKey_of_mem _ (by simp), List.forall_mem_nil _⟩
  · simp only [MetadataEntry.parts, List.forall_mem_cons, forall_eq]
    exact ⟨hformat, htype, List.forall_mem_nil _⟩

theorem isTextual_of_metadataRecord {record : MetadataRecord}
    (hascii : AreAscii record.texts) (hwritten : IsWrittenOf record.plainParts value) :
    Yaml.IsTextual value := by
  simp only [AreAscii, MetadataRecord.texts, List.forall_mem_cons] at hascii
  rcases hascii with ⟨hname, hlevel, hentries⟩
  apply isTextual_of_isWrittenOf hwritten
  · simp only [MetadataRecord.plainParts, MetadataRecord.partsWith, List.forall_mem_cons]
    exact ⟨isShortKey_of_mem _ (by simp), isShortKey_of_mem _ (by simp),
      isShortKey_of_mem _ (by simp), List.forall_mem_nil _⟩
  · simp only [MetadataRecord.plainParts, MetadataRecord.partsWith, List.forall_mem_cons,
      forall_eq]
    refine ⟨hname, hlevel, ?_, List.forall_mem_nil _⟩
    rintro value ⟨values, rfl, hvalues⟩
    apply (Yaml.itemsAreTextual_iff values).mpr
    intro item hitem
    rcases exists_mem_left_of_forall₂ hvalues hitem with ⟨entry, hentry, hwrittenEntry⟩
    apply isTextual_of_metadataEntry _ hwrittenEntry
    intro content hcontent
    exact hentries content (List.mem_flatMap.mpr ⟨entry, hentry, hcontent⟩)

end Textual

/-! ## Definition texts -/

namespace Yaml

/-- A record is read of the node of an object that presents it. -/
theorem readRecord_of_isWrittenOf {Draft α : Type} {form : RecordForm Reader Draft α}
    {draft : (String → Bool) → Draft} {parts : List Part} {record : α} {value : Json}
    (hcollects : form.Collects ReadsNodes draft parts record)
    (hwritten : IsWrittenOf parts value) : ReadsNodes (readRecord form) value record := by
  rcases hwritten with ⟨members, rfl, hwrites⟩
  rcases hcollects.enters_of_objectPresents hwrites.presents with ⟨last, henters, hfinish⟩
  exact nodeReading.record henters hfinish

end Yaml

theorem isBlankText_of_flows {values : List Json} {text : String} {rest : List Char}
    (hflows : Yaml.Flows (.value (.array values)) text.toList rest) : isBlankText text = false := by
  rw [isBlankText]
  generalize text.toList = characters at hflows
  cases hflows <;> rfl

theorem parseDefinitions_of_readsNodes {α : Type} {reader : Yaml.Reader α} {items : List α}
    {values : List Json} {text : String}
    (hreads : List.Forall₂ (Yaml.ReadsNodes reader) values items)
    (htextual : ∀ value ∈ values, Yaml.IsTextual value)
    (hdenotes : Json.Denotes text.toList (.array values))
    (hcompact : Json.IsCompact text.toList) : parseDefinitions reader text = .ok items := by
  rcases hdenotes with ⟨rest, hspells, hrest⟩
  rw [hcompact.skipBlank_eq] at hspells
  have htextualArray : Yaml.IsTextual (.array values) :=
    (Yaml.itemsAreTextual_iff values).mpr htextual
  have hflows := Yaml.flows_of_spells hspells htextualArray hcompact
  rw [hflows.2.skipBlank_eq] at hrest
  subst hrest
  rcases Yaml.exists_readDocument_root htextualArray hflows.1 with ⟨node, hnode, hroot, hwhole⟩
  rcases hnode with ⟨mark, nodes, rfl, hnodes⟩
  have hitems := Yaml.readItems_of_areNodesOf hreads hnodes
    (Yaml.readDocument text.toList) .root 0
  apply parseDefinitions_eq_ok_iff.mpr
  apply Defines.document (isBlankText_of_flows hflows.1) hwhole
  exact .items hroot rfl (Yaml.readItems_eq_ok_iff.mp (hitems _))

/-- Whatever list of declarations is written in compact JSON, it is decoded from the text. -/
def DecodesCompactTexts {α : Type} (parse : String → Except Yaml.Failure (List α))
    (texts : α → List String) (parts : α → List Part) : Prop :=
  ∀ (items : List α) (values : List Json) (text path : String),
    (∀ item ∈ items, AreAscii (texts item)) →
    List.Forall₂ (fun item value => IsWrittenOf (parts item) value) items values →
    Json.Denotes text.toList (.array values) → Json.IsCompact text.toList →
      decodeDefinitionFile path (parse text) = .ok items

theorem decodesCompactTexts_of_reads {α : Type} {reader : Yaml.Reader α}
    {texts : α → List String} {parts : α → List Part}
    (htextual : ∀ item value, AreAscii (texts item) → IsWrittenOf (parts item) value →
      Yaml.IsTextual value)
    (hreads : ∀ item value, IsWrittenOf (parts item) value →
      Yaml.ReadsNodes reader value item) :
    DecodesCompactTexts (parseDefinitions reader) texts parts := by
  intro items values text path hascii hwritten hdenotes hcompact
  have hreadsAll := hwritten.flip.imp fun value item => hreads item value
  have htextualAll : ∀ value ∈ values, Yaml.IsTextual value := by
    intro value hvalue
    rcases exists_mem_left_of_forall₂ hwritten hvalue with ⟨item, hitem, hwrittenItem⟩
    exact htextual item value (hascii item hitem) hwrittenItem
  rw [parseDefinitions_of_readsNodes hreadsAll htextualAll hdenotes hcompact]
  rfl

theorem definitions_decode_from_compact_texts :
    DecodesCompactTexts parseErrors ErrorDeclaration.texts ErrorDeclaration.parts ∧
      DecodesCompactTexts parseMetadata MetadataRecord.texts MetadataRecord.plainParts := by
  constructor
  · apply decodesCompactTexts_of_reads
    · exact fun _ _ => isTextual_of_errorDeclaration
    · intro declaration value
      exact Yaml.readRecord_of_isWrittenOf
        (Yaml.nodeReading.collects_errorDeclaration declaration)
  · have hentries : ∀ entry value, IsWrittenOf (MetadataEntry.parts entry) value →
        Yaml.ReadsNodes (Yaml.readRecord (MetadataEntry.form Yaml.Reader)) value entry :=
      fun entry _ => Yaml.readRecord_of_isWrittenOf (Yaml.nodeReading.collects_metadataEntry entry)
    apply decodesCompactTexts_of_reads
    · exact fun _ _ => isTextual_of_metadataRecord
    · intro record value
      exact Yaml.readRecord_of_isWrittenOf
        (Yaml.nodeReading.collects_metadataRecord hentries record)

/-! ## Texts that look like structure -/

/-- Texts that would be a list, a comment, a key, nothing or two lines if they stood alone. -/
def deceptiveDeclaration : ErrorDeclaration where
  name := "- a: b # c"
  description := ""
  inherits := ["null", " \x7b", "\"\\\n\x00\t "]

def deceptiveRecord : MetadataRecord where
  name := "%YAML 1.1"
  level := "[1, ~"
  entries := [{ format := "--- |", typeToken := "'&*" }]

def deceptiveErrors : List Json :=
  [.object
    [("inherits", .array [.string "null", .string " \x7b", .string "\"\\\n\x00\t "]),
     ("name", .string "- a: b # c")]]

def deceptiveMetadata : List Json :=
  [.object
    [("meta", .array [.object [("type", .string "'&*"), ("str", .string "--- |")]]),
     ("level", .string "[1, ~"),
     ("name", .string "%YAML 1.1")]]

theorem deceptive_texts_decode :
    (∀ path, decodeDefinitionFile path
      (parseErrors (String.ofList (Json.array deceptiveErrors).compact)) =
        .ok [deceptiveDeclaration]) ∧
    ∀ path, decodeDefinitionFile path
      (parseMetadata (String.ofList (Json.array deceptiveMetadata).compact)) =
        .ok [deceptiveRecord] := by
  have hdecodes := definitions_decode_from_compact_texts
  constructor
  · intro path
    have hwritten : (Json.array deceptiveErrors).WellWritten := by
      simp [deceptiveErrors, Json.WellWritten, Json.MembersWellWritten, Json.ItemsWellWritten]
    apply hdecodes.1 _ deceptiveErrors
    · simp [AreAscii, Yaml.IsAscii, ErrorDeclaration.texts, deceptiveDeclaration]
    · refine .cons ⟨_, rfl, ?_, ?_⟩ .nil
      · simp only [ObjectPresents, ErrorDeclaration.parts, List.forall_mem_cons]
        exact ⟨.said rfl rfl, .absent rfl ⟨rfl, rfl⟩, .said rfl rfl, List.forall_mem_nil _⟩
      · simp [ErrorDeclaration.parts]
    · rw [String.toList_ofList]
      exact Json.denotes_compact hwritten
    · rw [String.toList_ofList]
      exact Json.isCompact_compact hwritten
  · intro path
    have hwritten : (Json.array deceptiveMetadata).WellWritten := by
      simp [deceptiveMetadata, Json.WellWritten, Json.MembersWellWritten, Json.ItemsWellWritten]
    apply hdecodes.2 _ deceptiveMetadata
    · simp [AreAscii, Yaml.IsAscii, MetadataRecord.texts, MetadataEntry.texts, deceptiveRecord]
    · refine .cons ⟨_, rfl, ?_, ?_⟩ .nil
      · simp only [ObjectPresents, MetadataRecord.plainParts, MetadataRecord.partsWith,
          List.forall_mem_cons]
        refine ⟨.said rfl rfl, .said rfl rfl, .said rfl ⟨_, rfl, .cons ⟨_, rfl, ?_, ?_⟩ .nil⟩,
          List.forall_mem_nil _⟩
        · simp only [ObjectPresents, MetadataEntry.parts, List.forall_mem_cons]
          exact ⟨.said rfl rfl, .said rfl rfl, List.forall_mem_nil _⟩
        · simp [MetadataEntry.parts]
      · simp [MetadataRecord.plainParts, MetadataRecord.partsWith]
    · rw [String.toList_ofList]
      exact Json.denotes_compact hwritten
    · rw [String.toList_ofList]
      exact Json.isCompact_compact hwritten

end ErrorTaxonomy
