import ErrorTaxonomy.Proofs.JsonReading

/-!
# Declarations in whatever presentation

A declaration is decoded from every text that presents it: as an object with its members in
any order, the defaulted ones left out at will and other members among them, or as a list that
may end early.  An object without a member that has to be there is refused, and blamed behind
its brace for such a member.
-/

namespace ErrorTaxonomy

/-- The parts of a record in JSON, where each entry is presented in its own way. -/
def MetadataRecord.parts (record : MetadataRecord) : List Part :=
  record.partsWith fun entry => Presents entry.parts

namespace Json

section Records

variable {Draft α : Type} {form : RecordForm Reader Draft α} {draft : (String → Bool) → Draft}
  {parts : List Part} {record : α}

theorem readRecord_of_presents (hcollects : form.Collects ReadsSpelled draft parts record)
    {value : Json} (hpresents : Presents parts value) :
    ReadsSpelled (readRecord form) value record := by
  cases hpresents with
  | object hobject =>
      rcases hcollects.enters_of_objectPresents hobject with ⟨last, henters, hfinish⟩
      exact spelledReading.record henters hfinish
  | list hlist =>
      rcases hcollects.enters_of_listPresents hlist with ⟨last, henters, hfinish⟩
      exact readRecord_of_entersList henters hfinish

theorem readRecord_of_lacks (hcollects : form.Collects ReadsSpelled draft parts record)
    {members : List (String × Json)} (hlacks : ObjectLacks parts members) :
    ∃ part ∈ parts, part.IsMissing members ∧ ∀ spaced rest,
      Spells (.value (.object members)) (skipBlank spaced) rest →
        readRecord form spaced = .error (.before (.mismatch (.missingField part.key)) rest) := by
  rcases hcollects.enters_of_objectLacks hlacks with
    ⟨part, hpart, hmissing, last, henters, hfinish⟩
  refine ⟨part, hpart, hmissing, ?_⟩
  intro spaced rest hspells
  have hread := readRecord_of_enters henters hspells
  rw [hfinish] at hread
  exact hread

end Records

section Whole

variable {α : Type} {reader : Reader α} {text : String}

theorem decode_of_readsSpelled {value : Json} {a : α} (hreads : ReadsSpelled reader value a)
    (hdenotes : Denotes text.toList value) : decode reader text = .ok a := by
  rcases hdenotes with ⟨rest, hspells, hrest⟩
  simp only [decode, readWhole, hreads _ rest hspells, ok_bind, hrest]
  rfl

theorem decode_of_error {failure : Failure} (herror : reader text.toList = .error failure) :
    decode reader text = .error (failure.message text.toList) := by
  rw [decode, readWhole, herror]
  rfl

end Whole

/-- Every presentation of a record is decoded to it, and an object that lacks members is
refused for one of them. -/
structure DecodesPresentations {α : Type} (reader : Reader α) (parts : α → List Part) :
    Prop where
  presented : ∀ record value text, Presents (parts record) value →
    Denotes text.toList value → decode reader text = .ok record
  lacking : ∀ record members text, ObjectLacks (parts record) members →
    Denotes text.toList (.object members) →
      ∃ part ∈ parts record, part.IsMissing members ∧ ∃ rest, skipBlank rest = [] ∧
        decode reader text =
          .error ((Failure.before (.mismatch (.missingField part.key)) rest).message text.toList)

theorem decodesPresentations_of_collects {Draft α : Type} {form : RecordForm Reader Draft α}
    {draftOf : α → (String → Bool) → Draft} {parts : α → List Part}
    (hcollects : ∀ record, form.Collects ReadsSpelled (draftOf record) (parts record) record) :
    DecodesPresentations (readRecord form) parts where
  presented := by
    intro record value text hpresents hdenotes
    exact decode_of_readsSpelled (readRecord_of_presents (hcollects record) hpresents) hdenotes
  lacking := by
    intro record members text hlacks hdenotes
    rcases readRecord_of_lacks (hcollects record) hlacks with ⟨part, hpart, hmissing, hread⟩
    rcases hdenotes with ⟨rest, hspells, hrest⟩
    exact ⟨part, hpart, hmissing, rest, hrest, decode_of_error (hread _ rest hspells)⟩

theorem readsSpelled_of_presents_entry (entry : MetadataEntry) (value : Json)
    (hpresents : Presents entry.parts value) :
    ReadsSpelled (readRecord (MetadataEntry.form Reader)) value entry :=
  readRecord_of_presents (spelledReading.collects_metadataEntry entry) hpresents

theorem declarations_decode_from_presentations :
    DecodesPresentations readErrorDeclaration ErrorDeclaration.parts ∧
      DecodesPresentations readMetadataEntry MetadataEntry.parts ∧
      DecodesPresentations readMetadataRecord MetadataRecord.parts := by
  refine ⟨?_, ?_, ?_⟩
  · exact decodesPresentations_of_collects spelledReading.collects_errorDeclaration
  · exact decodesPresentations_of_collects spelledReading.collects_metadataEntry
  · exact decodesPresentations_of_collects
      (spelledReading.collects_metadataRecord readsSpelled_of_presents_entry)

def scrambledRecord : MetadataRecord where
  name := "é\x00"
  level := "Parser"
  entries := [{ format := "%s\n", typeToken := "\"\\" }, { format := "", typeToken := "𝄞" }]

def scrambledEntries : List Json :=
  [.object [("type", .string "\"\\"), ("", .null), ("str", .string "%s\n")],
   .array [.string "", .string "𝄞"]]

/-- All members but the name, backwards and with one that is none of a record. -/
def scrambledMembers : List (String × Json) :=
  [("meta", .array scrambledEntries),
   ("note", .object [("name", .array [.null, .bool true, .object []]), ("name", .string "x")]),
   ("level", .string "Parser")]

theorem scrambledEntries_present :
    List.Forall₂ (fun entry => Presents (MetadataEntry.parts entry)) scrambledRecord.entries
      scrambledEntries := by
  refine .cons ?_ (.cons ?_ .nil)
  · apply Presents.object
    simp only [ObjectPresents, MetadataEntry.parts, List.forall_mem_cons]
    exact ⟨.said rfl rfl, .said rfl rfl, List.forall_mem_nil _⟩
  · exact .list (.next (by rfl) (.next (by rfl) (.ended (List.forall_mem_nil _))))

theorem scrambledMembers_wellWritten : MembersWellWritten scrambledMembers := by
  simp [scrambledMembers, scrambledEntries, WellWritten, MembersWellWritten, ItemsWellWritten]

theorem scrambledMembers_decode :
    decode readMetadataRecord
        (String.ofList (object (scrambledMembers ++ [("name", .string "é\x00")])).pretty) =
      .ok scrambledRecord ∧
    ∃ message, decode readMetadataRecord (String.ofList (object scrambledMembers).pretty) =
      .error message := by
  have hdecodes := declarations_decode_from_presentations.2.2
  constructor
  · apply hdecodes.presented _ (object (scrambledMembers ++ [("name", .string "é\x00")]))
    · apply Presents.object
      simp only [ObjectPresents, MetadataRecord.parts, MetadataRecord.partsWith,
        List.forall_mem_cons]
      exact ⟨.said rfl rfl, .said rfl rfl, .said rfl ⟨_, rfl, scrambledEntries_present⟩,
        List.forall_mem_nil _⟩
    · rw [String.toList_ofList]
      apply denotes_pretty
      exact membersWellWritten_append.mpr
        ⟨scrambledMembers_wellWritten, by simp [MembersWellWritten, WellWritten]⟩
  · have hlacks : ObjectLacks (MetadataRecord.parts scrambledRecord) scrambledMembers := by
      constructor
      · exact ⟨_, List.mem_cons_self, rfl, rfl⟩
      · simp only [MetadataRecord.parts, MetadataRecord.partsWith, List.forall_mem_cons]
        exact ⟨.inr ⟨rfl, rfl⟩, .inl (.said rfl rfl),
          .inl (.said rfl ⟨_, rfl, scrambledEntries_present⟩), List.forall_mem_nil _⟩
    have hdenotes : Denotes (String.ofList (object scrambledMembers).pretty).toList
        (object scrambledMembers) := by
      rw [String.toList_ofList]
      exact denotes_pretty scrambledMembers_wellWritten
    rcases hdecodes.lacking _ _ _ hlacks hdenotes with ⟨_, _, _, _, _, hmessage⟩
    exact ⟨_, hmessage⟩

end Json

end ErrorTaxonomy
