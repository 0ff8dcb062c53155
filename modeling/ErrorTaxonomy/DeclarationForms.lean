import ErrorTaxonomy.Declaration
import ErrorTaxonomy.Decoding

/-!
# The forms of declarations

The members of the declared records: which of them must be there, and what the
others are taken for when they are not.
-/

namespace ErrorTaxonomy

/-- The value of a member that has to be there. -/
def required {α : Type} (key : String) : Option α → Except String α
  | some value => .ok value
  | none => .error key

structure ErrorDeclaration.Draft where
  name : Option String := none
  description : Option String := none
  inherits : Option (List String) := none

def ErrorDeclaration.Draft.finish (draft : ErrorDeclaration.Draft) :
    Except String ErrorDeclaration := do
  let name ← required "name" draft.name
  pure
    { name
      description := draft.description.getD ""
      inherits := draft.inherits.getD [] }

def ErrorDeclaration.form (Reader : Type → Type) [Decoder Reader] :
    RecordForm Reader ErrorDeclaration.Draft ErrorDeclaration where
  title := "struct ErrorDeclaration"
  slots :=
    [{ key := "name"
       reader := (fun value draft => { draft with name := some value }) <$>
         Decoder.text
       isFilled := fun draft => draft.name.isSome },
     { key := "description"
       reader := (fun value draft => { draft with description := some value }) <$>
         Decoder.text
       isFilled := fun draft => draft.description.isSome },
     { key := "inherits"
       reader := (fun value draft => { draft with inherits := some value }) <$>
         Decoder.list Decoder.text
       isFilled := fun draft => draft.inherits.isSome }]
  blank := {}
  finish := ErrorDeclaration.Draft.finish

structure MetadataEntry.Draft where
  format : Option String := none
  typeToken : Option String := none

def MetadataEntry.Draft.finish (draft : MetadataEntry.Draft) :
    Except String MetadataEntry := do
  let format ← required "str" draft.format
  let typeToken ← required "type" draft.typeToken
  pure { format, typeToken }

def MetadataEntry.form (Reader : Type → Type) [Decoder Reader] :
    RecordForm Reader MetadataEntry.Draft MetadataEntry where
  title := "struct MetaEntry"
  slots :=
    [{ key := "str"
       reader := (fun value draft => { draft with format := some value }) <$>
         Decoder.text
       isFilled := fun draft => draft.format.isSome },
     { key := "type"
       reader := (fun value draft => { draft with typeToken := some value }) <$>
         Decoder.text
       isFilled := fun draft => draft.typeToken.isSome }]
  blank := {}
  finish := MetadataEntry.Draft.finish

structure MetadataRecord.Draft where
  name : Option String := none
  level : Option String := none
  entries : Option (List MetadataEntry) := none

def MetadataRecord.Draft.finish (draft : MetadataRecord.Draft) :
    Except String MetadataRecord := do
  let name ← required "name" draft.name
  let level ← required "level" draft.level
  pure { name, level, entries := draft.entries.getD [] }

def MetadataRecord.form (Reader : Type → Type) [Decoder Reader] :
    RecordForm Reader MetadataRecord.Draft MetadataRecord where
  title := "struct MetadataDeclaration"
  slots :=
    [{ key := "name"
       reader := (fun value draft => { draft with name := some value }) <$>
         Decoder.text
       isFilled := fun draft => draft.name.isSome },
     { key := "level"
       reader := (fun value draft => { draft with level := some value }) <$>
         Decoder.text
       isFilled := fun draft => draft.level.isSome },
     { key := "meta"
       reader := (fun value draft => { draft with entries := some value }) <$>
         Decoder.list (Decoder.record (MetadataEntry.form Reader))
       isFilled := fun draft => draft.entries.isSome }]
  blank := {}
  finish := MetadataRecord.Draft.finish

section

variable {Reader : Type → Type} [Decoder Reader]

def readErrorDeclaration : Reader ErrorDeclaration :=
  Decoder.record (ErrorDeclaration.form Reader)

def readMetadataEntry : Reader MetadataEntry :=
  Decoder.record (MetadataEntry.form Reader)

def readMetadataRecord : Reader MetadataRecord :=
  Decoder.record (MetadataRecord.form Reader)

end

end ErrorTaxonomy
