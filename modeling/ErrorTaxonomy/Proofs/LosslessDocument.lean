import ErrorTaxonomy.Proofs.Emission
import ErrorTaxonomy.Proofs.JsonBlanks

/-!
# The emitted document is lossless

The text of a model spells its document in either layout and nothing else, and the
document holds all that the definitions say: a member that is absent is told apart from
one with an empty text by the key that comes in its place.  So models with the same
text have the same definitions.  A model in which the ancestors of some name have no end
has no text at all.
-/

namespace ErrorTaxonomy

/-! ## What a document holds -/

theorem Level.token_injective : Function.Injective Level.token := by
  intro level other htoken
  have hread := congrArg Level.ofToken? htoken
  rw [Level.ofToken?_token, Level.ofToken?_token] at hread
  exact Option.some.inj hread

theorem FieldType.token_injective : Function.Injective FieldType.token := by
  intro type other htoken
  have hread := congrArg FieldType.ofToken? htoken
  rw [FieldType.ofToken?_token, FieldType.ofToken?_token] at hread
  exact Option.some.inj hread

theorem NativeType.token_injective : Function.Injective NativeType.token := by
  intro type other htoken
  cases type <;> cases other <;> simp [NativeType.token] at htoken ⊢

theorem Field.json_injective : Function.Injective Field.json := by
  intro field other hjson
  simp only [Field.json, Json.object.injEq, List.cons.injEq, Prod.mk.injEq, Json.string.injEq,
    true_and, and_true] at hjson
  obtain ⟨_, hformat, habstract, hresolved⟩ := hjson
  cases field
  cases other
  simp only [Field.mk.injEq]
  exact ⟨hformat, FieldType.token_injective habstract, NativeType.token_injective hresolved⟩

/-- A member that may be absent is recognised by what follows it. -/
theorem optionalMember_append_inj {key next : String} {value other : Option String}
    {first second : Json} {more others : List (String × Json)} (hkey : key ≠ next)
    (heq : optionalMember key value ++ (next, first) :: more =
      optionalMember key other ++ (next, second) :: others) :
    value = other ∧ first = second ∧ more = others := by
  cases value with
  | none =>
      cases other with
      | none => simpa [optionalMember] using heq
      | some text => simp [optionalMember, Ne.symm hkey] at heq
  | some text =>
      cases other with
      | none => simp [optionalMember, hkey] at heq
      | some text' => simpa [optionalMember] using heq

namespace Definition

/-- The members of a definition determine it, whatever follows them. -/
theorem members_append_inj {definition other : Definition} {more others : List (String × Json)}
    (heq : definition.members ++ more = other.members ++ others) : definition = other := by
  simp only [members, List.append_assoc, List.cons_append, List.nil_append,
    List.cons.injEq, Prod.mk.injEq, Json.string.injEq, true_and] at heq
  obtain ⟨hname, heq⟩ := heq
  obtain ⟨hinterface, hmessage, heq⟩ := optionalMember_append_inj (by decide) heq
  simp only [List.cons.injEq, Prod.mk.injEq, Json.string.injEq, true_and] at hmessage heq
  obtain ⟨hlevel, heq⟩ := heq
  obtain ⟨hparent, hfields, _⟩ := optionalMember_append_inj (by decide) heq
  rw [Json.array.injEq] at hfields
  cases definition
  cases other
  simp only [Definition.mk.injEq]
  exact ⟨hname, hinterface, hmessage, Level.token_injective hlevel, hparent,
    (List.map_inj_right fun _ _ hjson => Field.json_injective hjson).mp hfields⟩

end Definition

theorem definition_eq_of_json_eq {entry other : DocumentEntry} (heq : entry.json = other.json) :
    entry.definition = other.definition :=
  Definition.members_append_inj (Json.object.inj heq)

/-- Equal documents are those of equal definitions, although an entry also holds fields
of other definitions of its model. -/
theorem definitions_eq_of_documentOf_eq {entries others : List DocumentEntry}
    (heq : documentOf entries = documentOf others) :
    entries.map DocumentEntry.definition = others.map DocumentEntry.definition := by
  simp only [documentOf, Json.object.injEq, List.cons.injEq, Prod.mk.injEq,
    Json.array.injEq, true_and, and_true] at heq
  have hsame := List.forall₂_map_left_iff.mp (List.forall₂_map_right_iff.mp
    (List.forall₂_eq_eq_eq ▸ heq))
  exact map_eq_map_of_forall₂ (fun _ _ hjson => definition_eq_of_json_eq hjson) hsame

/-! ## Documents as texts -/

theorem Field.wellWritten_json (field : Field) : field.json.WellWritten := by
  simp [Field.json, Json.WellWritten, Json.MembersWellWritten]

theorem membersWellWritten_optionalMember (key : String) (value : Option String) :
    Json.MembersWellWritten (optionalMember key value) := by
  cases value <;> simp [optionalMember, Json.WellWritten, Json.MembersWellWritten]

theorem Definition.membersWellWritten_members (definition : Definition) :
    Json.MembersWellWritten definition.members := by
  have hfields : Json.ItemsWellWritten (definition.fields.map Field.json) := by
    simp [Json.itemsWellWritten_iff, Field.wellWritten_json]
  simp [members, Json.membersWellWritten_append, membersWellWritten_optionalMember,
    Json.MembersWellWritten, Json.WellWritten, hfields]

theorem DocumentEntry.wellWritten_json (entry : DocumentEntry) : entry.json.WellWritten := by
  have hmetadata : Json.ItemsWellWritten (entry.metadata.map .string) := by
    simp [Json.itemsWellWritten_iff, Json.WellWritten]
  simp [json, members, Json.WellWritten, Json.membersWellWritten_append,
    Json.MembersWellWritten, entry.definition.membersWellWritten_members, hmetadata]

theorem wellWritten_documentOf (entries : List DocumentEntry) :
    (documentOf entries).WellWritten := by
  simp [documentOf, Json.WellWritten, Json.MembersWellWritten, Json.itemsWellWritten_iff,
    DocumentEntry.wellWritten_json]

theorem Layout.denotes_text (layout : Layout) {value : Json} (hwritten : value.WellWritten) :
    Json.Denotes (layout.text value).toList value := by
  cases layout with
  | compact =>
      rw [Layout.text, String.toList_ofList]
      exact Json.denotes_compact hwritten
  | pretty =>
      rw [Layout.text, String.toList_ofList]
      exact Json.denotes_pretty hwritten

theorem Layout.denotes_text_iff (layout : Layout) (entries : List DocumentEntry)
    (value : Json) :
    Json.Denotes (layout.text (documentOf entries)).toList value ↔
      value = documentOf entries := by
  have hdenotes := layout.denotes_text (wellWritten_documentOf entries)
  constructor
  · intro hvalue
    exact hvalue.unique hdenotes
  · rintro rfl
    exact hdenotes

/-! ## Models and their texts -/

/-- A model has texts if and only if the ancestors of every name come to an end: then both
layouts are emitted without fail, and otherwise neither is.  The texts say what the model
says. -/
structure Lossless (model : Model) : Prop where
  ends_iff : ∀ layout, (emitJson layout model).isSome ↔ model.ChainsEnd
  never_fails : ∀ layout emission, emitJson layout model = some emission →
    ∃ text, emission.outcome = .ok text
  denotes_iff : ∀ layout text, Emits layout model text →
    ∃ entries, model.entries? = some entries ∧
      ∀ value, Json.Denotes text.toList value ↔ value = documentOf entries
  withoutBlanks_eq : ∀ pretty compact, Emits .pretty model pretty →
    Emits .compact model compact →
      Json.withoutBlanks .outside pretty.toList = compact.toList
  emits_iff : ∀ layout text, Emits layout model text →
    ∀ other, Emits layout other text ↔ other.definitions = model.definitions

theorem definitions_eq_of_emits {layout : Layout} {model other : Model} {text : String}
    (hmodel : Emits layout model text) (hother : Emits layout other text) :
    other.definitions = model.definitions := by
  obtain ⟨entries, hentries, htext⟩ := emits_iff.mp hmodel
  obtain ⟨others, hothers, rfl⟩ := emits_iff.mp hother
  have hdenotes := layout.denotes_text (wellWritten_documentOf others)
  rw [← htext, layout.denotes_text_iff] at hdenotes
  rw [← Model.map_definition_of_entries? hothers, ← Model.map_definition_of_entries? hentries]
  exact definitions_eq_of_documentOf_eq hdenotes

theorem emitJson_lossless (model : Model) : Lossless model where
  ends_iff _ := isSome_emitJson_iff
  never_fails _ _ := exists_text_of_emitJson
  denotes_iff layout text hemits := by
    obtain ⟨entries, hentries, rfl⟩ := emits_iff.mp hemits
    exact ⟨entries, hentries, layout.denotes_text_iff entries⟩
  withoutBlanks_eq pretty compact hpretty hcompact := by
    obtain ⟨entries, hentries, rfl⟩ := emits_iff.mp hpretty
    obtain ⟨others, hothers, rfl⟩ := emits_iff.mp hcompact
    obtain rfl := Option.some.inj (hentries.symm.trans hothers)
    simp only [Layout.text, String.toList_ofList]
    exact Json.withoutBlanks_pretty (wellWritten_documentOf entries)
  emits_iff layout text hemits other := by
    constructor
    · exact definitions_eq_of_emits hemits
    · intro hdefinitions
      obtain rfl : other = model := by
        cases other
        cases model
        exact congrArg Model.mk hdefinitions
      exact hemits

/-- Two definitions that name each other as their parents have no text. -/
example :
    emitJson .compact
        { definitions :=
            [{ Definition.plain "Chicken" "" .error with parent := some "Egg" },
              { Definition.plain "Egg" "" .error with parent := some "Chicken" }] } =
      none := by
  rfl

end ErrorTaxonomy
