import ErrorTaxonomy.Proofs.Acceptance

/-!
# Selection of the error

Inputs often hold several defects, and exactly one is reported.  The first
declaration that offends against validation decides.  Where none does, the first
parent that is not declared decides; where all are, the first cycle; and where
there is none, the first unknown type in compiled order.  A defect of a later
stage never hides one of an earlier stage.
-/

namespace ErrorTaxonomy

open Hierarchy

/-- The one way in which a declaration offends after the given names have been
met. -/
inductive Offends (met : List String) (declared : Fragment × ErrorDeclaration) :
    CompileError → Prop
  | duplicateName :
      declared.2.name ∈ met → Offends met declared (.duplicateName declared.2.name)
  | missingMetadata :
      declared.2.name ∉ met →
        (∀ record ∈ declared.1.metadata, record.name ≠ declared.2.name) →
        Offends met declared (.missingMetadata declared.2.name)
  | unknownLevel {record : MetadataRecord} :
      declared.2.name ∉ met → declared.1.FirstRecord declared.2.name record →
        ¬ record.LevelKnown →
        Offends met declared (.unknownLevel declared.2.name record.level)
  | duplicateField {record : MetadataRecord} {before after : List MetadataEntry}
      {entry other : MetadataEntry} {field : String} :
      declared.2.name ∉ met → declared.1.FirstRecord declared.2.name record →
        record.LevelKnown → record.entries = before ++ entry :: after →
        DistinctFields before → other ∈ before → IsShortName other.format field →
        IsShortName entry.format field →
        Offends met declared (.duplicateField declared.2.name field)

/-- No declaration of a list offends against validation when it is met. -/
def NoneOffends (listed : List (Fragment × ErrorDeclaration)) : Prop :=
  ∀ before declared after, listed = before ++ declared :: after →
    ∀ error, ¬ Offends (before.map fun earlier => earlier.2.name) declared error

def ParentDeclared (fragments : List Fragment)
    (declared : Fragment × ErrorDeclaration) : Prop :=
  ∀ parent, declared.2.NamesParent parent → parent ∈ declaredNames fragments

def TypesKnown (declared : Fragment × ErrorDeclaration) : Prop :=
  ∀ record, declared.1.FirstRecord declared.2.name record →
    ∀ entry ∈ record.entries, entry.Typed

/-- The first entry without a known type decides the error. -/
inductive Mistyped (declared : Fragment × ErrorDeclaration) : CompileError → Prop
  | unknownType {record : MetadataRecord} {before after : List MetadataEntry}
      {entry : MetadataEntry} {field : String} :
      declared.1.FirstRecord declared.2.name record →
        record.entries = before ++ entry :: after → (∀ other ∈ before, other.Typed) →
        ¬ entry.Typed → IsShortName entry.format field →
        Mistyped declared (.unknownType declared.2.name field entry.typeToken)

def declaredLink (declared : Fragment × ErrorDeclaration) : NamedLink :=
  (declared.2.name, declared.2.parent?)

/-- The one error that fragments with some defect are reported with. -/
inductive Reported (fragments : List Fragment) : CompileError → Prop
  | offence {before after : List (Fragment × ErrorDeclaration)}
      {declared : Fragment × ErrorDeclaration} {error : CompileError} :
      declarations fragments = before ++ declared :: after → NoneOffends before →
        Offends (before.map fun earlier => earlier.2.name) declared error →
        Reported fragments error
  | unknownParent {before after : List (Fragment × ErrorDeclaration)}
      {declared : Fragment × ErrorDeclaration} {parent : String} :
      NoneOffends (declarations fragments) →
        declarations fragments = before ++ declared :: after →
        (∀ earlier ∈ before, ParentDeclared fragments earlier) →
        declared.2.NamesParent parent → parent ∉ declaredNames fragments →
        Reported fragments (.unknownParent declared.2.name parent)
  | inheritanceCycle {tail loop : List Nat} {first : Nat} :
      NoneOffends (declarations fragments) →
        (∀ declared ∈ declarations fragments, ParentDeclared fragments declared) →
        (named ((declarations fragments).map declaredLink)).FirstCycle tail loop first →
        Reported fragments (.inheritanceCycle
          ((loop ++ [first]).map (nameAt ((declarations fragments).map declaredLink))))
  | unknownType {before after : List (Fragment × ErrorDeclaration)}
      {declared : Fragment × ErrorDeclaration} {error : CompileError} :
      NoneOffends (declarations fragments) →
        (∀ declared ∈ declarations fragments, ParentDeclared fragments declared) →
        (∀ name, ¬ Relation.TransGen (DeclaredParent fragments) name name) →
        compiledListing declaredLink (declarations fragments) =
          before ++ declared :: after →
        (∀ earlier ∈ before, TypesKnown earlier) → Mistyped declared error →
        Reported fragments error

section Encounters

variable {declared : Fragment × ErrorDeclaration} {error : CompileError}

theorem offends_of_violates {met : List String}
    (hviolates : (encounterOf declared).Violates met error) :
    Offends met declared error := by
  cases hviolates with
  | duplicateName hmem => exact .duplicateName hmem
  | missingMetadata hfresh hrecord =>
      exact .missingMetadata hfresh (Fragment.record?_eq_none_iff.mp hrecord)
  | unknownLevel hfresh hrecord hlevel =>
      exact .unknownLevel hfresh (Fragment.record?_eq_some_iff.mp hrecord) hlevel
  | duplicateField hfresh hrecord hlevel hentries hnodup hrepeats =>
      rcases List.mem_map.mp hrepeats with ⟨other, hmem, hother⟩
      exact .duplicateField hfresh (Fragment.record?_eq_some_iff.mp hrecord) hlevel hentries
        (nodup_map_shortName_iff.mp hnodup) hmem (shortName_eq_iff.mp hother)
        (shortName_eq_iff.mp rfl)

theorem violates_of_offends {met : List String} (hoffends : Offends met declared error) :
    (encounterOf declared).Violates met error := by
  cases hoffends with
  | duplicateName hmem => exact .duplicateName hmem
  | missingMetadata hfresh hrecord =>
      exact .missingMetadata hfresh (Fragment.record?_eq_none_iff.mpr hrecord)
  | unknownLevel hfresh hrecord hlevel =>
      exact .unknownLevel hfresh (Fragment.record?_eq_some_iff.mpr hrecord) hlevel
  | @duplicateField record before after entry other field hfresh hrecord hlevel hentries
      hdistinct hmem hother hentry =>
      have hfield : entry.shortName = field := shortName_eq_iff.mpr hentry
      have hrepeats : entry.shortName ∈ before.map MetadataEntry.shortName :=
        List.mem_map.mpr ⟨other, hmem, (shortName_eq_iff.mpr hother).trans hfield.symm⟩
      rw [← hfield]
      exact .duplicateField hfresh (Fragment.record?_eq_some_iff.mpr hrecord) hlevel hentries
        (nodup_map_shortName_iff.mpr hdistinct) hrepeats

theorem typesKnown_iff : TypesKnown declared ↔ (encounterOf declared).Typed := by
  simp only [TypesKnown, Encounter.Typed, encounterOf, Fragment.record?_eq_some_iff]

theorem mistyped_iff_of_leaves {pending : PendingError}
    (hleaves : (encounterOf declared).Leaves pending) :
    pending.Mistyped error ↔ Mistyped declared error := by
  rcases hleaves.record with ⟨record, hrecord, -, -, hentries⟩
  constructor
  · rintro ⟨hsplit, hbefore, huntyped⟩
    rw [hleaves.name_eq]
    exact .unknownType (Fragment.record?_eq_some_iff.mp hrecord) (hentries ▸ hsplit) hbefore
      huntyped (shortName_eq_iff.mp rfl)
  · rintro ⟨hother, hsplit, hbefore, huntyped, hfield⟩
    obtain rfl := Option.some.inj (hrecord.symm.trans (Fragment.record?_eq_some_iff.mpr hother))
    rw [← shortName_eq_iff] at hfield
    have hmistyped := PendingError.Mistyped.unknownType (hentries.trans hsplit) hbefore huntyped
    rwa [hleaves.name_eq, MetadataEntry.shortName, hfield] at hmistyped

theorem outcome_validateAll_map_eq_error_iff
    {listed : List (Fragment × ErrorDeclaration)} :
    (validateAll [] (listed.map encounterOf)).outcome = .error error ↔
      ∃ before declared after, listed = before ++ declared :: after ∧
        (∃ pending, (validateAll [] (before.map encounterOf)).outcome = .ok pending) ∧
        Offends (before.map fun earlier => earlier.2.name) declared error := by
  have hmap (before : List (Fragment × ErrorDeclaration)) :
      (before.map encounterOf).map Encounter.name =
        before.map fun earlier => earlier.2.name := by
    rw [List.map_map]
    rfl
  rw [outcome_validateAll_eq_error_iff]
  simp only [List.append_nil]
  constructor
  · rintro ⟨encountered, encounter, rest, hlist, hvalid, hviolates⟩
    rcases List.map_eq_append_iff.mp hlist with ⟨before, later, rfl, rfl, hlater⟩
    rcases List.map_eq_cons_iff.mp hlater with ⟨declared, after, rfl, rfl, -⟩
    rw [hmap] at hviolates
    exact ⟨before, declared, after, rfl, hvalid, offends_of_violates hviolates⟩
  · rintro ⟨before, declared, after, rfl, hvalid, hoffends⟩
    rw [← hmap] at hoffends
    exact ⟨before.map encounterOf, encounterOf declared, after.map encounterOf,
      by rw [List.map_append, List.map_cons], hvalid, violates_of_offends hoffends⟩

theorem noneOffends_iff {listed : List (Fragment × ErrorDeclaration)} :
    NoneOffends listed ↔
      ∃ pending, (validateAll [] (listed.map encounterOf)).outcome = .ok pending := by
  constructor
  · intro hnone
    cases houtcome : (validateAll [] (listed.map encounterOf)).outcome with
    | ok pending => exact ⟨pending, rfl⟩
    | error error =>
        obtain ⟨before, declared, after, rfl, -, hoffends⟩ :=
          outcome_validateAll_map_eq_error_iff.mp houtcome
        exact absurd hoffends (hnone before declared after rfl error)
  · rintro hvalid before declared after rfl error hoffends
    rcases exists_outcome_validateAll_iff.mp hvalid with ⟨hnames, hsound⟩
    rw [List.map_append, List.map_cons] at hnames hsound
    have hmem : encounterOf declared ∈
        before.map encounterOf ++ encounterOf declared :: after.map encounterOf :=
      List.mem_append_right _ List.mem_cons_self
    rcases (encounterOf declared).sound_iff_leaves.mp (hsound _ hmem) with ⟨pending, hleaves⟩
    have hfresh : declared.2.name ∉ before.map fun earlier => earlier.2.name := by
      rw [List.map_append, List.map_cons, List.map_map, List.nodup_append] at hnames
      intro hmet
      exact hnames.2.2 _ hmet _ List.mem_cons_self rfl
    have hok := Encounter.pending_eq_ok_iff.mpr ⟨hfresh, hleaves⟩
    rw [Encounter.pending_eq_error_iff.mpr (violates_of_offends hoffends)] at hok
    contradiction

end Encounters

variable {fragments : List Fragment} {pending : List PendingError} {error : CompileError}

theorem map_fst_declaredLink (fragments : List Fragment) :
    ((declarations fragments).map declaredLink).map Prod.fst = declaredNames fragments := by
  rw [List.map_map]
  rfl

theorem map_link_encounters (fragments : List Fragment) :
    (encounters fragments).map Encounter.link = (declarations fragments).map declaredLink := by
  rw [encounters_eq, List.map_map]
  rfl

theorem forall_parentDeclared_iff {listed : List (Fragment × ErrorDeclaration)} :
    (∀ declared ∈ listed, ParentDeclared fragments declared) ↔
      ∀ child parent, InheritsName (listed.map declaredLink) child parent →
        parent ∈ declaredNames fragments := by
  rw [forall_inheritsName_map_iff]
  simp only [ParentDeclared, declaredLink, ErrorDeclaration.parent?_eq_some_iff]

theorem parentsNamed_declaredLink_iff :
    ParentsNamed ((declarations fragments).map declaredLink) ↔
      ∀ declared ∈ declarations fragments, ParentDeclared fragments declared := by
  rw [ParentsNamed, map_fst_declaredLink, forall_parentDeclared_iff]

theorem map_link_of_valid
    (hvalid : (validateAll [] (encounters fragments)).outcome = .ok pending) :
    pending.map PendingError.link = (declarations fragments).map declaredLink := by
  rw [← map_link_encounters]
  exact map_link_of_leaves (outcome_validateAll_eq_ok_iff.mp hvalid).2.2

theorem noneOffends_declarations_iff :
    NoneOffends (declarations fragments) ↔
      ∃ pending, (validateAll [] (encounters fragments)).outcome = .ok pending := by
  rw [noneOffends_iff, encounters_eq]

theorem outcome_validateAll_encounters_eq_error_iff :
    (validateAll [] (encounters fragments)).outcome = .error error ↔
      ∃ before declared after, declarations fragments = before ++ declared :: after ∧
        NoneOffends before ∧
        Offends (before.map fun earlier => earlier.2.name) declared error := by
  rw [encounters_eq, outcome_validateAll_map_eq_error_iff]
  simp only [noneOffends_iff]

theorem reported_of_refuses (hnone : NoneOffends (declarations fragments))
    (hrefuses : Refuses ((declarations fragments).map declaredLink) error) :
    Reported fragments error := by
  cases hrefuses with
  | unknownParent hlinks hbefore hunknown =>
      rw [map_fst_declaredLink] at hbefore hunknown
      rcases List.map_eq_append_iff.mp hlinks with ⟨before, rest, hlist, rfl, hrest⟩
      rcases List.map_eq_cons_iff.mp hrest with ⟨declared, after, rfl, hlink, -⟩
      rcases Prod.mk.inj hlink with ⟨rfl, hparent⟩
      exact .unknownParent hnone hlist (forall_parentDeclared_iff.mpr hbefore)
        (ErrorDeclaration.parent?_eq_some_iff.mp hparent) hunknown
  | inheritanceCycle hparents hcycle =>
      exact .inheritanceCycle hnone (parentsNamed_declaredLink_iff.mp hparents) hcycle

theorem refuses_of_unknownParent {before after : List (Fragment × ErrorDeclaration)}
    {declared : Fragment × ErrorDeclaration} {parent : String}
    (hlist : declarations fragments = before ++ declared :: after)
    (hbefore : ∀ earlier ∈ before, ParentDeclared fragments earlier)
    (hparent : declared.2.NamesParent parent) (hunknown : parent ∉ declaredNames fragments) :
    Refuses ((declarations fragments).map declaredLink)
      (.unknownParent declared.2.name parent) := by
  have hlinks : (declarations fragments).map declaredLink =
      before.map declaredLink ++
        (declared.2.name, some parent) :: after.map declaredLink := by
    rw [hlist, List.map_append, List.map_cons,
      ← ErrorDeclaration.parent?_eq_some_iff.mpr hparent]
    rfl
  rw [← map_fst_declaredLink] at hunknown
  refine .unknownParent hlinks ?_ hunknown
  rw [map_fst_declaredLink]
  exact forall_parentDeclared_iff.mp hbefore

theorem acyclic_declaredLink_iff :
    Acyclic ((declarations fragments).map declaredLink) ↔
      ∀ name, ¬ Relation.TransGen (DeclaredParent fragments) name name := by
  rw [Acyclic, ← map_link_encounters, inheritsName_iff_declaredParent]

/-- What the listed declarations leave pending is listed in the same order. -/
theorem forall₂_listing_of_orders (horders : Orders fragments pending) :
    List.Forall₂ (fun declared error => (encounterOf declared).Leaves error)
      (compiledListing declaredLink (declarations fragments))
      (compiledListing PendingError.link pending) := by
  rcases outcome_validateAll_eq_ok_iff.mp horders.valid with ⟨-, -, hleaves⟩
  rw [encounters_eq, List.forall₂_map_left_iff] at hleaves
  exact forall₂_compiledListing (map_link_of_valid horders.valid).symm hleaves

theorem forall_typesKnown_iff_of_leaves {listed : List (Fragment × ErrorDeclaration)}
    (hleaves : List.Forall₂ (fun declared error => (encounterOf declared).Leaves error)
      listed pending) :
    (∀ error ∈ pending, error.Typed) ↔ ∀ declared ∈ listed, TypesKnown declared := by
  rw [← List.forall₂_map_left_iff] at hleaves
  rw [forall_typed_iff_of_leaves hleaves, List.forall_mem_map]
  simp only [typesKnown_iff]

theorem exists_mistyped_iff (horders : Orders fragments pending) :
    (∃ before mistyped after,
      compiledListing PendingError.link pending = before ++ mistyped :: after ∧
        (∀ other ∈ before, other.Typed) ∧ mistyped.Mistyped error) ↔
      ∃ before declared after,
        compiledListing declaredLink (declarations fragments) = before ++ declared :: after ∧
          (∀ earlier ∈ before, TypesKnown earlier) ∧ Mistyped declared error := by
  have hlisted := forall₂_listing_of_orders horders
  constructor
  · rintro ⟨earlier, mistyped, later, hlisting, htyped, hmistyped⟩
    rw [hlisting] at hlisted
    obtain ⟨before, declared, after, hdeclared, hbefore, hleaves⟩ :=
      forall₂_append_cons_right hlisted
    exact ⟨before, declared, after, hdeclared,
      (forall_typesKnown_iff_of_leaves hbefore).mp htyped,
      (mistyped_iff_of_leaves hleaves).mp hmistyped⟩
  · rintro ⟨before, declared, after, hlisting, hknown, hmistyped⟩
    rw [hlisting] at hlisted
    obtain ⟨earlier, mistyped, later, hpending, hearlier, hleaves⟩ :=
      forall₂_append_cons_left hlisted
    exact ⟨earlier, mistyped, later, hpending,
      (forall_typesKnown_iff_of_leaves hearlier).mpr hknown,
      (mistyped_iff_of_leaves hleaves).mpr hmistyped⟩

theorem orders_of_valid
    (hvalid : (validateAll [] (encounters fragments)).outcome = .ok pending)
    (hparents : ∀ declared ∈ declarations fragments, ParentDeclared fragments declared)
    (hacyclic : ∀ name, ¬ Relation.TransGen (DeclaredParent fragments) name name) :
    Orders fragments pending := by
  rcases outcome_validateAll_eq_ok_iff.mp hvalid with ⟨hnames, -, hleaves⟩
  refine orders_iff.mpr ⟨hnames, hleaves, ?_, ?_⟩
  · rw [map_link_encounters]
    exact parentsNamed_declaredLink_iff.mpr hparents
  · rw [map_link_encounters]
    exact acyclic_declaredLink_iff.mpr hacyclic

theorem reported_of_compile {strategy : OrderingStrategy}
    (herror : (compile strategy fragments).outcome = .error error) :
    Reported fragments error := by
  rcases outcome_compile_eq_error_iff.mp herror with
    hinvalid | ⟨pending, hvalid, hrefuses⟩ | ⟨pending, horders, hmistyped⟩
  · obtain ⟨before, declared, after, hlist, hnone, hoffends⟩ :=
      outcome_validateAll_encounters_eq_error_iff.mp hinvalid
    exact .offence hlist hnone hoffends
  · have hnone := noneOffends_declarations_iff.mpr ⟨pending, hvalid⟩
    rw [map_link_of_valid hvalid] at hrefuses
    exact reported_of_refuses hnone hrefuses
  · have hnone := noneOffends_declarations_iff.mpr ⟨pending, horders.valid⟩
    rcases orders_iff.mp horders with ⟨-, -, hparents, hacyclic⟩
    rw [map_link_encounters] at hparents hacyclic
    obtain ⟨before, declared, after, hlisting, hknown, hdeclared⟩ :=
      (exists_mistyped_iff horders).mp hmistyped
    exact .unknownType hnone (parentsNamed_declaredLink_iff.mp hparents)
      (acyclic_declaredLink_iff.mp hacyclic) hlisting hknown hdeclared

theorem compile_of_reported (strategy : OrderingStrategy)
    (hreported : Reported fragments error) :
    (compile strategy fragments).outcome = .error error := by
  rw [outcome_compile_eq_error_iff]
  cases hreported with
  | offence hlist hnone hoffends =>
      left
      exact outcome_validateAll_encounters_eq_error_iff.mpr ⟨_, _, _, hlist, hnone, hoffends⟩
  | unknownParent hnone hlist hbefore hparent hunknown =>
      right; left
      rcases noneOffends_declarations_iff.mp hnone with ⟨pending, hvalid⟩
      refine ⟨pending, hvalid, ?_⟩
      rw [map_link_of_valid hvalid]
      exact refuses_of_unknownParent hlist hbefore hparent hunknown
  | inheritanceCycle hnone hparents hcycle =>
      right; left
      rcases noneOffends_declarations_iff.mp hnone with ⟨pending, hvalid⟩
      refine ⟨pending, hvalid, ?_⟩
      rw [map_link_of_valid hvalid]
      exact .inheritanceCycle (parentsNamed_declaredLink_iff.mpr hparents) hcycle
  | unknownType hnone hparents hacyclic hlisting hknown hmistyped =>
      right; right
      rcases noneOffends_declarations_iff.mp hnone with ⟨pending, hvalid⟩
      have horders := orders_of_valid hvalid hparents hacyclic
      exact ⟨pending, horders,
        (exists_mistyped_iff horders).mpr ⟨_, _, _, hlisting, hknown, hmistyped⟩⟩

/-- A compilation fails with exactly the one error that the defects of its
fragments select, whatever the strategy. -/
theorem outcome_compile_eq_error_iff_reported (strategy : OrderingStrategy)
    (fragments : List Fragment) (error : CompileError) :
    (compile strategy fragments).outcome = .error error ↔ Reported fragments error := by
  constructor
  · exact reported_of_compile
  · exact compile_of_reported strategy

/-- An unknown parent is reported although a cycle is met before it. -/
example :
    (compile .queue
      [{ errors := [⟨"A", "", ["B"]⟩, ⟨"B", "", ["A"]⟩, ⟨"C", "", ["D"]⟩]
         metadata := [⟨"A", "info", []⟩, ⟨"B", "info", []⟩, ⟨"C", "info", []⟩] }]).outcome =
      .error (.unknownParent "C" "D") := by
  decide +kernel

end ErrorTaxonomy
