import ErrorTaxonomy.Proofs.FirstFailure
import ErrorTaxonomy.Proofs.NamesAndTokens
import Mathlib.Tactic.Tauto

/-!
# The first violation

A declared error is checked for itself, apart from its name, which must not have
been met before.  It is sound if it has a record whose level is known and whose
fields have distinct short names.  Otherwise it violates validation in exactly
one way, given by the first of these conditions that fails.  Validation passes
declared errors that are sound and have distinct names; else the first violating
one decides.
-/

namespace ErrorTaxonomy

theorem firstRepeated?_eq_none_iff {α : Type} [DecidableEq α] {seen list : List α} :
    firstRepeated? seen list = none ↔ list.Nodup ∧ ∀ a ∈ list, a ∉ seen := by
  induction list generalizing seen with
  | nil => simp [firstRepeated?]
  | cons a rest ih =>
      rw [firstRepeated?, List.nodup_cons, List.forall_mem_cons]
      by_cases hseen : a ∈ seen
      · simp [hseen]
      · rw [if_neg hseen, ih]
        simp only [List.mem_cons, not_or]
        constructor
        · rintro ⟨hnodup, hfresh⟩
          exact ⟨⟨fun hmem => (hfresh a hmem).1 rfl, hnodup⟩, hseen,
            fun b hb => (hfresh b hb).2⟩
        · rintro ⟨⟨hhead, hnodup⟩, -, hfresh⟩
          exact ⟨hnodup, fun b hb => ⟨fun heq => hhead (heq ▸ hb), hfresh b hb⟩⟩

/-- The first repeated element repeats one before it, where nothing does. -/
theorem firstRepeated?_eq_some_iff {α : Type} [DecidableEq α] {seen list : List α}
    {a : α} :
    firstRepeated? seen list = some a ↔
      ∃ before after, list = before ++ a :: after ∧ before.Nodup ∧
        (∀ b ∈ before, b ∉ seen) ∧ (a ∈ seen ∨ a ∈ before) := by
  induction list generalizing seen with
  | nil => simp [firstRepeated?]
  | cons first rest ih =>
      rw [firstRepeated?]
      by_cases hseen : first ∈ seen
      · rw [if_pos hseen, Option.some.injEq]
        constructor
        · rintro rfl
          exact ⟨[], rest, rfl, List.nodup_nil, by simp, .inl hseen⟩
        · rintro ⟨before, after, hlist, -, hfresh, -⟩
          cases before with
          | nil => exact (List.cons.inj hlist).1
          | cons b before =>
              rcases List.cons.inj hlist with ⟨rfl, -⟩
              exact absurd hseen (hfresh first List.mem_cons_self)
      · rw [if_neg hseen, ih]
        constructor
        · rintro ⟨before, after, rfl, hnodup, hfresh, hrepeats⟩
          have hfirst : first ∉ before := fun hmem => hfresh first hmem List.mem_cons_self
          refine ⟨first :: before, after, rfl, List.nodup_cons.mpr ⟨hfirst, hnodup⟩, ?_, ?_⟩
          · refine List.forall_mem_cons.mpr ⟨hseen, fun b hb hmem => ?_⟩
            exact hfresh b hb (List.mem_cons_of_mem _ hmem)
          · simp only [List.mem_cons] at hrepeats ⊢
            tauto
        · rintro ⟨before, after, hlist, hnodup, hfresh, hrepeats⟩
          cases before with
          | nil =>
              rcases List.cons.inj hlist with ⟨rfl, -⟩
              simp [hseen] at hrepeats
          | cons b before =>
              rcases List.cons.inj hlist with ⟨rfl, rfl⟩
              rcases List.nodup_cons.mp hnodup with ⟨hfirst, hnodup⟩
              refine ⟨before, after, rfl, hnodup, fun b hb hmem => ?_, ?_⟩
              · rcases List.mem_cons.mp hmem with rfl | hmem
                · exact hfirst hb
                · exact hfresh b (List.mem_cons_of_mem _ hb) hmem
              · simp only [List.mem_cons] at hrepeats ⊢
                tauto

namespace MetadataRecord

def LevelKnown (record : MetadataRecord) : Prop :=
  ∃ level : Level, Level.asciiLower record.level ∈ level.spellings

theorem levelKnown_iff {record : MetadataRecord} :
    record.LevelKnown ↔ ∃ level, Level.ofToken? record.level = some level := by
  simp only [LevelKnown, Level.ofToken?_eq_some_iff]

def shortNames (record : MetadataRecord) : List String :=
  record.entries.map MetadataEntry.shortName

end MetadataRecord

namespace Encounter

/-- A declared error passes for itself. -/
def Sound (encounter : Encounter) : Prop :=
  ∃ record, encounter.record? = some record ∧ record.LevelKnown ∧ record.shortNames.Nodup

/-- The one way in which a declared error is refused after the given names have
been met. -/
inductive Violates (encounter : Encounter) (met : List String) : CompileError → Prop
  | duplicateName :
      encounter.name ∈ met → Violates encounter met (.duplicateName encounter.name)
  | missingMetadata :
      encounter.name ∉ met → encounter.record? = none →
        Violates encounter met (.missingMetadata encounter.name)
  | unknownLevel {record : MetadataRecord} :
      encounter.name ∉ met → encounter.record? = some record → ¬ record.LevelKnown →
        Violates encounter met (.unknownLevel encounter.name record.level)
  | duplicateField {record : MetadataRecord} {before after : List MetadataEntry}
      {entry : MetadataEntry} :
      encounter.name ∉ met → encounter.record? = some record → record.LevelKnown →
        record.entries = before ++ entry :: after →
        (before.map MetadataEntry.shortName).Nodup →
        entry.shortName ∈ before.map MetadataEntry.shortName →
        Violates encounter met (.duplicateField encounter.name entry.shortName)

/-- What a sound declared error leaves pending. -/
structure Leaves (encounter : Encounter) (pending : PendingError) : Prop where
  name_eq : pending.name = encounter.name
  interface_eq : pending.interface = encounter.interface
  message_eq : pending.message = encounter.declaration.description
  parent_eq : pending.parent = encounter.declaration.parent?
  record : ∃ record, encounter.record? = some record ∧
    Level.ofToken? record.level = some pending.level ∧
    record.shortNames.Nodup ∧ pending.entries = record.entries

theorem Violates.of_same_met {encounter : Encounter} {met met' : List String}
    {error : CompileError} (hmet : ∀ name, name ∈ met ↔ name ∈ met')
    (hviolates : encounter.Violates met error) : encounter.Violates met' error := by
  cases hviolates with
  | duplicateName hmem => exact .duplicateName ((hmet _).mp hmem)
  | missingMetadata hfresh hrecord =>
      exact .missingMetadata (mt (hmet _).mpr hfresh) hrecord
  | unknownLevel hfresh hrecord hlevel =>
      exact .unknownLevel (mt (hmet _).mpr hfresh) hrecord hlevel
  | duplicateField hfresh hrecord hlevel hentries hnodup hrepeats =>
      exact .duplicateField (mt (hmet _).mpr hfresh) hrecord hlevel hentries hnodup hrepeats

theorem pendingWith_of_unknownLevel {encounter : Encounter} {record : MetadataRecord}
    (hlevel : ¬ record.LevelKnown) :
    encounter.pendingWith record =
      .error (.unknownLevel encounter.name record.level) := by
  rw [MetadataRecord.levelKnown_iff, ← Option.ne_none_iff_exists', not_ne_iff] at hlevel
  simp only [pendingWith, hlevel]

theorem pendingWith_of_duplicateField {encounter : Encounter} {record : MetadataRecord}
    {field : String} (hlevel : record.LevelKnown)
    (hrepeated : firstRepeated? [] record.shortNames = some field) :
    encounter.pendingWith record = .error (.duplicateField encounter.name field) := by
  rcases MetadataRecord.levelKnown_iff.mp hlevel with ⟨level, hlevel⟩
  rw [MetadataRecord.shortNames] at hrepeated
  simp only [pendingWith, hlevel, hrepeated]

theorem leaves_of_pendingWith {encounter : Encounter} {record : MetadataRecord}
    (hrecord : encounter.record? = some record) (hlevel : record.LevelKnown)
    (hnodup : record.shortNames.Nodup) :
    ∃ pending, encounter.pendingWith record = .ok pending ∧ encounter.Leaves pending := by
  rcases MetadataRecord.levelKnown_iff.mp hlevel with ⟨level, hlevel⟩
  have hrepeated : firstRepeated? [] record.shortNames = none :=
    firstRepeated?_eq_none_iff.mpr ⟨hnodup, by simp⟩
  rw [MetadataRecord.shortNames] at hrepeated
  simp only [pendingWith, hlevel, hrepeated, Except.ok.injEq]
  exact ⟨_, rfl, rfl, rfl, rfl, rfl, record, hrecord, hlevel, hnodup, rfl⟩

theorem Leaves.unique {encounter : Encounter} {pending other : PendingError}
    (hpending : encounter.Leaves pending) (hother : encounter.Leaves other) :
    pending = other := by
  rcases hpending.record with ⟨record, hrecord, hlevel, -, hentries⟩
  rcases hother.record with ⟨record', hrecord', hlevel', -, hentries'⟩
  obtain rfl := Option.some.inj (hrecord.symm.trans hrecord')
  have hlevels := Option.some.inj (hlevel.symm.trans hlevel')
  cases pending
  cases other
  simp only [PendingError.mk.injEq]
  exact ⟨hpending.name_eq.trans hother.name_eq.symm,
    hpending.interface_eq.trans hother.interface_eq.symm,
    hpending.message_eq.trans hother.message_eq.symm, hlevels,
    hpending.parent_eq.trans hother.parent_eq.symm, hentries.trans hentries'.symm⟩

theorem pending_spec (encounter : Encounter) (met : List String) :
    match encounter.pending met with
    | .ok pending => encounter.name ∉ met ∧ encounter.Leaves pending
    | .error error => encounter.Violates met error := by
  unfold pending
  by_cases hmet : encounter.name ∈ met
  · rw [if_pos hmet]
    exact .duplicateName hmet
  · rw [if_neg hmet]
    cases hrecord : encounter.record? with
    | none => exact .missingMetadata hmet hrecord
    | some record =>
        by_cases hlevel : record.LevelKnown
        · cases hrepeated : firstRepeated? [] record.shortNames with
          | none =>
              rcases firstRepeated?_eq_none_iff.mp hrepeated with ⟨hnodup, -⟩
              obtain ⟨pending, hpending, hleaves⟩ :=
                leaves_of_pendingWith hrecord hlevel hnodup
              simp only [hpending]
              exact ⟨hmet, hleaves⟩
          | some field =>
              simp only [pendingWith_of_duplicateField hlevel hrepeated]
              obtain ⟨before, after, hsplit, hnodup, -, hrepeats⟩ :=
                firstRepeated?_eq_some_iff.mp hrepeated
              obtain ⟨first, rest, hentries, rfl, hrest⟩ := List.map_eq_append_iff.mp hsplit
              rcases List.map_eq_cons_iff.mp hrest with ⟨entry, rest, rfl, rfl, -⟩
              refine .duplicateField hmet hrecord hlevel hentries hnodup ?_
              simpa using hrepeats
        · simp only [pendingWith_of_unknownLevel hlevel]
          exact .unknownLevel hmet hrecord hlevel

theorem pending_of_record {encounter : Encounter} {met : List String}
    {record : MetadataRecord} (hfresh : encounter.name ∉ met)
    (hrecord : encounter.record? = some record) :
    encounter.pending met = encounter.pendingWith record := by
  simp only [pending, if_neg hfresh, hrecord]

theorem pending_eq_error_iff {encounter : Encounter} {met : List String}
    {error : CompileError} :
    encounter.pending met = .error error ↔ encounter.Violates met error := by
  constructor
  · intro hpending
    have hspec := encounter.pending_spec met
    rwa [hpending] at hspec
  · intro hviolates
    cases hviolates with
    | duplicateName hmem => simp only [pending, if_pos hmem]
    | missingMetadata hfresh hrecord => simp only [pending, if_neg hfresh, hrecord]
    | unknownLevel hfresh hrecord hlevel =>
        rw [pending_of_record hfresh hrecord, pendingWith_of_unknownLevel hlevel]
    | @duplicateField record before after entry hfresh hrecord hlevel hentries hnodup hrepeats =>
        rw [pending_of_record hfresh hrecord]
        refine pendingWith_of_duplicateField hlevel (firstRepeated?_eq_some_iff.mpr ?_)
        refine ⟨before.map MetadataEntry.shortName, after.map MetadataEntry.shortName, ?_,
          hnodup, by simp, .inr hrepeats⟩
        rw [MetadataRecord.shortNames, hentries, List.map_append, List.map_cons]

theorem pending_eq_ok_iff {encounter : Encounter} {met : List String}
    {pending : PendingError} :
    encounter.pending met = .ok pending ↔
      encounter.name ∉ met ∧ encounter.Leaves pending := by
  constructor
  · intro hpending
    have hspec := encounter.pending_spec met
    rwa [hpending] at hspec
  · rintro ⟨hfresh, hleaves⟩
    rcases hleaves.record with ⟨record, hrecord, hlevel, hnodup, -⟩
    have hknown : record.LevelKnown :=
      MetadataRecord.levelKnown_iff.mpr ⟨_, hlevel⟩
    rcases leaves_of_pendingWith hrecord hknown hnodup with ⟨other, hother, hleaves'⟩
    rw [pending_of_record hfresh hrecord, hother, hleaves.unique hleaves']

theorem sound_iff_leaves (encounter : Encounter) :
    encounter.Sound ↔ ∃ pending, encounter.Leaves pending := by
  constructor
  · rintro ⟨record, hrecord, hlevel, hnodup⟩
    rcases leaves_of_pendingWith hrecord hlevel hnodup with ⟨pending, -, hleaves⟩
    exact ⟨pending, hleaves⟩
  · rintro ⟨pending, hleaves⟩
    rcases hleaves.record with ⟨record, hrecord, hlevel, hnodup, -⟩
    exact ⟨record, hrecord, MetadataRecord.levelKnown_iff.mpr ⟨_, hlevel⟩, hnodup⟩

end Encounter

theorem outcome_validateAll_eq_ok_iff {met : List String} {encounters : List Encounter}
    {pending : List PendingError} :
    (validateAll met encounters).outcome = .ok pending ↔
      (encounters.map Encounter.name).Nodup ∧
        (∀ encounter ∈ encounters, encounter.name ∉ met) ∧
        List.Forall₂ Encounter.Leaves encounters pending := by
  induction encounters generalizing met pending with
  | nil =>
      rw [validateAll, Traced.outcome_pure, List.forall₂_nil_left_iff]
      simp [eq_comm]
  | cons encounter rest ih =>
      rw [validateAll, Traced.outcome_bind, outcome_validated, bind_eq_ok_iff,
        List.forall₂_cons_left_iff, List.map_cons, List.nodup_cons, List.forall_mem_cons]
      simp only [Traced.outcome_bind, bind_eq_ok_iff, Traced.outcome_pure,
        Except.ok.injEq, ih, Encounter.pending_eq_ok_iff, List.mem_cons, not_or, List.mem_map,
        not_exists, not_and]
      constructor
      · rintro ⟨first, ⟨hfresh, hleaves⟩, others, ⟨hnodup, hrest, hothers⟩, rfl⟩
        exact ⟨⟨fun other hmem heq => (hrest other hmem).1 heq, hnodup⟩,
          ⟨hfresh, fun other hmem => (hrest other hmem).2⟩, first, others, hleaves, hothers, rfl⟩
      · rintro ⟨⟨hhead, hnodup⟩, ⟨hfresh, hrest⟩, first, others, hleaves, hothers, rfl⟩
        exact ⟨first, ⟨hfresh, hleaves⟩, others,
          ⟨hnodup, fun other hmem => ⟨fun heq => hhead other hmem heq, hrest other hmem⟩,
            hothers⟩, rfl⟩

theorem exists_outcome_validateAll_cons {met : List String} {encounter : Encounter}
    {rest : List Encounter} :
    (∃ pending, (validateAll met (encounter :: rest)).outcome = .ok pending) ↔
      (∃ first, encounter.pending met = .ok first) ∧
        ∃ others, (validateAll (encounter.name :: met) rest).outcome = .ok others := by
  simp only [validateAll, Traced.outcome_bind, outcome_validated, bind_eq_ok_iff,
    Traced.outcome_pure, Except.ok.injEq]
  constructor
  · rintro ⟨_, first, hfirst, others, hothers, rfl⟩
    exact ⟨⟨first, hfirst⟩, others, hothers⟩
  · rintro ⟨⟨first, hfirst⟩, others, hothers⟩
    exact ⟨_, first, hfirst, others, hothers, rfl⟩

theorem outcome_validateAll_eq_error_iff {met : List String}
    {encounters : List Encounter} {error : CompileError} :
    (validateAll met encounters).outcome = .error error ↔
      ∃ before encounter after, encounters = before ++ encounter :: after ∧
        (∃ pending, (validateAll met before).outcome = .ok pending) ∧
        encounter.Violates (before.map Encounter.name ++ met) error := by
  induction encounters generalizing met with
  | nil => simp [validateAll]
  | cons first rest ih =>
      have hsame : ∀ (before : List Encounter) (name : String),
          name ∈ before.map Encounter.name ++ first.name :: met ↔
            name ∈ (first :: before).map Encounter.name ++ met := by
        intro before name
        simp only [List.mem_append, List.mem_cons, List.map_cons]
        tauto
      rw [validateAll, Traced.outcome_bind, outcome_validated, bind_eq_error_iff,
        Encounter.pending_eq_error_iff]
      simp only [Traced.outcome_bind, bind_eq_error_iff, Traced.outcome_pure, reduceCtorEq,
        and_false, exists_false, or_false, ih]
      constructor
      · rintro (hviolates | ⟨pending, hpending, before, encounter, after, rfl, hbefore, hviolates⟩)
        · exact ⟨[], first, rest, rfl, ⟨[], rfl⟩, hviolates⟩
        · refine ⟨first :: before, encounter, after, rfl, ?_, hviolates.of_same_met (hsame before)⟩
          exact exists_outcome_validateAll_cons.mpr ⟨⟨pending, hpending⟩, hbefore⟩
      · rintro ⟨before, encounter, after, hlist, hbefore, hviolates⟩
        cases before with
        | nil =>
            rcases List.cons.inj hlist with ⟨rfl, rfl⟩
            exact .inl hviolates
        | cons other before =>
            rcases List.cons.inj hlist with ⟨rfl, rfl⟩
            obtain ⟨⟨pending, hpending⟩, hrest⟩ := exists_outcome_validateAll_cons.mp hbefore
            exact .inr ⟨pending, hpending, before, encounter, after, rfl, hrest,
              hviolates.of_same_met fun name => (hsame before name).symm⟩

theorem exists_outcome_validateAll_iff {encounters : List Encounter} :
    (∃ pending, (validateAll [] encounters).outcome = .ok pending) ↔
      (encounters.map Encounter.name).Nodup ∧ ∀ encounter ∈ encounters, encounter.Sound := by
  simp only [outcome_validateAll_eq_ok_iff, Encounter.sound_iff_leaves,
    ← exists_forall₂_iff, List.not_mem_nil, not_false_eq_true, implies_true, true_and,
    exists_and_left]

end ErrorTaxonomy
