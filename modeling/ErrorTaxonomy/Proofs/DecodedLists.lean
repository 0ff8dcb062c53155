import ErrorTaxonomy.DefinitionText
import ErrorTaxonomy.Proofs.FirstFailure

/-!
# Decoded lists

A definition text that is not blank holds one document, and the document a list.  Its
items are read one after the other, so the values stand in the order of the items, one
for each of them.
-/

namespace ErrorTaxonomy

variable {α : Type}

namespace Yaml

/-- Items are read in turn, from a position on: each with the number of aliases that the
items before it have left to follow, where the last number is what is left in the end. -/
inductive ReadInTurn (reader : Reader α) (document : Document) (path : Path) :
    Nat → List Node → Nat → List α → Nat → Prop
  | nil {position budget : Nat} : ReadInTurn reader document path position [] budget [] budget
  | cons {position budget middle left : Nat} {node : Node} {nodes : List Node} {value : α}
      {values : List α} :
      reader document (.item path position) node budget = .ok (value, middle) →
        ReadInTurn reader document path (position + 1) nodes middle values left →
        ReadInTurn reader document path position (node :: nodes) budget (value :: values) left

/-- A document in which nothing is wrong and which nothing follows. -/
structure Document.IsWhole (document : Document) : Prop where
  fault_eq : document.fault = none
  alone : document.isAlone = true

/-- What a document holds in place of a list: nothing at all, a plain scalar without
characters, or a sequence of items. -/
inductive Document.Lists (document : Document) (reader : Reader α) : List α → Prop
  | absent : document.root = none → document.Lists reader []
  | empty {root node : Node} {left : Nat} :
      document.root = some root →
        resolve document root (aliasesPerEvent * document.events) = .ok (node, left) →
        isEmptyPlain node = true → document.Lists reader []
  | items {root : Node} {mark : Mark} {nodes : List Node} {budget left : Nat}
      {values : List α} :
      document.root = some root →
        resolve document root (aliasesPerEvent * document.events) =
          .ok (.sequence mark nodes, budget) →
        ReadInTurn reader document .root 0 nodes budget values left →
        document.Lists reader values

section Reading

variable {reader : Reader α} {document : Document} {path : Path} {values : List α}
  {left : Nat}

theorem readItems_eq_ok_iff {position budget : Nat} {nodes : List Node} :
    readItems reader document path position nodes budget = .ok (values, left) ↔
      ReadInTurn reader document path position nodes budget values left := by
  induction nodes generalizing position budget values with
  | nil =>
      constructor
      · intro hread
        obtain ⟨rfl, rfl⟩ := Prod.mk.inj (Except.ok.inj hread)
        exact .nil
      · intro hturn
        cases hturn
        rfl
  | cons node nodes ih =>
      constructor
      · intro hread
        obtain ⟨⟨value, middle⟩, hvalue, hread⟩ := bind_eq_ok_iff.mp hread
        obtain ⟨⟨others, rest⟩, hothers, hread⟩ := bind_eq_ok_iff.mp hread
        obtain ⟨rfl, rfl⟩ := Prod.mk.inj (Except.ok.inj hread)
        exact .cons hvalue (ih.mp hothers)
      · intro hturn
        cases hturn with
        | cons hvalue hrest =>
            refine bind_eq_ok_iff.mpr ⟨_, hvalue, ?_⟩
            exact bind_eq_ok_iff.mpr ⟨_, ih.mpr hrest, rfl⟩

theorem readList_eq_ok_iff {node : Node} {budget : Nat} :
    readList reader document path node budget = .ok (values, left) ↔
      (∃ found, resolve document node budget = .ok (found, left) ∧
        isEmptyPlain found = true ∧ values = []) ∨
      ∃ mark nodes middle, resolve document node budget = .ok (.sequence mark nodes, middle) ∧
        ReadInTurn reader document path 0 nodes middle values left := by
  unfold readList
  rw [bind_eq_ok_iff]
  constructor
  · intro hread
    rcases hread with ⟨⟨found, middle⟩, hresolve, hread⟩
    cases found with
    | sequence mark nodes =>
        exact .inr ⟨mark, nodes, middle, hresolve, readItems_eq_ok_iff.mp hread⟩
    | _ =>
        simp only at hread
        split at hread
        next hempty =>
          obtain ⟨rfl, rfl⟩ := Prod.mk.inj (Except.ok.inj hread)
          exact .inl ⟨_, hresolve, hempty, rfl⟩
        next => cases hread
  · intro hread
    rcases hread with ⟨found, hresolve, hempty, rfl⟩ | ⟨mark, nodes, middle, hresolve, hturn⟩
    · refine ⟨_, hresolve, ?_⟩
      cases found with
      | sequence mark nodes => cases hempty
      | _ => simp only [hempty, if_true]; rfl
    · exact ⟨_, hresolve, readItems_eq_ok_iff.mpr hturn⟩

/-- The values at the root of a document, where the rest of it may still be wrong. -/
def rootValues (reader : Reader α) (document : Document) : Except Failure (List α) :=
  match document.root with
  | none => .ok []
  | some root =>
      ((readList reader document .root root (aliasesPerEvent * document.events)).map
        Prod.fst).mapError (DecodeFailure.failure document)

theorem rootValues_eq_ok_iff :
    rootValues reader document = .ok values ↔ document.Lists reader values := by
  constructor
  · intro hvalues
    unfold rootValues at hvalues
    cases hroot : document.root with
    | none =>
        simp only [hroot] at hvalues
        obtain rfl := Except.ok.inj hvalues
        exact .absent hroot
    | some root =>
        simp only [hroot, mapError_eq_ok_iff] at hvalues
        cases hread : readList reader document .root root
            (aliasesPerEvent * document.events) with
        | error failure => simp [hread, Except.map] at hvalues
        | ok result =>
            obtain ⟨others, left⟩ := result
            rw [hread] at hvalues
            obtain rfl := Except.ok.inj hvalues
            rcases readList_eq_ok_iff.mp hread with
              ⟨node, hresolve, hempty, hnil⟩ | ⟨mark, nodes, middle, hresolve, hturn⟩
            · rw [hnil]
              exact .empty hroot hresolve hempty
            · exact .items hroot hresolve hturn
  · intro hlists
    unfold rootValues
    cases hlists with
    | absent hroot => rw [hroot]
    | empty hroot hresolve hempty =>
        simp only [hroot, readList_eq_ok_iff.mpr (.inl ⟨_, hresolve, hempty, rfl⟩)]
        rfl
    | items hroot hresolve hturn =>
        simp only [hroot, readList_eq_ok_iff.mpr (.inr ⟨_, _, _, hresolve, hturn⟩)]
        rfl

theorem decodeDocument_of_isWhole (hwhole : document.IsWhole) :
    decodeDocument reader document = rootValues reader document := by
  unfold decodeDocument rootValues
  simp only [hwhole.fault_eq, hwhole.alone, if_true]
  cases document.root with
  | none => rfl
  | some root =>
      simp only
      cases readList reader document .root root (aliasesPerEvent * document.events) with
      | error failure => rfl
      | ok result => rfl

theorem isWhole_of_decodeDocument (hdecoded : decodeDocument reader document = .ok values) :
    document.IsWhole := by
  unfold decodeDocument at hdecoded
  -- what is wrong is looked at after the root, so the cases of the root come first
  constructor
  · by_contra hwrong
    obtain ⟨fault, hfault⟩ := Option.ne_none_iff_exists'.mp hwrong
    simp only [hfault] at hdecoded
    split at hdecoded
    · cases hdecoded
    · split at hdecoded <;> cases hdecoded
  · by_contra hmore
    simp only [hmore] at hdecoded
    split at hdecoded
    · cases hfault : document.fault <;> simp only [hfault] at hdecoded <;> cases hdecoded
    · split at hdecoded
      · cases hfault : document.fault <;> simp only [hfault] at hdecoded <;> cases hdecoded
      · cases hdecoded

theorem decodeDocument_eq_ok_iff :
    decodeDocument reader document = .ok values ↔
      document.IsWhole ∧ document.Lists reader values := by
  constructor
  · intro hdecoded
    have hwhole := isWhole_of_decodeDocument hdecoded
    rw [decodeDocument_of_isWhole hwhole, rootValues_eq_ok_iff] at hdecoded
    exact ⟨hwhole, hdecoded⟩
  · intro hdecoded
    rw [decodeDocument_of_isWhole hdecoded.1, rootValues_eq_ok_iff]
    exact hdecoded.2

end Reading

end Yaml

/-- The list that a definition text holds. -/
inductive Defines (reader : Yaml.Reader α) (text : String) : List α → Prop
  | blank : isBlankText text = true → Defines reader text []
  | document {values : List α} :
      isBlankText text = false → (Yaml.readDocument text.toList).IsWhole →
        (Yaml.readDocument text.toList).Lists reader values → Defines reader text values

theorem parseDefinitions_eq_ok_iff {reader : Yaml.Reader α} {text : String}
    {values : List α} :
    parseDefinitions reader text = .ok values ↔ Defines reader text values := by
  unfold parseDefinitions
  by_cases hblank : isBlankText text = true
  · rw [if_pos hblank]
    constructor
    · intro hparsed
      obtain rfl := Except.ok.inj hparsed
      exact .blank hblank
    · intro hdefines
      cases hdefines with
      | blank _ => rfl
      | document hcontent _ _ => rw [hblank] at hcontent; cases hcontent
  · rw [if_neg hblank, Yaml.decodeList, Yaml.decodeDocument_eq_ok_iff]
    constructor
    · intro hparsed
      exact .document (Bool.eq_false_iff.mpr hblank) hparsed.1 hparsed.2
    · intro hdefines
      cases hdefines with
      | blank hcontra => exact absurd hcontra hblank
      | document _ hwhole hlists => exact ⟨hwhole, hlists⟩

end ErrorTaxonomy
