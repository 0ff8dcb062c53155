import ErrorTaxonomy.Model
import ErrorTaxonomy.Proofs.GraphConstruction

/-!
# Lookup in a model

Definitions with distinct names form a model that lists just them, in the order
given.  Where names are distinct, the name of a definition finds it and its
position.
-/

namespace ErrorTaxonomy

theorem find?_key_eq_some_iff {α : Type} {key : α → String} {list : List α}
    (hkeys : (list.map key).Nodup) {a : α} {name : String} :
    (list.find? fun other => key other = name) = some a ↔ a ∈ list ∧ key a = name := by
  constructor
  · intro hfind
    exact ⟨List.mem_of_find?_eq_some hfind, by simpa using List.find?_some hfind⟩
  · rintro ⟨hmem, rfl⟩
    cases hfind : list.find? fun other => key other = key a with
    | none =>
        have hnone := List.find?_eq_none.mp hfind a hmem
        simp at hnone
    | some other =>
        have hkey : key other = key a := by
          simpa using List.find?_some hfind
        rw [List.inj_on_of_nodup_map hkeys (List.mem_of_find?_eq_some hfind) hmem hkey]

namespace Model

variable {model : Model} {definition : Definition}

theorem contains_iff {name : String} : model.contains name = true ↔ name ∈ model.names := by
  simp [contains, names]

theorem get?_eq_none_iff {name : String} : model.get? name = none ↔ name ∉ model.names := by
  simp [get?, names, List.find?_eq_none]

theorem insert_of_notMem (hfresh : definition.name ∉ model.names) :
    model.insert definition = { definitions := model.definitions ++ [definition] } := by
  rw [← contains_iff] at hfresh
  rw [insert, if_neg hfresh]

/-- New names are appended one after the other. -/
theorem foldl_insert {definitions : List Definition}
    (hnames : ((model.definitions ++ definitions).map Definition.name).Nodup) :
    definitions.foldl insert model =
      { definitions := model.definitions ++ definitions } := by
  induction definitions generalizing model with
  | nil => rw [List.append_nil, List.foldl_nil]
  | cons definition rest ih =>
      have hfresh : definition.name ∉ model.names := by
        rw [List.map_append, List.map_cons, List.nodup_append] at hnames
        intro hmem
        exact hnames.2.2 _ hmem _ List.mem_cons_self rfl
      have hrest := @ih { definitions := model.definitions ++ [definition] } (by
        rwa [List.append_assoc, List.singleton_append])
      rw [List.foldl_cons, insert_of_notMem hfresh, hrest, List.append_assoc,
        List.singleton_append]

theorem ofDefinitions_eq {definitions : List Definition}
    (hnames : (definitions.map Definition.name).Nodup) :
    ofDefinitions definitions = { definitions } :=
  foldl_insert hnames

theorem position?_eq_some_iff (hnames : model.names.Nodup) {name : String}
    {position : Nat} :
    model.position? name = some position ↔ model.names[position]? = some name := by
  rw [← idxOf?_eq_some_iff_of_nodup hnames, names, List.idxOf?, List.findIdx?_map]
  rfl

theorem get?_eq_some_iff (hnames : model.names.Nodup) {name : String} :
    model.get? name = some definition ↔
      definition ∈ model.definitions ∧ definition.name = name :=
  find?_key_eq_some_iff hnames

end Model

end ErrorTaxonomy
