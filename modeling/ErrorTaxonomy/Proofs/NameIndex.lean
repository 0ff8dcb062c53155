import ErrorTaxonomy.InheritanceGraph
import Mathlib.Data.List.Nodup

/-!
# The index of the names

The index of a list of names finds a name under the position where the list has it
last.  A repeated name takes one place only, so the places behind it are shifted
against the positions in the list.  Where no name is repeated, every name has the
place that is its position, and the index lists the names as they are.
-/

namespace ErrorTaxonomy

/-- The position of the last element equal to the given one. -/
def lastIndex? {α : Type} [DecidableEq α] (a : α) : List α → Option Nat
  | [] => none
  | b :: rest =>
      match lastIndex? a rest with
      | some i => some (i + 1)
      | none => if b = a then some 0 else none

theorem lastIndex?_eq_idxOf? {α : Type} [DecidableEq α] (a : α) {list : List α}
    (hnodup : list.Nodup) : lastIndex? a list = list.idxOf? a := by
  induction list with
  | nil => rfl
  | cons b rest ih =>
      rcases List.nodup_cons.mp hnodup with ⟨hhead, hrest⟩
      rw [lastIndex?, ih hrest, List.idxOf?_cons]
      by_cases heq : b = a
      · subst heq
        simp [List.idxOf?_eq_none_iff.mpr hhead]
      · cases rest.idxOf? a <;> simp [heq]

theorem lastIndex?_eq_none_iff {α : Type} [DecidableEq α] {a : α} {list : List α} :
    lastIndex? a list = none ↔ a ∉ list := by
  induction list with
  | nil => simp [lastIndex?]
  | cons b rest ih =>
      rw [lastIndex?, List.mem_cons, not_or, ← ih]
      cases lastIndex? a rest <;> simp [eq_comm]

namespace NameIndex

variable {index : NameIndex} {names : List String} {name other : String} {node : Nat}

theorem find?_insertEntry (entries : List (String × Nat)) :
    ((insertEntry name node entries).find? fun entry => entry.1 = other) =
      if other = name then some (name, node)
      else entries.find? fun entry => entry.1 = other := by
  induction entries with
  | nil => simp [insertEntry, eq_comm]
  | cons entry rest ih =>
      rcases entry with ⟨key, number⟩
      rw [insertEntry]
      by_cases hkey : key = name
      · subst hkey
        by_cases heq : other = key <;> simp [heq, eq_comm]
      · rw [if_neg hkey, List.find?_cons, List.find?_cons, ih]
        by_cases heq : other = name
        · subst heq
          simp [hkey]
        · simp [heq]

theorem node?_insert :
    (index.insert name node).node? other =
      if other = name then some node else index.node? other := by
  rw [node?, insert, find?_insertEntry]
  split <;> rfl

/-- Names that are inserted decide over those that were there, and the last of equal
names over the earlier ones. -/
theorem node?_foldl_insert (first : Nat) :
    ((names.zipIdx first).foldl (fun index entry => index.insert entry.1 entry.2)
        index).node? name =
      ((lastIndex? name names).map (· + first)).or (index.node? name) := by
  induction names generalizing index first with
  | nil => simp [lastIndex?]
  | cons head rest ih =>
      rw [List.zipIdx_cons, List.foldl_cons, ih, node?_insert, lastIndex?]
      cases lastIndex? name rest with
      | some position => simp; omega
      | none => by_cases heq : name = head <;> simp [heq, eq_comm]

theorem node?_ofNames (names : List String) (name : String) :
    (ofNames names).node? name = lastIndex? name names := by
  rw [ofNames, node?_foldl_insert]
  simp [node?]

theorem insertEntry_of_notMem {entries : List (String × Nat)}
    (hfresh : name ∉ entries.map Prod.fst) :
    insertEntry name node entries = entries ++ [(name, node)] := by
  induction entries with
  | nil => rfl
  | cons entry rest ih =>
      rw [List.map_cons, List.mem_cons, not_or] at hfresh
      rw [insertEntry, if_neg (Ne.symm hfresh.1), ih hfresh.2, List.cons_append]

/-- Distinct names are appended one after the other. -/
theorem entries_foldl_insert (first : Nat)
    (hnames : (index.entries.map Prod.fst ++ names).Nodup) :
    ((names.zipIdx first).foldl (fun index entry => index.insert entry.1 entry.2)
        index).entries = index.entries ++ names.zipIdx first := by
  induction names generalizing index first with
  | nil => simp
  | cons head rest ih =>
      have hfresh : head ∉ index.entries.map Prod.fst := by
        intro hmem
        exact (List.nodup_append.mp hnames).2.2 head hmem head List.mem_cons_self rfl
      have hinsert : (index.insert head first).entries = index.entries ++ [(head, first)] :=
        insertEntry_of_notMem hfresh
      rw [List.zipIdx_cons, List.foldl_cons, ih, hinsert]
      · simp
      · rw [hinsert]
        simpa using hnames

theorem entries_ofNames (hnames : names.Nodup) : (ofNames names).entries = names.zipIdx := by
  rw [ofNames, entries_foldl_insert]
  · rfl
  · exact hnames

theorem name?_ofNames (hnames : names.Nodup) (place : Nat) :
    (ofNames names).name? place = names[place]? := by
  rw [name?, entries_ofNames hnames, ← List.getElem?_map, List.zipIdx_map_fst]

end NameIndex

end ErrorTaxonomy
