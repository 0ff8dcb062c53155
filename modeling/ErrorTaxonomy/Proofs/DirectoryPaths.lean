import ErrorTaxonomy.Proofs.FileEntries
import ErrorTaxonomy.Proofs.PathSegments

/-!
# Paths into directories

A path that is made of a directory and a name leads to where the name leads from the
directory, and so does the path that is made of its parent and the name.  A directory
that is listed shows the names of the entries right below it, once each.
-/

namespace ErrorTaxonomy

namespace FileTree

variable {tree : FileTree} {path name : String} {location : Location}

/-- A path is that of a directory, which stands at a location and shows all its names. -/
structure NamesDirectory (tree : FileTree) (path : String) (location : Location) : Prop where
  ne_empty : path ≠ ""
  walk_eq : tree.walk (tree.walkStart path) (pathNames path) = .ok location
  entry_eq : tree.entry? location = some (.directory {})

theorem NamesDirectory.requireDirectory_eq (hdirectory : tree.NamesDirectory path location) :
    tree.requireDirectory location = .ok () :=
  requireDirectory_eq_ok_iff.mpr ⟨_, hdirectory.entry_eq⟩

theorem walk_dots {start : Location} {dots : List String} (hdots : ∀ name ∈ dots, name = ".")
    (hwalk : tree.walk start dots = .ok location) : start = location := by
  induction dots with
  | nil => exact Except.ok.inj hwalk
  | cons name dots ih =>
      rw [List.forall_mem_cons] at hdots
      rw [walk_cons, hdots.1] at hwalk
      obtain ⟨_, _, hrest⟩ := bind_eq_ok_iff.mp hwalk
      exact ih hdots.2 hrest

theorem NamesDirectory.of_locate (hlocate : tree.locate path = .ok location)
    (hentry : tree.entry? location = some (.directory {})) :
    tree.NamesDirectory path location := by
  unfold FileTree.locate at hlocate
  by_cases hpath : path = ""
  · simp [hpath] at hlocate
  · rw [if_neg hpath, walk_append] at hlocate
    obtain ⟨middle, hmiddle, hrest⟩ := bind_eq_ok_iff.mp hlocate
    have hsame : middle = location := walk_dots (by split <;> simp) hrest
    exact ⟨hpath, hsame ▸ hmiddle, hentry⟩

theorem NamesDirectory.locate_eq (hdirectory : tree.NamesDirectory path location) :
    tree.locate path = .ok location := by
  rw [FileTree.locate, if_neg hdirectory.ne_empty, walk_append, hdirectory.walk_eq]
  change tree.walk location _ = _
  by_cases hslash : endsInSlash path = true
  · rw [if_pos hslash, walk_cons, hdirectory.requireDirectory_eq]
    rfl
  · rw [if_neg hslash]
    rfl

theorem NamesDirectory.unique {other : Location}
    (hdirectory : tree.NamesDirectory path location) (hother : tree.NamesDirectory path other) :
    location = other :=
  Except.ok.inj (hdirectory.locate_eq.symm.trans hother.locate_eq)

/-- A name below a directory leads to where the name leads from there. -/
theorem NamesDirectory.locate_joinPath (hdirectory : tree.NamesDirectory path location)
    (hne : name ≠ "") (hslash : '/' ∉ name.toList) :
    tree.locate (joinPath path name) = .ok (follow location name) := by
  obtain ⟨between, hjoined⟩ := toList_joinPath_eq hdirectory.ne_empty hslash
  have hchars := toList_ne_nil hne
  have hpathChars := toList_ne_nil hdirectory.ne_empty
  have hjoinedNe : joinPath path name ≠ "" := by
    rw [ne_eq, ← String.toList_eq_nil_iff, hjoined]
    simp [hpathChars]
  have hstart : tree.walkStart (joinPath path name) = tree.walkStart path := by
    rw [walkStart, walkStart, hjoined, List.head?_append_of_ne_nil _ hpathChars]
  have hends : endsInSlash (joinPath path name) = false := by
    rw [endsInSlash, decide_eq_false_iff_not, hjoined, ← List.append_assoc,
      List.getLast?_append_of_ne_nil _ hchars]
    exact fun hlast => hslash (List.mem_of_getLast? hlast)
  rw [locate, if_neg hjoinedNe, hends, hstart,
    pathNames_joinPath hdirectory.ne_empty hne hslash]
  simp only [Bool.false_eq_true, if_false, List.append_nil]
  rw [walk_append, hdirectory.walk_eq]
  change tree.walk location [name] = _
  rw [walk_cons, hdirectory.requireDirectory_eq]
  rfl

/-- The parent of a path below a directory is that directory, under one of its names. -/
theorem NamesDirectory.parent (hdirectory : tree.NamesDirectory path location)
    (hname : IsFileName name) :
    tree.NamesDirectory ((parentPath? (joinPath path name)).getD "") location := by
  obtain ⟨parent, dots, hparent, hne, hhead, hnames, hdots⟩ :=
    parentPath?_joinPath hdirectory.ne_empty hname
  have hstart : tree.walkStart parent = tree.walkStart path := by
    simp only [walkStart, hhead]
  have hwalk := hdirectory.walk_eq
  rw [hnames, walk_append, ← hstart] at hwalk
  obtain ⟨middle, hmiddle, hrest⟩ := bind_eq_ok_iff.mp hwalk
  obtain rfl := walk_dots hdots hrest
  rw [hparent]
  exact ⟨hne, hmiddle, hdirectory.entry_eq⟩

theorem follow_eq_append (hname : IsFileName name) (location : Location) :
    follow location name = location ++ [name] := by
  rw [follow, if_neg hname.ne_here, if_neg hname.ne_above]

/-! ## Entries -/

/-- Every entry is reached by names that a path can spell. -/
def WellNamed (tree : FileTree) : Prop :=
  ∀ entry ∈ tree.entries, ∀ name ∈ entry.1, IsFileName name

theorem entry?_eq_some_iff {entry : FileEntry} (hlocation : location ≠ []) :
    tree.entry? location = some entry ↔ (location, entry) ∈ tree.entries := by
  rw [FileTree.entry?, if_neg hlocation, Option.map_eq_some_iff]
  constructor
  · rintro ⟨⟨place, found⟩, hfound, rfl⟩
    have hplace := List.find?_some hfound
    obtain rfl : place = location := by simpa using hplace
    exact List.mem_of_find?_eq_some hfound
  · intro hmem
    cases hfound : tree.entries.find? fun other => other.1 = location with
    | none =>
        have hnever := List.find?_eq_none.mp hfound _ hmem
        simp at hnever
    | some found =>
        have hplace : found.1 = location := by simpa using List.find?_some hfound
        have hsame : found = (location, entry) :=
          List.inj_on_of_nodup_map tree.distinct (List.mem_of_find?_eq_some hfound) hmem hplace
        exact ⟨found, rfl, by rw [hsame]⟩

instance (tree : FileTree) : Decidable tree.WellNamed :=
  inferInstanceAs (Decidable (∀ entry ∈ tree.entries, ∀ name ∈ entry.1, IsFileName name))

theorem WellNamed.isFileName (hnamed : tree.WellNamed)
    (hentry : tree.entry? (location ++ [name]) ≠ none) : IsFileName name := by
  obtain ⟨entry, hsome⟩ := Option.ne_none_iff_exists'.mp hentry
  have hmem : (location ++ [name], entry) ∈ tree.entries :=
    (entry?_eq_some_iff (by simp)).mp hsome
  exact hnamed _ hmem name (by simp)

theorem nameIn?_eq_some_iff {directory : Location} :
    nameIn? directory location = some name ↔ location = directory ++ [name] := by
  constructor
  · intro hname
    unfold nameIn? at hname
    by_cases hparent : location.dropLast = directory
    · rw [if_pos hparent] at hname
      rw [← hparent, List.dropLast_append_getLast? name hname]
    · simp [if_neg hparent] at hname
  · rintro rfl
    simp [nameIn?]

/-- Why a directory cannot be listed: its path leads nowhere, nothing stands where it
leads, what stands there is not a directory, or the system does not open it or breaks
off while its names are enumerated. -/
inductive Unlistable (tree : FileTree) (path : String) : SystemFault → Prop
  | unreachable {fault : SystemFault} :
      tree.locate path = .error fault → Unlistable tree path fault
  | absent {location : Location} :
      tree.locate path = .ok location → tree.entry? location = none →
        Unlistable tree path .notFound
  | file {location : Location} {content : ByteArray} {refusal : Option SystemFault} :
      tree.locate path = .ok location →
        tree.entry? location = some (.file content refusal) →
        Unlistable tree path .notADirectory
  | closed {location : Location} {refusals : DirectoryRefusals} {fault : SystemFault} :
      tree.locate path = .ok location →
        tree.entry? location = some (.directory refusals) →
        refusals.opening = some fault → Unlistable tree path fault
  | brokenOff {location : Location} {refusals : DirectoryRefusals} {fault : SystemFault} :
      tree.locate path = .ok location →
        tree.entry? location = some (.directory refusals) → refusals.opening = none →
        refusals.continuing = some fault → Unlistable tree path fault

theorem mapM_enumerated (names : List String) (refusal : Option SystemFault) :
    (names.map Except.ok ++ refusal.toList.map Except.error).mapM id =
      unlessRefused refusal (.ok names) := by
  induction names with
  | nil => cases refusal <;> rfl
  | cons name names ih =>
      rw [List.map_cons, List.cons_append, List.mapM_cons, ih]
      cases refusal <;> rfl

/-- What a located entry shows of the names below it. -/
def listEntry (tree : FileTree) (location : Location) :
    Option FileEntry → Except SystemFault (List String)
  | none => .error .notFound
  | some (.file _ _) => .error .notADirectory
  | some (.directory refusals) =>
      unlessRefused refusals.opening
        (unlessRefused refusals.continuing (.ok (tree.namesIn location)))

theorem listDirectory_eq (tree : FileTree) (path : String) :
    tree.listDirectory path =
      (tree.locate path >>= fun location =>
        tree.listEntry location (tree.entry? location)) := by
  unfold listDirectory enumerate
  cases tree.locate path with
  | error fault => rfl
  | ok location =>
      rw [ok_bind, ok_bind]
      cases tree.entry? location with
      | none => rfl
      | some entry =>
          cases entry with
          | file content refusal => rfl
          | directory refusals =>
              simp only [listEntry]
              cases refusals.opening with
              | some fault => rfl
              | none => exact mapM_enumerated _ _

theorem listEntry_eq_ok_iff {entry : Option FileEntry} {names : List String} :
    tree.listEntry location entry = .ok names ↔
      entry = some (.directory {}) ∧ tree.namesIn location = names := by
  cases entry with
  | none => simp [listEntry]
  | some entry =>
      cases entry with
      | file content refusal => simp [listEntry]
      | directory refusals =>
          rcases refusals with ⟨opening, continuing⟩
          simp [listEntry, unlessRefused_eq_ok_iff, and_assoc]

theorem listDirectory_eq_ok_iff {names : List String} :
    tree.listDirectory path = .ok names ↔
      ∃ location, tree.NamesDirectory path location ∧ tree.namesIn location = names := by
  rw [listDirectory_eq, bind_eq_ok_iff]
  simp only [listEntry_eq_ok_iff]
  constructor
  · intro hlisted
    rcases hlisted with ⟨location, hlocate, hentry, hnames⟩
    exact ⟨location, .of_locate hlocate hentry, hnames⟩
  · intro hlisted
    rcases hlisted with ⟨location, hdirectory, hnames⟩
    exact ⟨location, hdirectory.locate_eq, hdirectory.entry_eq, hnames⟩

theorem listDirectory_eq_error_iff {fault : SystemFault} :
    tree.listDirectory path = .error fault ↔ tree.Unlistable path fault := by
  rw [listDirectory_eq, bind_eq_error_iff]
  constructor
  · intro hfault
    rcases hfault with hlocate | ⟨location, hlocate, hlisted⟩
    · exact .unreachable hlocate
    · cases hentry : tree.entry? location with
      | none =>
          rw [hentry] at hlisted
          obtain rfl := Except.error.inj hlisted
          exact .absent hlocate hentry
      | some entry =>
          rw [hentry] at hlisted
          cases entry with
          | file content refusal =>
              obtain rfl := Except.error.inj hlisted
              exact .file hlocate hentry
          | directory refusals =>
              rcases unlessRefused_eq_error_iff.mp hlisted with hopening | ⟨hopened, hlisted⟩
              · exact .closed hlocate hentry hopening
              · rcases unlessRefused_eq_error_iff.mp hlisted with hcontinuing | ⟨-, hnever⟩
                · exact .brokenOff hlocate hentry hopened hcontinuing
                · cases hnever
  · intro hfault
    cases hfault with
    | unreachable hlocate => exact .inl hlocate
    | absent hlocate hentry => exact .inr ⟨_, hlocate, by rw [hentry]; rfl⟩
    | file hlocate hentry => exact .inr ⟨_, hlocate, by rw [hentry]; rfl⟩
    | closed hlocate hentry hopening =>
        refine .inr ⟨_, hlocate, ?_⟩
        rw [hentry]
        exact unlessRefused_eq_error_iff.mpr (.inl hopening)
    | brokenOff hlocate hentry hopened hcontinuing =>
        refine .inr ⟨_, hlocate, ?_⟩
        rw [hentry]
        refine unlessRefused_eq_error_iff.mpr (.inr ⟨hopened, ?_⟩)
        exact unlessRefused_eq_error_iff.mpr (.inl hcontinuing)

theorem mem_namesIn (tree : FileTree) (location : Location) (name : String) :
    name ∈ tree.namesIn location ↔ tree.entry? (location ++ [name]) ≠ none := by
  have hbelow : location ++ [name] ≠ [] := by simp
  rw [namesIn, List.mem_filterMap, Option.ne_none_iff_exists']
  simp only [nameIn?_eq_some_iff, entry?_eq_some_iff hbelow]
  constructor
  · rintro ⟨⟨place, entry⟩, hmem, rfl⟩
    exact ⟨entry, hmem⟩
  · rintro ⟨entry, hmem⟩
    exact ⟨_, hmem, rfl⟩

theorem NamesDirectory.mem_listDirectory (hdirectory : tree.NamesDirectory path location) :
    ∃ names, tree.listDirectory path = .ok names ∧
      ∀ name, name ∈ names ↔ tree.entry? (location ++ [name]) ≠ none :=
  ⟨_, listDirectory_eq_ok_iff.mpr ⟨location, hdirectory, rfl⟩, mem_namesIn tree location⟩

theorem exists_namesDirectory {names : List String}
    (hlisted : tree.listDirectory path = .ok names) :
    ∃ location, tree.NamesDirectory path location := by
  obtain ⟨location, hdirectory, -⟩ := listDirectory_eq_ok_iff.mp hlisted
  exact ⟨location, hdirectory⟩

end FileTree

end ErrorTaxonomy
