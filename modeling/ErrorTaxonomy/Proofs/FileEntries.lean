import ErrorTaxonomy.Files.FileTree
import ErrorTaxonomy.Proofs.FirstFailure
import Mathlib.Data.List.Nodup
import Mathlib.Data.List.Range

/-!
# Entries of a file tree

Setting an entry changes what stands at its location and nothing else, and a file
that was not there before is taken away without a trace.  A walk only asks which
locations are directories, so it ends at the same place in every tree that has
these directories; files that come and go on the way do not matter to it.
-/

namespace ErrorTaxonomy

/-! ## Refusals -/

section Refusals

variable {α : Type} {refusal : Option SystemFault} {fault : SystemFault}
  {attempt : Except SystemFault α} {value : α}

@[simp] theorem unlessRefused_none : unlessRefused none attempt = attempt := rfl

@[simp] theorem unlessRefused_some : unlessRefused (some fault) attempt = .error fault := rfl

theorem unlessRefused_eq_ok_iff :
    unlessRefused refusal attempt = .ok value ↔ refusal = none ∧ attempt = .ok value := by
  cases refusal <;> simp

theorem unlessRefused_eq_error_iff :
    unlessRefused refusal attempt = .error fault ↔
      refusal = some fault ∨ (refusal = none ∧ attempt = .error fault) := by
  cases refusal <;> simp

end Refusals

namespace FileTree

variable {tree other : FileTree} {location target : Location} {entry : FileEntry}
  {path : String}

section Entries

variable {entries : List (Location × FileEntry)}

theorem find?_replaced (hany : entries.any (fun other => other.1 = location) = true) :
    (entries.map fun other => if other.1 = location then (location, entry) else other).find?
        (fun other => other.1 = location) = some (location, entry) := by
  induction entries with
  | nil => simp at hany
  | cons first rest ih =>
      by_cases hfirst : first.1 = location
      · simp [hfirst]
      · have hrest : rest.any (fun other => other.1 = location) = true := by
          simpa [hfirst] using hany
        simp only [List.map_cons, if_neg hfirst]
        rw [List.find?_cons_of_neg (by simpa using hfirst)]
        exact ih hrest

theorem find?_kept {place : Location} (hplace : place ≠ location) :
    (entries.map fun other => if other.1 = location then (location, entry) else other).find?
        (fun other => other.1 = place) = entries.find? (fun other => other.1 = place) := by
  induction entries with
  | nil => rfl
  | cons first rest ih =>
      by_cases hfirst : first.1 = location
      · have hskipped : ¬ first.1 = place := fun heq => hplace (heq.symm.trans hfirst)
        simp only [List.map_cons, if_pos hfirst]
        rw [List.find?_cons_of_neg (by simpa using Ne.symm hplace),
          List.find?_cons_of_neg (by simpa using hskipped), ih]
      · simp only [List.map_cons, if_neg hfirst, List.find?_cons, ih]

theorem filter_replaced :
    (entries.map fun other =>
        if other.1 = location then (location, entry) else other).filter
        (fun other => !decide (other.1 = location)) =
      entries.filter (fun other => !decide (other.1 = location)) := by
  induction entries with
  | nil => rfl
  | cons first rest ih =>
      by_cases hfirst : first.1 = location
      · simpa [hfirst] using ih
      · simpa [hfirst] using ih

end Entries

theorem entry?_setEntry (hlocation : location ≠ []) (place : Location) :
    FileTree.entry? (tree.setEntry location entry) place =
      if place = location then some entry else tree.entry? place := by
  by_cases hroot : place = []
  · subst hroot
    simp [FileTree.entry?, setEntry, Ne.symm hlocation]
  · simp only [FileTree.entry?, if_neg hroot, setEntry, withEntry]
    by_cases hany : tree.entries.any (fun other => other.1 = location) = true
    · rw [if_pos hany]
      by_cases hplace : place = location
      · subst hplace
        simp [find?_replaced hany]
      · rw [if_neg hplace, find?_kept hplace]
    · rw [if_neg hany, List.find?_append]
      have hnone : tree.entries.find? (fun other => other.1 = location) = none := by
        rw [List.find?_eq_none]
        simpa only [List.any_eq_true, not_exists, not_and] using hany
      by_cases hplace : place = location
      · subst hplace
        simp [hnone]
      · simp [hplace, Ne.symm hplace]

theorem unlink_setEntry :
    (tree.setEntry location entry).unlink location = tree.unlink location := by
  refine FileTree.ext ?_ rfl rfl
  simp only [unlink, clear, setEntry, withEntry]
  by_cases hany : tree.entries.any (fun other => other.1 = location) = true
  · rw [if_pos hany, filter_replaced]
  · rw [if_neg hany, List.filter_append]
    simp

theorem unlink_of_absent (hlocation : location ≠ [])
    (habsent : tree.entry? location = none) : tree.unlink location = tree := by
  refine FileTree.ext ?_ rfl rfl
  simp only [FileTree.entry?, if_neg hlocation, Option.map_eq_none_iff, List.find?_eq_none] at habsent
  refine List.filter_eq_self.mpr fun other hmem => ?_
  simpa using habsent other hmem

theorem mem_of_entry?_ne_none (hlocation : location ≠ [])
    (hentry : tree.entry? location ≠ none) : location ∈ tree.entries.map Prod.fst := by
  simp only [FileTree.entry?, if_neg hlocation, ne_eq, Option.map_eq_none_iff, List.find?_eq_none,
    not_forall, decide_eq_true_eq, Classical.not_not] at hentry
  rcases hentry with ⟨found, hmem, heq⟩
  exact List.mem_map.mpr ⟨found, hmem, heq⟩

/-! ## Fresh names -/

theorem entry?_freshName_or (tree : FileTree) (directory : Location) (fuel number : Nat) :
    tree.entry? (directory ++ [tree.freshName directory fuel number]) = none ∨
      ∀ used, number ≤ used → used ≤ number + fuel →
        tree.entry? (directory ++ [".tmp" ++ toString used]) ≠ none := by
  induction fuel generalizing number with
  | zero =>
      by_cases hfree : tree.entry? (directory ++ [".tmp" ++ toString number]) = none
      · exact .inl hfree
      · right
        intro used hlower hupper
        have heq : used = number := by omega
        rwa [heq]
  | succ fuel ih =>
      rw [freshName]
      cases hentry : tree.entry? (directory ++ [".tmp" ++ toString number]) with
      | none => exact .inl hentry
      | some entry =>
          rcases ih (number + 1) with hfree | hused
          · exact .inl hfree
          · right
            intro used hlower hupper
            by_cases heq : used = number
            · rw [heq, hentry]
              exact Option.some_ne_none entry
            · exact hused used (by omega) (by omega)

theorem toString_injective : Function.Injective fun number : Nat => toString number := by
  intro a b heq
  have hdigits : Nat.toDigits 10 a = Nat.toDigits 10 b := by
    simpa only [Nat.toString_eq_repr, Nat.toList_repr] using congrArg String.toList heq
  calc
    a = Nat.ofDigitChars 10 (Nat.toDigits 10 a) 0 := Nat.ofDigitChars_ten_toDigits.symm
    _ = Nat.ofDigitChars 10 (Nat.toDigits 10 b) 0 := by rw [hdigits]
    _ = b := Nat.ofDigitChars_ten_toDigits

theorem temporaryName_injective (directory : Location) :
    Function.Injective fun number : Nat => directory ++ [".tmp" ++ toString number] := by
  intro a b heq
  have hnames : ".tmp" ++ toString a = ".tmp" ++ toString b := by simpa using heq
  exact toString_injective (by simpa using hnames)

/-- As there are more candidates than entries, one of them is not in use. -/
theorem entry?_freshName (tree : FileTree) (directory : Location) :
    tree.entry? (directory ++ [tree.freshName directory tree.entries.length 0]) = none := by
  rcases tree.entry?_freshName_or directory tree.entries.length 0 with hfree | hused
  · exact hfree
  · exfalso
    let candidates := (List.range (tree.entries.length + 1)).map fun number =>
      directory ++ [".tmp" ++ toString number]
    have hdistinct : candidates.Nodup :=
      List.nodup_range.map (temporaryName_injective directory)
    have hsubset : candidates ⊆ tree.entries.map Prod.fst := by
      intro candidate hmem
      rcases List.mem_map.mp hmem with ⟨number, hnumber, rfl⟩
      have hlt := List.mem_range.mp hnumber
      exact mem_of_entry?_ne_none (by simp) (hused number (by omega) (by omega))
    have hlength := hdistinct.length_le_of_subset hsubset
    simp only [candidates, List.length_map, List.length_range] at hlength
    omega

/-- A tree has one file more than another, at a place that was free. -/
structure AddsFile (tree filled : FileTree) (temporary : Location) (content : ByteArray) :
    Prop where
  free : tree.entry? temporary = none
  entry?_eq : ∀ place, filled.entry? place =
    if place = temporary then some (.file content) else tree.entry? place
  current_eq : filled.current = tree.current
  unlink_eq : filled.unlink temporary = tree

theorem addsFile_setEntry {temporary : Location} (content : ByteArray)
    (hroot : temporary ≠ []) (hfree : tree.entry? temporary = none) :
    tree.AddsFile (tree.setEntry temporary (.file content)) temporary content where
  free := hfree
  entry?_eq := FileTree.entry?_setEntry hroot
  current_eq := rfl
  unlink_eq := by rw [unlink_setEntry, unlink_of_absent hroot hfree]

theorem AddsFile.refill {filled : FileTree} {temporary : Location} {content : ByteArray}
    (hadds : tree.AddsFile filled temporary content) (other : ByteArray)
    (hroot : temporary ≠ []) :
    tree.AddsFile (filled.setEntry temporary (.file other)) temporary other where
  free := hadds.free
  entry?_eq place := by
    rw [FileTree.entry?_setEntry hroot, hadds.entry?_eq]
    by_cases heq : place = temporary <;> simp [heq]
  current_eq := hadds.current_eq
  unlink_eq := by rw [unlink_setEntry, hadds.unlink_eq]

theorem createTemporary_eq_ok {directory : String} {temporary : Location}
    {created : FileTree}
    (hcreated : tree.createTemporary directory = .ok (temporary, created)) :
    temporary ≠ [] ∧ tree.AddsFile created temporary ByteArray.empty := by
  rcases bind_eq_ok_iff.mp hcreated with ⟨parent, _, hrest⟩
  rcases bind_eq_ok_iff.mp hrest with ⟨_, _, hresult⟩
  have hpair := Except.ok.inj hresult
  rcases Prod.mk.inj hpair with ⟨rfl, rfl⟩
  have hfree := tree.entry?_freshName parent
  have hroot : parent ++ [tree.freshName parent tree.entries.length 0] ≠ [] := by simp
  exact ⟨hroot, addsFile_setEntry ByteArray.empty hroot hfree⟩

/-! ## Walks -/

/-- What is a directory in one tree is one in the other. -/
def KeepsDirectories (tree other : FileTree) : Prop :=
  ∀ place refusals, tree.entry? place = some (.directory refusals) →
    other.entry? place = some (.directory refusals)

theorem requireDirectory_eq_ok_iff {result : Unit} :
    tree.requireDirectory location = .ok result ↔
      ∃ refusals, tree.entry? location = some (.directory refusals) := by
  unfold requireDirectory
  cases hentry : tree.entry? location with
  | none => simp
  | some entry => cases entry <;> simp

theorem walk_cons (tree : FileTree) (location : Location) (name : String)
    (names : List String) :
    tree.walk location (name :: names) =
      (tree.requireDirectory location >>= fun _ =>
        tree.walk (follow location name) names) := rfl

theorem walk_append (tree : FileTree) (location : Location) (names more : List String) :
    tree.walk location (names ++ more) =
      (tree.walk location names >>= fun middle => tree.walk middle more) := by
  induction names generalizing location with
  | nil => rfl
  | cons name names ih =>
      rw [List.cons_append, walk_cons, walk_cons]
      cases tree.requireDirectory location with
      | error fault => rfl
      | ok _ => exact ih _

theorem KeepsDirectories.walk (hkeeps : tree.KeepsDirectories other)
    {names : List String} (hwalk : tree.walk location names = .ok target) :
    other.walk location names = .ok target := by
  induction names generalizing location with
  | nil => exact hwalk
  | cons name names ih =>
      rw [walk_cons] at hwalk ⊢
      rcases bind_eq_ok_iff.mp hwalk with ⟨_, hdirectory, hrest⟩
      rcases requireDirectory_eq_ok_iff.mp hdirectory with ⟨refusals, hentry⟩
      have hkept : other.requireDirectory location = .ok () :=
        requireDirectory_eq_ok_iff.mpr ⟨refusals, hkeeps _ _ hentry⟩
      exact bind_eq_ok_iff.mpr ⟨(), hkept, ih hrest⟩

theorem KeepsDirectories.locate (hkeeps : tree.KeepsDirectories other)
    (hcurrent : other.current = tree.current) (hlocate : tree.locate path = .ok target) :
    other.locate path = .ok target := by
  unfold FileTree.locate at hlocate ⊢
  by_cases hempty : path = ""
  · simp [hempty] at hlocate
  · rw [if_neg hempty] at hlocate ⊢
    have hstart : other.walkStart path = tree.walkStart path := by
      simp only [walkStart, hcurrent]
    rw [hstart]
    exact hkeeps.walk hlocate

theorem locate_of_parent {parent : Location} {name : String} (hpath : path ≠ "")
    (hlast : (pathNames path).getLast? = some name)
    (hwalk : tree.walk (tree.walkStart path) (pathNames path).dropLast = .ok parent)
    (hdirectory : tree.requireDirectory parent = .ok ())
    (hplain : ¬ (name = "." ∨ name = "..")) (hslash : endsInSlash path ≠ true) :
    tree.locate path = .ok (parent ++ [name]) := by
  rw [not_or] at hplain
  have hnames : pathNames path = (pathNames path).dropLast ++ [name] :=
    (List.dropLast_append_getLast? name hlast).symm
  have hfollow : follow parent name = parent ++ [name] := by
    simp [follow, hplain]
  rw [locate, if_neg hpath, if_neg hslash, List.append_nil, hnames, walk_append, hwalk]
  change tree.walk parent [name] = _
  rw [walk_cons, hdirectory, hfollow]
  rfl

/-- A file can only be put at the place where its path leads, and not over a
directory. -/
theorem renameTarget_eq_ok (htarget : tree.renameTarget path = .ok target) :
    tree.locate path = .ok target ∧ target ≠ [] ∧
      ∀ refusals, tree.entry? target ≠ some (.directory refusals) := by
  unfold renameTarget at htarget
  by_cases hpath : path = ""
  · simp only [if_pos hpath] at htarget
    contradiction
  · simp only [if_neg hpath] at htarget
    cases hlast : (pathNames path).getLast? with
    | none =>
        simp only [hlast] at htarget
        contradiction
    | some name =>
        simp only [hlast] at htarget
        rcases bind_eq_ok_iff.mp htarget with ⟨parent, hwalk, hrest⟩
        rcases bind_eq_ok_iff.mp hrest with ⟨_, hdirectory, hplace⟩
        by_cases hplain : name = "." ∨ name = ".."
        · simp only [if_pos hplain] at hplace
          contradiction
        · by_cases hslash : endsInSlash path = true
          · simp only [if_neg hplain, if_pos hslash] at hplace
            contradiction
          · simp only [if_neg hplain, if_neg hslash] at hplace
            have hlocate := locate_of_parent hpath hlast hwalk hdirectory hplain hslash
            cases hentry : tree.entry? (parent ++ [name]) with
            | none =>
                simp only [hentry] at hplace
                obtain rfl := Except.ok.inj hplace
                simp [hlocate, hentry]
            | some entry =>
                cases entry with
                | directory refusals =>
                    simp only [hentry] at hplace
                    contradiction
                | file content refusal =>
                    simp only [hentry] at hplace
                    obtain rfl := Except.ok.inj hplace
                    simp [hlocate, hentry]

/-! ## Replacing a file -/

/-- Two trees differ in one place, to which a path leads in both and where the second
holds a file of the given content. -/
structure ReplacedAt (tree after : FileTree) (path : String) (target : Location)
    (content : ByteArray) : Prop where
  located : tree.locate path = .ok target
  found : after.lookup path = .ok (.file content)
  placed : after.entry? target = some (.file content)
  kept : ∀ place, place ≠ target → after.entry? place = tree.entry? place
  current_eq : after.current = tree.current

theorem replacedAt_of_entry? {after : FileTree} {content : ByteArray}
    (hlocated : tree.locate path = .ok target)
    (htarget : ∀ refusals, tree.entry? target ≠ some (.directory refusals))
    (hentries : ∀ place, after.entry? place =
      if place = target then some (.file content) else tree.entry? place)
    (hcurrent : after.current = tree.current) :
    tree.ReplacedAt after path target content where
  located := hlocated
  found := by
    have hkeeps : tree.KeepsDirectories after := by
      intro place refusals hdirectory
      have hplace : place ≠ target := by
        rintro rfl
        exact htarget refusals hdirectory
      rw [hentries, if_neg hplace, hdirectory]
    have hlocate := hkeeps.locate hcurrent hlocated
    refine bind_eq_ok_iff.mpr ⟨target, hlocate, ?_⟩
    rw [hentries, if_pos rfl]
    rfl
  placed := by rw [hentries, if_pos rfl]
  kept := by
    intro place hplace
    rw [hentries, if_neg hplace]
  current_eq := hcurrent

/-- Renaming the file that a tree has more replaces what a path names, and only that. -/
theorem AddsFile.replacedAt {temporary : Location} {filled renamed : FileTree}
    {content : ByteArray} (hadds : tree.AddsFile filled temporary content)
    (hrenamed : filled.rename temporary path = .ok renamed) :
    ∃ target, tree.ReplacedAt renamed path target content := by
  rcases bind_eq_ok_iff.mp hrenamed with ⟨target, htarget, hrest⟩
  rcases renameTarget_eq_ok htarget with ⟨hlocate, hroot, hdirectory⟩
  have hkeeps : filled.KeepsDirectories tree := by
    intro place refusals hplace
    rw [hadds.entry?_eq] at hplace
    by_cases heq : place = temporary
    · simp [heq] at hplace
    · rwa [if_neg heq] at hplace
  have htree : ∀ refusals, tree.entry? target ≠ some (.directory refusals) := by
    intro refusals
    by_cases heq : target = temporary
    · simp [heq, hadds.free]
    · have hdirectory := hdirectory refusals
      rwa [hadds.entry?_eq, if_neg heq] at hdirectory
  rw [hadds.entry?_eq, if_pos rfl] at hrest
  have hentries : (∀ place, renamed.entry? place =
      if place = target then some (.file content) else tree.entry? place) ∧
      renamed.current = tree.current := by
    by_cases hsame : target = temporary
    · simp only [if_pos hsame] at hrest
      obtain rfl := Except.ok.inj hrest
      exact ⟨hsame ▸ hadds.entry?_eq, hadds.current_eq⟩
    · simp only [if_neg hsame, hadds.unlink_eq] at hrest
      obtain rfl := Except.ok.inj hrest
      exact ⟨FileTree.entry?_setEntry hroot, rfl⟩
  exact ⟨target, replacedAt_of_entry? (hkeeps.locate hadds.current_eq.symm hlocate) htree
    hentries.1 hentries.2⟩

end FileTree

end ErrorTaxonomy
