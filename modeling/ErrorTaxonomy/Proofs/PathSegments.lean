import ErrorTaxonomy.Files.FileTree
import Mathlib.Data.List.Basic

/-!
# Segments of paths

Splitting a path at its slashes and joining the segments undo each other.  What a path
is taken apart into depends on its first segment only, as far as the beginning goes, and
what is dropped at the end are dots and empty segments, which lead nowhere else.  So a
path that is made of a directory and a name has this name as its file name, and its
parent has the names of the directory, up to dots at the end.
-/

namespace ErrorTaxonomy

/-! ## Segments -/

theorem splitSegments_slash (rest : List Char) :
    splitSegments ('/' :: rest) = [] :: splitSegments rest := rfl

theorem splitSegments_ne_nil (text : List Char) : splitSegments text ≠ [] := by
  cases text with
  | nil => simp [splitSegments]
  | cons c rest =>
      by_cases hc : c = '/'
      · simp [splitSegments, hc]
      · rw [splitSegments, if_neg hc]
        cases splitSegments rest <;> simp

theorem splitSegments_cons {c : Char} (hc : c ≠ '/') (rest : List Char) :
    ∃ segment segments, splitSegments rest = segment :: segments ∧
      splitSegments (c :: rest) = (c :: segment) :: segments := by
  obtain ⟨segment, segments, hrest⟩ := List.exists_cons_of_ne_nil (splitSegments_ne_nil rest)
  refine ⟨segment, segments, hrest, ?_⟩
  rw [splitSegments, if_neg hc, hrest]

theorem splitSegments_append (before after : List Char) :
    splitSegments (before ++ '/' :: after) = splitSegments before ++ splitSegments after := by
  induction before with
  | nil => rfl
  | cons c before ih =>
      by_cases hc : c = '/'
      · subst hc
        rw [List.cons_append, splitSegments_slash, splitSegments_slash, ih, List.cons_append]
      · obtain ⟨segment, segments, hbefore, hsplit⟩ := splitSegments_cons hc before
        rw [List.cons_append, hsplit, splitSegments, if_neg hc, ih, hbefore]
        rfl

theorem splitSegments_of_notMem {name : List Char} (hname : '/' ∉ name) :
    splitSegments name = [name] := by
  induction name with
  | nil => rfl
  | cons c name ih =>
      rw [List.mem_cons, not_or] at hname
      rw [splitSegments, if_neg (Ne.symm hname.1), ih hname.2]

theorem notMem_of_mem_splitSegments {text segment : List Char}
    (hmem : segment ∈ splitSegments text) : '/' ∉ segment := by
  induction text generalizing segment with
  | nil => simp_all [splitSegments]
  | cons c rest ih =>
      by_cases hc : c = '/'
      · subst hc
        rw [splitSegments_slash, List.mem_cons] at hmem
        rcases hmem with rfl | hmem
        · simp
        · exact ih hmem
      · obtain ⟨first, others, hrest, hsplit⟩ := splitSegments_cons hc rest
        rw [hrest] at ih
        rw [hsplit, List.mem_cons] at hmem
        rcases hmem with rfl | hmem
        · simpa [Ne.symm hc] using ih List.mem_cons_self
        · exact ih (List.mem_cons_of_mem _ hmem)

theorem splitSegments_joinSegments {segments : List (List Char)} (hne : segments ≠ [])
    (hfree : ∀ segment ∈ segments, '/' ∉ segment) :
    splitSegments (joinSegments segments) = segments := by
  induction segments with
  | nil => contradiction
  | cons segment segments ih =>
      rw [List.forall_mem_cons] at hfree
      cases segments with
      | nil => exact splitSegments_of_notMem hfree.1
      | cons next segments =>
          rw [joinSegments, splitSegments_append, splitSegments_of_notMem hfree.1,
            ih (by simp) hfree.2]
          · rfl
          · simp

theorem joinSegments_splitSegments (text : List Char) :
    joinSegments (splitSegments text) = text := by
  induction text with
  | nil => rfl
  | cons c rest ih =>
      obtain ⟨segment, segments, hrest⟩ := List.exists_cons_of_ne_nil (splitSegments_ne_nil rest)
      by_cases hc : c = '/'
      · subst hc
        rw [splitSegments_slash, hrest, joinSegments, ← hrest, ih]
        · rfl
        · simp
      · rw [splitSegments, if_neg hc]
        rw [hrest] at ih ⊢
        rw [← ih]
        cases segments <;> rfl

/-- The names that segments make up; a segment without characters makes up none. -/
def segmentNames (segments : List (List Char)) : List String :=
  (segments.filter (· ≠ [])).map String.ofList

@[simp] theorem segmentNames_nil : segmentNames [] = [] := rfl

@[simp] theorem segmentNames_nil_cons (segments : List (List Char)) :
    segmentNames ([] :: segments) = segmentNames segments := by
  simp [segmentNames]

theorem segmentNames_cons {segment : List Char} (hsegment : segment ≠ [])
    (segments : List (List Char)) :
    segmentNames (segment :: segments) = String.ofList segment :: segmentNames segments := by
  simp [segmentNames, hsegment]

@[simp] theorem segmentNames_append (segments others : List (List Char)) :
    segmentNames (segments ++ others) = segmentNames segments ++ segmentNames others := by
  simp [segmentNames]

theorem FileTree.pathNames_eq (path : String) :
    FileTree.pathNames path = segmentNames (splitSegments path.toList) := rfl

namespace PathParts

/-- The names on the way, where a dot at the beginning of a path is one. -/
def names (parts : PathParts) : List String :=
  (if parts.anchor = ['.'] then ["."] else []) ++ segmentNames parts.segments

/-- What can be taken from the beginning of a path: the slash or the dot is followed by
a slash, and without either there is a first segment that means something. -/
inductive IsBeginning : PathParts → Prop
  | rooted (segments : List (List Char)) : IsBeginning ⟨['/'], segments⟩
  | here (segments : List (List Char)) : (∀ segment ∈ segments.head?, segment = []) →
      IsBeginning ⟨['.'], segments⟩
  | plain {first : List Char} (rest : List (List Char)) : isVoid first = false →
      IsBeginning ⟨[], first :: rest⟩

theorem isVoid_iff {segment : List Char} :
    isVoid segment = true ↔ segment = [] ∨ segment = ['.'] := by
  simp [isVoid]

theorem ne_nil_of_isVoid_eq_false {segment : List Char} (hsegment : isVoid segment = false) :
    segment ≠ [] := by
  intro hnil
  subst hnil
  simp [isVoid] at hsegment

/-- Trimming drops nothing but segments at the end that mean nothing. -/
theorem exists_trimmed_append (parts : PathParts) :
    ∃ void, parts.segments = parts.trimmed.segments ++ void ∧
      ∀ segment ∈ void, isVoid segment = true := by
  refine ⟨(parts.segments.reverse.takeWhile isVoid).reverse, ?_, ?_⟩
  · have hsplit := List.takeWhile_append_dropWhile (p := isVoid) (l := parts.segments.reverse)
    rw [trimmed, ← List.reverse_append, hsplit, List.reverse_reverse]
  · intro segment hmem
    rw [List.mem_reverse] at hmem
    exact List.all_eq_true.mp List.all_takeWhile _ hmem

theorem trimmed_append {parts : PathParts} {segment : List Char}
    (hsegment : isVoid segment = false) :
    ({ parts with segments := parts.segments ++ [segment] } : PathParts).trimmed =
      { parts with segments := parts.segments ++ [segment] } := by
  simp [trimmed, hsegment]

theorem exists_names_eq (parts : PathParts) :
    ∃ dots, parts.names = parts.trimmed.names ++ dots ∧ ∀ name ∈ dots, name = "." := by
  obtain ⟨void, hsegments, hvoid⟩ := parts.exists_trimmed_append
  refine ⟨segmentNames void, ?_, ?_⟩
  · rw [names, hsegments, segmentNames_append, ← List.append_assoc]
    rfl
  · intro name hname
    obtain ⟨segment, hmem, rfl⟩ := List.mem_map.mp hname
    rw [List.mem_filter] at hmem
    have hdot := (isVoid_iff.mp (hvoid segment hmem.1)).resolve_left (by simpa using hmem.2)
    rw [hdot]

theorem IsBeginning.trimmed {parts : PathParts} (hparts : parts.IsBeginning) :
    parts.trimmed.IsBeginning := by
  obtain ⟨void, hsegments, hvoid⟩ := parts.exists_trimmed_append
  cases hparts with
  | rooted segments => exact .rooted _
  | here segments hfirst =>
      refine .here _ fun segment hsegment => hfirst segment ?_
      change segments = _ at hsegments
      rw [hsegments, List.head?_append]
      exact Option.mem_def.mpr (Option.or_eq_some_iff.mpr (.inl hsegment))
  | @plain first rest hfirst =>
      change first :: rest = _ at hsegments
      cases htrimmed : (PathParts.mk [] (first :: rest)).trimmed.segments with
      | nil =>
          rw [htrimmed, List.nil_append] at hsegments
          have hfirstVoid := hvoid first (hsegments ▸ List.mem_cons_self)
          simp [hfirst] at hfirstVoid
      | cons segment segments =>
          rw [htrimmed] at hsegments
          obtain rfl := (List.cons.inj hsegments).1
          have heq : (PathParts.mk [] (first :: rest)).trimmed = ⟨[], first :: segments⟩ :=
            congrArg (PathParts.mk []) htrimmed
          rw [heq]
          exact .plain segments hfirst

theorem IsBeginning.pathNames_text {parts : PathParts} (hparts : parts.IsBeginning)
    (hfree : ∀ segment ∈ parts.segments, '/' ∉ segment) :
    FileTree.pathNames (String.ofList parts.text) = parts.names := by
  rw [FileTree.pathNames_eq, String.toList_ofList]
  cases hparts with
  | rooted segments =>
      cases segments with
      | nil => rfl
      | cons segment segments =>
          change segmentNames ([] :: splitSegments (joinSegments (segment :: segments))) = _
          rw [splitSegments_joinSegments (by simp) hfree, segmentNames_nil_cons]
          rfl
  | here segments hfirst =>
      cases segments with
      | nil => rfl
      | cons segment segments =>
          obtain rfl := hfirst segment rfl
          have hsplit := splitSegments_joinSegments (List.cons_ne_nil _ _) hfree
          change segmentNames (splitSegments ('.' :: joinSegments ([] :: segments))) = _
          rw [splitSegments, if_neg (by decide), hsplit]
          change segmentNames (['.'] :: segments) = ["."] ++ segmentNames ([] :: segments)
          rw [segmentNames_cons (by simp), segmentNames_nil_cons]
          rfl
  | plain rest hfirst =>
      change segmentNames (splitSegments (joinSegments _)) = _
      rw [splitSegments_joinSegments (by simp) hfree]
      rfl

theorem IsBeginning.head?_text {parts : PathParts} (hparts : parts.IsBeginning)
    (hfree : ∀ segment ∈ parts.segments, '/' ∉ segment) :
    parts.text.head? = some '/' ↔ parts.anchor = ['/'] := by
  cases hparts with
  | rooted segments => simp [text]
  | here segments hfirst => simp [text]
  | @plain first rest hfirst =>
      obtain ⟨c, cs, rfl⟩ :=
        List.exists_cons_of_ne_nil (ne_nil_of_isVoid_eq_false hfirst)
      have hc : c ≠ '/' := by
        rintro rfl
        simpa using hfree _ List.mem_cons_self
      cases rest <;> simp [text, joinSegments, hc]

theorem IsBeginning.text_ne_nil {parts : PathParts} (hparts : parts.IsBeginning) :
    parts.text ≠ [] := by
  cases hparts with
  | rooted segments => simp [text]
  | here segments hfirst => simp [text]
  | @plain first rest hfirst =>
      cases rest <;> simp [text, joinSegments, ne_nil_of_isVoid_eq_false hfirst]

/-- The parts of what stands before the last segment of a path. -/
def ofSegments : List (List Char) → PathParts
  | [] :: rest => ⟨['/'], rest⟩
  | ['.'] :: rest => ⟨['.'], [] :: rest⟩
  | segments => ⟨[], segments⟩

theorem ofSegments_plain {first : List Char} (hfirst : isVoid first = false)
    (rest : List (List Char)) : ofSegments (first :: rest) = ⟨[], first :: rest⟩ := by
  unfold ofSegments
  split <;> simp_all [isVoid]

theorem ofText_plain {path : List Char} (hroot : ∀ body, path ≠ '/' :: body)
    (hdot : path ≠ ['.']) (hhere : ∀ body, path ≠ '.' :: '/' :: body) :
    ofText path = ⟨[], bodySegments path⟩ := by
  unfold ofText
  split
  · exact absurd rfl (hroot _)
  · exact absurd rfl hdot
  · exact absurd rfl (hhere _)
  · rfl

theorem ofText_of_splitSegments {path name : List Char} {first : List Char}
    {rest : List (List Char)} (hname : name ≠ [])
    (hsplit : splitSegments path = first :: (rest ++ [name])) :
    ofText path =
      { ofSegments (first :: rest) with
        segments := (ofSegments (first :: rest)).segments ++ [name] } := by
  obtain ⟨next, others, hnext⟩ := List.exists_cons_of_ne_nil (l := rest ++ [name]) (by simp)
  have hfree : ∀ segment ∈ first :: next :: others, '/' ∉ segment := by
    intro segment hmem
    rw [← hnext, ← hsplit] at hmem
    exact notMem_of_mem_splitSegments hmem
  have hbody : splitSegments (joinSegments (next :: others)) = rest ++ [name] := by
    rw [hnext]
    exact splitSegments_joinSegments (by simp) (List.forall_mem_cons.mp hfree).2
  have hpath : path = first ++ '/' :: joinSegments (next :: others) := by
    rw [← joinSegments_splitSegments path, hsplit, hnext, joinSegments]
    simp
  have hbodyNe : joinSegments (next :: others) ≠ [] := by
    intro hnil
    rw [hnil] at hbody
    have hlast := congrArg List.getLast? hbody
    simp only [splitSegments, List.getLast?_singleton, List.getLast?_concat] at hlast
    exact hname (Option.some.inj hlast).symm
  subst hpath
  cases hvoid : isVoid first with
  | true =>
      rcases isVoid_iff.mp hvoid with rfl | rfl
      · change PathParts.mk ['/'] (bodySegments (joinSegments (next :: others))) = _
        rw [bodySegments, if_neg hbodyNe, hbody]
        rfl
      · change PathParts.mk ['.'] ([] :: splitSegments (joinSegments (next :: others))) = _
        rw [hbody]
        rfl
  | false =>
      obtain ⟨c, cs, rfl⟩ :=
        List.exists_cons_of_ne_nil (ne_nil_of_isVoid_eq_false hvoid)
      have hc : c ≠ '/' := by
        rintro rfl
        simpa using hfree _ List.mem_cons_self
      have hhere : ∀ body, c :: cs ++ '/' :: joinSegments (next :: others) ≠
          '.' :: '/' :: body := by
        intro body heq
        rcases cs with _ | ⟨d, cs⟩
        · simp_all [isVoid]
        · have hd : d = '/' := by simp_all
          simp [hd] at hfree
      rw [ofSegments_plain hvoid, ofText_plain (by simp [hc]) (by simp) hhere, bodySegments,
        if_neg (by simp), hsplit]
      rfl

theorem isBeginning_ofSegments (first : List Char) (rest : List (List Char)) :
    (ofSegments (first :: rest)).IsBeginning := by
  cases hvoid : isVoid first with
  | true =>
      rcases isVoid_iff.mp hvoid with rfl | rfl
      · exact .rooted _
      · exact .here _ (by simp)
  | false =>
      rw [ofSegments_plain hvoid]
      exact .plain _ hvoid

theorem names_ofSegments (segments : List (List Char)) :
    (ofSegments segments).names = segmentNames segments := by
  unfold ofSegments
  split
  · simp [names]
  · simp [names, segmentNames]
  · simp [names]

theorem anchor_ofSegments_iff {first : List Char} {rest : List (List Char)} :
    (ofSegments (first :: rest)).anchor = ['/'] ↔ first = [] := by
  cases hvoid : isVoid first with
  | true => rcases isVoid_iff.mp hvoid with rfl | rfl <;> simp [ofSegments]
  | false =>
      simp [ofSegments_plain hvoid, ne_nil_of_isVoid_eq_false hvoid]

theorem notMem_of_mem_ofSegments {segments : List (List Char)}
    (hfree : ∀ segment ∈ segments, '/' ∉ segment) :
    ∀ segment ∈ (ofSegments segments).segments, '/' ∉ segment := by
  unfold ofSegments
  split
  · exact fun segment hmem => hfree segment (List.mem_cons_of_mem _ hmem)
  · rw [List.forall_mem_cons] at hfree ⊢
    exact ⟨by simp, hfree.2⟩
  · exact hfree

end PathParts

/-! ## Names below a directory -/

theorem toList_ne_nil {text : String} (htext : text ≠ "") : text.toList ≠ [] := by
  rwa [ne_eq, String.toList_eq_nil_iff]

/-- A name that an entry of a directory can have. -/
structure IsFileName (name : String) : Prop where
  ne_empty : name ≠ ""
  slash_notMem : '/' ∉ name.toList
  ne_here : name ≠ "."
  ne_above : name ≠ ".."

instance (name : String) : Decidable (IsFileName name) :=
  decidable_of_iff (name ≠ "" ∧ '/' ∉ name.toList ∧ name ≠ "." ∧ name ≠ "..")
    ⟨fun h => ⟨h.1, h.2.1, h.2.2.1, h.2.2.2⟩,
      fun h => ⟨h.ne_empty, h.slash_notMem, h.ne_here, h.ne_above⟩⟩

section Joined

variable {path name : String}

theorem splitSegments_head {text first : List Char} {rest : List (List Char)}
    (hsplit : splitSegments text = first :: rest) :
    first = [] ↔ (text ++ ['/']).head? = some '/' := by
  cases text with
  | nil =>
      rw [splitSegments] at hsplit
      simp [← (List.cons.inj hsplit).1]
  | cons c text =>
      by_cases hc : c = '/'
      · subst hc
        rw [splitSegments_slash] at hsplit
        simp [← (List.cons.inj hsplit).1]
      · obtain ⟨segment, segments, -, hcons⟩ := splitSegments_cons hc text
        rw [hcons] at hsplit
        simp [← (List.cons.inj hsplit).1, hc]

theorem joinPath_eq (hpath : path ≠ "") (hslash : '/' ∉ name.toList) :
    joinPath path name =
      if path.toList.getLast? = some '/' then path ++ name else path ++ "/" ++ name := by
  rw [joinPath, if_neg]
  rintro (hhead | hempty)
  · exact hslash (List.mem_of_mem_head? hhead)
  · exact hpath hempty

/-- The segments of a path that is made of a directory and a name: those of the directory
and then the name. -/
theorem splitSegments_joinPath (hpath : path ≠ "") (hslash : '/' ∉ name.toList) :
    ∃ first rest, splitSegments (joinPath path name).toList = first :: (rest ++ [name.toList]) ∧
      segmentNames (first :: rest) = FileTree.pathNames path ∧
      (first = [] ↔ path.toList.head? = some '/') := by
  have hchars := toList_ne_nil hpath
  have hname : splitSegments name.toList = [name.toList] := splitSegments_of_notMem hslash
  rw [joinPath_eq hpath hslash]
  by_cases hends : path.toList.getLast? = some '/'
  · rw [if_pos hends]
    obtain ⟨before, hbefore⟩ := List.getLast?_eq_some_iff.mp hends
    obtain ⟨first, rest, hsplit⟩ := List.exists_cons_of_ne_nil (splitSegments_ne_nil before)
    refine ⟨first, rest, ?_, ?_, ?_⟩
    · rw [String.toList_append, hbefore, List.append_assoc, List.singleton_append,
        splitSegments_append, hsplit, hname]
      rfl
    · rw [FileTree.pathNames_eq, hbefore, splitSegments_append, hsplit, segmentNames_append]
      exact (List.append_nil _).symm
    · rw [hbefore]
      exact splitSegments_head hsplit
  · rw [if_neg hends]
    obtain ⟨first, rest, hsplit⟩ := List.exists_cons_of_ne_nil (splitSegments_ne_nil path.toList)
    refine ⟨first, rest, ?_, ?_, ?_⟩
    · have hjoined : (path ++ "/" ++ name).toList = path.toList ++ '/' :: name.toList := by
        simp
      rw [hjoined, splitSegments_append, hsplit, hname]
      rfl
    · rw [FileTree.pathNames_eq, hsplit]
    · rw [splitSegments_head hsplit, List.head?_append_of_ne_nil _ hchars]

theorem isVoid_eq_false (hname : IsFileName name) : PathParts.isVoid name.toList = false := by
  rw [Bool.eq_false_iff, ne_eq, PathParts.isVoid_iff, not_or]
  constructor
  · exact toList_ne_nil hname.ne_empty
  · intro hdot
    exact hname.ne_here (String.toList_inj.mp hdot)

theorem trimmed_joinPath {first : List Char} {rest : List (List Char)}
    (hname : IsFileName name)
    (hsplit : splitSegments (joinPath path name).toList = first :: (rest ++ [name.toList])) :
    (PathParts.ofText (joinPath path name).toList).trimmed =
      { PathParts.ofSegments (first :: rest) with
        segments := (PathParts.ofSegments (first :: rest)).segments ++ [name.toList] } := by
  rw [PathParts.ofText_of_splitSegments (toList_ne_nil hname.ne_empty) hsplit,
    PathParts.trimmed_append (isVoid_eq_false hname)]

theorem fileName?_joinPath (hpath : path ≠ "") (hname : IsFileName name) :
    fileName? (joinPath path name) = some name := by
  obtain ⟨first, rest, hsplit, -, -⟩ := splitSegments_joinPath hpath hname.slash_notMem
  have habove : name.toList ≠ ['.', '.'] := fun heq =>
    hname.ne_above (String.toList_inj.mp heq)
  rw [fileName?, trimmed_joinPath hname hsplit]
  simp [habove]

theorem parentPath?_joinPath (hpath : path ≠ "") (hname : IsFileName name) :
    ∃ parent dots, parentPath? (joinPath path name) = some parent ∧ parent ≠ "" ∧
      (parent.toList.head? = some '/' ↔ path.toList.head? = some '/') ∧
      FileTree.pathNames path = FileTree.pathNames parent ++ dots ∧
      ∀ other ∈ dots, other = "." := by
  obtain ⟨first, rest, hsplit, hnames, hhead⟩ :=
    splitSegments_joinPath hpath hname.slash_notMem
  let parts := PathParts.ofSegments (first :: rest)
  have hbeginning : parts.trimmed.IsBeginning :=
    (PathParts.isBeginning_ofSegments first rest).trimmed
  have hfree : ∀ segment ∈ parts.trimmed.segments, '/' ∉ segment := by
    have hall : ∀ segment ∈ first :: rest, '/' ∉ segment := by
      intro segment hmem
      have hmem' : segment ∈ splitSegments (joinPath path name).toList := by
        rw [hsplit, ← List.cons_append]
        exact List.mem_append_left _ hmem
      exact notMem_of_mem_splitSegments hmem'
    obtain ⟨void, hsegments, -⟩ := parts.exists_trimmed_append
    intro segment hmem
    apply PathParts.notMem_of_mem_ofSegments hall
    change segment ∈ parts.segments
    rw [hsegments]
    exact List.mem_append_left _ hmem
  obtain ⟨dots, hdots, hdot⟩ := parts.exists_names_eq
  refine ⟨String.ofList parts.trimmed.text, dots, ?_, ?_, ?_, ?_, hdot⟩
  · rw [parentPath?, trimmed_joinPath hname hsplit]
    simp [parts]
  · rw [ne_eq, ← String.toList_eq_nil_iff, String.toList_ofList]
    exact hbeginning.text_ne_nil
  · rw [String.toList_ofList, hbeginning.head?_text hfree, ← hhead]
    exact PathParts.anchor_ofSegments_iff
  · rw [hbeginning.pathNames_text hfree, ← hdots, PathParts.names_ofSegments, hnames]

theorem pathNames_joinPath (hpath : path ≠ "") (hne : name ≠ "")
    (hslash : '/' ∉ name.toList) :
    FileTree.pathNames (joinPath path name) = FileTree.pathNames path ++ [name] := by
  obtain ⟨first, rest, hsplit, hnames, -⟩ := splitSegments_joinPath hpath hslash
  rw [FileTree.pathNames_eq, hsplit, ← List.cons_append, segmentNames_append, hnames,
    segmentNames_cons (toList_ne_nil hne), String.ofList_toList, segmentNames_nil]

theorem toList_joinPath_eq (hpath : path ≠ "") (hslash : '/' ∉ name.toList) :
    ∃ between, (joinPath path name).toList = path.toList ++ (between ++ name.toList) := by
  rw [joinPath_eq hpath hslash]
  by_cases hends : path.toList.getLast? = some '/'
  · rw [if_pos hends]
    exact ⟨[], by simp⟩
  · rw [if_neg hends]
    exact ⟨['/'], by simp⟩

end Joined

end ErrorTaxonomy
