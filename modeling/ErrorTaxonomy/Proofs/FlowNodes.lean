import ErrorTaxonomy.Proofs.DecodedLists
import ErrorTaxonomy.Proofs.FlowEvents
import ErrorTaxonomy.Proofs.RecordPresentation

/-!
# The nodes of flow style

The events of a value make up one node of its shape, put in its place wherever the composer
stands.  What is read off such a node depends on the value only: texts, lists and records are
read without following any alias, so records are read of every presentation as objects.
-/

namespace ErrorTaxonomy.Yaml

mutual

/-- A node with the shape and the texts of a value. -/
def IsNodeOf : Json → Node → Prop
  | .string content, node => ∃ mark, node = .scalar mark .doubleQuoted none content
  | .array items, node => ∃ mark nodes, node = .sequence mark nodes ∧ AreNodesOf items nodes
  | .object members, node =>
      ∃ mark entries, node = .mapping mark entries ∧ AreEntriesOf members entries
  | _, _ => False

def AreNodesOf : List Json → List Node → Prop
  | [], nodes => nodes = []
  | item :: items, nodes =>
      ∃ node rest, nodes = node :: rest ∧ IsNodeOf item node ∧ AreNodesOf items rest

def AreEntriesOf : List (String × Json) → List (Node × Node) → Prop
  | [], entries => entries = []
  | (key, value) :: members, entries =>
      ∃ mark node rest, entries = (.scalar mark .doubleQuoted none key, node) :: rest ∧
        IsNodeOf value node ∧ AreEntriesOf members rest

end

/-! ## Composing -/

namespace Composer

-- The composer is given apart from the collections that are open in it, as these are all that
-- changes within a value.
mutual

theorem exists_takeAll_value (value : Json) (htextual : IsTextual value) {events : List Event}
    (hevents : events.map Event.kind = eventsOf value) :
    ∃ node, IsNodeOf value node ∧ ∀ (composer : Composer) count more,
      composer.takeAll count (events ++ more) =
        (composer.place node).takeAll (count + events.length) more := by
  match value with
  | .string content =>
      rcases List.map_eq_cons_iff.mp hevents with ⟨event, rest, rfl, hkind, hrest⟩
      rw [List.map_eq_nil_iff] at hrest
      subst hrest
      refine ⟨.scalar event.mark .doubleQuoted none content, ⟨_, rfl⟩, ?_⟩
      intro composer count more
      simp only [List.cons_append, List.nil_append, takeAll, take, hkind]
      rfl
  | .array items =>
      rcases List.map_eq_cons_iff.mp hevents with ⟨event, rest, rfl, hkind, hrest⟩
      rcases exists_takeAll_items items htextual hrest with ⟨nodes, hnodes, htake⟩
      refine ⟨.sequence event.mark nodes, ⟨_, _, rfl, hnodes⟩, ?_⟩
      intro composer count more
      have hitems := htake composer event.mark [] composer.opened (count + 1) more
      simp only [List.cons_append, takeAll, take, hkind, List.length_cons]
      rw [Nat.add_comm rest.length 1, ← Nat.add_assoc]
      exact hitems
  | .object members =>
      rcases List.map_eq_cons_iff.mp hevents with ⟨event, rest, rfl, hkind, hrest⟩
      rcases exists_takeAll_members members htextual hrest with ⟨entries, hentries, htake⟩
      refine ⟨.mapping event.mark entries, ⟨_, _, rfl, hentries⟩, ?_⟩
      intro composer count more
      have hmembers := htake composer event.mark [] composer.opened (count + 1) more
      simp only [List.cons_append, takeAll, take, hkind, List.length_cons]
      rw [Nat.add_comm rest.length 1, ← Nat.add_assoc]
      exact hmembers

theorem exists_takeAll_items (items : List Json) (htextual : ItemsAreTextual items)
    {events : List Event} (hevents : events.map Event.kind = eventsOfItems items) :
    ∃ nodes, AreNodesOf items nodes ∧
      ∀ (composer : Composer) mark passed (opened : List OpenNode) count more,
        ({ composer with opened := .sequence none mark passed :: opened } : Composer).takeAll count
          (events ++ more) =
        (({ composer with opened } : Composer).place
          (.sequence mark (passed.reverse ++ nodes))).takeAll (count + events.length) more := by
  match items with
  | [] =>
      rcases List.map_eq_cons_iff.mp hevents with ⟨event, rest, rfl, hkind, hrest⟩
      rw [List.map_eq_nil_iff] at hrest
      subst hrest
      refine ⟨[], rfl, ?_⟩
      intro composer mark passed opened count more
      simp only [List.cons_append, List.nil_append, takeAll, take, hkind, List.append_nil]
      rfl
  | item :: items =>
      rcases List.map_eq_append_iff.mp hevents with ⟨first, others, rfl, hfirst, hothers⟩
      rcases exists_takeAll_value item htextual.1 hfirst with ⟨node, hnode, htakeFirst⟩
      rcases exists_takeAll_items items htextual.2 hothers with ⟨nodes, hnodes, htakeOthers⟩
      refine ⟨node :: nodes, ⟨node, nodes, rfl, hnode, hnodes⟩, ?_⟩
      intro composer mark passed opened count more
      have hothersTaken := htakeOthers composer mark (node :: passed) opened
        (count + first.length) more
      rw [List.reverse_cons, List.append_assoc] at hothersTaken
      rw [List.append_assoc, htakeFirst, List.length_append, ← Nat.add_assoc]
      exact hothersTaken

theorem exists_takeAll_members (members : List (String × Json))
    (htextual : MembersAreTextual members) {events : List Event}
    (hevents : events.map Event.kind = eventsOfMembers members) :
    ∃ entries, AreEntriesOf members entries ∧
      ∀ (composer : Composer) mark passed (opened : List OpenNode) count more,
        ({ composer with
          opened := .mapping none mark passed none :: opened } : Composer).takeAll count
          (events ++ more) =
        (({ composer with opened } : Composer).place
          (.mapping mark (passed.reverse ++ entries))).takeAll (count + events.length) more := by
  match members with
  | [] =>
      rcases List.map_eq_cons_iff.mp hevents with ⟨event, rest, rfl, hkind, hrest⟩
      rw [List.map_eq_nil_iff] at hrest
      subst hrest
      refine ⟨[], rfl, ?_⟩
      intro composer mark passed opened count more
      simp only [List.cons_append, List.nil_append, takeAll, take, hkind, List.append_nil]
      rfl
  | (key, value) :: members =>
      rcases List.map_eq_cons_iff.mp hevents with ⟨event, rest, rfl, hkind, hrest⟩
      rcases List.map_eq_append_iff.mp hrest with ⟨first, others, rfl, hfirst, hothers⟩
      rcases exists_takeAll_value value htextual.2.1 hfirst with ⟨node, hnode, htakeFirst⟩
      rcases exists_takeAll_members members htextual.2.2 hothers with
        ⟨entries, hentries, htakeOthers⟩
      refine ⟨(.scalar event.mark .doubleQuoted none key, node) :: entries,
        ⟨_, node, entries, rfl, hnode, hentries⟩, ?_⟩
      intro composer mark passed opened count more
      have hothersTaken := htakeOthers composer mark
        ((.scalar event.mark .doubleQuoted none key, node) :: passed) opened
        (count + 1 + first.length) more
      rw [List.reverse_cons, List.append_assoc] at hothersTaken
      have hcount : count + (event :: (first ++ others)).length =
          count + 1 + first.length + others.length := by
        simp only [List.length_cons, List.length_append]
        omega
      rw [hcount]
      simp only [List.cons_append, List.append_assoc, takeAll, take, hkind]
      rw [htakeFirst]
      exact hothersTaken

end

end Composer

/-- A text in flow style is a document that consists of one node of its value. -/
theorem exists_readDocument_root {value : Json} {text : List Char} (htextual : IsTextual value)
    (hflows : Flows (.value value) text []) :
    ∃ node, IsNodeOf value node ∧ (readDocument text).root = some node ∧
      (readDocument text).IsWhole := by
  rcases scan_of_flows hflows with ⟨htokens, _⟩
  rcases parseEvents_of_tokens htextual htokens with ⟨events, hevents, hparse⟩
  rcases Composer.exists_takeAll_value value htextual hevents with ⟨node, hnode, htake⟩
  have htaken := htake {} 0 []
  rw [List.append_nil] at htaken
  have hdocument : readDocument text =
      { root := some node, targets := [], events := max (0 + events.length) 1
        fault := none, isAlone := true } := by
    simp only [readDocument, hparse, htaken]
    rfl
  rw [hdocument]
  exact ⟨node, hnode, rfl, rfl, rfl⟩

/-! ## Reading -/

def ReadsNodes {α : Type} (reader : Reader α) (value : Json) (a : α) : Prop :=
  ∀ node, IsNodeOf value node → ∀ document path budget,
    reader document path node budget = .ok (a, budget)

mutual

theorem isComplete_of_isNodeOf (value : Json) {node : Node} (hnode : IsNodeOf value node) :
    node.isComplete = true := by
  match value with
  | .string content =>
      rcases hnode with ⟨mark, rfl⟩
      rfl
  | .array items =>
      rcases hnode with ⟨mark, nodes, rfl, hnodes⟩
      exact areComplete_of_areNodesOf items hnodes
  | .object members =>
      rcases hnode with ⟨mark, entries, rfl, hentries⟩
      exact entriesAreComplete_of_areEntriesOf members hentries

theorem areComplete_of_areNodesOf (items : List Json) {nodes : List Node}
    (hnodes : AreNodesOf items nodes) : areComplete nodes = true := by
  match items with
  | [] =>
      subst hnodes
      rfl
  | item :: items =>
      rcases hnodes with ⟨node, rest, rfl, hnode, hrest⟩
      rw [areComplete, isComplete_of_isNodeOf item hnode, areComplete_of_areNodesOf items hrest]
      rfl

theorem entriesAreComplete_of_areEntriesOf (members : List (String × Json))
    {entries : List (Node × Node)} (hentries : AreEntriesOf members entries) :
    entriesAreComplete entries = true := by
  match members with
  | [] =>
      subst hentries
      rfl
  | (key, value) :: members =>
      rcases hentries with ⟨mark, node, rest, rfl, hnode, hrest⟩
      rw [entriesAreComplete, isComplete_of_isNodeOf value hnode,
        entriesAreComplete_of_areEntriesOf members hrest]
      rfl

end

section Readers

variable {α Draft : Type} {reader : Reader α} {form : RecordForm Reader Draft α}

theorem readItems_of_areNodesOf {values : List Json} {items : List α}
    (hitems : List.Forall₂ (ReadsNodes reader) values items) {nodes : List Node}
    (hnodes : AreNodesOf values nodes) (document : Document) (path : Path)
    (position budget : Nat) :
    readItems reader document path position nodes budget = .ok (items, budget) := by
  induction hitems generalizing nodes position with
  | nil =>
      rw [AreNodesOf] at hnodes
      subst hnodes
      rfl
  | cons hitem _ ih =>
      rcases hnodes with ⟨node, rest, rfl, hnode, hrest⟩
      rw [readItems, hitem node hnode]
      simp only [ok_bind, ih hrest]
      rfl

theorem readTextExpecting_doubleQuoted (expected : String) (document : Document) (path : Path)
    (mark : Mark) (content : String) (budget : Nat) :
    readTextExpecting expected document path (.scalar mark .doubleQuoted none content) budget =
      .ok (content, budget) :=
  rfl

theorem readEntries_of_areEntriesOf {draft last : Draft} {members : List (String × Json)}
    (henters : Enters ReadsNodes form draft members last) {entries : List (Node × Node)}
    (hentries : AreEntriesOf members entries) (document : Document) (path : Path) (mark : Mark)
    (budget : Nat) :
    readEntries form document path mark draft entries budget = .ok (last, budget) := by
  induction henters generalizing entries with
  | done =>
      rw [AreEntriesOf] at hentries
      subst hentries
      rfl
  | @skipped _ _ key value _ hslot _ ih =>
      rcases hentries with ⟨keyMark, node, rest, rfl, hnode, hrest⟩
      rw [readEntries, readTextExpecting_doubleQuoted]
      simp only [ok_bind, hslot, isComplete_of_isNodeOf value hnode, if_true]
      exact ih hrest
  | @entered _ _ key value _ _ _ hslot hfree hreads _ ih =>
      rcases hentries with ⟨keyMark, node, rest, rfl, hnode, hrest⟩
      rw [readEntries, readTextExpecting_doubleQuoted]
      simp only [ok_bind, hslot, hfree, hreads node hnode]
      exact ih hrest

end Readers

def nodeReading : Reading Reader where
  Reads := ReadsNodes
  text := by
    intro content node hnode document path budget
    rcases hnode with ⟨mark, rfl⟩
    exact readTextExpecting_doubleQuoted "a string" document path mark content budget
  map := by
    intro α β f reader value a hreads node hnode document path budget
    have hmap : (f <$> reader) document path node budget =
        reader document path node budget >>= fun read => pure (f read.1, read.2) := rfl
    rw [hmap, hreads node hnode]
    rfl
  list := by
    intro α item values items hitems node hnode document path budget
    rcases hnode with ⟨mark, nodes, rfl, hnodes⟩
    exact readItems_of_areNodesOf hitems hnodes document path 0 budget
  record := by
    intro Draft α form members last a henters hfinish node hnode document path budget
    rcases hnode with ⟨mark, entries, rfl, hentries⟩
    have hread := readEntries_of_areEntriesOf henters hentries document path mark budget
    have hrecord : readRecord form document path (.mapping mark entries) budget =
        readMembers form document path mark entries budget := rfl
    change readRecord form document path (.mapping mark entries) budget = _
    rw [hrecord, readMembers, hread]
    simp only [ok_bind, hfinish]
    rfl

end ErrorTaxonomy.Yaml
