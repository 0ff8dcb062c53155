import ErrorTaxonomy.Yaml.Parser
import ErrorTaxonomy.Yaml.Scanner

/-!
# YAML documents

The events of a document make up a tree of nodes.  Where they stop before the
document does, a `missing` node takes the place of what would have followed, so
that a reader of the tree notices it only when it gets there.

An alias refers to an anchor by number.  The number of an anchor is the count of
different names that were in use when it was met; an anchor met later may have
the same number, and then takes the place of the earlier one for every alias.
-/

namespace ErrorTaxonomy.Yaml

inductive Node where
  | missing
  | scalar (mark : Mark) (style : ScalarStyle) (tag : Option String) (content : String)
  | sequence (mark : Mark) (items : List Node)
  | mapping (mark : Mark) (entries : List (Node × Node))
  | alias (mark : Mark) (target : Nat)

/-- Why a document is not complete. -/
inductive DocumentFault where
  | problem (problem : Problem)
  | unknownAnchor (mark : Mark)
  deriving DecidableEq

/-- An anchored node: its number and its place among all anchors. -/
structure Anchorage where
  number : Nat
  place : Nat

/-- A collection whose end has not been met, its latest part first. -/
inductive OpenNode where
  | sequence (anchorage : Option Anchorage) (mark : Mark) (items : List Node)
  | mapping (anchorage : Option Anchorage) (mark : Mark) (entries : List (Node × Node))
      (key : Option Node)

structure Composer where
  opened : List OpenNode := []
  root : Option Node := none
  numbers : List (String × Nat) := []
  anchors : Nat := 0
  targets : List (Anchorage × Node) := []

namespace Composer

def place (composer : Composer) (node : Node) : Composer :=
  match composer.opened with
  | [] => { composer with root := some node }
  | .sequence anchorage mark items :: opened =>
      { composer with opened := .sequence anchorage mark (node :: items) :: opened }
  | .mapping anchorage mark entries none :: opened =>
      { composer with opened := .mapping anchorage mark entries (some node) :: opened }
  | .mapping anchorage mark entries (some key) :: opened =>
      { composer with
        opened := .mapping anchorage mark ((key, node) :: entries) none :: opened }

def addTarget (composer : Composer) (anchorage : Option Anchorage) (node : Node) : Composer :=
  match anchorage with
  | none => composer
  | some anchorage => { composer with targets := (anchorage, node) :: composer.targets }

def anchor (composer : Composer) (name : Option String) : Option Anchorage × Composer :=
  match name with
  | none => (none, composer)
  | some name =>
      let number := composer.numbers.length
      let others := composer.numbers.filter fun entry => entry.1 ≠ name
      (some { number, place := composer.anchors },
        { composer with
          numbers := (name, number) :: others
          anchors := composer.anchors + 1 })

def close (composer : Composer) : Composer :=
  match composer.opened with
  | [] => composer
  | .sequence anchorage mark items :: opened =>
      let node := Node.sequence mark items.reverse
      (({ composer with opened } : Composer).addTarget anchorage node).place node
  | .mapping anchorage mark entries key :: opened =>
      let entries :=
        match key with
        | none => entries
        | some key => (key, .missing) :: entries
      let node := Node.mapping mark entries.reverse
      (({ composer with opened } : Composer).addTarget anchorage node).place node

/-- Ends all collections, the innermost of them where something is missing. -/
def cut (composer : Composer) : Composer :=
  composer.opened.foldl (fun composer _ => composer.close) (composer.place .missing)

/-- Takes in an event; fails at an alias of a name that no anchor has had yet. -/
def take (composer : Composer) (event : Event) : Except DocumentFault Composer :=
  match event.kind with
  | .alias name =>
      match composer.numbers.find? fun entry => entry.1 = name with
      | some entry => .ok (composer.place (.alias event.mark entry.2))
      | none => .error (.unknownAnchor event.mark)
  | .scalar name tag style content =>
      let (anchorage, composer) := composer.anchor name
      let node := Node.scalar event.mark style tag content
      .ok ((composer.addTarget anchorage node).place node)
  | .sequenceStart name =>
      let (anchorage, composer) := composer.anchor name
      .ok
        { composer with opened := .sequence anchorage event.mark [] :: composer.opened }
  | .mappingStart name =>
      let (anchorage, composer) := composer.anchor name
      .ok
        { composer with opened := .mapping anchorage event.mark [] none :: composer.opened }
  | .sequenceEnd => .ok composer.close
  | .mappingEnd => .ok composer.close
  | _ => .ok composer

/-- Takes in events as long as there is no fault, and counts them. -/
def takeAll (composer : Composer) (count : Nat) :
    List Event → Composer × Nat × Option DocumentFault
  | [] => (composer, count, none)
  | event :: events =>
      match composer.take event with
      | .error fault => (composer, count, some fault)
      | .ok composer => composer.takeAll (count + 1) events

end Composer

/-- The first document of a text.  The root is absent from a text without any
content; `isAlone` says that nothing follows the document. -/
structure Document where
  root : Option Node
  targets : List (Anchorage × Node)
  events : Nat
  fault : Option DocumentFault
  isAlone : Bool

namespace Document

/-- The node that an alias refers to, which is the last one of its number. -/
def target? (document : Document) (number : Nat) : Option Node :=
  let candidates := document.targets.filter fun entry => entry.1.number = number
  (candidates.foldl
    (fun best entry =>
      match best with
      | none => some entry
      | some other => if other.1.place < entry.1.place then some entry else best)
    none).map Prod.snd

end Document

/-- The problem at which a stream of tokens or its parser stopped. -/
def stopFault (stream : TokenStream) : ParserStop → Option DocumentFault
  | .problem problem => some (.problem problem)
  | .outOfTokens => stream.stop.map .problem
  | .finished => none

/-- The first document of a text. -/
def readDocument (text : List Char) : Document :=
  let stream := scan text
  let (events, ending) := parseEvents stream.tokens
  let (composer, count, fault) := ({} : Composer).takeAll 0 events
  let fault := fault <|>
    match ending with
    | .stopped stop => stopFault stream stop
    | _ => none
  let composer :=
    if fault.isSome ∧ (composer.root.isNone ∨ composer.opened ≠ []) then composer.cut
    else composer
  { root := composer.root
    targets := composer.targets
    events := max count 1
    fault
    isAlone :=
      match ending with
      | .alone => true
      | _ => false }

end ErrorTaxonomy.Yaml
