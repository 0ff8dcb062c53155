import ErrorTaxonomy.Definition

/-!
# The compiled taxonomy

A model lists definitions in compiled order and finds them by name.  Names are
unique in it: a definition whose name is already there takes the place of the
earlier one.  The queries read the hierarchy off the parent names.  Nothing keeps
a model from naming parents in a circle, and going up from such a name has no end.
-/

namespace ErrorTaxonomy

structure Model where
  definitions : List Definition
  deriving DecidableEq

namespace Model

def empty : Model where
  definitions := []

def contains (model : Model) (name : String) : Bool :=
  model.definitions.any fun definition => definition.name = name

/-- Adds a definition at the end, or in place of the one of its name. -/
def insert (model : Model) (definition : Definition) : Model where
  definitions :=
    if model.contains definition.name then
      model.definitions.map fun other =>
        if other.name = definition.name then definition else other
    else model.definitions ++ [definition]

/-- The model of definitions that are already in compiled order. -/
def ofDefinitions (definitions : List Definition) : Model :=
  definitions.foldl insert empty

def size (model : Model) : Nat :=
  model.definitions.length

def isEmpty (model : Model) : Bool :=
  model.definitions.isEmpty

def names (model : Model) : List String :=
  model.definitions.map Definition.name

def get? (model : Model) (name : String) : Option Definition :=
  model.definitions.find? fun definition => definition.name = name

/-- The position of a name in compiled order. -/
def position? (model : Model) (name : String) : Option Nat :=
  model.definitions.findIdx? fun definition => definition.name = name

def parentOf? (model : Model) (definition : Definition) : Option Definition :=
  definition.parent.bind model.get?

def parent? (model : Model) (name : String) : Option Definition :=
  (model.get? name).bind model.parentOf?

/-- The given definition and its ancestors, if the fuel is enough for all of them. -/
def chain? (model : Model) : Nat → Option Definition → Option (List Definition)
  | _, none => some []
  | 0, some _ => none
  | fuel + 1, some definition =>
      (model.chain? fuel (model.parentOf? definition)).map fun rest => definition :: rest

/-- The ancestors of a name, nearest first, or nothing if going up has no end.  Where it
has one, no definition is met twice, so there is fuel for every definition once. -/
def ancestors? (model : Model) (name : String) : Option (List Definition) :=
  model.chain? model.size (model.parent? name)

/-- The fields of a name followed by those of its ancestors, nearest first, or nothing
if these have no end. -/
def inheritedFields? (model : Model) (name : String) : Option (List Field) :=
  match model.get? name with
  | none => some []
  | some definition =>
      (model.ancestors? name).map fun ancestors =>
        (definition :: ancestors).flatMap Definition.fields

/-- The definitions whose parent has the given name, in compiled order. -/
def children (model : Model) (name : String) : List Definition :=
  model.definitions.filter fun definition => definition.parent = some name

/-- Puts a definition into the group of its level; groups are kept most severe
first. -/
def addToGroup (definition : Definition) :
    List (Level × List Definition) → List (Level × List Definition)
  | [] => [(definition.level, [definition])]
  | (level, members) :: groups =>
      if level = definition.level then (level, members ++ [definition]) :: groups
      else if definition.level.priority < level.priority then
        (definition.level, [definition]) :: (level, members) :: groups
      else (level, members) :: addToGroup definition groups

/-- The definitions by level, most severe first; a group keeps compiled order. -/
def byLevel (model : Model) : List (Level × List Definition) :=
  model.definitions.foldl (fun groups definition => addToGroup definition groups) []

end Model

end ErrorTaxonomy
