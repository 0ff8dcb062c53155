/-!
# Compile errors

The ways in which fragments fail to form a taxonomy.  Each error has a code, a
short description of the code, a message about the case at hand and a hint at
its remedy.
-/

namespace ErrorTaxonomy

inductive CompileError where
  | missingMetadata (name : String)
  | duplicateName (name : String)
  | duplicateField (error field : String)
  | unknownLevel (error level : String)
  | unknownParent (child parent : String)
  | inheritanceCycle (cycle : List String)
  | unknownType (error field token : String)
  deriving DecidableEq

namespace CompileError

def code : CompileError → String
  | missingMetadata _ => "E100"
  | duplicateName _ => "E101"
  | duplicateField _ _ => "E102"
  | unknownLevel _ _ => "E103"
  | unknownParent _ _ => "E200"
  | inheritanceCycle _ => "E201"
  | unknownType _ _ _ => "E300"

def description : CompileError → String
  | missingMetadata _ => "missing metadata"
  | duplicateName _ => "duplicate error name"
  | duplicateField _ _ => "duplicate metadata field"
  | unknownLevel _ _ => "unknown level"
  | unknownParent _ _ => "undefined parent"
  | inheritanceCycle _ => "inheritance cycle"
  | unknownType _ _ _ => "unknown metadata type"

def message : CompileError → String
  | missingMetadata name => "no metadata found for error `" ++ name ++ "`"
  | duplicateName name => "error `" ++ name ++ "` is defined multiple times"
  | duplicateField error field =>
      "metadata field `" ++ field ++
        "` is declared multiple times for error `" ++ error ++ "`"
  | unknownLevel error level =>
      "error `" ++ error ++ "` has unknown level `" ++ level ++ "`"
  | unknownParent child parent =>
      "error `" ++ child ++ "` inherits from undefined error `" ++ parent ++ "`"
  | inheritanceCycle cycle =>
      "inheritance cycle detected: " ++ String.intercalate " -> " cycle
  | unknownType error field token =>
      "metadata field `" ++ field ++ "` of error `" ++ error ++
        "` has unknown type `" ++ token ++ "`"

def help : CompileError → String
  | missingMetadata name =>
      "add a metadata record named `" ++ name ++
        "` to the interface's metadata file"
  | duplicateName _ =>
      "error names must be unique across all interfaces; rename or remove one"
  | duplicateField _ _ =>
      "the text before `=` in each `str` entry must be unique per error"
  | unknownLevel _ _ =>
      "valid levels are EMERG, ALERT, CRIT, ERR, WARNING, NOTICE, INFO and DEBUG"
  | unknownParent _ parent =>
      "define `" ++ parent ++ "` or include its interface in the compilation"
  | inheritanceCycle _ =>
      "remove one `inherits` entry so the hierarchy forms a tree"
  | unknownType _ _ _ =>
      "valid types are int16, int32, int64, uint16, uint32, uint64, double and string"

end CompileError

end ErrorTaxonomy
