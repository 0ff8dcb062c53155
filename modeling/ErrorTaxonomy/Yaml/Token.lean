import ErrorTaxonomy.Yaml.Cursor

/-!
# YAML tokens

The structure of a text as it is scanned.  Indentation has become tokens that
begin and end block collections, and a key has a token in front of it even where
only the colon after it shows that it is one.
-/

namespace ErrorTaxonomy.Yaml

inductive ScalarStyle where
  | plain
  | singleQuoted
  | doubleQuoted
  | literal
  | folded
  deriving DecidableEq

inductive TokenKind where
  | streamEnd
  | version (major minor : Nat)
  | tagShorthand (handle expansion : String)
  | documentStart
  | documentEnd
  | blockSequenceStart
  | blockMappingStart
  | blockEnd
  | flowSequenceStart
  | flowSequenceEnd
  | flowMappingStart
  | flowMappingEnd
  | blockEntry
  | flowEntry
  | key
  | value
  | alias (name : String)
  | anchor (name : String)
  | tag (handle suffix : String)
  | scalar (style : ScalarStyle) (content : String)
  deriving DecidableEq

structure Token where
  kind : TokenKind
  start : Mark
  stop : Mark
  deriving DecidableEq

/-- The tokens of a text, and what stopped the scan if it did not get to the end.
Tokens scanned but not yet certain when the scan stopped are left out. -/
structure TokenStream where
  tokens : List Token
  stop : Option Problem

end ErrorTaxonomy.Yaml
