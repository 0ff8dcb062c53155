/-!
# JSON values

A value is a tree.  An object keeps its members in the order in which they are
written.  Numbers are integers or decimals; a decimal is kept as the text under
which it is written.
-/

namespace ErrorTaxonomy

inductive Json where
  | null
  | bool (value : Bool)
  | integer (value : Int)
  | decimal (literal : String)
  | string (text : String)
  | array (items : List Json)
  | object (members : List (String × Json))

end ErrorTaxonomy
