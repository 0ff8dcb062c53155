import ErrorTaxonomy.Json.Printer

/-!
# Writing maps

The members of a record have fixed names, but a map has values of any kind for its
keys, and only some of them can stand as the name of a member.  A value that is
flattened into a map leaves its own members there; a value without members cannot
be flattened.
-/

namespace ErrorTaxonomy.Json

/-- The name of a member under a key, or why there is none. -/
def keyText : Json → Except String String
  | string text => .ok text
  | bool value => .ok (String.ofList (boolText value))
  | integer value => .ok (toString value)
  | decimal literal => .ok literal
  | null => .error "key must be a string"
  | array _ => .error "key must be a string"
  | object _ => .error "key must be a string"

/-- What a value leaves in the map that it is flattened into, or why it cannot be. -/
def flattened : Json → Except String (List (Json × Json))
  | object members => .ok (members.map fun member => (string member.1, member.2))
  | null => .ok []
  | bool _ => .error "can only flatten structs and maps (got a boolean)"
  | integer _ => .error "can only flatten structs and maps (got an integer)"
  | decimal _ => .error "can only flatten structs and maps (got a float)"
  | string _ => .error "can only flatten structs and maps (got a string)"
  | array _ => .error "can only flatten structs and maps (got a sequence)"

def memberOf (entry : Json × Json) : Except String (String × Json) := do
  let key ← entry.1.keyText
  pure (key, entry.2)

/-- The object of a map with the given keys and values, in order. -/
def ofMap (entries : List (Json × Json)) : Except String Json := do
  let members ← entries.mapM memberOf
  pure (object members)

end ErrorTaxonomy.Json
