/-!
# Field types

A metadata field is declared with an abstract type, one of eight tokens matched
exactly, and is emitted with the native type that the abstract one stands for.
-/

namespace ErrorTaxonomy

inductive FieldType where
  | int16
  | int32
  | int64
  | uint16
  | uint32
  | uint64
  | double
  | string
  deriving DecidableEq

inductive NativeType where
  | int16
  | int32
  | int64
  | uint16
  | uint32
  | uint64
  | double
  | string
  deriving DecidableEq

namespace FieldType

def token : FieldType → String
  | int16 => "int16"
  | int32 => "int32"
  | int64 => "int64"
  | uint16 => "uint16"
  | uint32 => "uint32"
  | uint64 => "uint64"
  | double => "double"
  | string => "string"

/-- The name under which the journal shows a type. -/
def title : FieldType → String
  | int16 => "Int16"
  | int32 => "Int32"
  | int64 => "Int64"
  | uint16 => "Uint16"
  | uint32 => "Uint32"
  | uint64 => "Uint64"
  | double => "Double"
  | string => "String"

def ofToken? (token : String) : Option FieldType :=
  if token = "int16" then some int16
  else if token = "int32" then some int32
  else if token = "int64" then some int64
  else if token = "uint16" then some uint16
  else if token = "uint32" then some uint32
  else if token = "uint64" then some uint64
  else if token = "double" then some double
  else if token = "string" then some string
  else none

def native : FieldType → NativeType
  | int16 => .int16
  | int32 => .int32
  | int64 => .int64
  | uint16 => .uint16
  | uint32 => .uint32
  | uint64 => .uint64
  | double => .double
  | string => .string

/-- What is said of a token that names no type. -/
def unknownMessage (token : String) : String :=
  "unknown type `" ++ token ++
    "`, valid values: int16, int32, int64, uint16, uint32, uint64, double, string"

theorem ofToken?_token (type : FieldType) : ofToken? type.token = some type := by
  cases type <;> decide +kernel

end FieldType

namespace NativeType

def token : NativeType → String
  | int16 => "int16_t"
  | int32 => "int32_t"
  | int64 => "int64_t"
  | uint16 => "uint16_t"
  | uint32 => "uint32_t"
  | uint64 => "uint64_t"
  | double => "double"
  | string => "std::string"

def title : NativeType → String
  | int16 => "Int16"
  | int32 => "Int32"
  | int64 => "Int64"
  | uint16 => "Uint16"
  | uint32 => "Uint32"
  | uint64 => "Uint64"
  | double => "Double"
  | string => "String"

end NativeType

end ErrorTaxonomy
